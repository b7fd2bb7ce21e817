import UringServer.Storage.PgStep

/-!
# The logs of the pool

Jobs are numbered in the order of the calls of `Submit`, only calls without a ring or
to a pool that stops are rejected, and what is posted was executed before.
-/

namespace UringServer.Storage.PgWorkerPool

open UringServer.Semantics UringServer.Ring

variable {count : Nat} {Query Rows : Type} {pool next : PgWorkerPool count Query Rows}

/-- What the logs of the pool have in common. -/
structure Records (pool : PgWorkerPool count Query Rows) : Prop where
  numbered : pool.submitted.map (·.id) = List.range pool.submitted.length
  inOrder : pool.jobs.pushed.Sublist pool.submitted
  withRing : ∀ job ∈ pool.jobs.pushed, job.replyRing.isSome = true
  late : ∀ job ∈ pool.rejected, job.replyRing = none ∨ pool.stop ≠ .idle
  answering : ∀ worker job reply result, pool.workers worker = .answering job reply result →
    job.replyRing = some reply ∧ (worker, job, result) ∈ pool.executed
  posted : ∀ reply job result, (reply, job, result) ∈ pool.posted →
    job.replyRing = some reply ∧ ∃ worker, (worker, job, result) ∈ pool.executed

/-- A step that adds nothing to the logs. -/
structure Unlogged (pool next : PgWorkerPool count Query Rows) : Prop where
  submitted : next.submitted = pool.submitted
  pushed : next.jobs.pushed = pool.jobs.pushed
  rejected : next.rejected = pool.rejected
  executed : next.executed = pool.executed
  posted : next.posted = pool.posted
  stop : pool.stop ≠ .idle → next.stop ≠ .idle
  answering : ∀ worker job reply result, next.workers worker = .answering job reply result →
    pool.workers worker = .answering job reply result

theorem Records.unlogged (records : pool.Records) (unlogged : pool.Unlogged next) :
    next.Records where
  numbered := by
    rw [unlogged.submitted]
    exact records.numbered
  inOrder := by
    rw [unlogged.pushed, unlogged.submitted]
    exact records.inOrder
  withRing := by
    rw [unlogged.pushed]
    exact records.withRing
  late := by
    rw [unlogged.rejected]
    exact fun job member => (records.late job member).imp_right unlogged.stop
  answering worker job reply result control := by
    rw [unlogged.executed]
    exact records.answering worker job reply result
      (unlogged.answering worker job reply result control)
  posted := by
    rw [unlogged.posted, unlogged.executed]
    exact records.posted

/-- Only a worker that changes its state can have begun to answer. -/
theorem answering_of_update {workers : Fin count → WorkerState Query Rows} {worker : Fin count}
    {control : WorkerState Query Rows}
    (silent : ∀ job reply result, control ≠ .answering job reply result) (other : Fin count)
    (job : PgJob Query) (reply : RingId) (result : PgResult Rows)
    (answers : Function.update workers worker control other = .answering job reply result) :
    workers other = .answering job reply result := by
  rw [Function.update_apply] at answers
  split at answers
  · exact absurd answers (silent job reply result)
  · exact answers

variable {job : PgJob Query}

theorem Records.submits (records : pool.Records) (number : job.id = pool.submitted.length) :
    (pool.submitted ++ [job]).map (·.id) = List.range (pool.submitted ++ [job]).length := by
  rw [List.map_append, records.numbered, List.length_append, List.length_singleton,
    List.range_succ, List.map_singleton, number]

theorem Records.reject (records : pool.Records) (number : job.id = pool.submitted.length)
    (refused : job.replyRing = none ∨ pool.stop ≠ .idle) : (pool.reject job).Records := by
  refine ⟨records.submits number, records.inOrder.trans (List.sublist_append_left _ _),
    records.withRing, ?_, records.answering, records.posted⟩
  intro other member
  rcases List.mem_append.mp member with before | last
  · exact records.late other before
  · rw [List.mem_singleton.mp last]
    exact refused

theorem Records.enqueue (records : pool.Records)
    (number : job.id = pool.submitted.length) (ring : job.replyRing.isSome = true) :
    (pool.enqueue job).Records := by
  refine ⟨records.submits number, records.inOrder.append (List.Sublist.refl _), ?_, records.late,
    records.answering, records.posted⟩
  intro other member
  rcases List.mem_append.mp member with before | last
  · exact records.withRing other before
  · rw [List.mem_singleton.mp last]
    exact ring

theorem Records.record (records : pool.Records) {worker : Fin count}
    {result : PgResult Rows} {control : WorkerState Query Rows}
    (answers : ∀ other ring answer, control = .answering other ring answer →
      other.replyRing = some ring ∧ other = job ∧ answer = result) :
    (pool.record worker job result control).Records := by
  have grown : ∀ entry ∈ pool.executed, entry ∈ pool.executed ++ [(worker, job, result)] :=
    fun _ => List.mem_append_left _
  refine ⟨records.numbered, records.inOrder, records.withRing, records.late, ?_, ?_⟩
  · intro other otherJob ring answer answering
    change Function.update pool.workers worker control other = _ at answering
    rw [Function.update_apply] at answering
    split at answering
    · rename_i same
      obtain ⟨isRing, rfl, rfl⟩ := answers otherJob ring answer answering
      rw [same]
      exact ⟨isRing, List.mem_append_right _ List.mem_cons_self⟩
    · obtain ⟨isRing, executed⟩ := records.answering other otherJob ring answer answering
      exact ⟨isRing, grown _ executed⟩
  · intro ring other answer member
    obtain ⟨isRing, executor, executed⟩ := records.posted ring other answer member
    exact ⟨isRing, executor, grown _ executed⟩

theorem Records.reply (records : pool.Records) {worker : Fin count}
    {ring : RingId} {result : PgResult Rows}
    (answers : pool.workers worker = .answering job ring result) :
    (pool.reply worker ring job result).Records := by
  have silent : ∀ other otherRing answer,
      (.checking : WorkerState Query Rows) ≠ .answering other otherRing answer :=
    fun _ _ _ => nofun
  refine ⟨records.numbered, records.inOrder, records.withRing, records.late, ?_, ?_⟩
  · intro other otherJob otherRing answer answering
    exact records.answering other otherJob otherRing answer
      (answering_of_update silent _ _ _ _ answering)
  · intro otherRing otherJob answer member
    rcases List.mem_append.mp member with before | last
    · exact records.posted otherRing otherJob answer before
    · cases List.mem_singleton.mp last
      obtain ⟨isRing, executed⟩ := records.answering worker job ring result answers
      exact ⟨isRing, worker, executed⟩

theorem answering_of_notified {worker : WorkerState Query Rows} {ring : RingId}
    {result : PgResult Rows} (answers : worker.notified = .answering job ring result) :
    worker = .answering job ring result := by
  cases worker with
  | waiting => cases answers
  | checking | executing | answering | left => exact answers

/-- Every step keeps the records. -/
theorem Records.step (records : pool.Records) {own : Bool} (step : pool.Step own next) :
    next.Records := by
  cases step with
  | reject job number refused => exact records.reject number refused
  | enqueue job number ring => exact records.enqueue number ring
  | finish worker job ring result executes hasCallback replyRing =>
    refine records.record ?_
    rintro other otherRing answer ⟨⟩
    exact ⟨replyRing, rfl, rfl⟩
  | finishSilent worker job result => exact records.record nofun
  | reply worker job ring result answers => exact records.reply answers
  | notify | leave | wait | take | wake =>
    exact records.unlogged ⟨rfl, rfl, rfl, rfl, rfl, id, answering_of_update nofun⟩
  | notifyNone => exact records.unlogged ⟨rfl, rfl, rfl, rfl, rfl, id, fun _ _ _ _ => id⟩
  | beginStop | joinNext | joinDone =>
    exact records.unlogged ⟨rfl, rfl, rfl, rfl, rfl, fun _ => nofun, fun _ _ _ _ => id⟩
  | notifyAll =>
    exact records.unlogged ⟨rfl, rfl, rfl, rfl, rfl, fun _ => nofun,
      fun _ _ _ _ => answering_of_notified⟩

theorem records_of_reachable
    (reachable : (poolSystem count Query Rows).Reachable everyStep pool) : pool.Records := by
  refine invariant_of_step Records (fun _ => ?_) (fun records step => records.step step) reachable
  exact ⟨rfl, List.Sublist.refl _, nofun, nofun, nofun, nofun⟩

end UringServer.Storage.PgWorkerPool
