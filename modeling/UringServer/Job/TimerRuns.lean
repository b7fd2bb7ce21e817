import Mathlib.Data.List.Perm.Basic
import Mathlib.Algebra.Order.Group.Int
import UringServer.Job.JobTimer

/-!
# What a timer does with the jobs reserved

Over whole runs of a `JobTimer`, whatever its threads do and whenever the clock
goes on: every reserved job waits, has been pushed to its target once, or has
been thrown away because its target was gone; none is pushed before its time;
and a distribution takes jobs out by their time and leaves none that was due
when it read the clock.
-/

namespace UringServer.Job

open UringServer.Semantics

variable {Thread Target Job : Type}

namespace TimerState

variable {state : TimerState Thread Target Job}

/-- Where the jobs reserved have gone. -/
structure Accounted (state : TimerState Thread Target Job) : Prop where
  all : state.reserved.Perm (state.queue ++ (state.delivered.map Prod.fst ++ state.dropped))
  due : ∀ {job time}, (job, time) ∈ state.delivered → job.executeAt ≤ time ∧ time ≤ state.clock
  orphaned : ∀ {job}, job ∈ state.dropped → state.alive job.target = false

/-- What holds of a thread in the loop of `DistributeExpired`. -/
structure Distributing (state : TimerState Thread Target Job) (thread : Thread) (now : Int)
    (taken : List (ReservedJob Target Job)) : Prop where
  holds : state.holder = some thread
  read : now ≤ state.clock
  sorted : taken.Pairwise fun one two => one.executeAt ≤ two.executeAt
  due : ∀ job ∈ taken, job.executeAt ≤ now
  first : ∀ job ∈ taken, ∀ waiting ∈ state.queue, job.executeAt ≤ waiting.executeAt

/-- What holds of a thread where it stands. -/
def Fits (state : TimerState Thread Target Job) (thread : Thread) : TimerCaller Target Job → Prop
  | .idle => True
  | .reserving _ => True
  | .locking now => now ≤ state.clock
  | .looping now taken => state.Distributing thread now taken

/-- What holds of all threads. -/
def Ordered (state : TimerState Thread Target Job) : Prop :=
  ∀ thread, state.Fits thread (state.callers thread)

theorem deliver_queue (state : TimerState Thread Target Job) (job : ReservedJob Target Job) :
    (state.deliver job).queue = state.queue := by
  unfold deliver
  split <;> rfl

theorem deliver_clock (state : TimerState Thread Target Job) (job : ReservedJob Target Job) :
    (state.deliver job).clock = state.clock := by
  unfold deliver
  split <;> rfl

theorem deliver_holder (state : TimerState Thread Target Job) (job : ReservedJob Target Job) :
    (state.deliver job).holder = state.holder := by
  unfold deliver
  split <;> rfl

theorem deliver_callers (state : TimerState Thread Target Job) (job : ReservedJob Target Job) :
    (state.deliver job).callers = state.callers := by
  unfold deliver
  split <;> rfl

/-- A job that was taken out of the queue is delivered or dropped. -/
theorem Accounted.deliver {job : ReservedJob Target Job} {rest : List (ReservedJob Target Job)}
    (accounted : state.Accounted) (perm : state.queue.Perm (job :: rest))
    (due : job.executeAt ≤ state.clock) :
    ({ state with queue := rest }.deliver job).Accounted := by
  obtain ⟨all, earlier, orphaned⟩ := accounted
  have moved : state.reserved.Perm
      (rest ++ job :: (state.delivered.map Prod.fst ++ state.dropped)) :=
    (all.trans (perm.append_right _)).trans List.perm_middle.symm
  unfold TimerState.deliver
  split
  case isTrue =>
    refine ⟨?_, ?_, orphaned⟩
    · refine moved.trans (List.Perm.append_left rest ?_)
      simp only [List.map_append, List.map_cons, List.map_nil, List.append_assoc,
        List.singleton_append]
      exact List.perm_middle.symm
    · intro other time member
      rcases List.mem_append.mp member with before | now
      · exact earlier before
      · cases List.mem_singleton.mp now
        exact ⟨due, le_refl state.clock⟩
  case isFalse gone =>
    refine ⟨?_, earlier, ?_⟩
    · refine moved.trans (List.Perm.append_left rest ?_)
      simp only
      rw [← List.append_assoc]
      exact (List.perm_append_singleton job _).symm
    · intro other member
      rcases List.mem_append.mp member with before | now
      · exact orphaned before
      · rw [List.mem_singleton.mp now]
        exact eq_false_of_ne_true gone

variable {next : TimerState Thread Target Job} {thread : Thread} {caller : TimerCaller Target Job}

/-- A thread outside of the loop is not touched by what happens to the queue and the mutex. -/
theorem Fits.of_holder (fits : state.Fits thread caller)
    (forward : state.clock ≤ next.clock) (notHolder : state.holder ≠ some thread) :
    next.Fits thread caller := by
  cases caller with
  | idle => trivial
  | reserving job => trivial
  | locking now =>
    have read : now ≤ state.clock := fits
    exact read.trans forward
  | looping now taken =>
    have distributing : state.Distributing thread now taken := fits
    exact absurd distributing.holds notHolder

/-- A thread keeps what it knows as long as its mutex and the queue stay. -/
theorem Fits.of_same (fits : state.Fits thread caller)
    (forward : state.clock ≤ next.clock) (holder : next.holder = state.holder)
    (queue : next.queue = state.queue) : next.Fits thread caller := by
  cases caller with
  | idle => trivial
  | reserving job => trivial
  | locking now =>
    have read : now ≤ state.clock := fits
    exact read.trans forward
  | looping now taken =>
    obtain ⟨holds, read, sorted, due, first⟩ : state.Distributing thread now taken := fits
    exact ⟨holder.trans holds, read.trans forward, sorted, due, queue ▸ first⟩

theorem Ordered.distributing (ordered : state.Ordered) {now : Int}
    {taken : List (ReservedJob Target Job)} (found : state.callers thread = .looping now taken) :
    state.Distributing thread now taken := by
  have fits := ordered thread
  rwa [found] at fits

/-- Only the owner of the mutex is in the loop. -/
theorem Ordered.fits_other (ordered : state.Ordered) (holds : state.holder = some thread)
    (forward : state.clock ≤ next.clock) (other : Thread) (different : other ≠ thread) :
    next.Fits other (state.callers other) := by
  refine (ordered other).of_holder forward fun same => different ?_
  exact Option.some.inj (same.symm.trans holds)

/-- Nobody is in the loop while the mutex is free. -/
theorem Ordered.fits_free (ordered : state.Ordered) (free : state.holder = none)
    (forward : state.clock ≤ next.clock) (thread : Thread) :
    next.Fits thread (state.callers thread) := by
  refine (ordered thread).of_holder forward ?_
  rw [free]
  exact Option.some_ne_none thread |>.symm

/-- The job on top joins those taken out before it. -/
theorem Distributing.popTop {now : Int} {taken : List (ReservedJob Target Job)}
    {job : ReservedJob Target Job} {rest : List (ReservedJob Target Job)}
    (distributing : state.Distributing thread now taken) (perm : state.queue.Perm (job :: rest))
    (least : ∀ other ∈ rest, job.executeAt ≤ other.executeAt) (due : job.executeAt ≤ now) :
    ({ state with queue := rest }.deliver job).Distributing thread now (taken ++ [job]) := by
  obtain ⟨holds, read, sorted, earlier, first⟩ := distributing
  constructor
  · rw [deliver_holder]
    exact holds
  · rw [deliver_clock]
    exact read
  · refine List.pairwise_append.mpr ⟨sorted, List.pairwise_singleton _ job, ?_⟩
    intro one member two last
    rw [List.mem_singleton.mp last]
    exact first one member job (perm.mem_iff.mpr List.mem_cons_self)
  · intro one member
    rcases List.mem_append.mp member with before | last
    · exact earlier one before
    · rw [List.mem_singleton.mp last]
      exact due
  · rw [deliver_queue]
    intro one member waiting behind
    rcases List.mem_append.mp member with before | last
    · exact first one before waiting (perm.mem_iff.mpr (List.mem_cons_of_mem job behind))
    · rw [List.mem_singleton.mp last]
      exact least waiting behind

variable [DecidableEq Thread]

theorem Accounted.setCaller (accounted : state.Accounted) (thread : Thread)
    (caller : TimerCaller Target Job) : (state.setCaller thread caller).Accounted :=
  ⟨accounted.all, accounted.due, accounted.orphaned⟩

/-- All threads fit when the one that moved and the others do. -/
theorem Ordered.setCaller
    (others : ∀ other, other ≠ thread → state.Fits other (state.callers other))
    (own : state.Fits thread caller) : (state.setCaller thread caller).Ordered := by
  intro other
  by_cases same : other = thread
  · subst same
    rw [setCaller_callers, Function.update_self]
    exact own.of_same le_rfl rfl rfl
  · rw [setCaller_callers, Function.update_of_ne same]
    exact (others other same).of_same le_rfl rfl rfl

variable [DecidableEq Target] {next : TimerState Thread Target Job}
  {action : TimerAction Thread Target Job}

/-- One step keeps account of the jobs. -/
theorem Accounted.step (accounted : state.Accounted) (ordered : state.Ordered)
    (effect : TimerEffect state action next) : next.Accounted := by
  cases effect with
  | elapse later forward =>
    exact ⟨accounted.all, fun member => (accounted.due member).imp_right (·.trans forward),
      accounted.orphaned⟩
  | expire target =>
    refine ⟨accounted.all, accounted.due, fun {job} member => ?_⟩
    by_cases same : job.target = target
    · simp only [same, Function.update_self]
    · simp only [ne_eq, same, not_false_eq_true, Function.update_of_ne]
      exact accounted.orphaned member
  | readDelay thread milliseconds target job found => exact accounted.setCaller _ _
  | push thread job found free =>
    refine ⟨?_, accounted.due, accounted.orphaned⟩
    simp only [TimerState.setCaller]
    rw [List.append_assoc state.queue]
    refine (accounted.all.append_right [job]).trans ?_
    rw [List.append_assoc state.queue]
    exact List.Perm.append_left _ (List.perm_append_comm)
  | readNow thread found => exact accounted.setCaller _ _
  | lock thread now found free | leave thread now taken found notDue =>
    exact ⟨accounted.all, accounted.due, accounted.orphaned⟩
  | popTop thread now taken job rest found perm least due =>
    have distributing := ordered.distributing found
    exact (accounted.deliver perm (due.trans distributing.read)).setCaller _ _

/-- One step keeps what the threads know. -/
theorem Ordered.step (ordered : state.Ordered) (effect : TimerEffect state action next) :
    next.Ordered := by
  cases effect with
  | elapse later forward => exact fun thread => (ordered thread).of_same forward rfl rfl
  | expire target => exact fun thread => (ordered thread).of_same le_rfl rfl rfl
  | readDelay thread milliseconds target job found =>
    exact Ordered.setCaller (fun other _ => ordered other) trivial
  | push thread job found free =>
    refine Ordered.setCaller (fun other _ => ordered.fits_free free ?_ other) trivial
    exact le_rfl
  | readNow thread found =>
    exact Ordered.setCaller (fun other _ => ordered other) (le_refl state.clock)
  | lock thread now found free =>
    refine Ordered.setCaller (fun other _ => ordered.fits_free free (by exact le_rfl) other) ?_
    have read : now ≤ state.clock := by
      have fits := ordered thread
      rwa [found] at fits
    exact ⟨rfl, read, List.Pairwise.nil, by simp, by simp⟩
  | popTop thread now taken job rest found perm least due =>
    have distributing := ordered.distributing found
    refine Ordered.setCaller (fun other different => ?_) (distributing.popTop perm least due)
    rw [deliver_callers]
    refine ordered.fits_other distributing.holds ?_ other different
    rw [deliver_clock]
  | leave thread now taken found notDue =>
    have distributing := ordered.distributing found
    exact Ordered.setCaller (ordered.fits_other distributing.holds le_rfl) trivial

end TimerState

variable [DecidableEq Thread] [DecidableEq Target]
  {order : LeastFirst (ReservedJob Target Job) ReservedJob.executeAt}
  {state next : TimerState Thread Target Job}

/-- Both invariants hold of every run. -/
theorem timer_invariant (reachable : (timerSystem order).Reachable everyStep state) :
    state.Accounted ∧ state.Ordered := by
  refine reachable.invariant (fun state => state.Accounted ∧ state.Ordered) ?_ ?_
  · rintro _ ⟨clock, rfl⟩
    exact ⟨⟨List.Perm.nil, by simp [TimerState.initial], by simp [TimerState.initial]⟩,
      fun thread => trivial⟩
  · rintro state action next ⟨accounted, ordered⟩ _ transition
    have effect := timerStep_effect transition
    exact ⟨accounted.step ordered effect, ordered.step effect⟩

/-- Every job that has been reserved waits in the timer, has been pushed to its target or has been
thrown away, each as often as it was reserved; what was pushed was due, and what was thrown away
had lost its target. -/
theorem reserved_jobs_accounted (reachable : (timerSystem order).Reachable everyStep state) :
    state.reserved.Perm (state.queue ++ (state.delivered.map Prod.fst ++ state.dropped)) ∧
      (∀ job time, (job, time) ∈ state.delivered → job.executeAt ≤ time ∧ time ≤ state.clock) ∧
      ∀ job ∈ state.dropped, state.alive job.target = false := by
  have accounted := (timer_invariant reachable).1
  exact ⟨accounted.all, fun job time => accounted.due, fun job => accounted.orphaned⟩

/-- Of three jobs, one has been pushed, one was dropped and one waits. -/
theorem reserved_jobs_accounted_three : ∃ state : TimerState Nat Nat Nat,
    (timerSystem (LeastFirst.first ReservedJob.executeAt)).Reachable everyStep state ∧
    state.queue.length = 1 ∧ state.dropped.length = 1 ∧
    state.reserved.Perm (state.queue ++ (state.delivered.map Prod.fst ++ state.dropped)) := by
  refine TransitionSystem.exists_reachable (timerSystem_initial _ 0)
    [.readDelay 0 3 0 7, .readDelay 2 9 0 6, .push 2, .push 0, .readDelay 0 1 1 8, .push 0,
      .expire 1, .elapse 5000000, .readNow 1, .lock 1, .popTop 1, .popTop 1, .leave 1] ⟨_, rfl, ?_⟩
  intro reachable
  exact ⟨rfl, rfl, (reserved_jobs_accounted reachable).1⟩

/-- A thread in the loop can end it or take the job on top. -/
theorem popTop_progress (thread : Thread) (now : Int) (state : TimerState Thread Target Job)
    (looping : ∃ taken, state.callers thread = .looping now taken) :
    (∃ next, timerStep order state (.leave thread) = some next) ∨
      ∃ next, everyStep state (.popTop thread : TimerAction Thread Target Job) ∧
        (timerSystem order).step state (.popTop thread) = some next ∧
        (∃ taken, next.callers thread = .looping now taken) ∧
        next.queue.length < state.queue.length := by
  obtain ⟨taken, found⟩ := looping
  cases popped : order.pop state.queue with
  | none =>
    refine .inl ⟨{ state with holder := none }.setCaller thread .idle, ?_⟩
    simp only [timerStep, found, popped]
  | some top =>
    obtain ⟨job, rest⟩ := top
    by_cases due : job.executeAt ≤ now
    · refine .inr ⟨({ state with queue := rest }.deliver job).setCaller thread
        (.looping now (taken ++ [job])), trivial, ?_, ⟨_, Function.update_self ..⟩, ?_⟩
      · simp only [timerSystem, timerStep, found, popped, if_pos due]
      · rw [TimerState.setCaller_queue, TimerState.deliver_queue, LeastFirst.length_eq popped]
        exact Nat.lt_succ_self _
    · refine .inl ⟨{ state with holder := none }.setCaller thread .idle, ?_⟩
      simp only [timerStep, found, popped, if_neg due]

/-- With the mutex and left alone, a thread gets through the loop of `DistributeExpired`. -/
theorem exists_leave {thread : Thread} {now : Int} {taken : List (ReservedJob Target Job)}
    (looping : state.callers thread = .looping now taken) :
    ∃ count final next, (timerSystem order).execute everyStep state
        (List.replicate count (.popTop thread)) = some final ∧
      timerStep order final (.leave thread) = some next := by
  obtain ⟨count, final, executed, -, next, ends⟩ := TransitionSystem.exists_execute_replicate
    (fun state => state.queue.length) (popTop_progress thread now) state ⟨taken, looping⟩
  exact ⟨count, final, next, executed, ends⟩

/-- A thread in the loop of `DistributeExpired` comes to its end when it is left alone. However it
gets there, it has taken jobs out by their time, all of them due, and whatever had been reserved by
then and was due when it read the clock has been pushed to its target, unless that was gone. -/
theorem distributeExpired_leaves_nothing_due
    (reachable : (timerSystem order).Reachable everyStep state) {thread : Thread} {now : Int}
    {taken : List (ReservedJob Target Job)} (looping : state.callers thread = .looping now taken) :
    (∃ count final next, (timerSystem order).execute everyStep state
        (List.replicate count (.popTop thread)) = some final ∧
      timerStep order final (.leave thread) = some next) ∧
    (taken.Pairwise fun one two => one.executeAt ≤ two.executeAt) ∧
    (∀ job ∈ taken, job.executeAt ≤ now) ∧
    ∀ next, timerStep order state (.leave thread) = some next →
      ∀ job ∈ next.reserved, job.executeAt ≤ now →
        (∃ time, (job, time) ∈ next.delivered) ∨
          job ∈ next.dropped ∧ next.alive job.target = false := by
  obtain ⟨accounted, ordered⟩ := timer_invariant reachable
  have distributing := ordered.distributing looping
  refine ⟨exists_leave looping, distributing.sorted, distributing.due, fun next ends => ?_⟩
  have effect := timerStep_effect ends
  have after := accounted.step ordered effect
  cases effect with
  | leave _ now taken found notDue =>
    cases found.symm.trans looping
    intro job member due
    rcases List.mem_append.mp (after.all.mem_iff.mp member) with waiting | gone
    · exact absurd (notDue job waiting) (Int.not_lt.mpr due)
    · rcases List.mem_append.mp gone with delivered | dropped
      · obtain ⟨⟨_, time⟩, pushed, rfl⟩ := List.mem_map.mp delivered
        exact .inl ⟨time, pushed⟩
      · exact .inr ⟨dropped, after.orphaned dropped⟩

/-- A thread that has taken one of two due jobs, one of which was reserved later for an earlier
time. -/
theorem distributeExpired_two_due : ∃ state : TimerState Nat Nat Nat,
    (timerSystem (LeastFirst.first ReservedJob.executeAt)).Reachable everyStep state ∧
    state.callers 1 = .looping 5000000 [⟨1000000, 1, 8⟩] ∧
    ∀ next, timerStep (LeastFirst.first ReservedJob.executeAt) state (.leave 1) = some next →
      ∀ job ∈ next.reserved, job.executeAt ≤ 5000000 →
        (∃ time, (job, time) ∈ next.delivered) ∨
          job ∈ next.dropped ∧ next.alive job.target = false := by
  refine TransitionSystem.exists_reachable (timerSystem_initial _ 0)
    [.readDelay 0 3 0 7, .push 0, .readDelay 0 1 1 8, .push 0, .elapse 5000000, .readNow 1,
      .lock 1, .popTop 1] ⟨_, rfl, ?_⟩
  intro reachable
  exact ⟨rfl, (distributeExpired_leaves_nothing_due reachable rfl).2.2.2⟩

end UringServer.Job
