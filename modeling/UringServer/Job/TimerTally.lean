import Mathlib.Data.List.Count
import UringServer.Job.TimerRuns
import UringServer.Semantics.Tally

/-!
# The jobs on their way to one target

A job for a target is with the thread that reserves it, waits in the timer or
has been pushed to the target. Counting these, a step of the timer loses one only
when it takes out a job whose target is gone, and gains one only where `Reserve`
is called. A bound on the times of these jobs becomes a bound on the clock when
one of them is pushed.
-/

namespace UringServer.Job

open UringServer.Semantics

variable {Thread Target Job : Type} [DecidableEq Target]

/-- Whether the thread reserves a job for the target. -/
def TimerCaller.heading (target : Target) : TimerCaller Target Job → Nat
  | .reserving job => if job.target = target then 1 else 0
  | _ => 0

namespace TimerState

/-- The jobs that wait for the target. -/
def waiting (state : TimerState Thread Target Job) (target : Target) : Nat :=
  state.queue.countP (·.target = target)

/-- The jobs that were pushed to the target. -/
def arrived (state : TimerState Thread Target Job) (target : Target) : Nat :=
  state.delivered.countP (·.1.target = target)

/-- No job for the target is due before the bound, and none of those pushed after the first `ran`
was. -/
structure DueFrom (state : TimerState Thread Target Job) (target : Target) (ran : Nat)
    (bound : Int) : Prop where
  reserving : ∀ {thread job}, state.callers thread = .reserving job → job.target = target →
    bound ≤ job.executeAt
  waiting : ∀ job ∈ state.queue, job.target = target → bound ≤ job.executeAt
  pushed : ran < state.arrived target → bound ≤ state.clock

variable {state : TimerState Thread Target Job} {target : Target} {ran : Nat} {bound : Int}

/-- What `deliver` adds to the jobs pushed. -/
theorem arrived_deliver (state : TimerState Thread Target Job) (job : ReservedJob Target Job)
    (target : Target) : (state.deliver job).arrived target =
      state.arrived target + if state.alive job.target ∧ job.target = target then 1 else 0 := by
  unfold deliver
  by_cases alive : state.alive job.target = true
  · simp [alive, arrived, List.countP_append, List.countP_singleton]
  · simp [alive, arrived]

omit [DecidableEq Target] in
theorem alive_deliver (state : TimerState Thread Target Job) (job : ReservedJob Target Job) :
    (state.deliver job).alive = state.alive := by
  unfold deliver
  split <;> rfl

variable {job : ReservedJob Target Job} {rest : List (ReservedJob Target Job)}

theorem waiting_of_perm (perm : state.queue.Perm (job :: rest)) (target : Target) :
    state.waiting target =
      rest.countP (·.target = target) + if job.target = target then 1 else 0 := by
  rw [waiting, perm.countP_eq, List.countP_cons]
  simp

/-- A thread may reserve a job that is not due before the bound. -/
theorem DueFrom.setCaller [DecidableEq Thread] {thread : Thread} {caller : TimerCaller Target Job}
    (due : state.DueFrom target ran bound)
    (own : ∀ job, caller = .reserving job → job.target = target → bound ≤ job.executeAt) :
    (state.setCaller thread caller).DueFrom target ran bound := by
  refine ⟨?_, due.waiting, due.pushed⟩
  intro other job found same
  by_cases moved : other = thread
  · rw [moved, setCaller_callers, Function.update_self] at found
    exact own job found same
  · rw [setCaller_callers, Function.update_of_ne moved] at found
    exact due.reserving found same

/-- A job is only pushed when the clock has passed the bound. -/
theorem DueFrom.deliver
    (due : state.DueFrom target ran bound) (perm : state.queue.Perm (job :: rest))
    (passed : job.executeAt ≤ state.clock) :
    ({ state with queue := rest }.deliver job).DueFrom target ran bound := by
  refine ⟨?_, ?_, ?_⟩
  · rw [deliver_callers]
    exact due.reserving
  · rw [deliver_queue]
    intro other member same
    exact due.waiting other (perm.mem_iff.mpr (List.mem_cons_of_mem job member)) same
  · rw [arrived_deliver, deliver_clock]
    intro further
    split at further
    case isTrue pushed =>
      exact (due.waiting job (perm.mem_iff.mpr List.mem_cons_self) pushed.2).trans passed
    case isFalse => exact due.pushed further

variable [Fintype Thread]

/-- The jobs that have been on their way to the target and were not thrown away. -/
def issued (state : TimerState Thread Target Job) (target : Target) : Nat :=
  tally (TimerCaller.heading target) state.callers + state.waiting target + state.arrived target

/-- Nothing is due where nothing is on its way. -/
theorem DueFrom.of_issued (bounded : state.issued target ≤ ran)
    (pushed : ran ≤ state.arrived target) (bound : Int) : state.DueFrom target ran bound := by
  unfold issued at bounded
  constructor
  · intro thread job found same
    have weight := weight_le_tally (TimerCaller.heading target) state.callers thread
    simp only [found, TimerCaller.heading, if_pos same] at weight
    omega
  · intro job member same
    have positive : 0 < state.waiting target :=
      List.countP_pos_iff.mpr ⟨job, member, decide_eq_true same⟩
    omega
  · omega

/-- A job that is taken out is pushed or, without its target, lost. -/
theorem issued_deliver (perm : state.queue.Perm (job :: rest)) (target : Target) :
    ({ state with queue := rest }.deliver job).issued target +
        (if state.alive job.target = false ∧ job.target = target then 1 else 0) =
      state.issued target := by
  have before := waiting_of_perm perm target
  simp only [issued, arrived_deliver, deliver_callers, waiting, deliver_queue] at before ⊢
  simp only [arrived]
  cases state.alive job.target <;> simp <;> omega

variable [DecidableEq Thread]

/-- Moving a thread that neither starts nor ends a reservation. -/
theorem issued_setCaller {thread : Thread} {caller : TimerCaller Target Job}
    (before : (state.callers thread).heading target = 0) (after : caller.heading target = 0) :
    (state.setCaller thread caller).issued target = state.issued target := by
  have moved := tally_update (TimerCaller.heading target) state.callers thread caller
  simp only [issued, waiting, arrived, setCaller_callers, setCaller_queue, setCaller_delivered]
  omega

/-- A call of `Reserve` puts one more job on its way. -/
theorem issued_reserving {thread : Thread} (free : state.callers thread = .idle)
    (reserved : ReservedJob Target Job) (target : Target) :
    (state.setCaller thread (.reserving reserved)).issued target =
      state.issued target + if reserved.target = target then 1 else 0 := by
  have moved := tally_update (TimerCaller.heading target) state.callers thread (.reserving reserved)
  simp only [free, TimerCaller.heading] at moved
  simp only [issued, waiting, arrived, setCaller_callers, setCaller_queue, setCaller_delivered]
  omega

/-- The end of a call of `Reserve` leaves its job on its way. -/
theorem issued_push {thread : Thread}
    (found : state.callers thread = .reserving job) (target : Target) :
    ({ state with
      queue := state.queue ++ [job]
      reserved := state.reserved ++ [job] }.setCaller thread .idle).issued target =
      state.issued target := by
  have moved := tally_update (TimerCaller.heading target) state.callers thread .idle
  simp only [found, TimerCaller.heading] at moved
  simp only [issued, waiting, arrived, setCaller_callers, setCaller_queue, setCaller_delivered,
    List.countP_append, List.countP_singleton, decide_eq_true_eq]
  omega

end TimerState

open TimerState

variable [DecidableEq Thread] {state next : TimerState Thread Target Job}
  {action : TimerAction Thread Target Job}

/-- Whether the step is a call of `Reserve`. -/
def TimerAction.reserves : TimerAction Thread Target Job → Bool
  | .readDelay .. => true
  | _ => false

/-- A step other than a call of `Reserve` adds no job for a target and loses none while the target
is alive. -/
theorem TimerEffect.issued [Fintype Thread] (effect : TimerEffect state action next)
    (other : action.reserves = false) (target : Target) :
    next.issued target ≤ state.issued target ∧
      (next.alive target = true → next.issued target = state.issued target) := by
  cases effect with
  | elapse later forward => exact ⟨le_rfl, fun _ => rfl⟩
  | expire gone => exact ⟨le_rfl, fun _ => rfl⟩
  | readDelay thread milliseconds gone job found => cases other
  | push thread job found free =>
    have same := issued_push found target
    exact ⟨same.le, fun _ => same⟩
  | readNow thread found =>
    have same : (state.setCaller thread (.locking state.clock)).issued target =
      state.issued target := issued_setCaller (by rw [found]; rfl) rfl
    exact ⟨same.le, fun _ => same⟩
  | lock thread now found free =>
    have same : ({ state with holder := some thread }.setCaller thread
        (.looping now [])).issued target = state.issued target :=
      issued_setCaller (show (state.callers thread).heading target = 0 by rw [found]; rfl) rfl
    exact ⟨same.le, fun _ => same⟩
  | popTop thread now taken job rest found perm least due =>
    have kept := issued_deliver perm target
    rw [issued_setCaller (by rw [deliver_callers, found]; rfl) rfl]
    refine ⟨by omega, fun alive => ?_⟩
    rw [setCaller_alive, alive_deliver] at alive
    rw [← kept, if_neg, Nat.add_zero]
    rintro ⟨gone, rfl⟩
    exact Bool.noConfusion (alive.symm.trans gone)
  | leave thread now taken found notDue =>
    have same : ({ state with holder := none }.setCaller thread .idle).issued target =
        state.issued target :=
      issued_setCaller (show (state.callers thread).heading target = 0 by rw [found]; rfl) rfl
    exact ⟨same.le, fun _ => same⟩

/-- A step other than a call of `Reserve` keeps a bound on the times. -/
theorem TimerEffect.dueFrom (effect : TimerEffect state action next)
    (other : action.reserves = false) (ordered : state.Ordered) {target : Target} {ran : Nat}
    {bound : Int} (due : state.DueFrom target ran bound) : next.DueFrom target ran bound := by
  cases effect with
  | elapse later forward =>
    exact ⟨due.reserving, due.waiting, fun further => (due.pushed further).trans forward⟩
  | expire gone => exact ⟨due.reserving, due.waiting, due.pushed⟩
  | readDelay thread milliseconds gone job found => cases other
  | push thread job found free =>
    refine DueFrom.setCaller ⟨due.reserving, ?_, due.pushed⟩ nofun
    intro waiting member same
    rcases List.mem_append.mp member with before | last
    · exact due.waiting waiting before same
    · cases List.mem_singleton.mp last
      exact due.reserving found same
  | readNow thread found => exact due.setCaller nofun
  | lock thread now found free | leave thread now taken found notDue =>
    exact DueFrom.setCaller ⟨due.reserving, due.waiting, due.pushed⟩ nofun
  | popTop thread now taken job rest found perm least passed =>
    have read := (ordered.distributing found).read
    exact (due.deliver perm (passed.trans read)).setCaller nofun

/-- The clock goes forward, pushed jobs stay pushed, and a target that is gone stays gone. -/
theorem TimerEffect.progress (effect : TimerEffect state action next) (target : Target) :
    state.clock ≤ next.clock ∧ state.arrived target ≤ next.arrived target ∧
      (next.alive target = true → state.alive target = true) := by
  cases effect with
  | elapse later forward => exact ⟨forward, le_rfl, fun alive => alive⟩
  | expire gone =>
    refine ⟨le_rfl, le_rfl, fun alive => ?_⟩
    by_cases same : target = gone
    · simp only [same, Function.update_self, Bool.false_eq_true] at alive
    · simpa only [ne_eq, same, not_false_eq_true, Function.update_of_ne] using alive
  | popTop thread now taken job rest found perm least due =>
    have more := arrived_deliver { state with queue := rest } job target
    refine ⟨?_, (Nat.le_add_right _ _).trans_eq more.symm, fun alive => ?_⟩
    · rw [setCaller_clock, deliver_clock]
    · rwa [setCaller_alive, alive_deliver] at alive
  | _ => exact ⟨le_rfl, le_rfl, fun alive => alive⟩

end UringServer.Job
