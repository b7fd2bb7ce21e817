import UringServer.Buffer.SendQueue
import UringServer.Semantics.Tally
import UringServer.Semantics.TransitionSystem

/-!
# Handing out batches of a `SendQueue` across threads

Any number of threads call `Push`; one that is told `needs_register` calls
`Drain` and starts a send with what it got. The completion of a send calls
`MarkSent`, then `Drain`, and starts the next send likewise. Every `SendQueue`
operation is atomic, and the operations of different threads interleave freely.

`MarkSent` and the `Drain` after it are two operations. A `Push` that comes
between them and finds the queue unregistered appoints a second thread to drain,
while the first is still about to: `handOff_two_outstanding` is such a run.
Without it no two sends are ever outstanding, `handOff_one_outstanding`.
-/

namespace UringServer.Buffer.HandOff

open UringServer.Semantics

/-- Where a thread stands between its operations. -/
inductive Control (Buffer : Type) where
  | idle
  /-- Told `needs_register`, before its `Drain`. -/
  | registering
  /-- Handling a completion, before `MarkSent`. -/
  | completing
  /-- Handling a completion, between `MarkSent` and `Drain`. -/
  | marked
  /-- Drained a non-empty batch, before it starts the send. -/
  | starting (batch : List Buffer)
deriving DecidableEq

/-- The queue, the sends that are outstanding, and where every thread stands. -/
structure State (Buffer Thread : Type) where
  queue : SendQueue Buffer
  outstanding : List (List Buffer)
  threads : Thread → Control Buffer

/-- One operation of one thread. -/
inductive Action (Buffer Thread : Type) where
  | push (thread : Thread) (buf : Buffer)
  | drain (thread : Thread)
  | start (thread : Thread)
  | complete (thread : Thread) (position : Nat)
  | markSent (thread : Thread)

variable {Buffer Thread : Type} [DecidableEq Thread]

/-- Move one thread. -/
def State.setThread (state : State Buffer Thread) (thread : Thread) (control : Control Buffer) :
    State Buffer Thread :=
  { state with threads := Function.update state.threads thread control }

/-- `Drain`, and on to the send if there is something to send. -/
def drainAndStart (state : State Buffer Thread) (thread : Thread) : State Buffer Thread :=
  let (batch, queue) := state.queue.drain
  { state with queue }.setThread thread (if batch.isEmpty then .idle else .starting batch)

/-- What each operation does. -/
def step (state : State Buffer Thread) : Action Buffer Thread → Option (State Buffer Thread)
  | .push thread buf =>
    match state.threads thread with
    | .idle =>
      let (result, queue) := state.queue.push buf
      some ({ state with queue }.setThread thread
        (if result.needsRegister then .registering else .idle))
    | _ => none
  | .drain thread =>
    match state.threads thread with
    | .registering | .marked => some (drainAndStart state thread)
    | _ => none
  | .start thread =>
    match state.threads thread with
    | .starting batch =>
      some ({ state with outstanding := state.outstanding ++ [batch] }.setThread thread .idle)
    | _ => none
  | .complete thread position =>
    match state.threads thread, state.outstanding[position]? with
    | .idle, some _ =>
      some ({ state with outstanding := state.outstanding.eraseIdx position }.setThread thread
        .completing)
    | _, _ => none
  | .markSent thread =>
    match state.threads thread with
    | .completing => some ({ state with queue := state.queue.markSent }.setThread thread .marked)
    | _ => none

/-- An empty queue of any capacity, nothing outstanding, every thread idle. -/
def Initial (state : State Buffer Thread) : Prop :=
  state.queue.pending = [] ∧ state.queue.registered = false ∧ state.outstanding = [] ∧
    ∀ thread, state.threads thread = .idle

/-- The threads and their queue as one program. -/
def system (Buffer Thread : Type) [DecidableEq Thread] :
    TransitionSystem (State Buffer Thread) (Action Buffer Thread) where
  Initial := Initial
  step := step

/-- No `Push` finds the queue unregistered while a completion stands between its
`MarkSent` and its `Drain`. -/
def NoPushInGap (state : State Buffer Thread) : Action Buffer Thread → Prop
  | .push _ _ => state.queue.registered = true ∨ ∀ thread, state.threads thread ≠ .marked
  | _ => True

/-- A thread that will drain, or has drained and will send. -/
def Control.appointed : Control Buffer → Nat
  | .idle => 0
  | _ => 1

section Threads

variable [Fintype Thread]

/-- A registered queue has one appointed thread or outstanding send, and
something to drain when that thread is about to drain. An unregistered queue has
nothing to drain and at most a completion that is about to find that out. -/
structure HandedOff (state : State Buffer Thread) : Prop where
  registered : state.queue.registered = true →
    state.outstanding.length + tally Control.appointed state.threads = 1
  waiting : state.queue.registered = true → ∀ thread,
    (state.threads thread = .registering ∨ state.threads thread = .marked) →
      state.queue.pending ≠ []
  unregistered : state.queue.registered = false → state.queue.pending = [] ∧
    state.outstanding = [] ∧ tally Control.appointed state.threads ≤ 1 ∧
    ∀ thread, state.threads thread = .idle ∨ state.threads thread = .marked

omit [DecidableEq Thread] in
theorem handedOff_initial {state : State Buffer Thread} (valid : Initial state) :
    HandedOff state := by
  obtain ⟨empty, unregistered, nothing, idle⟩ := valid
  have nobody : tally Control.appointed state.threads = 0 := by
    apply tally_eq_zero
    intro thread
    rw [idle thread]
    rfl
  refine ⟨?_, ?_, ?_⟩
  · simp [unregistered]
  · simp [unregistered]
  · intro _
    exact ⟨empty, nothing, by omega, fun thread => .inl (idle thread)⟩

variable {state next : State Buffer Thread}

/-- With one appointed thread, no other thread stands anywhere but idle. -/
theorem idle_of_other {thread other : Thread}
    (one : tally Control.appointed state.threads ≤ 1) (appointed : state.threads thread ≠ .idle)
    (different : other ≠ thread) : state.threads other = .idle := by
  by_contra busy
  have weighs : ∀ control : Control Buffer, control ≠ .idle → 0 < control.appointed := by
    intro control
    cases control <;> simp [Control.appointed]
  exact different (thread_unique one (weighs _ busy) (weighs _ appointed))

variable {thread : Thread}

/-- A registered queue whose one appointed thread is not about to drain. -/
theorem handedOff_of_busy {queue : SendQueue Buffer} {outstanding : List (List Buffer)}
    {threads : Thread → Control Buffer} {control : Control Buffer}
    (isRegistered : queue.registered = true)
    (one : outstanding.length +
      tally Control.appointed (Function.update threads thread control) = 1)
    (others : ∀ other, other ≠ thread → threads other = .idle)
    (away : control ≠ .registering ∧ control ≠ .marked) :
    HandedOff ⟨queue, outstanding, Function.update threads thread control⟩ := by
  refine ⟨fun _ => one, ?_, ?_⟩
  · intro _ other waits
    by_cases same : other = thread
    · simp [same, away] at waits
    · simp [Function.update_of_ne same, others other same] at waits
  · simp [isRegistered]

/-- A push outside the gap keeps the hand-off. -/
theorem HandedOff.push (handedOff : HandedOff state) {buf : Buffer}
    (admitted : NoPushInGap state (.push thread buf))
    (transition : step state (.push thread buf) = some next) : HandedOff next := by
  simp only [step] at transition
  split at transition <;> cases transition
  case h_1 found =>
  have moved := tally_update Control.appointed state.threads thread
  have unmoved : Function.update state.threads thread .idle = state.threads := by
    rw [← found, Function.update_eq_self]
  by_cases full : state.queue.full
  · simpa [SendQueue.push_of_full full, State.setThread, unmoved] using handedOff
  · rw [SendQueue.push_of_not_full full]
    cases flag : state.queue.registered with
    | true =>
      refine ⟨?_, ?_, ?_⟩
      · simpa [State.setThread, unmoved] using handedOff.registered flag
      · simp [State.setThread]
      · simp [State.setThread]
    | false =>
      obtain ⟨_, nothing, _, quiet⟩ := handedOff.unregistered flag
      have idle : ∀ other, state.threads other = .idle := by
        intro other
        have unmarked := admitted.resolve_left (by simp [flag]) other
        exact (quiet other).resolve_right unmarked
      have nobody : tally Control.appointed state.threads = 0 := by
        apply tally_eq_zero
        intro other
        rw [idle other]
        rfl
      have appointed := moved .registering
      simp only [found, Control.appointed, nobody] at appointed
      refine ⟨?_, ?_, ?_⟩
      · intro _
        simpa [State.setThread, nothing] using appointed
      · simp [State.setThread]
      · simp [State.setThread]

/-- `Drain` keeps the hand-off. -/
theorem HandedOff.drain (handedOff : HandedOff state)
    (transition : step state (.drain thread) = some next) : HandedOff next := by
  obtain ⟨drains, rfl⟩ : (state.threads thread = .registering ∨ state.threads thread = .marked) ∧
      next = drainAndStart state thread := by
    simp only [step] at transition
    split at transition <;> simp_all
  have busy : state.threads thread ≠ .idle := by
    rcases drains with registers | completes <;> simp [*]
  have weighs : (state.threads thread).appointed = 1 := by
    rcases drains with registers | completes <;> simp [*, Control.appointed]
  cases flag : state.queue.registered with
  | true =>
    have one := handedOff.registered flag
    have nonempty := handedOff.waiting flag thread drains
    have moved := tally_update Control.appointed state.threads thread
      (.starting state.queue.pending)
    have drained : drainAndStart state thread = ⟨{ state.queue with pending := [] },
        state.outstanding,
        Function.update state.threads thread (.starting state.queue.pending)⟩ := by
      simp [drainAndStart, State.setThread, nonempty]
    rw [drained]
    apply handedOff_of_busy
    · exact flag
    · rw [weighs] at moved
      simp only [Control.appointed] at moved
      omega
    · intro other different
      exact idle_of_other (by omega) busy different
    · simp
  | false =>
    obtain ⟨empty, nothing, one, quiet⟩ := handedOff.unregistered flag
    have moved := tally_update Control.appointed state.threads thread .idle
    have drained : drainAndStart state thread = ⟨{ state.queue with pending := [] },
        state.outstanding, Function.update state.threads thread .idle⟩ := by
      simp [drainAndStart, State.setThread, empty]
    rw [drained]
    refine ⟨by simp [flag], by simp [flag], fun _ => ⟨rfl, nothing, ?_, ?_⟩⟩
    · simp only [Control.appointed] at moved ⊢
      omega
    · intro other
      by_cases same : other = thread
      · simp [same]
      · simpa [Function.update_of_ne same] using quiet other

theorem HandedOff.start (handedOff : HandedOff state)
    (transition : step state (.start thread) = some next) : HandedOff next := by
  simp only [step] at transition
  split at transition <;> cases transition
  case h_1 batch found =>
  have flag : state.queue.registered = true := by
    by_contra unregistered
    obtain ⟨_, _, _, quiet⟩ := handedOff.unregistered (by simpa using unregistered)
    simpa [found] using quiet thread
  have one := handedOff.registered flag
  have moved := tally_update Control.appointed state.threads thread .idle
  rw [found] at moved
  simp only [Control.appointed] at moved
  change HandedOff ⟨state.queue, state.outstanding ++ [batch],
    Function.update state.threads thread .idle⟩
  apply handedOff_of_busy
  · exact flag
  · simp only [List.length_append, List.length_singleton]
    omega
  · intro other different
    exact idle_of_other (by omega) (by simp [found]) different
  · simp

theorem HandedOff.complete (handedOff : HandedOff state) {position : Nat}
    (transition : step state (.complete thread position) = some next) : HandedOff next := by
  simp only [step] at transition
  split at transition <;> cases transition
  case h_1 batch found completed =>
  obtain ⟨bounded, _⟩ := List.getElem?_eq_some_iff.mp completed
  have flag : state.queue.registered = true := by
    by_contra unregistered
    obtain ⟨_, nothing, _, _⟩ := handedOff.unregistered (by simpa using unregistered)
    simp [nothing] at bounded
  have one := handedOff.registered flag
  have moved := tally_update Control.appointed state.threads thread .completing
  rw [found] at moved
  simp only [Control.appointed] at moved
  change HandedOff ⟨state.queue, state.outstanding.eraseIdx position,
    Function.update state.threads thread .completing⟩
  apply handedOff_of_busy
  · exact flag
  · rw [List.length_eraseIdx_of_lt bounded]
    omega
  · intro other _
    by_contra busy
    have share := weight_le_tally Control.appointed state.threads other
    have weighs : (state.threads other).appointed = 1 := by
      cases control : state.threads other <;> simp_all [Control.appointed]
    omega
  · simp

/-- `MarkSent` keeps the hand-off. -/
theorem HandedOff.markSent (handedOff : HandedOff state)
    (transition : step state (.markSent thread) = some next) : HandedOff next := by
  simp only [step] at transition
  split at transition <;> cases transition
  case h_1 found =>
  have flag : state.queue.registered = true := by
    by_contra unregistered
    obtain ⟨_, _, _, quiet⟩ := handedOff.unregistered (by simpa using unregistered)
    simpa [found] using quiet thread
  have one := handedOff.registered flag
  have moved := tally_update Control.appointed state.threads thread .marked
  have share := weight_le_tally Control.appointed state.threads thread
  rw [found] at moved share
  simp only [Control.appointed] at moved share
  refine ⟨?_, ?_, ?_⟩
  · intro _
    simp only [State.setThread]
    omega
  · intro stays _ _
    rw [State.setThread, SendQueue.markSent_registered] at stays
    simpa [State.setThread] using (Bool.and_eq_true_iff.mp stays).2
  · intro cleared
    simp only [State.setThread, SendQueue.markSent_registered, flag, Bool.true_and,
      Bool.not_eq_false', List.isEmpty_iff] at cleared
    refine ⟨?_, ?_, ?_, ?_⟩
    · simpa [State.setThread] using cleared
    · exact List.eq_nil_of_length_eq_zero (by simp only [State.setThread]; omega)
    · simp only [State.setThread]
      omega
    · intro other
      by_cases same : other = thread
      · simp [State.setThread, same]
      · left
        simpa [State.setThread, Function.update_of_ne same] using
          idle_of_other (by omega) (by simp [found]) same

theorem reachable_handedOff
    (reachable : (system Buffer Thread).Reachable NoPushInGap state) : HandedOff state := by
  apply reachable.invariant HandedOff
  · intro initial valid
    exact handedOff_initial valid
  · intro _ action _ handedOff admitted transition
    cases action with
    | push thread buf => exact handedOff.push admitted transition
    | drain thread => exact handedOff.drain transition
    | start thread => exact handedOff.start transition
    | complete thread position => exact handedOff.complete transition
    | markSent thread => exact handedOff.markSent transition

/-- In every run in which no `Push` falls on the unregistered queue between the
`MarkSent` and the `Drain` of a completion, at most one send is outstanding. -/
theorem handOff_one_outstanding
    (reachable : (system Buffer Thread).Reachable NoPushInGap state) :
    state.outstanding.length ≤ 1 := by
  have handedOff := reachable_handedOff reachable
  cases flag : state.queue.registered with
  | true =>
    have one := handedOff.registered flag
    omega
  | false =>
    obtain ⟨_, nothing, _, _⟩ := handedOff.unregistered flag
    simp [nothing]

end Threads

section Runs

/-- The empty `SendQueue` of default capacity among idle threads. -/
def initial (Buffer Thread : Type) : State Buffer Thread :=
  ⟨{}, [], fun _ => .idle⟩

theorem initial_valid : (system Buffer Thread).Initial (initial Buffer Thread) :=
  ⟨rfl, rfl, rfl, fun _ => rfl⟩

instance [DecidableEq Buffer] [Fintype Thread] (state : State Buffer Thread)
    (action : Action Buffer Thread) : Decidable (NoPushInGap state action) :=
  match action with
  | .push _ _ => inferInstanceAs (Decidable (_ ∨ _))
  | .drain _ | .start _ | .complete _ _ | .markSent _ => .isTrue trivial

/-- A buffer pushed while a send is outstanding leaves with the next one. -/
theorem handOff_one_outstanding_next_batch :
    ∃ state : State Nat (Fin 2), (system Nat (Fin 2)).Reachable NoPushInGap state ∧
      state.outstanding = [[8]] ∧ state.outstanding.length ≤ 1 := by
  refine TransitionSystem.exists_reachable initial_valid
    [.push 0 7, .drain 0, .start 0, .push 1 8, .complete 0 0, .markSent 0, .drain 0,
      .start 0] ⟨_, rfl, ?_⟩
  intro reachable
  exact ⟨rfl, handOff_one_outstanding reachable⟩

/-- The send of thread 0 completes and `MarkSent` clears the registration. Thread
1 pushes and is told to register, but the completion's `Drain` takes its buffer.
Thread 2 pushes to the registered queue, and the `Drain` of thread 1 takes that
buffer while the send of the first is outstanding. -/
theorem handOff_two_outstanding :
    ∃ state : State Nat (Fin 3), (system Nat (Fin 3)).Reachable everyStep state ∧
      state.outstanding = [[8], [9]] := by
  refine TransitionSystem.exists_reachable initial_valid
    [.push 0 7, .drain 0, .start 0, .complete 0 0, .markSent 0, .push 1 8, .drain 0,
      .start 0, .push 2 9, .drain 1, .start 1] ⟨_, rfl, fun _ => ?_⟩
  exact rfl

end Runs

end UringServer.Buffer.HandOff
