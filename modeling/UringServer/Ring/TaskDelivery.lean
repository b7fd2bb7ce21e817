import Mathlib.Data.List.Perm.Basic
import UringServer.Ring.RunOnRing

/-!
# What the answer of `RunOnRing` says

As long as the submit behind every prepared message succeeds, a task is at most
at one place: on its way as a message or in a list of posted tasks, or executed.
A submit that fails leaves a message that names storage already deleted.
-/

namespace UringServer.Ring.TaskState

open UringServer.Semantics

/-- The first element that is looked for, before the others. -/
theorem perm_cons_eraseP {α : Type} {condition : α → Bool} {list : List α} {first : α}
    (found : list.find? condition = some first) :
    list.Perm (first :: list.eraseP condition) := by
  induction list with
  | nil => cases found
  | cons head rest ih =>
    by_cases here : condition head = true
    · rw [List.find?_cons_of_pos here] at found
      cases found
      rw [List.eraseP_cons_of_pos here]
    · rw [List.find?_cons_of_neg here] at found
      rw [List.eraseP_cons_of_neg here]
      exact ((ih found).cons head).trans (.swap first head _)

variable {state : TaskState}

/-- With the accounts, the answers are kept. -/
theorem Books.truthful (books : state.Books) : state.Truthful where
  notExecuted task refused executed := by
    have counted := books.counted task
    rw [allowance, refused, if_neg nofun] at counted
    have positive := List.count_pos_iff.mpr executed
    unfold weight at counted
    omega
  notReferenced task refused message member stored := by
    have counted := books.counted task
    rw [allowance, refused, if_neg nofun] at counted
    rw [books.sent, List.nil_append] at member
    have positive :
        0 < state.arrived.countP fun message => state.stored message.task == some task :=
      List.countP_pos_iff.mpr ⟨message, member, beq_iff_eq.mpr stored⟩
    unfold weight at counted
    omega
  atMostOnce task accepted := by
    have counted := books.counted task
    rw [allowance, accepted, if_pos rfl] at counted
    unfold weight at counted
    omega

/-- The answer to a call is for its task only. -/
theorem answers_answer (state : TaskState) (value : Bool) (task : TaskId) :
    (state.answer value).answers[task]? =
      if task = state.nextTask then some value else state.answers[task]? := by
  show (state.answers ++ [value])[task]? = _
  by_cases next : task = state.nextTask
  · rw [if_pos next, next]
    exact List.getElem?_concat_length
  · rw [if_neg next]
    unfold nextTask at next
    rcases Nat.lt_or_gt_of_ne next with earlier | later
    · exact List.getElem?_append_left earlier
    · rw [List.getElem?_eq_none (Nat.le_of_lt later), List.getElem?_eq_none]
      rw [List.length_append, List.length_singleton]
      exact later

theorem answers_nextTask (state : TaskState) : state.answers[state.nextTask]? = none :=
  List.getElem?_eq_none (Nat.le_refl _)

theorem allowance_answer_false (state : TaskState) (task : TaskId) :
    (state.answer false).allowance task = state.allowance task := by
  unfold allowance
  rw [answers_answer]
  by_cases next : task = state.nextTask
  · rw [if_pos next, next, answers_nextTask]
    rfl
  · rw [if_neg next]

theorem allowance_answer_true (state : TaskState) (task : TaskId) :
    (state.answer true).allowance task =
      state.allowance task + if task = state.nextTask then 1 else 0 := by
  unfold allowance
  rw [answers_answer]
  by_cases next : task = state.nextTask
  · rw [if_pos next, if_pos next, next, answers_nextTask]
    rfl
  · rw [if_neg next, if_neg next]
    rfl

theorem Books.refuse (books : state.Books) : (state.answer false).Books where
  sent := books.sent
  held := books.held
  apart := books.apart
  counted task := (allowance_answer_false state task).symm ▸ books.counted task

/-- A task whose delivery has begun, before the call returns. -/
structure Begun (state begun : TaskState) : Prop where
  sent : begun.queued = []
  held : ∀ address ∈ begun.addresses, begun.live address = true
  apart : begun.addresses.Nodup
  answers : begun.answers = state.answers
  weight : ∀ task, begun.weight task = state.weight task + if task = state.nextTask then 1 else 0

theorem Begun.accept {begun : TaskState} (begins : state.Begun begun) (books : state.Books) :
    (begun.answer true).Books where
  sent := begins.sent
  held := begins.held
  apart := begins.apart
  counted task := by
    have counted := books.counted task
    have same : begun.nextTask = state.nextTask := congrArg List.length begins.answers
    have allowed : begun.allowance task = state.allowance task := by
      unfold allowance
      rw [begins.answers]
    rw [allowance_answer_true, allowed, same]
    show begun.weight task ≤ _
    rw [begins.weight]
    omega

theorem weight_execute (state : TaskState) (executed task : TaskId) :
    (state.execute executed).weight task =
      state.weight task + if task = executed then 1 else 0 := by
  have counted : [executed].count task = if task = executed then 1 else 0 := by
    rw [List.count_singleton]
    simp only [beq_iff_eq, @eq_comm _ executed]
  simp only [weight, execute, List.count_append, counted]
  exact (Nat.add_assoc _ _ _).symm

theorem Books.execute_begun (books : state.Books) :
    state.Begun (state.execute state.nextTask) where
  sent := books.sent
  held := books.held
  apart := books.apart
  answers := rfl
  weight := weight_execute state state.nextTask

theorem Books.post_begun (books : state.Books) (target : RingId) :
    state.Begun (state.post target) where
  sent := books.sent
  held := books.held
  apart := books.apart
  answers := rfl
  weight task := by
    simp only [weight, post, List.countP_append, List.countP_singleton, beq_iff_eq]
    omega

theorem Books.not_mem_addresses (books : state.Books) {address : Address}
    (free : ¬ state.live address = true) : address ∉ state.addresses :=
  fun member => free (books.held address member)

/-- New storage is none that a message names. -/
theorem countP_allocate (books : state.Books) {address : Address}
    (free : ¬ state.live address = true) (task : TaskId) :
    state.arrived.countP
        (fun message => (state.allocate address).stored message.task == some task) =
      state.arrived.countP (fun message => state.stored message.task == some task) := by
  refine List.countP_congr fun message member => ?_
  have other : message.task ≠ address := fun same =>
    books.not_mem_addresses free (same ▸ List.mem_append_left _ (List.mem_map_of_mem member))
  show (Function.update state.stored address _ message.task == _) = true ↔ _
  rw [Function.update_of_ne other]

theorem Books.allocate_delete (books : state.Books) {address : Address}
    (free : ¬ state.live address = true) : ((state.allocate address).delete address).Books where
  sent := books.sent
  held other member := by
    have apart : other ≠ address := fun same => books.not_mem_addresses free (same ▸ member)
    show Function.update (Function.update state.live address true) address false other = true
    rw [Function.update_of_ne apart, Function.update_of_ne apart]
    exact books.held other member
  apart := books.apart
  counted task := by
    have counted := books.counted task
    have same := countP_allocate books free task
    unfold weight at counted ⊢
    rw [← same] at counted
    exact counted

/-- The task of the call has new storage and its message has arrived. -/
def arrive (state : TaskState) (message : TaskMessage) : TaskState :=
  { state.allocate message.task with arrived := state.arrived ++ [message] }

theorem submit_prepMsgRing (sent : state.queued = []) (message : TaskMessage) :
    ((state.allocate message.task).prepMsgRing message).submit message.source =
      state.arrive message := by
  have queued : (state.allocate message.task).queued = [] := sent
  simp [submit, prepMsgRing, queued, arrive]
  rfl

theorem addresses_arrive (message : TaskMessage) :
    (state.arrive message).addresses.Perm (message.task :: state.addresses) := by
  show ((state.arrived ++ [message]).map (·.task) ++ state.running.map (·.2)).Perm _
  rw [List.map_append, List.append_assoc]
  exact List.perm_middle

/-- A message that is sent, with nothing else queued. -/
theorem Books.arrive_begun (books : state.Books) {message : TaskMessage}
    (free : ¬ state.live message.task = true) : state.Begun (state.arrive message) := by
  have fresh := books.not_mem_addresses free
  refine ⟨books.sent, ?_, ?_, rfl, ?_⟩
  · intro other member
    show Function.update state.live message.task true other = true
    rcases List.mem_cons.mp ((addresses_arrive message).mem_iff.mp member) with rfl | held
    · rw [Function.update_self]
    · have apart : other ≠ message.task := fun same => fresh (same ▸ held)
      rw [Function.update_of_ne apart]
      exact books.held other held
  · exact (addresses_arrive message).nodup_iff.mpr (List.nodup_cons.mpr ⟨fresh, books.apart⟩)
  · intro task
    have same := countP_allocate books free task
    have here : (state.allocate message.task).stored message.task = some state.nextTask :=
      Function.update_self ..
    simp only [weight, arrive, List.countP_append, List.countP_singleton, here, same, beq_iff_eq,
      Option.some.injEq, @eq_comm _ state.nextTask]
    show _ + _ + state.posted.countP _ + state.taken.countP _ + state.executed.count task = _
    omega

variable {next : TaskState}

/-- `RunOnRing` keeps the accounts. -/
theorem Books.runOnRing {target : RingId} {current : Option RingId}
    {new : Option Address} {sqe submitted : Bool} (books : state.Books)
    (submits : state.SubmitsMessage (.runOnRing target current new sqe submitted))
    (returned : state.runOnRing target current new sqe submitted = some next) : next.Books := by
  unfold TaskState.runOnRing at returned
  by_cases closed : state.hasRing target = false
  · rw [if_pos closed] at returned
    cases returned
    exact books.refuse
  rw [if_neg closed] at returned
  by_cases own : current = some target
  · rw [if_pos own] at returned
    cases returned
    exact books.execute_begun.accept books
  rw [if_neg own] at returned
  rcases caller : current.filter state.hasRing with _ | source
  · rw [caller] at returned
    cases returned
    exact (books.post_begun target).accept books
  rw [caller] at returned
  rcases new with _ | address
  · cases returned
    exact books.refuse
  dsimp only at returned
  split_ifs at returned with used full sends
  · cases returned
    exact (books.allocate_delete used).refuse
  · cases returned
    rw [submit_prepMsgRing books.sent ⟨source, target, address⟩]
    exact (books.arrive_begun used).accept books
  · refine absurd (submits (Bool.not_eq_false _ ▸ closed) own ?_ rfl ?_) sends
    · rw [caller]
      rfl
    · exact Bool.not_eq_false _ ▸ full

theorem Books.submit (books : state.Books) (ring : RingId) : (state.submit ring).Books := by
  have same : state.submit ring = state := by
    unfold TaskState.submit
    rw [books.sent, List.filter_nil, List.filter_nil, List.append_nil]
    cases state
    cases books.sent
    rfl
  rw [same]
  exact books

/-- `Dispatch` keeps the accounts. -/
theorem Books.dispatch {ring : RingId} (books : state.Books)
    (ran : state.dispatch ring = some next) : next.Books := by
  unfold TaskState.dispatch at ran
  split_ifs at ran
  obtain ⟨message, found, ran⟩ := Option.bind_eq_some_iff.mp ran
  obtain ⟨task, stored, rfl⟩ := Option.map_eq_some_iff.mp ran
  have moved := perm_cons_eraseP found
  have addresses : ((state.arrived.eraseP (·.target = ring)).map (·.task) ++
      (state.running ++ [(ring, message.task)]).map (·.2)).Perm state.addresses := by
    rw [List.map_append, ← List.append_assoc]
    refine List.perm_append_comm.trans ?_
    exact ((moved.map (·.task)).append_right (state.running.map (·.2))).symm
  refine ⟨books.sent, fun address member => books.held address (addresses.mem_iff.mp member),
    addresses.nodup_iff.mpr books.apart, fun other => ?_⟩
  have counted := books.counted other
  have executed := weight_execute state task other
  simp only [weight, execute, moved.countP_eq, List.countP_cons, stored, beq_iff_eq,
    Option.some.injEq, @eq_comm _ task] at counted executed ⊢
  show _ ≤ state.allowance other
  omega

theorem Books.deleteRun {ring : RingId} (books : state.Books)
    (deleted : state.deleteRun ring = some next) : next.Books := by
  obtain ⟨entry, found, rfl⟩ := Option.map_eq_some_iff.mp deleted
  have moved : state.addresses.Perm
      (entry.2 :: (state.arrived.map (·.task) ++ (state.running.eraseP (·.1 = ring)).map (·.2))) :=
    (((perm_cons_eraseP found).map (·.2)).append_left _).trans List.perm_middle
  obtain ⟨gone, apart⟩ := List.nodup_cons.mp (moved.nodup_iff.mp books.apart)
  refine ⟨books.sent, fun address member => ?_, apart, books.counted⟩
  have other : address ≠ entry.2 := fun same => gone (same ▸ member)
  show Function.update state.live entry.2 false address = true
  rw [Function.update_of_ne other]
  exact books.held address (moved.mem_iff.mpr (List.mem_cons_of_mem _ member))

theorem Books.processPostedTasks {ring : RingId} (books : state.Books)
    (swapped : state.processPostedTasks ring = some next) : next.Books := by
  unfold TaskState.processPostedTasks at swapped
  split_ifs at swapped
  cases swapped
  refine ⟨books.sent, books.held, books.apart, fun task => ?_⟩
  have counted := books.counted task
  have divided := (List.filter_append_perm (fun entry => decide (entry.1 = ring))
    state.posted).countP_eq (fun entry => task == entry.2)
  simp only [weight, List.countP_append, ne_eq, decide_not] at counted divided ⊢
  show _ ≤ state.allowance task
  omega

theorem Books.runPosted {ring : RingId} (books : state.Books)
    (ran : state.runPosted ring = some next) : next.Books := by
  obtain ⟨entry, found, rfl⟩ := Option.map_eq_some_iff.mp ran
  have moved := perm_cons_eraseP found
  refine ⟨books.sent, books.held, books.apart, fun task => ?_⟩
  have counted := books.counted task
  have executed := weight_execute state entry.2 task
  simp only [weight, execute, moved.countP_eq, List.countP_cons, beq_iff_eq] at counted executed ⊢
  show _ ≤ state.allowance task
  omega

/-- Every step keeps the books as long as prepared messages are sent. -/
theorem Books.step {next : TaskState} {action : TaskAction} (books : state.Books)
    (submits : state.SubmitsMessage action)
    (transition : taskSystem.step state action = some next) : next.Books := by
  cases action with
  | runOnRing target current new sqe submitted => exact books.runOnRing submits transition
  | submit ring submitted =>
    cases transition
    by_cases succeeds : submitted = true
    · rw [if_pos succeeds]
      exact books.submit ring
    · rw [if_neg succeeds]
      exact books
  | dispatch ring => exact books.dispatch transition
  | deleteRun ring => exact books.deleteRun transition
  | processPostedTasks ring => exact books.processPostedTasks transition
  | runPosted ring => exact books.runPosted transition

theorem books_of_reachable (reachable : taskSystem.Reachable SubmitsMessage state) :
    state.Books := by
  refine reachable.invariant Books ?_ fun books submits transition => books.step submits transition
  rintro _ ⟨hasRing, rfl⟩
  exact ⟨rfl, nofun, List.nodup_nil, fun task => Nat.zero_le _⟩

/-- A submit that fails behind a prepared message leaves the message of a task that was refused. -/
theorem not_truthful_of_not_submits {action : TaskAction} (fails : ¬ state.SubmitsMessage action)
    (transition : taskSystem.step state action = some next) : ¬ next.Truthful := by
  cases action with
  | runOnRing target current new sqe submitted =>
    simp only [SubmitsMessage, Classical.not_imp] at fails
    obtain ⟨isOpen, own, caller, storage, room, failed⟩ := fails
    obtain ⟨source, caller⟩ := Option.isSome_iff_exists.mp caller
    obtain ⟨address, rfl⟩ := Option.isSome_iff_exists.mp storage
    change state.runOnRing target current (some address) sqe submitted = some next at transition
    unfold TaskState.runOnRing at transition
    rw [if_neg (by simp [isOpen]), if_neg own, caller] at transition
    dsimp only at transition
    split_ifs at transition with used full
    · simp [room] at full
    · cases transition
      intro truthful
      refine truthful.notReferenced state.nextTask ?_ ⟨source, target, address⟩ ?_ ?_
      · exact (answers_answer _ false _).trans (if_pos rfl)
      · exact List.mem_append_left _ (List.mem_append_right _ List.mem_cons_self)
      · exact Function.update_self ..
  | submit | dispatch | deleteRun | processPostedTasks | runPosted => exact absurd trivial fails

/-- The answers of `RunOnRing` are true in every run in which the submit behind every prepared
message succeeds, and one that fails makes them false at once. -/
theorem runOnRing_truthful (state : TaskState) :
    (taskSystem.Reachable SubmitsMessage state → state.Truthful) ∧
    ∀ action next, taskSystem.Reachable everyStep state →
      taskSystem.step state action = some next → ¬ state.SubmitsMessage action →
        ¬ next.Truthful :=
  ⟨fun reachable => (books_of_reachable reachable).truthful,
    fun _ _ _ transition fails => not_truthful_of_not_submits fails transition⟩

/-- Two rings. -/
def twoRings : TaskState where
  hasRing ring := ring < 2

theorem twoRings_initial : taskSystem.Initial twoRings := ⟨_, rfl⟩

/-- One task on each of the three ways to a ring, and a message whose submit fails. -/
theorem runOnRing_truthful_three :
    (∃ state : TaskState, state.answers = [true, true, true] ∧ state.executed = [2, 0, 1] ∧
      state.Truthful) ∧
    ∃ state : TaskState, state.answers = [false] ∧ ¬ state.Truthful := by
  obtain ⟨failed, transition, refused⟩ : ∃ failed,
      taskSystem.step twoRings (.runOnRing 1 (some 0) (some 8) true false) = some failed ∧
      failed.answers = [false] := ⟨_, rfl, rfl⟩
  obtain ⟨state, executed, answers, order⟩ : ∃ state,
      taskSystem.execute SubmitsMessage twoRings
        [.runOnRing 1 (some 0) (some 8) true true, .runOnRing 1 none none false false,
          .runOnRing 1 (some 1) none false false, .dispatch 1, .deleteRun 1,
          .processPostedTasks 1, .runPosted 1] = some state ∧
      state.answers = [true, true, true] ∧ state.executed = [2, 0, 1] :=
    ⟨_, rfl, rfl, rfl⟩
  refine ⟨⟨state, answers, order, ?_⟩, failed, refused, ?_⟩
  · exact (runOnRing_truthful state).1
      (TransitionSystem.Reachable.execute (.initial twoRings_initial) executed)
  · exact (runOnRing_truthful twoRings).2 _ failed (.initial twoRings_initial) transition
      (by decide)

/-- A task that was refused is executed once a later submit sends its message. -/
theorem refused_task_executed :
    ∃ state, taskSystem.Reachable everyStep state ∧ state.answers[0]? = some false ∧
      0 ∈ state.executed := by
  refine TransitionSystem.exists_reachable twoRings_initial
    [.runOnRing 1 (some 0) (some 8) true false, .submit 0 true, .dispatch 1] ⟨_, rfl, fun _ => ?_⟩
  exact ⟨rfl, List.mem_cons_self⟩

end UringServer.Ring.TaskState
