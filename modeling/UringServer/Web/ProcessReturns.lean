import UringServer.Web.ProcessOutcome

/-!
# When running a command returns

Every step brings `Run` and the command closer to their end, and as long as the
pipe of the standard error takes what is written to it one of them can take a step.
-/

namespace UringServer.Web.ProcessExecutor

open UringServer.Semantics

variable {os : Os} {args : List Text} {state next : RunState} {action : RunAction} {child : Child}

/-! ## Progress -/

/-- A running child can take a step unless it writes to a full pipe. -/
theorem exists_childStep {ops : List ChildOp} (here : state.child = some ops)
    (room : ∀ stream bytes rest, ops = .write stream bytes :: rest → bytes ≠ [] →
      (state.pipes stream).writer = true → (∃ reading, state.phase = .reading reading) ∧
        ((state.pipes stream).held.length = 0 ∨
          (state.pipes stream).held.length + bytes.length ≤ os.guaranteed)) :
    ∃ action, noFailure state action ∧ (state.step os args action).isSome := by
  cases ops with
  | nil => exact ⟨.advance, trivial, by simp [RunState.step, RunState.advance, here]⟩
  | cons op rest =>
    cases op with
    | close stream => exact ⟨.advance, trivial, by simp [RunState.step, RunState.advance, here]⟩
    | write stream bytes =>
      by_cases settled : bytes = [] ∨ (state.pipes stream).writer = false
      · exact ⟨.advance, trivial, by simp [RunState.step, RunState.advance, here, settled]⟩
      · rw [not_or] at settled
        have isOpen := Bool.eq_true_of_not_eq_false settled.2
        obtain ⟨⟨reading, phase⟩, space⟩ := room stream bytes rest rfl settled.1 isOpen
        obtain ⟨count, positive, within, taken⟩ := os.takes_some (state.pipes stream).transfers
          (List.length_pos_iff.mpr settled.1) space
        refine ⟨.write count, trivial, ?_⟩
        simp only [RunState.step, RunState.write, here, phase]
        rw [if_pos ⟨isOpen, positive, within, taken⟩]
        rfl

/-- Where the pipe of the standard error takes what is written, someone can go on until `Run`
returns. -/
theorem exists_step (faithful : Faithful args child state) (filling : Filling os child state)
    (fits : (early child.ops).length ≤ os.guaranteed)
    (going : ∀ value, state.phase ≠ .returned value) :
    ∃ action, noFailure state action ∧ (state.step os args action).isSome := by
  have running : ∀ stream, (state.pipes stream).writer = true → ∃ ops, state.child = some ops := by
    intro stream isOpen
    refine Option.ne_none_iff_exists'.mp fun ended => ?_
    simp [faithful.ended ended stream] at isOpen
  cases phase : state.phase with
  | returned value => exact absurd phase (going value)
  | waiting =>
    cases here : state.child with
    | none => exact ⟨.wait, trivial, by simp [RunState.step, phase, here]⟩
    | some ops =>
      refine exists_childStep here fun stream bytes rest _ _ isOpen => ?_
      have closed := (faithful.drained stream (by rw [phase]; trivial)).2
      simp [closed] at isOpen
  | reading stream =>
    by_cases empty : (state.pipes stream).held = []
    · cases isOpen : (state.pipes stream).writer with
      | false => exact ⟨.readEnds, trivial, by simp [RunState.step, phase, empty, isOpen]⟩
      | true =>
        obtain ⟨ops, here⟩ := running stream isOpen
        refine exists_childStep here fun target bytes rest written nonempty targetOpen =>
          ⟨⟨stream, phase⟩, ?_⟩
        by_cases same : target = stream
        · rw [same, empty]
          exact .inl rfl
        · cases stream with
          | stderr =>
            have past : state.phase.Past target := by
              rw [phase]
              cases target with
              | stdout => rfl
              | stderr => exact absurd rfl same
            simp [(faithful.drained target past).2] at targetOpen
          | stdout =>
            cases target with
            | stdout => exact absurd rfl same
            | stderr =>
              obtain ⟨sameOps, hereToo, total⟩ := filling.unread phase isOpen
              cases here.symm.trans hereToo
              rw [written, if_pos targetOpen, early] at total
              have lengths := congrArg List.length total
              simp only [List.length_append] at lengths
              right
              omega
    · refine ⟨.read 1, trivial, ?_⟩
      simp only [RunState.step, phase]
      rw [if_pos ⟨Nat.one_pos, by decide, List.length_pos_iff.mpr empty⟩]
      rfl

/-- The steps that a child has left at most, with each byte counting for its write and its read. -/
def childSteps (ops : List ChildOp) : Nat :=
  (ops.map fun op => match op with
    | .write _ bytes => 2 * bytes.length + 1
    | .close _ => 1).sum + 1

def phaseSteps : Phase → Nat
  | .reading .stdout => 3
  | .reading .stderr => 2
  | .waiting => 1
  | .returned _ => 0

/-- What bounds the steps that child and parent still take. -/
def remaining (state : RunState) : Nat :=
  state.child.elim 0 childSteps + (state.pipes .stdout).held.length +
    (state.pipes .stderr).held.length + phaseSteps state.phase

theorem RunEffect.remaining_lt (effect : RunEffect os args state next) :
    remaining next < remaining state := by
  cases effect with
  | @write stream bytes rest count _ here phase isOpen some within room =>
    cases stream <;>
      simp [remaining, RunState.push, RunState.setPipe, here, childSteps] <;> omega
  | skip here settled => simp [remaining, here, childSteps]
  | @close stream rest here =>
    cases stream <;> simp [remaining, RunState.setPipe, here, childSteps]
  | exit here => simp [remaining, RunState.exit, here, childSteps]
  | broken here => simp [remaining, RunState.exit, here, childSteps]
  | @read stream count phase some within =>
    cases stream <;> simp [remaining, RunState.pull, RunState.setPipe] <;> omega
  | @readEnds stream phase =>
    cases stream <;> simp [remaining, phase, Phase.behind, phaseSteps]
  | wait phase => simp [remaining, RunState.finish, phase, phaseSteps]

/-! ## When `Run` returns -/

/-- If a pipe takes in any case what the command writes to its standard error while both streams
are open, runs end, and only by returning exactly what the command wrote with its status. -/
theorem run_returns_exactly {workingDir : Text}
    (fits : (early (spawned os args workingDir).ops).length ≤ os.guaranteed)
    (reachable : (runSystem os args workingDir).Reachable noFailure state) :
    (∀ actions final, (runSystem os args workingDir).execute noFailure state actions = some final →
      actions.length ≤ remaining state) ∧
      ((∀ action, noFailure state action →
        (runSystem os args workingDir).step state action = none) →
        state.phase = .returned (result args (spawned os args workingDir).status
          (output .stdout (spawned os args workingDir).ops)
          (output .stderr (spawned os args workingDir).ops))) := by
  refine ⟨fun actions final executed => ?_, fun stuck => ?_⟩
  · exact TransitionSystem.length_le_of_execute remaining
      (fun admitted transition => (step_effect admitted transition).remaining_lt) executed
  · have faithful := faithful_of_reachable reachable
    cases phase : state.phase with
    | returned value => rw [faithful.outcome value phase]
    | reading _ | waiting =>
      obtain ⟨action, admitted, enabled⟩ := exists_step faithful
        (filling_of_reachable reachable) fits (by simp [phase])
      have disabled : state.step os args action = none := stuck action admitted
      simp [disabled] at enabled

/-- A system with small pipes and one command, which warns on its standard error. -/
def smallOs (capacity : Nat) (positive : 0 < capacity) : Os where
  capacity := capacity
  guaranteed := capacity
  takes _ held _ count := held + count ≤ capacity
  takes_bounded := of_decide_eq_true
  takes_some _ held size some space := ⟨1, Nat.one_pos, some, decide_eq_true (by omega)⟩
  chdir := fun _ => true
  execvp := fun args =>
    if args = [ascii "lint"] then
      some { ops := [.write .stderr [1, 2, 3], .write .stdout [4]], status := .exited 2 }
    else none

theorem run_returns_exactly_lint : ∃ state,
    (runSystem (smallOs 3 (by decide)) [ascii "lint"] []).Reachable noFailure state ∧
    state.phase = .returned (.ok ⟨2, [4], [1, 2, 3]⟩) := by
  obtain ⟨state, executed, stuck⟩ : ∃ state,
      (runSystem (smallOs 3 (by decide)) [ascii "lint"] []).execute noFailure
        { child := some [.write .stderr [1, 2, 3], .write .stdout [4]], status := .exited 2 }
        [.write 2, .write 1, .advance, .write 1, .read 1, .advance, .advance, .readEnds, .read 3,
          .readEnds, .wait] = some state ∧
      ∀ action, noFailure state action → state.step (smallOs 3 (by decide)) [ascii "lint"] action =
        none := by
    refine ⟨_, rfl, fun action _ => ?_⟩
    cases action <;> rfl
  have reachable := TransitionSystem.Reachable.execute (.initial rfl) executed
  exact ⟨state, reachable, (run_returns_exactly (by decide) reachable).2 stuck⟩

end UringServer.Web.ProcessExecutor
