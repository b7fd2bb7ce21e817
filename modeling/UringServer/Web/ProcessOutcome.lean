import UringServer.Web.ProcessExecutor

/-!
# What comes of running a command

What `Run` has read, what the pipes hold and what the child has yet to write add
up to what the command writes. As long as `Run` reads the standard output, all
that the command has written to its standard error stays in its pipe, so what that
pipe takes decides whether `Run` returns.
-/

namespace UringServer.Web.ProcessExecutor

open UringServer.Semantics

/-- What a command writes to a stream until it closes it. -/
def output (stream : Stream) : List ChildOp → Text
  | [] => []
  | .write target bytes :: rest =>
    if target = stream then bytes ++ output stream rest else output stream rest
  | .close target :: rest => if target = stream then [] else output stream rest

/-- What a command writes to its standard error while both streams are open. -/
def early : List ChildOp → Text
  | [] => []
  | .write .stdout _ :: rest => early rest
  | .write .stderr bytes :: rest => bytes ++ early rest
  | .close _ :: _ => []

/-- The streams that `Run` has read to their end. -/
def Phase.Past : Phase → Stream → Prop
  | .reading .stdout, _ => False
  | .reading .stderr, stream => stream = .stdout
  | .waiting, _ | .returned _, _ => True

/-- What the child has yet to write to a stream. -/
def RunState.pending (state : RunState) (stream : Stream) : Text :=
  if (state.pipes stream).writer = true then output stream (state.child.getD []) else []

variable {os : Os} {args : List Text} {state next : RunState} {action : RunAction} {child : Child}

theorem pending_of_closed {stream : Stream} (closed : (state.pipes stream).writer = false) :
    state.pending stream = [] := by
  rw [RunState.pending, closed, if_neg Bool.false_ne_true]

/-- What was read of a stream, what its pipe holds and what is pending. -/
def RunState.total (state : RunState) (stream : Stream) : Text :=
  state.received stream ++ ((state.pipes stream).held ++ state.pending stream)

section Total

variable {stream : Stream} {bytes : Text} {rest : List ChildOp} {count : Nat}

theorem total_push (here : state.child = some (.write stream bytes :: rest))
    (isOpen : (state.pipes stream).writer = true) (other : Stream) :
    (state.push stream bytes rest count).total other = state.total other := by
  by_cases same : other = stream
  · subst same
    simp only [RunState.total, RunState.pending, RunState.push, RunState.setPipe,
      Function.update_self, isOpen, here, Option.getD_some, output, if_pos, List.append_assoc]
    rw [← List.append_assoc (bytes.take count), List.take_append_drop]
  · simp [RunState.total, RunState.push, RunState.setPipe, RunState.pending, same, Ne.symm same,
      here, output]

theorem total_skip (here : state.child = some (.write stream bytes :: rest))
    (settled : bytes = [] ∨ (state.pipes stream).writer = false) (other : Stream) :
    { state with child := some rest }.total other = state.total other := by
  by_cases same : stream = other
  · subst same
    rcases settled with nothing | closed
    · simp [RunState.total, RunState.pending, here, output, nothing]
    · simp [RunState.total, RunState.pending, closed]
  · simp [RunState.total, RunState.pending, here, output, same]

theorem total_close (here : state.child = some (.close stream :: rest)) (other : Stream) :
    { state.setPipe stream { state.pipes stream with writer := false } with
      child := some rest }.total other = state.total other := by
  by_cases same : other = stream
  · subst same
    simp [RunState.total, RunState.pending, RunState.setPipe, here, output]
  · simp [RunState.total, RunState.pending, RunState.setPipe, here, output, same, Ne.symm same]

theorem total_pull (other : Stream) :
    (state.pull stream count).total other = state.total other := by
  by_cases same : other = stream
  · subst same
    simp only [RunState.total, RunState.pending, RunState.pull, RunState.setPipe,
      Function.update_self, List.append_assoc]
    rw [← List.append_assoc (List.take _ _), List.take_append_drop]
  · simp [RunState.total, RunState.pending, RunState.pull, RunState.setPipe, same]

end Total

/-- Nothing gets lost between the command and what `Run` returns. -/
structure Faithful (args : List Text) (child : Child) (state : RunState) : Prop where
  status : state.status = child.status
  ended : state.child = none → ∀ stream, (state.pipes stream).writer = false
  total : ∀ stream, state.total stream = output stream child.ops
  drained : ∀ stream, state.phase.Past stream →
    (state.pipes stream).held = [] ∧ (state.pipes stream).writer = false
  outcome : ∀ value, state.phase = .returned value →
    value = result args child.status (output .stdout child.ops) (output .stderr child.ops)

theorem Faithful.received (faithful : Faithful args child state) {stream : Stream}
    (past : state.phase.Past stream) : state.received stream = output stream child.ops := by
  obtain ⟨empty, closed⟩ := faithful.drained stream past
  rw [← faithful.total, RunState.total, empty, pending_of_closed closed, List.append_nil,
    List.append_nil]

/-- No step loses or changes output. -/
theorem Faithful.step (faithful : Faithful args child state)
    (effect : RunEffect os args state next) : Faithful args child next := by
  obtain ⟨status, ended, total, drained, outcome⟩ := id faithful
  cases effect with
  | @write stream bytes rest count reading here phase isOpen some within room =>
    refine ⟨status, fun ended => (by cases ended),
      fun other => (total_push here isOpen other).trans (total other), fun other past => ?_,
      outcome⟩
    obtain ⟨empty, closed⟩ := drained other past
    have different : other ≠ stream := by
      rintro rfl
      simp [closed] at isOpen
    simp [RunState.push, RunState.setPipe, different, empty, closed]
  | skip here settled =>
    exact ⟨status, fun ended => (by cases ended),
      fun other => (total_skip here settled other).trans (total other), drained, outcome⟩
  | @close stream rest here =>
    refine ⟨status, fun ended => (by cases ended),
      fun other => (total_close here other).trans (total other), fun other past => ?_, outcome⟩
    obtain ⟨empty, closed⟩ := drained other past
    by_cases same : other = stream
    · subst same
      simp [RunState.setPipe, empty]
    · simp [RunState.setPipe, same, empty, closed]
  | exit here =>
    refine ⟨status, fun _ _ => rfl, fun other => ?_, fun other past => ?_, outcome⟩
    · rw [← total other]
      simp [RunState.total, RunState.pending, RunState.exit, here, output]
    · exact ⟨(drained other past).1, rfl⟩
  | @broken stream bytes rest here isOpen unread =>
    have past : state.phase.Past stream := by
      cases phase : state.phase with
      | reading other => exact absurd phase (unread other)
      | waiting => trivial
      | returned value => trivial
    simp [(drained stream past).2] at isOpen
  | @read stream count phase some within =>
    refine ⟨status, fun none other => ?_, fun other => (total_pull other).trans (total other),
      fun other past => ?_, outcome⟩
    · have closed := ended none other
      by_cases same : other = stream
      · subst same
        simpa [RunState.pull, RunState.setPipe] using closed
      · simpa [RunState.pull, RunState.setPipe, same] using closed
    · obtain ⟨empty, closed⟩ := drained other past
      have different : other ≠ stream := by
        rintro rfl
        rw [empty, List.length_nil] at within
        omega
      simp [RunState.pull, RunState.setPipe, different, empty, closed]
  | @readEnds stream phase empty closed =>
    refine ⟨status, ended, total, fun other past => ?_, fun value same => ?_⟩
    · by_cases here : other = stream
      · subst here
        exact ⟨empty, closed⟩
      · refine drained other ?_
        rw [phase]
        cases stream <;> cases other <;> first | exact absurd rfl here | trivial
    · cases stream <;> cases same
  | wait phase _ =>
    refine ⟨status, ended, total, fun other _ => ?_, fun value same => ?_⟩
    · exact drained other (by rw [phase]; trivial)
    · cases same
      rw [status, faithful.received (by rw [phase]; trivial),
        faithful.received (by rw [phase]; trivial)]

theorem faithful_of_reachable {workingDir : Text}
    (reachable : (runSystem os args workingDir).Reachable noFailure state) :
    Faithful args (spawned os args workingDir) state := by
  refine TransitionSystem.Reachable.invariant _ ?_ ?_ reachable
  · rintro _ rfl
    refine ⟨rfl, fun ended => (by cases ended), fun stream => ?_, fun stream past => past.elim,
      fun value same => (by cases same)⟩
    simp [RunState.total, RunState.pending]
  · exact fun faithful admitted transition => faithful.step (step_effect admitted transition)

/-! ## The pipe of the standard error -/

/-- The pipes hold no more than they can, and the pipe of the standard error holds all that was
written to it while the standard output is read and still open. -/
structure Filling (os : Os) (child : Child) (state : RunState) : Prop where
  bounded : ∀ stream, (state.pipes stream).held.length ≤ os.capacity
  unread : state.phase = .reading .stdout → (state.pipes .stdout).writer = true →
    ∃ ops, state.child = some ops ∧ (state.pipes .stderr).held ++
      (if (state.pipes .stderr).writer = true then early ops else []) = early child.ops

/-- The standard error is not read before its turn. -/
theorem Filling.step (filling : Filling os child state)
    (effect : RunEffect os args state next) : Filling os child next := by
  obtain ⟨bounded, unread⟩ := filling
  cases effect with
  | @write stream bytes rest count reading here phase isOpen some within room =>
    refine ⟨fun other => ?_, fun reading stillOpen => ⟨_, rfl, ?_⟩⟩
    · by_cases same : other = stream
      · subst same
        simp only [RunState.push, RunState.setPipe, Function.update_self, List.length_append,
          List.length_take]
        omega
      · simpa [RunState.push, RunState.setPipe, same] using bounded other
    · have before : (state.pipes .stdout).writer = true := by
        cases stream with
        | stdout => exact isOpen
        | stderr => exact stillOpen
      obtain ⟨ops, sameOps, total⟩ := unread reading before
      cases here.symm.trans sameOps
      rw [← total]
      cases stream with
      | stdout => simp [RunState.push, RunState.setPipe, early]
      | stderr =>
        simp only [RunState.push, RunState.setPipe, Function.update_self, isOpen, if_pos, early,
          List.append_assoc]
        rw [← List.append_assoc (bytes.take count), List.take_append_drop]
  | @skip stream bytes rest here settled =>
    refine ⟨bounded, fun reading stillOpen => ⟨rest, rfl, ?_⟩⟩
    obtain ⟨ops, sameOps, total⟩ := unread reading stillOpen
    cases here.symm.trans sameOps
    rw [← total]
    cases stream with
    | stdout => rfl
    | stderr => rcases settled with nothing | closed <;> simp [early, *]
  | @close stream rest here =>
    refine ⟨fun other => ?_, fun reading stillOpen => ⟨rest, rfl, ?_⟩⟩
    · by_cases same : other = stream
      · subst same
        simpa [RunState.setPipe] using bounded other
      · simpa [RunState.setPipe, same] using bounded other
    · cases stream with
      | stdout => simp [RunState.setPipe] at stillOpen
      | stderr =>
        obtain ⟨ops, sameOps, total⟩ := unread reading stillOpen
        cases here.symm.trans sameOps
        simpa [RunState.setPipe, early] using total
  | exit here => exact ⟨bounded, fun _ isOpen => (by cases isOpen)⟩
  | broken here isOpen unread => exact ⟨bounded, fun _ isOpen => (by cases isOpen)⟩
  | @read stream count phase some within =>
    refine ⟨fun other => ?_, fun reading stillOpen => ?_⟩
    · have fits := bounded other
      by_cases same : other = stream
      · subst same
        simp only [RunState.pull, RunState.setPipe, Function.update_self, List.length_drop]
        omega
      · simpa [RunState.pull, RunState.setPipe, same] using fits
    · cases phase.symm.trans reading
      obtain ⟨ops, sameOps, total⟩ := unread reading (by
        simpa [RunState.pull, RunState.setPipe] using stillOpen)
      exact ⟨ops, sameOps, by simpa [RunState.pull, RunState.setPipe] using total⟩
  | @readEnds stream phase empty closed =>
    refine ⟨bounded, fun reading => ?_⟩
    cases stream <;> cases reading
  | wait phase ended => exact ⟨bounded, fun reading => (by cases reading)⟩

theorem filling_of_reachable {workingDir : Text}
    (reachable : (runSystem os args workingDir).Reachable noFailure state) :
    Filling os (spawned os args workingDir) state := by
  refine TransitionSystem.Reachable.invariant _ ?_ ?_ reachable
  · rintro _ rfl
    exact ⟨fun stream => Nat.zero_le _, fun _ _ => ⟨_, rfl, by simp⟩⟩
  · exact fun filling admitted transition => filling.step (step_effect admitted transition)

/-- A pipe that is too small keeps the child from closing its standard output. -/
theorem Filling.early_ne_nil (filling : Filling os child state)
    (exceeds : os.capacity < (early child.ops).length) (reading : state.phase = .reading .stdout)
    (isOpen : (state.pipes .stdout).writer = true) {ops : List ChildOp}
    (here : state.child = some ops) : early ops ≠ [] := by
  intro nothing
  obtain ⟨same, sameOps, total⟩ := filling.unread reading isOpen
  cases here.symm.trans sameOps
  rw [nothing, ite_self, List.append_nil] at total
  have bounded := filling.bounded .stderr
  rw [total] at bounded
  omega

/-- `Run` is in `ReadFd` of the standard output, which is open. -/
structure Stalled (state : RunState) : Prop where
  reading : state.phase = .reading .stdout
  isOpen : (state.pipes .stdout).writer = true

/-- With too much on the standard error, no step ends it. -/
theorem Stalled.step (stalled : Stalled state) (filling : Filling os child state)
    (exceeds : os.capacity < (early child.ops).length) (effect : RunEffect os args state next) :
    Stalled next := by
  have pendingEarly := @Filling.early_ne_nil os state child filling exceeds stalled.reading
    stalled.isOpen
  obtain ⟨reading, isOpen⟩ := stalled
  cases effect with
  | @write stream bytes rest count _ here _ streamOpen =>
    refine ⟨reading, ?_⟩
    cases stream with
    | stdout => exact streamOpen
    | stderr => exact isOpen
  | skip => exact ⟨reading, isOpen⟩
  | @close stream rest here => exact absurd rfl (pendingEarly here)
  | exit here => exact absurd rfl (pendingEarly here)
  | broken _ _ unread => exact absurd reading (unread .stdout)
  | @read stream count phase =>
    cases phase.symm.trans reading
    exact ⟨reading, by simpa [RunState.pull, RunState.setPipe] using isOpen⟩
  | readEnds phase _ closed =>
    cases phase.symm.trans reading
    simp [closed] at isOpen
  | wait phase => cases phase.symm.trans reading

end UringServer.Web.ProcessExecutor
