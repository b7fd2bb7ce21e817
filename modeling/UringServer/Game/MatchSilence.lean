import UringServer.Game.MatchCallbacks

/-!
# A terminated match

`HandleTerminate` clears `active_`, which `HandleJoin` and `HandleTick` ask for;
`HandleLeave` finds no player any more. `HandleMessage` and `HandleTerminate` itself
do not ask, so a message or a second termination still reaches the handler.
-/

namespace UringServer.Game

open UringServer.Semantics

/-- The calls that a terminated match is not to make: those that tell its handler something, and
the reservation of a tick. -/
def MatchCall.stirs : MatchCall → Bool
  | .onJoin _ | .onLeave _ | .onMessage _ _ _ | .onTick _ | .onTerminate | .reserve _ => true
  | .joinAttempt _ | .updateStatus _ _ | .updateMatch _ _ => false

/-- No such call comes behind an `OnTerminate`. -/
def Silent (calls : List MatchCall) : Prop :=
  calls.Pairwise fun call later => call = .onTerminate → later.stirs = false

theorem silent_append {calls made : List MatchCall} :
    Silent (calls ++ made) ↔ Silent calls ∧ Silent made ∧
      (.onTerminate ∈ calls → ∀ later ∈ made, later.stirs = false) := by
  unfold Silent
  rw [List.pairwise_append]
  refine and_congr_right' (and_congr_right' ⟨?_, ?_⟩)
  · intro across ended later member
    exact across _ ended later member rfl
  · rintro across call member later laterMember rfl
    exact across member later laterMember

theorem silent_of_goes_on {calls : List MatchCall} (goesOn : .onTerminate ∉ calls) :
    Silent calls := by
  refine List.pairwise_iff_forall_sublist.mpr ?_
  rintro call later both rfl
  exact absurd (both.subset List.mem_cons_self) goesOn

/-- One job keeps the order. -/
theorem Match.Handled.silent {game next : Match} {job : MatchJob} {made : List MatchCall}
    (handled : game.Handled job next made) : Silent made := by
  cases handled with
  | terminated order walk =>
    refine List.pairwise_cons.mpr ⟨?_, silent_of_goes_on (by simp)⟩
    intro later member _
    simp only [List.mem_flatMap, List.mem_cons, List.not_mem_nil, or_false] at member
    obtain ⟨player, _, rfl | rfl⟩ := member <;> rfl
  | ticked now active =>
    apply silent_of_goes_on
    unfold Match.scheduleTick
    split_ifs <;> simp
  | joined | declined | ignored | left | absent | message | late =>
    exact silent_of_goes_on (by simp)

namespace MatchRun

variable {run next : MatchRun} {job : MatchJob}

/-- A job of a terminated match is neither a message nor a termination. -/
def SparesTerminated (run : MatchRun) : MatchJob → Prop
  | .message _ _ _ | .terminate _ => run.game.active = true
  | _ => True

instance (run : MatchRun) : (job : MatchJob) → Decidable (run.SparesTerminated job)
  | .message _ _ _ | .terminate _ => instDecidableEqBool run.game.active true
  | .join _ _ _ | .leave _ | .tick _ => instDecidableTrue

/-- What a job does to a terminated match. -/
theorem stirs_of_inactive {game : Match} {made : List MatchCall} (tracked : run.Tracked)
    (handled : run.game.Handled job game made) (inactive : run.game.active = false) :
    (∀ later ∈ made, later.stirs = false) ↔ run.SparesTerminated job := by
  cases handled with
  | joined player reactor active | declined player reactor active | ticked now active =>
    rw [inactive] at active
    cases active
  | left player inside => exact absurd inside (tracked.nobody inactive player)
  | message | terminated => simp [SparesTerminated, inactive, MatchCall.stirs]
  | ignored | absent | late => simp [SparesTerminated]

/-- Exactly which jobs keep the silence. -/
theorem silent_step (tracked : run.Tracked)
    (transition : matchSystem.step run job = some next) :
    Silent next.calls ↔ Silent run.calls ∧ run.SparesTerminated job := by
  obtain ⟨game, made, handled, rfl⟩ := matchSystem_step transition
  rw [silent_append, and_iff_right handled.silent]
  refine and_congr_right' ?_
  by_cases active : run.game.active = true
  · have goesOn := tracked.active.mp active
    have spares : run.SparesTerminated job := by
      cases job <;> first | exact active | trivial
    exact iff_of_true (fun ended => absurd ended goesOn) spares
  · have ended : .onTerminate ∈ run.calls := not_not.mp fun goesOn =>
      active (tracked.active.mpr goesOn)
    rw [forall_prop_of_true ended]
    exact stirs_of_inactive tracked handled (Bool.eq_false_iff.mpr active)

/-- In every run a terminated match has no players. It calls its handler no more and reserves no
tick exactly in the runs in which it gets no message and no second termination. -/
theorem terminated_silent_iff (reachable : matchSystem.Reachable everyStep run) :
    (Silent run.calls ∧ (.onTerminate ∈ run.calls → run.game.players = ∅)) ↔
      matchSystem.Reachable SparesTerminated run := by
  have tracked := tracked_of_reachable reachable
  have empty : .onTerminate ∈ run.calls → run.game.players = ∅ := by
    intro ended
    have inactive : run.game.active = false :=
      Bool.eq_false_iff.mpr fun active => tracked.active.mp active ended
    have noKey : run.game.players.keys = [] :=
      List.eq_nil_iff_forall_not_mem.mpr (tracked.nobody inactive)
    exact AList.ext (List.map_eq_nil_iff.mp noKey)
  rw [and_iff_left empty, ← reachable.iff_admitted (fun run => Silent run.calls)]
  · rintro _ ⟨id, config, lastTick, rfl⟩
    exact .nil
  · intro state action after prior transition
    exact silent_step (tracked_of_reachable prior) transition

/-- A termination with a player inside, then a join, a leave and a tick. -/
theorem terminated_silent_late_jobs : ∃ run : MatchRun,
    matchSystem.Reachable SparesTerminated run ∧ .onTerminate ∈ run.calls ∧
      run.game.players = ∅ := by
  obtain ⟨run, executed, ended⟩ : ∃ run,
      matchSystem.execute SparesTerminated { game := { id := 1 } }
        [.join 7 0 true, .message 7 3 [], .tick 50000000, .terminate [7], .join 8 0 true,
          .leave 7, .tick 100000000] = some run ∧ .onTerminate ∈ run.calls :=
    ⟨_, rfl, by decide⟩
  have reachable : matchSystem.Reachable SparesTerminated run :=
    TransitionSystem.Reachable.execute (.initial ⟨_, _, _, rfl⟩) executed
  have anyRun := reachable.mono fun _ _ _ => trivial
  exact ⟨run, reachable, ended, ((terminated_silent_iff anyRun).mpr reachable).2 ended⟩

/-- A message that was pushed before the termination and runs behind it, and a second
termination. -/
theorem terminated_match_called : ∃ run : MatchRun, matchSystem.Reachable everyStep run ∧
    run.calls = [.onTerminate, .onMessage 7 3 [], .onTerminate] ∧ ¬ Silent run.calls := by
  obtain ⟨run, executed, calls⟩ : ∃ run,
      matchSystem.execute everyStep { game := { id := 1 } }
        [.terminate [], .message 7 3 [], .terminate []] = some run ∧
      run.calls = [.onTerminate, .onMessage 7 3 [], .onTerminate] := ⟨_, rfl, rfl⟩
  refine ⟨run, TransitionSystem.Reachable.execute (.initial ⟨_, _, _, rfl⟩) executed, calls, ?_⟩
  rw [calls]
  unfold Silent
  decide

end MatchRun

end UringServer.Game
