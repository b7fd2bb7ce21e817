import UringServer.Web.Answers

/-!
# The order of responses

Requests are dispatched as they are parsed, whether or not an earlier answer is
still left to a callback. Responses leave in the order of the requests in the
runs in which each is handed over only when no earlier request waits for its
answer.
-/

namespace UringServer.Web

open UringServer.Io UringServer.Semantics

namespace HttpSession

variable {Parser : Type} (env : Environment) (llhttp : Llhttp Parser)

/-- A response is handed over only when no earlier request waits for its answer: a handler
answers at once when none does, and callbacks answer in the order of their requests. -/
def AnswersInTurn (state : HttpSession Parser) : WebAction → Prop
  | .parse => ∀ request ∈ state.arriving llhttp,
      ¬ Deferring (env.onRequest state.calls request) → state.history.deferred = []
  | .answer request _ => ∀ other ∈ state.history.deferred, request ≤ other
  | _ => True

instance (state : HttpSession Parser) (action : WebAction) :
    Decidable (AnswersInTurn env llhttp state action) :=
  match action with
  | .recv _ _ _ | .io _ => .isTrue trivial
  | .parse => inferInstanceAs (Decidable (∀ request ∈ state.arriving llhttp,
      ¬ Deferring (env.onRequest state.calls request) → state.history.deferred = []))
  | .answer request _ =>
    inferInstanceAs (Decidable (∀ other ∈ state.history.deferred, request ≤ other))

/-- The responses stand in the order of their requests, and those that were handed over are
for requests before all that wait. -/
structure Ledger.InOrder (ledger : Ledger) : Prop where
  sorted : (ledger.responses.map ResponseRecord.request).Pairwise (· < ·)
  answered : ∀ response ∈ ledger.responses, response.request < ledger.dispatched
  waiting : ∀ request ∈ ledger.deferred, request < ledger.dispatched
  once : ledger.deferred.Nodup
  before : ∀ response ∈ ledger.responses, ∀ request ∈ ledger.deferred, response.request < request

variable {env llhttp} {state next : HttpSession Parser} {ledger : Ledger}

theorem Ledger.InOrder.dispatch (ordered : ledger.InOrder) :
    Ledger.InOrder { ledger with dispatched := ledger.dispatched + 1 } :=
  ⟨ordered.sorted, fun _ member => (ordered.answered _ member).trans (Nat.lt_succ_self _),
    fun _ member => (ordered.waiting _ member).trans (Nat.lt_succ_self _), ordered.once,
    ordered.before⟩

/-- A request is dispatched and left to a callback. -/
theorem Ledger.InOrder.defer (ordered : ledger.InOrder) :
    Ledger.InOrder { ledger with
      dispatched := ledger.dispatched + 1
      deferred := ledger.deferred ++ [ledger.dispatched] } := by
  have grown := ordered.dispatch
  refine ⟨grown.sorted, grown.answered, ?_, ?_, ?_⟩
  · intro request member
    rcases List.mem_append.mp member with earlier | last
    · exact grown.waiting request earlier
    · rw [List.mem_singleton.mp last]
      exact Nat.lt_succ_self _
  · refine List.nodup_append.mpr ⟨ordered.once, List.nodup_singleton _, ?_⟩
    intro request member _ last same
    have lower := ordered.waiting request member
    rw [same, List.mem_singleton.mp last] at lower
    omega
  · intro response member request waits
    rcases List.mem_append.mp waits with earlier | last
    · exact ordered.before response member request earlier
    · rw [List.mem_singleton.mp last]
      exact ordered.answered response member

/-- A response is handed over for a request before all that wait, after all answered. -/
theorem Ledger.InOrder.respond (ordered : ledger.InOrder) (response : ResponseRecord)
    (later : ∀ earlier ∈ ledger.responses, earlier.request < response.request)
    (known : response.request < ledger.dispatched)
    (first : ∀ request ∈ ledger.deferred, response.request < request) :
    Ledger.InOrder { ledger with responses := ledger.responses ++ [response] } := by
  have each {P : ResponseRecord → Prop} (old : ∀ earlier ∈ ledger.responses, P earlier)
      (new : P response) : ∀ any ∈ ledger.responses ++ [response], P any := by
    intro any member
    rcases List.mem_append.mp member with earlier | last
    · exact old any earlier
    · rwa [List.mem_singleton.mp last]
  refine ⟨?_, each ordered.answered known, ordered.waiting, ordered.once,
    each ordered.before first⟩
  rw [List.map_append, List.pairwise_append]
  refine ⟨ordered.sorted, List.pairwise_singleton _ _, ?_⟩
  intro number member last here
  obtain ⟨earlier, found, rfl⟩ := List.mem_map.mp member
  rw [List.mem_singleton.mp here]
  exact later earlier found

section Handlers

variable (answers : ∀ calls request, Synchronous (env.onRequest calls request) ∨
  Deferring (env.onRequest calls request))

include answers in
/-- A pass keeps the responses in order. -/
theorem Turn.inOrder (turn : Turn env llhttp state next) (ordered : state.ledger.InOrder)
    (inTurn : AnswersInTurn env llhttp state .parse) : next.ledger.InOrder := by
  cases turn with
  | leave | incomplete | failed =>
    rw [(finishHttp_finished env _ _ _ _).ledger]
    exact ordered
  | wsLeave =>
    rw [(finishWs_finished env _ _ _).ledger]
    exact ordered
  | frame =>
    rw [runMade_ledger]
    exact ordered
  | @request length rest buffered consumed request parser at_ more running executed =>
    change Ledger.InOrder (state.handleRequest env request).ledger
    rw [handleRequest_ledger]
    by_cases deferring : Deferring (env.onRequest state.calls request)
    · rw [answered_deferring deferring]
      exact ordered.defer
    · have synchronous := (answers state.calls request).resolve_right deferring
      have nothing := inTurn request (arriving_of_paused at_ more running executed) deferring
      obtain ⟨handed, one, same⟩ := answered_ledger synchronous
      rw [same]
      rcases one with rfl | ⟨bytes, position, rfl⟩
      · rw [List.append_nil]
        exact ordered.dispatch
      · refine ordered.dispatch.respond ⟨state.history.dispatched, bytes, position⟩
          ordered.answered (Nat.lt_succ_self _) ?_
        change ∀ request ∈ state.history.deferred, _
        rw [nothing]
        nofun

/-- A callback answers the first request that waits. -/
theorem answer_inOrder {request : Nat} (built : Option Text) (ordered : state.ledger.InOrder)
    (waits : request ∈ state.history.deferred)
    (first : ∀ other ∈ state.history.deferred, request ≤ other) :
    (state.answer env request built).ledger.InOrder := by
  have remaining {other : Nat} (member : other ∈ state.history.deferred.erase request) :
      other ∈ state.history.deferred := List.mem_of_mem_erase member
  have erased : Ledger.InOrder { state.ledger with
      deferred := state.history.deferred.erase request } :=
    ⟨ordered.sorted, ordered.answered, fun other member => ordered.waiting other (remaining member),
      ordered.once.erase _, fun response member other waits =>
        ordered.before response member other (remaining waits)⟩
  cases built with
  | none => exact erased
  | some buf =>
    refine erased.respond ⟨request, some buf, _⟩ ?_ (ordered.waiting request waits) ?_
    · exact fun earlier member => ordered.before earlier member request waits
    · intro other member
      have different : other ≠ request := ((ordered.once.mem_erase_iff).mp member).1
      exact lt_of_le_of_ne (first other (remaining member)) different.symm

include answers in
theorem Moves.inOrder {action : WebAction} (moves : Moves env llhttp state action next)
    (ordered : state.ledger.InOrder) (inTurn : AnswersInTurn env llhttp state action) :
    next.ledger.InOrder := by
  cases moves with
  | dropped => exact ordered
  | entered =>
    rw [(onRecv_entered env _ _).ledger]
    exact ordered
  | turn turn => exact turn.inOrder answers ordered inTurn
  | answer _ waits => exact answer_inOrder _ ordered waits inTurn
  | io => exact ordered

include answers in
/-- Handlers answer at once or leave it to a callback. In the runs in which a response is
handed over only when no earlier request waits for its answer, the responses are handed to
`Session::Send` in the order of the requests. -/
theorem httpSession_responses_in_order
    (reachable : (system env llhttp).Reachable (AnswersInTurn env llhttp) state) :
    (state.history.responses.map ResponseRecord.request).Pairwise (· < ·) := by
  have ordered : state.ledger.InOrder := by
    apply reachable.invariant fun state => state.ledger.InOrder
    · rintro _ ⟨onConnected, onDisconnect, rfl⟩
      exact ⟨.nil, nofun, nofun, .nil, nofun⟩
    · intro _ _ _ ordered inTurn transition
      exact (step_cases transition).inOrder answers ordered inTurn
  exact ordered.sorted

end Handlers

section Runs

/-- A handler at `/slow` that defers. -/
def deferring : Environment :=
  { Environment.quiet with
    onRequest := fun _ request => if request.path = ascii "/slow" then [.defer] else [] }

theorem deferring_answers (calls : List Call) (request : HttpRequest) :
    Synchronous (deferring.onRequest calls request) ∨
      Deferring (deferring.onRequest calls request) := by
  change Synchronous (if _ then _ else _) ∨ Deferring (if _ then _ else _)
  split_ifs
  · exact .inr rfl
  · exact .inl (.respond nofun)

/-- The deferred answer comes before the next request. -/
theorem httpSession_responses_in_order_waited :
    ∃ state : HttpSession Text,
      (system deferring headParser).Reachable (AnswersInTurn deferring headParser) state ∧
      state.history.responses.map ResponseRecord.request = [0, 1] ∧
      (state.history.responses.map ResponseRecord.request).Pairwise (· < ·) := by
  refine TransitionSystem.exists_reachable (start_initial _ _)
    [.io (.callbackReturned {}), .recv {} (ascii "GET /slow HTTP/1.1\r\n\r\n") 3, .parse,
      .parse, .io (.callbackReturned {}), .answer 0 (some (ascii "slow")),
      .recv {} (ascii "GET / HTTP/1.1\r\n\r\n") 3, .parse] ⟨_, rfl, ?_⟩
  intro reachable
  exact ⟨rfl, httpSession_responses_in_order deferring_answers reachable⟩

/-- The second of two pipelined requests is answered before the first. -/
theorem httpSession_responses_swapped :
    ∃ state : HttpSession Text, (system deferring headParser).Reachable everyStep state ∧
      state.history.responses.map ResponseRecord.request = [1, 0] ∧
      ¬ (state.history.responses.map ResponseRecord.request).Pairwise (· < ·) := by
  obtain ⟨state, executed, responses⟩ : ∃ state : HttpSession Text,
      (system deferring headParser).execute everyStep (start headParser false false)
        [.io (.callbackReturned {}), .recv {} (ascii "GET /slow HTTP/1.1\r\n\r\n" ++
            ascii "GET / HTTP/1.1\r\n\r\n") 3, .parse, .parse, .parse,
          .answer 0 (some (ascii "slow"))] = some state ∧
      state.history.responses.map ResponseRecord.request = [1, 0] := ⟨_, rfl, rfl⟩
  have reachable := TransitionSystem.Reachable.execute (.initial (start_initial _ _)) executed
  refine ⟨state, reachable, responses, ?_⟩
  rw [responses]
  decide

end Runs

end HttpSession

end UringServer.Web
