import UringServer.Ring.BufferPlaces

/-!
# Buffers that go round

Two invariants of a `RingBuffer` with its users: the ring holds what was
published and not yet picked, in spite of its 16-bit counters, and every buffer
has one place.
-/

namespace UringServer.Ring

open UringServer.Semantics

variable {Thread : Type}

/-- The buffer that the thread has. -/
def BufUser.bufId? : BufUser → Option Nat
  | .handling bufId _ => some bufId
  | .adding bufId => some bufId
  | _ => none

namespace BufferState

variable {state : BufferState Thread}

/-- Who has which buffer. -/
def holders (state : BufferState Thread) : Holders Thread where
  count := state.buffer.cfg.bufCount
  line := state.published.map BufEntry.bid
  picked := state.picked.length
  done := state.completions.map Prod.fst
  holds := fun thread => (state.users thread).bufId?

/-- The ring and its counters. -/
structure Turning (state : BufferState Thread) : Prop where
  valid : state.buffer.cfg.Valid
  circular : Circular state.buffer.ring.bufs state.buffer.cfg.bufCount state.published
    state.picked.length
  entries : ∀ entry ∈ state.published, entry = state.buffer.cfg.entry entry.bid
  head : state.head = state.picked.length % 65536
  tail : state.buffer.ring.tail = state.published.length % 65536
  order : state.picked = (state.published.take state.picked.length).map BufEntry.bid
  adding : ∀ {thread bufId}, state.users thread = .adding bufId →
    state.mutex = some thread ∧
      state.buffer.ring.bufs (state.published.length % state.buffer.cfg.bufCount) =
        state.buffer.cfg.entry bufId

/-- The kernel finds the next entry in line at its head. -/
theorem Turning.front (turning : state.Turning) (some : state.head ≠ state.buffer.ring.tail) :
    ∃ inside : state.picked.length < state.published.length,
      state.front = state.published[state.picked.length] := by
  obtain ⟨valid, circular, -, head, tail, -, -⟩ := turning
  rw [head, tail, Ne, circular.wrapped_eq_iff valid.registered] at some
  have inside := Nat.lt_of_le_of_ne circular.order some
  refine ⟨inside, ?_⟩
  rw [BufferState.front, head, and_bufRingMask valid.count,
    Nat.mod_mod_of_dvd _ (dvd_of_isPowerOfTwo valid.count valid.registered)]
  exact circular.held _ inside le_rfl

/-- The buffer at the kernel's head. -/
theorem Turning.front_eq (turning : state.Turning) (some : state.head ≠ state.buffer.ring.tail) :
    state.front = state.buffer.cfg.entry state.front.bid := by
  obtain ⟨inside, same⟩ := turning.front some
  rw [same]
  exact turning.entries _ (List.getElem_mem inside)

/-- The slot behind the tail. -/
theorem Turning.tail_and_mask (turning : state.Turning) :
    (state.buffer.ring.tail + 0) &&& bufRingMask state.buffer.cfg.bufCount =
      state.published.length % state.buffer.cfg.bufCount := by
  rw [Nat.add_zero, turning.tail, and_bufRingMask turning.valid.count,
    Nat.mod_mod_of_dvd _ (dvd_of_isPowerOfTwo turning.valid.count turning.valid.registered)]

/-- The kernel picks the front of the line. -/
theorem Turning.received (turning : state.Turning) (some : state.head ≠ state.buffer.ring.tail)
    (data : List UInt8) : (state.received data).Turning := by
  obtain ⟨inside, same⟩ := turning.front some
  obtain ⟨valid, circular, entries, head, tail, order, adding⟩ := turning
  have longer : (state.picked ++ [state.front.bid]).length = state.picked.length + 1 :=
    List.length_append
  refine ⟨valid, ?_, entries, ?_, tail, ?_, adding⟩
  · rw [BufferState.received, longer]
    exact circular.pop inside
  · rw [BufferState.received, longer, head, Nat.mod_add_mod]
  · rw [BufferState.received, longer, List.take_succ_eq_append_getElem inside, List.map_append,
      ← order, same, List.map_singleton]

variable {thread : Thread}

theorem holds_of {user : BufUser} (found : state.users thread = user) :
    state.holders.holds thread = user.bufId? := congrArg BufUser.bufId? found

variable [DecidableEq Thread] {next : BufferState Thread} {action : BufferAction Thread}

theorem holders_setUser (state : BufferState Thread) (thread : Thread) (user : BufUser) :
    (state.setUser thread user).holders =
      { state.holders with
        holds := Function.update state.holders.holds thread user.bufId? } := by
  have holds : (fun other => (Function.update state.users thread user other).bufId?) =
      Function.update (fun other => (state.users other).bufId?) thread user.bufId? := by
    funext other
    by_cases same : other = thread
    · rw [same, Function.update_self, Function.update_self]
    · rw [Function.update_of_ne same, Function.update_of_ne same]
  rw [holders, setUser_users, holds]
  rfl

/-- A thread that keeps the buffer it has. -/
theorem holders_setUser_same {user : BufUser} (same : user.bufId? = (state.users thread).bufId?) :
    (state.setUser thread user).holders = state.holders := by
  have unchanged := Function.update_eq_self thread state.holders.holds
  rw [holders_setUser, same]
  exact congrArg (fun holds => { state.holders with holds }) unchanged

/-- A move of one thread that is not into the middle of `Return`. -/
theorem Turning.setUser (turning : state.Turning) {user : BufUser}
    (outside : ∀ bufId, user ≠ .adding bufId) : (state.setUser thread user).Turning := by
  obtain ⟨valid, circular, entries, head, tail, order, adding⟩ := turning
  refine ⟨valid, circular, entries, head, tail, order, fun {other bufId} found => ?_⟩
  by_cases same : other = thread
  · rw [same, setUser_users, Function.update_self] at found
    exact absurd found (outside bufId)
  · rw [setUser_users, Function.update_of_ne same] at found
    exact adding found

/-- `io_uring_buf_ring_add` fills the slot behind the tail. -/
theorem Turning.added (turning : state.Turning) {bufId : Nat}
    (room : state.published.length < state.picked.length + state.buffer.cfg.bufCount)
    (free : state.mutex = none) :
    ({ state.added bufId with mutex := some thread }.setUser thread (.adding bufId)).Turning := by
  have slot := turning.tail_and_mask
  obtain ⟨valid, circular, entries, head, tail, order, adding⟩ := turning
  have filled : (state.added bufId).buffer.ring.bufs = Function.update state.buffer.ring.bufs
      (state.published.length % state.buffer.cfg.bufCount) (state.buffer.cfg.entry bufId) := by
    rw [BufferState.added, BufRing.add, slot]
  refine ⟨valid, ?_, entries, head, tail, order, fun {other otherId} adds => ?_⟩
  · rw [setUser_buffer, filled]
    exact circular.write room _
  · by_cases same : other = thread
    · rw [same, setUser_users, Function.update_self] at adds
      cases adds
      refine ⟨congrArg some same.symm, ?_⟩
      rw [setUser_buffer, filled]
      exact Function.update_self ..
    · rw [setUser_users, Function.update_of_ne same] at adds
      cases free.symm.trans (adding adds).1

/-- `io_uring_buf_ring_advance` lets the kernel have the entry. -/
theorem Turning.advanced (turning : state.Turning) {bufId : Nat}
    (room : state.published.length < state.picked.length + state.buffer.cfg.bufCount)
    (found : state.users thread = .adding bufId) :
    ({ state.advanced bufId with mutex := none }.setUser thread .counting).Turning := by
  obtain ⟨valid, circular, entries, head, tail, order, adding⟩ := turning
  obtain ⟨locked, written⟩ := adding found
  refine ⟨valid, circular.push room written, ?_, head, ?_, ?_, fun {other otherId} adds => ?_⟩
  · intro entry member
    rcases List.mem_append.mp member with before | last
    · exact entries entry before
    · rw [List.mem_singleton.mp last]
      rfl
  · change (state.buffer.ring.tail + 1) % 65536 =
      (state.published ++ [state.buffer.cfg.entry bufId]).length % 65536
    rw [tail, Nat.mod_add_mod, List.length_append, List.length_singleton]
  · change state.picked = ((state.published ++ [state.buffer.cfg.entry bufId]).take
      state.picked.length).map BufEntry.bid
    rw [List.take_append_of_le_length circular.order]
    exact order
  · by_cases same : other = thread
    · rw [same, setUser_users, Function.update_self] at adds
      cases adds
    · rw [setUser_users, Function.update_of_ne same] at adds
      exact absurd (Option.some.inj ((adding adds).1.symm.trans locked)) same

/-- One step keeps the ring. -/
theorem Turning.step (turning : state.Turning) {place : Nat → BufPlace Thread}
    (placed : Placed state.holders place) (effect : BufferEffect state action next) :
    next.Turning := by
  have room : ∀ {thread bufId}, (state.users thread).bufId? = some bufId →
      state.published.length < state.picked.length + state.buffer.cfg.bufCount := by
    intro thread bufId held
    have room := placed.room (show state.holders.holds thread = some bufId from held)
    rwa [holders, List.length_map] at room
  cases effect with
  | receive data some fits => exact turning.received some data
  | take thread bufId data rest found first | count thread found =>
    obtain ⟨valid, circular, entries, head, tail, order, adding⟩ := turning
    refine Turning.setUser ?_ nofun
    exact ⟨valid, circular, entries, head, tail, order, adding⟩
  | view thread bufId data found =>
    obtain ⟨valid, circular, entries, head, tail, order, adding⟩ := turning
    exact ⟨valid, circular, entries, head, tail, order, adding⟩
  | refused thread bufId data found large => exact turning.setUser nofun
  | add thread bufId data found free small => exact turning.added (room (by rw [found]; rfl)) free
  | advance thread bufId found => exact turning.advanced (room (by rw [found]; rfl)) found

/-- One step moves at most one buffer. -/
theorem placed_step (turning : state.Turning) {place : Nat → BufPlace Thread}
    (placed : Placed state.holders place) (effect : BufferEffect state action next) :
    ∃ place, Placed next.holders place := by
  cases effect with
  | receive data some fits =>
    obtain ⟨inside, same⟩ := turning.front some
    have front : state.holders.line[state.holders.picked]? = .some state.front.bid := by
      rw [holders, List.getElem?_map, List.getElem?_eq_getElem inside, same]
      rfl
    refine ⟨Function.update place state.front.bid .completed, ?_⟩
    rw [holders, received, List.length_append, List.map_append]
    exact placed.pick front
  | take thread bufId data rest found first =>
    have front : state.holders.done = bufId :: rest.map Prod.fst := by
      rw [holders, first]
      rfl
    refine ⟨Function.update place bufId (.user thread), ?_⟩
    rw [holders_setUser]
    exact placed.take front (holds_of found)
  | view thread bufId data found => exact ⟨place, placed⟩
  | refused thread bufId data found large =>
    have here := (placed.at_iff bufId (.user thread)).mp (holds_of found)
    exact absurd (placed.lt_count here nofun) (Nat.not_lt.mpr large)
  | add thread bufId data found free small | count thread found =>
    refine ⟨place, ?_⟩
    rw [holders_setUser_same]
    · exact placed
    · exact (congrArg BufUser.bufId? found).symm
  | advance thread bufId found =>
    have order : state.holders.picked ≤ state.holders.line.length := by
      rw [holders, List.length_map]
      exact turning.circular.order
    refine ⟨Function.update place bufId (.ring state.holders.line.length), ?_⟩
    rw [holders_setUser, holders, advanced, List.map_append]
    exact placed.put (holds_of found) order

end BufferState

end UringServer.Ring
