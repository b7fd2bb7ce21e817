import UringServer.Ring.BufferTurns

/-!
# What a look at a provided buffer shows

The bytes of a completion stay in its buffer until the buffer is returned: the
kernel writes only into a buffer of the ring, and buffers do not meet in the
mapping.
-/

namespace UringServer.Ring

open UringServer.Semantics

variable {Thread : Type}

/-- The memory has the bytes in the buffer. -/
structure Stores (cfg : RingBufferConfig) (memory : List UInt8) (bufId : Nat)
    (data : List UInt8) : Prop where
  fits : data.length ≤ cfg.bufSize
  bytes : (memory.drop (cfg.bufAddr bufId)).take data.length = data

namespace BufferState

variable {state : BufferState Thread}

/-- What the buffers of completions and threads hold, and what looks at them have shown. -/
structure Keeping (state : BufferState Thread) : Prop where
  mapped : state.buffer.memory.length = state.buffer.cfg.total
  completed : ∀ {bufId data}, (bufId, data) ∈ state.completions →
    Stores state.buffer.cfg state.buffer.memory bufId data
  handled : ∀ {thread bufId data}, state.users thread = .handling bufId data →
    Stores state.buffer.cfg state.buffer.memory bufId data
  shown : ∀ look ∈ state.seen, look.2 = look.1

/-- The buffer at the kernel's head lies in the mapping. -/
theorem Turning.front_inside (turning : state.Turning) (some : state.head ≠ state.buffer.ring.tail)
    (small : state.front.bid < state.buffer.cfg.bufCount) :
    state.front.addr = state.buffer.cfg.bufAddr state.front.bid ∧
      state.front.len = state.buffer.cfg.bufSize ∧
      state.front.addr + state.front.len ≤ state.buffer.cfg.total := by
  have entry := turning.front_eq some
  have addr : state.front.addr = state.buffer.cfg.bufAddr state.front.bid :=
    congrArg BufEntry.addr entry
  have len : state.front.len = state.buffer.cfg.bufSize := congrArg BufEntry.len entry
  refine ⟨addr, len, ?_⟩
  rw [addr, len]
  exact (RingBufferConfig.bufAddr_inside turning.valid small).2

/-- The kernel's write shows in its buffer and does not reach another one. -/
theorem Turning.stores_received (turning : state.Turning)
    (some : state.head ≠ state.buffer.ring.tail)
    (mapped : state.buffer.memory.length = state.buffer.cfg.total)
    (small : state.front.bid < state.buffer.cfg.bufCount) {data : List UInt8}
    (fits : data.length ≤ state.front.len) :
    Stores state.buffer.cfg (state.received data).buffer.memory state.front.bid data ∧
      ∀ {bufId stored}, bufId ≠ state.front.bid →
        Stores state.buffer.cfg state.buffer.memory bufId stored →
        Stores state.buffer.cfg (state.received data).buffer.memory bufId stored := by
  obtain ⟨addr, len, inside⟩ := turning.front_inside some small
  have mappedData : state.front.addr + data.length ≤ state.buffer.memory.length := by omega
  refine ⟨⟨fits.trans_eq len, ?_⟩, fun {bufId stored} different stores => ⟨stores.fits, ?_⟩⟩
  · rw [← addr]
    exact region_of_overwrite mappedData
  · have apart := RingBufferConfig.bufAddr_apart turning.valid different
    have short := stores.fits
    exact (region_disjoint_overwrite mappedData (by omega)).trans stores.bytes

/-- The kernel's write does not reach the buffers of completions and threads. -/
theorem Keeping.received (keeping : state.Keeping) (turning : state.Turning)
    {place : Nat → BufPlace Thread} (placed : Placed state.holders place)
    (some : state.head ≠ state.buffer.ring.tail) {data : List UInt8}
    (fits : data.length ≤ state.front.len) : (state.received data).Keeping := by
  obtain ⟨mapped, completed, handled, shown⟩ := keeping
  obtain ⟨inside, same⟩ := turning.front some
  have here : place state.front.bid = .ring state.picked.length := by
    refine (placed.at_iff _ (.ring state.picked.length)).mp ⟨le_rfl, ?_⟩
    rw [holders, List.getElem?_map, List.getElem?_eq_getElem inside, same]
    rfl
  have small : state.front.bid < state.buffer.cfg.bufCount := placed.lt_count here (by simp)
  obtain ⟨own, others⟩ := turning.stores_received some mapped small fits
  refine ⟨?_, fun {bufId stored} member => ?_, fun {thread bufId stored} found => ?_, shown⟩
  · obtain ⟨addr, len, inside⟩ := turning.front_inside some small
    exact (length_overwrite (by omega)).trans mapped
  · rcases List.mem_append.mp member with before | last
    · refine others ?_ (completed before)
      rintro rfl
      exact placed.elsewhere here .completed (by simp) (List.mem_map_of_mem before)
    · cases List.mem_singleton.mp last
      exact own
  · refine others ?_ (handled found)
    rintro rfl
    exact placed.elsewhere here (.user thread) (by simp) (holds_of found)

variable [DecidableEq Thread] {next : BufferState Thread} {action : BufferAction Thread}

/-- A move of one thread that does not take a completion. -/
theorem Keeping.setUser (keeping : state.Keeping) {thread : Thread} {user : BufUser}
    (own : ∀ {bufId data}, user = .handling bufId data →
      Stores state.buffer.cfg state.buffer.memory bufId data) :
    (state.setUser thread user).Keeping := by
  obtain ⟨mapped, completed, handled, shown⟩ := keeping
  refine ⟨mapped, completed, fun {other bufId data} found => ?_, shown⟩
  by_cases same : other = thread
  · rw [same, setUser_users, Function.update_self] at found
    exact own found
  · rw [setUser_users, Function.update_of_ne same] at found
    exact handled found

/-- One step keeps the bytes. -/
theorem Keeping.step (keeping : state.Keeping) (turning : state.Turning)
    {place : Nat → BufPlace Thread} (placed : Placed state.holders place)
    (effect : BufferEffect state action next) : next.Keeping := by
  cases effect with
  | receive data some fits => exact keeping.received turning placed some fits
  | take thread bufId data rest found first =>
    obtain ⟨mapped, completed, handled, shown⟩ := keeping
    have own := completed (first ▸ List.mem_cons_self)
    refine Keeping.setUser ?_ ?_
    · exact ⟨mapped, fun member => completed (first ▸ List.mem_cons_of_mem _ member), handled,
        shown⟩
    · rintro _ _ ⟨⟩
      exact own
  | view thread bufId data found =>
    obtain ⟨mapped, completed, handled, shown⟩ := keeping
    refine ⟨mapped, completed, handled, fun look member => ?_⟩
    rcases List.mem_append.mp member with before | last
    · exact shown look before
    · rw [List.mem_singleton.mp last]
      have stores := handled found
      have here := (placed.at_iff bufId (.user thread)).mp (holds_of found)
      have small : bufId < state.buffer.cfg.bufCount := placed.lt_count here (by simp)
      change state.buffer.view bufId data.length = data
      rw [RingBuffer.view, if_neg (Nat.not_le.mpr small), Nat.min_eq_left stores.fits]
      exact stores.bytes
  | refused thread bufId data found large => exact keeping.setUser fun same => by cases same
  | add thread bufId data found free small | advance thread bufId found | count thread found =>
    obtain ⟨mapped, completed, handled, shown⟩ := keeping
    refine Keeping.setUser ?_ fun same => by cases same
    exact ⟨mapped, completed, handled, shown⟩

end BufferState

/-- The three invariants. -/
structure BufferState.Sound (state : BufferState Thread) : Prop where
  turning : state.Turning
  placed : ∃ place, Placed state.holders place
  keeping : state.Keeping

/-- The invariants hold after `Create`. -/
theorem sound_initial {cfg : RingBufferConfig} {buffer : RingBuffer}
    (created : RingBuffer.create cfg = some buffer) :
    (BufferState.initial buffer : BufferState Thread).Sound := by
  rw [RingBuffer.create] at created
  split at created
  case isFalse => cases created
  case isTrue valid =>
    cases created
    have length : ((List.range cfg.bufCount).map cfg.entry).length = cfg.bufCount := by
      rw [List.length_map, List.length_range]
    refine ⟨⟨valid, RingBufferConfig.circular_fill valid, ?_, rfl, ?_, rfl,
      fun same => by cases same⟩, ?_, ?_⟩
    · intro entry member
      obtain ⟨bufId, -, rfl⟩ := List.mem_map.mp member
      rfl
    · change (cfg.fill.tail + cfg.bufCount) % 65536 = _
      rw [RingBufferConfig.tail_fill valid, Nat.zero_add]
      exact congrArg (· % 65536) length.symm
    · refine ⟨fun bufId => if bufId < cfg.bufCount then .ring bufId else .nowhere, ?_⟩
      have line : ((List.range cfg.bufCount).map cfg.entry).map BufEntry.bid =
          List.range cfg.bufCount := by
        rw [List.map_map]
        exact List.map_id _
      rw [BufferState.holders, BufferState.initial, line]
      exact Placed.initial cfg.bufCount
    · refine ⟨List.length_replicate, fun member => ?_, fun same => ?_, fun look member => ?_⟩
      · cases member
      · cases same
      · cases member

variable [DecidableEq Thread] {state : BufferState Thread}

theorem sound_of_reachable (reachable : (bufferSystem Thread).Reachable everyStep state) :
    state.Sound := by
  refine reachable.invariant BufferState.Sound ?_ ?_
  · rintro _ ⟨cfg, buffer, created, rfl⟩
    exact sound_initial created
  · rintro state action next ⟨turning, ⟨place, placed⟩, keeping⟩ _ transition
    have effect := bufferStep_effect transition
    exact ⟨turning.step placed effect, BufferState.placed_step turning placed effect,
      keeping.step turning placed effect⟩

/-- Whatever the kernel and other threads do meanwhile, `View` shows the bytes that were received
with the completion, until the buffer is returned. -/
theorem view_shows_received (reachable : (bufferSystem Thread).Reachable everyStep state) :
    ∀ look ∈ state.seen, look.2 = look.1 :=
  (sound_of_reachable reachable).keeping.shown

/-- Two buffers of four bytes. One is filled again while the other is looked at. -/
def smallRing : RingBufferConfig where
  bufCount := 2
  bufSize := 4

theorem view_shows_received_small : ∃ state : BufferState Nat,
    (bufferSystem Nat).Reachable everyStep state ∧ state.seen.length = 3 ∧
    ∀ look ∈ state.seen, look.2 = look.1 := by
  obtain ⟨buffer, created, state, executed, looks⟩ : ∃ buffer,
      RingBuffer.create smallRing = some buffer ∧ ∃ state : BufferState Nat,
      (bufferSystem Nat).execute everyStep (.initial buffer)
        [.receive [1, 2], .receive [3], .take 0, .view 0, .take 1, .add 0, .advance 0,
          .receive [7, 8, 9], .view 1, .count 0, .take 0, .view 0, .add 1] = some state ∧
      state.seen.length = 3 := ⟨_, rfl, _, rfl, rfl⟩
  have started : (bufferSystem Nat).Initial (.initial buffer) := bufferSystem_initial created
  have reachable := TransitionSystem.Reachable.execute (.initial started) executed
  exact ⟨state, reachable, looks, view_shows_received reachable⟩

/-- Every buffer is at one place: in the ring, in a completion or with a thread. The kernel picks
buffers in the order in which they were put into the ring, and finds none just when all are in
completions or with threads. -/
theorem buffers_go_round (reachable : (bufferSystem Thread).Reachable everyStep state) :
    (∃ place : Nat → BufPlace Thread,
      ∀ bufId there, state.holders.At bufId there ↔ place bufId = there) ∧
      state.picked = (state.published.map BufEntry.bid).take state.picked.length ∧
      (state.head = state.buffer.ring.tail ↔ ∀ bufId < state.buffer.cfg.bufCount,
        bufId ∈ state.completions.map Prod.fst ∨
          ∃ thread, (state.users thread).bufId? = some bufId) := by
  obtain ⟨turning, ⟨place, placed⟩, -⟩ := sound_of_reachable reachable
  refine ⟨⟨place, placed.at_iff⟩, ?_, ?_⟩
  · rw [← List.map_take]
    exact turning.order
  · have order := turning.circular.order
    rw [turning.head, turning.tail, turning.circular.wrapped_eq_iff turning.valid.registered]
    refine ⟨fun empty bufId small => ?_, fun out => ?_⟩
    · refine placed.exhausted ?_ small
      rw [BufferState.holders, List.length_map, empty]
    · by_contra notEmpty
      have inside := Nat.lt_of_le_of_ne order notEmpty
      have front : state.holders.line[state.picked.length]? =
          some state.published[state.picked.length].bid := by
        rw [BufferState.holders, List.getElem?_map, List.getElem?_eq_getElem inside]
        rfl
      have here := (placed.at_iff _ (.ring state.picked.length)).mp ⟨le_rfl, front⟩
      rcases out _ (placed.lt_count here (by simp)) with completed | ⟨thread, held⟩
      · exact placed.elsewhere here .completed (by simp) completed
      · exact placed.elsewhere here (.user thread) (by simp) held

theorem buffers_go_round_small : ∃ state : BufferState Nat,
    (bufferSystem Nat).Reachable everyStep state ∧ state.head = state.buffer.ring.tail ∧
    state.picked = (state.published.map BufEntry.bid).take state.picked.length := by
  obtain ⟨buffer, created, state, executed, empty⟩ : ∃ buffer,
      RingBuffer.create smallRing = some buffer ∧ ∃ state : BufferState Nat,
      (bufferSystem Nat).execute everyStep (.initial buffer)
        [.receive [1, 2], .receive [3], .take 0, .take 1, .add 1, .advance 1, .receive [7]] =
        some state ∧ state.head = state.buffer.ring.tail := ⟨_, rfl, _, rfl, rfl⟩
  have started : (bufferSystem Nat).Initial (.initial buffer) := bufferSystem_initial created
  have reachable := TransitionSystem.Reachable.execute (.initial started) executed
  exact ⟨state, reachable, empty, (buffers_go_round reachable).2.1⟩

end UringServer.Ring
