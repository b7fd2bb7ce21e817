import UringServer.Game.Matchmaker

/-!
# `MatchmakerQueue::NotifyMatchFound`

The packet that tells a player of a match: a header of two 16-bit numbers, the
match, the number of players in 8 bits, and the players. The sizes are computed from
the 8-bit number, the players are written for the whole group. Numbers lie in memory
the lowest byte first.
-/

namespace UringServer.Game

open UringServer.Semantics UringServer.Web MatchmakerTicket

variable {Double : Type}

/-- `player_count`. -/
def playerCount (group : List (MatchmakerTicket Double)) : UInt8 := UInt8.ofNat group.length

/-- `body_size`. -/
def bodySize (group : List (MatchmakerTicket Double)) : UInt16 :=
  8 + 1 + (playerCount group).toUInt16 * 8

/-- `total_size`. -/
def totalSize (group : List (MatchmakerTicket Double)) : UInt16 := 4 + bodySize group

/-- `kMatchFound`. -/
def matchFoundId : UInt16 := 0x3001

/-- What is written into the buffer, one `memcpy` behind the other. -/
def matchFoundBytes (group : List (MatchmakerTicket Double)) (matchId : UInt64) : List UInt8 :=
  littleEndian 2 (totalSize group).toNat ++ (littleEndian 2 matchFoundId.toNat ++
    (littleEndian 8 matchId.toNat ++ (littleEndian 1 (playerCount group).toNat ++
      (group.map (·.playerId.toNat)).flatMap (littleEndian 8))))

/-- A buffer that `Allocate(size)` gave: `size` bytes of a chunk. -/
structure PacketBuffer (size : Nat) where
  chunk : List UInt8
  start : Nat
  inside : start + size ≤ chunk.length

/-- A packet that goes to a player. -/
structure Notification where
  contextId : ContextId
  playerId : PlayerId
  /-- The size that was allocated. -/
  allocated : Nat
  /-- How many bytes were written from the start of the buffer on. -/
  written : Nat
  /-- `Data()`, the bytes that are sent. -/
  data : List UInt8

/-- `Data()` of a buffer behind `Commit(size)`, with `bytes` written from its start on. -/
def PacketBuffer.sent {size : Nat} (buffer : PacketBuffer size) (bytes : List UInt8) :
    List UInt8 :=
  ((overwrite buffer.chunk buffer.start bytes).drop buffer.start).take size

/-- `MatchmakerQueue::NotifyMatchFound`. `find` and `allocate` are the outcomes of `Find` and
`Allocate` in each pass of the loop. -/
def notifyMatchFound (find : Nat → PlayerId → Option ContextId)
    (allocate : Nat → (size : Nat) → Option (PacketBuffer size))
    (group : List (MatchmakerTicket Double)) (matchId : UInt64) : List Notification :=
  group.zipIdx.filterMap fun (ticket, index) =>
    (find index ticket.playerId).bind fun contextId =>
      (allocate index (totalSize group).toNat).map fun buffer =>
        { contextId, playerId := ticket.playerId
          allocated := (totalSize group).toNat
          written := (matchFoundBytes group matchId).length
          data := buffer.sent (matchFoundBytes group matchId) }

/-- A packet as its reader takes it apart. -/
structure MatchFound where
  size : Nat
  id : Nat
  matchId : Nat
  players : List Nat

/-- Read a packet: the size, the id, the match, the number of players, the players. -/
def MatchFound.read (data : List UInt8) : Option MatchFound :=
  (splitLittleEndian 2 data).bind fun (size, rest) =>
  (splitLittleEndian 2 rest).bind fun (id, rest) =>
  (splitLittleEndian 8 rest).bind fun (matchId, rest) =>
  (splitLittleEndian 1 rest).bind fun (count, rest) =>
  (splitLittleEndians 8 count rest).bind fun (players, rest) =>
    if rest = [] then some { size, id, matchId, players } else none

/-- The packet stays within its buffer, and its reader finds its size, the match and the
players of the group in their order. -/
def Notification.WellFormed (notification : Notification)
    (group : List (MatchmakerTicket Double)) (matchId : UInt64) : Prop :=
  notification.written ≤ notification.allocated ∧
    MatchFound.read notification.data = some
      { size := notification.data.length, id := matchFoundId.toNat, matchId := matchId.toNat
        players := group.map (·.playerId.toNat) }

variable (group : List (MatchmakerTicket Double)) (matchId : UInt64)

theorem toNat_totalSize : (totalSize group).toNat = 13 + 8 * (group.length % 256) := by
  have count : (playerCount group).toNat = group.length % 256 := UInt8.toNat_ofNat'
  simp only [totalSize, bodySize, UInt16.toNat_add, UInt16.toNat_mul, UInt8.toNat_toUInt16, count,
    UInt16.reduceToNat]
  omega

theorem length_matchFoundBytes :
    (matchFoundBytes group matchId).length = 13 + 8 * group.length := by
  simp only [matchFoundBytes, List.length_append, length_littleEndian, List.length_map,
    length_flatMap_littleEndian]
  omega

/-- What is sent is the start of what was written. -/
theorem PacketBuffer.sent_eq_take {size : Nat} (buffer : PacketBuffer size) {bytes : List UInt8}
    (enough : size ≤ bytes.length) : buffer.sent bytes = bytes.take size := by
  have before : (buffer.chunk.take buffer.start).length = buffer.start :=
    List.length_take_of_le ((Nat.le_add_right _ _).trans buffer.inside)
  rw [sent, overwrite, List.append_assoc, List.drop_left' before,
    List.take_append_of_le_length enough]

/-- The reader undoes the writing for a group that 8 bits can count. -/
theorem read_matchFoundBytes (few : group.length ≤ 255) :
    MatchFound.read (matchFoundBytes group matchId) = some
      { size := (totalSize group).toNat, id := matchFoundId.toNat, matchId := matchId.toNat
        players := group.map (·.playerId.toNat) } := by
  have count : (playerCount group).toNat = (group.map (·.playerId.toNat)).length := by
    rw [playerCount, UInt8.toNat_ofNat', List.length_map]
    omega
  have players : ∀ player ∈ group.map (·.playerId.toNat), player < 256 ^ 8 := by
    intro player member
    obtain ⟨ticket, -, rfl⟩ := List.mem_map.mp member
    exact ticket.playerId.toNat_lt
  have read := splitLittleEndians_flatMap players []
  rw [List.append_nil] at read
  have sizeFits : (totalSize group).toNat < 256 ^ 2 := (totalSize group).toNat_lt
  have idFits : matchFoundId.toNat < 256 ^ 2 := matchFoundId.toNat_lt
  have matchFits : matchId.toNat < 256 ^ 8 := matchId.toNat_lt
  have countFits : (playerCount group).toNat < 256 ^ 1 := (playerCount group).toNat_lt
  simp only [MatchFound.read, matchFoundBytes, Option.bind_some, splitLittleEndian_append sizeFits,
    splitLittleEndian_append idFits, splitLittleEndian_append matchFits,
    splitLittleEndian_append countFits]
  rw [count, read]
  rfl

/-- What `NotifyMatchFound` sends is the same for every player but for the receiver. -/
theorem mem_notifyMatchFound {find : Nat → PlayerId → Option ContextId}
    {allocate : Nat → (size : Nat) → Option (PacketBuffer size)} {notification : Notification}
    (sent : notification ∈ notifyMatchFound find allocate group matchId) :
    notification.allocated = (totalSize group).toNat ∧
      notification.written = (matchFoundBytes group matchId).length ∧
      notification.data = (matchFoundBytes group matchId).take (totalSize group).toNat := by
  obtain ⟨slot, -, made⟩ := List.mem_filterMap.mp sent
  obtain ⟨contextId, -, built⟩ := Option.bind_eq_some_iff.mp made
  obtain ⟨buffer, -, rfl⟩ := Option.map_eq_some_iff.mp built
  refine ⟨rfl, rfl, buffer.sent_eq_take ?_⟩
  rw [toNat_totalSize, length_matchFoundBytes]
  omega

/-- Nobody is told if for each player `Find` or `Allocate` gives nothing. -/
theorem notifyMatchFound_eq_nil_iff (find : Nat → PlayerId → Option ContextId)
    (allocate : Nat → (size : Nat) → Option (PacketBuffer size)) :
    notifyMatchFound find allocate group matchId = [] ↔
      ∀ index, ∀ ticket ∈ group[index]?,
        find index ticket.playerId = none ∨ allocate index (totalSize group).toNat = none := by
  rw [notifyMatchFound, List.filterMap_eq_nil_iff]
  have told (ticket : MatchmakerTicket Double) (index : Nat) :
      (ticket, index) ∈ group.zipIdx ↔ ticket ∈ group[index]? := List.mk_mem_zipIdx_iff_getElem?
  constructor
  · intro nobody index ticket member
    have quiet := nobody (ticket, index) ((told ticket index).mpr member)
    cases missing : find index ticket.playerId with
    | none => exact .inl rfl
    | some contextId =>
      simp only [missing, Option.bind_some, Option.map_eq_none_iff] at quiet
      exact .inr quiet
  · rintro nobody ⟨ticket, index⟩ member
    rcases nobody index ticket ((told ticket index).mp member) with missing | full
    · simp [missing]
    · simp [full]

/-- The packets are well formed exactly if 8 bits can count the group or there is none, because for
each player `Find` or `Allocate` gives nothing. -/
theorem notifications_wellFormed_iff (find : Nat → PlayerId → Option ContextId)
    (allocate : Nat → (size : Nat) → Option (PacketBuffer size)) :
    (∀ notification ∈ notifyMatchFound find allocate group matchId,
        notification.WellFormed group matchId) ↔
      group.length ≤ 255 ∨ ∀ index, ∀ ticket ∈ group[index]?,
        find index ticket.playerId = none ∨ allocate index (totalSize group).toNat = none := by
  rw [← notifyMatchFound_eq_nil_iff group matchId]
  have size := toNat_totalSize group
  have length := length_matchFoundBytes group matchId
  constructor
  · intro wellFormed
    cases some : notifyMatchFound find allocate group matchId with
    | nil => exact .inr rfl
    | cons notification others =>
      have sent : notification ∈ notifyMatchFound find allocate group matchId :=
        some ▸ List.mem_cons_self
      obtain ⟨allocated, written, -⟩ := mem_notifyMatchFound group matchId sent
      have within := (wellFormed notification sent).1
      rw [allocated, written, size, length] at within
      exact .inl (by omega)
  · rintro (few | none) notification sent
    · obtain ⟨allocated, written, data⟩ := mem_notifyMatchFound group matchId sent
      have whole : (totalSize group).toNat = (matchFoundBytes group matchId).length := by omega
      rw [whole, List.take_length] at data
      refine ⟨by rw [written, allocated, whole], ?_⟩
      rw [data, read_matchFoundBytes group matchId few, whole]
    · rw [none] at sent
      cases sent

/-- A match of 256 players: each packet is allocated for no player and written for all. -/
theorem match_of_256_overruns :
    ∃ (group : List (MatchmakerTicket Unit)) (find : Nat → PlayerId → Option ContextId)
      (allocate : Nat → (size : Nat) → Option (PacketBuffer size)), group.length = 256 ∧
      ∃ notification ∈ notifyMatchFound find allocate group 1,
        notification.allocated = 13 ∧ notification.written = 2061 := by
  obtain ⟨others, count⟩ : ∃ others : List (MatchmakerTicket Unit), others.length = 255 :=
    ⟨List.replicate 255 {}, List.length_replicate⟩
  let group : List (MatchmakerTicket Unit) := { playerId := 7 } :: others
  let find (_ : Nat) (_ : PlayerId) : Option ContextId := some 0
  let allocate (_ size : Nat) : Option (PacketBuffer size) :=
    some ⟨List.replicate size 0, 0, by simp⟩
  have length : group.length = 256 := congrArg (· + 1) count
  obtain ⟨notification, sent⟩ : ∃ notification, notification ∈
      notifyMatchFound find allocate group 1 := ⟨_, List.mem_cons_self⟩
  obtain ⟨allocated, written, -⟩ := mem_notifyMatchFound group 1 sent
  rw [toNat_totalSize, length] at allocated
  rw [length_matchFoundBytes, length] at written
  exact ⟨group, find, allocate, length, notification, sent, allocated, written⟩

end UringServer.Game
