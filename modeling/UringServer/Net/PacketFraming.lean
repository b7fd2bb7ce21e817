import UringServer.Semantics.Bytes

/-!
# The packet format of the game server

A packet is its own size and a message number, two bytes each and least
significant byte first, and a body. `frames` reads a byte stream as packets up to
a limit on their size. What it reads and the bytes left over are the stream
again, and it can be stopped and taken up again anywhere.
-/

namespace UringServer.Net

open UringServer.Semantics

/-- What `OnPacket` is called with. -/
structure Packet where
  msgId : UInt16
  body : List UInt8
deriving DecidableEq, Repr

/-- `kHeaderSize`. -/
def headerSize : Nat := 4

/-- `ReadLE16`. -/
def readLE16 (bytes : List UInt8) : UInt16 := UInt16.ofNat (readLittleEndian (bytes.take 2))

/-- The packet of the given size at the start of the bytes. -/
def packetAt (size : Nat) (bytes : List UInt8) : Packet :=
  ⟨readLE16 (bytes.drop 2), (bytes.drop headerSize).take (size - headerSize)⟩

/-- The size of a packet on the wire. -/
def Packet.size (packet : Packet) : Nat := headerSize + packet.body.length

/-- What `PacketBuilder::Build` and `EchoSession` write: the size is cut to 16 bits. -/
def Packet.build (packet : Packet) : List UInt8 :=
  littleEndian 2 (packet.size % 65536) ++ (littleEndian 2 packet.msgId.toNat ++ packet.body)

/-- What stands at the start of a stream. -/
inductive Front where
  | waiting
  | malformed
  | packet (size : Nat)
deriving DecidableEq

/-- The checks on the start of a stream. -/
def front (maxPacket : Nat) (stream : List UInt8) : Front :=
  if stream.length < headerSize then .waiting
  else if (readLE16 stream).toNat < headerSize ∨ maxPacket < (readLE16 stream).toNat then .malformed
  else if stream.length < (readLE16 stream).toNat then .waiting
  else .packet (readLE16 stream).toNat

variable {maxPacket size : Nat} {stream more : List UInt8} {packet : Packet}

/-- What it takes to be a packet. -/
theorem front_eq_packet (found : front maxPacket stream = .packet size) :
    size = (readLE16 stream).toNat ∧ headerSize ≤ size ∧ size ≤ maxPacket ∧
      size ≤ stream.length := by
  unfold front at found
  split at found
  case isTrue => cases found
  case isFalse long =>
    split at found
    case isTrue => cases found
    case isFalse valid =>
      split at found <;> cases found
      omega

/-- The packets at the start of a stream and the bytes that may still become one, if the stream is
not malformed. -/
def frames (maxPacket : Nat) (stream : List UInt8) : List Packet × Option (List UInt8) :=
  match _found : front maxPacket stream with
  | .waiting => ([], some stream)
  | .malformed => ([], none)
  | .packet size =>
    let later := frames maxPacket (stream.drop size)
    (packetAt size stream :: later.1, later.2)
termination_by stream.length
decreasing_by
  have inside := front_eq_packet _found
  rw [List.length_drop]
  unfold headerSize at inside
  omega

theorem frames_waiting (found : front maxPacket stream = .waiting) :
    frames maxPacket stream = ([], some stream) := by
  rw [frames]
  split <;> simp_all

theorem frames_malformed (found : front maxPacket stream = .malformed) :
    frames maxPacket stream = ([], none) := by
  rw [frames]
  split <;> simp_all

theorem frames_packet (found : front maxPacket stream = .packet size) :
    frames maxPacket stream = (packetAt size stream :: (frames maxPacket (stream.drop size)).1,
      (frames maxPacket (stream.drop size)).2) := by
  rw [frames]
  split <;> simp_all

/-- The first bytes decide. -/
theorem readLE16_append (long : 2 ≤ stream.length) :
    readLE16 (stream ++ more) = readLE16 stream := by
  rw [readLE16, List.take_append_of_le_length long, readLE16]

theorem front_append_malformed (found : front maxPacket stream = .malformed) :
    front maxPacket (stream ++ more) = .malformed := by
  unfold front headerSize at *
  split at found
  case isTrue => cases found
  case isFalse long =>
    have same : readLE16 (stream ++ more) = readLE16 stream := readLE16_append (by omega)
    split at found
    case isTrue invalid =>
      rw [if_neg (by rw [List.length_append]; omega), same, if_pos invalid]
    case isFalse => split at found <;> cases found

/-- A packet stays where it is when more comes. -/
theorem front_append_packet (found : front maxPacket stream = .packet size)
    (more : List UInt8) :
    front maxPacket (stream ++ more) = .packet size ∧
      packetAt size (stream ++ more) = packetAt size stream := by
  obtain ⟨isSize, least, most, inside⟩ := front_eq_packet found
  unfold headerSize at least
  have same : readLE16 (stream ++ more) = readLE16 stream := readLE16_append (by omega)
  constructor
  · unfold front headerSize
    rw [List.length_append, same, ← isSize, if_neg (by omega), if_neg (by omega), if_neg (by omega)]
  · have number : readLE16 ((stream ++ more).drop 2) = readLE16 (stream.drop 2) := by
      rw [List.drop_append_of_le_length (by omega)]
      exact readLE16_append (by rw [List.length_drop]; omega)
    have body : ((stream ++ more).drop 4).take (size - 4) = (stream.drop 4).take (size - 4) := by
      rw [List.drop_append_of_le_length (by omega), List.take_append_of_le_length]
      rw [List.length_drop]
      omega
    rw [packetAt, packetAt, number, headerSize, body]

/-- Malformed bytes stay malformed. -/
theorem frames_append_none (stream more : List UInt8)
    (malformed : (frames maxPacket stream).2 = none) :
    frames maxPacket (stream ++ more) = frames maxPacket stream := by
  induction stream using frames.induct maxPacket with
  | case1 stream found => simp [frames_waiting found] at malformed
  | case2 stream found =>
    rw [frames_malformed found, frames_malformed (front_append_malformed found)]
  | case3 stream size found ih =>
    obtain ⟨again, same⟩ := front_append_packet found more
    have inside := (front_eq_packet found).2.2.2
    rw [frames_packet found] at malformed
    rw [frames_packet found, frames_packet again, same, List.drop_append_of_le_length inside,
      ih malformed]

/-- Reading can be stopped anywhere and taken up again with the bytes left over. -/
theorem frames_append_some {rest : List UInt8} (stream more : List UInt8)
    (waiting : (frames maxPacket stream).2 = some rest) :
    frames maxPacket (stream ++ more) =
      ((frames maxPacket stream).1 ++ (frames maxPacket (rest ++ more)).1,
        (frames maxPacket (rest ++ more)).2) := by
  induction stream using frames.induct maxPacket with
  | case1 stream found =>
    rw [frames_waiting found] at waiting
    cases waiting
    rw [frames_waiting found, List.nil_append]
  | case2 stream found =>
    rw [frames_malformed found] at waiting
    cases waiting
  | case3 stream size found ih =>
    obtain ⟨again, same⟩ := front_append_packet found more
    have inside := (front_eq_packet found).2.2.2
    rw [frames_packet found] at waiting
    rw [frames_packet found, frames_packet again, same, List.drop_append_of_le_length inside,
      ih waiting, List.cons_append]

/-- Bytes that wait are fewer than a packet may have. -/
theorem length_lt_of_waiting {rest : List UInt8} (large : headerSize ≤ maxPacket)
    (stream : List UInt8) (waiting : (frames maxPacket stream).2 = some rest) :
    rest.length < maxPacket ∧ front maxPacket rest = .waiting := by
  induction stream using frames.induct maxPacket with
  | case1 stream found =>
    rw [frames_waiting found] at waiting
    cases waiting
    refine ⟨?_, found⟩
    unfold front headerSize at *
    split at found
    case isTrue => omega
    case isFalse =>
      split at found
      case isTrue => cases found
      case isFalse valid =>
        split at found
        case isTrue short => omega
        case isFalse => cases found
  | case2 stream found =>
    rw [frames_malformed found] at waiting
    cases waiting
  | case3 stream size found ih =>
    rw [frames_packet found] at waiting
    exact ih waiting

theorem readLE16_cons_cons (low high : UInt8) (rest : List UInt8) :
    (readLE16 (low :: high :: rest)).toNat = high.toNat * 256 + low.toNat := by
  have lowSmall := low.toNat_lt
  have highSmall := high.toNat_lt
  have number : readLittleEndian [low, high] = high.toNat * 256 + low.toNat := by
    change ((0 <<< 8 ||| high.toNat) <<< 8) ||| low.toNat = _
    rw [shift_or_byte, shift_or_byte, Nat.zero_mul, Nat.zero_add]
  rw [readLE16, List.take_succ_cons, List.take_succ_cons, List.take_zero, number]
  refine UInt16.toNat_ofNat_of_lt' (show _ < 65536 from ?_)
  omega

theorem littleEndian_two (value : Nat) :
    littleEndian 2 value = [UInt8.ofNat (value % 256), UInt8.ofNat (value / 256 % 256)] := by
  have low := toNat_ofNat_shift value 0
  have high := toNat_ofNat_shift value 8
  change [UInt8.ofNat ((value >>> 0) &&& 0xFF), UInt8.ofNat ((value >>> 8) &&& 0xFF)] = _
  congr 1
  · refine UInt8.toNat.inj (low.trans ?_)
    rw [UInt8.toNat_ofNat']
    omega
  · congr 1
    refine UInt8.toNat.inj (high.trans ?_)
    rw [UInt8.toNat_ofNat']
    omega

theorem readLE16_littleEndian {value : Nat} (small : value < 65536) (rest : List UInt8) :
    (readLE16 (littleEndian 2 value ++ rest)).toNat = value := by
  rw [littleEndian_two, List.cons_append, List.cons_append, readLE16_cons_cons,
    UInt8.toNat_ofNat', UInt8.toNat_ofNat']
  omega

theorem littleEndian_readLE16 (long : 2 ≤ stream.length) :
    littleEndian 2 (readLE16 stream).toNat = stream.take 2 := by
  match stream with
  | low :: high :: rest =>
    have lowSmall := low.toNat_lt
    have highSmall := high.toNat_lt
    have first : (high.toNat * 256 + low.toNat) % 256 = low.toNat := by omega
    have second : (high.toNat * 256 + low.toNat) / 256 % 256 = high.toNat := by omega
    rw [readLE16_cons_cons, littleEndian_two, first, second, UInt8.ofNat_toNat, UInt8.ofNat_toNat]
    rfl

/-- A packet that was read is built from the same bytes. -/
theorem build_packetAt (found : front maxPacket stream = .packet size) :
    (packetAt size stream).size = size ∧ (packetAt size stream).build = stream.take size := by
  obtain ⟨isSize, least, most, inside⟩ := front_eq_packet found
  unfold headerSize at least
  have small : size < 65536 := isSize ▸ (readLE16 stream).toNat_lt
  have length : (packetAt size stream).size = size := by
    rw [Packet.size, packetAt, headerSize, List.length_take, List.length_drop]
    omega
  refine ⟨length, ?_⟩
  have number : littleEndian 2 (readLE16 (stream.drop 2)).toNat = (stream.drop 2).take 2 :=
    littleEndian_readLE16 (by rw [List.length_drop]; omega)
  rw [Packet.build, length, Nat.mod_eq_of_lt small, isSize, littleEndian_readLE16 (by omega),
    ← isSize, packetAt, number, headerSize]
  have split : size = 2 + (2 + (size - 4)) := by omega
  conv_rhs => rw [split, List.take_add, List.take_add, List.drop_drop]

theorem length_build (packet : Packet) : packet.build.length = packet.size := by
  rw [Packet.build, Packet.size, headerSize, List.length_append, List.length_append,
    length_littleEndian, length_littleEndian]
  omega

/-- A packet that is not too large is read back. -/
theorem front_build (most : packet.size ≤ maxPacket) (small : packet.size < 65536)
    (rest : List UInt8) :
    front maxPacket (packet.build ++ rest) = .packet packet.size ∧
      packetAt packet.size (packet.build ++ rest) = packet ∧
      (packet.build ++ rest).drop packet.size = rest := by
  have least : 4 ≤ packet.size := Nat.le_add_right _ _
  have parts : packet.build ++ rest = littleEndian 2 packet.size ++
      (littleEndian 2 packet.msgId.toNat ++ (packet.body ++ rest)) := by
    rw [Packet.build, Nat.mod_eq_of_lt small, List.append_assoc, List.append_assoc]
  have number : (readLE16 (packet.build ++ rest)).toNat = packet.size := by
    rw [parts]
    exact readLE16_littleEndian small _
  have behind : (packet.build ++ rest).drop 2 =
      littleEndian 2 packet.msgId.toNat ++ (packet.body ++ rest) := by
    rw [parts, List.drop_left' (length_littleEndian 2 _)]
  refine ⟨?_, ?_, List.drop_left' (length_build packet)⟩
  · unfold front headerSize
    rw [List.length_append, length_build, number, if_neg (by omega), if_neg (by omega),
      if_neg (by omega)]
  · have msgId : readLE16 ((packet.build ++ rest).drop 2) = packet.msgId := by
      rw [behind]
      exact UInt16.toNat.inj (readLE16_littleEndian packet.msgId.toNat_lt _)
    have body : ((packet.build ++ rest).drop 4).take (packet.size - 4) = packet.body := by
      rw [show 4 = 2 + 2 from rfl, ← List.drop_drop, behind,
        List.drop_left' (length_littleEndian 2 _), Packet.size, headerSize]
      exact List.take_left' (by omega)
    rw [packetAt, msgId, headerSize, body]

/-- Packets that are not too large are read back, and then what follows them. -/
theorem frames_flatMap_build {packets : List Packet}
    (sizes : ∀ packet ∈ packets, packet.size ≤ maxPacket ∧ packet.size < 65536)
    (rest : List UInt8) :
    frames maxPacket (packets.flatMap Packet.build ++ rest) =
      (packets ++ (frames maxPacket rest).1, (frames maxPacket rest).2) := by
  induction packets with
  | nil => rfl
  | cons packet packets ih =>
    obtain ⟨⟨most, small⟩, others⟩ := List.forall_mem_cons.mp sizes
    obtain ⟨found, same, behind⟩ :=
      front_build most small (packets.flatMap Packet.build ++ rest)
    rw [List.flatMap_cons, List.append_assoc, frames_packet found, same, behind,
      ih others]
    rfl

/-- What was read and what is left over are the stream, and nothing too large was read. -/
theorem frames_bytes (maxPacket : Nat) (stream : List UInt8) :
    (∃ tail, (frames maxPacket stream).1.flatMap Packet.build ++ tail = stream ∧
      ∀ rest, (frames maxPacket stream).2 = some rest → tail = rest) ∧
    ∀ packet ∈ (frames maxPacket stream).1, packet.size ≤ maxPacket := by
  induction stream using frames.induct maxPacket with
  | case1 stream found =>
    rw [frames_waiting found]
    exact ⟨⟨stream, rfl, fun rest same => Option.some.inj same⟩, by simp⟩
  | case2 stream found =>
    rw [frames_malformed found]
    exact ⟨⟨stream, rfl, nofun⟩, by simp⟩
  | case3 stream size found ih =>
    obtain ⟨⟨tail, later, waits⟩, sizes⟩ := ih
    obtain ⟨length, bytes⟩ := build_packetAt found
    rw [frames_packet found]
    refine ⟨⟨tail, ?_, waits⟩, ?_⟩
    · rw [List.flatMap_cons, List.append_assoc, later, bytes, List.take_append_drop]
    · intro packet member
      rcases List.mem_cons.mp member with rfl | later
      · exact length.trans_le (front_eq_packet found).2.2.1
      · exact sizes packet later

end UringServer.Net
