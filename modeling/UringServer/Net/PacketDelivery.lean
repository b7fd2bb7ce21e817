import Mathlib.Data.List.Infix
import UringServer.Net.PacketSession

/-!
# Packets through any cut

A session is fed with a stream in pieces. What it has passed on, and what waits
in its buffer, are given by the stream alone, unless a piece does not fit into
the buffer; for `PacketSession` every piece of up to 57345 bytes fits, and the
provided buffers have 8192.
-/

namespace UringServer.Net

open UringServer.Semantics UringServer.Buffer.Machine

/-- What a session has done with the stream so far. -/
structure Fed (maxPacket : UInt32) (session : PacketSession) (stream : List UInt8) : Prop where
  sound : session.recvBuf.Sound
  capacity : session.recvBuf.capacity = 65536
  waiting : session.disconnecting = false →
    frames maxPacket.toNat stream = (session.packets, some session.recvBuf.readRegion)
  ended : session.disconnecting = true → session.packets <+: (frames maxPacket.toNat stream).1

/-- The session has only ended where the stream is malformed. -/
def Exact (maxPacket : UInt32) (session : PacketSession) (stream : List UInt8) : Prop :=
  session.disconnecting = true → frames maxPacket.toNat stream = (session.packets, none)

variable {maxPacket : UInt32} {session : PacketSession} {stream data : List UInt8}

/-- More bytes do not take packets back. -/
theorem frames_prefix (maxPacket : Nat) (stream more : List UInt8) :
    (frames maxPacket stream).1 <+: (frames maxPacket (stream ++ more)).1 := by
  cases waiting : (frames maxPacket stream).2 with
  | none =>
    rw [frames_append_none stream more waiting]
  | some rest =>
    rw [frames_append_some stream more waiting]
    exact List.prefix_append _ _

/-- What `OnRecv` does, by how it goes. -/
inductive Received (maxPacket : UInt32) (session : PacketSession) (data : List UInt8) :
    PacketSession → Prop where
  | ignored (ended : session.disconnecting = true) : Received maxPacket session data session
  | overflow (goesOn : session.disconnecting = false)
      (full : session.recvBuf.capacity.toNat < session.recvBuf.readRegion.length + data.length)
      (sound : (session.recvBuf.append data).1.Sound) :
      Received maxPacket session data
        { session with recvBuf := (session.recvBuf.append data).1, disconnecting := true }
  | drained (goesOn : session.disconnecting = false) (final : Draining)
      (sound : final.buffer.Sound) (capacity : final.buffer.capacity = session.recvBuf.capacity)
      (packets : final.packets = session.packets ++
        (frames maxPacket.toNat (session.recvBuf.readRegion ++ data)).1)
      (refused : final.refused =
        (frames maxPacket.toNat (session.recvBuf.readRegion ++ data)).2.isNone)
      (waiting : ∀ rest, (frames maxPacket.toNat (session.recvBuf.readRegion ++ data)).2 =
        some rest → final.buffer.readRegion = rest) :
      Received maxPacket session data
        { recvBuf := final.buffer, packets := final.packets, disconnecting := final.refused }

/-- `OnRecv` ends in one of these ways. -/
theorem onRecv_received (maxPacket : UInt32) (sound : session.recvBuf.Sound)
    (short : data.length < 4294967296) :
    Received maxPacket session data (session.onRecv maxPacket data) := by
  have small : data.length < 2 ^ 32 := by omega
  obtain ⟨nextSound, fits, region⟩ := sound.append small
  rw [← sound.length_readRegion] at fits
  unfold PacketSession.onRecv
  split
  case isTrue ended => exact .ignored ended
  case isFalse goesOn =>
    have goesOn := eq_false_of_ne_true goesOn
    dsimp only
    split
    case isTrue appended =>
      rw [if_pos appended] at region
      have drained : Drained maxPacket
          { buffer := (session.recvBuf.append data).1, packets := session.packets } _ :=
        drainLoop_run nextSound rfl
      obtain ⟨finalSound, capacity, packets, refused, waiting⟩ := drained
      rw [region] at packets refused waiting
      exact .drained goesOn _ finalSound
        (capacity.trans (RecvBuffer.append_capacity _ _)) packets refused waiting
    case isFalse full =>
      refine .overflow goesOn ?_ nextSound
      exact Nat.lt_of_not_le fun room => full (fits.mpr room)

/-- One call of `OnRecv`. -/
theorem Fed.onRecv (fed : Fed maxPacket session stream) (short : data.length < 4294967296) :
    Fed maxPacket (session.onRecv maxPacket data) (stream ++ data) := by
  have received := onRecv_received maxPacket fed.sound short
  generalize session.onRecv maxPacket data = next at received ⊢
  have longer := frames_prefix maxPacket.toNat stream data
  cases received with
  | ignored ended =>
    refine ⟨fed.sound, fed.capacity, fun goesOn => ?_, fun _ => (fed.ended ended).trans longer⟩
    exact Bool.noConfusion (goesOn.symm.trans ended)
  | overflow goesOn full sound =>
    refine ⟨sound, (RecvBuffer.append_capacity _ _).trans fed.capacity, nofun, fun _ => ?_⟩
    rwa [fed.waiting goesOn] at longer
  | drained goesOn final sound capacity packets refused waiting =>
    have before := fed.waiting goesOn
    have joined := frames_append_some stream data (congrArg Prod.snd before)
    rw [before] at joined
    refine ⟨sound, capacity.trans fed.capacity, fun open_ => ?_, fun _ => ?_⟩
    · obtain ⟨rest, waits⟩ := Option.isSome_iff_exists.mp
        (Option.isNone_eq_false_iff.mp (refused.symm.trans open_))
      rw [joined, packets, waits, waiting rest waits]
    · rw [joined, packets]

/-- The buffer has room for a piece as long as packets are not too large. -/
theorem Fed.room (fed : Fed maxPacket session stream) (goesOn : session.disconnecting = false)
    (large : 4 ≤ maxPacket.toNat) (room : maxPacket.toNat + data.length ≤ 65537) :
    session.recvBuf.readRegion.length + data.length ≤ session.recvBuf.capacity.toNat := by
  have waits := congrArg Prod.snd (fed.waiting goesOn)
  have few := (length_lt_of_waiting large stream waits).1
  have size : session.recvBuf.capacity.toNat = 65536 := by rw [fed.capacity]; rfl
  omega

/-- One call of `OnRecv` with a piece that the buffer has room for. -/
theorem Exact.onRecv (exact_ : Exact maxPacket session stream) (fed : Fed maxPacket session stream)
    (large : 4 ≤ maxPacket.toNat) (room : maxPacket.toNat + data.length ≤ 65537) :
    Exact maxPacket (session.onRecv maxPacket data) (stream ++ data) := by
  have received := onRecv_received maxPacket fed.sound (show data.length < 4294967296 by omega)
  generalize session.onRecv maxPacket data = next at received ⊢
  cases received with
  | ignored ended =>
    intro _
    have before := exact_ ended
    rw [frames_append_none stream data (congrArg Prod.snd before), before]
  | overflow goesOn full sound => exact absurd (fed.room goesOn large room) (Nat.not_le.mpr full)
  | drained goesOn final sound capacity packets refused waiting =>
    intro ended
    have before := fed.waiting goesOn
    have joined := frames_append_some stream data (congrArg Prod.snd before)
    rw [joined, before, packets, Option.isNone_iff_eq_none.mp (refused.symm.trans ended)]

/-- A fresh session that is fed with pieces. -/
def receive (maxPacket : UInt32) (pieces : List (List UInt8)) : PacketSession :=
  pieces.foldl (PacketSession.onRecv maxPacket) {}

theorem fed_fresh (maxPacket : UInt32) : Fed maxPacket {} [] := by
  refine ⟨RecvBuffer.create_sound 65536, rfl, fun _ => ?_, nofun⟩
  rw [frames_waiting rfl, RecvBuffer.readRegion_create]

variable {pieces : List (List UInt8)}

theorem Fed.foldl (fed : Fed maxPacket session stream)
    (short : ∀ piece ∈ pieces, piece.length < 4294967296) :
    Fed maxPacket (pieces.foldl (PacketSession.onRecv maxPacket) session)
      (stream ++ pieces.flatten) := by
  induction pieces generalizing session stream with
  | nil =>
    rw [List.flatten_nil, List.append_nil]
    exact fed
  | cons piece pieces ih =>
    obtain ⟨first, others⟩ := List.forall_mem_cons.mp short
    rw [List.flatten_cons, ← List.append_assoc]
    exact ih (fed.onRecv first) others

theorem Exact.foldl (exact_ : Exact maxPacket session stream) (fed : Fed maxPacket session stream)
    (large : 4 ≤ maxPacket.toNat)
    (room : ∀ piece ∈ pieces, maxPacket.toNat + piece.length ≤ 65537) :
    Exact maxPacket (pieces.foldl (PacketSession.onRecv maxPacket) session)
      (stream ++ pieces.flatten) := by
  induction pieces generalizing session stream with
  | nil =>
    rw [List.flatten_nil, List.append_nil]
    exact exact_
  | cons piece pieces ih =>
    obtain ⟨first, others⟩ := List.forall_mem_cons.mp room
    rw [List.flatten_cons, ← List.append_assoc]
    exact ih (exact_.onRecv fed large first) (fed.onRecv (by omega)) others

theorem fed_receive (room : ∀ piece ∈ pieces, piece.length ≤ 57345) :
    Fed kMaxPacket (receive kMaxPacket pieces) pieces.flatten :=
  (fed_fresh kMaxPacket).foldl fun piece member => (room piece member).trans_lt (by decide)

/-- The packets of the stream are those that are passed on, and only its end is an end. -/
theorem frames_receive (room : ∀ piece ∈ pieces, piece.length ≤ 57345) :
    (frames 8192 pieces.flatten).1 = (receive kMaxPacket pieces).packets ∧
      ((receive kMaxPacket pieces).disconnecting = true ↔
        (frames 8192 pieces.flatten).2 = none) := by
  have fed := fed_receive room
  have start : Exact kMaxPacket {} [] := fun ended => Bool.noConfusion ended
  have ends : Exact kMaxPacket (receive kMaxPacket pieces) pieces.flatten :=
    start.foldl (fed_fresh kMaxPacket) (by decide) fun piece member =>
      Nat.add_le_add_left (room piece member) 8192
  cases ended : (receive kMaxPacket pieces).disconnecting with
  | true =>
    have read : frames 8192 pieces.flatten = _ := ends ended
    rw [read]
    exact ⟨rfl, iff_of_true rfl rfl⟩
  | false =>
    have read : frames 8192 pieces.flatten = _ := fed.waiting ended
    rw [read]
    exact ⟨rfl, iff_of_false nofun nofun⟩

/-- Whatever pieces of up to 57345 bytes a stream comes in, `PacketSession` calls `OnPacket` with
the packets of the stream, disconnects just when the stream is malformed, and `Append` never
fails. -/
theorem packetSession_reads_stream {pieces : List (List UInt8)}
    (room : ∀ piece ∈ pieces, piece.length ≤ 57345) :
    (receive kMaxPacket pieces).packets = (frames 8192 pieces.flatten).1 ∧
      ((receive kMaxPacket pieces).disconnecting = true ↔
        (frames 8192 pieces.flatten).2 = none) ∧
      ∀ earlier piece later, pieces = earlier ++ piece :: later →
        (receive kMaxPacket earlier).disconnecting = false →
          ((receive kMaxPacket earlier).recvBuf.append piece).2 = true := by
  obtain ⟨packets, ended⟩ := frames_receive room
  refine ⟨packets.symm, ended, ?_⟩
  rintro earlier piece later rfl goesOn
  obtain ⟨before, rest⟩ := List.forall_mem_append.mp room
  have first := (List.forall_mem_cons.mp rest).1
  have fed := fed_receive before
  have fits := fed.room goesOn (by decide) (Nat.add_le_add_left first 8192)
  obtain ⟨-, appends, -⟩ := fed.sound.append (show piece.length < 2 ^ 32 by omega)
  rw [← fed.sound.length_readRegion] at appends
  exact appends.mpr fits

theorem packetSession_reads_stream_cut :
    (receive kMaxPacket [[6, 0, 1], [0, 9, 9, 4], [0, 2, 0, 3], [0]]).packets =
      (frames 8192 [6, 0, 1, 0, 9, 9, 4, 0, 2, 0, 3, 0]).1 :=
  (@packetSession_reads_stream [[6, 0, 1], [0, 9, 9, 4], [0, 2, 0, 3], [0]] (by decide)).1

/-- Of packets that are built, sent one after the other and received in any pieces, `OnPacket` gets
these packets just when no body has more than 8188 bytes; `Build` does not check that. -/
theorem packets_delivered_iff {packets : List Packet} {pieces : List (List UInt8)}
    (sent : pieces.flatten = packets.flatMap Packet.build)
    (room : ∀ piece ∈ pieces, piece.length ≤ 57345) :
    (receive kMaxPacket pieces).packets = packets ↔
      ∀ packet ∈ packets, packet.body.length ≤ 8188 := by
  have delivered := (frames_receive room).1
  rw [← delivered]
  constructor
  · intro same packet member
    have size := (frames_bytes 8192 pieces.flatten).2 packet (same ▸ member)
    rw [Packet.size, headerSize] at size
    omega
  · intro small
    have sizes : ∀ packet ∈ packets, packet.size ≤ 8192 ∧ packet.size < 65536 := by
      intro packet member
      have body := small packet member
      rw [Packet.size, headerSize]
      omega
    have nothing : frames 8192 [] = ([], some []) := frames_waiting rfl
    have read := frames_flatMap_build sizes []
    rw [nothing, List.append_nil, List.append_nil, ← sent] at read
    rw [read]

theorem packets_delivered_two :
    (receive kMaxPacket [[5, 0, 1, 0, 7, 4], [0, 2, 0]]).packets = [⟨1, [7]⟩, ⟨2, []⟩] :=
  (@packets_delivered_iff [⟨1, [7]⟩, ⟨2, []⟩] [[5, 0, 1, 0, 7, 4], [0, 2, 0]] (by decide)
    (by decide)).mpr (by decide)

/-- What `EchoSession` has sent is the start of what it received, whatever pieces that came in.
While it goes on, only the bytes are missing that wait in its buffer. -/
theorem echo_sends_received {pieces : List (List UInt8)}
    (short : ∀ piece ∈ pieces, piece.length < 4294967296) :
    (receive benchMaxPacket pieces).packets.flatMap Packet.build <+: pieces.flatten ∧
      ((receive benchMaxPacket pieces).disconnecting = false →
        (receive benchMaxPacket pieces).packets.flatMap Packet.build ++
          (receive benchMaxPacket pieces).recvBuf.readRegion = pieces.flatten) := by
  have fed : Fed benchMaxPacket (receive benchMaxPacket pieces) pieces.flatten :=
    (fed_fresh benchMaxPacket).foldl short
  obtain ⟨⟨tail, bytes, waits⟩, -⟩ := frames_bytes benchMaxPacket.toNat pieces.flatten
  cases ended : (receive benchMaxPacket pieces).disconnecting with
  | true =>
    refine ⟨?_, nofun⟩
    obtain ⟨missing, whole⟩ := fed.ended ended
    rw [← whole, List.flatMap_append, List.append_assoc] at bytes
    exact ⟨_, bytes⟩
  | false =>
    have read := fed.waiting ended
    rw [read] at bytes waits
    rw [waits _ rfl] at bytes
    exact ⟨⟨_, bytes⟩, fun _ => bytes⟩

theorem echo_sends_received_cut :
    (receive benchMaxPacket [[5, 0, 1], [0, 7, 9]]).packets.flatMap Packet.build <+:
      [5, 0, 1, 0, 7, 9] :=
  (@echo_sends_received [[5, 0, 1], [0, 7, 9]] (by decide)).1

end UringServer.Net
