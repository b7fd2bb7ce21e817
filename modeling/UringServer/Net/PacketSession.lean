import UringServer.Buffer.RecvMachine
import UringServer.Net.PacketFraming
import UringServer.Semantics.Loop

/-!
# `PacketSession` and `DrainPackets`

Both put what was received into a `RecvBuffer` and take packets from it while
there are whole ones; they differ in the largest packet they accept. Whatever
pieces a stream comes in, the packets delivered are those of the stream, and the
session ends where the stream is malformed.
-/

namespace UringServer.Net

open UringServer.Semantics UringServer.Buffer.Machine

/-- The loop's variables: the buffer, the packets passed on and whether a size was refused. -/
structure Draining where
  buffer : RecvBuffer
  packets : List Packet
  refused : Bool := false

/-- One pass of the loop. -/
def drainPass (maxPacket : UInt32) (state : Draining) : Option Draining :=
  if state.refused then none
  else if state.buffer.readableSize < 4 then none
  else
    let region := state.buffer.readRegion
    let pktSize := (readLE16 region).toUInt32
    if pktSize < 4 ∨ maxPacket < pktSize then some { state with refused := true }
    else if state.buffer.readableSize < pktSize then none
    else some { state with
      buffer := state.buffer.onRead pktSize
      packets := state.packets ++ [packetAt pktSize.toNat region] }

section Pass

variable {maxPacket : UInt32} {state next : Draining}

/-- A pass goes by what stands at the front of the bytes in the buffer. -/
theorem drainPass_eq (sound : state.buffer.Sound) (accepted : state.refused = false) :
    drainPass maxPacket state =
      match front maxPacket.toNat state.buffer.readRegion with
      | .waiting => none
      | .malformed => some { state with refused := true }
      | .packet size => some { state with
          buffer := state.buffer.onRead (UInt32.ofNat size)
          packets := state.packets ++ [packetAt size state.buffer.readRegion] } := by
  have length := sound.length_readRegion
  rw [drainPass, accepted, front, headerSize]
  simp only [Bool.false_eq_true, if_false, UInt32.lt_iff_toNat_lt, UInt16.toNat_toUInt32, ← length,
    show UInt32.toNat 4 = 4 from rfl]
  by_cases short : state.buffer.readRegion.length < 4
  · rw [if_pos short, if_pos short]
  · rw [if_neg short, if_neg short]
    by_cases invalid : (readLE16 state.buffer.readRegion).toNat < 4 ∨
        maxPacket.toNat < (readLE16 state.buffer.readRegion).toNat
    · rw [if_pos invalid, if_pos invalid]
    · rw [if_neg invalid, if_neg invalid]
      by_cases waits : state.buffer.readRegion.length < (readLE16 state.buffer.readRegion).toNat
      · rw [if_pos waits, if_pos waits]
      · rw [if_neg waits, if_neg waits]
        have same : UInt32.ofNat (readLE16 state.buffer.readRegion).toNat =
            (readLE16 state.buffer.readRegion).toUInt32 := by
          refine UInt32.toNat.inj ?_
          rw [UInt16.toNat_toUInt32]
          have small := (readLE16 state.buffer.readRegion).toNat_lt
          exact UInt32.toNat_ofNat_of_lt' (show _ < 4294967296 by omega)
        rw [← same]

/-- What a pass does. -/
theorem drainPass_cases (sound : state.buffer.Sound)
    (taken : drainPass maxPacket state = some next) :
    state.refused = false ∧
      ((front maxPacket.toNat state.buffer.readRegion = .malformed ∧
          next = { state with refused := true }) ∨
        ∃ size, front maxPacket.toNat state.buffer.readRegion = .packet size ∧
          next.buffer.Sound ∧ next.buffer.readRegion = state.buffer.readRegion.drop size ∧
          next.buffer.capacity = state.buffer.capacity ∧
          next.packets = state.packets ++ [packetAt size state.buffer.readRegion] ∧
          next.refused = false) := by
  cases refused : state.refused with
  | true =>
    rw [drainPass, refused] at taken
    cases taken
  | false =>
    refine ⟨rfl, ?_⟩
    rw [drainPass_eq sound refused] at taken
    cases found : front maxPacket.toNat state.buffer.readRegion with
    | waiting =>
      rw [found] at taken
      cases taken
    | malformed =>
      rw [found] at taken
      cases taken
      exact .inl ⟨rfl, rfl⟩
    | packet size =>
      rw [found] at taken
      cases taken
      obtain ⟨isSize, -, -, inside⟩ := front_eq_packet found
      have isNat : (UInt32.ofNat size).toNat = size := by
        have small := (readLE16 state.buffer.readRegion).toNat_lt
        exact UInt32.toNat_ofNat_of_lt' (show size < 4294967296 by omega)
      have fits : UInt32.ofNat size ≤ state.buffer.readableSize := by
        rw [UInt32.le_iff_toNat_le, isNat, ← sound.length_readRegion]
        exact inside
      obtain ⟨nextSound, region⟩ := sound.onRead fits
      refine .inr ⟨size, rfl, nextSound, ?_, RecvBuffer.onRead_capacity _ _, rfl, refused⟩
      rw [region, isNat]

/-- The bytes left and whether the loop may go on. -/
def Draining.remaining (state : Draining) : Nat :=
  state.buffer.readRegion.length + if state.refused then 0 else 1

/-- The loop of `PacketSession::OnRecv` and of `DrainPackets`. -/
def drainLoop (maxPacket : UInt32) : Loop Draining where
  body := drainPass maxPacket
  Inv := fun state => state.buffer.Sound
  remaining := Draining.remaining
  preserved := by
    intro state next sound taken
    rcases (drainPass_cases sound taken).2 with ⟨-, rfl⟩ | ⟨size, -, nextSound, -⟩
    · exact sound
    · exact nextSound
  decreases := by
    intro state next sound taken
    obtain ⟨accepted, ⟨-, rfl⟩ | ⟨size, found, -, region, -, -, goesOn⟩⟩ :=
      drainPass_cases sound taken
    · simp [Draining.remaining, accepted]
    · obtain ⟨-, least, -, inside⟩ := front_eq_packet found
      unfold headerSize at least
      rw [Draining.remaining, Draining.remaining, region, List.length_drop, accepted, goesOn]
      omega

/-- What the loop has done when it is left. -/
structure Drained (maxPacket : UInt32) (state final : Draining) : Prop where
  sound : final.buffer.Sound
  capacity : final.buffer.capacity = state.buffer.capacity
  packets : final.packets = state.packets ++ (frames maxPacket.toNat state.buffer.readRegion).1
  refused : final.refused = (frames maxPacket.toNat state.buffer.readRegion).2.isNone
  waiting : ∀ rest, (frames maxPacket.toNat state.buffer.readRegion).2 = some rest →
    final.buffer.readRegion = rest

/-- The loop delivers the packets at the front of the buffer and leaves the bytes that wait. -/
theorem drainLoop_run (sound : state.buffer.Sound) (accepted : state.refused = false) :
    Drained maxPacket state ((drainLoop maxPacket).run state) := by
  -- a refused size ends the loop at once, so that the relation says nothing more from there on
  refine ((drainLoop maxPacket).run_rule (R := fun state final =>
    (state.refused = true → final = state) ∧
      (state.refused = false → Drained maxPacket state final)) ?_ ?_ state sound).2 accepted
  · intro state sound left
    refine ⟨fun _ => rfl, fun accepted => ?_⟩
    have found : front maxPacket.toNat state.buffer.readRegion = .waiting := by
      have pass : drainPass maxPacket state = none := left
      rw [drainPass_eq sound accepted] at pass
      cases found : front maxPacket.toNat state.buffer.readRegion with
      | waiting => rfl
      | malformed => simp [found] at pass
      | packet size => simp [found] at pass
    refine ⟨sound, rfl, ?_, ?_, ?_⟩ <;> rw [frames_waiting found]
    · exact (List.append_nil _).symm
    · exact accepted
    · exact fun rest same => Option.some.inj same
  · intro state next final sound taken ⟨stopped, goesOn⟩
    obtain ⟨accepted, ⟨found, rfl⟩ | ⟨size, found, nextSound, region, capacity, packets, again⟩⟩ :=
      drainPass_cases sound taken
    · refine ⟨fun refused => (Bool.noConfusion (accepted.symm.trans refused)), fun _ => ?_⟩
      cases stopped rfl
      refine ⟨sound, rfl, ?_, ?_, ?_⟩ <;> rw [frames_malformed found]
      · exact (List.append_nil _).symm
      · rfl
      · exact nofun
    · refine ⟨fun refused => (Bool.noConfusion (accepted.symm.trans refused)), fun _ => ?_⟩
      obtain ⟨finalSound, sameCapacity, finalPackets, refused, waiting⟩ := goesOn again
      rw [region] at finalPackets refused waiting
      refine ⟨finalSound, sameCapacity.trans capacity, ?_, ?_, ?_⟩ <;> rw [frames_packet found]
      · rw [finalPackets, packets, List.append_assoc]
        rfl
      · exact refused
      · exact waiting

end Pass

/-- A session of packets: its buffer, the packets passed on and whether it disconnects. -/
structure PacketSession where
  recvBuf : RecvBuffer := .create 65536
  packets : List Packet := []
  disconnecting : Bool := false

/-- `PacketSession::OnRecv`, with another limit `EchoSession::OnRecv`. Nothing is passed to a
session that disconnects. -/
def PacketSession.onRecv (maxPacket : UInt32) (session : PacketSession) (data : List UInt8) :
    PacketSession :=
  if session.disconnecting then session
  else
    let (buffer, appended) := session.recvBuf.append data
    if appended then
      let final := (drainLoop maxPacket).run { buffer, packets := session.packets }
      { recvBuf := final.buffer, packets := final.packets, disconnecting := final.refused }
    else { session with recvBuf := buffer, disconnecting := true }

/-- `kMaxPacket` of `PacketSession`. -/
def kMaxPacket : UInt32 := 8192

/-- `bench::kMaxPacket`. -/
def benchMaxPacket : UInt32 := 65536

end UringServer.Net
