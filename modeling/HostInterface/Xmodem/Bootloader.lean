import HostInterface.Ifc.Checksum
import HostInterface.Xmodem.Success

/-!
# The bootloader at the other end

A receiver that follows the protocol of the sender, on a line that may damage what it
carries. The bootloader takes the packet it expects, acknowledges the one it has taken last
once more, cancels on any other, and asks for a repetition of what is no packet; behind the
end of transmission it tells how the image fares (`Bootloader.takes`).

A packet is read back from its frame whatever the two sides make of a plain `char`
(`unframe_frame`), and the packets of a payload, filled up, are the payload filled up
(`padded_chunk`). `Holds` is what the bootloader has of them.
-/

namespace HostInterface.Xmodem

open Interact Prog

/-! ## Packets, read -/

/-- The number and the bytes in a packet, if the buffer is one. -/
def unframe (char : PlainChar) : List U8 → Option (U8 × List U8)
  | start :: number :: inverse :: rest =>
    let data := rest.take 128
    let crc := crc16 char data
    if start = soh ∧ inverse = 255 - number ∧ data.length = 128 ∧
        rest.drop 128 = [(crc >>> 8).setWidth 8, crc.setWidth 8] then
      some (number, data)
    else none
  | _ => none

/-- **Round trip**: what is framed is read back, filled up, and the two sides need not have the
same `char`. -/
theorem unframe_frame (theirs char : PlainChar) (number : U8) {data : List U8}
    (h : data.length ≤ 128) :
    unframe theirs (frame char number data) = some (number, padded data) := by
  have hlen := length_padded h
  have htake : (padded data ++ [(crc16 char (padded data) >>> 8).setWidth 8,
      (crc16 char (padded data)).setWidth 8]).take 128 = padded data := List.take_left' hlen
  have hdrop : (padded data ++ [(crc16 char (padded data) >>> 8).setWidth 8,
      (crc16 char (padded data)).setWidth 8]).drop 128 =
        [(crc16 char (padded data) >>> 8).setWidth 8, (crc16 char (padded data)).setWidth 8] :=
    List.drop_left' hlen
  unfold frame
  simp only [List.cons_append, List.nil_append, unframe, htake, hdrop, hlen]
  rw [Ifc.crc16_eq theirs, Ifc.crc16_eq char]
  simp

/-- The payload, filled up to whole packets. -/
def whole (payload : Ptr) (size : Nat) : List U8 :=
  payload.bytes size ++ List.replicate (128 * numPackets size - size) sub

/-- Packet by packet. -/
theorem padded_chunk {payload : Ptr} {size k : Nat} (hk : k < numPackets size) :
    padded (chunk payload size k) = ((whole payload size).drop (128 * k)).take 128 := by
  have hroom := numPackets_room.mp hk
  have hnum : numPackets size = (size + 127) / 128 := rfl
  have hlen : (chunk payload size k).length = min 128 (size - 128 * k) := by
    rw [chunk, List.length_take, List.length_drop, Ptr.length_bytes]
  unfold padded whole
  rw [List.drop_append_of_le_length (by rw [Ptr.length_bytes]; omega), List.take_append,
    List.take_replicate, List.length_drop, Ptr.length_bytes, hlen]
  congr 2
  omega

/-! ## The bootloader -/

/-- The number of the packet it expects, the bytes it has taken, and whether it has seen the
end of transmission. -/
structure Bootloader where
  expected : U8
  image : List U8
  finished : Bool

/-- What it does with a buffer: the answer, and what it has then. -/
def Bootloader.takes (char : PlainChar) (m : Bootloader) (buf : List U8) : U8 × Bootloader :=
  if buf = [eot] then (ack, { m with finished := true })
  else
    match unframe char buf with
    | none => (nak, m)
    | some (number, data) =>
      if number = m.expected then
        (ack, { m with expected := m.expected + 1, image := m.image ++ data })
      else if number = m.expected - 1 then (ack, m) -- the last one, once more
      else (can, m)

/-- The line, and what the bootloader sends by itself: before the transfer, and of the image
when it finishes. What becomes of the `n`th buffer and of the answer to it and what the write
returns is counted in writes; when a read fails and with what, and the time, in calls, where a sleep
counts as many as it lasts milliseconds. -/
structure Line where
  hello : List U8
  tell : List U8 → List U8
  forth : Nat → List U8 → List U8
  back : Nat → U8 → List U8
  result : Nat → Int
  fails : Nat → Bool
  error : Nat → Nat
  clock : Nat → Time

/-- The calls and the writes so far, the bytes that are on the way back, and the bootloader. -/
structure Wire where
  calls : Nat
  writes : Nat
  pending : List U8
  loader : Bootloader

/-- Before the transfer. -/
def Line.start (L : Line) : Wire :=
  ⟨0, 0, L.hello, ⟨1, [], false⟩⟩

/-- A read that fails. -/
def ReadReply.failed (error : Nat) : ReadReply :=
  ⟨.negSucc error, none, fun h => ((Int.negSucc_not_nonneg error).mp h).elim⟩

theorem byte_stored (b : U8) (_ : (0 : Int) ≤ 0) : (some b).isSome = true := rfl

/-- A read: the next byte, or an error. -/
def Line.read (L : Line) (d : Wire) : ReadReply × Wire :=
  match if L.fails d.calls then [] else d.pending with
  | [] => (.failed (L.error d.calls), { d with calls := d.calls + 1 })
  | b :: pending => (⟨0, some b, byte_stored b⟩, { d with calls := d.calls + 1, pending })

/-- What the sender sees of the other end. -/
def Line.handle (L : Line) (char : PlainChar) : (e : Call) → Wire → Reply e × Wire
  | .transportWrite buf, d =>
    let x := d.loader.takes char (L.forth d.writes buf)
    let told := if x.2.finished then L.tell x.2.image else []
    (L.result d.writes,
      ⟨d.calls + 1, d.writes + 1, d.pending ++ L.back d.writes x.1 ++ told, x.2⟩)
  | .transportRead, d => L.read d
  | .gettime, d => (L.clock d.calls, { d with calls := d.calls + 1 })
  | .sleepMs millis, d => ((0 : Int), { d with calls := d.calls + 1 + millis.toNat })
  | .progress _ _, d => ((0 : Int), { d with calls := d.calls + 1 })

section

variable {char theirs : PlainChar} {payload : Ptr} {size k : Nat}

/-! ## What the bootloader has -/

/-- The first `k` packets. -/
structure Holds (payload : Ptr) (size k : Nat) (m : Bootloader) : Prop where
  image : m.image = (whole payload size).take (128 * k)
  expected : m.expected = BitVec.ofNat 8 (k + 1)
  running : m.finished = false

/-- A buffer in which nothing is read asks for a repetition. -/
theorem takes_noise {m : Bootloader} {buf : List U8} (hnone : unframe theirs buf = none)
    (hne : buf ≠ [eot]) : m.takes theirs buf = (nak, m) := by
  unfold Bootloader.takes
  rw [if_neg hne, hnone]

theorem takes_packet (m : Bootloader) :
    m.takes theirs (dataPacket char payload size k) =
      if BitVec.ofNat 8 (k + 1) = m.expected then
        (ack, { m with
          expected := m.expected + 1, image := m.image ++ padded (chunk payload size k) })
      else if BitVec.ofNat 8 (k + 1) = m.expected - 1 then (ack, m)
      else (can, m) := by
  have hne : dataPacket char payload size k ≠ [eot] := by
    intro heq
    have hlength := congrArg List.length heq
    rw [length_dataPacket] at hlength
    cases hlength
  unfold Bootloader.takes
  rw [if_neg hne, dataPacket, unframe_frame theirs char _ (length_chunk_le payload size k)]

/-- The packet it expects is taken. -/
theorem Holds.takes {m : Bootloader} (h : Holds payload size k m) (hk : k < numPackets size) :
    ∃ m', m.takes theirs (dataPacket char payload size k) = (ack, m') ∧
      Holds payload size (k + 1) m' := by
  refine ⟨_, (takes_packet m).trans (if_pos h.expected.symm), ?_, ?_, h.running⟩
  · show m.image ++ _ = _
    rw [h.image, padded_chunk hk, Nat.mul_succ, List.take_add]
  · show m.expected + 1 = _
    rw [h.expected, number_succ]

/-- The one it has taken last is acknowledged once more. -/
theorem Holds.takes_again {m : Bootloader} (h : Holds payload size (k + 1) m) :
    m.takes theirs (dataPacket char payload size k) = (ack, m) := by
  have hold : BitVec.ofNat 8 (k + 1) = m.expected - 1 := by
    rw [h.expected, ← number_succ, BitVec.add_sub_cancel]
  have hother : ¬ BitVec.ofNat 8 (k + 1) = m.expected := by
    rw [hold]
    generalize m.expected = e
    revert e
    decide
  rw [takes_packet, if_neg hother, if_pos hold]

/-- All the packets are the payload. -/
theorem Holds.whole {m : Bootloader} (h : Holds payload size (numPackets size) m) :
    m.image = whole payload size := by
  rw [h.image]
  refine List.take_of_length_le ?_
  rw [Xmodem.whole, List.length_append, Ptr.length_bytes, List.length_replicate, numPackets]
  omega

/-- A read fails and leaves the line as it is, or takes its next byte. -/
theorem Line.read_cases (L : Line) (d : Wire) :
    (L.read d).1.ret < 0 ∧ (L.read d).1.stored = none ∧
        (L.read d).2 = { d with calls := d.calls + 1 } ∨
      ∃ b pending, d.pending = b :: pending ∧ (L.read d).1.ret = 0 ∧
        (L.read d).1.stored = some b ∧ (L.read d).2 = { d with calls := d.calls + 1, pending } := by
  unfold Line.read
  split
  next => exact Or.inl ⟨Int.negSucc_lt_zero _, rfl, rfl⟩
  next b pending heq =>
    split at heq
    next => cases heq
    next => exact Or.inr ⟨b, pending, heq, rfl, rfl, rfl⟩

end

end HostInterface.Xmodem
