/-!
# Words, time and `crc32` (`ll_ifc_utils.c`)

The fixed-width integers of the sources are `BitVec`s, so every sum, shift and
narrowing cast wraps as it does in C. A `long` (the two fields of
`struct time`) is an `Int`: the clock values the library meets stay far from
its ends.

`crc32` is the bitwise zlib loop, with the complement on entry and on exit.
Those two complements are why it can be computed in pieces:
`crc32_append` chains a checksum over a split buffer.
-/

namespace HostInterface

abbrev U8 := BitVec 8
abbrev U16 := BitVec 16
abbrev U32 := BitVec 32

/-- `struct time`. -/
structure Time where
  tvSec : Int
  tvNsec : Int
  deriving DecidableEq, Repr

/-- `ll_difftime`: whole seconds from `a` to `b`, rounded down, narrowed to
`int32_t` on return. -/
def llDifftime (a b : Time) : Int :=
  let sec := b.tvSec - a.tvSec
  let nsec := b.tvNsec - a.tvNsec
  Int.bmod (if nsec < 0 then sec - 1 else sec) 0x100000000

/-- `a` is not later than `b`. -/
def Time.Le (a b : Time) : Prop :=
  a.tvSec < b.tvSec ∨ a.tvSec = b.tvSec ∧ a.tvNsec ≤ b.tvNsec

/-- Differences below `2 ^ 31` seconds are not cut by the cast. -/
theorem llDifftime_near {a b : Time} (hab : a.Le b) (hnear : b.tvSec - a.tvSec < 0x80000000) :
    llDifftime a b =
      if b.tvNsec - a.tvNsec < 0 then b.tvSec - a.tvSec - 1 else b.tvSec - a.tvSec := by
  unfold llDifftime
  unfold Time.Le at hab
  dsimp only
  rw [Int.bmod_eq_of_le]
  · split <;> omega
  · split <;> omega

/-- A longer stretch of time differs by no less. -/
theorem llDifftime_mono {a b c d : Time} (hab : a.Le b) (hbc : b.Le c) (hcd : c.Le d)
    (hnear : d.tvSec - a.tvSec < 0x80000000) : llDifftime b c ≤ llDifftime a d := by
  have had : a.Le d := by
    unfold Time.Le at *
    omega
  have hbcNear : c.tvSec - b.tvSec < 0x80000000 := by
    unfold Time.Le at *
    omega
  rw [llDifftime_near hbc hbcNear, llDifftime_near had hnear]
  unfold Time.Le at *
  split <;> split <;> omega

/-- A pointer into a byte array: the memory it points into and its distance
from the start of that memory. -/
structure Ptr where
  mem : Nat → U8
  off : Nat

/-- The `n` bytes at a pointer. -/
def Ptr.bytes (p : Ptr) (n : Nat) : List U8 :=
  (List.range n).map fun i => p.mem (p.off + i)

@[simp] theorem Ptr.length_bytes (p : Ptr) (n : Nat) : (p.bytes n).length = n := by
  simp [Ptr.bytes]

/-- A byte of the range a pointer gives. -/
theorem Ptr.getElem_bytes (p : Ptr) {n i : Nat} (hi : i < (p.bytes n).length) :
    (p.bytes n)[i] = p.mem (p.off + i) := by
  simp [Ptr.bytes]

/-- `UINT16_FROM_BYTESTREAM`: little endian. -/
def u16FromBytestream (p : Nat → U8) : U16 :=
  (p 0).setWidth 16 ||| ((p 1).setWidth 16 <<< 8)

/-- `UINT32_FROM_BYTESTREAM`: little endian. -/
def u32FromBytestream (p : Nat → U8) : U32 :=
  (p 0).setWidth 32 ||| ((p 1).setWidth 32 <<< 8) ||| ((p 2).setWidth 32 <<< 16) |||
    ((p 3).setWidth 32 <<< 24)

theorem u16FromBytestream_congr {p q : Nat → U8} (h : ∀ k, k < 2 → p k = q k) :
    u16FromBytestream p = u16FromBytestream q := by
  unfold u16FromBytestream
  rw [h 0 (by omega), h 1 (by omega)]

theorem u32FromBytestream_congr {p q : Nat → U8} (h : ∀ k, k < 4 → p k = q k) :
    u32FromBytestream p = u32FromBytestream q := by
  unfold u32FromBytestream
  rw [h 0 (by omega), h 1 (by omega), h 2 (by omega), h 3 (by omega)]

/-- `UINT32_TO_BYTESTREAM`: the four bytes of a word, low byte first. -/
def le32 (x : U32) : List U8 :=
  [x.setWidth 8, (x >>> 8).setWidth 8, (x >>> 16).setWidth 8, (x >>> 24).setWidth 8]

/-- The two bytes of a half word, low byte first. -/
def le16 (x : U16) : List U8 :=
  [x.setWidth 8, (x >>> 8).setWidth 8]

/-- A word is put together from its bytes. -/
theorem u32FromBytestream_le32 (x : U32) (rest : List U8) :
    (u32FromBytestream fun k => (le32 x ++ rest).getD k 0) = x := by
  unfold u32FromBytestream le32
  simp only [List.cons_append, List.nil_append, List.getD_cons_zero, List.getD_cons_succ]
  ext i hi
  simp only [BitVec.getElem_or, BitVec.getElem_shiftLeft, BitVec.getElem_setWidth,
    BitVec.getLsbD_setWidth, BitVec.getLsbD_ushiftRight]
  have hbyte : i < 8 ∨ (8 ≤ i ∧ i < 16) ∨ (16 ≤ i ∧ i < 24) ∨ 24 ≤ i := by omega
  rcases hbyte with h | h | h | h
  · grind
  · grind
  · grind
  · grind

/-- And taken apart into them. -/
theorem le32_u32FromBytestream (p : Nat → U8) :
    le32 (u32FromBytestream p) = [p 0, p 1, p 2, p 3] := by
  unfold u32FromBytestream le32
  simp only [List.cons.injEq, and_true]
  refine ⟨?_, ?_, ?_, ?_⟩ <;>
  · ext i hi
    simp only [BitVec.getElem_setWidth, BitVec.getLsbD_setWidth, BitVec.getLsbD_ushiftRight,
      BitVec.getLsbD_or, BitVec.getLsbD_shiftLeft]
    grind

/-- A half word is put together from its bytes. -/
theorem u16FromBytestream_le16 (x : U16) (rest : List U8) :
    (u16FromBytestream fun k => (le16 x ++ rest).getD k 0) = x := by
  unfold u16FromBytestream le16
  simp only [List.cons_append, List.nil_append, List.getD_cons_zero, List.getD_cons_succ]
  ext i hi
  simp only [BitVec.getElem_or, BitVec.getElem_shiftLeft, BitVec.getElem_setWidth,
    BitVec.getLsbD_setWidth, BitVec.getLsbD_ushiftRight]
  by_cases h : i < 8
  · grind
  · grind

/-! ## `crc16` -/

/-- What a plain `char` is, which C leaves to the compiler. -/
inductive PlainChar where
  | signed
  | unsigned

/-- `(int) c` of a plain `char`. -/
def PlainChar.toInt (char : PlainChar) (c : U8) : U32 :=
  match char with
  | .signed => c.signExtend 32
  | .unsigned => c.setWidth 32

/-- One turn of the inner loop of `crc16`. -/
def crc16Bit (crc : U32) : U32 :=
  if crc &&& 0x8000#32 ≠ 0#32 then (crc <<< 1) ^^^ 0x1021#32 else crc <<< 1

/-- One byte: mixed in at the high end of the low half, then eight turns. -/
def crc16Byte (char : PlainChar) (crc : U32) (c : U8) : U32 :=
  (List.range 8).foldl (fun crc _ => crc16Bit crc) (crc ^^^ (char.toInt c <<< 8))

/-- `crc16(ptr, count)` on the bytes of `ptr`. The `int` of the source is left to run
over, and its low half is returned. -/
def crc16 (char : PlainChar) (bytes : List U8) : U16 :=
  (bytes.foldl (crc16Byte char) 0#32).setWidth 16

/-! ## `crc32` -/

/-- One turn of the inner loop of `crc32`. -/
def crc32Bit (crc : U32) : U32 :=
  if crc &&& 1#32 = 1#32 then (crc >>> 1) ^^^ 0xedb88320#32 else crc >>> 1

/-- One byte: mixed in at the low end, then eight turns. -/
def crc32Byte (crc : U32) (b : U8) : U32 :=
  (List.range 8).foldl (fun c _ => crc32Bit c) (crc ^^^ b.setWidth 32)

/-- `crc32(crc, buf, len)` on the bytes of `buf`. -/
def crc32 (crc : U32) (buf : List U8) : U32 :=
  ~~~(buf.foldl crc32Byte (~~~crc))

@[simp] theorem crc32_nil (crc : U32) : crc32 crc [] = crc := by
  simp [crc32]

/-- A checksum continues over a split buffer. -/
theorem crc32_append (crc : U32) (a b : List U8) :
    crc32 crc (a ++ b) = crc32 (crc32 crc a) b := by
  unfold crc32
  rw [BitVec.not_not, List.foldl_append]

end HostInterface
