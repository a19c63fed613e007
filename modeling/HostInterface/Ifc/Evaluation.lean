import HostInterface.Ifc.Serialize
import Mathlib.Data.Nat.Digits.Defs

/-!
# The order of evaluation (`ifc_struct_defs.c`)

`read_uint16`, `read_uint32` and `read_uint64` join two reads from one cursor with `|`. C does
not say which of the two calls is made first, and need not decide alike each time: a
`read_uint32` makes one such choice and two `read_uint16`, a `read_uint64` one choice and two
`read_uint32`. `Order32` and `Order64` are what can come of that; a compiler that decides
alike each time is an `Orders` (`readUint32_eq`, `readUint64_eq`).

The big-endian value is read only where the left call comes first every time, and only then is
what `write_uint16`, `write_uint32` and `write_uint64` have written read back
(`readers_bigEndian_iff`).
-/

namespace HostInterface.Ifc

open Reader Writer

/-- The choices made in one `read_uint32`. -/
structure Order32 where
  top : Order
  left : Order
  right : Order

/-- The choices made in one `read_uint64`. -/
structure Order64 where
  top : Order
  left : Order32
  right : Order32

/-- `read_uint16`, with the choice made in it. -/
def readUint16In (o : Order) : Reader U8 U16 := do
  let x ← both o readUint8 readUint8
  return (x.1.setWidth 16 <<< 8) ||| x.2.setWidth 16

/-- `read_uint32`, with the choices made in it. -/
def readUint32In (o : Order32) : Reader U8 U32 := do
  let x ← both o.top (readUint16In o.left) (readUint16In o.right)
  return (x.1.setWidth 32 <<< 16) ||| x.2.setWidth 32

/-- `read_uint64`, with the choices made in it. -/
def readUint64In (o : Order64) : Reader U8 U64 := do
  let x ← both o.top (readUint32In o.left) (readUint32In o.right)
  return (x.1.setWidth 64 <<< 32) ||| x.2.setWidth 64

/-- The choices of a compiler that decides alike each time. -/
def Orders.order32 (os : Orders) : Order32 :=
  ⟨os.u32, os.u16, os.u16⟩

def Orders.order64 (os : Orders) : Order64 :=
  ⟨os.u64, os.order32, os.order32⟩

theorem readUint16_eq (os : Orders) : readUint16 os = readUint16In os.u16 := rfl

theorem readUint32_eq (os : Orders) : readUint32 os = readUint32In os.order32 := rfl

theorem readUint64_eq (os : Orders) : readUint64 os = readUint64In os.order64 := rfl

/-- The left call comes first every time. -/
def Order32.LeftFirst (o : Order32) : Prop :=
  o.top = .left ∧ o.left = .left ∧ o.right = .left

def Order64.LeftFirst (o : Order64) : Prop :=
  o.top = .left ∧ o.left.LeftFirst ∧ o.right.LeftFirst

/-! ## Big-endian values -/

/-- The big-endian value of some bytes. -/
def bigEndian (l : List U8) : Nat :=
  Nat.ofDigits 256 (l.reverse.map BitVec.toNat)

theorem bigEndian_append (l r : List U8) :
    bigEndian (l ++ r) = bigEndian l * 256 ^ r.length + bigEndian r := by
  unfold bigEndian
  rw [List.reverse_append, List.map_append, Nat.ofDigits_append, List.length_map,
    List.length_reverse, Nat.add_comm, Nat.mul_comm]

theorem digits_lt {l : List U8} : ∀ x ∈ l.reverse.map BitVec.toNat, x < 256 := by
  intro x hx
  obtain ⟨b, -, rfl⟩ := List.mem_map.mp hx
  exact b.isLt

theorem bigEndian_lt (l : List U8) : bigEndian l < 256 ^ l.length := by
  have h := Nat.ofDigits_lt_base_pow_length (show 1 < 256 by decide) (@digits_lt l)
  rw [List.length_map, List.length_reverse] at h
  exact h

/-- Of one length, no two lists of bytes have the same value. -/
theorem bigEndian_inj {l r : List U8} (hlen : l.length = r.length)
    (h : bigEndian l = bigEndian r) : l = r := by
  have hdigits := Nat.ofDigits_inj_of_len_eq (show 1 < 256 by decide) (by simp [hlen])
    (@digits_lt l) (@digits_lt r) h
  have hrev := (List.map_inj_right fun x y hxy => BitVec.eq_of_toNat_eq hxy).mp hdigits
  exact List.reverse_inj.mp hrev

/-- The reader gives the big-endian value of the next `n` bytes, and takes them. -/
def ReadsBigEndian {w : Nat} (p : Reader U8 (BitVec w)) (n : Nat) : Prop :=
  ∀ l : List U8, n ≤ l.length → p l = some (BitVec.ofNat w (bigEndian (l.take n)), l.drop n)

/-- The reader gives back what the writer has written into `n` bytes. -/
def Inverts {w : Nat} (p : Reader U8 (BitVec w)) (write : BitVec w → Writer U8 Unit) (n : Nat) :
    Prop :=
  ∀ (x : BitVec w) (buff : List U8), n ≤ buff.length →
    ∃ buff', (write x).run buff = some (n, buff') ∧ p buff' = some (x, buff.drop n)

section Encodings

variable {w n : Nat}

/-- Words are encoded by bytes with their value. -/
def BigEndian (enc : BitVec w → List U8) : Prop :=
  ∀ x, bigEndian (enc x) = x.toNat

theorem readsBigEndian_iff {p : Reader U8 (BitVec w)} {enc : BitVec w → List U8}
    (hp : Decodes p (fun _ => True) n enc) (hw : 256 ^ n = 2 ^ w) :
    ReadsBigEndian p n ↔ BigEndian enc := by
  constructor
  · intro h x
    have hread := h (enc x) (Nat.le_of_eq (hp.length x).symm)
    have hback := hp.read_written trivial (x := x) []
    rw [List.append_nil] at hback
    rw [hback, List.take_of_length_le (Nat.le_of_eq (hp.length x))] at hread
    have hx := congrArg BitVec.toNat (Prod.mk.inj (Option.some.inj hread)).1
    have hlt := bigEndian_lt (enc x)
    rw [hp.length, hw] at hlt
    rw [BitVec.toNat_ofNat, Nat.mod_eq_of_lt hlt] at hx
    exact hx.symm
  · intro h l hl
    obtain ⟨⟨x, rest⟩, hread⟩ := hp.total hl
    obtain ⟨-, rfl⟩ := hp.iff.mp hread
    have hlen := hp.length x
    rw [List.take_left' hlen, List.drop_left' hlen, h x, BitVec.ofNat_toNat, BitVec.setWidth_eq]
    exact hread

theorem inverts_iff {p : Reader U8 (BitVec w)} {enc written : BitVec w → List U8}
    {write : BitVec w → Writer U8 Unit} (hp : Decodes p (fun _ => True) n enc)
    (hwrite : ∀ x, Writes (write x) (written x)) (hlen : ∀ x, (written x).length = n)
    (hbig : BigEndian written) : Inverts p write n ↔ BigEndian enc := by
  have hrun : ∀ x (buff : List U8), n ≤ buff.length →
      (write x).run buff = some (n, written x ++ buff.drop n) := by
    intro x buff hfit
    rw [(hwrite x).run (by rw [hlen]; exact hfit), hlen]
  constructor
  · intro h x
    obtain ⟨buff', hbuff, hread⟩ := h x (List.replicate n 0) (Nat.le_of_eq (by simp))
    rw [hrun x _ (Nat.le_of_eq (by simp))] at hbuff
    obtain ⟨-, rfl⟩ := Prod.mk.inj (Option.some.inj hbuff)
    -- What is read as `x` begins with the encoding of `x`.
    obtain ⟨-, heq⟩ := hp.iff.mp hread
    have hsame := (List.append_inj heq ((hlen x).trans (hp.length x).symm)).1
    rw [← hsame]
    exact hbig x
  · intro h x buff hfit
    have hsame : enc x = written x :=
      bigEndian_inj ((hp.length x).trans (hlen x).symm) ((h x).trans (hbig x).symm)
    refine ⟨_, hrun x buff hfit, ?_⟩
    rw [← hsame]
    exact hp.read_written trivial _

/-- A word and its halves. -/
theorem toNat_halves (x : BitVec (w + w)) :
    x.toNat = (halves x).1.toNat * 2 ^ w + (halves x).2.toNat := by
  have hx : x.toNat < 2 ^ w * 2 ^ w := Nat.pow_add 2 w w ▸ x.isLt
  unfold halves
  rw [BitVec.toNat_setWidth, BitVec.toNat_setWidth, BitVec.toNat_ushiftRight,
    Nat.shiftRight_eq_div_pow, Nat.mod_eq_of_lt (Nat.div_lt_of_lt_mul hx)]
  exact (Nat.div_add_mod' _ _).symm

/-- A number has one quotient and one remainder. -/
theorem quotient_unique {m a b c d : Nat} (hb : b < m) (hd : d < m)
    (h : a * m + b = c * m + d) : a = c ∧ b = d := by
  have hrem : b = d := by
    have := congrArg (· % m) h
    simpa only [Nat.mul_add_mod', Nat.mod_eq_of_lt hb, Nat.mod_eq_of_lt hd] using this
  subst hrem
  exact ⟨Nat.eq_of_mul_eq_mul_right (Nat.zero_lt_of_lt hb) (Nat.add_right_cancel h), rfl⟩

/-- Two halves make a big-endian word in one order only. -/
theorem joined_bigEndian_iff {e₁ e₂ : BitVec w → List U8} (hpos : 0 < w) (hw : 256 ^ n = 2 ^ w)
    (h₁ : ∀ x, (e₁ x).length = n) (h₂ : ∀ x, (e₂ x).length = n) (o : Order) :
    BigEndian (fun x : BitVec (w + w) => o.cat (e₁ (halves x).1) (e₂ (halves x).2)) ↔
      o = .left ∧ BigEndian e₁ ∧ BigEndian e₂ := by
  have hlt₁ : ∀ a, bigEndian (e₁ a) < 2 ^ w := fun a => hw ▸ h₁ a ▸ bigEndian_lt (e₁ a)
  have hlt₂ : ∀ b, bigEndian (e₂ b) < 2 ^ w := fun b => hw ▸ h₂ b ▸ bigEndian_lt (e₂ b)
  constructor
  · intro h
    have hparts : ∀ a b : BitVec w,
        bigEndian (o.cat (e₁ a) (e₂ b)) = a.toNat * 2 ^ w + b.toNat := by
      intro a b
      have hx := (halves_eq_iff (a, b) _).mpr rfl
      have := h ((a.setWidth (w + w) <<< w) ||| b.setWidth (w + w))
      rw [toNat_halves] at this
      dsimp only at this hx
      rw [hx] at this
      exact this
    cases o with
    | left =>
      have heach : ∀ a b : BitVec w,
          bigEndian (e₁ a) = a.toNat ∧ bigEndian (e₂ b) = b.toNat := by
        intro a b
        have := hparts a b
        unfold Order.cat at this
        rw [bigEndian_append, h₂, hw] at this
        exact quotient_unique (hlt₂ b) b.isLt this
      exact ⟨rfl, fun a => (heach a 0).1, fun b => (heach 0 b).2⟩
    | right =>
      -- The right half would have the value of the left one, whatever that is.
      have heach : ∀ a b : BitVec w, bigEndian (e₂ b) = a.toNat := by
        intro a b
        have := hparts a b
        unfold Order.cat at this
        rw [bigEndian_append, h₁, hw] at this
        exact (quotient_unique (hlt₁ a) b.isLt this).1
      have hone : (1#w).toNat = 1 := by
        rw [BitVec.toNat_ofNat]
        exact Nat.mod_eq_of_lt (Nat.one_lt_two_pow (by omega))
      have := (heach 0#w 0#w).symm.trans (heach 1#w 0#w)
      rw [hone, BitVec.toNat_ofNat, Nat.zero_mod] at this
      exact absurd this (by decide)
  · rintro ⟨rfl, hbig₁, hbig₂⟩ x
    unfold Order.cat
    rw [bigEndian_append, h₂, hw, hbig₁, hbig₂]
    exact (toNat_halves x).symm

end Encodings

/-! ## The readers -/

/-- The bytes of a word, as they are read with these choices. -/
def Order.bytes16 (o : Order) (x : U16) : List U8 :=
  o.cat [(@halves 8 x).1] [(@halves 8 x).2]

def Order32.bytes (o : Order32) (x : U32) : List U8 :=
  o.top.cat (Order.bytes16 o.left (@halves 16 x).1) (Order.bytes16 o.right (@halves 16 x).2)

def Order64.bytes (o : Order64) (x : U64) : List U8 :=
  o.top.cat (o.left.bytes (@halves 32 x).1) (o.right.bytes (@halves 32 x).2)

theorem readUint16In_decodes (o : Order) :
    Decodes (readUint16In o) (fun _ => True) 2 (Order.bytes16 o) :=
  @joined_decodes 8 1 _ _ _ _ o readUint8_decodes readUint8_decodes

theorem readUint32In_decodes (o : Order32) :
    Decodes (readUint32In o) (fun _ => True) 4 o.bytes :=
  @joined_decodes 16 2 _ _ _ _ o.top (readUint16In_decodes _) (readUint16In_decodes _)

theorem readUint64In_decodes (o : Order64) :
    Decodes (readUint64In o) (fun _ => True) 8 o.bytes :=
  @joined_decodes 32 4 _ _ _ _ o.top (readUint32In_decodes _) (readUint32In_decodes _)

theorem byte_bigEndian : BigEndian fun x : U8 => [x] := by
  intro x
  show Nat.ofDigits 256 [x.toNat] = x.toNat
  exact Nat.ofDigits_singleton

theorem bytes16_bigEndian_iff (o : Order) : BigEndian (Order.bytes16 o) ↔ o = .left := by
  have h := @joined_bigEndian_iff 8 1 (fun x => [x]) (fun x => [x]) (by decide) (by decide)
    (fun _ => rfl) (fun _ => rfl) o
  rw [eq_true byte_bigEndian, and_true, and_true] at h
  exact h

theorem bytes32_bigEndian_iff (o : Order32) : BigEndian o.bytes ↔ o.LeftFirst := by
  have h := @joined_bigEndian_iff 16 2 (Order.bytes16 o.left) (Order.bytes16 o.right) (by decide)
    (by decide) (readUint16In_decodes _).length (readUint16In_decodes _).length o.top
  rw [bytes16_bigEndian_iff, bytes16_bigEndian_iff] at h
  exact h

theorem bytes64_bigEndian_iff (o : Order64) : BigEndian o.bytes ↔ o.LeftFirst := by
  have h := @joined_bigEndian_iff 32 4 o.left.bytes o.right.bytes (by decide) (by decide)
    (readUint32In_decodes _).length (readUint32In_decodes _).length o.top
  rw [bytes32_bigEndian_iff, bytes32_bigEndian_iff] at h
  exact h

/-- **The readers need the left call first**: in every evaluation, a reader gives the big-endian
value, and what the writer has written, exactly if it makes the left call first every time. -/
theorem readers_bigEndian_iff (o16 : Order) (o32 : Order32) (o64 : Order64) :
    ((ReadsBigEndian (readUint16In o16) 2 ↔ o16 = .left) ∧
        (Inverts (readUint16In o16) writeUint16 2 ↔ o16 = .left)) ∧
      ((ReadsBigEndian (readUint32In o32) 4 ↔ o32.LeftFirst) ∧
        (Inverts (readUint32In o32) writeUint32 4 ↔ o32.LeftFirst)) ∧
      ((ReadsBigEndian (readUint64In o64) 8 ↔ o64.LeftFirst) ∧
        (Inverts (readUint64In o64) writeUint64 8 ↔ o64.LeftFirst)) := by
  have hleft16 : BigEndian (bytes16 .leftToRight) := (bytes16_bigEndian_iff .left).mpr rfl
  have hleft32 : BigEndian (bytes32 .leftToRight) :=
    (bytes32_bigEndian_iff ⟨.left, .left, .left⟩).mpr ⟨rfl, rfl, rfl⟩
  have hleft64 : BigEndian (bytes64 .leftToRight) :=
    (bytes64_bigEndian_iff ⟨.left, ⟨.left, .left, .left⟩, ⟨.left, .left, .left⟩⟩).mpr
      ⟨rfl, ⟨rfl, rfl, rfl⟩, rfl, rfl, rfl⟩
  refine ⟨⟨?_, ?_⟩, ⟨?_, ?_⟩, ?_, ?_⟩
  · rw [readsBigEndian_iff (readUint16In_decodes o16) (by decide), bytes16_bigEndian_iff]
  · rw [inverts_iff (readUint16In_decodes o16) writeUint16_writes (readUint16_decodes _).length
      hleft16, bytes16_bigEndian_iff]
  · rw [readsBigEndian_iff (readUint32In_decodes o32) (by decide), bytes32_bigEndian_iff]
  · rw [inverts_iff (readUint32In_decodes o32) writeUint32_writes (readUint32_decodes _).length
      hleft32, bytes32_bigEndian_iff]
  · rw [readsBigEndian_iff (readUint64In_decodes o64) (by decide), bytes64_bigEndian_iff]
  · rw [inverts_iff (readUint64In_decodes o64) writeUint64_writes (readUint64_decodes _).length
      hleft64, bytes64_bigEndian_iff]

/-- A compiler that makes the right call first reads 0x0201 from the bytes 1 and 2. -/
theorem readUint16_rightFirst :
    readUint16In .right [1, 2] = some (0x0201, []) ∧ bigEndian [1, 2] = 0x0102 ∧
      ¬ ReadsBigEndian (readUint16In .right) 2 :=
  ⟨rfl, rfl, fun h => absurd (h [1, 2] (Nat.le_refl 2)) (by decide)⟩

end HostInterface.Ifc
