import HostInterface.Buffer
import HostInterface.Ifc.Disclosure

/-!
# Retrieving a message (`ll_retrieve_message`)

The answer to `OP_MSG_RECV` is a message behind four bytes of signal data. They are taken
out of the buffer, and the message moved to its start. The size is computed in 8 bits from the
length of the answer, whatever that is, so it is right for the lengths from 4 to 255 alone
(`retrieveMessage_delivers_iff`).

An access outside the buffer is a fault.
-/

namespace HostInterface.Ifc

open Interact Prog

/-- What the caller's variables hold; `none` for a `NULL` pointer. -/
structure Retrieval where
  buf : Option (List U8)
  size : Option U16
  port : Option U8
  rssi : Option U16
  snr : Option U8

/-- A store through a pointer that may be `NULL`, of a value that may be out of reach. -/
def storeThrough {α : Type} (p value : Option α) : Option (Option α) :=
  match p with
  | none => some none
  | some _ => value.map some

theorem storeThrough_some {α : Type} (p : Option α) (value : α) :
    storeThrough p (some value) = some (p.map fun _ => value) := by
  cases p with
  | none => rfl
  | some old => rfl

section Retrieve

variable (fuel : Nat) (checksumBuff : List U8) (messageNum : U32) {cap : Nat}

/-- `ll_retrieve_message` behind the exchange: the four stores and the move. -/
def retrieved (rwResponse : Int) (buf : List U8) (port : Option U8) (rssi : Option U16)
    (snr : Option U8) : Option Retrieval := do
  let size : U16 := (BitVec.ofInt 8 rwResponse).setWidth 16 - 4
  let rssi ← storeThrough rssi do
    let lo ← buf[0]?
    let hi ← buf[1]?
    return lo.setWidth 16 + (hi.setWidth 16 <<< 8)
  let snr ← storeThrough snr buf[2]?
  let port ← storeThrough port buf[3]?
  let buf ← Buffer.move buf 0 4 size.toNat
  return ⟨some buf, some size, port, rssi, snr⟩

/-- `ll_retrieve_message`, with a buffer of `cap` bytes of which `*size` can be used. -/
def llRetrieveMessage (buf : Option (Local cap)) (size : Option { n : U16 // n.toNat ≤ cap })
    (port : Option U8) (rssi : Option U16) (snr : Option U8) :
    IfcM ((Int × Retrieval) × U32) :=
  match buf, size with
  | some buf, some size => do
    let ((rwResponse, out), messageNum) ←
      halReadWrite fuel checksumBuff messageNum (query 43 .nothing size.1 buf size.2)
    if rwResponse < 0 then return ((rwResponse, ⟨out, some 0, port, rssi, snr⟩), messageNum)
    let r ← ofOption (retrieved rwResponse (out.getD []) port rssi snr)
    return ((0, r), messageNum)
  | buf, size =>
    .done ((errorIncorrectParameter,
      ⟨buf.map (·.bytes), size.map (·.1), port, rssi, snr⟩), messageNum)

end Retrieve

/-- The message of the answer `b` has been delivered, with its signal data, or the answer has been
refused as too short. -/
structure Delivered (b : List U8) (port : Option U8) (rssi : Option U16) (snr : Option U8)
    (ret : Int) (r : Retrieval) : Prop where
  message : 4 ≤ b.length → ret = 0 ∧ (∃ n, r.size = some n ∧ n.toNat = b.length - 4) ∧
    ∃ buf, r.buf = some buf ∧ buf.take (b.length - 4) = b.drop 4
  rssi : 4 ≤ b.length → ∀ old, rssi = some old → ∃ lo hi x, b[0]? = some lo ∧ b[1]? = some hi ∧
    r.rssi = some x ∧ x.toInt = ((lo.toNat + 256 * hi.toNat : Nat) : Int).bmod 65536
  snr : 4 ≤ b.length → ∀ old, snr = some old → r.snr = b[2]?
  port : 4 ≤ b.length → ∀ old, port = some old → r.port = b[3]?
  short : b.length < 4 → ret < 0 ∧ r.size = some 0
  bound : ∀ n, r.size = some n → n.toNat ≤ b.length

/-- The size that is computed from the length of the answer. -/
theorem retrieved_size {rwResponse : Int} {buf : List U8} {port : Option U8} {rssi : Option U16}
    {snr : Option U8} {r : Retrieval} (h : retrieved rwResponse buf port rssi snr = some r) :
    r.size = some ((BitVec.ofInt 8 rwResponse).setWidth 16 - 4) := by
  unfold retrieved at h
  simp only [Option.bind_eq_bind, Option.bind_eq_some_iff, Option.pure_def,
    Option.some.injEq] at h
  obtain ⟨_, -, _, -, _, -, _, -, rfl⟩ := h
  rfl

theorem size_toNat {n : Nat} :
    ((BitVec.ofInt 8 (n : Int)).setWidth 16 - (4 : U16)).toNat = (n % 256 + 65532) % 65536 := by
  rw [BitVec.ofInt_natCast, BitVec.toNat_sub, BitVec.toNat_setWidth, BitVec.toNat_ofNat]
  show (65536 - 4 + n % 256 % 65536) % 65536 = _
  omega

theorem fromBe16_toNat (hi lo : U8) : (fromBe16 hi lo).toNat = lo.toNat + 256 * hi.toNat := by
  have hhi := hi.isLt
  have hlo := lo.isLt
  unfold fromBe16
  rw [BitVec.toNat_add, BitVec.toNat_shiftLeft, BitVec.toNat_setWidth, BitVec.toNat_setWidth,
    Nat.shiftLeft_eq]
  omega

/-- An answer of 4 to 255 bytes is taken apart. -/
theorem retrieved_delivered {b rest : List U8} (hlow : 4 ≤ b.length) (hhigh : b.length ≤ 255)
    (port : Option U8) (rssi : Option U16) (snr : Option U8) :
    ∃ r, retrieved (b.length : Int) (b ++ rest) port rssi snr = some r ∧
      Delivered b port rssi snr 0 r := by
  obtain ⟨lo, hi, snr', port', message, rfl⟩ :
      ∃ b₀ b₁ b₂ b₃ message, b = b₀ :: b₁ :: b₂ :: b₃ :: message := by
    match b, hlow with
    | b₀ :: b₁ :: b₂ :: b₃ :: message, _ => exact ⟨b₀, b₁, b₂, b₃, message, rfl⟩
  simp only [List.length_cons] at hhigh
  have hsize : ((BitVec.ofInt 8 ((message.length + 1 + 1 + 1 + 1 : Nat) : Int)).setWidth 16 -
      (4 : U16)).toNat = message.length := by
    rw [size_toNat]
    omega
  obtain ⟨buf, hmove, htake⟩ := @Buffer.move_take U8
    (lo :: hi :: snr' :: port' :: message ++ rest) 4 message.length (by
      simp only [List.length_append, List.length_cons]
      omega)
  have hmessage : ((lo :: hi :: snr' :: port' :: message ++ rest).drop 4).take message.length =
      message := List.take_left' rfl
  rw [hmessage] at htake
  refine ⟨⟨some buf, some ((BitVec.ofInt 8 ((message.length + 1 + 1 + 1 + 1 : Nat) : Int)).setWidth
    16 - 4), port.map fun _ => port', rssi.map fun _ => fromBe16 hi lo, snr.map fun _ => snr'⟩,
    ?_, ?_⟩
  · unfold retrieved
    rw [← hsize] at hmove
    simp only [List.length_cons, List.cons_append, List.getElem?_cons_zero,
      List.getElem?_cons_succ, Option.bind_eq_bind, Option.bind_some, Option.pure_def,
      storeThrough_some] at hmove ⊢
    rw [hmove]
    rfl
  · constructor
    · intro _
      exact ⟨rfl, ⟨_, rfl, hsize⟩, buf, rfl, htake⟩
    · rintro _ old rfl
      refine ⟨lo, hi, _, rfl, rfl, rfl, ?_⟩
      rw [BitVec.toInt_eq_toNat_bmod, fromBe16_toNat]
    · rintro _ old rfl
      rfl
    · rintro _ old rfl
      rfl
    · intro hshort
      exact absurd hlow (Nat.not_le.mpr hshort)
    · intro n hn
      obtain rfl := Option.some.inj hn
      rw [hsize]
      simp only [List.length_cons]
      omega

section Stream

variable {clock : Nat → Int × Time} {starve : Starve} {checksumBuff : List U8} {messageNum : U32}
  {cap : Nat} {buf : Local cap} {size : { n : U16 // n.toNat ≤ cap }} {port : Option U8}
  {rssi : Option U16} {snr : Option U8} {B b rest : List U8}

/-- The exchange ends with the answer, and only so. -/
theorem query_delivered {op : U8} {len : U16} {hs : len.toNat ≤ cap} (hclock : ClockOk clock)
    (hpos : len ≠ 0) (hB : Delivers op (messageNum.setWidth 8) len B b rest) :
    (∃ fuel s', Ends (stream clock starve)
      (halReadWrite fuel checksumBuff messageNum (query op .nothing len buf hs)) ⟨B, 0, false⟩
      (((b.length : Int), some (b ++ buf.bytes.drop b.length)), messageNum + 1) s') ∧
    ∀ fuel r messageNum' s', Ends (stream clock starve)
      (halReadWrite fuel checksumBuff messageNum (query op .nothing len buf hs)) ⟨B, 0, false⟩
      (r, messageNum') s' →
      r = ((b.length : Int), some (b ++ buf.bytes.drop b.length)) := by
  obtain ⟨hd, hheads, hanswers, hlen, hfit⟩ := delivers_iff.mp hB
  have htakes : b.length = hd.takes op (messageNum.setWidth 8) true :=
    hlen.trans (if_pos ⟨Header.error_eq_zero.mpr hanswers, rfl⟩).symm
  obtain ⟨m, looks, hheard⟩ := @listen_whole clock starve op (messageNum.setWidth 8) true len B
    b rest hd _ _ 0 false hclock hheads hfit htakes
  have hconclude := @conclude_ack checksumBuff buf.bytes b op (messageNum.setWidth 8) hd _ _
    hanswers hlen (fromBe16_be16 _)
  refine ⟨⟨m, _, (query_ends_iff hpos).mpr ⟨rfl, _, hheard, hconclude.symm⟩⟩, ?_⟩
  intro fuel r messageNum' s' hends
  obtain ⟨-, heard, hheard', rfl⟩ := (query_ends_iff hpos).mp hends
  obtain ⟨rfl, -⟩ := Below.unique (listen_below op (messageNum.setWidth 8) true len) hheard' hheard
  exact hconclude

/-- What is delivered has 4 to 255 bytes. -/
theorem retrieveMessage_bounds (hclock : ClockOk clock) (hsize : size.1 ≠ 0)
    (hB : Delivers 43 (messageNum.setWidth 8) size.1 B b rest) {fuel : Nat} {ret : Int}
    {r : Retrieval} {messageNum' : U32} {s' : Stream}
    (hends : Ends (stream clock starve)
      (llRetrieveMessage fuel checksumBuff messageNum (some buf) (some size) port rssi snr)
      ⟨B, 0, false⟩ ((ret, r), messageNum') s')
    (hdelivered : Delivered b port rssi snr ret r) : 4 ≤ b.length ∧ b.length ≤ 255 := by
  unfold llRetrieveMessage at hends
  obtain ⟨⟨⟨rw', out⟩, num⟩, s₁, hquery, hrest⟩ := ends_bind.mp hends
  have hrw := (@query_delivered clock starve checksumBuff messageNum cap buf B b rest 43 size.1
    size.2 hclock hsize hB).2 _ _ _ _ hquery
  obtain ⟨rfl, rfl⟩ := Prod.mk.inj hrw
  dsimp only at hrest
  rw [if_neg (by omega)] at hrest
  obtain ⟨r', s₂, hr', hdone⟩ := ends_bind.mp hrest
  obtain ⟨heq, -⟩ := ends_done.mp hdone
  obtain ⟨hret, -⟩ := Prod.mk.inj heq
  obtain ⟨rfl, rfl⟩ := Prod.mk.inj hret
  obtain ⟨tr, hruns⟩ := hr'.runs
  have hcomputed := retrieved_size (runs_ofOption.mp hruns).2
  have hlow : 4 ≤ b.length :=
    Nat.le_of_not_lt fun hshort => absurd (hdelivered.short hshort).1 (Int.lt_irrefl 0)
  obtain ⟨-, ⟨n, hn, hlen⟩, -⟩ := hdelivered.message hlow
  -- The size is right, so the length fits into its 8 bits.
  obtain rfl := Option.some.inj (hcomputed.symm.trans hn)
  rw [size_toNat] at hlen
  have hfit : b.length ≤ size.1.toNat := hB.1
  have hbound := size.1.isLt
  omega

end Stream

/-- **`ll_retrieve_message` delivers exactly the messages with answers of 4 to 255 bytes.** -/
theorem retrieveMessage_delivers_iff {clock : Nat → Int × Time} (hclock : ClockOk clock)
    (starve : Starve) (checksumBuff : List U8) (messageNum : U32) {cap : Nat} (buf : Local cap)
    (size : { n : U16 // n.toNat ≤ cap }) (hsize : size.1 ≠ 0) (port : Option U8)
    (rssi : Option U16) (snr : Option U8) {B b rest : List U8}
    (hB : Delivers 43 (messageNum.setWidth 8) size.1 B b rest) :
    (∃ fuel ret r messageNum' s', Ends (stream clock starve)
        (llRetrieveMessage fuel checksumBuff messageNum (some buf) (some size) port rssi snr)
        ⟨B, 0, false⟩ ((ret, r), messageNum') s' ∧ Delivered b port rssi snr ret r) ↔
      4 ≤ b.length ∧ b.length ≤ 255 := by
  constructor
  · rintro ⟨fuel, ret, r, messageNum', s', hends, hdelivered⟩
    exact retrieveMessage_bounds hclock hsize hB hends hdelivered
  · rintro ⟨hlow, hhigh⟩
    obtain ⟨⟨fuel, s', hquery⟩, -⟩ := @query_delivered clock starve checksumBuff messageNum cap buf
      B b rest 43 size.1 size.2 hclock hsize hB
    obtain ⟨r, hr, hdelivered⟩ := @retrieved_delivered b (buf.bytes.drop b.length) hlow hhigh port
      rssi snr
    refine ⟨fuel, 0, r, messageNum + 1, s', ?_, hdelivered⟩
    refine hquery.bind ?_
    dsimp only
    rw [if_neg (by omega)]
    exact (Ends.ofOption hr _).bind (.done _ _)

/-- A message of three bytes, from a byte of signal strength 0xFF80. -/
theorem retrieveMessage_delivers_three :
    ∃ fuel ret r messageNum' s', Ends (stream still silent)
      (llRetrieveMessage fuel [0, 0] 3 (some ⟨List.replicate 16 0, rfl⟩) (some ⟨16, by decide⟩)
        (some 0) (some 0) none)
      ⟨respFrame 43 3 0 [0x80, 0xFF, 7, 5, 1, 2, 3], 0, false⟩ ((ret, r), messageNum') s' ∧
      Delivered [0x80, 0xFF, 7, 5, 1, 2, 3] (some 0) (some 0) none ret r :=
  (@retrieveMessage_delivers_iff still (still_ok 0) silent [0, 0] 3 16 ⟨List.replicate 16 0, rfl⟩
    ⟨16, by decide⟩ (by decide) (some 0) (some 0) none _ _ []
    ⟨by decide, [], List.not_mem_nil, rfl⟩).mpr (by decide)

/-- An ACK without payload, to a caller with a buffer of 16 bytes. -/
theorem retrieveMessage_nothing :
    ¬ ∃ fuel ret r messageNum' s', Ends (stream still silent)
      (llRetrieveMessage fuel [0, 0] 3 (some ⟨List.replicate 16 0, rfl⟩) (some ⟨16, by decide⟩)
        none none none)
      ⟨respFrame 43 3 0 [], 0, false⟩ ((ret, r), messageNum') s' ∧
      Delivered [] none none none ret r := by
  rintro ⟨fuel, ret, r, messageNum', s', hends, hdelivered⟩
  have hB : Delivers 43 ((3 : U32).setWidth 8) 16 (respFrame 43 3 0 []) [] [] :=
    ⟨by decide, [], List.not_mem_nil, rfl⟩
  have hbounds := retrieveMessage_bounds (still_ok 0) (by decide) hB hends hdelivered
  exact absurd hbounds.1 (by decide)

end HostInterface.Ifc
