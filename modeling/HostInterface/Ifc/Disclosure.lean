import HostInterface.Ifc.Getter

/-!
# What a query gives away

A query is `Faithful` to a response stream if, wherever it returns a value that is not
negative, this and what it stores are the same whatever the memory held that it has not
written: its stack and the caller's variables. `hal_read_write` takes any answer that
fits as a success, and a getter decodes its whole buffer.

So a getter is faithful exactly to the streams that are `Complete` for it: no answer to
it ends too early, and one whose checksum is right has all the bytes that are decoded.
The stream runs dry where it ends, in any way a failing line can.
-/

namespace HostInterface.Ifc

open Interact Prog Reader

/-! ## Answers on a stream -/

/-- The first frame of the stream is an ACK of the command that fits. -/
def Delivers (op messageNum : U8) (len : U16) (B payload rest : List U8) : Prop :=
  payload.length ≤ len.toNat ∧
    ∃ junk, frameStart ∉ junk ∧ B = junk ++ (respFrame op messageNum 0 payload ++ rest)

/-- The first header of the stream is that of an ACK of the command that fits, but the stream
ends before the payload and the checksum do. -/
def Torn (op messageNum : U8) (len : U16) (B : List U8) : Prop :=
  ∃ hd tail, Heads B hd tail ∧ hd.Answers op messageNum ∧ hd.len ≤ len.toNat ∧
    tail.length < hd.len + 2

/-- An answer to the command is there in whole, and has exactly `len` bytes. -/
def Complete (op messageNum : U8) (len : U16) (B : List U8) : Prop :=
  ¬ Torn op messageNum len B ∧
    ∀ payload rest, Delivers op messageNum len B payload rest → payload.length = len.toNat

section Stream

variable {clock : Nat → Int × Time} {starve : Starve} {op messageNum : U8} {len : U16}
  {B payload rest : List U8} {s s' : Stream} {heard : Heard} {starved : Bool}

/-- A frame that is there in whole, with its parts. -/
theorem delivers_iff :
    Delivers op messageNum len B payload rest ↔ ∃ hd,
      Heads B hd (payload ++ (be16 (computeChecksum hd.bytes payload) ++ rest)) ∧
        hd.Answers op messageNum ∧ payload.length = hd.len ∧ hd.len ≤ len.toNat := by
  constructor
  · rintro ⟨hfit, junk, hjunk, rfl⟩
    have hlen := @Header.forLength_len op messageNum 0 _ (Nat.lt_of_le_of_lt hfit len.isLt)
    refine ⟨_, heads_respFrame hjunk, ⟨rfl, rfl, rfl⟩, hlen.symm, ?_⟩
    rw [hlen]
    exact hfit
  · rintro ⟨hd, ⟨junk, hjunk, rfl⟩, ⟨hop, hnum, hack⟩, hlen, hfit⟩
    refine ⟨hlen ▸ hfit, junk, hjunk, ?_⟩
    obtain ⟨op', messageNum', ack, hi, lo⟩ := hd
    subst hop hnum hack
    have hhilo : be16 (BitVec.ofNat 16 payload.length) = [hi, lo] := by
      rw [hlen]
      show be16 (BitVec.ofNat 16 (fromBe16 hi lo).toNat) = _
      rw [BitVec.ofNat_toNat, BitVec.setWidth_eq, be16_fromBe16]
    rw [respFrame_append]
    unfold respHeader
    rw [hhilo]
    rfl

/-- An answer of full size that is there in whole. -/
theorem complete_respFrame {junk : List U8} (hjunk : frameStart ∉ junk)
    (hfull : payload.length = len.toNat) :
    Complete op messageNum len (junk ++ (respFrame op messageNum 0 payload ++ rest)) := by
  have hheads := @heads_respFrame op messageNum 0 payload junk rest hjunk
  have hlen := @Header.forLength_len op messageNum 0 payload.length (hfull ▸ len.isLt)
  refine ⟨?_, fun payload' rest' hdelivers => ?_⟩
  · rintro ⟨hd, tail, hB, -, -, hshort⟩
    obtain ⟨rfl, rfl⟩ := hheads.unique hB
    have hsum : ∀ sum, (be16 sum).length = 2 := fun _ => rfl
    rw [hlen, List.length_append, List.length_append, hsum] at hshort
    omega
  · obtain ⟨hd, hB, -, hlen', -⟩ := delivers_iff.mp hdelivers
    obtain ⟨rfl, -⟩ := hheads.unique hB
    rw [hlen', hlen, hfull]

/-- Something of the answer has been consumed. -/
theorem Hears.consumed {headerBuf sum : List U8}
    (h : Hears op messageNum true len B starved (.frame headerBuf payload sum) s') :
    s'.rest.length + 6 ≤ B.length := by
  cases h with
  | whole hB =>
    obtain ⟨junk, -, rfl⟩ := hB
    simp only [List.length_append, List.length_cons, Header.bytes, List.length_nil]
    omega
  | cut hB _ _ _ hle =>
    obtain ⟨junk, -, rfl⟩ := hB
    simp only [List.length_append, List.length_cons, Header.bytes, List.length_nil]
    omega

/-- What is taken for a success is an answer that is there in whole, or one that is torn. -/
theorem Hears.accepted (h : Hears op messageNum true len B starved heard s')
    {checksumBuff bytes : List U8}
    (hret : 0 ≤ (conclude checksumBuff op messageNum (some bytes) heard).1) :
    (∃ payload, Delivers op messageNum len B payload s'.rest ∧ ∀ checksumBuff' bytes',
        conclude checksumBuff' op messageNum (some bytes') heard =
          ((payload.length : Int), some (payload ++ bytes'.drop payload.length))) ∨
      (Torn op messageNum len B ∧ s'.rest.length < len.toNat + 2) := by
  cases h with
  | @refused code _ _ hcode =>
    have hret : 0 ≤ code := hret
    omega
  | @whole hd payload hi lo s' hB hfit hlen hst =>
    rw [conclude_frame] at hret
    dsimp only at hret
    rw [concludeFrame_nonneg] at hret
    obtain ⟨hanswers, hsum⟩ := hret
    have hlen : payload.length = hd.len :=
      hlen.trans (if_pos ⟨Header.error_eq_zero.mpr hanswers, rfl⟩)
    have hsum : fromBe16 hi lo = computeChecksum hd.bytes payload := by
      have htake : ((withPayload (some bytes) payload).getD []).take hd.len = payload :=
        List.take_left' hlen
      exact htake ▸ hsum
    refine .inl ⟨payload, delivers_iff.mpr ⟨hd, ?_, hanswers, hlen, hfit⟩,
      fun _ _ => conclude_ack hanswers hlen hsum⟩
    rw [← hsum, be16_fromBe16]
    exact hB
  | @cut hd tail payload sum s' hB hfit hshort hst hle =>
    rw [conclude_frame] at hret
    dsimp only at hret
    rw [concludeFrame_nonneg] at hret
    have htakes : hd.takes op messageNum true = hd.len :=
      if_pos ⟨Header.error_eq_zero.mpr hret.1, rfl⟩
    rw [htakes] at hshort
    exact .inr ⟨⟨hd, tail, hB, hret.1, hfit, hshort⟩, by omega⟩

/-! ## One query -/

variable {size : Nat} {messageNum₀ messageNum₁ : U32} {fuel : Nat} {checksumBuff : List U8}
  {sent : Sent} {buff : Local size} {hs : len.toNat ≤ size} {r : Int × Option (List U8)}

theorem query_ends_iff (hpos : len ≠ 0) :
    Ends (stream clock starve)
        (halReadWrite fuel checksumBuff messageNum₀ (query op sent len buff hs)) s (r, messageNum₁)
        s' ↔
      messageNum₁ = messageNum₀ + 1 ∧ ∃ heard,
        Ends (stream clock starve) (listen fuel op (messageNum₀.setWidth 8) true len) s heard s' ∧
        r = conclude checksumBuff op (messageNum₀.setWidth 8) (some buff.bytes) heard := by
  refine halReadWrite_ends_iff sent.valid ?_
  show (true && decide (len = 0) || false) = false
  rw [decide_eq_false hpos]
  rfl

/-- **A query that succeeds** has got an answer in whole, which any other query in its place gets
as well, or an answer that is torn. -/
theorem query_agree (hdry : Dry starve) (hpos : len ≠ 0)
    (h : Ends (stream clock starve)
      (halReadWrite fuel checksumBuff messageNum₀ (query op sent len buff hs)) s (r, messageNum₁)
      s') (hret : 0 ≤ r.1) :
    s'.rest.length + 6 ≤ s.rest.length ∧
      ((∃ payload, Delivers op (messageNum₀.setWidth 8) len s.rest payload s'.rest ∧
          r = ((payload.length : Int), some (payload ++ buff.bytes.drop payload.length)) ∧
          messageNum₁ = messageNum₀ + 1 ∧
          ∀ checksumBuff' (buff' : Local size), Ends (stream clock starve)
            (halReadWrite fuel checksumBuff' messageNum₀ (query op sent len buff' hs)) s
            (((payload.length : Int), some (payload ++ buff'.bytes.drop payload.length)),
              messageNum₀ + 1) s') ∨
        (Torn op (messageNum₀.setWidth 8) len s.rest ∧ s'.rest.length < len.toNat + 2)) := by
  obtain ⟨rfl, heard, hheard, rfl⟩ := (query_ends_iff hpos).mp h
  have hhears := listen_wlp hdry fuel s heard s' hheard
  refine ⟨?_, ?_⟩
  · cases hh : heard with
    | refused code =>
      rw [hh] at hhears hret
      cases hhears with
      | refused _ hcode =>
        have hret : 0 ≤ code := hret
        omega
    | frame headerBuf payload sum =>
      rw [hh] at hhears
      exact hhears.consumed
  · rcases hhears.accepted hret with ⟨payload, hdelivers, hall⟩ | htorn
    · exact .inl ⟨payload, hdelivers, hall _ _, rfl, fun checksumBuff' buff' =>
        (query_ends_iff hpos).mpr ⟨rfl, heard, hheard, (hall _ _).symm⟩⟩
    · exact .inr htorn

/-- An answer that is there in whole can be got, whatever memory it is stored in. -/
theorem query_delivers (hpos : len ≠ 0)
    (h : Delivers op (messageNum₀.setWidth 8) len B payload rest) (i : Nat) (b : Bool) :
    ∃ m looks, ∀ n, m ≤ n → ∀ (checksumBuff : List U8) (buff : Local size),
      Ends (stream still silent)
        (halReadWrite n checksumBuff messageNum₀ (query op sent len buff hs)) ⟨B, i, b⟩
        (((payload.length : Int), some (payload ++ buff.bytes.drop payload.length)),
          messageNum₀ + 1) ⟨rest, looks, b⟩ := by
  obtain ⟨hd, hB, hanswers, hlen, hfit⟩ := delivers_iff.mp h
  have htakes : payload.length = hd.takes op (messageNum₀.setWidth 8) true :=
    hlen.trans (if_pos ⟨Header.error_eq_zero.mpr hanswers, rfl⟩).symm
  obtain ⟨m, looks, hheard⟩ := @listen_whole still silent op (messageNum₀.setWidth 8) true len B
    payload rest hd _ _ i b (still_ok i) hB hfit htakes
  exact ⟨m, looks, fun n hmn checksumBuff buff => (query_ends_iff hpos).mpr ⟨rfl, _,
    (listen_below op _ true len m n hmn).ends hheard,
    (conclude_ack hanswers hlen (fromBe16_be16 _)).symm⟩⟩

/-- A torn answer is a success or not, as `checksum_buff` has it. -/
theorem query_torn (hpos : len ≠ 0) (h : Torn op (messageNum₀.setWidth 8) len B) (i : Nat)
    (b : Bool) (buff : Local size) :
    ∃ m looks checksumBuff checksumBuff' n l, 0 ≤ n ∧ l.length = size ∧
      ∀ k, m ≤ k →
        Ends (stream still silent)
          (halReadWrite k checksumBuff messageNum₀ (query op sent len buff hs)) ⟨B, i, b⟩
          ((n, some l), messageNum₀ + 1) ⟨[], looks, true⟩ ∧
        Ends (stream still silent)
          (halReadWrite k checksumBuff' messageNum₀ (query op sent len buff hs)) ⟨B, i, b⟩
          ((errorChecksumMismatch, some l), messageNum₀ + 1) ⟨[], looks, true⟩ := by
  obtain ⟨hd, tail, hB, hanswers, hfit, hshort⟩ := h
  have htakes : hd.takes op (messageNum₀.setWidth 8) true = hd.len :=
    if_pos ⟨Header.error_eq_zero.mpr hanswers, rfl⟩
  obtain ⟨m, looks, hheard⟩ := @listen_cut still op (messageNum₀.setWidth 8) true len B tail hd i b
    (still_ok i) hB hfit (by rw [htakes]; exact hshort)
  rw [htakes] at hheard
  generalize hread : (if hd.len ≤ tail.length then tail.take hd.len else []) = read at hheard
  have hreadlen : read.length ≤ hd.len := by
    rw [← hread]
    split
    next => exact List.length_take_le _ _
    next => exact Nat.zero_le _
  -- The checksum is that of what the buffer holds, or it is not.
  generalize hl : read ++ buff.bytes.drop read.length = l
  have hllen : l.length = size := by
    rw [← hl, List.length_append, List.length_drop, buff.length_eq]
    omega
  have hends : ∀ k, m ≤ k → ∀ checksumBuff, Ends (stream still silent)
      (halReadWrite k checksumBuff messageNum₀ (query op sent len buff hs)) ⟨B, i, b⟩
      ((concludeFrame checksumBuff op (messageNum₀.setWidth 8) (some l) hd.bytes [], some l),
        messageNum₀ + 1) ⟨[], looks, true⟩ := by
    intro k hmk checksumBuff
    refine (query_ends_iff hpos).mpr ⟨rfl, _, (listen_below op _ true len m k hmk).ends hheard, ?_⟩
    rw [← hl]
    rfl
  obtain ⟨sum, hsum⟩ : ∃ sum, sum = computeChecksum hd.bytes (((some l).getD []).take hd.len) :=
    ⟨_, rfl⟩
  have hgood : 0 ≤ concludeFrame (be16 sum) op (messageNum₀.setWidth 8) (some l) hd.bytes [] :=
    concludeFrame_nonneg.mpr ⟨hanswers, (fromBe16_unread sum).trans hsum⟩
  have hbad : concludeFrame (be16 (sum + 1)) op (messageNum₀.setWidth 8) (some l) hd.bytes [] =
      errorChecksumMismatch := by
    refine concludeFrame_mismatch ?_
    rw [fromBe16_unread, ← hsum]
    bv_omega
  refine ⟨m, looks, be16 sum, be16 (sum + 1), _, l, hgood, hllen, fun k hmk => ⟨hends k hmk _, ?_⟩⟩
  rw [← hbad]
  exact hends k hmk _

end Stream

/-! ## Getters -/

/-- Wherever a run returns a value that is not negative, the run with other memory, `ι`, returns
the same. -/
def Faithful {ι ρ : Type} (B : List U8) (ret : ρ → Int) (same : ι → ι → Prop)
    (run : Nat → ι → IfcM ρ) : Prop :=
  ∀ clock starve, Dry starve → ∀ (fuel : Nat) (i j : ι), same i j → ∀ r s,
    Ends (stream clock starve) (run fuel i) ⟨B, 0, false⟩ r s → 0 ≤ ret r →
    Ends (stream clock starve) (run fuel j) ⟨B, 0, false⟩ r s

/-- What a getter finds in memory: `checksum_buff`, its own buffer, and the caller's variable. -/
structure Entry (size : Nat) (β : Type) where
  checksumBuff : List U8
  buff : Local size
  out : β

/-- A getter that is faithful, whether its pointer is `NULL` or not. -/
def FaithfulGetter {size : Nat} {α : Type} (B : List U8)
    (run : Nat → List U8 → Local size → Option α → IfcM ((Int × Option α) × U32)) : Prop :=
  Faithful B (·.1.1) (fun i j : Entry size (Option α) => i.out.isSome = j.out.isSome)
    fun fuel i => run fuel i.checksumBuff i.buff i.out

/-- Memory that holds one byte throughout. -/
def Local.fill (size : Nat) (x : U8) : Local size :=
  ⟨List.replicate size x, List.length_replicate⟩

/-- Every buffer of the size is decoded, and the lowest bit of its last byte shows. -/
structure Format {α : Type} (decode : List U8 → Option α) (size : Nat) : Prop where
  total : ∀ {l : List U8}, l.length = size → ∃ v, decode l = some v
  last : ∀ {l l' : List U8}, l.length + 1 = size → l'.length + 1 = size →
    decode (l ++ [0]) ≠ decode (l' ++ [1])

/-- What is behind a payload shows, unless there is nothing. -/
theorem Format.full {α : Type} {decode : List U8 → Option α} {size : Nat} (h : Format decode size)
    {payload : List U8} (hle : payload.length ≤ size)
    (heq : decode (payload ++ (Local.fill size 0).bytes.drop payload.length) =
      decode (payload ++ (Local.fill size 1).bytes.drop payload.length)) :
    payload.length = size := by
  by_contra hne
  have hfill : ∀ x : U8, payload ++ (Local.fill size x).bytes.drop payload.length =
      (payload ++ List.replicate (size - payload.length - 1) x) ++ [x] := by
    intro x
    show payload ++ (List.replicate size x).drop payload.length = _
    rw [List.drop_replicate, List.append_assoc, ← List.replicate_succ']
    congr 2
    omega
  rw [hfill, hfill] at heq
  exact h.last (by rw [List.length_append, List.length_replicate]; omega)
    (by rw [List.length_append, List.length_replicate]; omega) heq

section Getter

variable {α : Type} {op : U8} {len : U16} {decode : List U8 → Option α} {messageNum : U32}
  {B : List U8}

theorem fetch_ends_iff {clock : Nat → Int × Time} {starve : Starve} {fuel : Nat}
    {checksumBuff : List U8} {buff : Local len.toNat} {s s' : Stream}
    {r : (Int × Option α) × U32} :
    Ends (stream clock starve) (fetch fuel checksumBuff messageNum op decode buff) s r s' ↔
      ∃ ret messageNum' v, Ends (stream clock starve)
          (halReadWrite fuel checksumBuff messageNum (query op .nothing len buff (Nat.le_refl _))) s
          (ret, messageNum') s' ∧
        decode (ret.2.getD []) = some v ∧ r = ((ret.1, some v), messageNum') := by
  unfold fetch
  rw [ends_bind]
  constructor
  · intro h
    obtain ⟨⟨ret, messageNum'⟩, s₁, h₁, h₂⟩ := h
    obtain ⟨v, s₂, h₂, h₃⟩ := ends_bind.mp h₂
    cases hv : decode (ret.2.getD []) with
    | none =>
      rw [hv] at h₂
      obtain ⟨tr, htr⟩ := h₂
      cases htr
    | some v' =>
      rw [hv] at h₂
      obtain ⟨rfl, rfl⟩ := ends_done.mp h₂
      obtain ⟨rfl, rfl⟩ := ends_done.mp h₃
      exact ⟨ret, messageNum', v, h₁, hv, rfl⟩
  · rintro ⟨ret, messageNum', v, h₁, hv, rfl⟩
    exact ⟨(ret, messageNum'), s', h₁, (Ends.ofOption hv s').bind (.done _ _)⟩

theorem getter_some {fuel : Nat} {checksumBuff : List U8} {buff : Local len.toNat} {old : α} :
    getter fuel checksumBuff messageNum op decode buff (some old) =
      fetch fuel checksumBuff messageNum op decode buff := rfl

theorem Local.drop_full {size : Nat} {payload : List U8} (h : payload.length = size)
    (buff : Local size) : payload ++ buff.bytes.drop payload.length = payload := by
  rw [List.drop_of_length_le (Nat.le_of_eq (buff.length_eq.trans h.symm)), List.append_nil]

/-- On a complete stream, a value that is not negative does not depend on memory. -/
theorem fetch_agree (hpos : len ≠ 0) {clock : Nat → Int × Time} {starve : Starve}
    (hdry : Dry starve) {fuel : Nat} {checksumBuff : List U8} {buff : Local len.toNat}
    {s s' : Stream} {r : (Int × Option α) × U32}
    (hB : Complete op (messageNum.setWidth 8) len s.rest)
    (h : Ends (stream clock starve) (fetch fuel checksumBuff messageNum op decode buff) s r s')
    (hret : 0 ≤ r.1.1) (checksumBuff' : List U8) (buff' : Local len.toNat) :
    Ends (stream clock starve) (fetch fuel checksumBuff' messageNum op decode buff') s r s' := by
  obtain ⟨ret, num, v, hends, hv, rfl⟩ := fetch_ends_iff.mp h
  rcases (query_agree hdry hpos hends hret).2 with ⟨payload, hdelivers, rfl, rfl, hall⟩ | ⟨htorn, -⟩
  · have hfull := hB.2 payload s'.rest hdelivers
    refine fetch_ends_iff.mpr ⟨_, _, v, hall checksumBuff' buff', ?_, rfl⟩
    rw [← hv]
    show decode (payload ++ _) = decode (payload ++ _)
    rw [buff.drop_full hfull, buff'.drop_full hfull]
  · exact absurd htorn hB.1

/-- Where no run depends on memory, the stream is complete. -/
theorem fetch_complete (hpos : len ≠ 0) (hformat : Format decode len.toNat)
    (h : ∀ fuel checksumBuff checksumBuff' (buff buff' : Local len.toNat) r s,
      Ends (stream still silent) (fetch fuel checksumBuff messageNum op decode buff) ⟨B, 0, false⟩
        r s → 0 ≤ r.1.1 →
      Ends (stream still silent) (fetch fuel checksumBuff' messageNum op decode buff')
        ⟨B, 0, false⟩ r s) :
    Complete op (messageNum.setWidth 8) len B := by
  refine ⟨fun htorn => ?_, fun payload rest hdelivers => ?_⟩
  · obtain ⟨m, looks, checksumBuff, checksumBuff', k, l, hk, hl, hends⟩ :=
      query_torn hpos htorn 0 false (Local.fill len.toNat 0)
    obtain ⟨v, hv⟩ := hformat.total hl
    obtain ⟨hends, hends'⟩ := hends m (Nat.le_refl m)
    have hsame := h _ _ checksumBuff' _ (.fill len.toNat 0) _ _
      (fetch_ends_iff.mpr ⟨_, _, v, hends, hv, rfl⟩) hk
    have heq := hsame.unique (fetch_ends_iff.mpr ⟨_, _, v, hends', hv, rfl⟩)
    have hkk : k = errorChecksumMismatch := congrArg (·.1.1) heq.1
    rw [hkk] at hk
    exact absurd hk (by decide)
  · have hfit := hdelivers.1
    obtain ⟨m, looks, hends⟩ := query_delivers hpos hdelivers 0 false
    have hrun : ∀ x : U8, ∃ v,
        decode (payload ++ (Local.fill len.toNat x).bytes.drop payload.length) = some v ∧
        Ends (stream still silent) (fetch m [] messageNum op decode (Local.fill len.toNat x))
          ⟨B, 0, false⟩ (((payload.length : Int), some v), messageNum + 1)
          ⟨rest, looks, false⟩ := by
      intro x
      obtain ⟨v, hv⟩ := hformat.total
        (show (payload ++ (Local.fill len.toNat x).bytes.drop payload.length).length = len.toNat by
          rw [List.length_append, List.length_drop, (Local.fill len.toNat x).length_eq]
          omega)
      exact ⟨v, hv, fetch_ends_iff.mpr ⟨_, _, v, hends m (Nat.le_refl m) _ _, hv, rfl⟩⟩
    obtain ⟨v₀, hv₀, h₀⟩ := hrun 0
    obtain ⟨v₁, hv₁, h₁⟩ := hrun 1
    have heq := (h _ _ [] _ (.fill len.toNat 1) _ _ h₀ (Int.natCast_nonneg _)).unique h₁
    have hvv : v₀ = v₁ := Option.some.inj (congrArg (·.1.2) heq.1)
    exact hformat.full hfit (by rw [hv₀, hv₁, hvv])

/-- **A getter is faithful exactly to complete streams.** -/
theorem getter_faithful_iff (op : U8) {len : U16} {decode : List U8 → Option α} (hpos : len ≠ 0)
    (hformat : Format decode len.toNat) (messageNum : U32) (B : List U8) :
    FaithfulGetter B (fun fuel checksumBuff (buff : Local len.toNat) =>
        getter fuel checksumBuff messageNum op decode buff) ↔
      Complete op (messageNum.setWidth 8) len B := by
  constructor
  · intro h
    obtain ⟨v, -⟩ := hformat.total (Local.fill len.toNat 0).length_eq
    refine fetch_complete hpos hformat fun fuel checksumBuff checksumBuff' buff buff' r s => ?_
    exact h still silent silent_dry fuel ⟨checksumBuff, buff, some v⟩ ⟨checksumBuff', buff', some v⟩
      rfl r s
  · rintro hB clock starve hdry fuel ⟨checksumBuff, buff, out⟩ ⟨checksumBuff', buff', out'⟩ hsame
      r s h hret
    cases out with
    | none =>
      obtain ⟨rfl, -⟩ := ends_done.mp h
      exact absurd hret (show ¬ 0 ≤ errorIncorrectParameter by decide)
    | some v =>
      obtain ⟨v', rfl⟩ := Option.isSome_iff_exists.mp hsame.symm
      exact fetch_agree hpos hdry hB h hret checksumBuff' buff'

end Getter

/-! ## What is decoded -/

/-- A decoding that shows the lowest bit of the last byte. -/
theorem Format.of_bit {α : Type} {decode : List U8 → α} {size : Nat} (bit : α → Bool)
    (h : ∀ buff, bit (decode buff) = (buff.getD (size - 1) 0).getLsbD 0) :
    Format (fun buff => some (decode buff)) size where
  total _ := ⟨_, rfl⟩
  last := by
    intro l l' hl hl' heq
    have hbit : ∀ {l : List U8} {x : U8}, l.length + 1 = size →
        bit (decode (l ++ [x])) = x.getLsbD 0 := by
      intro l x hl
      rw [h, ← hl, Nat.add_sub_cancel, List.getD_eq_getElem?_getD, List.getElem?_concat_length]
      rfl
    have hbits := congrArg bit (Option.some.inj heq)
    rw [hbit hl, hbit hl'] at hbits
    exact absurd hbits (by decide)

theorem Format.of_decodes {α : Type} {p : Reader U8 α} {P : α → Prop} {size : Nat}
    {e : α → List U8} (h : Decodes p P size e) :
    Format (fun buff => (p buff).map Prod.fst) size where
  total := by
    intro l hl
    obtain ⟨y, hy⟩ := h.total (Nat.le_of_eq hl.symm)
    exact ⟨y.1, by rw [hy]; rfl⟩
  last := by
    intro l l' hl hl' heq
    have hsame := h.injective (by rw [List.length_append]; exact hl)
      (by rw [List.length_append]; exact hl') heq
    have hlast := congrArg List.getLast? hsame
    rw [List.getLast?_concat, List.getLast?_concat] at hlast
    exact absurd hlast (by decide)

theorem netToken_format : Format (fun buff => some (netToken buff)) (4 : U16).toNat :=
  .of_bit (·.getLsbD 0) fun buff => by simp [netToken]

theorem uniqueId_format : Format (fun buff => some (uniqueId buff)) (8 : U16).toNat :=
  .of_bit (·.getLsbD 0) fun buff => by simp [uniqueId, List.range, List.range.loop]

theorem macMode_format :
    Format (fun buff : List U8 => some ((buff.getD 0 0).setWidth 32)) (1 : U16).toNat :=
  .of_bit (·.getLsbD 0) fun buff => by simp

theorem connectionFilter_format :
    Format (fun buff : List U8 => some (buff.getD 0 0)) (1 : U16).toNat :=
  .of_bit (·.getLsbD 0) fun _ => rfl

theorem radioParams_format : Format (fun buff => some (radioParams buff)) (8 : U16).toNat :=
  .of_bit (·.freq.getLsbD 0) fun buff => by simp [radioParams]

/-- `ll_radio_params_get` is faithful exactly to complete streams. -/
theorem radioParams_faithful_iff (messageNum : U32) (B : List U8) :
    Faithful B (·.1.1) (fun _ _ => True)
        (fun fuel (i : Entry (8 : U16).toNat RadioParams) =>
          llRadioParamsGet fuel i.checksumBuff messageNum i.buff i.out) ↔
      Complete 9 (messageNum.setWidth 8) 8 B := by
  constructor
  · intro h
    refine fetch_complete (by decide) radioParams_format
      fun fuel checksumBuff checksumBuff' buff buff' r s => ?_
    exact h still silent silent_dry fuel ⟨checksumBuff, buff, radioParams []⟩
      ⟨checksumBuff', buff', radioParams []⟩ trivial r s
  · intro hB clock starve hdry fuel i j _ r s h hret
    exact fetch_agree (by decide) hdry hB h hret j.checksumBuff j.buff

end HostInterface.Ifc
