import HostInterface.Ifc.Wrappers

/-!
# The queries with a guard (`ll_ifc.c`)

The queries for the types and versions decode an answer only if it has all its bytes, the
time stamp is asked for with `hal_read_write_exact`, and the buffer for the interrupt flags is
cleared beforehand. None of them can show what the stack held, as the getters in
`Faithful` can, but for an answer that breaks off while its checksum is already in
`checksum_buff`.

`ll_get_assert_info` has the guard as well, but takes any answer that is not empty: with a
shorter one the line number and the file name are made of what was on the stack.
`guarded_faithful_iff` says to which streams each of them is faithful.
-/

namespace HostInterface.Ifc

open Interact Prog Reader

/-- A buffer of the length that is asked for. -/
theorem fits_exactly (len : U16) : len.toNat ≤ len.toNat := Nat.le_refl _

section Functions

variable {β : Type} (fuel : Nat) (checksumBuff : List U8) (messageNum : U32)

/-- A query, and what is made of its result and its buffer. -/
def queryThen (op : U8) (sent : Sent) {len : U16} (buff : Local len.toNat)
    (finish : Int → List U8 → Int × β) : IfcM ((Int × β) × U32) := do
  let r ← halReadWrite fuel checksumBuff messageNum (query op sent len buff (fits_exactly len))
  return (finish r.1.1 (r.1.2.getD []), r.2)

/-- A query whose answer is decoded if it has all its bytes. -/
def guarded (op : U8) {len : U16} (decode : List U8 → β) (buff : Local len.toNat)
    (out : Option β) : IfcM ((Int × Option β) × U32) :=
  match out with
  | none => .done ((errorIncorrectParameter, none), messageNum)
  | some old => queryThen fuel checksumBuff messageNum op .nothing buff fun ret buff =>
      (ret, some (if ret = len.toNat then decode buff else old))

/-! ## Types and versions -/

/-- `ll_firmware_type_t`. -/
structure FirmwareType where
  cpuCode : U16
  functionalityCode : U16

/-- `ll_version_t`. -/
structure Version where
  major : U8
  minor : U8
  tag : U16

/-- `buf[i] << 8 | buf[i + 1]`. -/
def bytePair (buf : List U8) (i : Nat) : U16 :=
  (buf.getD i 0).setWidth 16 <<< 8 ||| (buf.getD (i + 1) 0).setWidth 16

/-- `ll_firmware_type_get`. -/
def llFirmwareTypeGet (buf : Local (4 : U16).toNat) (t : Option FirmwareType) :
    IfcM ((Int × Option FirmwareType) × U32) :=
  guarded fuel checksumBuff messageNum 255 (fun buf => ⟨bytePair buf 0, bytePair buf 2⟩) buf t

/-- `ll_hardware_type_get`. -/
def llHardwareTypeGet (type : Local (1 : U16).toNat) (t : Option U32) :
    IfcM ((Int × Option U32) × U32) :=
  guarded fuel checksumBuff messageNum 254 (fun type => (type.getD 0 0).setWidth 32) type t

/-- The decoding of the two versions. -/
def version (buf : List U8) : Version :=
  ⟨buf.getD 0 0, buf.getD 1 0, bytePair buf 2⟩

/-- `ll_interface_version_get`. -/
def llInterfaceVersionGet (buf : Local (4 : U16).toNat) (v : Option Version) :
    IfcM ((Int × Option Version) × U32) :=
  guarded fuel checksumBuff messageNum 1 version buf v

/-- `ll_version_get`. -/
def llVersionGet (buf : Local (4 : U16).toNat) (v : Option Version) :
    IfcM ((Int × Option Version) × U32) :=
  guarded fuel checksumBuff messageNum 0 version buf v

/-! ## Interrupt flags -/

/-- The `in_buf` of `ll_irq_flags`. -/
def flagsBytes (flagsToClear : U32) : Local (4 : U16).toNat :=
  ⟨[((flagsToClear >>> 24) &&& 0xFF).setWidth 8, ((flagsToClear >>> 16) &&& 0xFF).setWidth 8,
    ((flagsToClear >>> 8) &&& 0xFF).setWidth 8, (flagsToClear &&& 0xFF).setWidth 8], rfl⟩

/-- `flags_temp`. -/
def flagsTemp (outBuf : List U8) : U32 :=
  let flagsTemp : U32 := 0
  let flagsTemp := flagsTemp ||| (outBuf.getD 0 0).setWidth 32 <<< 24
  let flagsTemp := flagsTemp ||| (outBuf.getD 1 0).setWidth 32 <<< 16
  let flagsTemp := flagsTemp ||| (outBuf.getD 2 0).setWidth 32 <<< 8
  flagsTemp ||| (outBuf.getD 3 0).setWidth 32

/-- `ll_irq_flags`, which does not test its pointer. -/
def llIrqFlags (flagsToClear flags : U32) : IfcM ((Int × U32) × U32) :=
  queryThen fuel checksumBuff messageNum 15 (.all (flagsBytes flagsToClear) four_bytes)
    (Local.fill (4 : U16).toNat 0) fun rwResponse outBuf =>
      (rwResponse, if rwResponse > 0 then flagsTemp outBuf else flags)

/-! ## The time stamp -/

/-- The `in_buf` of `ll_timestamp_set`. -/
def operationBytes (operation timestampUs : U32) : Local (5 : U16).toNat :=
  ⟨operation.setWidth 8 :: bytes32 .leftToRight timestampUs, rfl⟩

theorem five_bytes : (5 : U16) ≠ 0 := by decide

/-- The exchange of `ll_timestamp_set`. -/
def timestampQuery (operation timestampUs : U32) : Command :=
  query 131 (.all (operationBytes operation timestampUs) five_bytes) 4
    (Local.fill (4 : U16).toNat 0) (Nat.le_refl _)

/-- `ll_timestamp_set`. -/
def llTimestampSet (os : Orders) (operation timestampUs : U32) (actualTimestampUs : Option U32) :
    IfcM ((Int × Option U32) × U32) :=
  match actualTimestampUs with
  | none => .done ((errorIncorrectParameter, none), messageNum)
  | some old => do
    let ((rwResponse, outBuf), messageNum) ←
      halReadWriteExact fuel messageNum checksumBuff (timestampQuery operation timestampUs)
    if rwResponse ≥ 0 then
      let (x, _) ← ofOption ((readUint32 os).run (outBuf.getD []))
      return ((0, some x), messageNum)
    else return ((rwResponse, some old), messageNum)

/-- `ll_timestamp_get`, with `LL_TIMESTAMP_NO_OPERATION`. -/
def llTimestampGet (os : Orders) (timestampUs : Option U32) : IfcM ((Int × Option U32) × U32) :=
  llTimestampSet fuel checksumBuff messageNum os 0 0 timestampUs

/-! ## The assertion -/

/-- The `*line` of `ll_get_assert_info`. -/
def assertLine (tmpArr : List U8) : U32 :=
  let line : U32 := 0
  let line := line + (tmpArr.getD 0 0).setWidth 32 <<< 24
  let line := line + (tmpArr.getD 1 0).setWidth 32 <<< 16
  let line := line + (tmpArr.getD 2 0).setWidth 32 <<< 8
  line + (tmpArr.getD 3 0).setWidth 32 <<< 0

/-- The `cpy_len` of `ll_get_assert_info`. -/
def copyLen (filenameLen : U16) : Nat :=
  if filenameLen < 20 then filenameLen.toNat else 20

/-- What `ll_get_assert_info` makes of its answer. -/
def assertInfo (filename : List U8) (filenameLen : U16) (line : U32) (ret : Int)
    (tmpArr : List U8) : Int × List U8 × U32 :=
  if 0 < ret then
    (ret, (tmpArr.drop 4).take (copyLen filenameLen) ++ filename.drop (copyLen filenameLen),
      assertLine tmpArr)
  else (ret, filename, line)

/-- `ll_get_assert_info`, which does not test its pointers. -/
def llGetAssertInfo (tmpArr : Local (24 : U16).toNat) (filename : List U8) (filenameLen : U16)
    (line : U32) : IfcM ((Int × List U8 × U32) × U32) :=
  queryThen fuel checksumBuff messageNum 248 .nothing tmpArr
    (assertInfo filename filenameLen line)

end Functions

/-! ## Answers that break off -/

/-- The first header of the stream is that of an ACK of the command with `n` bytes, which fit, but
the stream ends before the payload and the checksum do. -/
def TornAt (op messageNum : U8) (len : U16) (n : Nat) (B : List U8) : Prop :=
  ∃ hd tail, Heads B hd tail ∧ hd.Answers op messageNum ∧ hd.len = n ∧ n ≤ len.toNat ∧
    tail.length < n + 2

section Query

variable {clock : Nat → Int × Time} {starve : Starve} {op : U8} {sent : Sent} {len : U16}
  {messageNum messageNum' : U32} {B : List U8} {s s' : Stream} {fuel : Nat}
  {checksumBuff : List U8}

theorem torn_iff {op messageNum : U8} :
    Torn op messageNum len B ↔ ∃ n, TornAt op messageNum len n B := by
  constructor
  · rintro ⟨hd, tail, hB, hanswers, hfit, hshort⟩
    exact ⟨hd.len, hd, tail, hB, hanswers, rfl, hfit, hshort⟩
  · rintro ⟨n, hd, tail, hB, hanswers, rfl, hfit, hshort⟩
    exact ⟨hd, tail, hB, hanswers, hfit, hshort⟩

theorem TornAt.unique {op messageNum : U8} {n n' : Nat} (h : TornAt op messageNum len n B)
    (h' : TornAt op messageNum len n' B) : n = n' := by
  obtain ⟨hd, tail, hB, -, rfl, -⟩ := h
  obtain ⟨hd', tail', hB', -, rfl, -⟩ := h'
  rw [(hB.unique hB').1]

/-- A torn answer that is a success is one of as many bytes as its header says. -/
theorem query_tornAt (hdry : Dry starve) (hpos : len ≠ 0) {size : Nat} {buff : Local size}
    {hs : len.toNat ≤ size} {r : Int × Option (List U8)}
    (h : Ends (stream clock starve)
      (halReadWrite fuel checksumBuff messageNum (query op sent len buff hs)) s (r, messageNum') s')
    (hret : 0 ≤ r.1) (htorn : Torn op (messageNum.setWidth 8) len s.rest) :
    ∃ n : Nat, r.1 = n ∧ TornAt op (messageNum.setWidth 8) len n s.rest := by
  obtain ⟨-, heard, hheard, rfl⟩ := (query_ends_iff hpos).mp h
  obtain ⟨hd, tail, hB, hanswers, hfit, hshort⟩ := htorn
  have htakes : hd.takes op (messageNum.setWidth 8) true = hd.len :=
    if_pos ⟨Header.error_eq_zero.mpr hanswers, rfl⟩
  cases listen_wlp hdry fuel s heard s' hheard with
  | @refused code _ _ hcode =>
    have hret : 0 ≤ code := hret
    omega
  | @whole hd' payload hi lo _ hB' _ hlen _ =>
    -- There would be bytes enough.
    obtain ⟨rfl, rfl⟩ := hB.unique hB'
    rw [List.length_append, List.length_cons, List.length_cons, hlen, htakes] at hshort
    omega
  | @cut hd' tail' payload sum _ hB' _ _ _ _ =>
    obtain ⟨rfl, rfl⟩ := hB.unique hB'
    rw [conclude_frame] at hret ⊢
    dsimp only at hret ⊢
    rw [concludeFrame_match (concludeFrame_nonneg.mp hret).2,
      if_pos (Header.error_eq_zero.mpr hanswers)]
    exact ⟨hd.len, rfl, hd, tail, hB, hanswers, rfl, hfit, hshort⟩

/-- The buffer does not get shorter. -/
theorem query_length (hpos : len ≠ 0) {size : Nat} {buff : Local size} {hs : len.toNat ≤ size}
    {r : Int × Option (List U8)}
    (h : Ends (stream clock starve)
      (halReadWrite fuel checksumBuff messageNum (query op sent len buff hs)) s (r, messageNum')
      s') : size ≤ (r.2.getD []).length := by
  obtain ⟨-, heard, -, rfl⟩ := (query_ends_iff hpos).mp h
  cases heard with
  | refused code => exact Nat.le_of_eq buff.length_eq.symm
  | frame headerBuf payload sum =>
    show size ≤ (payload ++ buff.bytes.drop payload.length).length
    rw [List.length_append, List.length_drop, buff.length_eq]
    omega

/-! ## One query -/

variable {β : Type} {finish : Int → List U8 → Int × β}

theorem queryThen_ends_iff {buff : Local len.toNat} {r : (Int × β) × U32} :
    Ends (stream clock starve) (queryThen fuel checksumBuff messageNum op sent buff finish) s r s' ↔
      ∃ ret messageNum', Ends (stream clock starve)
          (halReadWrite fuel checksumBuff messageNum (query op sent len buff (Nat.le_refl _))) s
          (ret, messageNum') s' ∧ r = (finish ret.1 (ret.2.getD []), messageNum') := by
  unfold queryThen
  rw [ends_bind]
  constructor
  · intro h
    obtain ⟨⟨ret, num⟩, s₁, h₁, h₂⟩ := h
    obtain ⟨rfl, rfl⟩ := ends_done.mp h₂
    exact ⟨ret, num, h₁, rfl⟩
  · rintro ⟨ret, num, h₁, rfl⟩
    exact ⟨(ret, num), s', h₁, .done _ _⟩

/-- What is made of an answer with the payload, in a buffer that held these bytes. -/
def made (finish : Int → List U8 → Int × β) (payload bytes : List U8) : Int × β :=
  finish payload.length (payload ++ bytes.drop payload.length)

/-- **What a query gives away.** Let an answer be accepted if it has one of the `accepts` lengths.
Then what is made of the query is the same for any memory exactly if no answer of such a length is
torn, and none that is there in whole is made something of that shows the memory. -/
theorem queryThen_faithful_iff (finish : Int → List U8 → Int × β) (hpos : len ≠ 0)
    (accepts : Nat → Prop)
    (hneg : ∀ ret bytes, ret < 0 → (finish ret bytes).1 < 0)
    (haccepts : ∀ (n : Nat) bytes, 0 ≤ (finish n bytes).1 ↔ accepts n) {M : Type}
    (mem : M → Local len.toNat) (m₀ : M) :
    Faithful B (·.1.1) (fun _ _ => True) (fun fuel (i : List U8 × M) =>
        queryThen fuel i.1 messageNum op sent (mem i.2) finish) ↔
      (∀ n, accepts n → ¬ TornAt op (messageNum.setWidth 8) len n B) ∧
        ∀ payload rest, Delivers op (messageNum.setWidth 8) len B payload rest →
          accepts payload.length → ∀ m m',
            made finish payload (mem m).bytes = made finish payload (mem m').bytes := by
  constructor
  · intro h
    refine ⟨fun n hn htornAt => ?_, fun payload rest hdelivers hn m m' => ?_⟩
    · -- With one `checksum_buff` it is a success, and with another it is not.
      have htorn := torn_iff.mpr ⟨n, htornAt⟩
      obtain ⟨k, looks, checksumBuff, checksumBuff', x, l, hx, -, hends⟩ :=
        @query_torn op len B len.toNat messageNum sent (Nat.le_refl _) hpos htorn 0 false (mem m₀)
      obtain ⟨hgood, hbad⟩ := hends k (Nat.le_refl k)
      obtain ⟨n', rfl, htornAt'⟩ := query_tornAt silent_dry hpos hgood hx htorn
      obtain rfl := htornAt.unique htornAt'
      have hpositive : 0 ≤ (finish n l).1 := (haccepts n l).mpr hn
      have hrun := h still silent silent_dry k (checksumBuff, m₀) (checksumBuff', m₀) trivial _ _
        (queryThen_ends_iff.mpr ⟨_, _, hgood, rfl⟩) hpositive
      have heq := hrun.unique (queryThen_ends_iff.mpr ⟨_, _, hbad, rfl⟩)
      have hresult : finish n l = finish errorChecksumMismatch l := congrArg Prod.fst heq.1
      rw [hresult] at hpositive
      exact absurd hpositive (Int.not_le.mpr (hneg _ _ (by decide)))
    · obtain ⟨k, looks, hends⟩ := @query_delivers op len B payload rest len.toNat messageNum sent
        (Nat.le_refl _) hpos hdelivers 0 false
      have hrun := h still silent silent_dry k ([], m) ([], m') trivial _ _
        (queryThen_ends_iff.mpr ⟨_, _, hends k (Nat.le_refl k) [] (mem m), rfl⟩)
        ((haccepts payload.length _).mpr hn)
      have heq := hrun.unique
        (queryThen_ends_iff.mpr ⟨_, _, hends k (Nat.le_refl k) [] (mem m'), rfl⟩)
      exact congrArg Prod.fst heq.1
  · rintro ⟨hwhole, hsame⟩ clock starve hdry fuel ⟨checksumBuff, m⟩ ⟨checksumBuff', m'⟩ - r s' hrun
      hret
    obtain ⟨ret, num, hends, rfl⟩ := queryThen_ends_iff.mp hrun
    have hpositive : 0 ≤ ret.1 :=
      Int.not_lt.mp fun hlt => absurd hret (Int.not_le.mpr (hneg _ _ hlt))
    rcases (query_agree hdry hpos hends hpositive).2 with
      ⟨payload, hdelivers, rfl, rfl, hall⟩ | ⟨htorn, -⟩
    · have hn : accepts payload.length := (haccepts _ _).mp hret
      refine queryThen_ends_iff.mpr ⟨_, _, hall checksumBuff' (mem m'), ?_⟩
      exact congrArg (·, messageNum + 1) (hsame payload s'.rest hdelivers hn m m')
    · obtain ⟨n, hn, htornAt⟩ := query_tornAt hdry hpos hends hpositive htorn
      dsimp only at hret
      rw [hn] at hret
      exact absurd htornAt (hwhole n ((haccepts n _).mp hret))

/-- Two functions that end in the same way are faithful to the same streams. -/
theorem Faithful.congr {ι ρ : Type} {ret : ρ → Int} {same : ι → ι → Prop}
    {run run' : Nat → ι → IfcM ρ}
    (h : ∀ clock starve fuel i s r s', Ends (stream clock starve) (run fuel i) s r s' ↔
      Ends (stream clock starve) (run' fuel i) s r s') :
    Faithful B ret same run ↔ Faithful B ret same run' := by
  constructor
  · intro hrun clock starve hdry fuel i j hij r s hends hret
    exact (h ..).mp (hrun clock starve hdry fuel i j hij r s ((h ..).mpr hends) hret)
  · intro hrun clock starve hdry fuel i j hij r s hends hret
    exact (h ..).mpr (hrun clock starve hdry fuel i j hij r s ((h ..).mp hends) hret)

/-- Without a stack of its own. -/
theorem faithful_alone {ρ : Type} {ret : ρ → Int} {run : Nat → List U8 → IfcM ρ} :
    Faithful B ret (fun _ _ => True) (fun fuel (i : List U8 × Unit) => run fuel i.1) ↔
      Faithful B ret (fun _ _ => True) run :=
  ⟨fun h clock starve hdry fuel i j _ => h clock starve hdry fuel (i, ()) (j, ()) trivial,
    fun h clock starve hdry fuel i j _ => h clock starve hdry fuel i.1 j.1 trivial⟩

/-- What is never refused, and never shows a stack, is faithful to any stream without a torn
answer. -/
theorem queryThen_hides_iff (finish : Int → List U8 → Int × β) (hpos : len ≠ 0)
    (hret : ∀ ret bytes, (finish ret bytes).1 = ret) {M : Type} (mem : M → Local len.toNat) (m₀ : M)
    (hsame : ∀ payload : List U8, payload.length ≤ len.toNat → ∀ m m',
      made finish payload (mem m).bytes = made finish payload (mem m').bytes) :
    Faithful B (·.1.1) (fun _ _ => True) (fun fuel (i : List U8 × M) =>
        queryThen fuel i.1 messageNum op sent (mem i.2) finish) ↔
      ¬ Torn op (messageNum.setWidth 8) len B := by
  refine (queryThen_faithful_iff finish hpos (fun _ => True) (fun ret bytes h => ?_)
    (fun n bytes => ?_) mem m₀).trans ?_
  · rw [hret]
    exact h
  · rw [hret]
    exact iff_of_true (Int.natCast_nonneg n) trivial
  · rw [torn_iff]
    constructor
    · rintro ⟨hwhole, -⟩ ⟨n, htorn⟩
      exact hwhole n trivial htorn
    · intro hwhole
      exact ⟨fun n _ htorn => hwhole ⟨n, htorn⟩,
        fun payload rest hdelivers _ => hsame payload hdelivers.1⟩

theorem guarded_hides_iff {decode : List U8 → β} (hpos : len ≠ 0) (out : Option β) :
    Faithful B (·.1.1) (fun _ _ => True) (fun fuel (i : List U8 × Local len.toNat) =>
        guarded fuel i.1 messageNum op decode i.2 out) ↔
      out.isNone = true ∨ ¬ Torn op (messageNum.setWidth 8) len B := by
  cases out with
  | none =>
    refine iff_of_true ?_ (.inl rfl)
    intro clock starve _ fuel i j _ r s h hret
    obtain ⟨rfl, -⟩ := ends_done.mp h
    exact absurd hret (show ¬ 0 ≤ errorIncorrectParameter by decide)
  | some old =>
    refine (queryThen_hides_iff
      (fun ret buff => (ret, some (if ret = len.toNat then decode buff else old))) hpos
      (fun _ _ => rfl) (fun buff => buff) (.fill len.toNat 0)
      fun payload hfit buff buff' => ?_).trans ?_
    · unfold made
      by_cases hfull : payload.length = len.toNat
      · rw [buff.drop_full hfull, buff'.drop_full hfull]
      · dsimp only
        rw [if_neg fun h => hfull (Int.ofNat_inj.mp h), if_neg fun h => hfull (Int.ofNat_inj.mp h)]
    · exact ⟨.inr, fun h => h.resolve_left Bool.false_ne_true⟩

end Query

/-! ## The time stamp -/

section Timestamp

variable {clock : Nat → Int × Time} {starve : Starve} {messageNum : U32} {B : List U8}

/-- What `ll_timestamp_set` makes of its exchange. -/
def timestampResult (os : Orders) (old : U32) (ret : Int) (outBuf : List U8) : Int × Option U32 :=
  if ret ≥ 0 then
    if ret ≠ 4 then (errorIncorrectResponseLength, some old)
    else (0, ((readUint32 os).run outBuf).map Prod.fst)
  else (ret, some old)

/-- What follows the exchange of `ll_timestamp_set`. -/
def afterTimestamp (os : Orders) (old : U32) (x : (Int × Option (List U8)) × U32) :
    IfcM ((Int × Option U32) × U32) :=
  if x.1.1 ≥ 0 then
    ofOption ((readUint32 os).run (x.1.2.getD [])) >>= fun y => pure ((0, some y.1), x.2)
  else pure ((x.1.1, some old), x.2)

theorem llTimestampSet_eq (fuel : Nat) (checksumBuff : List U8) (os : Orders)
    (operation timestampUs old : U32) :
    llTimestampSet fuel checksumBuff messageNum os operation timestampUs (some old) =
      halReadWrite fuel checksumBuff messageNum (timestampQuery operation timestampUs) >>= fun x =>
        (if x.1.1 ≥ 0 then
          if x.1.1 ≠ (timestampQuery operation timestampUs).outLen.toNat then
            pure ((errorIncorrectResponseLength, x.1.2), x.2)
          else pure ((0, x.1.2), x.2)
        else pure ((x.1.1, x.1.2), x.2)) >>= afterTimestamp os old := by
  unfold llTimestampSet halReadWriteExact
  dsimp only
  rw [bind_assoc]
  rfl

theorem timestampSet_ends_iff {os : Orders} {operation timestampUs old : U32} {fuel : Nat}
    {checksumBuff : List U8} {s s' : Stream} {r : (Int × Option U32) × U32} :
    Ends (stream clock starve)
        (llTimestampSet fuel checksumBuff messageNum os operation timestampUs (some old)) s r s' ↔
      Ends (stream clock starve) (queryThen fuel checksumBuff messageNum 131
        (.all (operationBytes operation timestampUs) five_bytes) (Local.fill (4 : U16).toNat 0)
        (timestampResult os old)) s r s' := by
  have hdecode : ∀ {ret : Int × Option (List U8)} {num : U32} {s₁ : Stream},
      Ends (stream clock starve) (halReadWrite fuel checksumBuff messageNum
        (timestampQuery operation timestampUs)) s (ret, num) s₁ →
      ∃ y, (readUint32 os).run (ret.2.getD []) = some y := by
    intro ret num s₁ hquery
    exact (readUint32_decodes os).total (query_length (by decide) hquery)
  -- Behind the query nothing is called.
  have hrest : ∀ (ret : Int) (outBuf : Option (List U8)) (num : U32),
      (∃ y, (readUint32 os).run (outBuf.getD []) = some y) →
      ((if ret ≥ 0 then
          if ret ≠ (timestampQuery operation timestampUs).outLen.toNat then
            (pure ((errorIncorrectResponseLength, outBuf), num) :
              IfcM ((Int × Option (List U8)) × U32))
          else pure ((0, outBuf), num)
        else pure ((ret, outBuf), num)) >>= afterTimestamp os old) =
      .done (timestampResult os old ret (outBuf.getD []), num) := by
    rintro ret outBuf num ⟨y, hy⟩
    have hlen : ((timestampQuery operation timestampUs).outLen.toNat : Int) = 4 := rfl
    unfold timestampResult
    rw [hlen]
    by_cases hpos : ret ≥ 0
    · by_cases hfour : ret = 4
      · rw [if_pos hpos, if_pos hpos, if_neg (not_not_intro hfour), if_neg (not_not_intro hfour), hy]
        show afterTimestamp os old ((0, outBuf), num) = _
        unfold afterTimestamp
        rw [if_pos (Int.le_refl 0), hy]
        rfl
      · rw [if_pos hpos, if_pos hpos, if_pos hfour, if_pos hfour]
        show afterTimestamp os old ((errorIncorrectResponseLength, outBuf), num) = _
        unfold afterTimestamp
        exact if_neg (show ¬ errorIncorrectResponseLength ≥ 0 by decide)
    · rw [if_neg hpos, if_neg hpos]
      exact if_neg hpos
  rw [queryThen_ends_iff, llTimestampSet_eq, ends_bind]
  constructor
  · intro h
    obtain ⟨⟨⟨ret, outBuf⟩, num⟩, s₁, hquery, h⟩ := h
    rw [hrest ret outBuf num (hdecode hquery)] at h
    obtain ⟨rfl, rfl⟩ := ends_done.mp h
    exact ⟨(ret, outBuf), num, hquery, rfl⟩
  · rintro ⟨⟨ret, outBuf⟩, num, hquery, rfl⟩
    refine ⟨((ret, outBuf), num), s', hquery, ?_⟩
    rw [hrest ret outBuf num (hdecode hquery)]
    exact .done _ _

theorem timestamp_faithful_iff (os : Orders) (operation timestampUs : U32) (out : Option U32) :
    Faithful B (·.1.1) (fun _ _ => True) (fun fuel checksumBuff =>
        llTimestampSet fuel checksumBuff messageNum os operation timestampUs out) ↔
      out.isNone = true ∨ ¬ TornAt 131 (messageNum.setWidth 8) 4 4 B := by
  cases out with
  | none =>
    refine iff_of_true ?_ (.inl rfl)
    intro clock starve _ fuel i j _ r s h hret
    obtain ⟨rfl, -⟩ := ends_done.mp h
    exact absurd hret (show ¬ 0 ≤ errorIncorrectParameter by decide)
  | some old =>
    have hneg : ∀ ret bytes, ret < 0 → (timestampResult os old ret bytes).1 < 0 := by
      intro ret bytes h
      unfold timestampResult
      rw [if_neg (Int.not_le.mpr h)]
      exact h
    have haccepts : ∀ (n : Nat) bytes, 0 ≤ (timestampResult os old n bytes).1 ↔ n = 4 := by
      intro n bytes
      unfold timestampResult
      rw [if_pos (Int.natCast_nonneg n)]
      by_cases h : (n : Int) = 4
      · rw [if_neg (not_not_intro h)]
        exact iff_of_true (Int.le_refl 0) (Int.ofNat_inj.mp h)
      · rw [if_pos h]
        exact iff_of_false (show ¬ 0 ≤ errorIncorrectResponseLength by decide)
          fun h' => h (congrArg Int.ofNat h')
    have hiff := @queryThen_faithful_iff 131 (.all (operationBytes operation timestampUs) five_bytes) 4
      messageNum B (Option U32) (timestampResult os old) four_bytes (fun n => n = 4) hneg haccepts Unit
      (fun _ => Local.fill (4 : U16).toNat 0) ()
    refine (Faithful.congr fun _ _ _ _ _ _ _ => timestampSet_ends_iff).trans
      (faithful_alone.symm.trans (hiff.trans ?_))
    constructor
    · exact fun h => .inr (h.1 4 rfl)
    · rintro (hno | hwhole)
      · exact absurd hno Bool.false_ne_true
      · refine ⟨fun n hn => ?_, fun _ _ _ _ _ _ => rfl⟩
        rw [hn]
        exact hwhole

end Timestamp

/-! ## The assertion -/

section Assert

variable {messageNum : U32} {B : List U8}

theorem copyLen_le (filenameLen : U16) : copyLen filenameLen ≤ 20 := by
  unfold copyLen
  split
  next h => exact Nat.le_of_lt (BitVec.lt_def.mp h)
  next => exact Nat.le_refl 20

theorem assertInfo_ret (filename : List U8) (filenameLen : U16) (line : U32) (ret : Int)
    (tmpArr : List U8) : (assertInfo filename filenameLen line ret tmpArr).1 = ret := by
  unfold assertInfo
  split
  next => rfl
  next => rfl

/-- What is behind a payload is what was there. -/
theorem filled_getElem? {payload : List U8} {size k : Nat} (hle : payload.length ≤ k) (hk : k < size)
    (x : U8) :
    (payload ++ (Local.fill size x).bytes.drop payload.length)[k]? = some x := by
  rw [List.getElem?_append_right hle, List.getElem?_drop]
  show (List.replicate size x)[_]? = _
  rw [List.getElem?_replicate, if_pos (by omega)]

/-- The last byte of the line number. -/
theorem assertLine_last (tmpArr : List U8) :
    (assertLine tmpArr).toNat % 256 = (tmpArr.getD 3 0).toNat := by
  unfold assertLine
  simp only [BitVec.toNat_add, BitVec.toNat_shiftLeft, BitVec.toNat_setWidth, Nat.shiftLeft_eq,
    show (0 : U32).toNat = 0 from rfl]
  have := (tmpArr.getD 3 0).isLt
  omega

/-- What is behind a payload that is too short shows. -/
theorem assertInfo_shows {payload filename : List U8} {filenameLen : U16} {line : U32}
    (hne : payload ≠ []) (hshort : payload.length < 4 + copyLen filenameLen)
    (hsame : made (assertInfo filename filenameLen line) payload (Local.fill 24 0).bytes =
      made (assertInfo filename filenameLen line) payload (Local.fill 24 1).bytes) : False := by
  have hcopy := copyLen_le filenameLen
  have hpos : (0 : Int) < payload.length := Int.natCast_pos.mpr (List.length_pos_iff.mpr hne)
  unfold made assertInfo at hsame
  rw [if_pos hpos, if_pos hpos] at hsame
  obtain ⟨hname, hline⟩ := Prod.mk.inj (Prod.mk.inj hsame).2
  by_cases hfour : payload.length < 4
  · -- The last byte of the line number.
    have hlast : ∀ x, (assertLine (payload ++ (Local.fill 24 x).bytes.drop payload.length)).toNat %
        256 = x.toNat := by
      intro x
      rw [assertLine_last, List.getD_eq_getElem?_getD,
        filled_getElem? (show payload.length ≤ 3 by omega) (by omega)]
      rfl
    have hzero := hlast 0
    rw [hline, hlast 1] at hzero
    exact absurd hzero (by decide)
  · -- The last byte of the name.
    have hlast : ∀ x, (((payload ++ (Local.fill 24 x).bytes.drop payload.length).drop 4).take
        (copyLen filenameLen) ++ filename.drop (copyLen filenameLen))[copyLen filenameLen - 1]? =
          some x := by
      intro x
      rw [List.getElem?_append_left (by
        rw [List.length_take, List.length_drop, List.length_append, List.length_drop,
          (Local.fill 24 x).length_eq]
        omega), List.getElem?_take_of_lt (by omega), List.getElem?_drop]
      exact filled_getElem? (by omega) (by omega) x
    have hzero := hlast 0
    rw [hname, hlast 1] at hzero
    exact absurd hzero (by decide)

/-- Nothing of what is behind a payload that is long enough is used. -/
theorem assertInfo_hides {payload : List U8} {filename : List U8} {filenameLen : U16} {line : U32}
    (h : payload = [] ∨ 4 + copyLen filenameLen ≤ payload.length) (bytes bytes' : List U8) :
    made (assertInfo filename filenameLen line) payload bytes =
      made (assertInfo filename filenameLen line) payload bytes' := by
  rcases h with rfl | hlong
  · rfl
  · have hfirst : ∀ rest k, k < 4 → (payload ++ rest).getD k 0 = payload.getD k 0 := by
      intro rest k hk
      rw [List.getD_eq_getElem?_getD, List.getD_eq_getElem?_getD,
        List.getElem?_append_left (by omega)]
    have hname : ∀ rest, ((payload ++ rest).drop 4).take (copyLen filenameLen) =
        (payload.drop 4).take (copyLen filenameLen) := by
      intro rest
      rw [List.drop_append_of_le_length (by omega),
        List.take_append_of_le_length (by rw [List.length_drop]; omega)]
    have hline : ∀ rest, assertLine (payload ++ rest) = assertLine payload := by
      intro rest
      unfold assertLine
      rw [hfirst rest 0 (by decide), hfirst rest 1 (by decide), hfirst rest 2 (by decide),
        hfirst rest 3 (by decide)]
    unfold made assertInfo
    rw [hname, hname, hline, hline]

theorem assertInfo_faithful_iff (filename : List U8) (filenameLen : U16) (line : U32) :
    Faithful B (·.1.1) (fun _ _ => True) (fun fuel (i : List U8 × Local (24 : U16).toNat) =>
        llGetAssertInfo fuel i.1 messageNum i.2 filename filenameLen line) ↔
      ¬ Torn 248 (messageNum.setWidth 8) 24 B ∧
        ∀ payload rest, Delivers 248 (messageNum.setWidth 8) 24 B payload rest →
          payload = [] ∨ 4 + copyLen filenameLen ≤ payload.length := by
  refine (queryThen_faithful_iff (assertInfo filename filenameLen line) (by decide) (fun _ => True)
    (fun ret bytes h => ?_) (fun n bytes => ?_) (fun buff => buff)
    (.fill (24 : U16).toNat 0)).trans ?_
  · rw [assertInfo_ret]
    exact h
  · rw [assertInfo_ret]
    exact iff_of_true (Int.natCast_nonneg n) trivial
  · rw [torn_iff]
    constructor
    · rintro ⟨hwhole, hsame⟩
      refine ⟨fun ⟨n, htorn⟩ => hwhole n trivial htorn, fun payload rest hdelivers => ?_⟩
      by_contra hshort
      rw [not_or, Nat.not_le] at hshort
      exact assertInfo_shows hshort.1 hshort.2
        (hsame payload rest hdelivers trivial (.fill 24 0) (.fill 24 1))
    · rintro ⟨hwhole, hlong⟩
      exact ⟨fun n _ htorn => hwhole ⟨n, htorn⟩, fun payload rest hdelivers _ m m' =>
        assertInfo_hides (hlong payload rest hdelivers) m.bytes m'.bytes⟩

end Assert

/-! ## All of them -/

/-- **What the streams are like to which the guarded queries are faithful.** The result and what the
caller's variables hold afterwards do not depend on the stack, unless an answer is torn, and for
`ll_get_assert_info` unless an answer ends before what is copied of it does. -/
theorem guarded_faithful_iff (os : Orders) (messageNum : U32) (B : List U8)
    (t : Option FirmwareType) (hardware : Option U32) (v : Option Version)
    (flagsToClear flags operation timestampUs : U32) (actualTimestampUs : Option U32)
    (filename : List U8) (filenameLen : U16) (line : U32) :
    (Faithful B (·.1.1) (fun _ _ => True) (fun fuel (i : List U8 × Local (4 : U16).toNat) =>
        llFirmwareTypeGet fuel i.1 messageNum i.2 t) ↔
      t.isNone = true ∨ ¬ Torn 255 (messageNum.setWidth 8) 4 B) ∧
    (Faithful B (·.1.1) (fun _ _ => True) (fun fuel (i : List U8 × Local (1 : U16).toNat) =>
        llHardwareTypeGet fuel i.1 messageNum i.2 hardware) ↔
      hardware.isNone = true ∨ ¬ Torn 254 (messageNum.setWidth 8) 1 B) ∧
    (Faithful B (·.1.1) (fun _ _ => True) (fun fuel (i : List U8 × Local (4 : U16).toNat) =>
        llInterfaceVersionGet fuel i.1 messageNum i.2 v) ↔
      v.isNone = true ∨ ¬ Torn 1 (messageNum.setWidth 8) 4 B) ∧
    (Faithful B (·.1.1) (fun _ _ => True) (fun fuel (i : List U8 × Local (4 : U16).toNat) =>
        llVersionGet fuel i.1 messageNum i.2 v) ↔
      v.isNone = true ∨ ¬ Torn 0 (messageNum.setWidth 8) 4 B) ∧
    (Faithful B (·.1.1) (fun _ _ => True) (fun fuel checksumBuff =>
        llIrqFlags fuel checksumBuff messageNum flagsToClear flags) ↔
      ¬ Torn 15 (messageNum.setWidth 8) 4 B) ∧
    (Faithful B (·.1.1) (fun _ _ => True) (fun fuel checksumBuff =>
        llTimestampSet fuel checksumBuff messageNum os operation timestampUs actualTimestampUs) ↔
      actualTimestampUs.isNone = true ∨ ¬ TornAt 131 (messageNum.setWidth 8) 4 4 B) ∧
    (Faithful B (·.1.1) (fun _ _ => True) (fun fuel (i : List U8 × Local (24 : U16).toNat) =>
        llGetAssertInfo fuel i.1 messageNum i.2 filename filenameLen line) ↔
      ¬ Torn 248 (messageNum.setWidth 8) 24 B ∧
        ∀ payload rest, Delivers 248 (messageNum.setWidth 8) 24 B payload rest →
          payload = [] ∨ 4 + copyLen filenameLen ≤ payload.length) :=
  ⟨guarded_hides_iff four_bytes t, guarded_hides_iff one_byte hardware,
    guarded_hides_iff four_bytes v, guarded_hides_iff four_bytes v,
    faithful_alone.symm.trans (queryThen_hides_iff _ four_bytes (fun _ _ => rfl)
      (fun _ => Local.fill (4 : U16).toNat 0) () fun _ _ _ _ => rfl),
    timestamp_faithful_iff os operation timestampUs actualTimestampUs,
    assertInfo_faithful_iff filename filenameLen line⟩

end HostInterface.Ifc
