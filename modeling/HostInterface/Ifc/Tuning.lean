import HostInterface.Ifc.Disclosure
import HostInterface.Ifc.Radio
import HostInterface.Ifc.Remote

/-!
# The radio parameters of the module

Each radio parameter has a function that sets it, which is `ll_radio_params_set` with one flag;
`ll_radio_params_get` asks for all of them. `tuner` is a module that takes over the flagged fields
of what it is sent, and `tuning` is what the functions are for: a record of the parameters, of
which each function changes its own.

No program that calls these functions can tell the one from the other (`tuning_ends_iff`). What
is read for a switch that is on is its bit, and not what it has been set to.
-/

namespace HostInterface.Ifc

open Interact Prog

section Functions

variable (fuel : Nat) (checksumBuff : List U8) (messageNum : U32)

/-- `ll_bandwidth_set`. -/
def llBandwidthSet (bandwidth : U8) : IfcM (Int × U32) :=
  llRadioParamsSet fuel checksumBuff messageNum radioParamFlagsBw 0 0 bandwidth 0 0 0 0 0

/-- `ll_spreading_factor_set`. -/
def llSpreadingFactorSet (sf : U8) : IfcM (Int × U32) :=
  llRadioParamsSet fuel checksumBuff messageNum radioParamFlagsSf sf 0 0 0 0 0 0 0

/-- `ll_coding_rate_set`. -/
def llCodingRateSet (codingRate : U8) : IfcM (Int × U32) :=
  llRadioParamsSet fuel checksumBuff messageNum radioParamFlagsCr 0 codingRate 0 0 0 0 0 0

/-- `ll_frequency_set`. -/
def llFrequencySet (freq : U32) : IfcM (Int × U32) :=
  llRadioParamsSet fuel checksumBuff messageNum radioParamFlagsFreq 0 0 0 freq 0 0 0 0

/-- `ll_preamble_syms_set`. -/
def llPreambleSymsSet (numSyms : U16) : IfcM (Int × U32) :=
  llRadioParamsSet fuel checksumBuff messageNum radioParamFlagsPreamble 0 0 0 0 numSyms 0 0 0

/-- `ll_header_enabled_set`. -/
def llHeaderEnabledSet (enabled : U8) : IfcM (Int × U32) :=
  llRadioParamsSet fuel checksumBuff messageNum radioParamFlagsHeader 0 0 0 0 0 enabled 0 0

/-- `ll_crc_enabled_set`. -/
def llCrcEnabledSet (enabled : U8) : IfcM (Int × U32) :=
  llRadioParamsSet fuel checksumBuff messageNum radioParamFlagsCrc 0 0 0 0 0 0 enabled 0

/-- `ll_iq_inversion_set`. -/
def llIqInversionSet (inverted : U8) : IfcM (Int × U32) :=
  llRadioParamsSet fuel checksumBuff messageNum radioParamFlagsIq 0 0 0 0 0 0 0 inverted

end Functions

/-! ## A module that takes over what is flagged -/

/-- The fields of `new` whose flags are set, and the others of `old`. -/
def RadioParams.merge (old : RadioParams) (flags : U8) (new : RadioParams) : RadioParams where
  sf := if flags &&& radioParamFlagsSf ≠ 0 then new.sf else old.sf
  cr := if flags &&& radioParamFlagsCr ≠ 0 then new.cr else old.cr
  bw := if flags &&& radioParamFlagsBw ≠ 0 then new.bw else old.bw
  freq := if flags &&& radioParamFlagsFreq ≠ 0 then new.freq else old.freq
  preambleSyms :=
    if flags &&& radioParamFlagsPreamble ≠ 0 then new.preambleSyms else old.preambleSyms
  headerEnabled :=
    if flags &&& radioParamFlagsHeader ≠ 0 then new.headerEnabled else old.headerEnabled
  crcEnabled := if flags &&& radioParamFlagsCrc ≠ 0 then new.crcEnabled else old.crcEnabled
  iqInverted := if flags &&& radioParamFlagsIq ≠ 0 then new.iqInverted else old.iqInverted

/-- The eight bytes that `ll_radio_params_get` decodes. -/
def RadioParams.bytes (p : RadioParams) : List U8 :=
  [fieldsByte 0xff p.sf p.cr p.bw,
    switchesByte (p.headerEnabled ≠ 0) (p.crcEnabled ≠ 0) (p.iqInverted ≠ 0),
    (p.preambleSyms >>> 8).setWidth 8, (p.preambleSyms >>> 0).setWidth 8,
    (p.freq >>> 24).setWidth 8, (p.freq >>> 16).setWidth 8, (p.freq >>> 8).setWidth 8,
    p.freq.setWidth 8]

theorem RadioParams.bytes_small (p : RadioParams) : p.bytes.length < 65536 :=
  show 8 < 65536 by decide

/-- The module. -/
def tuner : Server RadioParams := fun p op payload =>
  if op = 10 then
    if payload.length = 9 then
      (.done [] empty_small, p.merge (payload.getD 0 0) (radioParams (payload.drop 1)))
    else (.refused 3, p)
  else if op = 9 then (.done p.bytes p.bytes_small, p)
  else (.refused 1, p)

/-! ## What the functions are for -/

/-- A bit, where a switch is on. -/
def switchBit (on bit : U8) : U8 :=
  if on ≠ 0 then bit else 0

/-- A call of one of the functions, with its arguments. -/
inductive RadioCall where
  | paramsSet (flags sf cr bw : U8) (freq : U32) (preambleSyms : U16)
      (enableHeader enableCrc enableIqInversion : U8)
  | paramsGet (out : RadioParams)
  | bandwidthSet (bandwidth : U8)
  | spreadingFactorSet (sf : U8)
  | codingRateSet (codingRate : U8)
  | frequencySet (freq : U32)
  | preambleSymsSet (numSyms : U16)
  | headerEnabledSet (enabled : U8)
  | crcEnabledSet (enabled : U8)
  | iqInversionSet (inverted : U8)

abbrev RadioCall.Result : RadioCall → Type
  | paramsGet _ => Int × Option RadioParams
  | _ => Int

instance (flags sf cr bw : U8) : Decidable (RadioInRange flags sf cr bw) :=
  inferInstanceAs (Decidable (_ ∧ _ ∧ _))

/-- Parameters are stored, if they are in range. -/
def RadioParams.put (p : RadioParams) (ok : Prop) [Decidable ok] (p' : RadioParams) :
    Int × RadioParams :=
  if ok then (0, p') else (errorIncorrectParameter, p)

theorem RadioParams.put_congr {p p' : RadioParams} {ok ok' : Prop} [Decidable ok] [Decidable ok']
    (h : ok ↔ ok') : p.put ok p' = p.put ok' p' := by
  unfold RadioParams.put
  exact ite_congr (propext h) (fun _ => rfl) fun _ => rfl

/-- What a call does to the parameters. -/
def RadioParams.call (p : RadioParams) : (e : RadioCall) → e.Result × RadioParams
  | .paramsSet flags sf cr bw freq preambleSyms enableHeader enableCrc enableIqInversion =>
    p.put (RadioInRange flags sf cr bw)
      (p.merge flags ⟨sf, cr, bw, freq, preambleSyms, switchBit enableHeader 1,
        switchBit enableCrc 2, switchBit enableIqInversion 4⟩)
  | .paramsGet _ => ((8, some p), p)
  | .bandwidthSet bandwidth => p.put (bandwidth ≤ 3) { p with bw := bandwidth }
  | .spreadingFactorSet sf => p.put (6 ≤ sf ∧ sf ≤ 12) { p with sf }
  | .codingRateSet codingRate => p.put (1 ≤ codingRate ∧ codingRate ≤ 4) { p with cr := codingRate }
  | .frequencySet freq => p.put True { p with freq }
  | .preambleSymsSet numSyms => p.put True { p with preambleSyms := numSyms }
  | .headerEnabledSet enabled => p.put True { p with headerEnabled := switchBit enabled 1 }
  | .crcEnabledSet enabled => p.put True { p with crcEnabled := switchBit enabled 2 }
  | .iqInversionSet inverted => p.put True { p with iqInverted := switchBit inverted 4 }

/-- A call, and what its stack holds. -/
structure RadioEvent where
  call : RadioCall
  checksumBuff : List U8
  buff : Local (8 : U16).toNat

abbrev RadioReply (e : RadioEvent) : Type := e.call.Result

/-- The parameters, as the other side of the calls. -/
def tuning (e : RadioEvent) (p : RadioParams) : RadioReply e × RadioParams :=
  p.call e.call

/-- The function that is called. -/
def RadioCall.run (fuel : Nat) (checksumBuff : List U8) (buff : Local (8 : U16).toNat)
    (messageNum : U32) : (e : RadioCall) → IfcM (e.Result × U32)
  | .paramsSet flags sf cr bw freq preambleSyms enableHeader enableCrc enableIqInversion =>
    llRadioParamsSet fuel checksumBuff messageNum flags sf cr bw freq preambleSyms enableHeader
      enableCrc enableIqInversion
  | .paramsGet out => llRadioParamsGet fuel checksumBuff messageNum buff out
  | .bandwidthSet bandwidth => llBandwidthSet fuel checksumBuff messageNum bandwidth
  | .spreadingFactorSet sf => llSpreadingFactorSet fuel checksumBuff messageNum sf
  | .codingRateSet codingRate => llCodingRateSet fuel checksumBuff messageNum codingRate
  | .frequencySet freq => llFrequencySet fuel checksumBuff messageNum freq
  | .preambleSymsSet numSyms => llPreambleSymsSet fuel checksumBuff messageNum numSyms
  | .headerEnabledSet enabled => llHeaderEnabledSet fuel checksumBuff messageNum enabled
  | .crcEnabledSet enabled => llCrcEnabledSet fuel checksumBuff messageNum enabled
  | .iqInversionSet inverted => llIqInversionSet fuel checksumBuff messageNum inverted

/-- Parameters that have been set with these functions. -/
structure RadioParams.Settable (p : RadioParams) : Prop where
  inRange : RadioInRange 0xff p.sf p.cr p.bw
  header : p.headerEnabled = 0 ∨ p.headerEnabled = 1
  crc : p.crcEnabled = 0 ∨ p.crcEnabled = 2
  iq : p.iqInverted = 0 ∨ p.iqInverted = 4

/-- The module has the parameters, and nothing is on the line. -/
def Tuned (p : RadioParams) (messageNum : U32) (l : Link RadioParams) : Prop :=
  p.Settable ∧ Rests p messageNum l

/-! ## There and back -/

/-- A bit that is masked out is there or not. -/
theorem masked_bits : ∀ x : U8,
    ((x &&& (1 : U8) <<< 0) = 0 ∨ (x &&& (1 : U8) <<< 0) = 1) ∧
      ((x &&& (1 : U8) <<< 1) = 0 ∨ (x &&& (1 : U8) <<< 1) = 2) ∧
      ((x &&& (1 : U8) <<< 2) = 0 ∨ (x &&& (1 : U8) <<< 2) = 4) := by
  decide +kernel

theorem radioParams_switches (b : List U8) :
    ((radioParams b).headerEnabled = 0 ∨ (radioParams b).headerEnabled = 1) ∧
      ((radioParams b).crcEnabled = 0 ∨ (radioParams b).crcEnabled = 2) ∧
      ((radioParams b).iqInverted = 0 ∨ (radioParams b).iqInverted = 4) :=
  masked_bits (b.getD 1 0)

/-- A switch that is there where it is on is its bit. -/
theorem switchBit_eq {x on bit : U8} (hx : x = 0 ∨ x = bit) (h : x ≠ 0 ↔ on ≠ 0) :
    x = switchBit on bit := by
  unfold switchBit
  by_cases hon : on ≠ 0
  · rw [if_pos hon]
    exact hx.resolve_left (h.mpr hon)
  · rw [if_neg hon]
    by_contra hne
    exact hon (h.mp hne)

theorem switchBit_values (on bit : U8) : switchBit on bit = 0 ∨ switchBit on bit = bit := by
  unfold switchBit
  split
  next => exact .inr rfl
  next => exact .inl rfl

/-- Parameters that are the same one by one. -/
theorem RadioParams.eq_of {p q : RadioParams} (sf : p.sf = q.sf) (cr : p.cr = q.cr) (bw : p.bw = q.bw)
    (freq : p.freq = q.freq) (preambleSyms : p.preambleSyms = q.preambleSyms)
    (headerEnabled : p.headerEnabled = q.headerEnabled) (crcEnabled : p.crcEnabled = q.crcEnabled)
    (iqInverted : p.iqInverted = q.iqInverted) : p = q := by
  cases p
  cases q
  cases sf
  cases cr
  cases bw
  cases freq
  cases preambleSyms
  cases headerEnabled
  cases crcEnabled
  cases iqInverted
  rfl

/-- What is set is got. -/
theorem RadioParams.bytes_decoded {p : RadioParams} (h : p.Settable) : radioParams p.bytes = p := by
  obtain ⟨hsf, hcr, hbw⟩ := fieldsByte_fields h.inRange
  obtain ⟨hheader, hcrc, hiq⟩ := @switchesByte_switches (p.headerEnabled ≠ 0) (p.crcEnabled ≠ 0)
    (p.iqInverted ≠ 0) _ _ _
  obtain ⟨hbit₀, hbit₁, hbit₂⟩ := radioParams_switches p.bytes
  refine RadioParams.eq_of ?_ ?_ ?_ (bytes_joined32 p.freq) (bytes_joined16 p.preambleSyms) ?_ ?_ ?_
  · exact hsf.trans (if_pos (by decide))
  · exact hcr.trans (if_pos (by decide))
  · exact hbw.trans (if_pos (by decide))
  · exact (switchBit_eq hbit₀ hheader).trans (switchBit_eq h.header Iff.rfl).symm
  · exact (switchBit_eq hbit₁ hcrc).trans (switchBit_eq h.crc Iff.rfl).symm
  · exact (switchBit_eq hbit₂ hiq).trans (switchBit_eq h.iq Iff.rfl).symm

theorem flagged {α : Type} {F : Prop} [Decidable F] {x y z : α} (h : F → x = y) :
    (if F then x else z) = if F then y else z := by
  by_cases hF : F
  · rw [if_pos hF, if_pos hF]
    exact h hF
  · rw [if_neg hF, if_neg hF]

section Merge

variable {flags sf cr bw : U8} {freq : U32} {preambleSyms : U16}
  {enableHeader enableCrc enableIqInversion : U8} {p q : RadioParams}

/-- The module takes over what the host has been given. -/
theorem RadioParams.merge_decoded
    (h : RadioDecoded flags sf cr bw freq preambleSyms enableHeader enableCrc enableIqInversion q)
    (hheader : q.headerEnabled = 0 ∨ q.headerEnabled = 1) (hcrc : q.crcEnabled = 0 ∨ q.crcEnabled = 2)
    (hiq : q.iqInverted = 0 ∨ q.iqInverted = 4) :
    p.merge flags q = p.merge flags ⟨sf, cr, bw, freq, preambleSyms, switchBit enableHeader 1,
      switchBit enableCrc 2, switchBit enableIqInversion 4⟩ := by
  refine RadioParams.eq_of (flagged fun hF => ?_) (flagged fun hF => ?_) (flagged fun hF => ?_)
    (flagged fun hF => ?_) (flagged fun hF => ?_) (flagged fun hF => ?_) (flagged fun hF => ?_)
    (flagged fun hF => ?_)
  · exact h.sf.trans (if_pos hF)
  · exact h.cr.trans (if_pos hF)
  · exact h.bw.trans (if_pos hF)
  · exact h.freq.trans (if_pos hF)
  · exact h.preambleSyms.trans (if_pos hF)
  · exact switchBit_eq hheader (h.headerEnabled.trans (and_iff_right hF))
  · exact switchBit_eq hcrc (h.crcEnabled.trans (and_iff_right hF))
  · exact switchBit_eq hiq (h.iqInverted.trans (and_iff_right hF))

/-- In range, the parameters stay settable. -/
theorem RadioParams.Settable.merge (h : p.Settable) (hin : RadioInRange flags sf cr bw) :
    (p.merge flags ⟨sf, cr, bw, freq, preambleSyms, switchBit enableHeader 1,
      switchBit enableCrc 2, switchBit enableIqInversion 4⟩).Settable := by
  obtain ⟨⟨hsf, hcr, hbw⟩, hheader, hcrc, hiq⟩ := h
  unfold RadioParams.merge
  refine ⟨⟨fun hF => ?_, fun hF => ?_, fun hF => ?_⟩, ?_, ?_, ?_⟩
  · dsimp only
    split
    next h => exact hin.1 h
    next => exact hsf hF
  · dsimp only
    split
    next h => exact hin.2.1 h
    next => exact hcr hF
  · dsimp only
    split
    next h => exact hin.2.2 h
    next => exact hbw hF
  · dsimp only
    split
    next => exact switchBit_values _ _
    next => exact hheader
  · dsimp only
    split
    next => exact switchBit_values _ _
    next => exact hcrc
  · dsimp only
    split
    next => exact switchBit_values _ _
    next => exact hiq

end Merge

/-! ## The functions on the line -/

section Line

variable {clock : Nat → Int × Time} {starve : Starve} {fuel : Nat} {p : RadioParams}
  {messageNum : U32} {l : Link RadioParams} {checksumBuff : List U8} (hclock : Prompt clock)
  (hdry : Dry starve) (hfuel : 65540 ≤ fuel)
include hclock hdry hfuel

/-- `ll_radio_params_set` sets the flagged parameters. -/
theorem paramsSet_leaves (h : Tuned p messageNum l) (flags sf cr bw : U8) (freq : U32)
    (preambleSyms : U16) (enableHeader enableCrc enableIqInversion : U8) :
    let r := p.put (RadioInRange flags sf cr bw) (p.merge flags ⟨sf, cr, bw, freq, preambleSyms,
      switchBit enableHeader 1, switchBit enableCrc 2, switchBit enableIqInversion 4⟩)
    Leaves (remote tuner clock starve) Tuned
      (llRadioParamsSet fuel checksumBuff messageNum flags sf cr bw freq preambleSyms enableHeader
        enableCrc enableIqInversion) l r.1 r.2 := by
  dsimp only
  unfold llRadioParamsSet RadioParams.put
  by_cases hin : RadioInRange flags sf cr bw
  · obtain ⟨buf, hbuf, hbytes⟩ := @radioParamsBuf_some flags sf cr bw freq preambleSyms enableHeader
      enableCrc enableIqInversion hin
    have hdecoded := radioParams_decoded hin hbuf
    obtain ⟨hheader, hcrc, hiq⟩ := radioParams_switches (buf.bytes.drop 1)
    have hflags : buf.bytes.getD 0 0 = flags := by
      rw [hbytes]
      rfl
    have hserve : tuner p 10 buf.bytes = (.done [] empty_small,
        p.merge flags ⟨sf, cr, bw, freq, preambleSyms, switchBit enableHeader 1,
          switchBit enableCrc 2, switchBit enableIqInversion 4⟩) := by
      unfold tuner
      rw [if_pos rfl, hflags, RadioParams.merge_decoded hdecoded hheader hcrc hiq]
      exact if_pos buf.length_eq
    rw [hbuf, if_pos hin]
    exact (setter_leaves hclock hdry hfuel h.2 hserve).mono fun _ _ hl' => ⟨h.1.merge hin, hl'⟩
  · rw [radioParamsBuf_none hin, if_neg hin]
    exact .done h

/-- So does a function that sets one of them. -/
theorem oneSet_leaves (h : Tuned p messageNum l) (flags sf cr bw : U8) (freq : U32)
    (preambleSyms : U16) (enableHeader enableCrc enableIqInversion : U8) {ok : Prop} [Decidable ok]
    {p' : RadioParams} (hok : RadioInRange flags sf cr bw ↔ ok)
    (hp' : p.merge flags ⟨sf, cr, bw, freq, preambleSyms, switchBit enableHeader 1,
      switchBit enableCrc 2, switchBit enableIqInversion 4⟩ = p') :
    Leaves (remote tuner clock starve) Tuned
      (llRadioParamsSet fuel checksumBuff messageNum flags sf cr bw freq preambleSyms enableHeader
        enableCrc enableIqInversion) l (p.put ok p').1 (p.put ok p').2 := by
  have hset := @paramsSet_leaves clock starve fuel p messageNum l checksumBuff hclock hdry hfuel h
    flags sf cr bw freq preambleSyms enableHeader enableCrc enableIqInversion
  dsimp only at hset
  rw [RadioParams.put_congr hok, hp'] at hset
  exact hset

/-- One without a range is always set. -/
theorem freeSet_leaves (h : Tuned p messageNum l) (flags sf cr bw : U8) (freq : U32)
    (preambleSyms : U16) (enableHeader enableCrc enableIqInversion : U8) {p' : RadioParams}
    (hin : RadioInRange flags sf cr bw)
    (hp' : p.merge flags ⟨sf, cr, bw, freq, preambleSyms, switchBit enableHeader 1,
      switchBit enableCrc 2, switchBit enableIqInversion 4⟩ = p') :
    Leaves (remote tuner clock starve) Tuned
      (llRadioParamsSet fuel checksumBuff messageNum flags sf cr bw freq preambleSyms enableHeader
        enableCrc enableIqInversion) l (p.put True p').1 (p.put True p').2 :=
  oneSet_leaves hclock hdry hfuel h flags sf cr bw freq preambleSyms enableHeader enableCrc
    enableIqInversion (iff_of_true hin trivial) hp'

/-- The parameters are asked for. -/
theorem paramsGet_leaves (h : Tuned p messageNum l) (buff : Local (8 : U16).toNat)
    (out : RadioParams) :
    Leaves (remote tuner clock starve) Tuned (llRadioParamsGet fuel checksumBuff messageNum buff out)
      l (8, some p) p := by
  have hquery := @query_leaves RadioParams tuner clock starve fuel p p messageNum l checksumBuff
    hclock hdry hfuel h.2 9 8 _ buff (Nat.le_refl _) (by decide) p.bytes p.bytes_small rfl
    (Nat.le_refl 8)
  have hdrop : buff.bytes.drop p.bytes.length = [] :=
    List.drop_of_length_le (Nat.le_of_eq buff.length_eq)
  rw [hdrop, List.append_nil] at hquery
  refine (hquery.mono fun _ _ hl' => (⟨h.1, hl'⟩ : Tuned p _ _)).bind fun messageNum' l' hl' => ?_
  dsimp only
  rw [Option.getD_some, RadioParams.bytes_decoded h.1]
  exact .done hl'

/-- **The module keeps the parameters**, for every function. -/
theorem tuning_carry : Carries tuning (remote tuner clock starve) Tuned fun e messageNum =>
    e.call.run fuel e.checksumBuff e.buff messageNum := by
  rintro ⟨call, checksumBuff, buff⟩ p messageNum l h
  cases call with
  | paramsSet flags sf cr bw freq preambleSyms enableHeader enableCrc enableIqInversion =>
    exact paramsSet_leaves hclock hdry hfuel h flags sf cr bw freq preambleSyms enableHeader
      enableCrc enableIqInversion
  | paramsGet out => exact paramsGet_leaves hclock hdry hfuel h buff out
  | bandwidthSet bandwidth =>
    refine oneSet_leaves hclock hdry hfuel h radioParamFlagsBw 0 0 bandwidth 0 0 0 0 0
      ⟨fun hin => hin.2.2 (by decide), fun hok => ?_⟩ rfl
    exact ⟨fun hF => absurd hF (by decide), fun hF => absurd hF (by decide), fun _ => hok⟩
  | spreadingFactorSet sf =>
    refine oneSet_leaves hclock hdry hfuel h radioParamFlagsSf sf 0 0 0 0 0 0 0
      ⟨fun hin => hin.1 (by decide), fun hok => ?_⟩ rfl
    exact ⟨fun _ => hok, fun hF => absurd hF (by decide), fun hF => absurd hF (by decide)⟩
  | codingRateSet codingRate =>
    refine oneSet_leaves hclock hdry hfuel h radioParamFlagsCr 0 codingRate 0 0 0 0 0 0
      ⟨fun hin => hin.2.1 (by decide), fun hok => ?_⟩ rfl
    exact ⟨fun hF => absurd hF (by decide), fun _ => hok, fun hF => absurd hF (by decide)⟩
  | frequencySet freq =>
    exact freeSet_leaves hclock hdry hfuel h radioParamFlagsFreq 0 0 0 freq 0 0 0 0 (by decide) rfl
  | preambleSymsSet numSyms =>
    exact freeSet_leaves hclock hdry hfuel h radioParamFlagsPreamble 0 0 0 0 numSyms 0 0 0
      (by decide) rfl
  | headerEnabledSet enabled =>
    exact freeSet_leaves hclock hdry hfuel h radioParamFlagsHeader 0 0 0 0 0 enabled 0 0 (by decide) rfl
  | crcEnabledSet enabled =>
    exact freeSet_leaves hclock hdry hfuel h radioParamFlagsCrc 0 0 0 0 0 0 enabled 0 (by decide) rfl
  | iqInversionSet inverted =>
    exact freeSet_leaves hclock hdry hfuel h radioParamFlagsIq 0 0 0 0 0 0 0 inverted (by decide) rfl

end Line

/-- **Each function sets its own parameter.** With the module on the line, a program that calls the
functions ends with a result if and only if it does so with the parameters themselves on the other
side. -/
theorem tuning_ends_iff {clock : Nat → Int × Time} (hclock : Prompt clock) {starve : Starve}
    (hdry : Dry starve) {fuel : Nat} (hfuel : 65540 ≤ fuel) {α : Type} {p : Prog RadioReply α}
    {r : RadioParams} {messageNum : U32} {l : Link RadioParams} (h : Tuned r messageNum l) {a : α} :
    (∃ messageNum' l', Ends (remote tuner clock starve)
        (interpWith (fun e messageNum => e.call.run fuel e.checksumBuff e.buff messageNum) p
          messageNum) l (a, messageNum') l') ↔ ∃ r', Ends tuning p r a r' := by
  have hcarry := @tuning_carry clock starve fuel hclock hdry hfuel
  constructor
  · intro hline
    obtain ⟨messageNum', l', hends⟩ := hline
    obtain ⟨r', htuning, -⟩ := hcarry.ends_above h hends
    exact ⟨r', htuning⟩
  · intro htuning
    obtain ⟨r', hends⟩ := htuning
    obtain ⟨messageNum', l', hline, -⟩ := hcarry.ends h hends
    exact ⟨messageNum', l', hline⟩

/-- Some parameters. -/
def someParams : RadioParams :=
  ⟨7, 1, 3, 915000000, 8, 1, 2, 0⟩

theorem someParams_settable : someParams.Settable :=
  ⟨by decide, .inr rfl, .inr rfl, .inl rfl⟩

/-- A spreading factor that is too large, then one that is not; then they are asked for. -/
def retuned : Prog RadioReply (Int × Option RadioParams) :=
  .call ⟨.spreadingFactorSet 13, [0, 0], .fill _ 0xaa⟩ fun ret =>
    .call ⟨.iqInversionSet 9, [0, 0], .fill _ 0xaa⟩ fun _ =>
      .call ⟨.paramsGet someParams, [0, 0], .fill _ 0xaa⟩ fun r => .done (ret, r.2)

theorem tuning_ends_retuned :
    ∃ messageNum' l', Ends (remote tuner still silent)
      (interpWith (fun e messageNum => e.call.run 65540 e.checksumBuff e.buff messageNum) retuned 7)
      ⟨⟨[], 0, false⟩, [], [], someParams⟩
      ((-101, some ⟨7, 1, 3, 915000000, 8, 1, 2, 4⟩), messageNum') l' :=
  (tuning_ends_iff still_prompt silent_dry (Nat.le_refl _) (r := someParams)
    ⟨someParams_settable, [], rfl, rfl, rfl, rfl, rfl, rfl⟩).mpr ⟨_, _, rfl⟩

end HostInterface.Ifc
