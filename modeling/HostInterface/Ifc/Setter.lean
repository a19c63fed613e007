import HostInterface.Ifc.Getter

/-!
# Commands with a payload (`ll_ifc_symphony.c`, `ll_ifc_no_mac.c`)

A setter tests its argument, puts it into a buffer and lets `hal_read_write` send it; the
answer has no payload to store. `ll_radio_params_set` packs eight arguments into nine bytes, each
where its flag is set; `ll_config_set` calls four setters one after the other.

A downlink mode is an enumeration of 32 bits, of which `ll_config_set` passes the low
byte on.
-/

namespace HostInterface.Ifc

open Interact Prog

theorem local_fits {len : U16} (payload : Local len.toNat) (b : List U8)
    (h : some payload.bytes = some b) : len.toNat ≤ b.length := by
  cases h
  exact Nat.le_of_eq payload.length_eq.symm

theorem local_valid {len : U16} (payload : Local len.toNat) (h : len ≠ 0) :
    badBuffer (some payload.bytes) len = false :=
  (Bool.or_false _).trans (decide_eq_false h)

/-- All of a buffer. -/
def Sent.all {len : U16} (payload : Local len.toNat) (h : len ≠ 0) : Sent :=
  ⟨some payload.bytes, len, local_fits payload, local_valid payload h⟩

/-! The lengths of what is sent more than once. -/

theorem one_byte : (1 : U16) ≠ 0 := by decide

theorem four_bytes : (4 : U16) ≠ 0 := by decide

theorem ten_bytes : (10 : U16) ≠ 0 := by decide

/-- A command without room for an answer's payload. -/
def order (op : U8) (sent : Sent) : Command :=
  ⟨op, sent.buf, sent.len, none, 0, sent.fits, nothing_fits⟩

section Setters

variable (fuel : Nat) (checksumBuff : List U8) (messageNum : U32)

/-- Send a payload, and return what `hal_read_write` does. -/
def setter (op : U8) (sent : Sent) : IfcM (Int × U32) := do
  let ((ret, _), messageNum) ← halReadWrite fuel checksumBuff messageNum (order op sent)
  return (ret, messageNum)

/-! ## Radio parameters -/

abbrev radioParamFlagsSf : U8 := 1 <<< 0
abbrev radioParamFlagsCr : U8 := 1 <<< 1
abbrev radioParamFlagsBw : U8 := 1 <<< 2
abbrev radioParamFlagsFreq : U8 := 1 <<< 3
abbrev radioParamFlagsPreamble : U8 := 1 <<< 4
abbrev radioParamFlagsHeader : U8 := 1 <<< 5
abbrev radioParamFlagsCrc : U8 := 1 <<< 6
abbrev radioParamFlagsIq : U8 := 1 <<< 7

/-- The buffer `ll_radio_params_set` fills, unless it returns with an error. -/
def radioParamsBuf (flags sf cr bw : U8) (freq : U32) (preambleSyms : U16)
    (enableHeader enableCrc enableIqInversion : U8) : Option (Local (9 : U16).toNat) := do
  let buf1 : U8 := 0
  let buf1 ← (
    if flags &&& radioParamFlagsSf ≠ 0 then
      if sf < 6 ∨ sf > 12 then none
      else some (buf1 ||| (((sf - 6) &&& 0x07) <<< 4))
    else some buf1)
  let buf1 ← (
    if flags &&& radioParamFlagsCr ≠ 0 then
      if cr < 1 ∨ cr > 4 then none
      else some (buf1 ||| (((cr - 1) &&& 0x03) <<< 2))
    else some buf1)
  let buf1 ← (
    if flags &&& radioParamFlagsBw ≠ 0 then
      if bw > 3 then none
      else some (buf1 ||| (bw &&& 0x03))
    else some buf1)
  let buf2 : U8 := 0
  let buf2 :=
    if flags &&& radioParamFlagsHeader ≠ 0 ∧ enableHeader ≠ 0 then buf2 ||| (1 : U8) <<< 0
    else buf2
  let buf2 :=
    if flags &&& radioParamFlagsCrc ≠ 0 ∧ enableCrc ≠ 0 then buf2 ||| (1 : U8) <<< 1 else buf2
  let buf2 :=
    if flags &&& radioParamFlagsIq ≠ 0 ∧ enableIqInversion ≠ 0 then buf2 ||| (1 : U8) <<< 2
    else buf2
  let (buf3, buf4) : U8 × U8 :=
    if flags &&& radioParamFlagsPreamble ≠ 0 then
      ((preambleSyms >>> 8).setWidth 8, (preambleSyms >>> 0).setWidth 8)
    else (0, 0)
  let (buf5, buf6, buf7, buf8) : U8 × U8 × U8 × U8 :=
    if flags &&& radioParamFlagsFreq ≠ 0 then
      ((freq >>> 24).setWidth 8, (freq >>> 16).setWidth 8, (freq >>> 8).setWidth 8,
        freq.setWidth 8)
    else (0, 0, 0, 0)
  return ⟨[flags, buf1, buf2, buf3, buf4, buf5, buf6, buf7, buf8], rfl⟩

/-- `ll_radio_params_set`. -/
def llRadioParamsSet (flags sf cr bw : U8) (freq : U32) (preambleSyms : U16)
    (enableHeader enableCrc enableIqInversion : U8) : IfcM (Int × U32) :=
  match radioParamsBuf flags sf cr bw freq preambleSyms enableHeader enableCrc
    enableIqInversion with
  | none => .done (errorIncorrectParameter, messageNum)
  | some buf => setter fuel checksumBuff messageNum 10 (.all buf (by decide))

/-! ## The configuration -/

/-- The `buff` of `ll_net_token_set`. -/
def netTokenBuff (netToken : U32) : Local (4 : U16).toNat :=
  ⟨[(netToken >>> 24).setWidth 8, (netToken >>> 16).setWidth 8, (netToken >>> 8).setWidth 8,
    netToken.setWidth 8], rfl⟩

/-- A buffer of one byte. -/
def byteBuff (b : U8) : Local (1 : U16).toNat :=
  ⟨[b], rfl⟩

/-- `ll_net_token_set`. -/
def llNetTokenSet (netToken : U32) : IfcM (Int × U32) :=
  if netToken ≠ 0xFFFFFFFF then
    setter fuel checksumBuff messageNum 116 (.all (netTokenBuff netToken) four_bytes)
  else .done (errorIncorrectParameter, messageNum)

/-- `ll_app_token_set`, whose `len` is the one of `ll_config_set`'s token. -/
def llAppTokenSet (appToken : Option (Local (10 : U16).toNat)) (len : U8) : IfcM (Int × U32) :=
  match appToken with
  | none => .done (errorIncorrectParameter, messageNum)
  | some appToken =>
    if 10 ≠ len then .done (errorIncorrectParameter, messageNum)
    else setter fuel checksumBuff messageNum 124 (.all appToken ten_bytes)

/-- `NUM_DOWNLINK_MODES`. -/
abbrev numDownlinkModes : U8 := 4

/-- `ll_receive_mode_set`. -/
def llReceiveModeSet (rxMode : U8) : IfcM (Int × U32) :=
  if rxMode ≥ numDownlinkModes then .done (errorIncorrectParameter, messageNum)
  else setter fuel checksumBuff messageNum 110 (.all (byteBuff rxMode) one_byte)

/-- `ll_qos_request`. -/
def llQosRequest (qos : U8) : IfcM (Int × U32) :=
  if qos > 15 then .done (errorIncorrectParameter, messageNum)
  else setter fuel checksumBuff messageNum 112 (.all (byteBuff qos) one_byte)

end Setters

/-- `ll_config_set`; `checksumBuff i` is what the `i`th exchange finds in its `checksum_buff`. -/
def llConfigSet (fuel : Nat) (checksumBuff : Nat → List U8) (messageNum netToken : U32)
    (appToken : Option (Local (10 : U16).toNat)) (dlMode : U32) (qos : U8) :
    IfcM (Int × U32) := do
  let (ret, messageNum) ← llNetTokenSet fuel (checksumBuff 0) messageNum netToken
  if 0 > ret then return (ret, messageNum)
  let (ret, messageNum) ← llAppTokenSet fuel (checksumBuff 1) messageNum appToken 10
  if 0 > ret then return (ret, messageNum)
  let (ret, messageNum) ← llReceiveModeSet fuel (checksumBuff 2) messageNum (dlMode.setWidth 8)
  if 0 > ret then return (ret, messageNum)
  let (ret, messageNum) ← llQosRequest fuel (checksumBuff 3) messageNum qos
  if 0 > ret then return (ret, messageNum)
  return (ret, messageNum)

end HostInterface.Ifc
