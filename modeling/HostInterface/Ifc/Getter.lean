import HostInterface.Ifc.Listen
import HostInterface.Ifc.Struct

/-!
# Queries (`ll_ifc.c`, `ll_ifc_symphony.c`, `ll_ifc_no_mac.c`)

A getter asks the module with an opcode and without a payload, lets `hal_read_write`
store the answer in a buffer on its stack, and decodes the buffer into the caller's
variables. The decoding is done whatever `hal_read_write` has returned.

What the stack and the caller's variables hold on entry is an argument: the buffer as a
`Local`, and `none` for a `NULL` pointer. `ll_radio_params_get` does not look at its
pointers; it is modelled for pointers that can be written through. The downlink mode of
`ll_config_get` is an enumeration, of which one byte is stored; how many bytes it has is
left to the compiler.
-/

namespace HostInterface.Ifc

open Interact Prog

/-- Memory of `size` bytes, whatever it holds. -/
structure Local (size : Nat) where
  bytes : List U8
  length_eq : bytes.length = size

/-- The payload of a command: none, or as many bytes as its length says. -/
structure Sent where
  buf : Option (List U8)
  len : U16
  fits : ∀ b, buf = some b → len.toNat ≤ b.length
  valid : badBuffer buf len = false

theorem nothing_fits (b : List U8) (h : none = some b) : (0 : U16).toNat ≤ b.length :=
  absurd h.symm (Option.some_ne_none b)

theorem nothing_valid : badBuffer none 0 = false := rfl

def Sent.nothing : Sent :=
  ⟨none, 0, nothing_fits, nothing_valid⟩

theorem badBuffer_eq_false {buf : Option (List U8)} {len : U16}
    (h : ¬ (buf.isNone = true ∨ len = 0)) : badBuffer buf len = false := by
  cases buf with
  | none => exact absurd (.inl rfl) h
  | some b => exact (Bool.or_false _).trans (decide_eq_false fun hlen => h (.inr hlen))

/-- A command that asks for at most `len` bytes. -/
def query (op : U8) (sent : Sent) (len : U16) {size : Nat} (buff : Local size)
    (h : len.toNat ≤ size) : Command :=
  ⟨op, sent.buf, sent.len, some buff.bytes, len, sent.fits, fun b hb => by
    cases hb
    rw [buff.length_eq]
    exact h⟩

section Getters

variable {α : Type} (fuel : Nat) (checksumBuff : List U8) (messageNum : U32)

/-- Ask for `size` bytes, and decode what the buffer then holds. -/
def fetch (op : U8) {size : U16} (decode : List U8 → Option α) (buff : Local size.toNat) :
    IfcM ((Int × Option α) × U32) := do
  let ((ret, buff), messageNum) ←
    halReadWrite fuel checksumBuff messageNum (query op .nothing size buff (Nat.le_refl _))
  let value ← ofOption (decode (buff.getD []))
  return ((ret, some value), messageNum)

/-- A getter: `fetch`, unless the pointer is `NULL`. -/
def getter (op : U8) {size : U16} (decode : List U8 → Option α) (buff : Local size.toNat)
    (out : Option α) : IfcM ((Int × Option α) × U32) :=
  if out.isNone then .done ((errorIncorrectParameter, out), messageNum)
  else fetch fuel checksumBuff messageNum op decode buff

/-! ## Getters of one value -/

/-- The four stores of `ll_net_token_get` through its pointer. -/
def netToken (buff : List U8) : U32 :=
  let netToken := 0
  let netToken := netToken ||| (buff.getD 0 0).setWidth 32 <<< 24
  let netToken := netToken ||| (buff.getD 1 0).setWidth 32 <<< 16
  let netToken := netToken ||| (buff.getD 2 0).setWidth 32 <<< 8
  netToken ||| (buff.getD 3 0).setWidth 32

/-- `ll_net_token_get`. -/
def llNetTokenGet (buff : Local (4 : U16).toNat) (pNetToken : Option U32) :
    IfcM ((Int × Option U32) × U32) :=
  getter fuel checksumBuff messageNum 117 (fun buff => some (netToken buff)) buff pNetToken

/-- The loop of `ll_unique_id_get`. -/
def uniqueId (buff : List U8) : U64 :=
  (List.range 8).foldl (fun id i => id ||| (buff.getD i 0).setWidth 64 <<< (8 * (7 - i))) 0

/-- `ll_unique_id_get`. -/
def llUniqueIdGet (buff : Local (8 : U16).toNat) (uniqueId' : Option U64) :
    IfcM ((Int × Option U64) × U32) :=
  getter fuel checksumBuff messageNum 50 (fun buff => some (uniqueId buff)) buff uniqueId'

/-- `ll_mac_mode_get`. -/
def llMacModeGet (u8MacMode : Local (1 : U16).toNat) (macMode : Option U32) :
    IfcM ((Int × Option U32) × U32) :=
  getter fuel checksumBuff messageNum 71 (fun buff => some ((buff.getD 0 0).setWidth 32)) u8MacMode
    macMode

/-- `ll_connection_filter_get`. -/
def llConnectionFilterGet (f : Local (1 : U16).toNat) (pF : Option U8) :
    IfcM ((Int × Option U8) × U32) :=
  getter fuel checksumBuff messageNum 94 (fun buff => some (buff.getD 0 0)) f pF

/-! ## Getters of records -/

/-- `ll_net_info_get`. -/
def llNetInfoGet (os : Orders) (buff : Local (30 : U16).toNat) (pNetInfo : Option NetworkInfo) :
    IfcM ((Int × Option NetworkInfo) × U32) :=
  getter fuel checksumBuff messageNum 118 (fun buff => (llNetInfoDeserialize os buff).map Prod.fst)
    buff pNetInfo

/-- `ll_stats_get`. -/
def llStatsGet (os : Orders) (buff : Local (40 : U16).toNat) (s : Option Stats) :
    IfcM ((Int × Option Stats) × U32) :=
  getter fuel checksumBuff messageNum 119 (fun buff => (llStatsDeserialize os buff).map Prod.fst)
    buff s

/-- `ll_dl_band_cfg_get`. -/
def llDlBandCfgGet (os : Orders) (buff : Local (14 : U16).toNat) (p : Option DlBandCfg) :
    IfcM ((Int × Option DlBandCfg) × U32) :=
  getter fuel checksumBuff messageNum 122
    (fun buff => (llDlBandCfgDeserialize os buff).map Prod.fst) buff p

/-- `ll_system_time_get`. -/
def llSystemTimeGet (os : Orders) (buff : Local (13 : U16).toNat) (timeInfo : Option TimeInfo) :
    IfcM ((Int × Option TimeInfo) × U32) :=
  getter fuel checksumBuff messageNum 108 (fun buff => (llTimeDeserialize os buff).map Prod.fst)
    buff timeInfo

/-! ## Radio parameters -/

/-- What `ll_radio_params_get` stores through its eight pointers. -/
structure RadioParams where
  sf : U8
  cr : U8
  bw : U8
  freq : U32
  preambleSyms : U16
  headerEnabled : U8
  crcEnabled : U8
  iqInverted : U8

/-- The decoding of `ll_radio_params_get`. -/
def radioParams (buff : List U8) : RadioParams where
  sf := (buff.getD 0 0 >>> 4) + 6
  cr := ((buff.getD 0 0 >>> 2) &&& 0x03) + 1
  bw := buff.getD 0 0 &&& 0x03
  headerEnabled := buff.getD 1 0 &&& (1 <<< 0)
  crcEnabled := buff.getD 1 0 &&& (1 <<< 1)
  iqInverted := buff.getD 1 0 &&& (1 <<< 2)
  preambleSyms := ((buff.getD 2 0).setWidth 16 <<< 8) ||| (buff.getD 3 0).setWidth 16
  freq :=
    let freq := (buff.getD 4 0).setWidth 32 <<< 24
    let freq := freq ||| (buff.getD 5 0).setWidth 32 <<< 16
    let freq := freq ||| (buff.getD 6 0).setWidth 32 <<< 8
    freq ||| (buff.getD 7 0).setWidth 32

/-- `ll_radio_params_get`, which does not test its pointers. -/
def llRadioParamsGet (buff : Local (8 : U16).toNat) (_out : RadioParams) :
    IfcM ((Int × Option RadioParams) × U32) :=
  fetch fuel checksumBuff messageNum 9 (fun buff => some (radioParams buff)) buff

/-! ## Sending a packet -/

/-- A cast to `int8_t`. -/
def int8 (x : Int) : Int :=
  (BitVec.ofInt 8 x).toInt

/-- `ll_packet_send_queue`. -/
def llPacketSendQueue (cmdResponse : Local (1 : U16).toNat) (buf : Option (List U8)) (len : U16)
    (hfits : ∀ b, buf = some b → len.toNat ≤ b.length) : IfcM (Int × U32) :=
  if h : buf.isNone ∨ len = 0 then .done (errorIncorrectParameter, messageNum)
  else do
    let sent : Sent := ⟨buf, len, hfits, badBuffer_eq_false h⟩
    let ((rwResponse, cmdResponse), messageNum) ←
      halReadWrite fuel checksumBuff messageNum (query 11 sent 1 cmdResponse (Nat.le_refl _))
    if rwResponse < 0 then return (int8 rwResponse, messageNum)
    else return ((((cmdResponse.getD []).getD 0 0).toNat : Int), messageNum)

/-! ## The configuration -/

/-- The getters that let `hal_read_write` store into the caller's memory. -/
def readInto (op : U8) (len : U16) {size : Nat} (h : len.toNat ≤ size) (out : Option (Local size)) :
    IfcM ((Int × Option (List U8)) × U32) :=
  match out with
  | none => .done ((errorIncorrectParameter, none), messageNum)
  | some out => halReadWrite fuel checksumBuff messageNum (query op .nothing len out h)

/-- `ll_app_token_get`. -/
def llAppTokenGet (appToken : Option (Local 10)) : IfcM ((Int × Option (List U8)) × U32) :=
  readInto fuel checksumBuff messageNum 125 10 (Nat.le_refl 10) appToken

/-- `ll_receive_mode_get`, whose byte is the first of an object of `size` bytes. -/
def llReceiveModeGet {size : Nat} (h : 1 ≤ size) (rxMode : Option (Local size)) :
    IfcM ((Int × Option (List U8)) × U32) :=
  readInto fuel checksumBuff messageNum 111 1 h rxMode

/-- `ll_qos_get`. -/
def llQosGet (qos : Option (Local 1)) : IfcM ((Int × Option (List U8)) × U32) :=
  readInto fuel checksumBuff messageNum 113 1 (Nat.le_refl 1) qos

end Getters

/-- The four variables of the caller of `ll_config_get`; the downlink mode has `size` bytes. -/
structure ConfigVars (size : Nat) where
  netToken : Option U32
  appToken : Option (Local 10)
  dlMode : Option (Local size)
  qos : Option (Local 1)

/-- What `ll_config_get` leaves in them. -/
structure Config where
  netToken : Option U32
  appToken : Option (List U8)
  dlMode : Option (List U8)
  qos : Option (List U8)

/-- The four variables as they are. -/
def ConfigVars.config {size : Nat} (v : ConfigVars size) : Config :=
  ⟨v.netToken, v.appToken.map (·.bytes), v.dlMode.map (·.bytes), v.qos.map (·.bytes)⟩

/-- `ll_config_get`; `checksumBuff i` is what the `i`th exchange finds in its `checksum_buff`. -/
def llConfigGet (fuel : Nat) (checksumBuff : Nat → List U8) (messageNum : U32)
    (buff : Local (4 : U16).toNat) {size : Nat} (h : 1 ≤ size) (v : ConfigVars size) :
    IfcM ((Int × Config) × U32) := do
  let ((ret, netToken), messageNum) ←
    llNetTokenGet fuel (checksumBuff 0) messageNum buff v.netToken
  let out := { v.config with netToken }
  if 0 > ret then return ((ret, out), messageNum)
  let ((ret, appToken), messageNum) ← llAppTokenGet fuel (checksumBuff 1) messageNum v.appToken
  let out := { out with appToken }
  if 0 > ret then return ((ret, out), messageNum)
  let ((ret, dlMode), messageNum) ← llReceiveModeGet fuel (checksumBuff 2) messageNum h v.dlMode
  let out := { out with dlMode }
  if 0 > ret then return ((ret, out), messageNum)
  let ((ret, qos), messageNum) ← llQosGet fuel (checksumBuff 3) messageNum v.qos
  let out := { out with qos }
  if 0 > ret then return ((ret, out), messageNum)
  return ((ret, out), messageNum)

end HostInterface.Ifc
