import HostInterface.Ifc.Disclosure
import HostInterface.Ifc.Radio
import HostInterface.Ifc.Remote
import HostInterface.Ifc.Serialize

/-!
# The settings of the module

Most of the settings have a command that sets them and one that asks for them, with a function
for each; the configuration has one function for four of them. `registers` is a module that keeps,
for each setting, the bytes it has been sent last, and `store` is what the functions are for: a
record of the values themselves, with the ranges that a value must be in.

No program that calls these functions can tell the one from the other (`settings_ends_iff`).
So a setting reads as it has last been set, in every order of calls; a value that is out of range
changes nothing; and the functions do not get into each other's way.
-/

namespace HostInterface.Ifc

open Interact Prog

section Functions

variable (fuel : Nat) (checksumBuff : List U8) (messageNum : U32)

/-- `NUM_MACS`. -/
abbrev numMacs : U32 := 4

/-- `ll_mac_mode_set`. -/
def llMacModeSet (macMode : U32) : IfcM (Int × U32) :=
  if macMode ≥ numMacs then .done (errorIncorrectParameter, messageNum)
  else setter fuel checksumBuff messageNum 70 (.all (byteBuff (macMode.setWidth 8)) one_byte)

/-- `ll_antenna_set`. -/
def llAntennaSet (ant : U8) : IfcM (Int × U32) :=
  if ant = 1 ∨ ant = 2 then setter fuel checksumBuff messageNum 114 (.all (byteBuff ant) one_byte)
  else .done (errorIncorrectParameter, messageNum)

/-- `ll_antenna_get`. -/
def llAntennaGet (ant : Option (Local 1)) : IfcM ((Int × Option (List U8)) × U32) :=
  readInto fuel checksumBuff messageNum 115 1 one_fits ant

/-- `ll_connection_filter_set`. -/
def llConnectionFilterSet (f : U8) : IfcM (Int × U32) :=
  setter fuel checksumBuff messageNum 93 (.all (byteBuff f) one_byte)

/-- `ll_tx_power_set`, whose power is an `int8_t`. -/
def llTxPowerSet (pwr : U8) : IfcM (Int × U32) :=
  if pwr.toInt < -4 ∨ pwr.toInt > 26 then .done (errorIncorrectParameter, messageNum)
  else setter fuel checksumBuff messageNum 7 (.all (byteBuff pwr) one_byte)

/-- `ll_tx_power_get`. -/
def llTxPowerGet (pwr : Option (Local 1)) : IfcM ((Int × Option (List U8)) × U32) :=
  readInto fuel checksumBuff messageNum 12 1 one_fits pwr

/-- `ll_sync_word_set`. -/
def llSyncWordSet (syncWord : U8) : IfcM (Int × U32) :=
  setter fuel checksumBuff messageNum 13 (.all (byteBuff syncWord) one_byte)

/-- `ll_sync_word_get`. -/
def llSyncWordGet (syncWord : Option (Local 1)) : IfcM ((Int × Option (List U8)) × U32) :=
  readInto fuel checksumBuff messageNum 14 1 one_fits syncWord

theorem dlBandCfg_length (p : DlBandCfg) :
    (p.bytes .leftToRight).length = (14 : U16).toNat := rfl

theorem fourteen_bytes : (14 : U16) ≠ 0 := by decide

/-- The `buff` of `ll_dl_band_cfg_set`. -/
def dlBandCfgBuff (p : DlBandCfg) : Local (14 : U16).toNat :=
  ⟨p.bytes .leftToRight, dlBandCfg_length p⟩

/-- `ll_dl_band_cfg_set`. -/
def llDlBandCfgSet (p : Option DlBandCfg) : IfcM (Int × U32) :=
  match p with
  | none => .done (errorIncorrectParameter, messageNum)
  | some p => setter fuel checksumBuff messageNum 123 (.all (dlBandCfgBuff p) fourteen_bytes)

end Functions

/-- It is what `ll_dl_band_cfg_serialize` leaves in `buff`. -/
theorem dlBandCfgBuff_written (p : DlBandCfg) (buff : Local (14 : U16).toNat) :
    llDlBandCfgSerialize p buff.bytes = some (14, (dlBandCfgBuff p).bytes) := by
  obtain ⟨x, -, hread, hwritten⟩ :=
    llDlBandCfgSerialize_inverse.writtenBack (dlBandCfgBuff p).bytes (dlBandCfg_length p)
  have hback := (llDlBandCfgDeserialize_decodes .leftToRight).read_written (x := p) trivial []
  rw [List.append_nil] at hback
  obtain ⟨rfl, -⟩ := Prod.mk.inj (Option.some.inj (hread.symm.trans hback))
  exact hwritten buff.bytes buff.length_eq

/-! ## A module that keeps what it is sent -/

/-- What a setting is called by, and how many bytes its value has. -/
inductive Register where
  | netToken
  | appToken
  | rxMode
  | qos
  | macMode
  | antenna
  | connectionFilter
  | txPower
  | syncWord
  | dlBandCfg
deriving DecidableEq

namespace Register

def all : List Register :=
  [netToken, appToken, rxMode, qos, macMode, antenna, connectionFilter, txPower, syncWord, dlBandCfg]

def setOp : Register → U8
  | netToken => 116
  | appToken => 124
  | rxMode => 110
  | qos => 112
  | macMode => 70
  | antenna => 114
  | connectionFilter => 93
  | txPower => 7
  | syncWord => 13
  | dlBandCfg => 123

def getOp : Register → U8
  | netToken => 117
  | appToken => 125
  | rxMode => 111
  | qos => 113
  | macMode => 71
  | antenna => 115
  | connectionFilter => 94
  | txPower => 12
  | syncWord => 14
  | dlBandCfg => 122

def size : Register → Nat
  | netToken => 4
  | appToken => 10
  | dlBandCfg => 14
  | _ => 1

theorem size_small (r : Register) : r.size < 65536 := by
  cases r <;> decide

theorem found_set (r : Register) : all.find? (fun x => x.setOp = r.setOp) = some r := by
  cases r <;> rfl

theorem found_get (r : Register) : all.find? (fun x => x.getOp = r.getOp) = some r := by
  cases r <;> rfl

/-- No command sets one setting and asks for another. -/
theorem found_apart (r : Register) : all.find? (fun x => x.setOp = r.getOp) = none := by
  cases r <;> rfl

end Register

/-- The bytes of each setting. -/
abbrev Kept : Type := (r : Register) → Local r.size

theorem kept_small (m : Kept) (r : Register) : (m r).bytes.length < 65536 := by
  rw [(m r).length_eq]
  exact r.size_small

/-- The module. -/
def registers : Server Kept := fun m op payload =>
  match Register.all.find? (fun r => r.setOp = op) with
  | some r =>
    if h : payload.length = r.size then
      (.done [] empty_small, Function.update m r ⟨payload, h⟩)
    else (.refused 3, m)
  | none =>
    match Register.all.find? (fun r => r.getOp = op) with
    | some r =>
      if payload = [] then (.done (m r).bytes (kept_small m r), m) else (.refused 3, m)
    | none => (.refused 1, m)

theorem registers_set (m : Kept) (r : Register) (b : Local r.size) :
    registers m r.setOp b.bytes = (.done [] empty_small, Function.update m r b) := by
  unfold registers
  rw [r.found_set]
  exact dif_pos b.length_eq

theorem registers_get (m : Kept) (r : Register) :
    registers m r.getOp [] = (.done (m r).bytes (kept_small m r), m) := by
  unfold registers
  rw [r.found_apart, r.found_get]
  exact if_pos rfl

/-! ## What the functions are for -/

/-- The settings. -/
structure Store where
  netToken : U32
  appToken : Local 10
  dlMode : U8
  qos : U8
  macMode : U8
  antenna : U8
  connectionFilter : U8
  txPower : U8
  syncWord : U8
  dlBandCfg : DlBandCfg

/-- A call of one of the functions, with its arguments; `none` is `NULL`. -/
inductive SettingCall where
  | netTokenSet (netToken : U32)
  | netTokenGet (pNetToken : Option U32)
  | configSet (netToken : U32) (appToken : Option (Local 10)) (dlMode : U32) (qos : U8)
  | configGet (size : Nat) (h : 1 ≤ size) (v : ConfigVars size)
  | macModeSet (macMode : U32)
  | macModeGet (macMode : Option U32)
  | antennaSet (ant : U8)
  | antennaGet (ant : Option (Local 1))
  | connectionFilterSet (f : U8)
  | connectionFilterGet (pF : Option U8)
  | txPowerSet (pwr : U8)
  | txPowerGet (pwr : Option (Local 1))
  | syncWordSet (syncWord : U8)
  | syncWordGet (syncWord : Option (Local 1))
  | dlBandCfgSet (p : Option DlBandCfg)
  | dlBandCfgGet (p : Option DlBandCfg)

/-- What it returns, and leaves in the caller's variables. -/
abbrev SettingCall.Result : SettingCall → Type
  | netTokenGet _ => Int × Option U32
  | configGet .. => Int × Config
  | macModeGet _ => Int × Option U32
  | antennaGet _ => Int × Option (List U8)
  | connectionFilterGet _ => Int × Option U8
  | txPowerGet _ => Int × Option (List U8)
  | syncWordGet _ => Int × Option (List U8)
  | dlBandCfgGet _ => Int × Option DlBandCfg
  | _ => Int

/-- A value is stored, if it is in range. -/
def Store.put (s : Store) (ok : Prop) [Decidable ok] (s' : Store) : Int × Store :=
  if ok then (0, s') else (errorIncorrectParameter, s)

/-- A value of so many bytes is handed out, if there is a variable for it. -/
def Store.hand {β γ : Type} (s : Store) (out : Option β) (n : Int) (value : γ) :
    (Int × Option γ) × Store :=
  match out with
  | none => ((errorIncorrectParameter, none), s)
  | some _ => ((n, some value), s)

/-- The configuration is stored up to the first value that is out of range. -/
def Store.configSet (s : Store) (netToken : U32) (appToken : Option (Local 10)) (dlMode : U32)
    (qos : U8) : Int × Store :=
  if netToken = 0xFFFFFFFF then (errorIncorrectParameter, s)
  else
    match appToken with
    | none => (errorIncorrectParameter, { s with netToken })
    | some appToken =>
      if dlMode.setWidth 8 ≥ numDownlinkModes then
        (errorIncorrectParameter, { s with netToken, appToken })
      else if qos > 15 then
        (errorIncorrectParameter, { s with netToken, appToken, dlMode := dlMode.setWidth 8 })
      else (0, { s with netToken, appToken, dlMode := dlMode.setWidth 8, qos })

/-- The configuration is handed out up to the first variable that is missing. Of the downlink mode,
one byte is. -/
def Store.configGet (s : Store) {size : Nat} (v : ConfigVars size) : (Int × Config) × Store :=
  match v.netToken, v.appToken, v.dlMode, v.qos with
  | none, _, _, _ => ((errorIncorrectParameter, v.config), s)
  | some _, none, _, _ =>
    ((errorIncorrectParameter, { v.config with netToken := some s.netToken }), s)
  | some _, some _, none, _ =>
    ((errorIncorrectParameter,
      { v.config with netToken := some s.netToken, appToken := some s.appToken.bytes }), s)
  | some _, some _, some dlMode, none =>
    ((errorIncorrectParameter,
      ⟨some s.netToken, some s.appToken.bytes, some (s.dlMode :: dlMode.bytes.drop 1), none⟩), s)
  | some _, some _, some dlMode, some _ =>
    ((1, ⟨some s.netToken, some s.appToken.bytes, some (s.dlMode :: dlMode.bytes.drop 1),
      some [s.qos]⟩), s)

/-- What a call does to the settings. -/
def Store.call (s : Store) : (e : SettingCall) → e.Result × Store
  | .netTokenSet netToken => s.put (netToken ≠ 0xFFFFFFFF) { s with netToken }
  | .netTokenGet pNetToken => s.hand pNetToken 4 s.netToken
  | .configSet netToken appToken dlMode qos => s.configSet netToken appToken dlMode qos
  | .configGet _ _ v => s.configGet v
  | .macModeSet macMode => s.put (macMode < numMacs) { s with macMode := macMode.setWidth 8 }
  | .macModeGet macMode => s.hand macMode 1 (s.macMode.setWidth 32)
  | .antennaSet ant => s.put (ant = 1 ∨ ant = 2) { s with antenna := ant }
  | .antennaGet ant => s.hand ant 1 [s.antenna]
  | .connectionFilterSet f => s.put True { s with connectionFilter := f }
  | .connectionFilterGet pF => s.hand pF 1 s.connectionFilter
  | .txPowerSet pwr => s.put (-4 ≤ pwr.toInt ∧ pwr.toInt ≤ 26) { s with txPower := pwr }
  | .txPowerGet pwr => s.hand pwr 1 [s.txPower]
  | .syncWordSet syncWord => s.put True { s with syncWord }
  | .syncWordGet syncWord => s.hand syncWord 1 [s.syncWord]
  | .dlBandCfgSet p =>
    match p with
    | none => (errorIncorrectParameter, s)
    | some dlBandCfg => (0, { s with dlBandCfg })
  | .dlBandCfgGet p => s.hand p 14 s.dlBandCfg

/-! ## The functions on the line -/

/-- What the stack holds when a function is called. -/
structure Stack where
  checksumBuff : Nat → List U8
  buff : (size : Nat) → Local size

/-- A call, and what its stack holds. -/
structure SettingEvent where
  call : SettingCall
  stack : Stack

abbrev SettingReply (e : SettingEvent) : Type := e.call.Result

/-- The settings, as the other side of the calls. -/
def store (e : SettingEvent) (s : Store) : SettingReply e × Store :=
  s.call e.call

/-- The function that is called. -/
def SettingCall.run (fuel : Nat) (m : Stack) (messageNum : U32) :
    (e : SettingCall) → IfcM (e.Result × U32)
  | .netTokenSet netToken => llNetTokenSet fuel (m.checksumBuff 0) messageNum netToken
  | .netTokenGet pNetToken =>
    llNetTokenGet fuel (m.checksumBuff 0) messageNum (m.buff _) pNetToken
  | .configSet netToken appToken dlMode qos =>
    llConfigSet fuel m.checksumBuff messageNum netToken appToken dlMode qos
  | .configGet _ h v => llConfigGet fuel m.checksumBuff messageNum (m.buff _) h v
  | .macModeSet macMode => llMacModeSet fuel (m.checksumBuff 0) messageNum macMode
  | .macModeGet macMode => llMacModeGet fuel (m.checksumBuff 0) messageNum (m.buff _) macMode
  | .antennaSet ant => llAntennaSet fuel (m.checksumBuff 0) messageNum ant
  | .antennaGet ant => llAntennaGet fuel (m.checksumBuff 0) messageNum ant
  | .connectionFilterSet f => llConnectionFilterSet fuel (m.checksumBuff 0) messageNum f
  | .connectionFilterGet pF =>
    llConnectionFilterGet fuel (m.checksumBuff 0) messageNum (m.buff _) pF
  | .txPowerSet pwr => llTxPowerSet fuel (m.checksumBuff 0) messageNum pwr
  | .txPowerGet pwr => llTxPowerGet fuel (m.checksumBuff 0) messageNum pwr
  | .syncWordSet syncWord => llSyncWordSet fuel (m.checksumBuff 0) messageNum syncWord
  | .syncWordGet syncWord => llSyncWordGet fuel (m.checksumBuff 0) messageNum syncWord
  | .dlBandCfgSet p => llDlBandCfgSet fuel (m.checksumBuff 0) messageNum p
  | .dlBandCfgGet p =>
    llDlBandCfgGet fuel (m.checksumBuff 0) messageNum .leftToRight (m.buff _) p

/-- The bytes the module keeps. -/
def Store.bytes (s : Store) : Kept
  | .netToken => netTokenBuff s.netToken
  | .appToken => s.appToken
  | .rxMode => byteBuff s.dlMode
  | .qos => byteBuff s.qos
  | .macMode => byteBuff s.macMode
  | .antenna => byteBuff s.antenna
  | .connectionFilter => byteBuff s.connectionFilter
  | .txPower => byteBuff s.txPower
  | .syncWord => byteBuff s.syncWord
  | .dlBandCfg => dlBandCfgBuff s.dlBandCfg

/-- The module keeps the bytes of the settings, and nothing is on the line. -/
def Keeps (s : Store) (messageNum : U32) (l : Link Kept) : Prop :=
  Rests s.bytes messageNum l

/-- The network token is read as it has been written. -/
theorem netToken_kept (x : U32) : netToken (netTokenBuff x).bytes = x := by
  have hfirst : (0#32 ||| ((x >>> 24).setWidth 8).setWidth 32 <<< 24) =
      ((x >>> 24).setWidth 8).setWidth 32 <<< 24 := BitVec.zero_or
  show (0#32 ||| ((x >>> 24).setWidth 8).setWidth 32 <<< 24) |||
    (((x >>> 16).setWidth 8).setWidth 32 <<< 16) ||| (((x >>> 8).setWidth 8).setWidth 32 <<< 8) |||
    (x.setWidth 8).setWidth 32 = x
  rw [hfirst]
  exact bytes_joined32 x

/-- So is the band configuration. -/
theorem dlBandCfg_kept (p : DlBandCfg) :
    (llDlBandCfgDeserialize .leftToRight (dlBandCfgBuff p).bytes).map Prod.fst = some p :=
  (llDlBandCfgDeserialize_decodes .leftToRight).value_written trivial

section Line

variable {clock : Nat → Int × Time} {starve : Starve} {fuel : Nat} {s s' : Store}
  {messageNum : U32} {l : Link Kept} {checksumBuff : List U8}

/-- A value is stored where it is in range, and nothing is done where it is not. -/
theorem put_leaves {ok : Prop} [Decidable ok] {p : IfcM (Int × U32)} (h : Keeps s messageNum l)
    (hp : ok → Leaves (remote registers clock starve) Keeps p l 0 s')
    (hnot : ¬ ok → p = .done (errorIncorrectParameter, messageNum)) :
    Leaves (remote registers clock starve) Keeps p l (s.put ok s').1 (s.put ok s').2 := by
  unfold Store.put
  by_cases hok : ok
  · rw [if_pos hok]
    exact hp hok
  · rw [if_neg hok, hnot hok]
    exact .done h

variable (hclock : Prompt clock) (hdry : Dry starve) (hfuel : 65540 ≤ fuel)
include hclock hdry hfuel

/-- A value is sent, and kept. -/
theorem register_set (h : Keeps s messageNum l) (r : Register) (b : Local r.size) (s' : Store)
    {len : U16} {payload : Local len.toNat} {hpos : len ≠ 0} (hb : payload.bytes = b.bytes)
    (hs' : Function.update s.bytes r b = s'.bytes) :
    Leaves (remote registers clock starve) Keeps
      (setter fuel checksumBuff messageNum r.setOp (.all payload hpos)) l 0 s' := by
  refine Leaves.mono (setter_leaves hclock hdry hfuel h ?_) fun _ _ hl' => hl'
  rw [hb, ← hs']
  exact registers_set s.bytes r b

/-- What is kept is received. -/
theorem register_get (h : Keeps s messageNum l) (r : Register) {len : U16} {size : Nat}
    {out : Local size} {hsize : len.toNat ≤ size} (hlen : len.toNat = r.size) :
    Leaves (remote registers clock starve) Keeps
      (halReadWrite fuel checksumBuff messageNum (query r.getOp .nothing len out hsize)) l
      ((r.size : Int), some ((s.bytes r).bytes ++ out.bytes.drop r.size)) s := by
  have hpos : len ≠ 0 := by
    rintro rfl
    cases r <;> cases hlen
  have hfit : (s.bytes r).bytes.length ≤ len.toNat :=
    Nat.le_of_eq ((s.bytes r).length_eq.trans hlen.symm)
  have hquery := @query_leaves Kept registers clock starve fuel s.bytes s.bytes messageNum l
    checksumBuff hclock hdry hfuel h r.getOp len size out hsize hpos (s.bytes r).bytes
    (kept_small s.bytes r) (registers_get s.bytes r) hfit
  rw [(s.bytes r).length_eq] at hquery
  exact hquery.mono fun _ _ hl' => hl'

/-- What is kept is received, and decoded. -/
theorem register_decode (h : Keeps s messageNum l) (r : Register) {α : Type} (len : U16)
    (decode : List U8 → Option α) {buff : Local len.toNat} {out : Option α} {value : α}
    (hlen : len.toNat = r.size) (hvalue : decode (s.bytes r).bytes = some value) :
    Leaves (remote registers clock starve) Keeps
      (getter fuel checksumBuff messageNum r.getOp decode buff out) l
      (s.hand out r.size value).1 (s.hand out r.size value).2 := by
  cases out with
  | none => exact .done h
  | some old =>
    show Leaves (remote registers clock starve) Keeps
      (fetch fuel checksumBuff messageNum r.getOp decode buff) l _ s
    refine (register_get hclock hdry hfuel h r hlen).bind fun messageNum' l' hl' => ?_
    have hdrop : buff.bytes.drop r.size = [] :=
      List.drop_of_length_le (Nat.le_of_eq (buff.length_eq.trans hlen))
    dsimp only
    rw [hdrop, List.append_nil, Option.getD_some, hvalue]
    exact .done hl'

/-- What is kept is received in the caller's memory. -/
theorem register_into (h : Keeps s messageNum l) (r : Register) (len : U16)
    {hsize : len.toNat ≤ r.size} {out : Option (Local r.size)} (hlen : len.toNat = r.size) :
    Leaves (remote registers clock starve) Keeps
      (readInto fuel checksumBuff messageNum r.getOp len hsize out) l
      (s.hand out r.size (s.bytes r).bytes).1 (s.hand out r.size (s.bytes r).bytes).2 := by
  cases out with
  | none => exact .done h
  | some out =>
    have hquery := @register_get clock starve fuel s messageNum l checksumBuff hclock hdry hfuel h r
      len r.size out hsize hlen
    rw [List.drop_of_length_le (Nat.le_of_eq out.length_eq), List.append_nil] at hquery
    exact hquery

/-- The configuration is sent up to the first value that is out of range. -/
theorem configSet_leaves (h : Keeps s messageNum l) {checksumBuff : Nat → List U8}
    (netToken : U32) (appToken : Option (Local 10)) (dlMode : U32) (qos : U8) :
    Leaves (remote registers clock starve) Keeps
      (llConfigSet fuel checksumBuff messageNum netToken appToken dlMode qos) l
      (s.configSet netToken appToken dlMode qos).1 (s.configSet netToken appToken dlMode qos).2 := by
  unfold llConfigSet llNetTokenSet Store.configSet
  by_cases hnet : netToken = 0xFFFFFFFF
  · rw [if_pos hnet, if_neg (not_not_intro hnet)]
    exact .done h
  · rw [if_neg hnet, if_pos hnet]
    refine (register_set hclock hdry hfuel h .netToken (netTokenBuff netToken)
      { s with netToken } rfl (by funext r; cases r <;> rfl)).bind fun messageNum₁ l₁ h₁ => ?_
    cases appToken with
    | none => exact .done h₁
    | some appToken =>
      refine (register_set hclock hdry hfuel h₁ .appToken appToken
        { s with netToken, appToken } rfl (by funext r; cases r <;> rfl)).bind
        fun messageNum₂ l₂ h₂ => ?_
      dsimp only
      unfold llReceiveModeSet
      by_cases hmode : dlMode.setWidth 8 ≥ numDownlinkModes
      · rw [if_pos hmode, if_pos hmode]
        exact .done h₂
      · rw [if_neg hmode, if_neg hmode]
        refine (register_set hclock hdry hfuel h₂ .rxMode (byteBuff (dlMode.setWidth 8))
          { s with netToken, appToken, dlMode := dlMode.setWidth 8 } rfl
          (by funext r; cases r <;> rfl)).bind fun messageNum₃ l₃ h₃ => ?_
        unfold llQosRequest
        by_cases hqos : qos > 15
        · rw [if_pos hqos, if_pos hqos]
          exact .done h₃
        · rw [if_neg hqos, if_neg hqos]
          exact (register_set hclock hdry hfuel h₃ .qos (byteBuff qos) _ rfl
            (by funext r; cases r <;> rfl)).bind fun messageNum₄ l₄ h₄ => .done h₄

/-- The configuration is received up to the first variable that is missing. -/
theorem configGet_leaves (h : Keeps s messageNum l) {checksumBuff : Nat → List U8}
    {buff : Local (4 : U16).toNat} {size : Nat} (hsize : 1 ≤ size) (v : ConfigVars size) :
    Leaves (remote registers clock starve) Keeps
      (llConfigGet fuel checksumBuff messageNum buff hsize v) l (s.configGet v).1
      (s.configGet v).2 := by
  obtain ⟨netToken', appToken, dlMode, qos⟩ := v
  have hfirst := @register_decode clock starve fuel s messageNum l (checksumBuff 0) hclock hdry
    hfuel h .netToken U32 4 (fun buff => some (netToken buff)) buff netToken' s.netToken rfl
    (congrArg some (netToken_kept s.netToken))
  unfold llConfigGet Store.configGet
  cases netToken' with
  | none => exact hfirst.bind fun messageNum₁ l₁ h₁ => .done h₁
  | some _ =>
    refine hfirst.bind fun messageNum₁ l₁ h₁ => ?_
    have hsecond := @register_into clock starve fuel s messageNum₁ l₁ (checksumBuff 1) hclock hdry
      hfuel h₁ .appToken 10 (Nat.le_refl 10) appToken rfl
    cases appToken with
    | none => exact .done h₁
    | some _ =>
      refine hsecond.bind fun messageNum₂ l₂ h₂ => ?_
      cases dlMode with
      | none => exact .done h₂
      | some dlMode =>
        have hthird := @register_get clock starve fuel s messageNum₂ l₂ (checksumBuff 2) hclock hdry
          hfuel h₂ .rxMode 1 size dlMode hsize rfl
        refine hthird.bind fun messageNum₃ l₃ h₃ => ?_
        have hfourth := @register_into clock starve fuel s messageNum₃ l₃ (checksumBuff 3) hclock
          hdry hfuel h₃ .qos 1 (Nat.le_refl 1) qos rfl
        cases qos with
        | none => exact .done h₃
        | some _ => exact hfourth.bind fun messageNum₄ l₄ h₄ => .done h₄

/-- **The module keeps the settings**, for every function. -/
theorem settings_carry : Carries store (remote registers clock starve) Keeps fun e messageNum =>
    e.call.run fuel e.stack messageNum := by
  rintro ⟨call, m⟩ s messageNum l h
  cases call with
  | netTokenSet netToken =>
    refine put_leaves h (fun hok => ?_) fun hnot => if_neg hnot
    show Leaves _ _ (llNetTokenSet _ _ _ _) _ _ _
    unfold llNetTokenSet
    rw [if_pos hok]
    exact register_set hclock hdry hfuel h .netToken (netTokenBuff netToken) _ rfl
      (by funext r; cases r <;> rfl)
  | netTokenGet pNetToken =>
    exact register_decode hclock hdry hfuel h .netToken 4 (fun buff => some (netToken buff)) rfl
      (congrArg some (netToken_kept s.netToken))
  | configSet netToken appToken dlMode qos =>
    exact configSet_leaves hclock hdry hfuel h netToken appToken dlMode qos
  | configGet size hsize v => exact configGet_leaves hclock hdry hfuel h hsize v
  | macModeSet macMode =>
    refine put_leaves h (fun hok => ?_) fun hnot => if_pos (Nat.le_of_not_lt hnot)
    show Leaves _ _ (llMacModeSet _ _ _ _) _ _ _
    unfold llMacModeSet
    rw [if_neg (show ¬ macMode ≥ numMacs from Nat.not_le.mpr hok)]
    exact register_set hclock hdry hfuel h .macMode (byteBuff (macMode.setWidth 8)) _ rfl
      (by funext r; cases r <;> rfl)
  | macModeGet macMode =>
    exact register_decode hclock hdry hfuel h .macMode 1
      (fun buff => some ((buff.getD 0 0).setWidth 32)) rfl rfl
  | antennaSet ant =>
    refine put_leaves h (fun hok => ?_) fun hnot => if_neg hnot
    show Leaves _ _ (llAntennaSet _ _ _ _) _ _ _
    unfold llAntennaSet
    rw [if_pos hok]
    exact register_set hclock hdry hfuel h .antenna (byteBuff ant) _ rfl
      (by funext r; cases r <;> rfl)
  | antennaGet ant => exact register_into hclock hdry hfuel h .antenna 1 rfl
  | connectionFilterSet f =>
    refine put_leaves h (fun _ => ?_) fun hnot => absurd trivial hnot
    exact register_set hclock hdry hfuel h .connectionFilter (byteBuff f) _ rfl
      (by funext r; cases r <;> rfl)
  | connectionFilterGet pF =>
    exact register_decode hclock hdry hfuel h .connectionFilter 1
      (fun buff => some (buff.getD 0 0)) rfl
      rfl
  | txPowerSet pwr =>
    refine put_leaves h (fun hok => ?_) fun hnot => if_pos (by omega)
    show Leaves _ _ (llTxPowerSet _ _ _ _) _ _ _
    unfold llTxPowerSet
    rw [if_neg (by omega)]
    exact register_set hclock hdry hfuel h .txPower (byteBuff pwr) _ rfl
      (by funext r; cases r <;> rfl)
  | txPowerGet pwr => exact register_into hclock hdry hfuel h .txPower 1 rfl
  | syncWordSet syncWord =>
    refine put_leaves h (fun _ => ?_) fun hnot => absurd trivial hnot
    exact register_set hclock hdry hfuel h .syncWord (byteBuff syncWord) _ rfl
      (by funext r; cases r <;> rfl)
  | syncWordGet syncWord => exact register_into hclock hdry hfuel h .syncWord 1 rfl
  | dlBandCfgSet p =>
    cases p with
    | none => exact Leaves.done h
    | some p =>
      exact register_set hclock hdry hfuel h .dlBandCfg (dlBandCfgBuff p) _ rfl
        (by funext r; cases r <;> rfl)
  | dlBandCfgGet p =>
    exact register_decode hclock hdry hfuel h .dlBandCfg 14
      (fun buff => (llDlBandCfgDeserialize .leftToRight buff).map Prod.fst) rfl
      (dlBandCfg_kept s.dlBandCfg)

end Line

/-- **The settings are what they have last been set to.** With the module on the line, a program that
calls the functions ends with a result if and only if it does so with the settings themselves on
the other side. -/
theorem settings_ends_iff {clock : Nat → Int × Time} (hclock : Prompt clock) {starve : Starve}
    (hdry : Dry starve) {fuel : Nat} (hfuel : 65540 ≤ fuel) {α : Type} {p : Prog SettingReply α}
    {s : Store} {messageNum : U32} {l : Link Kept} (h : Keeps s messageNum l) {a : α} :
    (∃ messageNum' l', Ends (remote registers clock starve)
        (interpWith (fun e messageNum => e.call.run fuel e.stack messageNum) p messageNum) l
        (a, messageNum') l') ↔ ∃ s', Ends store p s a s' := by
  have hcarry := @settings_carry clock starve fuel hclock hdry hfuel
  constructor
  · intro hline
    obtain ⟨messageNum', l', hends⟩ := hline
    obtain ⟨s', hstore, -⟩ := hcarry.ends_above h hends
    exact ⟨s', hstore⟩
  · intro hstore
    obtain ⟨s', hends⟩ := hstore
    obtain ⟨messageNum', l', hline, -⟩ := hcarry.ends h hends
    exact ⟨messageNum', l', hline⟩

/-- Some settings. -/
def someStore : Store :=
  ⟨0x4f50454e, .fill 10 0, 0, 0, 3, 1, 0, 20, 0x34, ⟨902000000, 928000000, 386703, 3, 0⟩⟩

def someStack : Stack :=
  ⟨fun _ => [0, 0], fun size => .fill size 0xaa⟩

/-- Set a configuration whose last value is out of range, and ask for its first. -/
def halfConfigured : Prog SettingReply (Int × Option U32) :=
  .call ⟨.configSet 5 (some (.fill 10 1)) 2 16, someStack⟩ fun ret =>
    .call ⟨.netTokenGet (some 0), someStack⟩ fun r => .done (ret, r.2)

theorem settings_ends_half :
    ∃ messageNum' l', Ends (remote registers still silent)
      (interpWith (fun e messageNum => e.call.run 65540 e.stack messageNum) halfConfigured 7)
      ⟨⟨[], 0, false⟩, [], [], someStore.bytes⟩ ((-101, some 5), messageNum') l' :=
  (settings_ends_iff still_prompt silent_dry (Nat.le_refl _) (s := someStore)
    ⟨[], rfl, rfl, rfl, rfl, rfl, rfl⟩).mpr ⟨_, _, rfl⟩

end HostInterface.Ifc
