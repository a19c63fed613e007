import HostInterface.Ifc.Guarded
import HostInterface.Ifc.Settings

/-!
# What a module reports

The other queries of `ll_ifc.c` and `ll_ifc_symphony.c`: types and versions, the unique id,
interrupt flags, time stamps, the last assertion, network information, statistics, the time, the
states, the registration. A module at the end of the line is asked a `Question`, and answers it or
refuses; its answer may depend on its state, and asking may change it (reading interrupt flags
clears some). `reports_ends_iff` says that every program of these functions is answered what the
module says, whole and as it is meant.

A refusal is a NACK, which is not read into the buffer. The functions of `Guarded` leave the
caller's variable as it was; the getters that decode whatever comes make its value of
what the stack held.
-/

namespace HostInterface.Ifc

open Interact Prog Reader

/-! ## The states of the module (`ll_get_state`) -/

/-- The variables of the caller of `ll_get_state`. -/
structure StateVars where
  state : Option U32
  txState : Option U32
  rxState : Option U32

section States

variable (fuel : Nat) (messageNum : U32)

/-- One of the three: nothing is asked, where its pointer is `NULL`. -/
def statePart (checksumBuff : List U8) (op : U8) (u8State : Local (1 : U16).toNat)
    (out : Option U32) (ret : Int) : IfcM ((Int × Option U32) × U32) :=
  match out with
  | none => .done ((ret, none), messageNum)
  | some old => queryThen fuel checksumBuff messageNum op .nothing u8State fun ret u8State =>
      (ret, some (if 0 > ret then old else (u8State.getD 0 0).signExtend 32))

/-- `ll_get_state`; `checksumBuff` and `u8State` are what its exchanges find on the stack. -/
def llGetState (checksumBuff : Nat → List U8) (u8State : Nat → Local (1 : U16).toNat)
    (v : StateVars) : IfcM ((Int × StateVars) × U32) := do
  let r ← statePart fuel messageNum (checksumBuff 0) 2 (u8State 0) v.state 0
  let v := { v with state := r.1.2 }
  if 0 > r.1.1 then return ((r.1.1, v), r.2)
  let r ← statePart fuel r.2 (checksumBuff 1) 3 (u8State 1) v.txState r.1.1
  let v := { v with txState := r.1.2 }
  if 0 > r.1.1 then return ((r.1.1, v), r.2)
  let r ← statePart fuel r.2 (checksumBuff 2) 4 (u8State 2) v.rxState r.1.1
  return ((r.1.1, { v with rxState := r.1.2 }), r.2)

/-- `ll_app_reg_get`. -/
def llAppRegGet (checksumBuff : List U8) (isRegistered : Option (Local 1)) :
    IfcM ((Int × Option (List U8)) × U32) :=
  readInto fuel checksumBuff messageNum 126 1 one_fits isRegistered

end States

/-! ## Questions and answers -/

/-- What a module can be asked. -/
inductive Question where
  | firmwareType
  | hardwareType
  | interfaceVersion
  | version
  | uniqueId
  | irqFlags (flagsToClear : U32)
  | timestamp (operation : U8) (timestampUs : U32)
  | assertInfo
  | netInfo
  | stats
  | systemTime
  | state
  | txState
  | rxState
  | appReg

/-- The line and the beginning of the name of the file. -/
structure Assertion where
  line : U32
  filename : Local 20

/-- What an answer tells. -/
abbrev Question.Answer : Question → Type
  | firmwareType => FirmwareType
  | interfaceVersion | version => Version
  | uniqueId => U64
  | irqFlags _ | timestamp .. => U32
  | assertInfo => Assertion
  | netInfo => { x : NetworkInfo // x.connectionStatus.toNat < 256 }
  | stats => Stats
  | systemTime => TimeInfo
  | hardwareType | state | txState | rxState | appReg => U8

/-- How many bytes an answer has. -/
def Question.size : Question → Nat
  | firmwareType | interfaceVersion | version | irqFlags _ | timestamp .. => 4
  | uniqueId => 8
  | assertInfo => 24
  | netInfo => 30
  | stats => 40
  | systemTime => 13
  | hardwareType | state | txState | rxState | appReg => 1

/-- The bytes of a version. -/
def Version.bytes (v : Version) : List U8 :=
  [v.major, v.minor] ++ be16 v.tag

/-- The bytes of an id, the highest first. -/
def idBytes (id : U64) : List U8 :=
  (List.range 8).map fun i => (id >>> (8 * (7 - i))).setWidth 8

/-- The bytes of an answer. -/
def Question.bytes : (q : Question) → q.Answer → List U8
  | firmwareType, t => be16 t.cpuCode ++ be16 t.functionalityCode
  | hardwareType, b => [b]
  | interfaceVersion, v => v.bytes
  | version, v => v.bytes
  | uniqueId, id => idBytes id
  | irqFlags _, flags => (netTokenBuff flags).bytes
  | timestamp .., timestampUs => bytes32 .leftToRight timestampUs
  | assertInfo, a => (netTokenBuff a.line).bytes ++ a.filename.bytes
  | netInfo, x => x.1.bytes .leftToRight
  | stats, s => s.bytes .leftToRight
  | systemTime, t => t.bytes .leftToRight
  | state, b => [b]
  | txState, b => [b]
  | rxState, b => [b]
  | appReg, b => [b]

theorem Question.bytes_length (q : Question) (a : q.Answer) : (q.bytes a).length = q.size := by
  cases q with
  | uniqueId => exact (List.length_map _).trans List.length_range
  | assertInfo =>
    show (_ ++ a.filename.bytes).length = 24
    rw [List.length_append, a.filename.length_eq]
    rfl
  | _ => rfl

theorem Question.size_small (q : Question) : q.size < 65536 := by
  unfold Question.size
  split <;> decide

theorem Question.bytes_small (q : Question) (a : q.Answer) : (q.bytes a).length < 65536 :=
  q.bytes_length a ▸ q.size_small

/-- The question, as the module reads it off a command. -/
def asked (op : U8) (payload : List U8) : Option Question :=
  match op.toNat, payload with
  | 255, [] => some .firmwareType
  | 254, [] => some .hardwareType
  | 1, [] => some .interfaceVersion
  | 0, [] => some .version
  | 50, [] => some .uniqueId
  | 15, payload => some (.irqFlags (netToken payload))
  | 131, operation :: payload =>
    ((readUint32 .leftToRight).run payload).map fun x => .timestamp operation x.1
  | 248, [] => some .assertInfo
  | 118, [] => some .netInfo
  | 119, [] => some .stats
  | 108, [] => some .systemTime
  | 2, [] => some .state
  | 3, [] => some .txState
  | 4, [] => some .rxState
  | 126, [] => some .appReg
  | _, _ => none

/-! ## What the functions make of the bytes -/

theorem bytePair_be16 (x : U16) :
    ((x >>> 8).setWidth 8).setWidth 16 <<< 8 ||| (x.setWidth 8).setWidth 16 = x := by
  have hjoined := bytes_joined16 x
  rw [BitVec.ushiftRight_zero] at hjoined
  exact hjoined

theorem version_bytes (v : Version) : version v.bytes = v :=
  congrArg (Version.mk v.major v.minor) (bytePair_be16 v.tag)

theorem firmwareType_bytes (t : FirmwareType) :
    FirmwareType.mk (bytePair (be16 t.cpuCode ++ be16 t.functionalityCode) 0)
      (bytePair (be16 t.cpuCode ++ be16 t.functionalityCode) 2) = t :=
  congrArg₂ FirmwareType.mk (bytePair_be16 t.cpuCode) (bytePair_be16 t.functionalityCode)

/-- The bytes from a place on, with one more in front of them. -/
theorem byte_joined {w : Nat} (x : BitVec w) (k : Nat) :
    (x >>> (k + 8)) <<< (k + 8) ||| ((x >>> k).setWidth 8).setWidth w <<< k = (x >>> k) <<< k := by
  apply BitVec.eq_of_getLsbD_eq
  intro i hi
  simp only [BitVec.getLsbD_or, BitVec.getLsbD_shiftLeft, BitVec.getLsbD_ushiftRight,
    BitVec.getLsbD_setWidth]
  by_cases hk : i < k
  · simp [hk, show i < k + 8 by omega]
  · by_cases hlow : i < k + 8
    · simp [hk, hlow, hi, show i - k < 8 by omega, show i - k < w by omega]
    · simp [hk, hlow, hi, show ¬ i - k < 8 by omega, show k + 8 + (i - (k + 8)) = i by omega,
        show k + (i - k) = i by omega]

/-- The id, after so many turns of the loop. -/
theorem uniqueId_loop (id : U64) {n : Nat} (hn : n ≤ 8) :
    (List.range n).foldl
        (fun x i => x ||| ((idBytes id).getD i 0).setWidth 64 <<< (8 * (7 - i))) 0 =
      (id >>> (8 * (8 - n))) <<< (8 * (8 - n)) := by
  induction n with
  | zero =>
    show (0 : U64) = (id >>> 64) <<< 64
    rw [BitVec.ushiftRight_eq_zero (Nat.le_refl _), BitVec.zero_shiftLeft]
    rfl
  | succ n ih =>
    rw [List.range_succ, List.foldl_append, ih (by omega)]
    have hbyte : (idBytes id).getD n 0 = (id >>> (8 * (7 - n))).setWidth 8 := by
      unfold idBytes
      rw [List.getD_eq_getElem?_getD, List.getElem?_map, List.getElem?_range (by omega)]
      rfl
    have hnext : 8 * (8 - n) = 8 * (7 - n) + 8 := by omega
    show _ ||| ((idBytes id).getD n 0).setWidth 64 <<< (8 * (7 - n)) = _
    rw [hbyte, hnext, show 8 - (n + 1) = 7 - n by omega]
    exact byte_joined id _

theorem uniqueId_bytes (id : U64) : uniqueId (idBytes id) = id := by
  refine (uniqueId_loop id (Nat.le_refl 8)).trans ?_
  show (id >>> 0) <<< 0 = id
  rw [BitVec.ushiftRight_zero, BitVec.shiftLeft_zero]

theorem flagsBytes_eq (x : U32) : (flagsBytes x).bytes = (netTokenBuff x).bytes := by
  have hmask : ∀ y : U32, (y &&& 0xFF).setWidth 8 = (y.setWidth 8 : U8) := fun y => by
    rw [BitVec.setWidth_and]
    exact BitVec.and_allOnes
  show [_, _, _, _] = _
  rw [hmask, hmask, hmask, hmask]
  rfl

theorem assertLine_bytes (x : U32) (filename : List U8) :
    assertLine ((netTokenBuff x).bytes ++ filename) = x := by
  show 0#32 + ((x >>> 24).setWidth 8).setWidth 32 <<< 24 +
    ((x >>> 16).setWidth 8).setWidth 32 <<< 16 + ((x >>> 8).setWidth 8).setWidth 32 <<< 8 +
    (x.setWidth 8).setWidth 32 <<< 0 = x
  rw [BitVec.zero_add]
  have hx := x.isLt
  apply BitVec.eq_of_toNat_eq
  simp only [BitVec.toNat_add, BitVec.toNat_shiftLeft, BitVec.toNat_setWidth,
    BitVec.toNat_ushiftRight, Nat.shiftRight_eq_div_pow, Nat.shiftLeft_eq]
  omega

theorem readUint32_bytes (x : U32) :
    (readUint32 .leftToRight).run (bytes32 .leftToRight x) = some (x, []) :=
  (readUint32_decodes .leftToRight).read_written trivial []

theorem timestamp_asked (operation timestampUs : U32) :
    asked 131 (timestampQuery operation timestampUs).payload =
      some (.timestamp (operation.setWidth 8) timestampUs) := by
  have hpayload : (timestampQuery operation timestampUs).payload =
      operation.setWidth 8 :: bytes32 .leftToRight timestampUs := rfl
  rw [hpayload]
  exact congrArg (Option.map fun x => Question.timestamp (operation.setWidth 8) x.1)
    (readUint32_bytes timestampUs)

/-! ## The module -/

/-- A module that answers questions, or refuses to with the code of a NACK. -/
abbrev Reporter (μ : Type) := μ → (q : Question) → Except { code : U8 // code ≠ 0 } q.Answer × μ

/-- What an answer or a refusal is made into. -/
def settle {α β : Type} (told : α → β) (refused : Int → β) :
    Except { code : U8 // code ≠ 0 } α → β
  | .ok a => told a
  | .error code => refused (-(code.1.toNat : Int))

/-- A refusal is an error. -/
theorem refused_neg (code : { code : U8 // code ≠ 0 }) : ¬ -(code.1.toNat : Int) ≥ 0 := by
  have hcode : code.1.toNat ≠ 0 := fun h => code.2 (BitVec.eq_of_toNat_eq h)
  omega

section Module

variable {μ α β : Type} (rep : Reporter μ)

/-- How it is sent. -/
def served (q : Question) : Except { code : U8 // code ≠ 0 } q.Answer → Served
  | .ok a => .done (q.bytes a) (q.bytes_small a)
  | .error code => .refused code.1

/-- The module at the end of a line. -/
def reporting : Server μ := fun m op payload =>
  match asked op payload with
  | none => (.refused 1, m)
  | some q => (served q (rep m q).1, (rep m q).2)

/-! ## What the functions are for -/

/-- Ask the module, and make a result of what it says. -/
def ask (m : μ) (q : Question) (told : q.Answer → β) (refused : Int → β) : β × μ :=
  (settle told refused (rep m q).1, (rep m q).2)

/-- Nothing is done, where a pointer is `NULL`. -/
def given (m : μ) (out : Option α) (f : α → (Int × Option β) × μ) : (Int × Option β) × μ :=
  match out with
  | none => ((errorIncorrectParameter, none), m)
  | some old => f old

/-- Ask for a state, if there is a variable for it. -/
def askState (m : μ) (q : Question) (told : q.Answer → U32) (out : Option U32) (ret : Int) :
    (Int × Option U32) × μ :=
  match out with
  | none => ((ret, none), m)
  | some old => ask rep m q (fun a => ((1 : Int), some (told a))) fun ret => (ret, some old)

/-- The states are asked for one after the other, up to the first that is refused. -/
def askStates (m : μ) (v : StateVars) : (Int × StateVars) × μ :=
  let r := askState rep m .state (BitVec.signExtend 32) v.state 0
  let v := { v with state := r.1.2 }
  if r.1.1 < 0 then ((r.1.1, v), r.2)
  else
    let r := askState rep r.2 .txState (BitVec.signExtend 32) v.txState r.1.1
    let v := { v with txState := r.1.2 }
    if r.1.1 < 0 then ((r.1.1, v), r.2)
    else
      let r := askState rep r.2 .rxState (BitVec.signExtend 32) v.rxState r.1.1
      ((r.1.1, { v with rxState := r.1.2 }), r.2)

/-- A call of one of the functions, with its arguments; `none` is `NULL`. -/
inductive ReportCall where
  | firmwareTypeGet (t : Option FirmwareType)
  | hardwareTypeGet (t : Option U32)
  | interfaceVersionGet (v : Option Version)
  | versionGet (v : Option Version)
  | uniqueIdGet (uniqueId : Option U64)
  | irqFlags (flagsToClear flags : U32)
  | timestampSet (operation timestampUs : U32) (actualTimestampUs : Option U32)
  | timestampGet (timestampUs : Option U32)
  | getAssertInfo (filename : List U8) (filenameLen : U16) (line : U32)
  | netInfoGet (pNetInfo : Option NetworkInfo)
  | statsGet (s : Option Stats)
  | systemTimeGet (timeInfo : Option TimeInfo)
  | getState (v : StateVars)
  | appRegGet (isRegistered : Option (Local 1))

/-- What it returns, and leaves in the caller's variables. -/
abbrev ReportCall.Result : ReportCall → Type
  | firmwareTypeGet _ => Int × Option FirmwareType
  | interfaceVersionGet _ | versionGet _ => Int × Option Version
  | uniqueIdGet _ => Int × Option U64
  | irqFlags .. => Int × U32
  | hardwareTypeGet _ | timestampSet .. | timestampGet _ => Int × Option U32
  | getAssertInfo .. => Int × List U8 × U32
  | netInfoGet _ => Int × Option NetworkInfo
  | statsGet _ => Int × Option Stats
  | systemTimeGet _ => Int × Option TimeInfo
  | getState _ => Int × StateVars
  | appRegGet _ => Int × Option (List U8)

/-- A call, and what its local variables hold before it. -/
structure ReportEvent where
  call : ReportCall
  checksumBuff : Nat → List U8
  buff : Nat → (size : Nat) → Local size

abbrev ReportReply (e : ReportEvent) : Type := e.call.Result

/-- What the module says is what is returned. Where it refuses, `buff` is the local variable, and
the getters that decode it all the same make the caller's value of it. -/
def ReportCall.report (m : μ) (buff : (size : Nat) → Local size) :
    (e : ReportCall) → e.Result × μ
  | firmwareTypeGet t => given m t fun old =>
    ask rep m .firmwareType (fun a => ((4 : Int), some a)) fun ret => (ret, some old)
  | hardwareTypeGet t => given m t fun old =>
    ask rep m .hardwareType (fun a => ((1 : Int), some (a.setWidth 32))) fun ret => (ret, some old)
  | interfaceVersionGet v => given m v fun old =>
    ask rep m .interfaceVersion (fun a => ((4 : Int), some a)) fun ret => (ret, some old)
  | versionGet v => given m v fun old =>
    ask rep m .version (fun a => ((4 : Int), some a)) fun ret => (ret, some old)
  | uniqueIdGet u => given m u fun _ =>
    ask rep m .uniqueId (fun a => ((8 : Int), some a)) fun ret =>
      (ret, some (uniqueId (buff 8).bytes))
  | irqFlags flagsToClear flags =>
    ask rep m (.irqFlags flagsToClear) (fun a => ((4 : Int), a)) fun ret => (ret, flags)
  | timestampSet operation timestampUs actualTimestampUs => given m actualTimestampUs fun old =>
    ask rep m (.timestamp (operation.setWidth 8) timestampUs) (fun a => ((0 : Int), some a))
      fun ret => (ret, some old)
  | timestampGet timestampUs => given m timestampUs fun old =>
    ask rep m (.timestamp 0 0) (fun a => ((0 : Int), some a)) fun ret => (ret, some old)
  | getAssertInfo filename filenameLen line =>
    ask rep m .assertInfo (fun a => ((24 : Int), a.filename.bytes.take (copyLen filenameLen) ++
      filename.drop (copyLen filenameLen), a.line)) fun ret => (ret, filename, line)
  | netInfoGet pNetInfo => given m pNetInfo fun _ =>
    ask rep m .netInfo (fun a => ((30 : Int), some a.1)) fun ret =>
      (ret, (llNetInfoDeserialize .leftToRight (buff 30).bytes).map Prod.fst)
  | statsGet s => given m s fun _ =>
    ask rep m .stats (fun a => ((40 : Int), some a)) fun ret =>
      (ret, (llStatsDeserialize .leftToRight (buff 40).bytes).map Prod.fst)
  | systemTimeGet timeInfo => given m timeInfo fun _ =>
    ask rep m .systemTime (fun a => ((13 : Int), some a)) fun ret =>
      (ret, (llTimeDeserialize .leftToRight (buff 13).bytes).map Prod.fst)
  | getState v => askStates rep m v
  | appRegGet isRegistered => given m isRegistered fun old =>
    ask rep m .appReg (fun a => ((1 : Int), some [a])) fun ret => (ret, some old.bytes)

/-- The module, as the other side of the calls. -/
def reports (e : ReportEvent) (m : μ) : ReportReply e × μ :=
  e.call.report rep m (e.buff 0)

end Module

/-! ## The functions on the line -/

/-- The function that is called. -/
def ReportCall.run (fuel : Nat) (checksumBuff : Nat → List U8)
    (buff : Nat → (size : Nat) → Local size) (messageNum : U32) :
    (e : ReportCall) → IfcM (e.Result × U32)
  | firmwareTypeGet t => llFirmwareTypeGet fuel (checksumBuff 0) messageNum (buff 0 _) t
  | hardwareTypeGet t => llHardwareTypeGet fuel (checksumBuff 0) messageNum (buff 0 _) t
  | interfaceVersionGet v => llInterfaceVersionGet fuel (checksumBuff 0) messageNum (buff 0 _) v
  | versionGet v => llVersionGet fuel (checksumBuff 0) messageNum (buff 0 _) v
  | uniqueIdGet u => llUniqueIdGet fuel (checksumBuff 0) messageNum (buff 0 _) u
  | irqFlags flagsToClear flags => llIrqFlags fuel (checksumBuff 0) messageNum flagsToClear flags
  | timestampSet operation timestampUs actualTimestampUs =>
    llTimestampSet fuel (checksumBuff 0) messageNum .leftToRight operation timestampUs
      actualTimestampUs
  | timestampGet timestampUs =>
    llTimestampGet fuel (checksumBuff 0) messageNum .leftToRight timestampUs
  | getAssertInfo filename filenameLen line =>
    llGetAssertInfo fuel (checksumBuff 0) messageNum (buff 0 _) filename filenameLen line
  | netInfoGet p => llNetInfoGet fuel (checksumBuff 0) messageNum .leftToRight (buff 0 _) p
  | statsGet s => llStatsGet fuel (checksumBuff 0) messageNum .leftToRight (buff 0 _) s
  | systemTimeGet t => llSystemTimeGet fuel (checksumBuff 0) messageNum .leftToRight (buff 0 _) t
  | getState v => llGetState fuel messageNum checksumBuff (fun i => buff i _) v
  | appRegGet isRegistered => llAppRegGet fuel messageNum (checksumBuff 0) isRegistered

theorem settle_congr {α β : Type} {told told' : α → β} {refused refused' : Int → β}
    (htold : ∀ a, told a = told' a) (hrefused : ∀ ret, ret < 0 → refused ret = refused' ret)
    (x : Except { code : U8 // code ≠ 0 } α) : settle told refused x = settle told' refused' x := by
  cases x with
  | ok a => exact htold a
  | error code =>
    have hpos : code.1.toNat ≠ 0 := fun h => code.2 (BitVec.eq_of_toNat_eq h)
    exact hrefused _ (by omega)

theorem settle_apply {α β γ : Type} (f : β → γ) (told : α → β) (refused : Int → β)
    (x : Except { code : U8 // code ≠ 0 } α) :
    f (settle told refused x) = settle (fun a => f (told a)) (fun ret => f (refused ret)) x := by
  cases x <;> rfl

section Line

variable {μ : Type} {rep : Reporter μ} {clock : Nat → Int × Time} {starve : Starve} {fuel : Nat}
  {m : μ} {messageNum : U32} {l : Link μ} {checksumBuff : List U8}

theorem ask_congr {β : Type} {q : Question} {told told' : q.Answer → β} {refused refused' : Int → β}
    (htold : ∀ a, told a = told' a) (hrefused : ∀ ret, ret < 0 → refused ret = refused' ret) :
    ask rep m q told refused = ask rep m q told' refused' :=
  congrArg (·, (rep m q).2) (settle_congr htold hrefused _)

/-- With the line `l`, the program ends with the first part of `x`; the module is then in the state
that is the second, and nothing is on the line. -/
def Gets (rep : Reporter μ) (clock : Nat → Int × Time) (starve : Starve) {ρ : Type}
    (p : IfcM (ρ × U32)) (l : Link μ) (x : ρ × μ) : Prop :=
  Leaves (remote (reporting rep) clock starve) Rests p l x.1 x.2

/-- What is received for a question. -/
theorem served_result {q : Question} (x : Except { code : U8 // code ≠ 0 } q.Answer) {op : U8}
    {sent : Sent} {len : U16} {size : Nat} {buff : Local size} {hs : len.toNat ≤ size}
    (hlen : q.size = len.toNat) :
    (served q x).result (query op sent len buff hs) =
      settle (fun a => ((q.size : Int), some (q.bytes a ++ buff.bytes.drop q.size)))
        (fun ret => (ret, some buff.bytes)) x := by
  cases x with
  | ok a =>
    have hbytes := q.bytes_length a
    have hfit : ¬ len.toNat < (q.bytes a).length := by omega
    refine (if_neg hfit).trans ((if_pos rfl).trans ?_)
    show (((q.bytes a).length : Int), some (q.bytes a ++ buff.bytes.drop (q.bytes a).length)) = _
    rw [hbytes]
    rfl
  | error code => exact (if_neg (Nat.not_lt_zero _)).trans (if_neg code.2)

variable (hclock : Prompt clock) (hdry : Dry starve) (hfuel : 65540 ≤ fuel)
include hclock hdry hfuel

/-- A question, on the line. -/
theorem exchange_asks (h : Rests m messageNum l) (q : Question) {op : U8} {sent : Sent} {len : U16}
    {size : Nat} {buff : Local size} {hs : len.toNat ≤ size} (hpos : len ≠ 0)
    (hlen : q.size = len.toNat) (hasked : asked op (query op sent len buff hs).payload = some q) :
    Gets rep clock starve
      (halReadWrite fuel checksumBuff messageNum (query op sent len buff hs)) l
      (ask rep m q (fun a => ((q.size : Int), some (q.bytes a ++ buff.bytes.drop q.size)))
        fun ret => (ret, some buff.bytes)) := by
  have hvalid : (query op sent len buff hs).Valid :=
    ⟨sent.valid, (Bool.or_false _).trans (decide_eq_false hpos)⟩
  have hsrv : reporting rep m op (query op sent len buff hs).payload =
      (served q (rep m q).1, (rep m q).2) := by
    unfold reporting
    rw [hasked]
  exact (exchange_leaves hclock hdry hfuel h hvalid hsrv).of_eq (served_result _ hlen)

/-- A question, and what is made of the answer. -/
theorem queryThen_asks {β : Type} (h : Rests m messageNum l) (q : Question) {op : U8} {sent : Sent}
    {len : U16} {buff : Local len.toNat} (finish : Int → List U8 → Int × β) (hpos : len ≠ 0)
    (hlen : q.size = len.toNat)
    (hasked : asked op (query op sent len buff (fits_exactly len)).payload = some q) :
    Gets rep clock starve (queryThen fuel checksumBuff messageNum op sent buff finish) l
      (ask rep m q (fun a => finish q.size (q.bytes a)) fun ret => finish ret buff.bytes) := by
  have hdrop : buff.bytes.drop q.size = [] :=
    List.drop_of_length_le (Nat.le_of_eq (buff.length_eq.trans hlen.symm))
  have hfinish := (settle_apply (fun r : Int × Option (List U8) => finish r.1 (r.2.getD []))
    (fun a => ((q.size : Int), some (q.bytes a ++ buff.bytes.drop q.size)))
    (fun ret => (ret, some buff.bytes)) (rep m q).1).trans
    (settle_congr (fun a => by rw [hdrop, List.append_nil, Option.getD_some]) (fun ret _ => rfl) _)
  refine (exchange_asks hclock hdry hfuel h q hpos hlen hasked).bind fun messageNum' l' hl' => ?_
  exact Leaves.of_eq (.done hl') hfinish

/-- A query with a guard. -/
theorem guarded_asks {β : Type} (h : Rests m messageNum l) (q : Question) {op : U8} {len : U16}
    {buff : Local len.toNat} {decode : List U8 → β} {out : Option β} {value : q.Answer → β}
    (hpos : len ≠ 0) (hlen : q.size = len.toNat) (hasked : asked op [] = some q)
    (hvalue : ∀ a, decode (q.bytes a) = value a) :
    Gets rep clock starve (guarded fuel checksumBuff messageNum op decode buff out) l
      (given m out fun old =>
        ask rep m q (fun a => ((q.size : Int), some (value a))) fun ret => (ret, some old)) := by
  cases out with
  | none => exact .done h
  | some old =>
    have hasks := @queryThen_asks μ rep clock starve fuel m messageNum l checksumBuff hclock hdry
      hfuel _ h q op .nothing len buff
      (fun ret buff => (ret, some (if ret = len.toNat then decode buff else old))) hpos hlen hasked
    rw [ask_congr (fun a => ?told) (fun ret hret => ?refused)] at hasks
    · exact hasks
    case told => rw [hlen, if_pos rfl, hvalue]
    case refused => rw [if_neg (show ret ≠ (len.toNat : Int) by omega)]

/-- A getter that decodes whatever comes. -/
theorem getter_asks {β : Type} (h : Rests m messageNum l) (q : Question) {op : U8} {len : U16}
    {buff : Local len.toNat} {decode : List U8 → Option β} {out : Option β} {value : q.Answer → β}
    (hpos : len ≠ 0) (hlen : q.size = len.toNat) (hasked : asked op [] = some q)
    (hvalue : ∀ a, decode (q.bytes a) = some (value a)) (hbuff : (decode buff.bytes).isSome) :
    Gets rep clock starve (getter fuel checksumBuff messageNum op decode buff out) l
      (given m out fun _ =>
        ask rep m q (fun a => ((q.size : Int), some (value a))) fun ret =>
          (ret, decode buff.bytes)) := by
  cases out with
  | none => exact .done h
  | some old =>
    obtain ⟨stack, hstack⟩ := Option.isSome_iff_exists.mp hbuff
    have hdrop : buff.bytes.drop q.size = [] :=
      List.drop_of_length_le (Nat.le_of_eq (buff.length_eq.trans hlen.symm))
    have hasks := @exchange_asks μ rep clock starve fuel m messageNum l checksumBuff hclock hdry
      hfuel h q op .nothing len _ buff (Nat.le_refl _) hpos hlen hasked
    show Gets _ _ _ (fetch fuel checksumBuff messageNum op decode buff) l (ask rep m q _ _)
    unfold Gets ask at hasks ⊢
    cases hcase : (rep m q).1 with
    | error code =>
      rw [hcase] at hasks
      refine hasks.bind fun messageNum' l' hl' => ?_
      dsimp only [settle]
      rw [Option.getD_some, hstack]
      exact .done hl'
    | ok a =>
      rw [hcase] at hasks
      refine hasks.bind fun messageNum' l' hl' => ?_
      dsimp only [settle]
      rw [Option.getD_some, hdrop, List.append_nil, hvalue]
      exact .done hl'

/-- What is asked for is received in the caller's memory. -/
theorem readInto_asks (h : Rests m messageNum l) (q : Question) {op : U8} {len : U16}
    {size : Nat} {hs : len.toNat ≤ size} {out : Option (Local size)} (hpos : len ≠ 0)
    (hlen : q.size = len.toNat) (hasked : asked op [] = some q) :
    Gets rep clock starve (readInto fuel checksumBuff messageNum op len hs out) l
      (given m out fun old =>
        ask rep m q (fun a => ((q.size : Int), some (q.bytes a ++ old.bytes.drop q.size)))
          fun ret => (ret, some old.bytes)) := by
  cases out with
  | none => exact .done h
  | some old => exact exchange_asks hclock hdry hfuel h q hpos hlen hasked

/-- `hal_read_write_exact` returns 0 for an answer. -/
theorem exact_asks (h : Rests m messageNum l) (q : Question) {op : U8} {sent : Sent} {len : U16}
    {size : Nat} {buff : Local size} {hs : len.toNat ≤ size} (hpos : len ≠ 0)
    (hlen : q.size = len.toNat) (hasked : asked op (query op sent len buff hs).payload = some q) :
    Gets rep clock starve
      (halReadWriteExact fuel messageNum checksumBuff (query op sent len buff hs)) l
      (ask rep m q (fun a => ((0 : Int), some (q.bytes a ++ buff.bytes.drop q.size)))
        fun ret => (ret, some buff.bytes)) := by
  have hasks := @exchange_asks μ rep clock starve fuel m messageNum l checksumBuff hclock hdry
    hfuel h q op sent len size buff hs hpos hlen hasked
  unfold Gets ask at hasks ⊢
  unfold halReadWriteExact
  refine hasks.bind fun messageNum' l' hl' => ?_
  cases (rep m q).1 with
  | error code =>
    dsimp only [settle]
    rw [if_neg (refused_neg code)]
    exact .done hl'
  | ok a =>
    have hsize : ¬ (q.size : Int) ≠ (query op sent len buff hs).outLen.toNat :=
      not_not_intro (congrArg Int.ofNat hlen)
    dsimp only [settle]
    rw [if_pos (Int.natCast_nonneg _), if_neg hsize]
    exact .done hl'

/-- The time stamp. -/
theorem timestamp_asks (h : Rests m messageNum l) (operation timestampUs : U32)
    (out : Option U32) :
    Gets rep clock starve
      (llTimestampSet fuel checksumBuff messageNum .leftToRight operation timestampUs out) l
      (given m out fun old =>
        ask rep m (.timestamp (operation.setWidth 8) timestampUs) (fun a => ((0 : Int), some a))
          fun ret => (ret, some old)) := by
  cases out with
  | none => exact .done h
  | some old =>
    have hasks := @exact_asks μ rep clock starve fuel m messageNum l checksumBuff hclock hdry
      hfuel h _ 131 (.all (operationBytes operation timestampUs) five_bytes) 4 _
      (Local.fill (4 : U16).toNat 0) (Nat.le_refl _) (by decide) rfl
      (timestamp_asked operation timestampUs)
    show Gets _ _ _ _ l (ask rep m (.timestamp (operation.setWidth 8) timestampUs) _ _)
    unfold Gets ask at hasks ⊢
    refine hasks.bind fun messageNum' l' hl' => ?_
    cases (rep m (.timestamp (operation.setWidth 8) timestampUs)).1 with
    | error code =>
      dsimp only [settle]
      rw [if_neg (refused_neg code)]
      exact .done hl'
    | ok a =>
      have hread : (readUint32 .leftToRight).run (bytes32 .leftToRight a ++
          (Local.fill (4 : U16).toNat 0).bytes.drop 4) = some (a, []) := readUint32_bytes a
      dsimp only [settle]
      rw [if_pos (Int.le_refl 0)]
      show Leaves _ _ (ofOption ((readUint32 .leftToRight).run (bytes32 .leftToRight a ++
        (Local.fill (4 : U16).toNat 0).bytes.drop 4)) >>= _) _ _ _
      rw [hread]
      exact .done hl'

/-- The interrupt flags. -/
theorem irqFlags_asks (h : Rests m messageNum l) (flagsToClear flags : U32) :
    Gets rep clock starve (llIrqFlags fuel checksumBuff messageNum flagsToClear flags) l
      (ask rep m (.irqFlags flagsToClear) (fun a => ((4 : Int), a)) fun ret => (ret, flags)) := by
  have hasked : asked 15 (flagsBytes flagsToClear).bytes = some (.irqFlags flagsToClear) := by
    rw [flagsBytes_eq]
    exact congrArg (fun x => some (Question.irqFlags x)) (netToken_kept flagsToClear)
  have hasks := @queryThen_asks μ rep clock starve fuel m messageNum l checksumBuff hclock hdry
    hfuel _ h (.irqFlags flagsToClear) 15 (.all (flagsBytes flagsToClear) four_bytes) 4
    (Local.fill (4 : U16).toNat 0)
    (fun rwResponse outBuf => (rwResponse, if rwResponse > 0 then flagsTemp outBuf else flags))
    (by decide) rfl hasked
  rw [ask_congr (fun a => ?told) (fun ret hret => ?refused)] at hasks
  · exact hasks
  case told =>
    exact congrArg (Prod.mk (4 : Int))
      ((if_pos (show (4 : Int) > 0 by decide)).trans (netToken_kept a))
  case refused => rw [if_neg (by omega)]

/-- The assertion. -/
theorem assertInfo_asks (h : Rests m messageNum l) {tmpArr : Local (24 : U16).toNat}
    (filename : List U8) (filenameLen : U16) (line : U32) :
    Gets rep clock starve
      (llGetAssertInfo fuel checksumBuff messageNum tmpArr filename filenameLen line) l
      (ask rep m .assertInfo (fun a => ((24 : Int), a.filename.bytes.take (copyLen filenameLen) ++
        filename.drop (copyLen filenameLen), a.line)) fun ret => (ret, filename, line)) := by
  have hasks := @queryThen_asks μ rep clock starve fuel m messageNum l checksumBuff hclock hdry
    hfuel _ h .assertInfo 248 .nothing 24 tmpArr (assertInfo filename filenameLen line)
    (by decide) rfl rfl
  rw [ask_congr (fun a => ?told) (fun ret hret => ?refused)] at hasks
  · exact hasks
  case told =>
    unfold assertInfo
    rw [if_pos (by decide)]
    show (_, _, assertLine ((netTokenBuff a.line).bytes ++ a.filename.bytes)) = _
    rw [assertLine_bytes]
    rfl
  case refused =>
    unfold assertInfo
    rw [if_neg (by omega)]

/-- One of the states. -/
theorem statePart_asks (h : Rests m messageNum l) (q : Question) {op : U8}
    {u8State : Local (1 : U16).toNat} {out : Option U32} {ret : Int} {value : q.Answer → U32}
    (hlen : q.size = 1) (hasked : asked op [] = some q)
    (hvalue : ∀ a, ((q.bytes a).getD 0 0).signExtend 32 = value a) :
    Gets rep clock starve (statePart fuel messageNum checksumBuff op u8State out ret) l
      (askState rep m q value out ret) := by
  cases out with
  | none => exact .done h
  | some old =>
    have hasks := @queryThen_asks μ rep clock starve fuel m messageNum l checksumBuff hclock hdry
      hfuel _ h q op .nothing 1 u8State
      (fun ret u8State => (ret, some (if 0 > ret then old else (u8State.getD 0 0).signExtend 32)))
      one_byte hlen hasked
    rw [ask_congr (fun a => ?told) (fun ret hret => ?refused)] at hasks
    · exact hasks
    case told => rw [hlen, if_neg (by decide), hvalue]; rfl
    case refused => rw [if_pos hret]

/-- The three of them. -/
theorem getState_asks (h : Rests m messageNum l) {checksumBuff : Nat → List U8}
    {u8State : Nat → Local (1 : U16).toNat} (v : StateVars) :
    Gets rep clock starve (llGetState fuel messageNum checksumBuff u8State v) l
      (askStates rep m v) := by
  have hstate := @statePart_asks μ rep clock starve fuel m messageNum l (checksumBuff 0) hclock
    hdry hfuel h .state 2 (u8State 0) v.state 0 (BitVec.signExtend 32) rfl rfl fun _ => rfl
  unfold llGetState askStates
  generalize askState rep m .state (BitVec.signExtend 32) v.state 0 = r at hstate ⊢
  refine hstate.bind fun messageNum₁ l₁ h₁ => ?_
  dsimp only
  by_cases hneg : r.1.1 < 0
  · rw [if_pos hneg, if_pos hneg]
    exact .done h₁
  · rw [if_neg hneg, if_neg hneg]
    have htx := @statePart_asks μ rep clock starve fuel r.2 messageNum₁ l₁ (checksumBuff 1) hclock
      hdry hfuel h₁ .txState 3 (u8State 1) v.txState r.1.1 (BitVec.signExtend 32) rfl rfl
      fun _ => rfl
    generalize askState rep r.2 .txState (BitVec.signExtend 32) v.txState r.1.1 = r' at htx ⊢
    refine htx.bind fun messageNum₂ l₂ h₂ => ?_
    dsimp only
    by_cases hneg' : r'.1.1 < 0
    · rw [if_pos hneg', if_pos hneg']
      exact .done h₂
    · rw [if_neg hneg', if_neg hneg']
      exact (statePart_asks hclock hdry hfuel h₂ .rxState rfl rfl fun _ => rfl).bind
        fun messageNum₃ l₃ h₃ => .done h₃

/-- **What is called is asked**, for every function. -/
theorem reports_carry : Carries (reports rep) (remote (reporting rep) clock starve) Rests
    fun e messageNum => e.call.run fuel e.checksumBuff e.buff messageNum := by
  rintro ⟨call, checksumBuff, buff⟩ m messageNum l h
  cases call with
  | firmwareTypeGet t =>
    exact guarded_asks hclock hdry hfuel h .firmwareType (by decide) rfl rfl firmwareType_bytes
  | hardwareTypeGet t =>
    exact guarded_asks hclock hdry hfuel h .hardwareType (by decide) rfl rfl fun _ => rfl
  | interfaceVersionGet v =>
    exact guarded_asks hclock hdry hfuel h .interfaceVersion (by decide) rfl rfl version_bytes
  | versionGet v =>
    exact guarded_asks hclock hdry hfuel h .version (by decide) rfl rfl version_bytes
  | uniqueIdGet u =>
    exact getter_asks hclock hdry hfuel h .uniqueId (by decide) rfl rfl
      (fun a => congrArg some (uniqueId_bytes a)) rfl
  | irqFlags flagsToClear flags => exact irqFlags_asks hclock hdry hfuel h flagsToClear flags
  | timestampSet operation timestampUs actualTimestampUs =>
    exact timestamp_asks hclock hdry hfuel h operation timestampUs actualTimestampUs
  | timestampGet timestampUs =>
    have hasks := @timestamp_asks μ rep clock starve fuel m messageNum l (checksumBuff 0) hclock
      hdry hfuel h 0 0 timestampUs
    rw [show (0 : U32).setWidth 8 = (0 : U8) by decide] at hasks
    exact hasks
  | getAssertInfo filename filenameLen line =>
    exact assertInfo_asks hclock hdry hfuel h filename filenameLen line
  | netInfoGet p =>
    exact getter_asks hclock hdry hfuel h .netInfo (by decide) rfl rfl
      (fun a => (llNetInfoDeserialize_decodes _).value_written a.2)
      ((llNetInfoDeserialize_decodes _).value_isSome (buff 0 30).length_eq)
  | statsGet s =>
    exact getter_asks hclock hdry hfuel h .stats (by decide) rfl rfl
      (fun _ => (llStatsDeserialize_decodes _).value_written trivial)
      ((llStatsDeserialize_decodes _).value_isSome (buff 0 40).length_eq)
  | systemTimeGet t =>
    exact getter_asks hclock hdry hfuel h .systemTime (by decide) rfl rfl
      (fun _ => (llTimeDeserialize_decodes _).value_written trivial)
      ((llTimeDeserialize_decodes _).value_isSome (buff 0 13).length_eq)
  | getState v =>
    show Gets rep clock starve (llGetState fuel messageNum checksumBuff (fun i => buff i _) v) l
      (askStates rep m v)
    exact getState_asks hclock hdry hfuel h v
  | appRegGet isRegistered =>
    have hasks := @readInto_asks μ rep clock starve fuel m messageNum l (checksumBuff 0) hclock hdry
      hfuel h .appReg 126 1 1 one_fits isRegistered (by decide) rfl rfl
    cases isRegistered with
    | none => exact hasks
    | some old =>
      change Gets _ _ _ _ l (ask rep m .appReg _ _) at hasks
      rw [ask_congr (fun a => ?told) (fun ret _ => rfl)] at hasks
      · exact hasks
      case told =>
        have hdrop : old.bytes.drop Question.appReg.size = [] :=
          List.drop_of_length_le (Nat.le_of_eq old.length_eq)
        rw [hdrop]
        rfl

end Line

theorem Rests.unique {μ : Type} {m m' : μ} {messageNum : U32} {l : Link μ}
    (h : Rests m messageNum l) (h' : Rests m' messageNum l) : m = m' := by
  obtain ⟨served, h⟩ := h
  obtain ⟨served', h'⟩ := h'
  exact h.state.symm.trans h'.state

section Program

variable {μ α : Type} {rep : Reporter μ} {clock : Nat → Int × Time} {starve : Starve}

/-- A program of these calls on the line, with the global `message_num`. -/
def reportsOnLine (fuel : Nat) (p : Prog ReportReply α) (messageNum : U32) : IfcM (α × U32) :=
  interpWith (fun e messageNum => e.call.run fuel e.checksumBuff e.buff messageNum) p messageNum

/-- **What the module says is what the host gets.** Whatever a program asks, and whatever it makes
of the answers, it ends on the line as it does with the answers themselves. -/
theorem reports_ends_iff (hclock : Prompt clock) (hdry : Dry starve) {fuel : Nat}
    (hfuel : 65540 ≤ fuel) {p : Prog ReportReply α} {m m' : μ} {messageNum : U32} {l : Link μ}
    (hl : Rests m messageNum l) {a : α} :
    (∃ messageNum' l', Ends (remote (reporting rep) clock starve)
        (reportsOnLine fuel p messageNum) l (a, messageNum') l' ∧ Rests m' messageNum' l') ↔
      Ends (reports rep) p m a m' := by
  have hcarries := @reports_carry μ rep clock starve fuel hclock hdry hfuel
  constructor
  · intro h
    obtain ⟨messageNum', l', hends, hl'⟩ := h
    obtain ⟨m₁, hasks, hl₁⟩ := hcarries.ends_above hl hends
    obtain rfl : m₁ = m' := hl₁.unique hl'
    exact hasks
  · intro h
    exact hcarries.ends hl h

end Program

theorem six_ne : (6 : U8) ≠ 0 := by decide

/-- A module with interrupt flags, of which it clears those it is told to, and in an error state: it
says nothing of its messages. -/
def interrupted : Reporter U32 := fun flags q =>
  match q with
  | .irqFlags flagsToClear => (.ok flags, flags &&& ~~~flagsToClear)
  | .state => (.ok 0xFF, flags)
  | _ => (.error ⟨6, six_ne⟩, flags)

/-- Read the flags, clear what has been read, and ask for the states. -/
def clearFlags : Prog ReportReply (U32 × Int × StateVars) :=
  .call ⟨.irqFlags 0 0, fun _ => [0, 0], fun _ size => Local.fill size 0⟩ fun flags =>
    .call ⟨.irqFlags flags.2 0, fun _ => [0, 0], fun _ size => Local.fill size 0⟩ fun _ =>
      .call ⟨.getState ⟨some 0, some 0, some 0⟩, fun _ => [0, 0], fun _ size => Local.fill size 0⟩
        fun r => .done (flags.2, r)

theorem reports_ends_interrupted :
    ∃ messageNum' l', Ends (remote (reporting interrupted) still silent)
        (reportsOnLine 65540 clearFlags 7) ⟨⟨[], 0, false⟩, [], [], 0x80000102⟩
        ((0x80000102, -6, ⟨some 0xFFFFFFFF, some 0, some 0⟩), messageNum') l' ∧
      Rests 0 messageNum' l' :=
  (@reports_ends_iff U32 (U32 × Int × StateVars) interrupted still silent still_prompt silent_dry
    65540 (Nat.le_refl _) clearFlags 0x80000102 0 7 ⟨⟨[], 0, false⟩, [], [], 0x80000102⟩
    ⟨[], rfl, rfl, rfl, rfl, rfl, rfl⟩ _).mpr ⟨_, rfl⟩

end HostInterface.Ifc
