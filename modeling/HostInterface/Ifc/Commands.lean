import HostInterface.Ifc.Settings
import Mathlib.Data.Prod.Basic

/-!
# Commands that want no payload back

Most of what an application asks of the module is a command whose answer is an ACK or a NACK:
there is a function for each, which tests its arguments and makes the payload. `understood` is the
other side of these functions, a module that reads the call off the opcode and the payload.

With such a module at the end of the line, whatever it does when it is told what has been called,
no program can tell the calls from being told directly (`commands_ends_iff`): every call with
arguments in range gets there as it was made, once and in order, the others do not, and
`ll_reset_state` does nothing but start the numbers over.
-/

namespace HostInterface.Ifc

open Interact Prog

section Functions

variable (fuel : Nat) (checksumBuff : List U8) (messageNum : U32)

/-! ## `ll_ifc.c` -/

/-- `ll_sleep_block`. -/
def llSleepBlock : IfcM (Int × U32) :=
  setter fuel checksumBuff messageNum 21 (.all (byteBuff 0x31) one_byte) -- "1"

/-- `ll_sleep_unblock`. -/
def llSleepUnblock : IfcM (Int × U32) :=
  setter fuel checksumBuff messageNum 21 (.all (byteBuff 0x30) one_byte) -- "0"

/-- `ll_settings_store`. -/
def llSettingsStore : IfcM (Int × U32) :=
  setter fuel checksumBuff messageNum 51 .nothing

/-- `ll_settings_delete`. -/
def llSettingsDelete : IfcM (Int × U32) :=
  setter fuel checksumBuff messageNum 52 .nothing

/-- `ll_restore_defaults`. -/
def llRestoreDefaults : IfcM (Int × U32) :=
  setter fuel checksumBuff messageNum 8 .nothing

/-- `ll_sleep`. -/
def llSleep : IfcM (Int × U32) :=
  setter fuel checksumBuff messageNum 20 .nothing

/-- `ll_reset_mcu`. -/
def llResetMcu : IfcM (Int × U32) :=
  setter fuel checksumBuff messageNum 60 .nothing

theorem two_bytes : (2 : U16) ≠ 0 := by decide

/-- The `cmd_buf` of `ll_trigger_watchdog`. -/
def watchdogBuf : Local (2 : U16).toNat :=
  ⟨[0x00, 0x01], rfl⟩

/-- `ll_trigger_watchdog`. -/
def llTriggerWatchdog : IfcM (Int × U32) :=
  setter fuel checksumBuff messageNum 97 (.all watchdogBuf two_bytes)

/-- `ll_trigger_assert`. -/
def llTriggerAssert : IfcM (Int × U32) :=
  setter fuel checksumBuff messageNum 249 .nothing

/-- `ll_reset_state`, which gets the number and does not look at it. -/
def llResetState : IfcM (Int × U32) :=
  .done (0, 0)

/-! ## `ll_ifc_no_mac.c` -/

theorem sixteen_bytes : (16 : U16) ≠ 0 := by decide

/-- The `buf` of `ll_rssi_scan_set`. -/
def rssiScanBuf (u1 u2 u3 u4 : U32) : Local (16 : U16).toNat :=
  ⟨[(u1 >>> 24).setWidth 8, (u1 >>> 16).setWidth 8, (u1 >>> 8).setWidth 8, u1.setWidth 8,
    (u2 >>> 24).setWidth 8, (u2 >>> 16).setWidth 8, (u2 >>> 8).setWidth 8, u2.setWidth 8,
    (u3 >>> 24).setWidth 8, (u3 >>> 16).setWidth 8, (u3 >>> 8).setWidth 8, u3.setWidth 8,
    (u4 >>> 24).setWidth 8, (u4 >>> 16).setWidth 8, (u4 >>> 8).setWidth 8, u4.setWidth 8], rfl⟩

/-- `ll_rssi_scan_set`. -/
def llRssiScanSet (u1 u2 u3 u4 : U32) : IfcM (Int × U32) :=
  setter fuel checksumBuff messageNum 120 (.all (rssiScanBuf u1 u2 u3 u4) sixteen_bytes)

/-- `ll_echo_mode`. -/
def llEchoMode : IfcM (Int × U32) :=
  setter fuel checksumBuff messageNum 31 .nothing

/-- `ll_transmit_cw`. -/
def llTransmitCw : IfcM (Int × U32) :=
  setter fuel checksumBuff messageNum 98 .nothing

/-! ## `ll_ifc_symphony.c` -/

/-- `ll_mailbox_request`. -/
def llMailboxRequest : IfcM (Int × U32) :=
  setter fuel checksumBuff messageNum 129 .nothing

/-- `ll_encryption_key_exchange_request`. -/
def llEncryptionKeyExchangeRequest : IfcM (Int × U32) :=
  setter fuel checksumBuff messageNum 128 .nothing

/-- `ll_system_time_sync`. -/
def llSystemTimeSync (syncMode : U8) : IfcM (Int × U32) :=
  if syncMode > 1 then .done (errorIncorrectParameter, messageNum)
  else setter fuel checksumBuff messageNum 109 (.all (byteBuff syncMode) one_byte)

end Functions

/-! ## Calls -/

/-- A call of one of these functions, or of a setter. -/
inductive CommandCall where
  | sleepBlock
  | sleepUnblock
  | settingsStore
  | settingsDelete
  | restoreDefaults
  | sleep
  | resetMcu
  | triggerWatchdog
  | triggerAssert
  | echoMode
  | transmitCw
  | mailboxRequest
  | encryptionKeyExchangeRequest
  | systemTimeSync (syncMode : U8)
  | rssiScanSet (u1 u2 u3 u4 : U32)
  | netTokenSet (netToken : U32)
  | macModeSet (macMode : U32)
  | antennaSet (ant : U8)
  | connectionFilterSet (f : U8)
  | txPowerSet (pwr : U8)
  | syncWordSet (syncWord : U8)
  | dlBandCfgSet (p : Option DlBandCfg)

/-- The function that is called. -/
def CommandCall.run (fuel : Nat) (checksumBuff : List U8) (messageNum : U32) :
    CommandCall → IfcM (Int × U32)
  | sleepBlock => llSleepBlock fuel checksumBuff messageNum
  | sleepUnblock => llSleepUnblock fuel checksumBuff messageNum
  | settingsStore => llSettingsStore fuel checksumBuff messageNum
  | settingsDelete => llSettingsDelete fuel checksumBuff messageNum
  | restoreDefaults => llRestoreDefaults fuel checksumBuff messageNum
  | sleep => llSleep fuel checksumBuff messageNum
  | resetMcu => llResetMcu fuel checksumBuff messageNum
  | triggerWatchdog => llTriggerWatchdog fuel checksumBuff messageNum
  | triggerAssert => llTriggerAssert fuel checksumBuff messageNum
  | echoMode => llEchoMode fuel checksumBuff messageNum
  | transmitCw => llTransmitCw fuel checksumBuff messageNum
  | mailboxRequest => llMailboxRequest fuel checksumBuff messageNum
  | encryptionKeyExchangeRequest => llEncryptionKeyExchangeRequest fuel checksumBuff messageNum
  | systemTimeSync syncMode => llSystemTimeSync fuel checksumBuff messageNum syncMode
  | rssiScanSet u1 u2 u3 u4 => llRssiScanSet fuel checksumBuff messageNum u1 u2 u3 u4
  | netTokenSet netToken => llNetTokenSet fuel checksumBuff messageNum netToken
  | macModeSet macMode => llMacModeSet fuel checksumBuff messageNum macMode
  | antennaSet ant => llAntennaSet fuel checksumBuff messageNum ant
  | connectionFilterSet f => llConnectionFilterSet fuel checksumBuff messageNum f
  | txPowerSet pwr => llTxPowerSet fuel checksumBuff messageNum pwr
  | syncWordSet syncWord => llSyncWordSet fuel checksumBuff messageNum syncWord
  | dlBandCfgSet p => llDlBandCfgSet fuel checksumBuff messageNum p

/-- Its arguments are in range. -/
def CommandCall.inRange : CommandCall → Bool
  | systemTimeSync syncMode => syncMode ≤ 1
  | netTokenSet netToken => netToken ≠ 0xFFFFFFFF
  | macModeSet macMode => macMode < numMacs
  | antennaSet ant => ant = 1 ∨ ant = 2
  | txPowerSet pwr => -4 ≤ pwr.toInt ∧ pwr.toInt ≤ 26
  | dlBandCfgSet p => p.isSome
  | _ => true

/-- What has been called, as the module reads it off a command. -/
def understood (op : U8) (payload : List U8) : Option CommandCall :=
  match op.toNat, payload with
  | 21, [b] =>
    if b = 0x31 then some .sleepBlock else if b = 0x30 then some .sleepUnblock else none
  | 51, [] => some .settingsStore
  | 52, [] => some .settingsDelete
  | 8, [] => some .restoreDefaults
  | 20, [] => some .sleep
  | 60, [] => some .resetMcu
  | 97, [hi, lo] => if hi = 0 ∧ lo = 1 then some .triggerWatchdog else none
  | 249, [] => some .triggerAssert
  | 31, [] => some .echoMode
  | 98, [] => some .transmitCw
  | 129, [] => some .mailboxRequest
  | 128, [] => some .encryptionKeyExchangeRequest
  | 109, [syncMode] => some (.systemTimeSync syncMode)
  | 120, payload =>
    some (.rssiScanSet (netToken payload) (netToken (payload.drop 4)) (netToken (payload.drop 8))
      (netToken (payload.drop 12)))
  | 116, payload => some (.netTokenSet (netToken payload))
  | 70, [macMode] => some (.macModeSet (macMode.setWidth 32))
  | 114, [ant] => some (.antennaSet ant)
  | 93, [f] => some (.connectionFilterSet f)
  | 7, [pwr] => some (.txPowerSet pwr)
  | 13, [syncWord] => some (.syncWordSet syncWord)
  | 123, payload =>
    (llDlBandCfgDeserialize .leftToRight payload).map fun x => .dlBandCfgSet (some x.1)
  | _, _ => none

/-- What a function does: it sends a command from which its call can be read off, or nothing, where
an argument is out of range. -/
inductive CommandCall.Runs (fuel : Nat) (checksumBuff : List U8) (messageNum : U32)
    (c : CommandCall) : IfcM (Int × U32) → Prop
  | sent {op : U8} {sent : Sent} : c.inRange = true →
      understood op (order op sent).payload = some c →
      c.Runs fuel checksumBuff messageNum (setter fuel checksumBuff messageNum op sent)
  | refused : c.inRange = false →
      c.Runs fuel checksumBuff messageNum (.done (errorIncorrectParameter, messageNum))

section Run

variable (fuel : Nat) (checksumBuff : List U8) (messageNum : U32)

/-- A function with a test. -/
theorem CommandCall.Runs.tested (ok : Prop) [Decidable ok] {c : CommandCall} {op : U8} {sent : Sent}
    {p : IfcM (Int × U32)} (hrange : c.inRange = decide ok)
    (hsent : ok → p = setter fuel checksumBuff messageNum op sent)
    (hrefused : ¬ ok → p = .done (errorIncorrectParameter, messageNum))
    (hunderstood : ok → understood op (order op sent).payload = some c) :
    c.Runs fuel checksumBuff messageNum p := by
  by_cases hok : ok
  · rw [hsent hok]
    exact .sent (hrange.trans (decide_eq_true hok)) (hunderstood hok)
  · rw [hrefused hok]
    exact .refused (hrange.trans (decide_eq_false hok))

theorem rssiScan_understood (u1 u2 u3 u4 : U32) :
    understood 120 (rssiScanBuf u1 u2 u3 u4).bytes = some (.rssiScanSet u1 u2 u3 u4) := by
  show some (CommandCall.rssiScanSet (netToken (netTokenBuff u1).bytes)
    (netToken (netTokenBuff u2).bytes) (netToken (netTokenBuff u3).bytes)
    (netToken (netTokenBuff u4).bytes)) = _
  rw [netToken_kept, netToken_kept, netToken_kept, netToken_kept]

theorem dlBandCfg_understood (p : DlBandCfg) :
    understood 123 (dlBandCfgBuff p).bytes = some (.dlBandCfgSet (some p)) := by
  have hkept := dlBandCfg_kept p
  show (llDlBandCfgDeserialize .leftToRight (dlBandCfgBuff p).bytes).map
    (fun x => CommandCall.dlBandCfgSet (some x.1)) = _
  rw [show (fun x : DlBandCfg × _ => CommandCall.dlBandCfgSet (some x.1)) =
    (fun q => .dlBandCfgSet (some q)) ∘ Prod.fst from rfl, ← Option.map_map, hkept]
  rfl

/-- A MAC mode fits into a byte. -/
theorem macMode_kept {macMode : U32} (h : macMode < numMacs) :
    (macMode.setWidth 8).setWidth 32 = macMode := by
  rw [BitVec.lt_def] at h
  have hlt : macMode.toNat < 4 := h
  apply BitVec.eq_of_toNat_eq
  rw [BitVec.toNat_setWidth, BitVec.toNat_setWidth]
  omega

/-- One function at a time. -/
theorem CommandCall.run_runs (c : CommandCall) :
    c.Runs fuel checksumBuff messageNum (c.run fuel checksumBuff messageNum) := by
  cases c with
  | sleepBlock => exact .sent rfl rfl
  | sleepUnblock => exact .sent rfl rfl
  | settingsStore => exact .sent rfl rfl
  | settingsDelete => exact .sent rfl rfl
  | restoreDefaults => exact .sent rfl rfl
  | sleep => exact .sent rfl rfl
  | resetMcu => exact .sent rfl rfl
  | triggerWatchdog => exact .sent rfl rfl
  | triggerAssert => exact .sent rfl rfl
  | echoMode => exact .sent rfl rfl
  | transmitCw => exact .sent rfl rfl
  | mailboxRequest => exact .sent rfl rfl
  | encryptionKeyExchangeRequest => exact .sent rfl rfl
  | connectionFilterSet f => exact .sent rfl rfl
  | syncWordSet syncWord => exact .sent rfl rfl
  | rssiScanSet u1 u2 u3 u4 => exact .sent rfl (rssiScan_understood u1 u2 u3 u4)
  | systemTimeSync syncMode =>
    exact .tested fuel checksumBuff messageNum (syncMode ≤ 1) rfl
      (fun hok => if_neg (BitVec.not_lt.mpr hok)) (fun hnot => if_pos (BitVec.not_le.mp hnot))
      fun _ => rfl
  | netTokenSet netToken =>
    exact .tested fuel checksumBuff messageNum (netToken ≠ 0xFFFFFFFF) rfl
      (fun hok => if_pos hok) (fun hnot => if_neg hnot)
      fun _ => congrArg (fun x => some (netTokenSet x)) (netToken_kept netToken)
  | macModeSet macMode =>
    exact .tested fuel checksumBuff messageNum (macMode < numMacs) rfl
      (fun hok => if_neg (BitVec.not_le.mpr hok)) (fun hnot => if_pos (BitVec.not_lt.mp hnot))
      fun hok => congrArg (fun x => some (macModeSet x)) (macMode_kept hok)
  | antennaSet ant =>
    exact .tested fuel checksumBuff messageNum (ant = 1 ∨ ant = 2) rfl (fun hok => if_pos hok)
      (fun hnot => if_neg hnot) fun _ => rfl
  | txPowerSet pwr =>
    exact .tested fuel checksumBuff messageNum (-4 ≤ pwr.toInt ∧ pwr.toInt ≤ 26) rfl
      (fun hok => if_neg (by omega)) (fun hnot => if_pos (by omega)) fun _ => rfl
  | dlBandCfgSet p =>
    cases p with
    | none => exact .refused rfl
    | some p => exact .sent rfl (dlBandCfg_understood p)

end Run

/-! ## A module that is told what has been called -/

/-- A call in a program. -/
inductive HostCall where
  | resetState
  | command (c : CommandCall)

/-- A call, and what its stack holds. -/
structure HostEvent where
  call : HostCall
  checksumBuff : List U8

abbrev HostReply (_ : HostEvent) : Type := Int

def HostCall.run (fuel : Nat) (checksumBuff : List U8) (messageNum : U32) :
    HostCall → IfcM (Int × U32)
  | resetState => llResetState
  | command c => c.run fuel checksumBuff messageNum

/-- What a function returns for an answer. -/
def Served.returned (a : Served) : Int :=
  if 0 < a.payload.length then errorBufferTooSmall
  else if a.ack = 0 then 0
  else -(a.ack.toNat : Int)

/-- Its state, the number of the next command, and what it has been told, with the numbers. -/
structure Told (μ : Type) where
  state : μ
  messageNum : U32
  calls : List (U8 × CommandCall)

section Line

variable {μ α : Type} (obey : μ → CommandCall → Served × μ)

/-- The module is told what is called, if the arguments are in range. -/
def told : (e : HostEvent) → Told μ → HostReply e × Told μ
  | ⟨.resetState, _⟩, d => ((0 : Int), { d with messageNum := 0 })
  | ⟨.command c, _⟩, d =>
    if c.inRange then
      ((obey d.state c).1.returned, ⟨(obey d.state c).2, d.messageNum + 1,
        d.calls ++ [(d.messageNum.setWidth 8, c)]⟩)
    else (errorIncorrectParameter, d)

/-- The same module at the end of a line: it refuses what it does not understand. -/
def obeying : Server μ := fun m op payload =>
  (understood op payload).elim (.refused 1, m) (obey m)

/-- What a command tells. -/
def Heeded.call (cmd : Heeded) : U8 × Option CommandCall :=
  (cmd.messageNum, understood cmd.op cmd.payload)

/-- Nothing is on the line, and the module at the end of it has been told the same. -/
structure Reported (d : Told μ) (messageNum : U32) (l : Link μ) : Prop where
  rest : l.line.rest = []
  looks : l.line.looks % 2 = 0
  frame : l.frame = []
  state : l.state = d.state
  calls : l.served.map Heeded.call = d.calls.map (Prod.map id some)
  messageNum : messageNum = d.messageNum

/-- The line and the number tell what it has been told. -/
theorem Reported.unique {d d' : Told μ} {messageNum : U32} {l : Link μ}
    (h : Reported d messageNum l) (h' : Reported d' messageNum l) : d = d' := by
  obtain ⟨state, num, calls⟩ := d
  obtain ⟨state', num', calls'⟩ := d'
  obtain rfl : state = state' := h.state.symm.trans h'.state
  obtain rfl : num = num' := h.messageNum.symm.trans h'.messageNum
  have hcalls : calls.map (Prod.map id some) = calls'.map (Prod.map id some) :=
    h.calls.symm.trans h'.calls
  obtain rfl : calls = calls' := List.map_injective_iff.mpr
    (Function.Injective.prodMap Function.injective_id fun _ _ => Option.some.inj) hcalls
  rfl

theorem Served.returned_eq (a : Served) (op : U8) (sent : Sent) :
    (a.result (order op sent)).1 = a.returned := by
  unfold Served.result Served.returned
  rw [show (order op sent).outLen.toNat = 0 from rfl]
  by_cases hlong : 0 < a.payload.length
  · rw [if_pos hlong, if_pos hlong]
  · rw [if_neg hlong, if_neg hlong]
    by_cases hack : a.ack = 0
    · rw [if_pos hack, if_pos hack]
      exact congrArg Int.ofNat (Nat.eq_zero_of_not_pos hlong)
    · rw [if_neg hack, if_neg hack]

variable {obey} {clock : Nat → Int × Time} {starve : Starve}

/-- **A call is a call of the module.** -/
theorem hostCall_reports (hclock : Prompt clock) (hdry : Dry starve) {fuel : Nat}
    (hfuel : 65540 ≤ fuel) :
    Carries (told obey) (remote (obeying obey) clock starve) Reported fun e messageNum =>
      e.call.run fuel e.checksumBuff messageNum := by
  intro e d messageNum l hl
  obtain ⟨call, checksumBuff⟩ := e
  obtain rfl := hl.messageNum
  cases call with
  | resetState => exact ⟨0, l, .done _ _, hl.rest, hl.looks, hl.frame, hl.state, hl.calls, rfl⟩
  | command c =>
    unfold told
    dsimp only [HostCall.run]
    have hruns := c.run_runs fuel checksumBuff d.messageNum
    generalize c.run fuel checksumBuff d.messageNum = q at hruns ⊢
    cases hruns with
    | refused hrange =>
      rw [hrange, if_neg Bool.false_ne_true]
      exact ⟨d.messageNum, l, .done _ _, hl⟩
    | @sent op sent hrange hunderstood =>
      rw [hrange, if_pos rfl]
      -- The exchange is a call of the server, which understands the command.
      have hsettled : Settled ⟨l.state, d.messageNum, l.served⟩ d.messageNum l :=
        ⟨hl.rest, hl.looks, hl.frame, rfl, rfl, rfl⟩
      obtain ⟨messageNum', l', hends, hl'⟩ := @halReadWrite_settles μ (obeying obey) clock starve
        hclock hdry fuel hfuel ⟨order op sent, checksumBuff⟩ _ _ _ hsettled
      have hserved : obeying obey l.state op (order op sent).payload = obey d.state c := by
        unfold obeying
        rw [hunderstood, hl.state]
        rfl
      unfold desk at hends hl'
      dsimp only at hends hl'
      rw [if_pos (order_valid op sent)] at hends hl'
      change Settled ⟨(obeying obey l.state op (order op sent).payload).2, _, _⟩ _ _ at hl'
      change Ends _ _ _ (((obeying obey l.state op (order op sent).payload).1.result _, _)) _
        at hends
      rw [hserved] at hends hl'
      rw [← Served.returned_eq _ op sent]
      refine ⟨messageNum', l', hends.bind (.done _ _), hl'.rest, hl'.looks, hl'.frame,
        hl'.state, ?_, hl'.messageNum⟩
      rw [hl'.served, List.map_append, hl.calls, List.map_append]
      show _ ++ [((d.messageNum.setWidth 8), understood op (order op sent).payload)] = _
      rw [hunderstood]
      rfl

/-- A program of calls on the line, with the global `message_num`. -/
def callsOnLine (fuel : Nat) (p : Prog HostReply α) (messageNum : U32) : IfcM (α × U32) :=
  interpWith (fun e messageNum => e.call.run fuel e.checksumBuff messageNum) p messageNum

/-- **The module gets what has been called.** Whatever a program makes of what the functions return,
it ends on the line as it does with a module that is told the calls: the same results, and the calls
in range, each once and in order, read off the commands as they were made. -/
theorem commands_ends_iff (hclock : Prompt clock) (hdry : Dry starve) {fuel : Nat}
    (hfuel : 65540 ≤ fuel) {p : Prog HostReply α} {d d' : Told μ} {messageNum : U32} {l : Link μ}
    (hl : Reported d messageNum l) {a : α} :
    (∃ messageNum' l', Ends (remote (obeying obey) clock starve) (callsOnLine fuel p messageNum) l
        (a, messageNum') l' ∧ Reported d' messageNum' l') ↔ Ends (told obey) p d a d' := by
  have hcarries := @hostCall_reports μ obey clock starve hclock hdry fuel hfuel
  constructor
  · intro h
    obtain ⟨messageNum', l', hends, hl'⟩ := h
    obtain ⟨d₁, htold, hl₁⟩ := hcarries.ends_above hl hends
    obtain rfl : d₁ = d' := hl₁.unique hl'
    exact htold
  · intro h
    exact hcarries.ends hl h

end Line

/-- A module that is busy until it has been reset. -/
def busyUntilReset (awake : Bool) : CommandCall → Served × Bool
  | .resetMcu => (.done [] empty_small, true)
  | _ => (if awake then .done [] empty_small else .refused 6, awake)

/-- Set the antenna to 3, and to 2; reset the module if that fails, and start the numbers over. -/
def antennaAfterReset : Prog HostReply Int :=
  .call ⟨.command (.antennaSet 3), [0, 0]⟩ fun _ =>
    .call ⟨.command (.antennaSet 2), [0, 0]⟩ fun ret =>
      if ret = 0 then .done ret
      else .call ⟨.command .resetMcu, [0, 0]⟩ fun _ =>
        .call ⟨.resetState, []⟩ fun _ => .call ⟨.command (.antennaSet 2), [0, 0]⟩ .done

theorem commands_ends_busy :
    ∃ messageNum' l', Ends (remote (obeying busyUntilReset) still silent)
        (callsOnLine 65540 antennaAfterReset 7) ⟨⟨[], 0, false⟩, [], [], false⟩ (0, messageNum') l' ∧
      Reported ⟨true, 1, [(7, .antennaSet 2), (8, .resetMcu), (0, .antennaSet 2)]⟩ messageNum' l' :=
  (@commands_ends_iff Bool Int busyUntilReset still silent still_prompt silent_dry 65540
    (Nat.le_refl _) antennaAfterReset ⟨false, 7, []⟩ _ 7 ⟨⟨[], 0, false⟩, [], [], false⟩
    ⟨rfl, rfl, rfl, rfl, rfl, rfl⟩ 0).mpr ⟨_, rfl⟩

end HostInterface.Ifc
