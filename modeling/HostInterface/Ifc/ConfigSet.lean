import HostInterface.Ifc.Setter

/-!
# Setting the configuration (`ll_config_set`)

Each of the four setters validates its own argument and sends its own command, and they are
called one after the other. So an invalid argument is found when the ones before it have
been sent. `configSet_written` says what has been written in each run, and how far it has come.

Here the other side is anything, as in `HostInterface.Ifc.Reads`.
-/

namespace HostInterface.Ifc

open Interact Prog

/-- The bytes written in a run, in order. -/
def written : List (Event Reply) → List U8
  | [] => []
  | ⟨.transportWrite buf, _⟩ :: tr => buf ++ written tr
  | ⟨.transportRead _, _⟩ :: tr => written tr
  | ⟨.gettime, _⟩ :: tr => written tr

theorem written_append (tr tr' : List (Event Reply)) :
    written (tr ++ tr') = written tr ++ written tr' := by
  induction tr with
  | nil => rfl
  | cons ev tr ih =>
    obtain ⟨e, r⟩ := ev
    cases e with
    | transportWrite buf => exact (congrArg (buf ++ ·) ih).trans (List.append_assoc ..).symm
    | transportRead len => exact ih
    | gettime => exact ih

/-- The frame of a command. -/
def commandFrame (c : Command) (messageNum : U8) : List U8 :=
  let header := [frameStart, c.op, messageNum] ++ be16 c.inLen
  let payload := (c.bufIn.getD []).take c.inLen.toNat
  List.replicate 4 0xff ++ header ++ payload ++ be16 (computeChecksum header payload)

/-- The frames of commands with consecutive message numbers. -/
def commandFrames (messageNum : U32) : List Command → List U8
  | [] => []
  | c :: cs => commandFrame c (messageNum.setWidth 8) ++ commandFrames (messageNum + 1) cs

/-! ## One exchange -/

/-- Its buffers pass the test for invalid combinations. -/
def Command.Valid (c : Command) : Prop :=
  badBuffer c.bufIn c.inLen = false ∧ badBuffer c.bufOut c.outLen = false

theorem listens_written {tr : List (Event Reply)} (h : ∀ ev ∈ tr, Listens ev.1) :
    written tr = [] := by
  induction tr with
  | nil => rfl
  | cons ev tr ih =>
    have hrest := ih fun ev hev => h ev (List.mem_cons_of_mem _ hev)
    have hfirst := h ev (List.mem_cons_self ..)
    obtain ⟨e, r⟩ := ev
    cases e with
    | transportWrite buf => exact hfirst.elim
    | transportRead len => exact hrest
    | gettime => exact hrest

theorem sendPacket_written {c : Command} {messageNum : U8} {tr : List (Event Reply)} {u : Unit}
    (h : Runs (sendPacket c.op messageNum c.bufIn c.inLen) tr u) :
    written tr = commandFrame c messageNum := by
  obtain ⟨r₁, tr₁, rfl, h₁⟩ := runs_call.mp h
  unfold commandFrame
  rw [List.append_assoc, List.append_assoc]
  split at h₁
  next =>
    obtain ⟨r₂, tr₂, rfl, h₂⟩ := runs_call.mp h₁
    obtain ⟨r₃, tr₃, rfl, h₃⟩ := runs_call.mp h₂
    obtain ⟨rfl, -⟩ := runs_done.mp h₃
    simp only [written, List.append_nil, List.append_assoc]
  next hnone =>
    -- Without a buffer the payload is empty.
    obtain ⟨r₂, tr₂, rfl, h₂⟩ := runs_call.mp h₁
    obtain ⟨rfl, -⟩ := runs_done.mp h₂
    rw [Option.not_isSome_iff_eq_none.mp hnone]
    simp only [written, Option.getD_none, List.take_nil, List.nil_append, List.append_nil,
      List.append_assoc]

/-- An exchange writes the frame of its command. -/
theorem halReadWrite_written {c : Command} (hc : c.Valid) {fuel : Nat} {checksumBuff : List U8}
    {messageNum messageNum' : U32} {tr : List (Event Reply)} {r : Int × Option (List U8)}
    (h : Runs (halReadWrite fuel checksumBuff messageNum c) tr (r, messageNum')) :
    written tr = commandFrame c (messageNum.setWidth 8) ∧ messageNum' = messageNum + 1 := by
  unfold halReadWrite at h
  rw [hc.1, hc.2, if_neg Bool.false_ne_true, if_neg Bool.false_ne_true] at h
  obtain ⟨tr₁, u, tr₂, hsend, h₁, rfl⟩ := runs_bind.mp h
  obtain ⟨tr₃, ret, tr₄, hrecv, h₂, rfl⟩ := runs_bind.mp h₁
  obtain ⟨rfl, heq⟩ := runs_pure.mp h₂
  obtain ⟨-, rfl⟩ := Prod.mk.inj heq
  refine ⟨?_, rfl⟩
  rw [List.append_nil, written_append, sendPacket_written hsend,
    listens_written ((recvPacket_only _ _ _ _ _ _).runs hrecv), List.append_nil]

/-! ## Commands one after the other -/

section Steps

variable (fuel : Nat) (checksumBuff : Nat → List U8)

/-- Send the commands one after the other, until one fails or an argument is refused (`none`);
`ret` is what the one before has returned. -/
def runSteps : Nat → U32 → Int → List (Option Command) → IfcM (Int × U32)
  | _, messageNum, ret, [] => .done (ret, messageNum)
  | _, messageNum, _, none :: _ => .done (errorIncorrectParameter, messageNum)
  | i, messageNum, _, some c :: steps => do
    let ((ret, _), messageNum) ← halReadWrite fuel (checksumBuff i) messageNum c
    if 0 > ret then return (ret, messageNum)
    runSteps (i + 1) messageNum ret steps

/-- A run of exchanges which the module has all acknowledged. -/
inductive Acknowledged : Nat → U32 → List Command → List (Event Reply) → Prop where
  | nil {i : Nat} {messageNum : U32} : Acknowledged i messageNum [] []
  | cons {i : Nat} {messageNum : U32} {c : Command} {cs : List Command}
      {tr tr' : List (Event Reply)} {r : Int × Option (List U8)} :
      Runs (halReadWrite fuel (checksumBuff i) messageNum c) tr (r, messageNum + 1) → 0 ≤ r.1 →
      Acknowledged (i + 1) (messageNum + 1) cs tr' →
      Acknowledged i messageNum (c :: cs) (tr ++ tr')

/-- How the steps can come to an end. -/
inductive Outcome (i : Nat) (messageNum : U32) (steps : List (Option Command))
    (tr : List (Event Reply)) (ret : Int) : Prop where
  /-- An argument is refused; the commands before it have been acknowledged. -/
  | refused {cs : List Command} {later : List (Option Command)} :
      steps = cs.map some ++ none :: later → ret = errorIncorrectParameter →
      Acknowledged fuel checksumBuff i messageNum cs tr → written tr = commandFrames messageNum cs →
      Outcome i messageNum steps tr ret
  /-- An exchange fails; the commands before it have been acknowledged. -/
  | failed {cs : List Command} {c : Command} {later : List (Option Command)}
      {tr₁ tr₂ : List (Event Reply)} {r : Int × Option (List U8)} {messageNum' : U32} :
      steps = cs.map some ++ some c :: later → tr = tr₁ ++ tr₂ →
      Acknowledged fuel checksumBuff i messageNum cs tr₁ →
      Runs (halReadWrite fuel (checksumBuff (i + cs.length))
        (messageNum + BitVec.ofNat 32 cs.length) c) tr₂ (r, messageNum') →
      ret = r.1 → ret < 0 → written tr = commandFrames messageNum (cs ++ [c]) →
      Outcome i messageNum steps tr ret
  /-- All commands have been acknowledged. -/
  | passed {cs : List Command} :
      steps = cs.map some → 0 ≤ ret → Acknowledged fuel checksumBuff i messageNum cs tr →
      written tr = commandFrames messageNum cs → Outcome i messageNum steps tr ret

end Steps

theorem runSteps_outcome {fuel : Nat} {checksumBuff : Nat → List U8}
    {steps : List (Option Command)} (hsteps : ∀ c, some c ∈ steps → c.Valid) :
    ∀ {i : Nat} {messageNum messageNum' : U32} {ret₀ ret : Int} {tr : List (Event Reply)},
      0 ≤ ret₀ → Runs (runSteps fuel checksumBuff i messageNum ret₀ steps) tr (ret, messageNum') →
      Outcome fuel checksumBuff i messageNum steps tr ret := by
  induction steps with
  | nil =>
    intro i messageNum messageNum' ret₀ ret tr hret₀ h
    obtain ⟨rfl, heq⟩ := runs_done.mp h
    obtain ⟨rfl, -⟩ := Prod.mk.inj heq
    exact .passed (show [] = ([] : List Command).map some from rfl) hret₀ .nil rfl
  | cons step steps ih =>
    intro i messageNum messageNum' ret₀ ret tr hret₀ h
    cases step with
    | none =>
      obtain ⟨rfl, heq⟩ := runs_done.mp h
      obtain ⟨rfl, -⟩ := Prod.mk.inj heq
      have hcut : none :: steps = ([] : List Command).map some ++ none :: steps := rfl
      exact .refused hcut rfl .nil rfl
    | some c =>
      obtain ⟨tr₁, ⟨⟨ret₁, out⟩, num⟩, tr₂, h₁, h₂, rfl⟩ := runs_bind.mp h
      obtain ⟨hwritten, rfl⟩ := halReadWrite_written (hsteps c (List.mem_cons_self ..)) h₁
      dsimp only at h₂
      by_cases hneg : 0 > ret₁
      · rw [if_pos hneg] at h₂
        obtain ⟨rfl, heq⟩ := runs_pure.mp h₂
        obtain ⟨rfl, rfl⟩ := Prod.mk.inj heq
        have hcut : some c :: steps = ([] : List Command).map some ++ some c :: steps := rfl
        have hfirst : Runs (halReadWrite fuel (checksumBuff (i + ([] : List Command).length))
            (messageNum + BitVec.ofNat 32 ([] : List Command).length) c) tr₁
            ((ret, out), messageNum + 1) := by
          rw [List.length_nil, Nat.add_zero, BitVec.add_zero]
          exact h₁
        have htr : tr₁ ++ [] = [] ++ tr₁ := List.append_nil tr₁
        refine .failed hcut htr .nil hfirst rfl hneg ?_
        rw [List.append_nil, hwritten]
        exact (List.append_nil _).symm
      · rw [if_neg hneg] at h₂
        have hack := Int.not_lt.mp hneg
        cases ih (fun c hc => hsteps c (List.mem_cons_of_mem _ hc)) hack h₂ with
        | @refused cs later heq hret hacked hrest =>
          have hcut : some c :: steps = (c :: cs).map some ++ none :: later :=
            congrArg (some c :: ·) heq
          refine .refused hcut hret (.cons h₁ hack hacked) ?_
          rw [written_append, hwritten, hrest]
          rfl
        | @failed cs c' later tr₃ tr₄ r num' heq htr hacked hexchange hr hret hrest =>
          have hcut : some c :: steps = (c :: cs).map some ++ some c' :: later :=
            congrArg (some c :: ·) heq
          have hexchange : Runs (halReadWrite fuel (checksumBuff (i + (c :: cs).length))
              (messageNum + BitVec.ofNat 32 (c :: cs).length) c') tr₄ (r, num') := by
            rw [List.length_cons, BitVec.ofNat_add, ← Nat.add_assoc, Nat.add_right_comm,
              BitVec.add_comm (BitVec.ofNat 32 cs.length), ← BitVec.add_assoc]
            exact hexchange
          refine .failed hcut ((congrArg (tr₁ ++ ·) htr).trans (List.append_assoc ..).symm)
            (.cons h₁ hack hacked) hexchange hr hret ?_
          rw [written_append, hwritten, hrest]
          rfl
        | @passed cs heq hret hacked hrest =>
          have hcut : some c :: steps = (c :: cs).map some := congrArg (some c :: ·) heq
          refine .passed hcut hret (.cons h₁ hack hacked) ?_
          rw [written_append, hwritten, hrest]
          rfl

/-! ## `ll_config_set` -/

/-- The commands of the four arguments, in order; none for an argument that is refused. -/
def configSteps (netToken : U32) (appToken : Option (Local (10 : U16).toNat)) (dlMode : U32)
    (qos : U8) : List (Option Command) :=
  [if netToken ≠ 0xFFFFFFFF then some (order 116 (.all (netTokenBuff netToken) four_bytes))
    else none,
    appToken.map fun appToken => order 124 (.all appToken ten_bytes),
    if dlMode.setWidth 8 ≥ numDownlinkModes then none
    else some (order 110 (.all (byteBuff (dlMode.setWidth 8)) one_byte)),
    if qos > 15 then none else some (order 112 (.all (byteBuff qos) one_byte))]

/-- A setter, and what `ll_config_set` does behind it, are a step and the ones behind it. -/
theorem setter_step {fuel : Nat} {checksumBuff : Nat → List U8} {i : Nat} {messageNum : U32}
    {p : IfcM (Int × U32)} {step : Option Command}
    (hp : step = none ∧ p = .done (errorIncorrectParameter, messageNum) ∨
      ∃ op sent, step = some (order op sent) ∧ p = setter fuel (checksumBuff i) messageNum op sent)
    {steps : List (Option Command)} {k : Int × U32 → IfcM (Int × U32)}
    (hk : ∀ ret num, k (ret, num) =
      if 0 > ret then .done (ret, num) else runSteps fuel checksumBuff (i + 1) num ret steps)
    (ret₀ : Int) : p >>= k = runSteps fuel checksumBuff i messageNum ret₀ (step :: steps) := by
  rcases hp with ⟨rfl, rfl⟩ | ⟨op, sent, rfl, rfl⟩
  · exact hk errorIncorrectParameter messageNum
  · unfold setter runSteps
    rw [bind_assoc]
    exact bind_congr fun x => hk x.1.1 x.2

theorem llConfigSet_eq (fuel : Nat) (checksumBuff : Nat → List U8) (messageNum netToken : U32)
    (appToken : Option (Local (10 : U16).toNat)) (dlMode : U32) (qos : U8) :
    llConfigSet fuel checksumBuff messageNum netToken appToken dlMode qos =
      runSteps fuel checksumBuff 0 messageNum 0 (configSteps netToken appToken dlMode qos) := by
  unfold llConfigSet configSteps
  refine setter_step ?_ (fun ret num => congrArg (ite (0 > ret) _) ?_) 0
  · unfold llNetTokenSet
    split
    next => exact .inr ⟨_, _, rfl, rfl⟩
    next => exact .inl ⟨rfl, rfl⟩
  refine setter_step ?_ (fun ret num => congrArg (ite (0 > ret) _) ?_) ret
  · cases appToken with
    | none => exact .inl ⟨rfl, rfl⟩
    | some appToken => exact .inr ⟨_, _, rfl, rfl⟩
  refine setter_step ?_ (fun ret num => congrArg (ite (0 > ret) _) ?_) ret
  · unfold llReceiveModeSet
    split
    next => exact .inl ⟨rfl, rfl⟩
    next => exact .inr ⟨_, _, rfl, rfl⟩
  refine setter_step ?_ (fun ret num => congrArg (ite (0 > ret) _) ?_) ret
  · unfold llQosRequest
    split
    next => exact .inl ⟨rfl, rfl⟩
    next => exact .inr ⟨_, _, rfl, rfl⟩
  rfl

theorem order_valid (op : U8) (sent : Sent) : (order op sent).Valid :=
  ⟨sent.valid, nothing_valid⟩

theorem configSteps_valid {netToken : U32} {appToken : Option (Local (10 : U16).toNat)}
    {dlMode : U32} {qos : U8} {c : Command}
    (hc : some c ∈ configSteps netToken appToken dlMode qos) : c.Valid := by
  have hone : ∀ {p : Prop} [Decidable p] {op : U8} {sent : Sent},
      some c = (if p then some (order op sent) else none) → c.Valid := by
    intro p _ op sent h
    split at h
    next =>
      obtain rfl := Option.some.inj h
      exact order_valid op sent
    next => cases h
  have hother : ∀ {p : Prop} [Decidable p] {op : U8} {sent : Sent},
      some c = (if p then none else some (order op sent)) → c.Valid := by
    intro p _ op sent h
    rw [← ite_not] at h
    exact hone h
  unfold configSteps at hc
  simp only [List.mem_cons, List.not_mem_nil, or_false] at hc
  rcases hc with h | h | h | h
  · exact hone h
  · obtain ⟨token, -, rfl⟩ := Option.map_eq_some_iff.mp h.symm
    exact order_valid _ _
  · exact hother h
  · exact hother h

/-- **What `ll_config_set` has written when it returns.** The arguments are looked at in order. An
invalid one is returned for when the commands of the ones before it, and no other bytes, have been
written and acknowledged; so nothing has been written exactly where it is the net token. -/
theorem configSet_written {fuel : Nat} {checksumBuff : Nat → List U8}
    {messageNum messageNum' netToken : U32} {appToken : Option (Local (10 : U16).toNat)}
    {dlMode : U32} {qos : U8} {tr : List (Event Reply)} {ret : Int}
    (h : Runs (llConfigSet fuel checksumBuff messageNum netToken appToken dlMode qos) tr
      (ret, messageNum')) :
    Outcome fuel checksumBuff 0 messageNum (configSteps netToken appToken dlMode qos) tr ret ∧
      ∀ cs later, configSteps netToken appToken dlMode qos = cs.map some ++ none :: later →
        Acknowledged fuel checksumBuff 0 messageNum cs tr →
        (written tr = [] ↔ netToken = 0xFFFFFFFF) := by
  rw [llConfigSet_eq] at h
  refine ⟨runSteps_outcome (fun c => configSteps_valid) (Int.le_refl 0) h, ?_⟩
  intro cs later hcut hacked
  cases hacked with
  | nil =>
    refine iff_of_true rfl ?_
    by_contra hne
    have hfirst := (List.cons.inj hcut).1
    rw [if_pos hne] at hfirst
    cases hfirst
  | @cons _ _ c cs tr₁ tr₂ r h₁ hack hacked =>
    have hfirst := (List.cons.inj hcut).1
    have hmem : some c ∈ configSteps netToken appToken dlMode qos := by
      rw [hcut]
      exact List.mem_cons_self ..
    have hvalid := configSteps_valid hmem
    rw [written_append, (halReadWrite_written hvalid h₁).1]
    refine iff_of_false (fun hnil => ?_) fun hnet => ?_
    · -- A frame is not empty.
      cases (List.append_eq_nil_iff.mp hnil).1
    · rw [if_neg (not_not_intro hnet)] at hfirst
      cases hfirst

/-- The answer to a valid net token. -/
def tokenRun : List (Event Reply) :=
  [⟨.transportWrite [255, 255, 255, 255, 0xC4, 116, 3, 0, 4], (0 : Int)⟩,
    ⟨.transportWrite [1, 2, 3, 4], (0 : Int)⟩, ⟨.transportWrite [159, 98], (0 : Int)⟩,
    ⟨.gettime, still 0⟩, ⟨.transportRead 1, .ok [0xC4] rfl⟩, ⟨.gettime, still 1⟩,
    ⟨.transportRead 5, .ok [116, 3, 0, 0, 0] rfl⟩, ⟨.transportRead 2, .ok [183, 205] rfl⟩]

theorem tokenRun_runs (qos : U8) : Runs (llConfigSet 1 (fun _ => [0, 0]) 3 0x01020304 none 0 qos)
    tokenRun (errorIncorrectParameter, 4) := by
  iterate 8 apply Runs.call
  exact .done _

/-- Where the app token is missing, the net token alone has been written. -/
theorem configSet_written_token :
    Outcome 1 (fun _ => [0, 0]) 0 3 (configSteps 0x01020304 none 0 0) tokenRun
        errorIncorrectParameter ∧
      ∀ cs later, configSteps 0x01020304 none 0 0 = cs.map some ++ none :: later →
        Acknowledged 1 (fun _ => [0, 0]) 0 3 cs tokenRun →
        (written tokenRun = [] ↔ (0x01020304 : U32) = 0xFFFFFFFF) :=
  configSet_written (tokenRun_runs 0)

/-- With a `NULL` app token, the call is refused for it, and bytes have been written. -/
theorem configSet_not_atomic :
    ∃ tr, Runs (llConfigSet 1 (fun _ => [0, 0]) 3 0x01020304 none 0 0) tr
      (errorIncorrectParameter, 4) ∧ written tr ≠ [] :=
  ⟨tokenRun, tokenRun_runs 0, by decide⟩

end HostInterface.Ifc
