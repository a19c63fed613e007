import HostInterface.Ifc.Remote
import HostInterface.Xmodem.InStep

/-!
# A whole update (`ll_xmodem_prepare_module` and `ll_xmodem_send`)

`ll_xmodem_prepare_module` tells the application to leave for the bootloader, gives it two
seconds, asks the bootloader for an upload, and waits for the end of a line of its text;
`ll_xmodem_send` then finds the letter C. The frame goes out without being counted, and its
answer is left on the line.

The module is a `Firmware`: an application that may leave, and a bootloader that says what it says
before it takes an image. While it takes one, the line is that of `Bootloader`
(`Site.wired`), and the two halves of the agreement are those of a transfer. What is new is how
the two sides get there. `update_agrees`: with any call failing and anything lost on the way, no
image is begun before the bootloader has been asked for it, as long as there is no newline on the
line by then. `update_receives`: an update of an application that is told to leave
(`application_leaves`) comes through whatever the texts are, if the letter C comes behind the
first newline only once.
-/

namespace HostInterface.Xmodem

open Interact Prog

/-! ## `ll_xmodem_prepare_module` -/

/-- `OP_TRIGGER_BOOTLOADER`. -/
abbrev opTriggerBootloader : U8 := 61
/-- The letter u, which asks for an upload. -/
abbrev uploadRequest : U8 := 0x75#8

/-- The functions of `ll_ifc.c` write through the same `transport_write`. -/
def overTransport : (e : Ifc.Call) → XmodemM (Ifc.Reply e)
  | .transportWrite buf => perform (Call.transportWrite buf)
  | .transportRead _ => .fault -- `send_packet` does neither
  | .gettime => .fault

/-- `ll_bootloader_mode`, which leaves `message_num` as it is. -/
def llBootloaderMode (messageNum : U32) : XmodemM Int := do
  interp overTransport (Ifc.sendPacket opTriggerBootloader (messageNum.setWidth 8) none 0)
  return 0

/-- `ll_xmodem_prepare_module` up to the upload request. -/
def leaveHostInterface (messageNum : U32) (isHostIfcActive : Bool) : XmodemM Unit :=
  if isHostIfcActive then do
    let _ ← llBootloaderMode messageNum
    let _ ← perform (Call.sleepMs 2000)
    return ()
  else return ()

/-- `ll_xmodem_prepare_module` from the upload request on. -/
def requestUpload (fuel : Nat) : XmodemM Int :=
  .call (.transportWrite [uploadRequest]) fun ret => do
    if ret < 0 then return ret
    let ret ← waitFor fuel newline
    if ret < 0 then return ret
    return 0

/-- `ll_xmodem_prepare_module`. -/
def prepareModule (fuel : Nat) (messageNum : U32) (isHostIfcActive : Bool) : XmodemM Int := do
  leaveHostInterface messageNum isHostIfcActive
  requestUpload fuel

/-- An update: the module is prepared, and if that succeeds, the payload is sent. -/
def update (char : PlainChar) (fuel : Nat) (messageNum : U32) (isHostIfcActive : Bool)
    (cb : Callbacks) (payload : Option Ptr) (payloadLen : SizeT) : XmodemM Int := do
  let ret ← prepareModule fuel messageNum isHostIfcActive
  if ret < 0 then return ret
  xmodemSend char fuel cb payload payloadLen

/-! ## The module -/

/-- What the module runs. -/
inductive Stage (α : Type) where
  | application (a : α)
  | booting (left : Int)
  | menu
  | loading

/-- What a module has installed: an application, which answers what it receives, and goes on or
leaves, and a bootloader with its text; it takes a while to start. -/
structure Firmware (α : Type) where
  hears : α → List U8 → List U8 × Option α
  bootTime : Int
  banner : List U8
  prompt : List U8

/-- The line, and what the module at the end of it runs. -/
structure Site (α : Type) where
  wire : Wire
  stage : Stage α

section

variable {α : Type}

/-- What becomes of a buffer when no image is being taken. Behind the text for an upload comes the
letter C. -/
def Firmware.receives (F : Firmware α) (hello buf : List U8) : Stage α → List U8 × Stage α
  | .application a =>
    let x := F.hears a buf
    (x.1, x.2.elim (.booting F.bootTime) .application)
  | .booting left => ([], .booting left)
  | .menu => if buf = [uploadRequest] then (F.prompt ++ hello, .loading) else ([], .menu)
  | .loading => ([], .loading)

/-- What becomes of some time. -/
def Firmware.waits (F : Firmware α) (millis : Int) : Stage α → List U8 × Stage α
  | .booting left =>
    if left ≤ millis then (F.banner, .menu) else ([], .booting (left - millis))
  | stage => ([], stage)

/-- A buffer is written. -/
def Line.delivers (L : Line) (F : Firmware α) (char : PlainChar) (buf : List U8) (d : Wire) :
    Stage α → Int × Site α
  | .loading =>
    let x := L.handle char (.transportWrite buf) d
    (x.1, ⟨x.2, .loading⟩)
  | stage =>
    let x := F.receives L.hello (L.forth d.writes buf) stage
    (L.result d.writes, ⟨⟨d.calls + 1, d.writes + 1, d.pending ++ x.1, d.loader⟩, x.2⟩)

/-- What the host sees of the other end. -/
def Line.site (L : Line) (F : Firmware α) (char : PlainChar) :
    (e : Call) → Site α → Reply e × Site α
  | .transportWrite buf, s => L.delivers F char buf s.wire s.stage
  | .transportRead, s =>
    let x := L.read s.wire
    (x.1, ⟨x.2, s.stage⟩)
  | .gettime, s =>
    (L.clock s.wire.calls, ⟨{ s.wire with calls := s.wire.calls + 1 }, s.stage⟩)
  | .sleepMs millis, s =>
    let x := F.waits millis s.stage
    ((0 : Int),
      ⟨{ s.wire with
          calls := s.wire.calls + 1 + millis.toNat, pending := s.wire.pending ++ x.1 }, x.2⟩)
  | .progress _ _, s => ((0 : Int), ⟨{ s.wire with calls := s.wire.calls + 1 }, s.stage⟩)

/-! ## The line of the bootloader -/

variable {F : Firmware α} {char theirs : PlainChar} {fuel : Nat} {messageNum : U32} {active : Bool}
  {payload : Ptr} {L : Line} {d d' : Wire} {stage : Stage α} {s : Site α} {tr : List Ev}

theorem Firmware.receives_menu (hello buf : List U8) : F.receives hello buf .menu =
    if buf = [uploadRequest] then (F.prompt ++ hello, .loading) else ([], .menu) := rfl

/-- While an image is being taken, or where the host only listens, the line is that of the
bootloader. -/
theorem Line.site_wired {e : Call} (h : Waits e ∨ stage = .loading) :
    L.site F theirs e ⟨d, stage⟩ =
      ((L.handle theirs e d).1, ⟨(L.handle theirs e d).2, stage⟩) := by
  rcases h with h | rfl
  · rcases waits_iff.mp h with rfl | rfl
    · rfl
    · rfl
  · cases e with
    | sleepMs millis =>
      show (_, Site.mk { d with
        calls := d.calls + 1 + millis.toNat, pending := d.pending ++ [] } _) = _
      rw [List.append_nil]
      rfl
    | transportWrite buf => rfl
    | transportRead => rfl
    | gettime => rfl
    | progress sent total => rfl

/-- So are its traces. -/
theorem Line.follows_wired (h : (∀ ev ∈ tr, Waits ev.1) ∨ stage = .loading)
    (hf : Follows (L.site F theirs) ⟨d, stage⟩ tr) :
    Follows (L.handle theirs) d tr ∧
      after (L.site F theirs) ⟨d, stage⟩ tr = ⟨after (L.handle theirs) d tr, stage⟩ := by
  induction tr generalizing d with
  | nil => exact ⟨trivial, rfl⟩
  | cons ev tr ih =>
    obtain ⟨e, reply⟩ := ev
    obtain ⟨hreply, hf⟩ := hf
    have hone := @Line.site_wired α F theirs L d stage e (h.imp_left fun h => h _ List.mem_cons_self)
    rw [hone] at hreply hf
    obtain ⟨hrest, hafter⟩ := ih (h.imp_left fun h ev hev => h ev (List.mem_cons_of_mem _ hev)) hf
    refine ⟨⟨hreply, hrest⟩, ?_⟩
    show after _ (L.site F theirs e ⟨d, stage⟩).2 tr = _
    rw [hone]
    exact hafter

/-- And so are its executions. -/
theorem Line.ends_wired {β : Type} {p : XmodemM β} {a : β} (h : p.Only Waits ∨ stage = .loading)
    (hp : Ends (L.handle theirs) p d a d') :
    Ends (L.site F theirs) p ⟨d, stage⟩ a ⟨d', stage⟩ := by
  induction p generalizing d with
  | done b =>
    obtain ⟨rfl, rfl⟩ := ends_done.mp hp
    exact .done _ _
  | call e k ih =>
    exact .call_of (Line.site_wired (h.imp_left And.left))
      (ih _ (h.imp_left fun h => h.2 _) (ends_call.mp hp))
  | fault =>
    obtain ⟨tr, htr⟩ := hp
    cases htr

/-! ## The traces of `ll_xmodem_prepare_module` -/

/-- Not the upload request. -/
def Other (e : Call) : Prop :=
  e ≠ .transportWrite [uploadRequest]

theorem other_of_length {buf : List U8} (h : buf.length ≠ 1) : Other (.transportWrite buf) := by
  intro heq
  exact h (congrArg List.length (Call.transportWrite.inj heq))

/-- What is written before it is the frame. -/
theorem leaveHostInterface_only : (leaveHostInterface messageNum active).Only Other := by
  cases active with
  | false => trivial
  | true =>
    refine ⟨other_of_length (show (9 : Nat) ≠ 1 by decide), fun _ =>
      ⟨other_of_length (show (2 : Nat) ≠ 1 by decide), fun _ => ?_⟩⟩
    exact ⟨nofun, fun _ => trivial⟩

/-- The request is sent once, and then the host listens; where it succeeds, a newline has been
waited for. -/
theorem prepareModule_traces {out : Option Int}
    (h : Traces (prepareModule fuel messageNum active) tr out) :
    ((∀ ev ∈ tr, Other ev.1) ∧ out = none) ∨
    ∃ front r wait, tr = front ++ ⟨.transportWrite [uploadRequest], r⟩ :: wait ∧
      (∀ ev ∈ front, Other ev.1) ∧ (∀ ev ∈ wait, Waits ev.1) ∧
      ∀ ret, out = some ret → ret < 0 ∨ ∃ ret', 0 ≤ ret' ∧ Runs (waitFor fuel newline) wait ret' := by
  unfold prepareModule at h
  rcases traces_bind.mp h with ⟨hcut, rfl⟩ | ⟨front, _, rest, hleave, hrest, rfl⟩
  · exact .inl ⟨leaveHostInterface_only.cut hcut, rfl⟩
  have hfront := leaveHostInterface_only.runs hleave
  rcases traces_call.mp hrest with ⟨rfl, rfl⟩ | ⟨r, wait, rfl, hrequest⟩
  · rw [List.append_nil]
    exact .inl ⟨hfront, rfl⟩
  refine .inr ⟨front, r, wait, rfl, hfront, ?_⟩
  split at hrequest
  next hneg =>
    obtain ⟨rfl, rfl⟩ := traces_pure.mp hrequest
    exact ⟨nofun, fun ret hret => .inl (Option.some.inj hret ▸ hneg)⟩
  next =>
    rcases traces_bind.mp hrequest with ⟨hcut, rfl⟩ | ⟨wait, ret', last, hwait, hlast, rfl⟩
    · exact ⟨(waitFor_only newline).cut hcut, nofun⟩
    have hquiet := (waitFor_only newline).runs hwait
    split at hlast
    next hneg =>
      obtain ⟨rfl, rfl⟩ := traces_pure.mp hlast
      rw [List.append_nil]
      exact ⟨hquiet, fun ret hret => .inl (Option.some.inj hret ▸ hneg)⟩
    next hret' =>
      obtain ⟨rfl, -⟩ := traces_pure.mp hlast
      rw [List.append_nil]
      exact ⟨hquiet, fun ret _ => .inr ⟨ret', Int.not_lt.mp hret', hwait⟩⟩

/-! ## Before the bootloader is asked -/

/-- No newline but the one at the end of the text for an upload. -/
structure Firmware.Quiet (F : Firmware α) : Prop where
  hears : ∀ a buf, newline ∉ (F.hears a buf).1
  banner : newline ∉ F.banner
  prompt : ∃ text, newline ∉ text ∧ F.prompt = text ++ [newline]

/-- Damage makes no upload request of anything else. -/
def Line.Asks (L : Line) : Prop :=
  ∀ n buf, L.forth n buf = [uploadRequest] → buf = [uploadRequest]

/-- No image is being taken, and no newline is on the line. -/
structure Site.Idle (s : Site α) : Prop where
  loader : s.wire.loader = ⟨1, [], false⟩
  quiet : newline ∉ s.wire.pending
  stage : s.stage ≠ .loading

/-- What the request can do: the bootloader has its text sent, and expects the first packet. -/
theorem Site.Idle.write (hF : F.Quiet) (h : s.Idle) (buf : List U8) :
    (L.site F theirs (.transportWrite buf) s).2.Idle ∨
      L.forth s.wire.writes buf = [uploadRequest] ∧ ∃ text, newline ∉ text ∧
        (L.site F theirs (.transportWrite buf) s).2 =
          ⟨⟨s.wire.calls + 1, s.wire.writes + 1, text ++ newline :: L.hello, ⟨1, [], false⟩⟩,
            .loading⟩ := by
  obtain ⟨d, stage⟩ := s
  have hquiet := h.quiet
  cases stage with
  | application a =>
    refine .inl ⟨h.loader, ?_, ?_⟩
    · exact List.not_mem_append hquiet (hF.hears a _)
    · show Option.elim (F.hears a (L.forth d.writes buf)).2 _ _ ≠ _
      cases (F.hears a (L.forth d.writes buf)).2 with
      | none => exact nofun
      | some a' => exact nofun
  | booting left =>
    exact .inl ⟨h.loader, List.not_mem_append hquiet List.not_mem_nil, nofun⟩
  | menu =>
    have hstep : (L.site F theirs (.transportWrite buf) ⟨d, .menu⟩).2 =
        ⟨⟨d.calls + 1, d.writes + 1,
          d.pending ++ (F.receives L.hello (L.forth d.writes buf) .menu).1, d.loader⟩,
          (F.receives L.hello (L.forth d.writes buf) .menu).2⟩ := rfl
    rw [Firmware.receives_menu] at hstep
    by_cases hasked : L.forth d.writes buf = [uploadRequest]
    · obtain ⟨text, htext, hprompt⟩ := hF.prompt
      refine .inr ⟨hasked, d.pending ++ text, List.not_mem_append hquiet htext, ?_⟩
      have hloader : d.loader = ⟨1, [], false⟩ := h.loader
      rw [hstep, if_pos hasked, hprompt, hloader]
      simp only [List.append_assoc, List.cons_append, List.nil_append]
    · rw [hstep, if_neg hasked]
      exact .inl ⟨h.loader, List.not_mem_append hquiet List.not_mem_nil, nofun⟩
  | loading => exact absurd rfl h.stage

/-- Nothing else can. -/
theorem Site.Idle.call (hF : F.Quiet) (hask : L.Asks) (h : s.Idle) {e : Call} (he : Other e) :
    (L.site F theirs e s).2.Idle := by
  cases e with
  | transportWrite buf =>
    rcases h.write hF buf with hidle | ⟨hasked, -⟩
    · exact hidle
    · exact absurd (congrArg Call.transportWrite (hask _ _ hasked)) he
  | transportRead =>
    rcases L.read_cases s.wire with ⟨-, -, hd⟩ | ⟨b, pending, hp, -, -, hd⟩
    · refine ⟨?_, ?_, h.stage⟩
      · show (L.read s.wire).2.loader = _
        rw [hd]
        exact h.loader
      · show newline ∉ (L.read s.wire).2.pending
        rw [hd]
        exact h.quiet
    · have hquiet := h.quiet
      rw [hp] at hquiet
      refine ⟨?_, ?_, h.stage⟩
      · show (L.read s.wire).2.loader = _
        rw [hd]
        exact h.loader
      · show newline ∉ (L.read s.wire).2.pending
        rw [hd]
        exact List.not_mem_of_not_mem_cons hquiet
  | gettime => exact ⟨h.loader, h.quiet, h.stage⟩
  | progress sent total => exact ⟨h.loader, h.quiet, h.stage⟩
  | sleepMs millis =>
    obtain ⟨d, stage⟩ := s
    have hwaits : newline ∉ (F.waits millis stage).1 ∧ (F.waits millis stage).2 ≠ .loading := by
      cases stage with
      | application a => exact ⟨List.not_mem_nil, nofun⟩
      | menu => exact ⟨List.not_mem_nil, nofun⟩
      | loading => exact absurd rfl h.stage
      | booting left =>
        unfold Firmware.waits
        dsimp only
        split
        next => exact ⟨hF.banner, nofun⟩
        next => exact ⟨List.not_mem_nil, nofun⟩
    exact ⟨h.loader, List.not_mem_append h.quiet hwaits.1, hwaits.2⟩

theorem Site.Idle.calls (hF : F.Quiet) (hask : L.Asks) (h : s.Idle)
    (hother : ∀ ev ∈ tr, Other ev.1) : (after (L.site F theirs) s tr).Idle := by
  induction tr generalizing s with
  | nil => exact h
  | cons ev tr ih =>
    exact ih (h.call hF hask (hother ev List.mem_cons_self))
      fun ev hev => hother ev (List.mem_cons_of_mem _ hev)

/-- **Where the preparation ends.** Nothing has been taken yet, and where it succeeds the bootloader
waits for the first packet, with nothing but its letter on the line. -/
theorem prepareModule_agrees {out : Option Int} (hF : F.Quiet) (hask : L.Asks)
    (hone : (L.hello.filter isResponse).length ≤ 1) (hs : s.Idle)
    (h : Traces (prepareModule fuel messageNum active) tr out)
    (hf : Follows (L.site F theirs) s tr) :
    (after (L.site F theirs) s tr).wire.loader = ⟨1, [], false⟩ ∧
      ∀ ret, out = some ret → ret < 0 ∨ ∃ d, after (L.site F theirs) s tr = ⟨d, .loading⟩ ∧
        (d.pending.filter isResponse).length ≤ 1 := by
  rcases prepareModule_traces h with ⟨hother, rfl⟩ | ⟨front, r, wait, rfl, hfront, hwait, hout⟩
  · exact ⟨(hs.calls hF hask hother).loader, nofun⟩
  have hidle : (after (L.site F theirs) s front).Idle := hs.calls hF hask hfront
  obtain ⟨-, -, hf⟩ := follows_append.mp hf
  rw [after_append]
  generalize after (L.site F theirs) s front = s at *
  change Follows _ (L.site F theirs (.transportWrite [uploadRequest]) s).2 wait at hf
  show (after _ (L.site F theirs (.transportWrite [uploadRequest]) s).2 wait).wire.loader = _ ∧
    ∀ ret, out = some ret → ret < 0 ∨
      ∃ d, after _ (L.site F theirs (.transportWrite [uploadRequest]) s).2 wait = _ ∧ _
  have hrequest := @Site.Idle.write α F theirs L s hF hidle [uploadRequest]
  generalize (L.site F theirs (.transportWrite [uploadRequest]) s).2 = s₁ at *
  obtain ⟨d, stage⟩ := s₁
  -- From here on the host listens.
  obtain ⟨hlistens, hafter⟩ := Line.follows_wired (.inl hwait) hf
  obtain ⟨hloader, hline⟩ := Line.received hlistens (written_of_waits hwait)
  rw [hafter]
  have hheard : ∀ ret', 0 ≤ ret' → Runs (waitFor fuel newline) wait ret' →
      newline ∈ received wait :=
    fun ret' hret' hruns => waitFor_received hruns hret' (Line.clean hlistens) (by decide)
  rcases hrequest with hidle | ⟨-, text, htext, hsite⟩
  · refine ⟨hloader.trans hidle.loader, fun ret hret => ?_⟩
    rcases hout ret hret with hneg | ⟨ret', hret', hruns⟩
    · exact .inl hneg
    · refine absurd ?_ hidle.quiet
      show newline ∈ d.pending
      rw [hline]
      exact List.mem_append_left _ (hheard ret' hret' hruns)
  · obtain ⟨rfl, rfl⟩ := Site.mk.inj hsite
    refine ⟨hloader, fun ret hret => ?_⟩
    rcases hout ret hret with hneg | ⟨ret', hret', hruns⟩
    · exact .inl hneg
    · refine .inr ⟨_, rfl, ?_⟩
      -- What is left is the end of what comes behind the newline.
      have hmem := hheard ret' hret' hruns
      obtain ⟨hello, hhello⟩ : ∃ heard, L.hello = heard ++
          (after (L.handle theirs) _ wait).pending := by
        rcases List.append_eq_append_iff.mp hline with ⟨more, hreceived, hrest⟩ | ⟨more, htext', -⟩
        · cases more with
          | nil =>
            rw [hreceived, List.append_nil] at hmem
            exact absurd hmem htext
          | cons b more => exact ⟨more, (List.cons.inj hrest).2⟩
        · rw [htext'] at htext
          exact absurd (List.mem_append_left _ hmem) htext
      rw [hhello, List.filter_append, List.length_append] at hone
      omega

/-- **An update keeps the two ends in step.** Whatever the line does, short of repeating answers,
and whichever calls fail: at every point of an update the bootloader has the first packets of the
payload; where it has seen the end of transmission it has the whole payload; and the update returns
0 only where it has. -/
theorem update_agrees {payloadLen : SizeT} {cb : Callbacks} {out : Option Int} (hF : F.Quiet)
    (hL : L.Sound theirs) (hask : L.Asks) (hs : s.Idle)
    (hsmall : payloadLen.toNat < 0x100000000)
    (h : Traces (update char fuel messageNum active cb (some payload) payloadLen) tr out)
    (hf : Follows (L.site F theirs) s tr) :
    let m := (after (L.site F theirs) s tr).wire.loader
    m.image <+: whole payload payloadLen.toNat ∧
      (m.finished = true → m.image = whole payload payloadLen.toNat) ∧
      (out = some 0 → m.finished = true) := by
  intro m
  unfold update at h
  have hnothing : m = ⟨1, [], false⟩ → out ≠ some 0 →
      m.image <+: whole payload payloadLen.toNat ∧
        (m.finished = true → m.image = whole payload payloadLen.toNat) ∧
        (out = some 0 → m.finished = true) := by
    intro hm hout
    rw [hm]
    exact ⟨List.nil_prefix, nofun, fun hzero => absurd hzero hout⟩
  rcases traces_bind.mp h with ⟨hcut, rfl⟩ | ⟨prepared, ret, rest, hprepare, hrest, rfl⟩
  · exact hnothing (prepareModule_agrees hF hask hL.hello hs hcut.traces hf).1 nofun
  obtain ⟨hf₁, hf₂⟩ := follows_append.mp hf
  obtain ⟨hloader, hready⟩ :=
    prepareModule_agrees hF hask hL.hello hs hprepare.traces hf₁
  split at hrest
  next hneg =>
    obtain ⟨rfl, rfl⟩ := traces_pure.mp hrest
    refine hnothing ?_ fun hzero => ?_
    · show (after _ s (prepared ++ [])).wire.loader = _
      rw [List.append_nil]
      exact hloader
    · rw [Option.some.inj hzero] at hneg
      exact absurd hneg (Int.lt_irrefl 0)
  next hnonneg =>
    obtain ⟨d, hd, hone⟩ := (hready ret rfl).resolve_left hnonneg
    rw [hd] at hf₂ hloader
    obtain ⟨hsends, hafter⟩ := Line.follows_wired (.inr rfl) hf₂
    have hm : m = (after (L.handle theirs) d rest).loader := by
      show (after _ s (prepared ++ rest)).wire.loader = _
      rw [after_append, hd, hafter]
    rw [hm]
    exact hL.agrees hsmall hrest hsends hloader hone

/-! ## Updates that come through -/

/-- What `send_packet` writes first. -/
def triggerHeader (messageNum : U8) : List U8 :=
  List.replicate 4 0xff ++ ([Ifc.frameStart, opTriggerBootloader, messageNum] ++ Ifc.be16 0)

/-- And then. -/
def triggerSum (messageNum : U8) : List U8 :=
  Ifc.be16 (Ifc.computeChecksum ([Ifc.frameStart, opTriggerBootloader, messageNum] ++ Ifc.be16 0) [])

/-- The application understands the frame: it sends its answer, and leaves. -/
def Firmware.Obeys (F : Firmware α) (messageNum : U8) (a : α) (answer : List U8) : Prop :=
  ∃ a', F.hears a (triggerHeader messageNum) = ([], some a') ∧
    F.hears a' (triggerSum messageNum) = (answer, none)

/-- The module is where the host says that it is; and what it has sent by the time it expects the
first packet, except for the letter C. -/
inductive Ready (F : Firmware α) (messageNum : U8) : Bool → Site α → List U8 → Prop
  | application {d : Wire} {a : α} {answer : List U8} : F.Obeys messageNum a answer →
      Ready F messageNum true ⟨d, .application a⟩ (d.pending ++ answer ++ F.banner ++ F.prompt)
  | menu {d : Wire} : Ready F messageNum false ⟨d, .menu⟩ (d.pending ++ F.prompt)

/-- The bootloader is asked, and its text is read as far as the first newline. -/
theorem Line.Good.request {size span : Nat} (hL : L.Good theirs payload size span)
    (hintact : L.Intact d.writes) {before rest : List U8}
    (htext : d.pending ++ F.prompt ++ [ccc] = before ++ newline :: rest)
    (hbefore : newline ∉ before) (hfuel : before.length < fuel)
    (hspan : 4 * before.length + 5 ≤ span) :
    ∃ c, Ends (L.site F theirs) (requestUpload fuel) ⟨d, .menu⟩ 0
      ⟨⟨c, d.writes + 1, rest, d.loader⟩, .loading⟩ := by
  have hwrite : L.site F theirs (.transportWrite [uploadRequest]) ⟨d, .menu⟩ =
      (L.result d.writes,
        ⟨⟨d.calls + 1, d.writes + 1, before ++ newline :: rest, d.loader⟩, .loading⟩) := by
    have harrives : F.receives L.hello (L.forth d.writes [uploadRequest]) .menu =
        (F.prompt ++ [ccc], .loading) := by
      rw [hintact, hL.hello, Firmware.receives_menu, if_pos rfl]
    show (_, Site.mk ⟨d.calls + 1, d.writes + 1, d.pending ++ (F.receives L.hello
      (L.forth d.writes [uploadRequest]) .menu).1, d.loader⟩ _) = _
    rw [harrives, ← htext, List.append_assoc]
  obtain ⟨c, hwait⟩ := hL.waitFor
    (d := ⟨d.calls + 1, d.writes + 1, before ++ newline :: rest, d.loader⟩) rfl hbefore rfl hfuel
    hspan
  refine ⟨c, .call_of hwrite ?_⟩
  rw [if_neg (Int.not_lt.mpr (hL.result _))]
  refine (Line.ends_wired (.inr rfl) hwait).bind ?_
  rw [if_neg (Int.lt_irrefl 0)]
  exact .done _ _

/-- The preparation leaves what comes behind the first newline. -/
theorem Line.Good.prepare {size span : Nat} (hL : L.Good theirs payload size span)
    (hboot : F.bootTime ≤ 2000) {text before rest : List U8}
    (hready : Ready F (messageNum.setWidth 8) active s text)
    (hintact : ∀ j, j < 3 → L.Intact (s.wire.writes + j))
    (htext : text ++ [ccc] = before ++ newline :: rest) (hbefore : newline ∉ before)
    (hfuel : before.length < fuel) (hspan : 4 * before.length + 5 ≤ span) :
    ∃ c w, Ends (L.site F theirs) (prepareModule fuel messageNum active) s 0
      ⟨⟨c, w, rest, s.wire.loader⟩, .loading⟩ := by
  cases hready with
  | menu =>
    obtain ⟨c, hends⟩ := hL.request (hintact 0 (by decide)) htext hbefore hfuel hspan
    exact ⟨c, _, hends⟩
  | @application d a answer hobeys =>
    obtain ⟨a', hheader, hsum⟩ := hobeys
    have hfirst : L.site F theirs (.transportWrite (triggerHeader (messageNum.setWidth 8)))
        ⟨d, .application a⟩ = (L.result d.writes,
          ⟨⟨d.calls + 1, d.writes + 1, d.pending, d.loader⟩, .application a'⟩) := by
      show (_, Site.mk ⟨_, _, d.pending ++ (F.hears a (L.forth d.writes _)).1, _⟩
        (Option.elim (F.hears a (L.forth d.writes _)).2 _ _)) = _
      rw [show L.forth d.writes _ = _ from hintact 0 (by decide) _, hheader, List.append_nil]
      rfl
    have hsecond : L.site F theirs (.transportWrite (triggerSum (messageNum.setWidth 8)))
        ⟨⟨d.calls + 1, d.writes + 1, d.pending, d.loader⟩, .application a'⟩ =
          (L.result (d.writes + 1), ⟨⟨d.calls + 1 + 1, d.writes + 1 + 1, d.pending ++ answer,
            d.loader⟩, .booting F.bootTime⟩) := by
      show (_, Site.mk ⟨_, _, d.pending ++ (F.hears a' (L.forth (d.writes + 1) _)).1, _⟩
        (Option.elim (F.hears a' (L.forth (d.writes + 1) _)).2 _ _)) = _
      rw [show L.forth (d.writes + 1) _ = _ from hintact 1 (by decide) _, hsum]
      rfl
    have hsleep : L.site F theirs (.sleepMs 2000) ⟨⟨d.calls + 1 + 1, d.writes + 1 + 1,
        d.pending ++ answer, d.loader⟩, .booting F.bootTime⟩ = ((0 : Int),
          ⟨⟨d.calls + 1 + 1 + 1 + 2000, d.writes + 1 + 1, d.pending ++ answer ++ F.banner,
            d.loader⟩, .menu⟩) := by
      have hwaits : F.waits 2000 (.booting F.bootTime) = (F.banner, .menu) := if_pos hboot
      show (_, Site.mk ⟨_, _, _ ++ (F.waits 2000 (.booting F.bootTime)).1, _⟩
        (F.waits 2000 (.booting F.bootTime)).2) = _
      rw [hwaits]
      rfl
    obtain ⟨c, hends⟩ := hL.request
      (d := ⟨d.calls + 1 + 1 + 1 + 2000, d.writes + 1 + 1, d.pending ++ answer ++ F.banner,
        d.loader⟩)
      (hintact 2 (by decide)) htext hbefore hfuel hspan
    refine ⟨c, _, Ends.bind (Ends.bind (a := (0 : Int)) ?_ (Ends.bind (.call_of hsleep (.done _ _))
      (.done _ _))) hends⟩
    exact .call_of hfirst (.call_of hsecond (.done _ _))

variable {payloadLen : SizeT} {span : Nat}

/-- With turns enough, the update comes through. -/
theorem Line.Good.update (hL : L.Good theirs payload payloadLen.toNat span)
    (hboot : F.bootTime ≤ 2000) {text before behind : List U8}
    (hready : Ready F (messageNum.setWidth 8) active s text)
    (hloader : s.wire.loader = ⟨1, [], false⟩)
    (hintact : ∀ j, j < 3 → L.Intact (s.wire.writes + j))
    (htext : text = before ++ newline :: behind) (hbefore : newline ∉ before)
    (hbehind : ccc ∉ behind) (hpos : 1 ≤ payloadLen.toNat)
    (hsmall : payloadLen.toNat < 0x100000000) (hspan : 4 * text.length + 5 ≤ span)
    (hfuel : 17 * numPackets payloadLen.toNat + (L.tell (whole payload payloadLen.toNat)).length
      + 17 + text.length ≤ fuel) :
    ∃ d, Ends (L.site F theirs)
        (Xmodem.update char fuel messageNum active ⟨true⟩ (some payload) payloadLen) s 0
        ⟨d, .loading⟩ ∧
      d.loader.finished = true ∧ d.loader.image = whole payload payloadLen.toNat := by
  have hlen : text.length = before.length + (behind.length + 1) := by
    rw [htext, List.length_append, List.length_cons]
  have hline : text ++ [ccc] = before ++ newline :: (behind ++ [ccc]) := by
    rw [htext, List.append_assoc, List.cons_append]
  obtain ⟨c, w, hprepare⟩ := hL.prepare hboot hready hintact hline hbefore
    (show before.length < fuel by omega) (by omega)
  obtain ⟨d, hsend, hfin, himage⟩ := @Line.Good.upload char theirs fuel payload span payloadLen L
    ⟨c, w, behind ++ [ccc], s.wire.loader⟩ hL hpos hsmall behind rfl hbehind hloader (by omega)
    (by omega)
  refine ⟨d, hprepare.bind ?_, hfin, himage⟩
  rw [if_neg (Int.lt_irrefl 0)]
  exact Line.ends_wired (.inr rfl) hsend

/-- A longer update does the same, as far as the shorter one goes. -/
theorem update_below {m n : Nat} (hmn : m ≤ n) (cb : Callbacks) (payload : Option Ptr) :
    Below (update char m messageNum active cb payload payloadLen)
      (update char n messageNum active cb payload payloadLen) := by
  refine .bind (.bind (.refl _) fun _ => .call fun _ => .ite (.refl _) ?_) fun _ =>
    .ite (.refl _) (xmodemSend_below hmn char cb payload payloadLen)
  exact .bind (waitFor_below hmn newline) fun _ => .refl _

/-- **An update comes through.** On a line that is good once it has carried the frame and the
request, with a bootloader that starts in two seconds, an update ends, returns 0, and leaves the
whole payload; the application and the bootloader may send what they like, newlines included, if
there is a newline, and no letter C behind it but the bootloader's. -/
theorem update_receives (hL : L.Good theirs payload payloadLen.toNat span)
    (hboot : F.bootTime ≤ 2000) {text before behind : List U8}
    (hready : Ready F (messageNum.setWidth 8) active s text)
    (hloader : s.wire.loader = ⟨1, [], false⟩)
    (hintact : ∀ j, j < 3 → L.Intact (s.wire.writes + j))
    (htext : text = before ++ newline :: behind) (hbefore : newline ∉ before)
    (hbehind : ccc ∉ behind) (hpos : 1 ≤ payloadLen.toNat)
    (hsmall : payloadLen.toNat < 0x100000000) (hspan : 4 * text.length + 5 ≤ span) :
    (∀ fuel, 17 * numPackets payloadLen.toNat +
        (L.tell (whole payload payloadLen.toNat)).length + 17 + text.length ≤ fuel →
      Halts (L.site F theirs)
        (update char fuel messageNum active ⟨true⟩ (some payload) payloadLen) s) ∧
    ∀ fuel ret s', Ends (L.site F theirs)
        (update char fuel messageNum active ⟨true⟩ (some payload) payloadLen) s ret s' →
      ret = 0 ∧ s'.wire.loader.finished = true ∧
        s'.wire.loader.image = whole payload payloadLen.toNat := by
  have hupdate : ∀ fuel, _ ≤ fuel → ∃ d, _ ∧ _ := fun fuel hfuel =>
    @Line.Good.update α F char theirs fuel messageNum active payload L s payloadLen span hL hboot
      text before behind hready hloader hintact htext hbefore hbehind hpos hsmall hspan hfuel
  refine ⟨fun fuel hfuel => ?_, fun fuel ret s' hends => ?_⟩
  · obtain ⟨d, hends, -⟩ := hupdate fuel hfuel
    exact ⟨0, _, hends⟩
  · obtain ⟨d, hends', hfin, himage⟩ := hupdate _ (Nat.le_refl _)
    obtain ⟨rfl, rfl⟩ := Below.unique
      (fun _ _ hmn => update_below hmn ⟨true⟩ (some payload)) hends hends'
    exact ⟨rfl, hfin, himage⟩

end

/-! ## An application that serves commands -/

section Application

variable {μ : Type} (srv : Ifc.Server μ)

/-- The application collects the bytes of a frame and serves the command, as the module of `remote`
does, and leaves when this was `OP_TRIGGER_BOOTLOADER`. -/
def applicationHears (a : List U8 × μ) (buf : List U8) : List U8 × Option (List U8 × μ) :=
  let l := buf.foldl (Ifc.Link.hear srv) ⟨⟨[], 0, false⟩, a.1, [], a.2⟩
  (l.line.rest,
    if l.served.any fun cmd => cmd.op = opTriggerBootloader then none else some (l.frame, l.state))

variable {srv}

/-- Between two frames it is told to leave, and answers. -/
theorem application_obeys {F : Firmware (List U8 × μ)} (hF : F.hears = applicationHears srv)
    (messageNum : U8) (state : μ) :
    F.Obeys messageNum ([], state) (Ifc.respFrame opTriggerBootloader messageNum
      (srv state opTriggerBootloader []).1.ack (srv state opTriggerBootloader []).1.payload) := by
  let l : Ifc.Link μ := ⟨⟨[], 0, false⟩, [], [], state⟩
  let header := [Ifc.frameStart, opTriggerBootloader, messageNum] ++ Ifc.be16 0
  -- The header is the beginning of a frame.
  have hheader : (triggerHeader messageNum).foldl (Ifc.Link.hear srv) l =
      { l with frame := header } := by
    unfold triggerHeader
    rw [List.foldl_append, Ifc.hear_wakeup rfl]
    refine Ifc.hear_collect rfl (.inr rfl) fun a b heq _ => ?_
    have hwhole : Ifc.frameStart :: opTriggerBootloader :: messageNum :: 0 :: 0 ::
        triggerSum messageNum = a ++ (b ++ triggerSum messageNum) := by
      rw [← List.append_assoc, ← heq]
      rfl
    rw [Ifc.complete_part rfl hwhole]
    exact decide_eq_false (List.append_ne_nil_of_right_ne_nil b (List.cons_ne_nil _ _))
  have hframe : (triggerSum messageNum).foldl (Ifc.Link.hear srv) { l with frame := header } =
      l.serve srv ⟨opTriggerBootloader, messageNum, []⟩ := by
    have hcommand := @Ifc.hear_command μ srv (Ifc.order opTriggerBootloader .nothing)
      ⟨rfl, rfl⟩ messageNum l rfl
    rw [← hheader, ← List.foldl_append]
    exact hcommand
  refine ⟨(header, state), ?_, ?_⟩
  · rw [hF]
    unfold applicationHears
    rw [hheader]
    rfl
  · rw [hF]
    unfold applicationHears
    rw [hframe]
    rfl

end Application

/-! ## Two updates -/

/-- A line that carries the frame and the request, and then loses every other buffer. -/
def latePatchyLine : Line :=
  { patchyLine with forth := fun n buf => if n < 3 then buf else patchyLine.forth n buf }

theorem latePatchyLine_intact {n : Nat} (h : n < 3 ∨ patchyLine.Intact n) :
    latePatchyLine.Intact n := by
  intro buf
  show (if n < 3 then buf else patchyLine.forth n buf) = buf
  split
  next => rfl
  next hlate => exact h.resolve_left hlate buf

theorem latePatchyLine_good (char : PlainChar) (payload : Ptr) (size : Nat) :
    latePatchyLine.Good char payload size 200 :=
  { patchyLine_good char payload size with
    forth := fun n => by
      by_cases hlate : n < 3
      · exact Or.inl (latePatchyLine_intact (.inl hlate))
      · rcases (patchyLine_good char payload size).forth n with hintact | hbad
        · exact Or.inl (latePatchyLine_intact (.inr hintact))
        · refine Or.inr fun buf => ?_
          show unframe char (if n < 3 then buf else patchyLine.forth n buf) = none ∧
            (if n < 3 then buf else patchyLine.forth n buf) ≠ [eot]
          rw [if_neg hlate]
          exact hbad buf
    often := fun n => by
      obtain ⟨j, hj, hintact⟩ := (patchyLine_good char payload size).often n
      exact ⟨j, hj, latePatchyLine_intact (.inr hintact)⟩ }

theorem latePatchyLine_sound (char : PlainChar) : latePatchyLine.Sound char :=
  { patchyLine_sound char with
    forth := fun n buf => by
      rcases (latePatchyLine_good char ⟨fun _ => 0, 0⟩ 0).forth n with hintact | hbad
      · exact Or.inl (hintact buf)
      · exact Or.inr (hbad buf) }

theorem latePatchyLine_asks : latePatchyLine.Asks := by
  intro n buf h
  change (if n < 3 then buf else if n % 2 = 0 then [] else buf) = _ at h
  split at h
  next => exact h
  next =>
    split at h
    next => cases h
    next => exact h

/-- An application that answers every command, and a bootloader. -/
def sampleFirmware : Firmware (List U8 × Unit) where
  hears := applicationHears fun state _ _ => (.done [] Ifc.empty_small, state)
  bootTime := 1500
  banner := ascii "Bootloader\r\n"
  prompt := ascii "Ready for upload\r\n"

/-- The answer to the frame has the message number 10, a newline, in it. -/
theorem update_receives_ten :
    ∃ s', Ends (latePatchyLine.site sampleFirmware .unsigned)
        (update .signed 400 10 true ⟨true⟩ (some ⟨fun i => BitVec.ofNat 8 i, 5⟩) 300)
        ⟨⟨0, 0, [], ⟨1, [], false⟩⟩, .application ([], ())⟩ 0 s' ∧
      s'.wire.loader.finished = true ∧
      s'.wire.loader.image = whole ⟨fun i => BitVec.ofNat 8 i, 5⟩ 300 := by
  have hobeys := @application_obeys Unit _ sampleFirmware rfl ((10 : U32).setWidth 8) ()
  have hready := @Ready.application _ sampleFirmware _ ⟨0, 0, [], ⟨1, [], false⟩⟩ _ _ hobeys
  obtain ⟨hhalts, hall⟩ := @update_receives _ sampleFirmware .signed .unsigned 10 true
    ⟨fun i => BitVec.ofNat 8 i, 5⟩ latePatchyLine _ 300 200 (latePatchyLine_good _ _ _) (by decide)
    _ [0xC4, 61] _ hready rfl (fun j hj => latePatchyLine_intact (.inl (by show 0 + j < 3; omega)))
    rfl (by decide) (by decide) (by decide) (by decide) (by decide)
  obtain ⟨ret, s', hends⟩ := hhalts 400 (by decide)
  obtain ⟨rfl, hend⟩ := hall 400 ret s' hends
  exact ⟨s', hends, hend⟩

/-- A bootloader whose text has one newline, at its end. -/
def plainFirmware : Firmware Unit where
  hears _ _ := ([], none)
  bootTime := 0
  banner := []
  prompt := ascii "Ready for upload\n"

theorem plainFirmware_quiet : plainFirmware.Quiet where
  hears _ _ := List.not_mem_nil
  banner := List.not_mem_nil
  prompt := ⟨ascii "Ready for upload", by decide, by decide⟩

/-- The bootloader has been started already. -/
theorem update_agrees_plain :
    ∃ tr, Runs (update .signed 400 0 false ⟨true⟩ (some ⟨fun i => BitVec.ofNat 8 i, 5⟩) 300) tr 0 ∧
      let m := (after (latePatchyLine.site plainFirmware .unsigned)
        ⟨⟨0, 0, [], ⟨1, [], false⟩⟩, .menu⟩ tr).wire.loader
      m.image <+: whole ⟨fun i => BitVec.ofNat 8 i, 5⟩ 300 ∧
        (m.finished = true → m.image = whole ⟨fun i => BitVec.ofNat 8 i, 5⟩ 300) ∧
        m.finished = true := by
  obtain ⟨d, hends, -⟩ := @Line.Good.update _ plainFirmware .signed .unsigned 400 0 false
    ⟨fun i => BitVec.ofNat 8 i, 5⟩ latePatchyLine ⟨⟨0, 0, [], ⟨1, [], false⟩⟩, .menu⟩ 300
    200 (latePatchyLine_good _ _ _) (by decide) _ (ascii "Ready for upload") [] .menu rfl
    (fun j hj => latePatchyLine_intact (.inl (by show 0 + j < 3; omega))) (by decide) (by decide)
    List.not_mem_nil (by decide) (by decide) (by decide) (by decide)
  obtain ⟨tr, hrun, hf, -⟩ := hends.follows
  obtain ⟨hbegin, hwhole, hfin⟩ := update_agrees plainFirmware_quiet (latePatchyLine_sound .unsigned)
    latePatchyLine_asks ⟨rfl, List.not_mem_nil, fun hno => by cases hno⟩ (by decide) hrun.traces hf
  exact ⟨tr, hrun, hbegin, hwhole, hfin rfl⟩

end HostInterface.Xmodem
