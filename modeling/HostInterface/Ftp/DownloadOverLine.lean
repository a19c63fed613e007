import HostInterface.Ftp.Download
import HostInterface.Ftp.OverLine

/-!
# A download over the serial line

In `download` the sender hears the uplinks as they leave the receiver. On the serial line they
leave through `ll_message_send`, and what the sender hears is what the module has served. Where
the module accepts messages (`Accepts`) that is the same. Storage whose callbacks return OK
answers a run alike with and without the module (`follows_mailed`), so the run of
`download_comes_through` is one the host makes on the line, and the module has served just its
uplinks, each once and in order (`download_over_line`).
-/

namespace HostInterface.Ftp

open Interact Prog
open Ifc (Server Desk Link Settled Starve Prompt Dry handMessage messageHeader)

/-- The module answers messages so that the uplink callback returns OK. -/
def Accepts {μ : Type} (srv : Server μ) (verdict : Int → RetCode) : Prop :=
  ∀ m payload, verdict ((srv m 92 payload).1.result (Ifc.order 92 .nothing)).1 = .ok

/-- The uplinks of a history, as the module gets them. -/
def uplinkPayloads (hist : List FtpStep) : List (List U8) :=
  hist.flatMap fun st => st.events.flatMap uplinkPayload

/-- A step as a turn of the host. -/
def onTurn (st : FtpStep) : TurnStep :=
  ⟨st.pre, .process st.input, st.events, st.out, st.post⟩

section

variable {μ : Type} {srv : Server μ} {verdict : Int → RetCode} {p : Policy}

/-- An acknowledgement is accepted, and the application does not see it. -/
theorem mailed_ack (hacc : Accepts srv verdict) {file : U32 × U32} {buf : List U8}
    (h : AckFormat file buf) (acked : Bool) (x : World × Desk μ) :
    (mailed (storage p) srv verdict (.uplink buf acked port port) x).1 = .ok ∧
      (mailed (storage p) srv verdict (.uplink buf acked port port) x).2.1 = x.1 := by
  obtain ⟨w, d⟩ := x
  refine ⟨?_, rfl⟩
  have hmin := h.minLen
  have hmax := h.maxLen
  show verdict (handMessage srv port (buf.take (messageLen buf).toNat) acked port d).1 = .ok
  rw [ack_whole h, Ifc.handMessage_sent]
  · exact hacc _ _
  · rintro rfl
    rw [List.length_nil] at hmin
    omega
  · omega
  · decide

/-- What follows storage whose callbacks return OK follows it with the module as well. -/
theorem follows_mailed (hp : ∀ e, p.ret e = .ok) (hacc : Accepts srv verdict) {f : LlFtp}
    {file : U32 × U32} {tr : List Ev} (hacks : AllAcks f file tr) {w : World}
    (h : Follows (storage p) w tr) (d : Desk μ) :
    Follows (mailed (storage p) srv verdict) (w, d) tr ∧
      (after (mailed (storage p) srv verdict) (w, d) tr).1 = after (storage p) w tr := by
  induction tr generalizing file w d with
  | nil => exact ⟨trivial, rfl⟩
  | cons ev tr ih =>
    obtain ⟨e, r⟩ := ev
    obtain ⟨hack, hacks⟩ := hacks
    obtain ⟨rfl, h⟩ := h
    cases e with
    | uplink buf acked q maxPort =>
      obtain ⟨hack, rfl, rfl⟩ := hack
      obtain ⟨hok, hsame⟩ := @mailed_ack μ srv verdict p hacc file buf hack.format acked (w, d)
      obtain ⟨hfollows, hafter⟩ := ih hacks h
        (mailed (storage p) srv verdict (.uplink buf acked port port) (w, d)).2.2
      refine ⟨⟨?_, hfollows⟩, hafter⟩
      rw [hok]
      exact hp _
    | _ =>
      obtain ⟨hfollows, hafter⟩ := ih hacks h d
      exact ⟨⟨rfl, hfollows⟩, hafter⟩

/-- One input. -/
theorem turn_mailed (hp : ∀ e, p.ret e = .ok) (hacc : Accepts srv verdict) {f f' : LlFtp}
    {inp : Option RxBuf} {tr : List Ev} {ret : RetCode} {w w' : World}
    (hx : exec (storage p) (msgProcess f inp) w = some (tr, (ret, f'), w')) (d : Desk μ) :
    ∃ d', exec (mailed (storage p) srv verdict) (turn f (.process inp)) (w, d) =
      some (tr, (ret, f'), (w', d')) := by
  have hrun := exec_runs hx
  obtain ⟨hfollows, hafter⟩ := exec_follows hx
  obtain ⟨hfollows', hafter'⟩ :=
    follows_mailed hp hacc (msgStep_acks (msgProcess_runs hrun)) hfollows d
  refine ⟨(after (mailed (storage p) srv verdict) (w, d) tr).2, ?_⟩
  rw [← hafter, ← hafter']
  exact hrun.exec_eq hfollows'

/-- All the inputs. -/
theorem turns_mailed (hp : ∀ e, p.ret e = .ok) (hacc : Accepts srv verdict)
    {inputs : List (Option RxBuf)} {f f' : LlFtp} {w w' : World} {hist : List FtpStep}
    (hx : execAll msgProcess (storage p) f inputs w = some (hist, f', w')) (d : Desk μ) :
    ∃ d', execAll turn (mailed (storage p) srv verdict) f (inputs.map .process) (w, d) =
      some (hist.map onTurn, f', (w', d')) := by
  induction inputs generalizing f w hist d with
  | nil =>
    simp only [execAll_nil, Option.some.injEq, Prod.mk.injEq] at hx
    obtain ⟨rfl, rfl, rfl⟩ := hx
    exact ⟨d, rfl⟩
  | cons inp inputs ih =>
    obtain ⟨tr, ret, g, w₁, hist₁, hfirst, hrest, rfl⟩ := execAll_cons_some hx
    obtain ⟨d₁, hturn⟩ := turn_mailed hp hacc hfirst d
    obtain ⟨d', hmore⟩ := ih hrest d₁
    refine ⟨d', ?_⟩
    rw [List.map_cons, execAll_cons hturn, hmore]
    rfl

/-- What the receiver hands over are its uplinks. -/
theorem mail_onTurn {f f' : LlFtp} {hist : List FtpStep} (hrun : Run msgProcess f hist f') :
    mail (hist.map onTurn) = uplinkPayloads hist := by
  unfold mail uplinkPayloads
  rw [List.flatMap_map]
  refine List.flatMap_congr fun st hst => ?_
  exact (acks_mail (msgStep_acks (step_msgStep (hrun.mem hst).2))).1

/-- The download is the run on the messages the sender has sent in it. -/
theorem download_inputs {apply : Nat → RxBuf} {arrive : Nat → Option (List U8) → List RxBuf}
    {n : Nat} {f f' : LlFtp} {w w' : World} {hist : List FtpStep}
    (hx : download p apply arrive n f w = some (hist, f', w')) :
    execAll msgProcess (storage p) f (hist.map Step.input) w = some (hist, f', w') := by
  induction n generalizing f w hist with
  | zero =>
    simp only [download, Option.some.injEq, Prod.mk.injEq] at hx
    obtain ⟨rfl, rfl, rfl⟩ := hx
    rfl
  | succ n ih =>
    rw [download, Option.bind_eq_some_iff] at hx
    obtain ⟨⟨tr, ⟨ret, g⟩, w₁⟩, hfirst, hx⟩ := hx
    split at hx
    next =>
      simp only [Option.some.injEq, Prod.mk.injEq] at hx
      obtain ⟨rfl, rfl, rfl⟩ := hx
      rw [List.map_cons, execAll_cons hfirst]
      rfl
    next =>
      rw [Option.bind_eq_some_iff] at hx
      obtain ⟨⟨hist₁, f₁, w₂⟩, hanswer, hx⟩ := hx
      rw [Option.map_eq_some_iff] at hx
      obtain ⟨⟨hist₂, f₂, w₃⟩, hmore, heq⟩ := hx
      simp only [Prod.mk.injEq] at heq
      obtain ⟨rfl, rfl, rfl⟩ := heq
      have hinputs := execAll_inputs hanswer
      have hboth := execAll_append hanswer (ih hmore)
      rw [← hinputs] at hboth
      rw [List.map_cons, List.map_append, execAll_cons hfirst, hboth]
      rfl

end

/-- **A download over the line.** The run of a download that comes through is one the host makes
on the serial line, and the module has served its uplinks, each once and in order. -/
theorem download_over_line {μ : Type} {srv : Server μ} {clock : Nat → Int × Time}
    {starve : Starve} (hclock : Prompt clock) (hdry : Dry starve) {fuel : Nat}
    (hfuel : 65540 ≤ fuel) (checksumBuff : U32 → List U8) {verdict : Int → RetCode}
    (hacc : Accepts srv verdict) {I : Image} {p : Policy} (hp : ∀ e, p.ret e = .ok) {f : LlFtp}
    (hidle : f.state = .idle) (hmax : f.ulMaxPort < port) {b : RxBuf} (hinit : InitOf I b)
    {segs : List RxBuf} (hsegs : ∀ b ∈ segs, SegmentOf I b) {apply : Nat → RxBuf}
    (happly : ∀ n, ApplyOf I (apply n)) {arrive : Nat → Option (List U8) → List RxBuf}
    (hsent : ∀ n o, ∀ b ∈ arrive n o, SegmentOf I b)
    (hfair : ∀ n req, Answerable I req → Fair I req (arrive n (some req))) (w : World) {n : Nat}
    (hn : I.count < n) {buff : List U8} (hbuff : buff.length = 258) {d : Desk μ} {messageNum : U32}
    {l : Link μ} (hl : Settled d messageNum l) :
    ∃ hist f₁ w₁ hist' f' w',
      execAll msgProcess (storage p) f ((b :: segs).map some) w = some (hist, f₁, w₁) ∧
      download p apply arrive n f₁ w₁ = some (hist', f', w') ∧ f'.state = .idle ∧
      applied (hist ++ hist') = [(I.fileId, I.fileVersion, I.fileSize)] ∧
      (∀ i, i < I.length → w'.data I.fileId I.fileVersion i = I.bytes i) ∧
      ∃ messageNum' buff' l' d', Ends (stack (storage p) srv clock starve)
        (hosted fuel checksumBuff verdict f (((hist ++ hist').map Step.input).map .process)
          messageNum buff) (w, l)
        (((hist ++ hist').map Step.out, f'), (messageNum', buff')) (w', l') ∧
        Settled d' messageNum' l' ∧
        d'.served = d.served ++ numbered d.messageNum (uplinkPayloads (hist ++ hist')) := by
  obtain ⟨hist, f₁, w₁, hist', f', w', hx, hdown, hidle', happlied, hdata⟩ :=
    download_comes_through hp hidle hinit hsegs happly hsent hfair w hn
  have hall : execAll msgProcess (storage p) f ((hist ++ hist').map Step.input) w =
      some (hist ++ hist', f', w') := by
    rw [List.map_append]
    exact execAll_append (execAll_inputs hx ▸ hx) (download_inputs hdown)
  obtain ⟨d', hturns⟩ := turns_mailed hp hacc hall d
  obtain ⟨hline, hserved⟩ := @host_served μ World (storage p) srv clock starve hclock hdry fuel
    hfuel checksumBuff verdict f f' hmax buff hbuff d d' messageNum l hl w w'
    (((hist ++ hist').map Step.input).map .process) ((hist ++ hist').map Step.out)
  have houts : ((hist ++ hist').map onTurn).map Step.out = (hist ++ hist').map Step.out := by
    rw [List.map_map]
    rfl
  obtain ⟨messageNum', buff', l', hends, -, hl'⟩ := hline.mpr ⟨_, hturns, houts⟩
  refine ⟨hist, f₁, w₁, hist', f', w', hx, hdown, hidle', happlied, hdata, messageNum', buff', l',
    d', hends, hl', ?_⟩
  have hrun : Run msgProcess f ([] ++ (hist ++ hist')) f' := execAll_run .nil hall
  rw [List.nil_append] at hrun
  rw [(hserved _ hturns).1, mail_onTurn hrun]

theorem taker_accepts : Accepts taker errorIfNegative := fun _ _ => rfl

/-- The file of two segments, with a module that takes what it is sent. -/
theorem download_over_line_pair :
    ∃ hist f₁ w₁ hist' f' w',
      execAll msgProcess (storage .willing) LlFtp.started.reinit [some pairImage.initMsg] .empty =
        some (hist, f₁, w₁) ∧
      download .willing (fun _ => fileMsg 2 7 1 108 []) (fun _ => lastOnly pairImage) 3 f₁ w₁ =
        some (hist', f', w') ∧ f'.state = .idle ∧ applied (hist ++ hist') = [(7, 1, 108)] ∧
      (∀ i, i < 124 → w'.data 7 1 i = pairImage.bytes i) ∧
      ∃ messageNum' buff' l' d', Ends (stack (storage .willing) taker Ifc.still Ifc.silent)
        (hosted 65540 (fun _ => [0, 0]) errorIfNegative LlFtp.started.reinit
          (((hist ++ hist').map Step.input).map .process) 255 (List.replicate 258 0))
        (World.empty, ⟨⟨[], 0, false⟩, [], [], ()⟩)
        (((hist ++ hist').map Step.out, f'), (messageNum', buff')) (w', l') ∧
        Settled d' messageNum' l' ∧ d'.served = numbered 255 (uplinkPayloads (hist ++ hist')) := by
  have happly : ∀ _ : Nat, ApplyOf pairImage (fileMsg 2 7 1 108 []) := fun _ =>
    ⟨by decide +kernel, by decide +kernel, by decide +kernel, by decide +kernel⟩
  have hnone : ∀ b ∈ ([] : List RxBuf), SegmentOf pairImage b := fun _ hb =>
    absurd hb List.not_mem_nil
  have hl : Settled (⟨(), 255, []⟩ : Desk Unit) 255 ⟨⟨[], 0, false⟩, [], [], ()⟩ :=
    ⟨rfl, rfl, rfl, rfl, rfl, rfl⟩
  exact download_over_line Ifc.still_prompt Ifc.silent_dry (Nat.le_refl _) (fun _ => [0, 0])
    taker_accepts (p := .willing) (fun _ => rfl) (reinit_state LlFtp.started) (by decide)
    pairImage.initMsg_spec hnone happly (fun _ => lastOnly_sent) (fun _ _ h => lastOnly_fair h)
    .empty (by decide) List.length_replicate hl

end HostInterface.Ftp
