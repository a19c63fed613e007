import HostInterface.Ftp.Ack
import HostInterface.Ifc.MessageSend
import HostInterface.Interact.Loop

/-!
# The receiver on the serial line

An application gives the receiver an `uplink` callback that calls `ll_message_send`, and may send
messages of its own in between. The module at the end of the line then gets both, each as a
command of its own, and the gateway tells them apart by their port: the ports from `LL_FTP_PORT`
on are reserved, and `ll_ul_max_port` keeps the application out of them. The receiver raises it
for its own uplinks and puts it back (`ll_ftp_send_uplink`).

`host_served`: whatever downlinks, ticks and messages of its own an application handles, and in
whatever order, what the module serves on a reserved port is the acknowledgements of the receiver,
all of them, in order, and nothing else.
-/

namespace HostInterface.Ftp

open Interact Prog
open Ifc (Server Desk Link Settled Starve Prompt Dry remote handMessage messageHeader)

/-! ## The stack -/

/-- The calls of a host: the application's callbacks, and the transport and clock of the line. -/
inductive StackCall where
  | app (e : Call)
  | line (e : Ifc.Call)

abbrev StackReply : StackCall → Type
  | .app e => Reply e
  | .line e => Ifc.Reply e

section

variable {μ τ α : Type} (app : (e : Call) → τ → Reply e × τ) (srv : Server μ)
  (clock : Nat → Int × Time) (starve : Starve)

/-- The application, and the line with the module at its end. -/
def stack : (e : StackCall) → τ × Link μ → StackReply e × (τ × Link μ)
  | .app e, (t, l) => ((app e t).1, (app e t).2, l)
  | .line e, (t, l) => ((remote srv clock starve e l).1, t, (remote srv clock starve e l).2)

/-- What only calls the line. -/
def overLine (p : Ifc.IfcM α) : Prog StackReply α :=
  interp (fun e => .call (.line e) .done) p

/-- The length a message is sent with. -/
def messageLen (buf : List U8) : U16 :=
  BitVec.ofNat 16 buf.length

/-- The callbacks, with an uplink that calls `ll_message_send` and makes a return code of what that
returns. -/
def callbacks (fuel : Nat) (checksumBuff : U32 → List U8) (verdict : Int → RetCode) :
    (e : Call) → U32 × List U8 → Prog StackReply (Reply e × (U32 × List U8))
  | .uplink buf acked port ulMaxPort, (messageNum, uplinkMessageBuff) =>
    overLine (Ifc.llMessageSend fuel (checksumBuff messageNum) messageNum ulMaxPort
      uplinkMessageBuff (some (.own buf)) (messageLen buf) acked port) >>= fun x =>
        .done (verdict x.1.1, x.2, x.1.2)
  | e, v => .call (.app e) fun r => .done (r, v)

/-- The same without a line: the server is handed the message. -/
def mailed (verdict : Int → RetCode) : (e : Call) → τ × Desk μ → Reply e × (τ × Desk μ)
  | .uplink buf acked port ulMaxPort, (t, d) =>
    let sent := handMessage srv ulMaxPort (buf.take (messageLen buf).toNat) acked port d
    (verdict sent.1, t, sent.2)
  | e, (t, d) => ((app e t).1, (app e t).2, d)

/-- The application is in the same state, and the line is settled. -/
structure Carried (s : τ × Desk μ) (v : U32 × List U8) (t : τ × Link μ) : Prop where
  app : t.1 = s.1
  buff : v.2.length = 258
  settled : Settled s.2 v.1 t.2

variable {app srv clock starve}

/-- What ends on the line ends in the stack, and the application does not see it. -/
theorem overLine_ends {p : Ifc.IfcM α} {t : τ} {l l' : Link μ} {a : α}
    (h : Ends (remote srv clock starve) p l a l') :
    Ends (stack app srv clock starve) (overLine p) (t, l) a (t, l') := by
  have himp : Implements (remote srv clock starve) (stack app srv clock starve) (fun _ => True)
      (fun _ r r' => r = r') (fun l x => x = (t, l)) (fun _ => False)
      (fun e => .call (.line e) .done) := by
    refine ⟨fun e l x _ hx => .inl ⟨_, _, .call (.done _ _), ?_, ?_⟩, fun _ _ h => h,
    fun _ _ _ h => h⟩
    · rw [hx]
      rfl
    · rw [hx]
      rfl
  have hblind : p.Blind fun _ r r' => r = r' :=
    (only_true p).blind fun _ _ _ _ h => h
  obtain ⟨x, hends, rfl⟩ := himp.ends (only_true p) hblind rfl h fun h => h
  exact hends

/-- **The callbacks hand their messages to the module.** -/
theorem callbacks_carries (hclock : Prompt clock) (hdry : Dry starve) {fuel : Nat}
    (hfuel : 65540 ≤ fuel) (checksumBuff : U32 → List U8) (verdict : Int → RetCode) :
    Carries (mailed app srv verdict) (stack app srv clock starve) Carried
      (callbacks fuel checksumBuff verdict) := by
  rintro e ⟨t, d⟩ ⟨messageNum, buff⟩ ⟨t', l⟩ ⟨happ, hbuff, hl⟩
  obtain rfl : t' = t := happ
  cases e with
  | uplink buf acked port ulMaxPort =>
    have hthere : (messageLen buf).toNat ≤ ((Ifc.Message.own buf).bytes buff).length := by
      show (BitVec.ofNat 16 buf.length).toNat ≤ buf.length
      rw [BitVec.toNat_ofNat]
      exact Nat.mod_le _ _
    obtain ⟨buff', messageNum', l', hbuff', hends, hl'⟩ := @Ifc.llMessageSend_settles μ srv clock
      starve fuel hclock hdry hfuel d messageNum l hl (checksumBuff messageNum) ulMaxPort buff hbuff
      (.own buf) (messageLen buf) hthere acked port
    exact ⟨_, _, (overLine_ends hends).bind (.done _ _), rfl, hbuff', hl'⟩
  | _ => exact ⟨_, _, .call (.done _ _), rfl, hbuff, hl⟩

end

/-! ## What is handed over -/

/-- What `ll_message_send` hands to the module: the message, unless its length or its port is out
of range. -/
def posted (ulMaxPort : U8) (message : List U8) (ack : Bool) (port : U8) : List (List U8) :=
  if message = [] ∨ 256 < message.length ∨ ulMaxPort < port then []
  else [messageHeader ack port ++ message]

/-- The messages a call hands over. -/
def mailOf : Ev → List (List U8)
  | ⟨.uplink buf acked port ulMaxPort, _⟩ =>
    posted ulMaxPort (buf.take (messageLen buf).toNat) acked port
  | _ => []

/-- The commands that hand over messages, from one number on. -/
def numbered (messageNum : U32) : List (List U8) → List Ifc.Heeded
  | [] => []
  | payload :: payloads =>
    ⟨92, messageNum.setWidth 8, payload⟩ :: numbered (messageNum + 1) payloads

theorem numbered_append (messageNum : U32) (ps qs : List (List U8)) :
    numbered messageNum (ps ++ qs) =
      numbered messageNum ps ++ numbered (messageNum + BitVec.ofNat 32 ps.length) qs := by
  induction ps generalizing messageNum with
  | nil => rw [List.length_nil, BitVec.add_zero]; rfl
  | cons p ps ih =>
    rw [List.cons_append, numbered, ih, numbered, List.cons_append, BitVec.add_assoc,
      List.length_cons, Nat.add_comm, BitVec.ofNat_add]
    rfl

section

variable {μ τ : Type} {app : (e : Call) → τ → Reply e × τ} {srv : Server μ}
  {verdict : Int → RetCode}

/-- The module has served these messages, in this order, and the numbers went on. -/
structure Delivers (d : Desk μ) (payloads : List (List U8)) (d' : Desk μ) : Prop where
  served : d'.served = d.served ++ numbered d.messageNum payloads
  messageNum : d'.messageNum = d.messageNum + BitVec.ofNat 32 payloads.length

theorem Delivers.none (d : Desk μ) : Delivers d [] d :=
  ⟨(List.append_nil _).symm, (BitVec.add_zero _).symm⟩

theorem Delivers.append {d d₁ d' : Desk μ} {ps qs : List (List U8)} (h : Delivers d ps d₁)
    (h' : Delivers d₁ qs d') : Delivers d (ps ++ qs) d' := by
  constructor
  · rw [h'.served, h.served, h.messageNum, List.append_assoc, numbered_append]
  · rw [h'.messageNum, h.messageNum, List.length_append, BitVec.ofNat_add, BitVec.add_assoc]

/-- One call. -/
theorem mailed_delivers (e : Call) (x : τ × Desk μ) :
    Delivers x.2 (mailOf ⟨e, (mailed app srv verdict e x).1⟩) (mailed app srv verdict e x).2.2 := by
  obtain ⟨t, d⟩ := x
  cases e with
  | uplink buf acked port ulMaxPort =>
    show Delivers d (posted ulMaxPort (buf.take (messageLen buf).toNat) acked port)
      (handMessage srv ulMaxPort (buf.take (messageLen buf).toNat) acked port d).2
    unfold posted handMessage
    split
    next => exact .none d
    next => exact ⟨rfl, rfl⟩
  | _ => exact .none d

/-- All the calls of a program. -/
theorem follows_delivers {tr : List Ev} {x : τ × Desk μ} (h : Follows (mailed app srv verdict) x tr) :
    Delivers x.2 (tr.flatMap mailOf) (after (mailed app srv verdict) x tr).2 := by
  induction tr generalizing x with
  | nil => exact .none x.2
  | cons ev tr ih =>
    obtain ⟨e, r⟩ := ev
    obtain ⟨rfl, h⟩ := h
    rw [List.flatMap_cons]
    exact (mailed_delivers e x).append (ih h)

end

/-! ## The application -/

/-- What the application does next: it has a downlink or a tick processed, or it sends a message of
its own. -/
inductive Turn where
  | process (rx : Option RxBuf)
  | send (message : List U8) (ack : Bool) (port : U8)

/-- One turn; what the application sends goes out as an uplink does, with `ll_ul_max_port` as it
is. -/
def turn (f : LlFtp) : Turn → FtpM (RetCode × LlFtp)
  | .process rx => msgProcess f rx
  | .send message ack port => .call (.uplink message ack port f.ulMaxPort) fun ret => .done (ret, f)

abbrev TurnStep := Interact.Step Reply LlFtp Turn RetCode

/-- The turns, with the application's calls in the stack. -/
def hosted (fuel : Nat) (checksumBuff : U32 → List U8) (verdict : Int → RetCode) (f : LlFtp)
    (turns : List Turn) (messageNum : U32) (uplinkMessageBuff : List U8) :
    Prog StackReply ((List RetCode × LlFtp) × (U32 × List U8)) :=
  interpWith (callbacks fuel checksumBuff verdict) (runAll turn f turns)
    (messageNum, uplinkMessageBuff)

/-- All that is handed over. -/
def mail (hist : List TurnStep) : List (List U8) :=
  hist.flatMap fun st => st.events.flatMap mailOf

/-- An uplink as the module gets it. -/
def uplinkPayload : Ev → List (List U8)
  | ⟨.uplink buf acked port _, _⟩ => [messageHeader acked port ++ buf]
  | _ => []

/-- The acknowledgements of the receiver in one turn. -/
def acksOf (st : TurnStep) : List (List U8) :=
  match st.input with
  | .process _ => st.events.flatMap uplinkPayload
  | .send _ _ _ => []

/-- The acknowledgements of the receiver. -/
def acks (hist : List TurnStep) : List (List U8) :=
  hist.flatMap acksOf

/-- The ports from `LL_FTP_PORT` on. -/
def reserved (payload : List U8) : Bool :=
  port ≤ payload.getD 1 0

/-- A well-formed acknowledgement of some file, on `LL_FTP_PORT`. -/
def IsAckPayload (payload : List U8) : Prop :=
  ∃ acked buf file, payload = messageHeader acked port ++ buf ∧ AckFormat file buf

/-- An acknowledgement fits the length it is sent with. -/
theorem ack_whole {file : U32 × U32} {buf : List U8} (h : AckFormat file buf) :
    buf.take (messageLen buf).toNat = buf := by
  have hmax := h.maxLen
  have hlen : (messageLen buf).toNat = buf.length := by
    show (BitVec.ofNat 16 buf.length).toNat = _
    rw [BitVec.toNat_ofNat]
    omega
  rw [hlen, List.take_length]

/-- An acknowledgement is handed over as it is. -/
theorem posted_ack {file : U32 × U32} {buf : List U8} (h : AckFormat file buf) (acked : Bool) :
    posted port (buf.take (messageLen buf).toNat) acked port = [messageHeader acked port ++ buf] := by
  have hmin := h.minLen
  have hmax := h.maxLen
  rw [ack_whole h]
  refine if_neg ?_
  rintro (hnil | hlong | hport)
  · rw [hnil, List.length_nil] at hmin
    omega
  · omega
  · exact absurd hport (by decide)

/-- The receiver hands over its acknowledgements. -/
theorem acks_mail {f : LlFtp} {file : U32 × U32} {evs : List Ev} (h : AllAcks f file evs) :
    evs.flatMap mailOf = evs.flatMap uplinkPayload ∧
      ∀ payload ∈ evs.flatMap uplinkPayload, IsAckPayload payload := by
  induction evs generalizing file with
  | nil => exact ⟨rfl, fun _ hmem => absurd hmem List.not_mem_nil⟩
  | cons ev evs ih =>
    obtain ⟨hev, hevs⟩ := h
    obtain ⟨hmail, hall⟩ := ih hevs
    rw [List.flatMap_cons, List.flatMap_cons, hmail]
    obtain ⟨e, r⟩ := ev
    cases e with
    | uplink buf acked p maxPort =>
      obtain ⟨hack, rfl, rfl⟩ := hev
      refine ⟨congrArg (· ++ _) (posted_ack hack.format acked), fun payload hmem => ?_⟩
      rcases List.mem_append.mp hmem with hmem | hmem
      · exact ⟨acked, buf, file, List.mem_singleton.mp hmem, hack.format⟩
      · exact hall payload hmem
    | _ => exact ⟨rfl, hall⟩

theorem reserved_ack {payload : List U8} (h : IsAckPayload payload) : reserved payload = true := by
  obtain ⟨acked, buf, file, rfl, -⟩ := h
  rfl

/-- What the application sends, it sends on a port of its own. -/
theorem reserved_posted {ulMaxPort p : U8} {message payload : List U8} {ack : Bool}
    (hmax : ulMaxPort < port) (h : payload ∈ posted ulMaxPort message ack p) :
    reserved payload = false := by
  unfold posted at h
  split at h
  next => exact absurd h List.not_mem_nil
  next hok =>
    rw [List.mem_singleton.mp h]
    refine decide_eq_false fun hport : port ≤ p => hok (.inr (.inr ?_))
    rw [BitVec.lt_def] at hmax ⊢
    rw [BitVec.le_def] at hport
    omega

/-- **One turn**: on reserved ports it hands over acknowledgements only. -/
theorem turn_mail {st : TurnStep} (hv : st.Valid turn) (hmax : st.pre.ulMaxPort < port) :
    (st.events.flatMap mailOf).filter reserved = acksOf st ∧
      (∀ payload ∈ acksOf st, IsAckPayload payload) ∧ st.post.ulMaxPort = st.pre.ulMaxPort := by
  obtain ⟨f, input, evs, ret, f'⟩ := st
  cases input with
  | process rx =>
    have hstep := msgProcess_runs hv
    obtain ⟨hmail, hall⟩ := acks_mail (msgStep_acks hstep)
    refine ⟨?_, hall, msgStep_maxPort hstep⟩
    show (evs.flatMap mailOf).filter reserved = evs.flatMap uplinkPayload
    rw [hmail, List.filter_eq_self]
    exact fun payload hmem => reserved_ack (hall payload hmem)
  | send message ack p =>
    change Runs (.call (.uplink message ack p f.ulMaxPort) fun ret => .done (ret, f)) evs
      (ret, f') at hv
    obtain ⟨r, tr, rfl, hdone⟩ := runs_call.mp hv
    obtain ⟨rfl, heq⟩ := runs_done.mp hdone
    refine ⟨?_, fun _ hmem => absurd hmem List.not_mem_nil, congrArg (·.2.ulMaxPort) heq⟩
    refine List.filter_eq_nil_iff.mpr fun payload hmem => ?_
    rw [List.flatMap_cons, List.flatMap_nil, List.append_nil] at hmem
    rw [reserved_posted hmax hmem]
    exact Bool.false_ne_true

/-- All the turns: everything is served, and on reserved ports the acknowledgements only. -/
theorem turns_served {μ τ : Type} {app : (e : Call) → τ → Reply e × τ} {srv : Server μ}
    {verdict : Int → RetCode} {turns : List Turn} {f f' : LlFtp} {x x' : τ × Desk μ}
    {hist : List TurnStep} (hmax : f.ulMaxPort < port)
    (hx : execAll turn (mailed app srv verdict) f turns x = some (hist, f', x')) :
    Delivers x.2 (mail hist) x'.2 ∧ (mail hist).filter reserved = acks hist ∧
      ∀ payload ∈ acks hist, IsAckPayload payload := by
  induction turns generalizing f x hist with
  | nil =>
    rw [execAll_nil] at hx
    simp only [Option.some.injEq, Prod.mk.injEq] at hx
    obtain ⟨rfl, -, rfl⟩ := hx
    exact ⟨.none x.2, rfl, fun _ hmem => absurd hmem List.not_mem_nil⟩
  | cons inp turns ih =>
    obtain ⟨evs, ret, g, y, hist, hturn, hrest, rfl⟩ := execAll_cons_some hx
    -- The first turn puts the bound on the ports back for the others.
    let st : TurnStep := ⟨f, inp, evs, ret, g⟩
    have hv : st.Valid turn := exec_runs hturn
    obtain ⟨hfirst, hform, hback⟩ := turn_mail hv hmax
    obtain ⟨hdelivers, hfilter, hall⟩ := ih (hback ▸ hmax) hrest
    obtain ⟨hfollows, hafter⟩ := exec_follows hturn
    have hserved := follows_delivers hfollows
    rw [hafter] at hserved
    refine ⟨hserved.append hdelivers, ?_, fun payload hmem => ?_⟩
    · show (evs.flatMap mailOf ++ mail hist).filter reserved = acksOf st ++ acks hist
      rw [List.filter_append, hfirst, hfilter]
    · rcases List.mem_append.mp hmem with hmem | hmem
      · exact hform payload hmem
      · exact hall payload hmem

/-- **The receiver and its application on the line.** Where the application handles downlinks,
ticks and messages of its own, in any order, it ends in the stack exactly as it does with a server
that is handed the messages. The server has then served all of them, each once and in order; those
on reserved ports are the acknowledgements of the receiver, and they are well formed. -/
theorem host_served {μ τ : Type} {app : (e : Call) → τ → Reply e × τ} {srv : Server μ}
    {clock : Nat → Int × Time} {starve : Starve} (hclock : Prompt clock) (hdry : Dry starve)
    {fuel : Nat} (hfuel : 65540 ≤ fuel) (checksumBuff : U32 → List U8) (verdict : Int → RetCode)
    {f f' : LlFtp} (hmax : f.ulMaxPort < port) {buff : List U8} (hbuff : buff.length = 258)
    {d d' : Desk μ} {messageNum : U32} {l : Link μ} (hl : Settled d messageNum l) {t t' : τ}
    {turns : List Turn} {rets : List RetCode} :
    ((∃ messageNum' buff' l', Ends (stack app srv clock starve)
        (hosted fuel checksumBuff verdict f turns messageNum buff) (t, l)
        ((rets, f'), (messageNum', buff')) (t', l') ∧ buff'.length = 258 ∧
          Settled d' messageNum' l') ↔
      ∃ hist, execAll turn (mailed app srv verdict) f turns (t, d) = some (hist, f', t', d') ∧
        hist.map Step.out = rets) ∧
    ∀ hist, execAll turn (mailed app srv verdict) f turns (t, d) = some (hist, f', t', d') →
      d'.served = d.served ++ numbered d.messageNum (mail hist) ∧
      (mail hist).filter reserved = acks hist ∧ ∀ payload ∈ acks hist, IsAckPayload payload := by
  have hcarries := @callbacks_carries μ τ app srv clock starve hclock hdry fuel hfuel checksumBuff
    verdict
  have hstart : Carried (t, d) (messageNum, buff) (t, l) := ⟨rfl, hbuff, hl⟩
  refine ⟨⟨fun h => ?_, fun h => ?_⟩, fun hist hx => ?_⟩
  · obtain ⟨messageNum', buff', l', hends, -, hl'⟩ := h
    obtain ⟨⟨t₁, d₁⟩, hdirect, happ, -, hl₁⟩ := hcarries.ends_above hstart hends
    obtain rfl : t' = t₁ := happ
    obtain rfl : d₁ = d' := hl₁.unique hl'
    exact runAll_ends_iff.mp hdirect
  · obtain ⟨⟨messageNum', buff'⟩, ⟨t₁, l'⟩, hends, happ, hbuff', hl'⟩ :=
      hcarries.ends hstart (runAll_ends_iff.mpr h)
    obtain rfl : t₁ = t' := happ
    exact ⟨messageNum', buff', l', hends, hbuff', hl'⟩
  · obtain ⟨hdelivers, hports⟩ := turns_served hmax hx
    exact ⟨hdelivers.served, hports⟩

/-! ## A file and two messages -/

/-- A module that takes what it is sent. -/
def taker : Server Unit := fun _ _ _ => (.done [] Ifc.empty_small, ())

/-- A negative result is an error. -/
def errorIfNegative (ret : Int) : RetCode :=
  if ret < 0 then .error else .ok

/-- The smallest file, and in between a message on port 5 and one on port 128. -/
def fileAndMessages : List Turn :=
  [.process (some tinyInit), .send [1, 2] false 5, .send [9] true 128,
    .process (some (tinySegment 7))]

/-- The object with the bound that `ll_ul_max_port` starts with. -/
def LlFtp.started : LlFtp :=
  { LlFtp.blank with ulMaxPort := 127 }

theorem host_served_file :
    ∃ f' w' d', (∃ messageNum' buff' l', Ends (stack (storage .willing) taker Ifc.still Ifc.silent)
        (hosted 65540 (fun _ => [0, 0]) errorIfNegative .started fileAndMessages 255
          (List.replicate 258 0))
        (World.empty, ⟨⟨[], 0, false⟩, [], [], ()⟩)
        (([.ok, .ok, .error, .ok], f'), (messageNum', buff')) (w', l') ∧ buff'.length = 258 ∧
          Settled d' messageNum' l') ∧
      d'.served.map (fun c => c.payload.getD 1 0) = [128, 5, 128] := by
  have hrun : (execAll turn (mailed (storage .willing) taker errorIfNegative) LlFtp.started
      fileAndMessages (World.empty, ⟨(), 255, []⟩)).map (fun x =>
        (x.1.map Step.out, x.2.2.2.served.map fun c => c.payload.getD 1 0)) =
      some ([.ok, .ok, .error, .ok], [128, 5, 128]) := by
    decide +kernel
  obtain ⟨⟨hist, f', w', d'⟩, hx, heq⟩ := Option.map_eq_some_iff.mp hrun
  obtain ⟨hrets, hports⟩ := Prod.mk.inj heq
  have hserved := @host_served Unit World (storage .willing) taker Ifc.still Ifc.silent
    Ifc.still_prompt Ifc.silent_dry 65540 (Nat.le_refl _) (fun _ => [0, 0]) errorIfNegative .started f'
    (by decide) (List.replicate 258 0) List.length_replicate ⟨(), 255, []⟩ d' 255
    ⟨⟨[], 0, false⟩, [], [], ()⟩ ⟨rfl, rfl, rfl, rfl, rfl, rfl⟩ World.empty w' fileAndMessages
    [.ok, .ok, .error, .ok]
  exact ⟨f', w', d', hserved.1.mpr ⟨hist, hx, hrets⟩, hports⟩

end HostInterface.Ftp
