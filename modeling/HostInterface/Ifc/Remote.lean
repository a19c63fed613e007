import HostInterface.Interact.Layer
import HostInterface.Ifc.ConfigSet
import HostInterface.Ifc.Listen

/-!
# `hal_read_write` as a remote call

On the other side of the serial line is a module that collects the bytes of a command frame,
serves the command, and answers with a response frame. What it does with a command is its own
affair, a `Server`; `remote` is the line with such a module at the end of it.

On an idle line, a `hal_read_write` returns what the server answers, and the line is idle again
(`halReadWrite_settles`). So a program that makes many of them, whatever it makes of their results,
might as well call the server (`onLine_ends_iff`).
-/

namespace HostInterface.Ifc

open Interact Prog

/-! ## The module -/

/-- An ACK or NACK with its code, and a payload. -/
structure Served where
  ack : U8
  payload : List U8
  small : payload.length < 65536
  refusal : ack ≠ 0 → payload = []

theorem empty_small : ([] : List U8).length < 65536 := by decide

/-- A command that is done, and what it is answered with. -/
def Served.done (payload : List U8) (small : payload.length < 65536) : Served :=
  ⟨0, payload, small, fun h => absurd rfl h⟩

/-- A command that is refused. -/
def Served.refused (code : U8) : Served :=
  ⟨code, [], empty_small, fun _ => rfl⟩

/-- What a module does with an opcode and a payload. -/
abbrev Server (μ : Type) := μ → U8 → List U8 → Served × μ

/-- A command as the module has understood it. -/
structure Heeded where
  op : U8
  messageNum : U8
  payload : List U8
deriving DecidableEq

/-- The serial line, the bytes of a command that have reached the module, the commands it has
served, and the state it is in. -/
structure Link (μ : Type) where
  line : Stream
  frame : List U8
  served : List Heeded
  state : μ

/-- A frame of a command is complete when it has the length its header says. -/
def complete (frame : List U8) : Bool :=
  7 ≤ frame.length ∧ frame.length = 7 + (fromBe16 (frame.getD 3 0) (frame.getD 4 0)).toNat

section Module

variable {μ : Type} (srv : Server μ)

/-- A command is served, and answered. -/
def Link.serve (l : Link μ) (cmd : Heeded) : Link μ where
  line :=
    { l.line with
      rest := l.line.rest ++ respFrame cmd.op cmd.messageNum (srv l.state cmd.op cmd.payload).1.ack
        (srv l.state cmd.op cmd.payload).1.payload }
  frame := []
  served := l.served ++ [cmd]
  state := (srv l.state cmd.op cmd.payload).2

/-- A complete frame with the right checksum is served; another one is dropped. -/
def Link.accept (l : Link μ) (frame : List U8) : Link μ :=
  let payload := (frame.drop 5).take (frame.length - 7)
  let sum := frame.drop (frame.length - 2)
  if fromBe16 (sum.getD 0 0) (sum.getD 1 0) = computeChecksum (frame.take 5) payload then
    l.serve srv ⟨frame.getD 1 0, frame.getD 2 0, payload⟩
  else { l with frame := [] }

/-- The module gets a byte. Between frames, it waits for `FRAME_START`. -/
def Link.hear (l : Link μ) (b : U8) : Link μ :=
  if l.frame = [] ∧ b ≠ frameStart then l
  else if complete (l.frame ++ [b]) then l.accept srv (l.frame ++ [b])
  else { l with frame := l.frame ++ [b] }

/-- The line with the module at the end of it. -/
def remote (clock : Nat → Int × Time) (starve : Starve) : (e : Call) → Link μ → Reply e × Link μ
  | .transportWrite buf, l => ((0 : Int), buf.foldl (Link.hear srv) l)
  | .transportRead len, l =>
    let r := stream clock starve (.transportRead len) l.line
    (r.1, { l with line := r.2 })
  | .gettime, l =>
    let r := stream clock starve .gettime l.line
    (r.1, { l with line := r.2 })

/-! ## A command frame is understood -/

variable {srv}

/-- The wakeup bytes are skipped. -/
theorem hear_wakeup {l : Link μ} (hl : l.frame = []) (n : Nat) :
    (List.replicate n (0xff : U8)).foldl (Link.hear srv) l = l := by
  induction n with
  | zero => rfl
  | succ n ih =>
    have hone : l.hear srv 0xff = l := if_pos ⟨hl, by decide⟩
    rw [List.replicate_succ, List.foldl_cons, hone]
    exact ih

/-- The bytes of a frame are collected as long as it is not complete. -/
theorem hear_collect {frame bs : List U8} {l : Link μ} (hframe : l.frame = frame)
    (hstart : frame ≠ [] ∨ bs.head? = some frameStart)
    (hmore : ∀ a b, frame ++ bs = a ++ b → frame.length < a.length → complete a = false) :
    bs.foldl (Link.hear srv) l = { l with frame := frame ++ bs } := by
  induction bs generalizing frame l with
  | nil =>
    rw [List.append_nil, ← hframe]
    rfl
  | cons b bs ih =>
    have hhere := hmore (frame ++ [b]) bs (List.append_cons frame b bs) (by simp)
    have hkept : ¬ (l.frame = [] ∧ b ≠ frameStart) := by
      rw [hframe]
      rintro ⟨hnil, hb⟩
      rcases hstart with h | h
      · exact h hnil
      · exact hb (Option.some.inj h)
    have hone : l.hear srv b = { l with frame := frame ++ [b] } := by
      unfold Link.hear
      rw [if_neg hkept, hframe, hhere, if_neg Bool.false_ne_true]
    rw [List.foldl_cons, hone, ih rfl (.inl (by simp)), List.append_cons frame b bs]
    intro a b' heq hlen
    rw [← List.append_cons] at heq
    rw [List.length_append] at hlen
    exact hmore a b' heq (by omega)

/-- Of the bytes of a frame, none but all of them are complete. -/
theorem complete_part {op messageNum hi lo : U8} {tail a b : List U8}
    (htail : tail.length = (fromBe16 hi lo).toNat + 2)
    (heq : frameStart :: op :: messageNum :: hi :: lo :: tail = a ++ b) :
    complete a = decide (b = []) := by
  have hlen := congrArg List.length heq
  simp only [List.length_cons, List.length_append] at hlen
  have hb : b = [] ↔ b.length = 0 := List.length_eq_zero_iff.symm
  unfold complete
  by_cases hseven : 7 ≤ a.length
  · -- The header is in it.
    have hget : ∀ i < 5, a.getD i 0 =
        (frameStart :: op :: messageNum :: hi :: lo :: tail).getD i 0 := by
      intro i hi
      rw [heq, List.getD_eq_getElem?_getD, List.getD_eq_getElem?_getD,
        List.getElem?_append_left (by omega)]
    rw [hget 3 (by decide), hget 4 (by decide)]
    show decide (7 ≤ a.length ∧ a.length = 7 + (fromBe16 hi lo).toNat) = _
    rw [decide_eq_decide, hb]
    omega
  · rw [decide_eq_decide, hb]
    omega

/-- A frame that is complete with its last byte is accepted then. -/
theorem hear_frame {op messageNum hi lo : U8} {tail : List U8} {l : Link μ} (hl : l.frame = [])
    (htail : tail.length = (fromBe16 hi lo).toNat + 2) :
    (frameStart :: op :: messageNum :: hi :: lo :: tail).foldl (Link.hear srv) l =
      l.accept srv (frameStart :: op :: messageNum :: hi :: lo :: tail) := by
  have hne : frameStart :: op :: messageNum :: hi :: lo :: tail ≠ [] := List.cons_ne_nil _ _
  obtain ⟨init, last, hsplit⟩ := List.eq_nil_or_concat'
    (frameStart :: op :: messageNum :: hi :: lo :: tail) |>.resolve_left hne
  have hinit : init ≠ [] := by
    rintro rfl
    have hlen := congrArg List.length hsplit
    simp only [List.length_cons, List.nil_append, List.length_nil] at hlen
    omega
  have hhead : init.head? = some frameStart := by
    cases init with
    | nil => exact absurd rfl hinit
    | cons x xs => exact congrArg some (List.cons.inj hsplit).1.symm
  have hmore : ∀ a b, [] ++ init = a ++ b → ([] : List U8).length < a.length →
      complete a = false := by
    intro a b heq _
    have hwhole : frameStart :: op :: messageNum :: hi :: lo :: tail = a ++ (b ++ [last]) := by
      rw [hsplit, ← List.append_assoc, ← heq, List.nil_append]
    rw [complete_part htail hwhole]
    exact decide_eq_false (List.append_ne_nil_of_right_ne_nil b (List.cons_ne_nil _ _))
  have hcollect := @hear_collect μ srv [] init l hl (.inr hhead) hmore
  rw [hsplit, List.foldl_append, hcollect, List.nil_append]
  show Link.hear srv { l with frame := init } last = _
  unfold Link.hear
  have hcomplete : complete (init ++ [last]) = true :=
    (complete_part htail (hsplit.trans (List.append_nil _).symm)).trans
      (decide_eq_true rfl)
  rw [if_neg fun h => hinit h.1, hcomplete, if_pos rfl]
  rfl

/-- The payload of a command. -/
def Command.payload (c : Command) : List U8 :=
  (c.bufIn.getD []).take c.inLen.toNat

theorem Command.payload_length {c : Command} (hc : c.Valid) :
    c.payload.length = c.inLen.toNat :=
  List.length_take_of_le (badBuffer_fits hc.1 c.inFits)

/-- The frame of a command is served once, whatever pieces it is written in. -/
theorem hear_command {c : Command} (hc : c.Valid) {messageNum : U8} {l : Link μ}
    (hl : l.frame = []) :
    (commandFrame c messageNum).foldl (Link.hear srv) l =
      l.serve srv ⟨c.op, messageNum, c.payload⟩ := by
  have hlen := Command.payload_length hc
  obtain ⟨hi, lo, hbe⟩ : ∃ hi lo, be16 c.inLen = [hi, lo] := ⟨_, _, rfl⟩
  have hin : fromBe16 hi lo = c.inLen := by
    have hback := fromBe16_be16 c.inLen
    obtain ⟨rfl, rfl⟩ : (c.inLen >>> 8).setWidth 8 = hi ∧ c.inLen.setWidth 8 = lo := by
      injection hbe with h₁ h₂
      injection h₂ with h₂
      exact ⟨h₁, h₂⟩
    exact hback
  -- The frame, and its parts as the module sees them.
  generalize hsum : computeChecksum ([frameStart, c.op, messageNum] ++ be16 c.inLen) c.payload = sum
  have hframe : commandFrame c messageNum = List.replicate 4 0xff ++
      (frameStart :: c.op :: messageNum :: hi :: lo :: (c.payload ++ be16 sum)) := by
    unfold commandFrame
    dsimp only
    rw [← hsum, hbe]
    simp only [List.append_assoc, List.cons_append, List.nil_append]
    rfl
  have htail : (c.payload ++ be16 sum).length = (fromBe16 hi lo).toNat + 2 := by
    rw [List.length_append, hlen, hin]
    rfl
  rw [hframe, List.foldl_append, hear_wakeup hl, hear_frame hl htail]
  unfold Link.accept
  dsimp only
  have htotal : (frameStart :: c.op :: messageNum :: hi :: lo :: (c.payload ++ be16 sum)).length =
      7 + c.payload.length := by
    rw [List.length_cons, List.length_cons, List.length_cons, List.length_cons, List.length_cons,
      htail, hin, hlen]
    omega
  have hpayload : ((frameStart :: c.op :: messageNum :: hi :: lo :: (c.payload ++ be16 sum)).drop
      5).take (7 + c.payload.length - 7) = c.payload := by
    rw [Nat.add_sub_cancel_left]
    exact List.take_left
  have hdrop : (frameStart :: c.op :: messageNum :: hi :: lo :: (c.payload ++ be16 sum)).drop
      (7 + c.payload.length - 2) = be16 sum := by
    rw [show 7 + c.payload.length - 2 = 5 + c.payload.length by omega, ← List.drop_drop]
    exact List.drop_left
  rw [htotal, hpayload, hdrop, if_pos]
  · rfl
  · rw [hbe] at hsum
    exact (fromBe16_be16 sum).trans hsum.symm

end Module

/-! ## One exchange on the line -/

/-- What `hal_read_write` makes of an answer. -/
def Served.result (a : Served) (c : Command) : Int × Option (List U8) :=
  if c.outLen.toNat < a.payload.length then (errorBufferTooSmall, c.bufOut)
  else if a.ack = 0 then ((a.payload.length : Int), withPayload c.bufOut a.payload)
  else (-(a.ack.toNat : Int), c.bufOut)

/-- The clock works, and at most two seconds pass between the two looks of an exchange. An
exchange looks twice; between two of them any time may pass. -/
def Prompt (clock : Nat → Int × Time) : Prop :=
  ∀ k, 0 ≤ (clock (2 * k)).1 ∧ 0 ≤ (clock (2 * k + 1)).1 ∧
    (clock (2 * k + 1)).2.tvSec - (clock (2 * k)).2.tvSec ≤ 2

/-- The two looks of an exchange that begins with this one. -/
theorem Prompt.looks {clock : Nat → Int × Time} (h : Prompt clock) {i : Nat} (hi : i % 2 = 0) :
    0 ≤ (clock i).1 ∧ 0 ≤ (clock (i + 1)).1 ∧
      (clock (i + 1)).2.tvSec - (clock i).2.tvSec ≤ 2 := by
  obtain ⟨k, rfl⟩ := Nat.dvd_of_mod_eq_zero hi
  exact h k

theorem still_prompt : Prompt still :=
  fun k => ⟨(still_ok 0 (2 * k)).1, still_ok (2 * k) (2 * k + 1)⟩

section Line

variable {clock : Nat → Int × Time} {starve : Starve} {op messageNum : U8} {hasBuf : Bool}
  {len : U16} {fuel : Nat}

/-- A header that is there at once. -/
theorem listen_first (hclock : Prompt clock) {hd : Header} {tail : List U8} {i : Nat}
    (hi : i % 2 = 0) {b : Bool} {heard : Heard} {s' : Stream}
    (hbody : Ends (stream clock starve) (listenBody (fuel + 1) hd.bytes op messageNum hasBuf len)
      ⟨tail, i + 2, b⟩ heard s') :
    Ends (stream clock starve) (listen (fuel + 1) op messageNum hasBuf len)
      ⟨hd.bytes ++ tail, i, b⟩ heard s' := by
  obtain ⟨hnow, hthen, hsoon⟩ := hclock.looks hi
  have hfive : [hd.op, hd.messageNum, hd.ack, hd.hi, hd.lo].length = (5 : U16).toNat := rfl
  have hover : (ReadReply.ok _ hfive).over (List.replicate 5 0) = _ := ReadReply.ok_over hfive rfl
  refine .call ?_
  show Ends _ (if (clock i).1 < 0 then _ else _) _ _ _
  rw [if_neg (Int.not_lt.mpr hnow)]
  have hstart : Ends (stream clock starve) (awaitFrameStart (clock i).2 (fuel + 1) 0)
      ⟨hd.bytes ++ tail, i + 1, b⟩ (.ok 0)
      ⟨[hd.op, hd.messageNum, hd.ack, hd.hi, hd.lo] ++ tail, i + 2, b⟩ := by
    refine awaitFrameStart_byte ⟨hthen, hsoon⟩ ?_
    rw [if_neg (not_not_intro rfl)]
    exact .done _ _
  refine hstart.bind ?_
  show Ends _ (if (0 : Int) < 0 then _ else _) _ _ _
  rw [if_neg (by decide)]
  refine read_ends hfive ?_
  rw [ReadReply.ok_ret, if_neg (by decide), hover]
  exact hbody

/-- The line is drained to its end. -/
theorem drain_all (hdry : Dry starve) {l : List U8} {i : Nat} {b : Bool} (hfuel : l.length < fuel) :
    ∃ b', Ends (stream clock starve) (drain fuel) ⟨l, i, b⟩ () ⟨[], i, b'⟩ := by
  induction l generalizing fuel with
  | nil =>
    obtain ⟨fuel, rfl⟩ := Nat.exists_eq_succ_of_ne_zero (Nat.ne_of_gt hfuel)
    obtain ⟨hret, hrest⟩ := hdry 1 ⟨[], i, b⟩
    refine ⟨true, .call ?_⟩
    have hstream : stream clock starve (.transportRead 1) ⟨[], i, b⟩ =
        ((starve 1 ⟨[], i, b⟩).1, ⟨[], i, true⟩) := by
      have hshort : ¬ (1 : U16).toNat ≤ ([] : List U8).length := by decide
      unfold stream
      simp only [dif_neg hshort, List.suffix_nil.mp hrest]
    rw [hstream]
    dsimp only
    rw [if_neg (Int.ne_of_lt hret)]
    exact .done _ _
  | cons x l ih =>
    obtain ⟨fuel, rfl⟩ := Nat.exists_eq_succ_of_ne_zero (Nat.ne_of_gt (Nat.zero_lt_of_lt hfuel))
    obtain ⟨b', hends⟩ := @ih fuel (Nat.lt_of_succ_lt_succ hfuel)
    exact ⟨b', read_ends (l := [x]) rfl hends⟩

/-- The header of an answer. -/
def Served.header (a : Served) (op messageNum : U8) : Header :=
  Header.forLength op messageNum a.ack a.payload.length

theorem Served.frame_eq (a : Served) (op messageNum : U8) :
    respFrame op messageNum a.ack a.payload = (a.header op messageNum).bytes ++
      (a.payload ++ be16 (computeChecksum (a.header op messageNum).bytes a.payload)) := rfl

theorem Served.header_len (a : Served) : (a.header op messageNum).len = a.payload.length :=
  Header.forLength_len a.small

/-- `recv_packet` reads the payload of every answer that fits. -/
theorem Served.takes (a : Served) (c : Command) (hc : c.Valid)
    (hfit : a.payload.length ≤ c.outLen.toNat) :
    (a.header op messageNum).takes op messageNum c.bufOut.isSome = a.payload.length := by
  by_cases hack : a.ack = 0
  · have hanswers : (a.header op messageNum).Answers op messageNum := ⟨rfl, rfl, hack⟩
    have hzero := Header.error_eq_zero.mpr hanswers
    unfold Header.takes
    by_cases hbuf : c.bufOut.isSome = true
    · rw [if_pos ⟨hzero, hbuf⟩, a.header_len]
    · -- Without a buffer the length is zero, so that only an empty payload fits.
      have hnone := Option.not_isSome_iff_eq_none.mp hbuf
      have hroom := badBuffer_fits hc.2 c.outFits
      rw [hnone] at hroom
      have hroom : c.outLen.toNat ≤ 0 := hroom
      rw [if_neg fun h => hbuf h.2]
      omega
  · rw [Header.takes_nack hack, a.refusal hack]
    rfl

/-- What is concluded from an answer that fits. -/
theorem Served.conclude_eq (a : Served) (c : Command) (hfit : a.payload.length ≤ c.outLen.toNat)
    (hbuf : c.bufOut = none → a.payload = []) (checksumBuff : List U8) {hi lo : U8}
    (hsum : fromBe16 hi lo = computeChecksum (a.header op messageNum).bytes a.payload) :
    conclude checksumBuff op messageNum c.bufOut
      (.frame (a.header op messageNum).bytes a.payload [hi, lo]) = a.result c := by
  have htake : ((withPayload c.bufOut a.payload).getD []).take (a.header op messageNum).len =
      a.payload := by
    rw [a.header_len]
    cases h : c.bufOut with
    | none =>
      rw [hbuf h]
      rfl
    | some bytes => exact List.take_left
  rw [conclude_frame, concludeFrame_whole, htake, if_neg (not_not_intro hsum)]
  unfold Served.result
  rw [if_neg (Nat.not_lt.mpr hfit)]
  by_cases hack : a.ack = 0
  · have hanswers : (a.header op messageNum).Answers op messageNum := ⟨rfl, rfl, hack⟩
    rw [if_pos (Header.error_eq_zero.mpr hanswers), if_pos hack, a.header_len]
  · rw [if_neg fun h => hack (Header.error_eq_zero.mp h).2.2, if_neg hack, Header.error_nack hack,
      a.refusal hack, withPayload_nil]
    rfl

/-- An answer is received whole, and nothing else. -/
theorem listen_served (hclock : Prompt clock) (hdry : Dry starve) (hfuel : 65540 ≤ fuel)
    (a : Served) (c : Command) (hc : c.Valid) (checksumBuff : List U8) {i : Nat}
    (hlooks : i % 2 = 0) (b : Bool) :
    ∃ heard b', Ends (stream clock starve) (listen fuel op messageNum c.bufOut.isSome c.outLen)
        ⟨respFrame op messageNum a.ack a.payload, i, b⟩ heard ⟨[], i + 2, b'⟩ ∧
      conclude checksumBuff op messageNum c.bufOut heard = a.result c := by
  obtain ⟨fuel, rfl⟩ := Nat.exists_eq_succ_of_ne_zero (Nat.ne_of_gt (Nat.zero_lt_of_lt hfuel))
  rw [a.frame_eq]
  by_cases hfit : a.payload.length ≤ c.outLen.toNat
  · have hlen : (a.header op messageNum).len ≤ c.outLen.toNat := by
      rw [a.header_len]
      exact hfit
    have htakes := @Served.takes op messageNum a c hc hfit
    have hnone : c.bufOut = none → a.payload = [] := by
      intro h
      have hroom := badBuffer_fits hc.2 c.outFits
      rw [h] at hroom
      exact List.eq_nil_of_length_eq_zero (Nat.le_zero.mp (Nat.le_trans hfit hroom))
    obtain ⟨hi, lo, hbe⟩ :
        ∃ hi lo, be16 (computeChecksum (a.header op messageNum).bytes a.payload) = [hi, lo] :=
      ⟨_, _, rfl⟩
    have hsum : fromBe16 hi lo = computeChecksum (a.header op messageNum).bytes a.payload := by
      have hback := fromBe16_be16 (computeChecksum (a.header op messageNum).bytes a.payload)
      injection hbe with h₁ h₂
      injection h₂ with h₂
      rw [h₁, h₂] at hback
      exact hback
    rw [hbe]
    refine ⟨_, b, listen_first hclock hlooks ?_, a.conclude_eq c hfit hnone checksumBuff hsum⟩
    rcases @listenBody_fits op messageNum c.bufOut.isSome c.outLen (fuel + 1) _ hlen with
      ⟨hzero, heq⟩ | ⟨hread, heq⟩
    · rw [heq]
      have hnil : a.payload = [] := List.eq_nil_of_length_eq_zero (htakes.symm.trans hzero)
      rw [hnil]
      exact @read_ends clock starve Heard 2 _ [hi, lo] [] _ _ _ _ rfl (.done _ _)
    · rw [heq]
      exact read_ends (htakes.symm.trans hread)
        (@read_ends clock starve Heard 2 _ [hi, lo] [] _ _ _ _ rfl (.done _ _))
  · have hlong : c.outLen < fromBe16 ((a.header op messageNum).bytes.getD 4 0)
        ((a.header op messageNum).bytes.getD 5 0) := by
      show c.outLen.toNat < (a.header op messageNum).len
      rw [a.header_len]
      omega
    have hsmall := a.small
    obtain ⟨b', hdrain⟩ := @drain_all clock starve (fuel + 1) hdry
      (a.payload ++ be16 (computeChecksum (a.header op messageNum).bytes a.payload)) (i + 2) b
      (by
        rw [List.length_append]
        show _ + 2 < _
        omega)
    refine ⟨.refused errorBufferTooSmall, b', listen_first hclock hlooks ?_, ?_⟩
    · unfold listenBody
      dsimp only
      rw [if_pos hlong]
      exact hdrain.bind (.done _ _)
    · unfold Served.result
      rw [if_pos (Nat.lt_of_not_le hfit)]
      rfl

end Line

/-! ## Calls of the server -/

section Remote

variable {μ α : Type} {srv : Server μ} {clock : Nat → Int × Time} {starve : Starve}

/-- What only listens, listens to the line. -/
theorem Ends.over {p : IfcM α} (hp : p.Only Listens) {l : Link μ} {a : α} {line : Stream}
    (h : Ends (stream clock starve) p l.line a line) :
    Ends (remote srv clock starve) p l a { l with line := line } := by
  induction p generalizing l with
  | done b =>
    obtain ⟨rfl, rfl⟩ := ends_done.mp h
    exact .done a l
  | call e k ih =>
    refine .call ?_
    cases e with
    | transportWrite buf => exact hp.1.elim
    | transportRead len =>
      exact ih _ (hp.2 _)
        (l := { l with line := (stream clock starve (.transportRead len) l.line).2 }) (ends_call.mp h)
    | gettime =>
      exact ih _ (hp.2 _) (l := { l with line := (stream clock starve .gettime l.line).2 })
        (ends_call.mp h)
  | fault =>
    obtain ⟨tr, htr⟩ := h
    cases htr

theorem listen_listens {fuel : Nat} {op messageNum : U8} {buf : Option (List U8)} {len : U16} :
    (listen fuel op messageNum buf.isSome len).Only Listens := by
  have h := recvPacket_only fuel [] op messageNum buf len
  rw [recvPacket_eq] at h
  exact h.of_bind_left

/-- The module gets the frame of the command. -/
theorem sendPacket_remote {c : Command} {messageNum : U8} {l : Link μ} :
    Ends (remote srv clock starve) (sendPacket c.op messageNum c.bufIn c.inLen) l ()
      ((commandFrame c messageNum).foldl (Link.hear srv) l) := by
  unfold sendPacket commandFrame
  dsimp only
  rw [List.foldl_append, List.foldl_append]
  refine .call ?_
  cases h : c.bufIn with
  | none =>
    rw [Option.getD_none, List.take_nil]
    exact .call (.done _ _)
  | some buf => exact .call (.call (.done _ _))

/-- A `hal_read_write`, with what its stack holds. -/
structure HalCall where
  command : Command
  checksumBuff : List U8

abbrev HalReply : HalCall → Type := fun _ => Int × Option (List U8)

/-- A module that is called and not written to: its state, the number of the next message, and the
commands it has served. -/
structure Desk (μ : Type) where
  state : μ
  messageNum : U32
  served : List Heeded

instance (c : Command) : Decidable c.Valid :=
  inferInstanceAs (Decidable (_ ∧ _))

/-- The server is called, unless the arguments are invalid. -/
def desk (srv : Server μ) : (e : HalCall) → Desk μ → HalReply e × Desk μ
  | ⟨c, _⟩, d =>
    if c.Valid then
      ((srv d.state c.op c.payload).1.result c,
        ⟨(srv d.state c.op c.payload).2, d.messageNum + 1,
          d.served ++ [⟨c.op, d.messageNum.setWidth 8, c.payload⟩]⟩)
    else ((errorIncorrectParameter, c.bufOut), d)

/-- Nothing is on the line, and no exchange is under way; the module at the end of it is in the
state of the other, and the next message has its number. -/
structure Settled (d : Desk μ) (messageNum : U32) (l : Link μ) : Prop where
  rest : l.line.rest = []
  looks : l.line.looks % 2 = 0
  frame : l.frame = []
  state : l.state = d.state
  served : l.served = d.served
  messageNum : messageNum = d.messageNum

/-- The line and the number tell what the other module is like. -/
theorem Settled.unique {d d' : Desk μ} {messageNum : U32} {l : Link μ} (h : Settled d messageNum l)
    (h' : Settled d' messageNum l) : d = d' := by
  obtain ⟨state, num, served⟩ := d
  obtain ⟨state', num', served'⟩ := d'
  obtain rfl : state = state' := h.state.symm.trans h'.state
  obtain rfl : num = num' := h.messageNum.symm.trans h'.messageNum
  obtain rfl : served = served' := h.served.symm.trans h'.served
  rfl

theorem badBuffer_of_invalid {c : Command} (hc : ¬ c.Valid) :
    badBuffer c.bufIn c.inLen = true ∨ badBuffer c.bufOut c.outLen = true := by
  unfold Command.Valid at hc
  by_cases hin : badBuffer c.bufIn c.inLen = true
  · exact .inl hin
  · rw [Bool.not_eq_true] at hin
    refine .inr ?_
    by_contra hout
    rw [Bool.not_eq_true] at hout
    exact hc ⟨hin, hout⟩

/-- **A `hal_read_write` is a call of the server.** -/
theorem halReadWrite_settles (hclock : Prompt clock) (hdry : Dry starve) {fuel : Nat}
    (hfuel : 65540 ≤ fuel) :
    Carries (desk srv) (remote srv clock starve) Settled fun e messageNum =>
      halReadWrite fuel e.checksumBuff messageNum e.command := by
  intro e d messageNum l hl
  obtain ⟨c, checksumBuff⟩ := e
  obtain rfl := hl.messageNum
  unfold desk
  dsimp only
  by_cases hc : c.Valid
  · rw [if_pos hc]
    -- The module serves the command; what it answers is the only thing on the line.
    generalize hcmd : (⟨c.op, d.messageNum.setWidth 8, c.payload⟩ : Heeded) = cmd
    have hsend : Ends (remote srv clock starve)
        (sendPacket c.op (d.messageNum.setWidth 8) c.bufIn c.inLen) l () (l.serve srv cmd) := by
      rw [← hcmd, ← hear_command hc hl.frame]
      exact sendPacket_remote
    have hline : (l.serve srv cmd).line = ⟨respFrame c.op (d.messageNum.setWidth 8)
        (srv d.state c.op c.payload).1.ack (srv d.state c.op c.payload).1.payload, l.line.looks,
        l.line.starved⟩ := by
      unfold Link.serve
      rw [← hcmd, hl.rest, hl.state]
      rfl
    obtain ⟨heard, starved, hlisten, hresult⟩ := @listen_served clock starve c.op
      (d.messageNum.setWidth 8) fuel hclock hdry hfuel (srv d.state c.op c.payload).1 c hc
      checksumBuff _ hl.looks l.line.starved
    have hover : Ends (remote srv clock starve)
        (listen fuel c.op (d.messageNum.setWidth 8) c.bufOut.isSome c.outLen) (l.serve srv cmd) heard
        { l.serve srv cmd with line := ⟨[], l.line.looks + 2, starved⟩ } := by
      refine Ends.over listen_listens ?_
      rw [hline]
      exact hlisten
    have hlooks : (l.line.looks + 2) % 2 = 0 := (Nat.add_mod_right _ _).trans hl.looks
    refine ⟨d.messageNum + 1, { l.serve srv cmd with line := ⟨[], l.line.looks + 2, starved⟩ }, ?_,
      rfl, hlooks, rfl, ?_, ?_, rfl⟩
    · unfold halReadWrite
      rw [hc.1, hc.2, if_neg Bool.false_ne_true, if_neg Bool.false_ne_true]
      exact hsend.bind ((recvPacket_ends_iff.mpr ⟨heard, hover, hresult.symm⟩).bind (.done _ _))
    · show (srv l.state cmd.op cmd.payload).2 = _
      rw [← hcmd, hl.state]
    · exact congrArg (· ++ [cmd]) hl.served
  · rw [if_neg hc, halReadWrite_refused (badBuffer_of_invalid hc)]
    exact ⟨d.messageNum, l, .done _ _, hl⟩

/-- A program of `hal_read_write`s on the line, with the global `message_num`. -/
def onLine (fuel : Nat) (p : Prog HalReply α) (messageNum : U32) : IfcM (α × U32) :=
  interpWith (fun e messageNum => halReadWrite fuel e.checksumBuff messageNum e.command) p messageNum

/-- **The line is transparent.** Whatever a program makes of what its `hal_read_write`s return, it
ends on the line as it does with direct calls of the server, which has then served the same
commands; their message numbers are consecutive, and nothing is left on the line. -/
theorem onLine_ends_iff (hclock : Prompt clock) (hdry : Dry starve) {fuel : Nat}
    (hfuel : 65540 ≤ fuel) {p : Prog HalReply α} {d d' : Desk μ} {messageNum : U32} {l : Link μ}
    (hl : Settled d messageNum l) {a : α} :
    (∃ messageNum' l', Ends (remote srv clock starve) (onLine fuel p messageNum) l (a, messageNum')
        l' ∧ Settled d' messageNum' l') ↔ Ends (desk srv) p d a d' := by
  have hcarries := @halReadWrite_settles μ srv clock starve hclock hdry fuel hfuel
  constructor
  · intro h
    obtain ⟨messageNum', l', hends, hl'⟩ := h
    obtain ⟨d₁, hdirect, hl₁⟩ := hcarries.ends_above hl hends
    obtain rfl : d₁ = d' := hl₁.unique hl'
    exact hdirect
  · intro h
    exact hcarries.ends hl h

end Remote

/-! ## Functions that call the server -/

/-- With the line `l`, the program ends with `r`; then `I` relates `s'` to the number of the next
message and the line. -/
def Leaves {σ L ρ : Type} (h : (e : Call) → L → Reply e × L) (I : σ → U32 → L → Prop)
    (p : IfcM (ρ × U32)) (l : L) (r : ρ) (s' : σ) : Prop :=
  ∃ messageNum' l', Ends h p l (r, messageNum') l' ∧ I s' messageNum' l'

section Leaves

variable {σ σ' L ρ ρ' : Type} {h : (e : Call) → L → Reply e × L} {I : σ → U32 → L → Prop} {l : L}
  {messageNum : U32} {s s' s'' : σ} {r : ρ} {r' : ρ'}

theorem Leaves.done (hI : I s messageNum l) : Leaves h I (.done (r, messageNum)) l r s :=
  ⟨messageNum, l, .done _ _, hI⟩

/-- What is done next begins with what the first part leaves. -/
theorem Leaves.bind {p : IfcM (ρ × U32)} {f : ρ × U32 → IfcM (ρ' × U32)} (hp : Leaves h I p l r s')
    (hf : ∀ messageNum' l', I s' messageNum' l' → Leaves h I (f (r, messageNum')) l' r' s'') :
    Leaves h I (p >>= f) l r' s'' := by
  obtain ⟨messageNum₁, l₁, h₁, hl₁⟩ := hp
  obtain ⟨messageNum', l', h', hl'⟩ := hf messageNum₁ l₁ hl₁
  exact ⟨messageNum', l', h₁.bind h', hl'⟩

theorem Leaves.of_eq {p : IfcM (ρ × U32)} {t : ρ} (hp : Leaves h I p l r s') (heq : r = t) :
    Leaves h I p l t s' :=
  heq ▸ hp

theorem Leaves.mono {J : σ' → U32 → L → Prop} {t' : σ'} {p : IfcM (ρ × U32)}
    (hp : Leaves h I p l r s') (hI : ∀ messageNum' l', I s' messageNum' l' → J t' messageNum' l') :
    Leaves h J p l r t' := by
  obtain ⟨messageNum', l', hends, hl'⟩ := hp
  exact ⟨messageNum', l', hends, hI _ _ hl'⟩

end Leaves

section Functions

variable {μ : Type} {srv : Server μ} {clock : Nat → Int × Time} {starve : Starve} {fuel : Nat}
  {m m' : μ} {messageNum : U32} {l : Link μ} {checksumBuff : List U8}

/-- The module is in this state, and nothing is on the line. -/
def Rests (m : μ) (messageNum : U32) (l : Link μ) : Prop :=
  ∃ served, Settled ⟨m, messageNum, served⟩ messageNum l

variable (hclock : Prompt clock) (hdry : Dry starve) (hfuel : 65540 ≤ fuel)
include hclock hdry hfuel

theorem exchange_leaves (h : Rests m messageNum l) {c : Command} (hc : c.Valid) {a : Served}
    (hsrv : srv m c.op c.payload = (a, m')) :
    Leaves (remote srv clock starve) Rests (halReadWrite fuel checksumBuff messageNum c) l
      (a.result c) m' := by
  obtain ⟨served, hl⟩ := h
  obtain ⟨messageNum', l', hends, hl'⟩ := @halReadWrite_settles μ srv clock starve hclock hdry fuel
    hfuel ⟨c, checksumBuff⟩ _ _ _ hl
  unfold desk at hends hl'
  dsimp only at hends hl'
  rw [if_pos hc, hsrv] at hends hl'
  obtain rfl := hl'.messageNum
  exact ⟨_, l', hends, _, hl'⟩

/-- A payload is sent, and accepted. -/
theorem setter_leaves (h : Rests m messageNum l) {op : U8} {len : U16} {payload : Local len.toNat}
    {hpos : len ≠ 0} (hsrv : srv m op payload.bytes = (.done [] empty_small, m')) :
    Leaves (remote srv clock starve) Rests
      (setter fuel checksumBuff messageNum op (.all payload hpos)) l 0 m' := by
  have hsent : (order op (.all payload hpos)).payload = payload.bytes :=
    List.take_of_length_le (Nat.le_of_eq payload.length_eq)
  rw [← hsent] at hsrv
  exact (exchange_leaves hclock hdry hfuel h (order_valid op _) hsrv).bind
    fun messageNum' l' hl' => .done hl'

/-- What is asked for is received. -/
theorem query_leaves (h : Rests m messageNum l) {op : U8} {len : U16} {size : Nat}
    {out : Local size} {hsize : len.toNat ≤ size} (hpos : len ≠ 0) {b : List U8}
    {hsmall : b.length < 65536} (hsrv : srv m op [] = (.done b hsmall, m'))
    (hfit : b.length ≤ len.toNat) :
    Leaves (remote srv clock starve) Rests
      (halReadWrite fuel checksumBuff messageNum (query op .nothing len out hsize)) l
      ((b.length : Int), some (b ++ out.bytes.drop b.length)) m' := by
  have hvalid : (query op .nothing len out hsize).Valid :=
    ⟨rfl, (Bool.or_false _).trans (decide_eq_false hpos)⟩
  have hresult : (Served.done b hsmall).result (query op .nothing len out hsize) =
      ((b.length : Int), some (b ++ out.bytes.drop b.length)) :=
    (if_neg (Nat.not_lt.mpr hfit)).trans (if_pos rfl)
  rw [← hresult]
  exact exchange_leaves hclock hdry hfuel h hvalid hsrv

end Functions

/-! ## A module with one byte -/

theorem one_small (b : U8) : [b].length < 65536 :=
  show 1 < 65536 by decide

/-- It keeps a byte of payload, and answers with what it keeps. -/
def cell : Server U8 := fun kept op payload =>
  if op = 94 then (.done [kept] (one_small kept), kept)
  else if op = 93 ∧ payload.length = 1 then (.done [] empty_small, payload.getD 0 0)
  else (.refused 1, kept)

theorem one_fits : (1 : U16).toNat ≤ 1 := Nat.le_refl 1

/-- Keep 5, then ask what is kept, and keep one more than the answer. -/
def keepOneMore : Prog HalReply Int :=
  .call ⟨order 93 (.all (byteBuff 5) one_byte), [0, 0]⟩ fun _ =>
    .call ⟨query 94 .nothing 1 (byteBuff 0) one_fits, [0, 0]⟩ fun r =>
      .call ⟨order 93 (.all (byteBuff ((r.2.getD []).getD 0 0 + 1)) one_byte), [0, 0]⟩ fun r =>
        .done r.1

theorem onLine_ends_more :
    ∃ messageNum' l', Ends (remote cell still silent) (onLine 65540 keepOneMore 255)
        ⟨⟨[], 0, false⟩, [], [], 9⟩ (0, messageNum') l' ∧
      Settled ⟨6, 258, [⟨93, 255, [5]⟩, ⟨94, 0, []⟩, ⟨93, 1, [6]⟩]⟩ messageNum' l' :=
  (@onLine_ends_iff U8 Int cell still silent still_prompt silent_dry 65540 (Nat.le_refl _) keepOneMore
    ⟨9, 255, []⟩ ⟨6, 258, [⟨93, 255, [5]⟩, ⟨94, 0, []⟩, ⟨93, 1, [6]⟩]⟩ 255 ⟨⟨[], 0, false⟩, [], [], 9⟩
    ⟨rfl, rfl, rfl, rfl, rfl, rfl⟩ 0).mpr ⟨_, rfl⟩

end HostInterface.Ifc
