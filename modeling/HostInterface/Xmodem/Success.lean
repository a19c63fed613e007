import HostInterface.Xmodem.Transfer

/-!
# What a successful transfer has shown

`ll_xmodem_send` ignores what the three parsers of the bootloader's output return, and
reads the answers into a variable that keeps its value when a read fails. Neither lets
a transfer succeed that has not: an answer `ACK` is a byte of the last read
(`getClientResponse_answered`), since the loop does not go on from a byte it would
have stopped at; and the text compared is what was read since the parser's start, in
full (`parseModuleOutput_runs`), since a text that is cut short ends with the zeros it
is stored over.

`success_sound` puts this together: the letter that reboots the module is written only
behind a transfer of which all this holds (`Verified`), and 0 is returned only behind it.
-/

namespace HostInterface.Xmodem

open Interact Prog

/-- Reads that fail leave the buffer as it was. -/
def ReadsClean (tr : List Ev) : Prop :=
  ∀ r : ReadReply, (⟨.transportRead, r⟩ : Ev) ∈ tr → r.ret < 0 → r.stored = none

theorem ReadsClean.left {tr tr' : List Ev} (h : ReadsClean (tr ++ tr')) : ReadsClean tr :=
  fun r hr => h r (List.mem_append_left _ hr)

theorem ReadsClean.right {tr tr' : List Ev} (h : ReadsClean (tr ++ tr')) : ReadsClean tr' :=
  fun r hr => h r (List.mem_append_right _ hr)

/-! ## Answers -/

/-- The last read succeeds, and gives `b`. -/
def Answered (b : U8) (wait : List Ev) : Prop :=
  ∃ front r now, wait = front ++ [⟨.transportRead, r⟩, ⟨.gettime, now⟩] ∧
    0 ≤ r.ret ∧ r.stored = some b

variable {fuel : Nat}

/-- An answer that is not the old one has been read. -/
theorem getClientResponse_answered {old b : U8} {wait : List Ev}
    (h : Runs (getClientResponse fuel old) wait (0, b)) (hnew : old ≠ b)
    (hclean : ReadsClean wait) : Answered b wait := by
  obtain ⟨timeStart, front, prev, last, rfl, hprev, hturn⟩ := getClientResponse_last h
  generalize hout : (Turn.stop ((0 : Int), b) : Turn (Int × U8) U8) = out at hturn
  cases hturn with
  | failed hret =>
    injection hout with hout
    injection hout with hzero hb
    omega
  | timedOut =>
    injection hout with hout
    injection hout with hzero hb
    cases hzero
  | @answered r now hret hresp =>
    injection hout with hout
    injection hout with hzero hb
    have hstored : r.stored = some b := by
      cases hs : r.stored with
      | some c =>
        rw [hs] at hb
        rw [hb]
        rfl
      | none =>
        -- A stale byte is the old one, or one the loop does not stop at.
        rw [hs] at hb hresp
        rcases hprev with rfl | hno
        · exact absurd hb.symm hnew
        · exact absurd hresp (Bool.eq_false_iff.mp hno)
    refine ⟨front, r, now, rfl, Int.not_lt.mp fun hneg => ?_, hstored⟩
    rw [hclean.right r (by simp) hneg] at hstored
    cases hstored
  | ignored => cases hout

/-- A buffer is written and answered with `ACK`; what follows reads nothing. -/
def AckedWrite (buf : List U8) (evs : List Ev) : Prop :=
  ∃ w wait rest, evs = ⟨.transportWrite buf, w⟩ :: (wait ++ rest) ∧ (0 : Int) ≤ w ∧
    Answered ack wait ∧ ∀ ev ∈ rest, ev.1 ≠ .transportRead

/-- An acknowledged round is one. -/
theorem Round.Valid.ackedWrite {char : PlainChar} {payload : Ptr} {payloadLen : SizeT} {r : Round}
    (h : r.Valid char fuel payload payloadLen) (hack : r.acked = true)
    (hclean : ReadsClean r.events) : AckedWrite r.packet r.events := by
  obtain ⟨w, wait, report, hw, hwait, hevs, hreport⟩ := h.exchange
  rw [if_pos hack] at hreport
  obtain ⟨x, rfl⟩ := hreport
  have hanswer : r.answer = ack := of_decide_eq_true hack
  rw [hanswer] at hwait
  rw [hevs, ← List.singleton_append] at hclean
  refine ⟨w, wait, _, hevs, hw,
    getClientResponse_answered hwait (by decide) hclean.right.left, fun ev hev => ?_⟩
  rw [List.mem_singleton.mp hev]
  exact Call.noConfusion

/-- A turn of the loop of `ll_xmodem_send_byte` goes on with another answer than `ACK`, or
stops with an error or with an acknowledged byte. -/
theorem sendByteTurn_runs {byte old : U8} {timeStart : Time} {evs : List Ev} {t : Turn Int U8}
    (h : Runs (sendByteTurn fuel byte timeStart old) evs t) (hold : old ≠ ack)
    (hclean : ReadsClean evs) :
    (∃ ret, t = .stop ret ∧ (ret < 0 ∨ AckedWrite [byte] evs)) ∨
      ∃ response, t = .next response ∧ response ≠ ack := by
  unfold sendByteTurn at h
  rw [runs_call] at h
  obtain ⟨w, evs, rfl, h⟩ := h
  split at h
  next hw =>
    obtain ⟨rfl, rfl⟩ := runs_pure.mp h
    exact Or.inl ⟨w, rfl, Or.inl hw⟩
  next hw =>
    obtain ⟨wait, ⟨ret, response⟩, tail, hwait, htail, rfl⟩ := runs_bind.mp h
    dsimp only at htail
    rcases getClientResponse_runs hwait with hneg | ⟨rfl, -⟩
    · rw [if_pos hneg] at htail
      obtain ⟨rfl, rfl⟩ := runs_pure.mp htail
      exact Or.inl ⟨ret, rfl, Or.inl hneg⟩
    · rw [if_neg (Int.lt_irrefl 0)] at htail
      unfold llDifftimeFromNow at htail
      rw [call_bind, runs_call] at htail
      obtain ⟨now, tail, rfl, htail⟩ := htail
      rw [done_bind] at htail
      split at htail
      next =>
        obtain ⟨rfl, rfl⟩ := runs_pure.mp htail
        exact Or.inl ⟨-2, rfl, Or.inl (by decide)⟩
      next =>
        obtain ⟨rfl, rfl⟩ := runs_pure.mp htail
        split
        next hack =>
          rw [hack] at hwait
          rw [← List.singleton_append] at hclean
          refine Or.inl ⟨_, rfl, Or.inr ⟨w, wait, _, rfl, Int.not_lt.mp hw,
            getClientResponse_answered hwait hold hclean.right.left, fun ev hev => ?_⟩⟩
          rw [List.mem_singleton.mp hev]
          exact Call.noConfusion
        next hack => exact Or.inr ⟨response, rfl, hack⟩

/-- `ll_xmodem_send_byte` returns no error only when the byte, sent as often as it takes, is
acknowledged. -/
theorem sendByte_runs {byte : U8} {evs : List Ev} {ret : Int}
    (h : Runs (sendByte fuel byte) evs ret) (hret : 0 ≤ ret) (hclean : ReadsClean evs) :
    ∃ front last, evs = front ++ last ∧ AckedWrite [byte] last := by
  unfold sendByte at h
  rw [runs_call] at h
  obtain ⟨timeStart, evs, rfl, h⟩ := h
  rw [← List.singleton_append] at hclean
  -- The turns see clean reads, as parts of the whole.
  obtain ⟨old, mid, last, hold, rfl, hlast⟩ :=
    runs_iterate (I := fun old pre => ReadsClean pre → old ≠ ack) h
      (fun _ => by decide) fun old pre evs next hI hturn hpre => by
        rcases sendByteTurn_runs hturn (hI hpre.left) hpre.right with ⟨ret, hno, -⟩ |
          ⟨response, hnext, hne⟩
        · cases hno
        · obtain rfl := Turn.next.inj hnext
          exact hne
  rcases sendByteTurn_runs hlast (hold hclean.right.left) hclean.right.right with
    ⟨ret', hstop, hneg | hack⟩ | ⟨response, hno, -⟩
  · obtain rfl := Turn.stop.inj hstop
    exact absurd hneg (Int.not_lt.mpr hret)
  · exact ⟨⟨.gettime, timeStart⟩ :: mid, last, rfl, hack⟩
  · cases hno

/-! ## The output of the bootloader -/

/-- The bytes read with success, in order. -/
def received (tr : List Ev) : List U8 :=
  tr.flatMap fun
    | ⟨.transportRead, r⟩ => if 0 ≤ r.ret then r.stored.toList else []
    | _ => []

/-- The same without the filler. -/
def shown (tr : List Ev) : List U8 :=
  (received tr).filter fun b => !isFiller b

theorem shown_append (tr tr' : List Ev) : shown (tr ++ tr') = shown tr ++ shown tr' := by
  unfold shown received
  rw [List.flatMap_append, List.filter_append]

/-- What a read adds to the text. -/
theorem shown_read (r : ReadReply) (now : Time) :
    shown [⟨.transportRead, r⟩, ⟨.gettime, now⟩] = r.kept := by
  unfold shown received ReadReply.kept
  simp only [List.flatMap_cons, List.flatMap_nil, List.append_nil]
  split
  next => rfl
  next => rfl

/-- Where nothing is read, nothing is shown. -/
theorem shown_of_no_read {tr : List Ev} (h : ∀ ev ∈ tr, ev.1 ≠ .transportRead) :
    shown tr = [] := by
  have hnone : received tr = [] := by
    refine List.flatMap_eq_nil_iff.mpr fun ev hev => ?_
    obtain ⟨e, r⟩ := ev
    cases e <;> first | rfl | exact absurd rfl (h _ hev)
  unfold shown
  rw [hnone]
  rfl

/-- A turn of the parser adds what its read shows, and goes on while there is room. -/
theorem parseTurn_runs {len : U8} {timeStart : Time} {data : List U8} {evs : List Ev}
    {t : Turn (Int × List U8) (List U8)} (h : Runs (parseTurn len timeStart data) evs t) :
    t = .next (data ++ shown evs) ∨ ∃ ret, t = .stop (ret, data ++ shown evs) := by
  unfold parseTurn at h
  rw [runs_call] at h
  obtain ⟨r, evs, rfl, h⟩ := h
  unfold llDifftimeFromNow at h
  rw [call_bind, runs_call] at h
  obtain ⟨now, evs, rfl, h⟩ := h
  rw [done_bind] at h
  split at h
  next =>
    obtain ⟨rfl, rfl⟩ := runs_pure.mp h
    rw [shown_read]
    exact Or.inr ⟨-2, rfl⟩
  next =>
    obtain ⟨rfl, rfl⟩ := runs_pure.mp h
    rw [shown_read]
    split
    next => exact Or.inl rfl
    next => exact Or.inr ⟨0, rfl⟩

/-- A parser stores the text that is read while it runs, whatever it returns. -/
theorem parseModuleOutput_runs {len : U8} {evs : List Ev} {ret : Int} {data : List U8}
    (h : Runs (parseModuleOutput fuel len) evs (ret, data)) : data = shown evs := by
  unfold parseModuleOutput at h
  rw [runs_call] at h
  obtain ⟨timeStart, evs, rfl, h⟩ := h
  obtain ⟨data', mid, last, hdata, rfl, hlast⟩ :=
    runs_iterate (I := fun data pre => data = shown pre) h rfl
      fun data pre evs next hI hturn => by
        rcases parseTurn_runs hturn with hnext | ⟨ret, hno⟩
        · rw [Turn.next.inj hnext, hI, shown_append]
        · cases hno
  rw [← List.singleton_append, shown_append, shown_append]
  rcases parseTurn_runs hlast with hno | ⟨ret', hstop⟩
  · cases hno
  · injection hstop with hstop
    injection hstop with _ hstop
    rw [hstop, hdata]
    rfl

/-- A text that is shown has no zeros, so the string in the array is the text. -/
theorem cString_shown (size : Nat) (tr : List Ev) :
    cString (charArray size (shown tr)) = shown tr := by
  have hnz : ∀ b ∈ shown tr, b ≠ 0 := by
    intro b hb hzero
    have := (List.mem_filter.mp hb).2
    rw [hzero] at this
    exact absurd this (by decide)
  unfold cString charArray
  rw [List.takeWhile_append_of_pos fun b hb => decide_eq_true (hnz b hb), List.takeWhile_replicate]
  simp

/-! ## The reboot -/

/-- The whole text of a bootloader that is content. -/
def contentText : List U8 :=
  ascii "Firmware downloaded" ++ ascii "Verifying...OK" ++ ascii "Activating...DONE"

/-- A program that neither reboots nor succeeds, and one that has shown the whole text and
writes the letter last. -/
def RebootsLast (P : List Ev → Prop) (tr : List Ev) (out : Option Int) : Prop :=
  [reboot] ∉ written tr ∧ out ≠ some 0 ∨
    ∃ front w, tr = front ++ [⟨.transportWrite [reboot], w⟩] ∧ [reboot] ∉ written front ∧ P front

theorem verifyModule_traces {tr : List Ev} {out : Option Int}
    (h : Traces (verifyModule fuel) tr out) :
    RebootsLast (fun front => shown front = contentText) tr out := by
  have hquiet : ∀ {len : U8} {evs : List Ev} {res : Option (Int × List U8)},
      Traces (parseModuleOutput fuel len) evs res → written evs = [] := fun hp =>
    written_of_waits ((parseModuleOutput_only _).traces hp)
  unfold verifyModule at h
  rcases traces_bind.mp h with ⟨hp, rfl⟩ | ⟨evs₁, ⟨ret₁, text₁⟩, tr, hp₁, hrest₁, rfl⟩
  · exact Or.inl ⟨by rw [hquiet hp.traces]; exact nofun, nofun⟩
  have hw₁ := hquiet hp₁.traces
  have ht₁ := parseModuleOutput_runs hp₁
  rcases traces_bind.mp hrest₁ with ⟨hp, rfl⟩ | ⟨evs₂, ⟨ret₂, text₂⟩, tr, hp₂, hrest₂, rfl⟩
  · exact Or.inl ⟨by rw [written_append, hw₁, hquiet hp.traces]; exact nofun, nofun⟩
  have hw₂ := hquiet hp₂.traces
  have ht₂ := parseModuleOutput_runs hp₂
  rcases traces_bind.mp hrest₂ with ⟨hp, rfl⟩ | ⟨evs₃, ⟨ret₃, text₃⟩, tr, hp₃, hrest₃, rfl⟩
  · exact Or.inl ⟨by
      rw [written_append, written_append, hw₁, hw₂, hquiet hp.traces]; exact nofun, nofun⟩
  have hw₃ := hquiet hp₃.traces
  have ht₃ := parseModuleOutput_runs hp₃
  have hw : written (evs₁ ++ (evs₂ ++ evs₃)) = [] := by
    rw [written_append, written_append, hw₁, hw₂, hw₃]
    rfl
  -- A text that is not the one expected ends it.
  have hfails : ∀ err : Int, err ≠ 0 → ∀ tr, tr = [] ∧ out = some err →
      RebootsLast (fun front => shown front = contentText) (evs₁ ++ (evs₂ ++ (evs₃ ++ tr)))
        out := by
    rintro err herr tr ⟨rfl, rfl⟩
    refine Or.inl ⟨?_, fun hzero => herr (Option.some.inj hzero)⟩
    rw [List.append_nil, hw]
    exact nofun
  dsimp only at hrest₃
  rw [ht₁, ht₂, ht₃, cString_shown, cString_shown, cString_shown] at hrest₃
  split at hrest₃
  next => exact hfails (-6) (by decide) tr (traces_pure.mp hrest₃)
  next h₁ =>
    split at hrest₃
    next => exact hfails (-7) (by decide) tr (traces_pure.mp hrest₃)
    next h₂ =>
      split at hrest₃
      next => exact hfails (-8) (by decide) tr (traces_pure.mp hrest₃)
      next h₃ =>
        unfold perform at hrest₃
        rw [call_bind] at hrest₃
        rcases traces_call.mp hrest₃ with ⟨rfl, rfl⟩ | ⟨w, tr, rfl, hdone⟩
        · refine Or.inl ⟨?_, nofun⟩
          rw [List.append_nil, hw]
          exact nofun
        · rw [done_bind] at hdone
          obtain ⟨rfl, -⟩ := traces_pure.mp hdone
          refine Or.inr ⟨evs₁ ++ (evs₂ ++ evs₃), w, by simp, by rw [hw]; exact nofun, ?_⟩
          show shown _ = contentText
          rw [shown_append, shown_append, Decidable.not_not.mp h₁, Decidable.not_not.mp h₂,
            Decidable.not_not.mp h₃, ← List.append_assoc]
          rfl

/-- Something in front that does not reboot. -/
theorem RebootsLast.append {P : List Ev → Prop} {pre tr : List Ev} {out : Option Int}
    (hpre : [reboot] ∉ written pre) (h : RebootsLast P tr out) :
    RebootsLast (fun front => ∃ back, front = pre ++ back ∧ P back) (pre ++ tr) out := by
  rcases h with ⟨hno, hout⟩ | ⟨front, w, rfl, hno, hP⟩
  · refine Or.inl ⟨?_, hout⟩
    rw [written_append]
    exact fun hmem => (List.mem_append.mp hmem).elim hpre hno
  · refine Or.inr ⟨pre ++ front, w, by rw [List.append_assoc], ?_, front, rfl, hP⟩
    rw [written_append]
    exact fun hmem => (List.mem_append.mp hmem).elim hpre hno

/-- What it says of a trace with the letter in it, and of one that ends with 0. -/
theorem RebootsLast.sound {P : List Ev → Prop} {tr : List Ev} {out : Option Int}
    (h : RebootsLast P tr out) :
    (out = some 0 → ∃ front w, tr = front ++ [⟨.transportWrite [reboot], w⟩] ∧ P front) ∧
      ∀ front w rest, tr = front ++ ⟨.transportWrite [reboot], w⟩ :: rest → P front := by
  have hwrites : ∀ (front rest : List Ev) (w : Int),
      [reboot] ∈ written (front ++ ⟨.transportWrite [reboot], w⟩ :: rest) := fun front rest w =>
    List.mem_filterMap.mpr ⟨⟨.transportWrite [reboot], w⟩, by simp, rfl⟩
  rcases h with ⟨hno, hout⟩ | ⟨front, w, rfl, hno, hP⟩
  · refine ⟨fun hzero => absurd hzero hout, ?_⟩
    rintro front w rest rfl
    exact absurd (hwrites front rest w) hno
  · refine ⟨fun _ => ⟨front, w, rfl, hP⟩, fun front' w' rest heq => ?_⟩
    -- There is no letter in front of the last one.
    rcases List.append_eq_append_iff.mp heq with ⟨mid, rfl, hmid⟩ | ⟨mid, rfl, hmid⟩
    · cases mid with
      | nil => rwa [List.append_nil]
      | cons e mid =>
        rw [List.cons_append] at hmid
        injection hmid with _ hnil
        cases mid <;> cases hnil
    · cases mid with
      | nil => rwa [List.append_nil] at hP
      | cons e mid =>
        rw [List.cons_append] at hmid
        injection hmid with he _
        rw [← he] at hno
        exact absurd (hwrites front' mid w') hno

theorem reboot_not_mem {packet : List U8} {tr : List Ev} (h : ∀ ev ∈ tr, Sends packet ev.1)
    (hne : packet ≠ [reboot]) : [reboot] ∉ written tr :=
  fun hmem => hne (written_of_sends h [reboot] hmem).symm

/-- From the end of transmission on: what is shown in front of the letter is read behind
the `ACK`. -/
theorem finishTransfer_traces {payloadLen : SizeT} {offset : U32} {tr : List Ev}
    {out : Option Int} (h : Traces (finishTransfer fuel payloadLen offset) tr out)
    (hclean : ReadsClean tr) :
    RebootsLast (fun front => ∃ tries last tail, front = tries ++ last ++ tail ∧
      AckedWrite [eot] last ∧ shown tail = contentText) tr out := by
  unfold finishTransfer at h
  rcases traces_bind.mp h with ⟨hcut, rfl⟩ | ⟨evs, ret, tr, hbyte, hrest, rfl⟩
  · exact Or.inl ⟨reboot_not_mem ((sendByte_only eot).cut hcut) (by decide), nofun⟩
  have hevs := reboot_not_mem ((sendByte_only eot).runs hbyte) (by decide)
  split at hrest
  next hneg =>
    obtain ⟨rfl, rfl⟩ := traces_pure.mp hrest
    refine Or.inl ⟨by rw [List.append_nil]; exact hevs, fun hzero => ?_⟩
    rw [Option.some.inj hzero] at hneg
    exact absurd hneg (by decide)
  next hpos =>
    obtain ⟨tries, last, rfl, hack⟩ := sendByte_runs hbyte (Int.not_lt.mp hpos) hclean.left
    -- While the client is kept informed, nothing is written or read.
    have hquiet : ∀ {upd : List Ev} {res : Option Unit},
        Traces (updateClient payloadLen offset 10) upd res →
          [reboot] ∉ written upd ∧ shown upd = [] := by
      intro upd res hupd
      have hcalls := (updateClient_only offset 10).traces hupd
      constructor
      · intro hmem
        obtain ⟨⟨e, r⟩, hev, heq⟩ := List.mem_filterMap.mp hmem
        rcases hcalls ⟨e, r⟩ hev with rfl | rfl <;> cases heq
      · refine shown_of_no_read fun ev hev hread => ?_
        rcases hcalls ev hev with hcall | hcall
        · rw [hcall] at hread
          cases hread
        · rw [hcall] at hread
          cases hread
    rcases traces_bind.mp hrest with ⟨hupd, rfl⟩ | ⟨upd, _, tr, hupd, hverify, rfl⟩
    · refine Or.inl ⟨?_, nofun⟩
      rw [written_append]
      exact fun hmem => (List.mem_append.mp hmem).elim hevs (hquiet hupd.traces).1
    · obtain ⟨hno, hshown⟩ := hquiet hupd.traces
      have hends := ((verifyModule_traces hverify).append hno).append hevs
      rcases hends with hno | ⟨front, w, htr, hno, back, hback, tail, htail, htext⟩
      · exact Or.inl hno
      · refine Or.inr ⟨front, w, htr, hno, tries, last, back, hback, hack, ?_⟩
        rw [htail, shown_append, hshown, htext]
        rfl

/-- What holds of a transfer in front of the reboot: every packet of the payload has been
answered with `ACK`, so has the end of transmission, and what is read after that is the
whole text, but for the filler. -/
def Verified (char : PlainChar) (fuel : Nat) (payload : Ptr) (payloadLen : SizeT)
    (front : List Ev) : Prop :=
  ∃ (start : List Ev) (rounds : List Round) (tries last tail : List Ev),
    front = start ++ rounds.flatMap Round.events ++ tries ++ last ++ tail ∧
    (∀ r ∈ rounds, r.Valid char fuel payload payloadLen) ∧
    (∀ r ∈ rounds, r.acked = true → AckedWrite r.packet r.events) ∧
    (rounds.filter Round.acked).map Round.packet =
      (List.range (numPackets payloadLen.toNat)).map
        (dataPacket char payload payloadLen.toNat) ∧
    AckedWrite [eot] last ∧ shown tail = contentText

/-- **Success is sound.** Whatever the module sends and whichever reads, writes and looks at
the clock fail, `ll_xmodem_send` returns 0 only when it has verified the transfer and
rebooted the module, and attempts the reboot only then. -/
theorem success_sound {char : PlainChar} {payload : Ptr} {payloadLen : SizeT} {cb : Callbacks}
    (hpos : 1 ≤ payloadLen.toNat) (hsmall : payloadLen.toNat < 0x100000000) {tr : List Ev}
    {out : Option Int}
    (h : Traces (xmodemSend char fuel cb (some payload) payloadLen) tr out)
    (hclean : ReadsClean tr) :
    (out = some 0 → ∃ front w, tr = front ++ [⟨.transportWrite [reboot], w⟩] ∧
      Verified char fuel payload payloadLen front) ∧
    ∀ front w rest, tr = front ++ ⟨.transportWrite [reboot], w⟩ :: rest →
      Verified char fuel payload payloadLen front := by
  apply RebootsLast.sound
  obtain ⟨start, mid, hstart, rfl, hmid⟩ := xmodemSend_traces hpos hsmall h
  have hquiet : ∀ rounds, Sent char fuel payload payloadLen rounds →
      [reboot] ∉ written (start ++ rounds.flatMap Round.events) := fun rounds hsent =>
    not_mem_written (by decide) hstart hsent
  rcases hmid with ⟨hneg, rounds, last, hsent, -, hsends, -, rfl⟩ |
    ⟨rounds, fin, hsent, hall, hfin, rfl⟩
  · refine Or.inl ⟨?_, fun hzero => absurd (hneg 0 hzero) (by decide)⟩
    rw [← List.append_assoc, written_append]
    refine fun hmem => (List.mem_append.mp hmem).elim (hquiet rounds hsent) ?_
    refine reboot_not_mem hsends fun heq => ?_
    have hlength := congrArg List.length heq
    rw [length_dataPacket] at hlength
    exact absurd hlength (by decide)
  · rw [← List.append_assoc]
    rw [← List.append_assoc] at hclean
    rcases (finishTransfer_traces hfin hclean.right).append (hquiet rounds hsent) with
      hno | ⟨front, w, htr, hno, back, hback, tries, last, tail, rfl, hack, htext⟩
    · exact Or.inl hno
    · refine Or.inr ⟨front, w, htr, hno, start, rounds, tries, last, tail, ?_, hsent.valid, ?_, ?_,
        hack, htext⟩
      · rw [hback]
        simp only [List.append_assoc]
      · intro r hr hracked
        refine (hsent.valid r hr).ackedWrite hracked fun read hread => ?_
        exact hclean.left.right read (List.mem_flatMap.mpr ⟨r, hr, hread⟩)
      · rw [hsent.inStep.acked_packets, hall]

/-- Reads from the module that is told what to send are clean. -/
theorem replay_clean {p : XmodemM Int} {bytes rest : List U8} {ret : Int} {tr : List Ev}
    (hx : exec replay p bytes = some (tr, ret, rest)) : ReadsClean tr := by
  have hall := exec_forall (P := fun ev => ∀ r : ReadReply, ev = ⟨.transportRead, r⟩ →
    r.ret < 0 → r.stored = none) (fun e bytes r heq hneg => ?_) hx
  · exact fun r hr => hall _ hr r rfl
  · cases e <;> cases heq
    cases bytes with
    | nil => rfl
    | cons b bytes => exact absurd hneg (Int.lt_irrefl 0)

theorem success_sound_tiny :
    ∃ front w, Runs (xmodemSend .signed 60 ⟨true⟩ (some ⟨fun _ => 7, 0⟩) 1)
        (front ++ [⟨.transportWrite [reboot], w⟩]) 0 ∧
      Verified .signed 60 ⟨fun _ => 7, 0⟩ 1 front := by
  obtain ⟨tr, rest, hx⟩ := exec_replay
  obtain ⟨front, w, rfl, hverified⟩ :=
    (success_sound (by decide) (by decide) (exec_runs hx).traces (replay_clean hx)).1 rfl
  exact ⟨front, w, exec_runs hx, hverified⟩

end HostInterface.Xmodem
