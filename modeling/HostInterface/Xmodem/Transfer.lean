import HostInterface.StopAndWait
import HostInterface.Xmodem.Packet

/-!
# The trace of a transfer

Every trace of `ll_xmodem_send`, ended or not, is a wait for the receiver, some rounds of
one packet and one answer each, and what comes after them (`xmodemSend_traces`). `Sent`
is the invariant of the rounds: the sender is a stop-and-wait sender of the packets of
the payload, and its offset and the progress it reports are those of the packets
acknowledged so far. `sender_trace` says what this means for a trace as a whole.

What comes after the rounds is the packet outstanding, once, when the transfer has stopped
or is still going on, and else the end of transmission with all that follows it.
-/

namespace HostInterface.Xmodem

open Interact Prog

/-! ## Rounds -/

/-- A turn of the data loop that leads to the next: the variables before and after it, the
packet it writes and the answer it sees. -/
structure Round where
  before : Transfer
  packet : List U8
  answer : U8
  events : List Ev
  after : Transfer

/-- The packet was acknowledged. -/
def Round.acked (r : Round) : Bool :=
  r.answer = ack

/-- The buffers written, in order. -/
def written (tr : List Ev) : List (List U8) :=
  tr.filterMap fun
    | ⟨.transportWrite buf, _⟩ => some buf
    | _ => none

/-- The numbers of bytes reported to the application, in order. -/
def reported (tr : List Ev) : List Nat :=
  tr.filterMap fun
    | ⟨.progress sent _, _⟩ => some sent.toNat
    | _ => none

section

variable (char : PlainChar) (fuel : Nat) (payload : Ptr) (payloadLen : SizeT)

/-- A round is a turn of the data loop: one write of the packet, the wait for the answer, and
a report of the progress where the answer is `ACK`. -/
structure Round.Valid (r : Round) : Prop where
  turn : Runs (sendTurn char fuel payload payloadLen r.before) r.events (.ok r.after)
  exchange : ∃ w wait report, (0 : Int) ≤ w ∧
    Runs (getClientResponse fuel 0) wait (0, r.answer) ∧
    r.events = ⟨.transportWrite r.packet, w⟩ :: (wait ++ report) ∧
    if r.acked = true then
      ∃ x, report = [⟨.progress r.after.offset (payloadLen.setWidth 32), x⟩]
    else report = []

/-- The packet that is sent from where the variables are. -/
def packetOf (s : Transfer) : List U8 :=
  buildPacket char
    ((Ptr.mk payload.mem (payload.off + s.offset.toNat)).bytes
      ((bytesToSend payloadLen s.offset).setWidth 16).toNat) s.packetNumber

/-- What the rounds of the data loop are, from its start. -/
structure Sent (rounds : List Round) : Prop where
  valid : ∀ r ∈ rounds, r.Valid char fuel payload payloadLen
  inStep : StopAndWait.InStep Round.acked Round.packet
    (dataPacket char payload payloadLen.toNat) rounds
  room : ∀ i r, rounds[i]? = some r →
    (rounds.take i).countP Round.acked < numPackets payloadLen.toNat
  offset : ∀ i r, rounds[i]? = some r →
    r.before.offset.toNat = 128 * (rounds.take i).countP Round.acked ∧
      r.after.offset.toNat =
        min (128 * (rounds.take (i + 1)).countP Round.acked) payloadLen.toNat
  progress : reported (rounds.flatMap Round.events) =
    (List.range (rounds.countP Round.acked)).map fun k => min (128 * (k + 1)) payloadLen.toNat

end

section

variable {char : PlainChar} {fuel : Nat} {payload : Ptr} {payloadLen : SizeT}

theorem sent_nil : Sent char fuel payload payloadLen [] where
  valid := fun _ hr => nomatch hr
  inStep := StopAndWait.inStep_nil
  room := fun _ _ hi => nomatch hi
  offset := fun _ _ hi => nomatch hi
  progress := rfl

theorem written_append (tr tr' : List Ev) : written (tr ++ tr') = written tr ++ written tr' :=
  List.filterMap_append

theorem reported_append (tr tr' : List Ev) : reported (tr ++ tr') = reported tr ++ reported tr' :=
  List.filterMap_append

/-- The calls of a turn behind the write. -/
def Quiet (c : Call) : Prop :=
  Waits c ∨ ∃ sent total, c = .progress sent total

theorem written_of_quiet {tr : List Ev} (h : ∀ ev ∈ tr, Quiet ev.1) : written tr = [] := by
  refine List.filterMap_eq_nil_iff.mpr fun ⟨e, r⟩ hev => ?_
  rcases h ⟨e, r⟩ hev with hw | ⟨sent, total, rfl⟩
  · rcases waits_iff.mp hw with rfl | rfl
    · rfl
    · rfl
  · rfl

/-- While it waits, the sender writes and reports nothing. -/
theorem written_of_waits {tr : List Ev} (h : ∀ ev ∈ tr, Waits ev.1) : written tr = [] :=
  written_of_quiet fun ev hev => Or.inl (h ev hev)

theorem reported_of_waits {tr : List Ev} (h : ∀ ev ∈ tr, Waits ev.1) : reported tr = [] := by
  refine List.filterMap_eq_nil_iff.mpr fun ⟨e, r⟩ hev => ?_
  rcases waits_iff.mp (h ⟨e, r⟩ hev) with rfl | rfl
  · rfl
  · rfl

/-- Nothing is reported, and only one packet is written, while it is sent. -/
theorem reported_of_sends {packet : List U8} {tr : List Ev}
    (h : ∀ ev ∈ tr, Sends packet ev.1) : reported tr = [] := by
  refine List.filterMap_eq_nil_iff.mpr fun ⟨e, r⟩ hev => ?_
  rcases h ⟨e, r⟩ hev with rfl | hw
  · rfl
  · rcases waits_iff.mp hw with rfl | rfl
    · rfl
    · rfl

theorem written_of_sends {packet : List U8} {tr : List Ev}
    (h : ∀ ev ∈ tr, Sends packet ev.1) : ∀ buf ∈ written tr, buf = packet := by
  intro buf hbuf
  obtain ⟨⟨e, r⟩, hev, heq⟩ := List.mem_filterMap.mp hbuf
  rcases h ⟨e, r⟩ hev with rfl | hw
  · exact (Option.some.inj heq).symm
  · rcases waits_iff.mp hw with rfl | rfl
    · cases heq
    · cases heq

theorem handleResponse_only {s : Transfer} (bytes : U8) (ret : Int) :
    Only (fun c => ∃ sent total, c = .progress sent total)
      (handleResponse payloadLen s bytes ret) := by
  by_cases hack : ret = ack.toNat
  · unfold handleResponse
    rw [if_pos hack]
    exact .call ⟨_, _, rfl⟩ fun _ => trivial
  · obtain ⟨out, hdone, -⟩ := @handleResponse_done payloadLen s bytes ret hack
    rw [hdone]
    trivial

/-- A turn, ended or not, writes its packet at most once, and that first. -/
theorem sendTurn_traces {s : Transfer} {evs : List Ev} {out : Option (Except Int Transfer)}
    (ht : Traces (sendTurn char fuel payload payloadLen s) evs out) :
    evs = [] ∧ out = none ∨
      ∃ w rest, evs = ⟨.transportWrite (packetOf char payload payloadLen s), w⟩ :: rest ∧
        written rest = [] := by
  unfold sendTurn sendPacket at ht
  dsimp only at ht
  rw [if_neg (Nat.not_lt.mpr (bytesToSend_le s.offset)), call_bind] at ht
  rcases traces_call.mp ht with hnone | ⟨w, rest, rfl, hrest⟩
  · exact Or.inl hnone
  · refine Or.inr ⟨w, rest, rfl, written_of_quiet ?_⟩
    refine Only.traces (G := Quiet) ?_ hrest
    refine Only.bind (.ite trivial ?_) fun _ ret _ =>
      (handleResponse_only _ ret).mono fun _ => Or.inr
    exact ((getClientResponse_only fuel 0).mono fun _ => Or.inl).bind
      fun _ x _ => .ite trivial trivial

theorem written_turn {s : Transfer} {evs : List Ev} {out : Option (Except Int Transfer)}
    (h : Traces (sendTurn char fuel payload payloadLen s) evs out) : (written evs).length ≤ 1 := by
  rcases sendTurn_traces h with ⟨rfl, -⟩ | ⟨w, rest, rfl, hrest⟩
  · exact Nat.zero_le 1
  · rw [← List.singleton_append, written_append, hrest, List.append_nil]
    exact Nat.le_refl 1

/-- A condition on the positions of a list and one more. -/
theorem forall_getElem?_concat {α : Type} {l : List α} {a : α} {P : Nat → α → Prop}
    (hl : ∀ i b, l[i]? = some b → P i b) (ha : P l.length a) :
    ∀ i b, (l ++ [a])[i]? = some b → P i b := by
  intro i b hi
  rcases Nat.lt_or_ge i l.length with hlt | hge
  · rw [List.getElem?_append_left hlt] at hi
    exact hl i b hi
  · have hlen := (List.getElem?_eq_some_iff.mp hi).1
    rw [List.length_append, List.length_singleton] at hlen
    obtain rfl : i = l.length := by omega
    rw [List.getElem?_concat_length, Option.some.injEq] at hi
    exact hi ▸ ha

/-- One more turn of the data loop is one more round. -/
theorem Sent.snoc {rounds : List Round} {s s' : Transfer} {evs : List Ev}
    (hsent : Sent char fuel payload payloadLen rounds)
    (hs : s.Next payloadLen (rounds.countP Round.acked))
    (hsmall : payloadLen.toNat < 0x100000000)
    (h : Runs (sendTurn char fuel payload payloadLen s) evs (.ok s')) :
    ∃ r : Round, r.events = evs ∧ Sent char fuel payload payloadLen (rounds ++ [r]) ∧
      s'.offset.toNat =
        min (128 * (rounds ++ [r]).countP Round.acked) payloadLen.toNat ∧
      s'.packetNumber = BitVec.ofNat 8 ((rounds ++ [r]).countP Round.acked + 1) := by
  have hroom := hs.room
  obtain ⟨w, wait, answer, report, hw, hwait, hevs, hcase⟩ := sendTurn_runs_ok hs hsmall h
  let r : Round := ⟨s, dataPacket char payload payloadLen.toNat (rounds.countP Round.acked), answer,
    evs, s'⟩
  -- What the answer makes of the position and of the report.
  have hend : s'.offset.toNat = min (128 * (rounds ++ [r]).countP Round.acked) payloadLen.toNat ∧
      s'.packetNumber = BitVec.ofNat 8 ((rounds ++ [r]).countP Round.acked + 1) ∧
      reported (rounds.flatMap Round.events ++ evs) =
        (List.range ((rounds ++ [r]).countP Round.acked)).map
          fun k => min (128 * (k + 1)) payloadLen.toNat := by
    have hquiet : reported wait = [] :=
      reported_of_waits ((getClientResponse_only fuel 0).runs hwait)
    have hfront : reported evs = reported report := by
      rw [hevs, ← List.singleton_append, reported_append, reported_append, hquiet]
      rfl
    rw [reported_append, hsent.progress, hfront, List.countP_append]
    by_cases hack : answer = ack
    · rw [if_pos hack] at hcase
      obtain ⟨⟨x, rfl⟩, hoff, hnum⟩ := hcase
      have hone : [r].countP Round.acked = 1 := by simp [Round.acked, r, hack]
      rw [hone]
      refine ⟨hoff, hnum, ?_⟩
      rw [List.range_succ, List.map_append, List.map_singleton, ← hoff]
      rfl
    · rw [if_neg hack] at hcase
      obtain ⟨rfl, hoff, hnum⟩ := hcase
      have hzero : [r].countP Round.acked = 0 := by simp [Round.acked, r, hack]
      rw [hzero, Nat.add_zero]
      refine ⟨?_, ?_, List.append_nil _⟩
      · rw [hoff, hs.offset]
        omega
      · rw [hnum, hs.number]
  obtain ⟨hoff, hnum, hrep⟩ := hend
  refine ⟨r, rfl, ⟨?_, hsent.inStep.snoc rfl, ?_, ?_, ?_⟩, hoff, hnum⟩
  · intro r' hr'
    rcases List.mem_append.mp hr' with hmem | hmem
    · exact hsent.valid r' hmem
    · obtain rfl := List.mem_singleton.mp hmem
      refine ⟨h, w, wait, report, hw, hwait, hevs, ?_⟩
      by_cases hack : answer = ack
      · rw [if_pos hack] at hcase
        rw [if_pos (by simp [Round.acked, r, hack])]
        exact hcase.1
      · rw [if_neg hack] at hcase
        rw [if_neg (by simp [Round.acked, r, hack])]
        exact hcase.1
  · refine forall_getElem?_concat (fun i r' hi => ?_) ?_
    · rw [List.take_append_of_le_length (Nat.le_of_lt (List.getElem?_eq_some_iff.mp hi).1)]
      exact hsent.room i r' hi
    · rw [List.take_left]
      unfold numPackets
      omega
  · refine forall_getElem?_concat (fun i r' hi => ?_) ?_
    · have hlt := (List.getElem?_eq_some_iff.mp hi).1
      rw [List.take_append_of_le_length (Nat.le_of_lt hlt), List.take_append_of_le_length hlt]
      exact hsent.offset i r' hi
    · rw [List.take_left, List.take_of_length_le (by simp)]
      exact ⟨hs.offset, hoff⟩
  · rw [List.flatMap_append, List.flatMap_singleton]
    exact hrep

/-! ## The data loop -/

theorem offset_toNat (s : Transfer) : (s.offset.setWidth 64).toNat = s.offset.toNat := by
  rw [BitVec.toNat_setWidth]
  exact Nat.mod_eq_of_lt (by have := s.offset.isLt; omega)

/-- The loop goes on while there are bytes to send. -/
theorem whileTest_next {res : Except Int Transfer} {s : Transfer}
    (h : whileTest payloadLen res = .next s) : res = .ok s ∧ s.offset.toNat < payloadLen.toNat := by
  cases res with
  | error ret => cases h
  | ok s' =>
    unfold whileTest at h
    simp only [BitVec.lt_def, offset_toNat] at h
    split at h
    next hlt =>
      obtain rfl := Turn.next.inj h
      exact ⟨rfl, hlt⟩
    next => cases h

theorem whileTest_stop {res res' : Except Int Transfer}
    (h : whileTest payloadLen res = .stop res') :
    res = res' ∧ ∀ s, res = .ok s → payloadLen.toNat ≤ s.offset.toNat := by
  cases res with
  | error ret => exact ⟨Turn.stop.inj h, nofun⟩
  | ok s' =>
    unfold whileTest at h
    simp only [BitVec.lt_def, offset_toNat] at h
    split at h
    next => cases h
    next hge =>
      refine ⟨Turn.stop.inj h, fun s hs => ?_⟩
      obtain rfl := Except.ok.inj hs
      exact Nat.le_of_not_lt hge

/-- Where the data loop stands: behind some rounds, with a packet to send. -/
def Standing (char : PlainChar) (fuel : Nat) (payload : Ptr) (payloadLen : SizeT) (s : Transfer)
    (pre : List Ev) : Prop :=
  ∃ rounds, Sent char fuel payload payloadLen rounds ∧
    s.Next payloadLen (rounds.countP Round.acked) ∧ pre = rounds.flatMap Round.events

theorem standing_start (hpos : 1 ≤ payloadLen.toNat) :
    Standing char fuel payload payloadLen ⟨0, 1, 0⟩ [] :=
  ⟨[], sent_nil, ⟨rfl, rfl, hpos⟩, rfl⟩

/-- It stands there again after each turn. -/
theorem standing_turn (hsmall : payloadLen.toNat < 0x100000000) (s : Transfer) (pre evs : List Ev)
    (s' : Transfer) (hs : Standing char fuel payload payloadLen s pre)
    (h : Runs (sendTurn char fuel payload payloadLen s >>= fun ended =>
      pure (whileTest payloadLen ended)) evs (.next s')) :
    Standing char fuel payload payloadLen s' (pre ++ evs) := by
  obtain ⟨rounds, hsent, hnext, rfl⟩ := hs
  obtain ⟨evs, res, tail, hturn, htail, rfl⟩ := runs_bind.mp h
  obtain ⟨rfl, hres⟩ := runs_pure.mp htail
  obtain ⟨rfl, hlt⟩ := whileTest_next hres.symm
  obtain ⟨r, rfl, hsent', hoff, hnum⟩ := hsent.snoc hnext hsmall hturn
  refine ⟨rounds ++ [r], hsent', ⟨?_, hnum, ?_⟩, ?_⟩
  · omega
  · omega
  · rw [List.append_nil, List.flatMap_append, List.flatMap_singleton]

/-- Rounds, and a transmission that has not led to another. -/
def Sending (char : PlainChar) (fuel : Nat) (payload : Ptr) (payloadLen : SizeT)
    (tr : List Ev) : Prop :=
  ∃ rounds last, Sent char fuel payload payloadLen rounds ∧
    rounds.countP Round.acked < numPackets payloadLen.toNat ∧
    (∀ ev ∈ last, Sends
      (dataPacket char payload payloadLen.toNat (rounds.countP Round.acked)) ev.1) ∧
    (written last).length ≤ 1 ∧ tr = rounds.flatMap Round.events ++ last

/-- The data loop is under way or returns an error, or has had every packet acknowledged. -/
theorem sendData_traces (hpos : 1 ≤ payloadLen.toNat) (hsmall : payloadLen.toNat < 0x100000000)
    {tr : List Ev} {out : Option (Except Int Transfer)}
    (h : Traces (sendData char fuel payload payloadLen) tr out) :
    (∀ res, out = some res → ∃ ret, res = .error ret ∧ ret < 0) ∧
      Sending char fuel payload payloadLen tr ∨
    ∃ s rounds, out = some (.ok s) ∧ Sent char fuel payload payloadLen rounds ∧
      rounds.countP Round.acked = numPackets payloadLen.toNat ∧
      s.offset.toNat = payloadLen.toNat ∧ tr = rounds.flatMap Round.events := by
  obtain ⟨s, mid, last, ⟨rounds, hsent, hnext, hmid⟩, rfl, hlast⟩ :=
    traces_iterate h (standing_start hpos) (standing_turn hsmall)
  have hroom := hnext.room
  have hmore : rounds.countP Round.acked < numPackets payloadLen.toNat := by
    unfold numPackets
    omega
  rcases hlast with ⟨rfl, rfl⟩ | hlast
  · exact Or.inl ⟨nofun, rounds, [], hsent, hmore, nofun, Nat.zero_le 1, by rw [hmid]⟩
  · rcases traces_bind.mp hlast with ⟨hcut, hout⟩ | ⟨last, res, tail, hturn, htail, rfl⟩
    · obtain rfl := Option.map_eq_none_iff.mp hout
      exact Or.inl ⟨nofun, rounds, last, hsent, hmore,
        sendTurn_sends hnext hcut.traces nofun, written_turn hcut.traces, by rw [hmid]⟩
    · obtain ⟨rfl, hout⟩ := traces_pure.mp htail
      rw [List.append_nil]
      obtain ⟨res', rfl, hres⟩ := Option.map_eq_some_iff.mp hout
      obtain ⟨rfl, hge⟩ := whileTest_stop hres.symm
      cases res with
      | error ret =>
        refine Or.inl ⟨fun res' hres' => ?_, rounds, last, hsent, hmore,
          sendTurn_sends hnext hturn.traces nofun, written_turn hturn.traces, by rw [hmid]⟩
        obtain rfl := Option.some.inj hres'
        exact ⟨ret, rfl, sendTurn_error hturn⟩
      | ok s' =>
        have hend := hge s' rfl
        obtain ⟨r, rfl, hsent', hoff, -⟩ := hsent.snoc hnext hsmall hturn
        refine Or.inr ⟨s', rounds ++ [r], rfl, hsent', ?_, ?_, ?_⟩
        · rw [List.countP_append] at hoff ⊢
          have hone : [r].countP Round.acked ≤ 1 := List.countP_le_length
          unfold numPackets
          omega
        · omega
        · rw [hmid, List.flatMap_append, List.flatMap_singleton]

/-! ## The whole of `ll_xmodem_send` -/

theorem waitFor_only (response : U8) : Only Waits (waitFor fuel response) := by
  refine .call trivial fun timeStart => Only.iterate fun res => ?_
  refine (getClientResponse_only fuel res).bind fun _ x _ => .ite trivial ?_
  exact (llDifftimeFromNow_only trivial _).bind fun _ time _ => .ite trivial trivial

theorem sendByte_only (byte : U8) : Only (Sends [byte]) (sendByte fuel byte) := by
  refine .call (Or.inr trivial) fun timeStart => Only.iterate fun response => ?_
  refine .call (Or.inl rfl) fun w => .ite trivial (.bind ?_ fun _ x _ => .ite trivial ?_)
  · exact (getClientResponse_only fuel response).mono fun _ => Or.inr
  · exact (llDifftimeFromNow_only (Or.inr trivial) _).bind fun _ time _ => .ite trivial trivial

/-- The calls behind the data loop. -/
def Finishes (payloadLen : SizeT) (c : Call) : Prop :=
  c = .transportWrite [eot] ∨ c = .transportWrite [reboot] ∨ Waits c ∨ c = .sleepMs 1000 ∨
    c = .progress (payloadLen.setWidth 32) (payloadLen.setWidth 32)

theorem updateClient_only (offset : U32) (n : Nat) :
    Only (fun c => c = .sleepMs 1000 ∨ c = .progress offset (payloadLen.setWidth 32))
      (updateClient payloadLen offset n) := by
  induction n with
  | zero => trivial
  | succ n ih => exact .call (Or.inl rfl) fun _ => .call (Or.inr rfl) fun _ => ih

theorem parseModuleOutput_only (len : U8) : Only Waits (parseModuleOutput fuel len) := by
  refine .call trivial fun timeStart => Only.iterate fun data => .call trivial fun r => ?_
  exact (llDifftimeFromNow_only trivial _).bind fun _ time _ => .ite trivial trivial

theorem verifyModule_only : Only (Finishes payloadLen) (verifyModule fuel) := by
  have hparse : ∀ len, Only (Finishes payloadLen) (parseModuleOutput fuel len) := fun len =>
    (parseModuleOutput_only len).mono fun _ hc => Or.inr (Or.inr (Or.inl hc))
  unfold verifyModule
  refine (hparse 19).bind fun _ _ _ => ?_
  refine (hparse 14).bind fun _ _ _ => ?_
  refine (hparse 17).bind fun _ _ _ => ?_
  refine .ite trivial (.ite trivial (.ite trivial ?_))
  exact .bind (.call (Or.inr (Or.inl rfl)) fun _ => trivial) fun _ ret _ => trivial

theorem finishTransfer_only :
    Only (Finishes payloadLen) (finishTransfer fuel payloadLen (payloadLen.setWidth 32)) := by
  unfold finishTransfer
  refine .bind ?_ fun _ ret _ => .ite trivial ?_
  · refine (sendByte_only eot).mono fun c hc => ?_
    rcases hc with rfl | hc
    · exact Or.inl rfl
    · exact Or.inr (Or.inr (Or.inl hc))
  · refine ((updateClient_only _ 10).mono fun c hc => ?_).bind fun _ _ _ => verifyModule_only
    exact Or.inr (Or.inr (Or.inr hc))

/-- The sender waits, sends, and when all is acknowledged finishes. -/
theorem xmodemSend_traces {cb : Callbacks} (hpos : 1 ≤ payloadLen.toNat)
    (hsmall : payloadLen.toNat < 0x100000000) {tr : List Ev} {out : Option Int}
    (h : Traces (xmodemSend char fuel cb (some payload) payloadLen) tr out) :
    ∃ start mid, (∀ ev ∈ start, Waits ev.1) ∧ tr = start ++ mid ∧
      ((∀ ret, out = some ret → ret < 0) ∧ Sending char fuel payload payloadLen mid ∨
      ∃ rounds fin, Sent char fuel payload payloadLen rounds ∧
        rounds.countP Round.acked = numPackets payloadLen.toNat ∧
        Traces (finishTransfer fuel payloadLen (payloadLen.setWidth 32)) fin out ∧
        mid = rounds.flatMap Round.events ++ fin) := by
  have hnothing : Sending char fuel payload payloadLen [] :=
    ⟨[], [], sent_nil, by unfold numPackets; simp; omega, nofun, Nat.zero_le 1, rfl⟩
  have hlong : ¬ payloadLen < 1 := by
    rw [BitVec.lt_def]
    exact Nat.not_lt.mpr hpos
  unfold xmodemSend at h
  dsimp only at h
  rw [if_neg hlong] at h
  split at h
  next =>
    obtain ⟨rfl, rfl⟩ := traces_pure.mp h
    refine ⟨[], [], nofun, rfl, Or.inl ⟨fun ret hret => ?_, hnothing⟩⟩
    obtain rfl := Option.some.inj hret
    decide
  next =>
    rcases traces_bind.mp h with ⟨hwait, rfl⟩ | ⟨start, ret, mid, hwait, hrest, rfl⟩
    · exact ⟨tr, [], (waitFor_only ccc).cut hwait, by rw [List.append_nil],
        Or.inl ⟨nofun, hnothing⟩⟩
    · have hstart := (waitFor_only ccc).runs hwait
      split at hrest
      next hneg =>
        obtain ⟨rfl, rfl⟩ := traces_pure.mp hrest
        refine ⟨start, [], hstart, rfl, Or.inl ⟨fun ret' hret => ?_, hnothing⟩⟩
        obtain rfl := Option.some.inj hret
        exact hneg
      next =>
        rcases traces_bind.mp hrest with ⟨hdata, rfl⟩ | ⟨mid, res, fin, hdata, hfin, rfl⟩
        · rcases sendData_traces hpos hsmall hdata.traces with ⟨-, hsending⟩ | ⟨_, _, hno, -⟩
          · exact ⟨start, mid, hstart, rfl, Or.inl ⟨nofun, hsending⟩⟩
          · cases hno
        · rcases sendData_traces hpos hsmall hdata.traces with ⟨herr, hsending⟩ |
            ⟨s, rounds, hok, hsent, hall, hoff, rfl⟩
          · obtain ⟨err, rfl, hneg⟩ := herr res rfl
            obtain ⟨rfl, rfl⟩ := traces_pure.mp hfin
            refine ⟨start, mid, hstart, by rw [List.append_nil], Or.inl ⟨fun ret' hret => ?_,
              hsending⟩⟩
            obtain rfl := Option.some.inj hret
            exact hneg
          · obtain rfl := Option.some.inj hok
            have hend : s.offset = payloadLen.setWidth 32 := by
              apply BitVec.eq_of_toNat_eq
              rw [hoff, BitVec.toNat_setWidth]
              omega
            dsimp only at hfin
            rw [hend] at hfin
            exact ⟨start, _, hstart, rfl, Or.inr ⟨rounds, fin, hsent, hall, hfin, rfl⟩⟩

/-! ## What a trace shows -/

/-- A trace in three parts: the wait for the receiver, the rounds, and what comes after them. -/
structure Parts where
  start : List Ev
  rounds : List Round
  rest : List Ev

def Parts.events (x : Parts) : List Ev :=
  x.start ++ x.rounds.flatMap Round.events ++ x.rest

/-- The packets acknowledged, in order. -/
def Parts.ackedPackets (x : Parts) : List (List U8) :=
  (x.rounds.filter Round.acked).map Round.packet

/-- What a trace in three parts shows of a payload. -/
structure InOrder (char : PlainChar) (fuel : Nat) (payload : Ptr) (payloadLen : SizeT)
    (x : Parts) : Prop where
  start : ∀ ev ∈ x.start, Waits ev.1
  round : ∀ r ∈ x.rounds, r.Valid char fuel payload payloadLen
  acked : x.ackedPackets =
    (List.range x.ackedPackets.length).map (dataPacket char payload payloadLen.toNat)
  acked_le : x.ackedPackets.length ≤ numPackets payloadLen.toNat
  repeats : ∀ (i j : Nat) (r r' : Round), i ≤ j → x.rounds[i]? = some r →
    x.rounds[j]? = some r' →
    (∀ (m : Nat) (q : Round), i ≤ m → m < j → x.rounds[m]? = some q → q.acked = false) →
    r'.packet = r.packet
  rest : ∀ buf ∈ written x.rest,
    x.ackedPackets.length < numPackets payloadLen.toNat ∧
        buf = dataPacket char payload payloadLen.toNat x.ackedPackets.length ∨
      x.ackedPackets.length = numPackets payloadLen.toNat ∧ (buf = [eot] ∨ buf = [reboot])
  once : x.ackedPackets.length < numPackets payloadLen.toNat → (written x.rest).length ≤ 1
  offset_mono : ∀ (i j : Nat) (r r' : Round), i ≤ j → x.rounds[i]? = some r →
    x.rounds[j]? = some r' →
    r.before.offset ≤ r'.before.offset ∧ r.after.offset ≤ r'.after.offset
  offset_le : ∀ r ∈ x.rounds,
    r.before.offset ≤ r.after.offset ∧ r.after.offset.toNat ≤ payloadLen.toNat
  progress_mono : (reported x.events).Pairwise (· ≤ ·)
  progress_le : ∀ sent ∈ reported x.events, sent ≤ payloadLen.toNat
  eot_last : [eot] ∉ written (x.start ++ x.rounds.flatMap Round.events)
  eot : [eot] ∈ written x.rest → x.ackedPackets =
    (List.range (numPackets payloadLen.toNat)).map (dataPacket char payload payloadLen.toNat)

theorem numPackets_room {size k : Nat} : k < numPackets size ↔ 128 * k < size := by
  unfold numPackets
  omega

theorem Sent.countP_le {rounds : List Round} (h : Sent char fuel payload payloadLen rounds) :
    rounds.countP Round.acked ≤ numPackets payloadLen.toNat := by
  induction rounds using List.reverseRecOn with
  | nil => exact Nat.zero_le _
  | append_singleton rounds r _ =>
    have hroom := h.room rounds.length r List.getElem?_concat_length
    rw [List.take_left] at hroom
    have hone : [r].countP Round.acked ≤ 1 := List.countP_le_length
    rw [List.countP_append]
    omega

theorem Sent.offset_mono {rounds : List Round} (h : Sent char fuel payload payloadLen rounds)
    {i j : Nat} {r r' : Round} (hij : i ≤ j) (hi : rounds[i]? = some r)
    (hj : rounds[j]? = some r') :
    r.before.offset ≤ r'.before.offset ∧ r.after.offset ≤ r'.after.offset := by
  have hmono : ∀ {m n : Nat}, m ≤ n →
      (rounds.take m).countP Round.acked ≤ (rounds.take n).countP Round.acked := fun hmn =>
    (List.take_prefix_take_left hmn).sublist.countP_le
  have hbefore := hmono hij
  have hafter := hmono (Nat.add_le_add_right hij 1)
  obtain ⟨hri, hri'⟩ := h.offset i r hi
  obtain ⟨hrj, hrj'⟩ := h.offset j r' hj
  rw [BitVec.le_def, BitVec.le_def]
  omega

theorem Sent.offset_le {rounds : List Round} (h : Sent char fuel payload payloadLen rounds)
    {r : Round} (hr : r ∈ rounds) :
    r.before.offset ≤ r.after.offset ∧ r.after.offset.toNat ≤ payloadLen.toNat := by
  obtain ⟨i, hi⟩ := List.getElem?_of_mem hr
  obtain ⟨hbefore, hafter⟩ := h.offset i r hi
  have hroom := numPackets_room.mp (h.room i r hi)
  have hmono : (rounds.take i).countP Round.acked ≤ (rounds.take (i + 1)).countP Round.acked :=
    (List.take_prefix_take_left (Nat.le_succ i)).sublist.countP_le
  rw [BitVec.le_def]
  omega

/-- The progress reported in the rounds grows, up to the size of the payload. -/
theorem Sent.progress_mono {rounds : List Round} (h : Sent char fuel payload payloadLen rounds) :
    (reported (rounds.flatMap Round.events)).Pairwise (· ≤ ·) ∧
      ∀ sent ∈ reported (rounds.flatMap Round.events), sent ≤ payloadLen.toNat := by
  rw [h.progress]
  constructor
  · rw [List.pairwise_map]
    exact List.pairwise_lt_range.imp fun hlt => by omega
  · intro sent hsent
    obtain ⟨k, -, rfl⟩ := List.mem_map.mp hsent
    exact Nat.min_le_right _ _

/-- A round writes its packet, once. -/
theorem Round.Valid.written_eq {r : Round} (h : r.Valid char fuel payload payloadLen) :
    written r.events = [r.packet] := by
  obtain ⟨w, wait, report, -, hwait, hevs, hreport⟩ := h.exchange
  have hquiet := written_of_waits ((getClientResponse_only fuel 0).runs hwait)
  have hreported : written report = [] := by
    split at hreport
    next =>
      obtain ⟨x, rfl⟩ := hreport
      rfl
    next =>
      rw [hreport]
      rfl
  rw [hevs, ← List.singleton_append, written_append, written_append, hquiet, hreported]
  rfl

theorem written_rounds {rounds : List Round}
    (h : ∀ r ∈ rounds, r.Valid char fuel payload payloadLen) :
    written (rounds.flatMap Round.events) = rounds.map Round.packet := by
  induction rounds with
  | nil => rfl
  | cons r rounds ih =>
    rw [List.flatMap_cons, written_append, (h r (by simp)).written_eq,
      ih fun r' hr' => h r' (List.mem_cons_of_mem _ hr')]
    rfl

/-- All that is written in the rounds are packets. -/
theorem not_mem_written {rounds : List Round} {start : List Ev} {buf : List U8}
    (hbuf : buf.length ≠ 133) (hstart : ∀ ev ∈ start, Waits ev.1)
    (h : Sent char fuel payload payloadLen rounds) :
    buf ∉ written (start ++ rounds.flatMap Round.events) := by
  rw [written_append, written_of_waits hstart, written_rounds h.valid, List.nil_append]
  intro hmem
  obtain ⟨r, hr, rfl⟩ := List.mem_map.mp hmem
  obtain ⟨i, hi⟩ := List.getElem?_of_mem hr
  rw [h.inStep i r hi, length_dataPacket] at hbuf
  exact hbuf rfl

/-- Behind the data loop the whole payload is reported, and the end of transmission and the
reboot are all that is written. -/
theorem finishes_written {tr : List Ev} (h : ∀ ev ∈ tr, Finishes payloadLen ev.1) :
    ∀ buf ∈ written tr, buf = [eot] ∨ buf = [reboot] := by
  intro buf hbuf
  obtain ⟨⟨e, r⟩, hev, heq⟩ := List.mem_filterMap.mp hbuf
  rcases h ⟨e, r⟩ hev with rfl | rfl | hw | rfl | rfl
  · exact Or.inl (Option.some.inj heq).symm
  · exact Or.inr (Option.some.inj heq).symm
  · rcases waits_iff.mp hw with rfl | rfl
    · cases heq
    · cases heq
  · cases heq
  · cases heq

theorem finishes_reported (hsmall : payloadLen.toNat < 0x100000000) {tr : List Ev}
    (h : ∀ ev ∈ tr, Finishes payloadLen ev.1) : ∀ sent ∈ reported tr, sent = payloadLen.toNat := by
  intro sent hsent
  obtain ⟨⟨e, r⟩, hev, heq⟩ := List.mem_filterMap.mp hsent
  rcases h ⟨e, r⟩ hev with rfl | rfl | hw | rfl | rfl
  · cases heq
  · cases heq
  · rcases waits_iff.mp hw with rfl | rfl
    · cases heq
    · cases heq
  · cases heq
  · rw [← Option.some.inj heq, BitVec.toNat_setWidth]
    omega

/-- **The trace of the sender.** Whatever the receiver answers, the packets acknowledged are
the first ones of the payload in order; between two acknowledgements the same packet is
repeated; offset and progress grow up to the size of the payload; and the end of
transmission is sent when all packets have been acknowledged. -/
theorem sender_trace {cb : Callbacks} (hpos : 1 ≤ payloadLen.toNat)
    (hsmall : payloadLen.toNat < 0x100000000) {tr : List Ev} {out : Option Int}
    (h : Traces (xmodemSend char fuel cb (some payload) payloadLen) tr out) :
    ∃ x : Parts, tr = x.events ∧ InOrder char fuel payload payloadLen x := by
  obtain ⟨start, mid, hstart, rfl, hmid⟩ := xmodemSend_traces hpos hsmall h
  -- What both ways to go on come down to.
  suffices hparts : ∃ rounds rest, Sent char fuel payload payloadLen rounds ∧
      mid = rounds.flatMap Round.events ++ rest ∧
      (∀ buf ∈ written rest,
        rounds.countP Round.acked < numPackets payloadLen.toNat ∧
            buf = dataPacket char payload payloadLen.toNat (rounds.countP Round.acked) ∨
          rounds.countP Round.acked = numPackets payloadLen.toNat ∧
            (buf = [eot] ∨ buf = [reboot])) ∧
      (rounds.countP Round.acked < numPackets payloadLen.toNat → (written rest).length ≤ 1) ∧
      ∀ sent ∈ reported rest, sent = payloadLen.toNat by
    obtain ⟨rounds, rest, hsent, rfl, hwritten, honce, hreported⟩ := hparts
    have hacked : (Parts.mk start rounds rest).ackedPackets =
        (List.range (rounds.countP Round.acked)).map
          (dataPacket char payload payloadLen.toNat) := hsent.inStep.acked_packets
    have hlen : (Parts.mk start rounds rest).ackedPackets.length = rounds.countP Round.acked := by
      rw [hacked, List.length_map, List.length_range]
    have hprogress : reported (Parts.mk start rounds rest).events =
        reported (rounds.flatMap Round.events) ++ reported rest := by
      unfold Parts.events
      rw [reported_append, reported_append,
        reported_of_waits hstart, List.nil_append]
    obtain ⟨hmono, hle⟩ := hsent.progress_mono
    refine ⟨⟨start, rounds, rest⟩, (List.append_assoc _ _ _).symm, hstart, hsent.valid, ?_, ?_,
      fun _ _ _ _ hij hi hj hbetween => hsent.inStep.repeats hij hi hj hbetween, ?_,
      ?_, fun _ _ _ _ => hsent.offset_mono, fun _ => hsent.offset_le, ?_, ?_,
      not_mem_written (by decide) hstart hsent, ?_⟩
    · rw [hlen, hacked]
    · rw [hlen]
      exact hsent.countP_le
    · rw [hlen]
      exact hwritten
    · rw [hlen]
      exact honce
    · rw [hprogress, List.pairwise_append]
      refine ⟨hmono, ?_, ?_⟩
      · exact List.pairwise_of_forall_mem_list fun a ha b hb =>
          Nat.le_of_eq ((hreported a ha).trans (hreported b hb).symm)
      · intro a ha b hb
        rw [hreported b hb]
        exact hle a ha
    · rw [hprogress]
      intro sent hsent
      rcases List.mem_append.mp hsent with hmem | hmem
      · exact hle sent hmem
      · exact Nat.le_of_eq (hreported sent hmem)
    · intro heot
      rcases hwritten [eot] heot with ⟨-, hpacket⟩ | ⟨hall, -⟩
      · have hlength := congrArg List.length hpacket
        rw [length_dataPacket] at hlength
        exact absurd hlength (by decide)
      · rw [hacked, hall]
  rcases hmid with ⟨-, rounds, last, hsent, hmore, hsends, hone, rfl⟩ |
    ⟨rounds, fin, hsent, hall, hfin, rfl⟩
  · refine ⟨rounds, last, hsent, rfl, fun buf hbuf => ?_, fun _ => hone, ?_⟩
    · exact Or.inl ⟨hmore, written_of_sends hsends buf hbuf⟩
    · rw [reported_of_sends hsends]
      exact nofun
  · have hcalls := finishTransfer_only.traces hfin
    refine ⟨rounds, fin, hsent, rfl, fun buf hbuf => ?_, fun hless => ?_,
      finishes_reported hsmall hcalls⟩
    · exact Or.inr ⟨hall, finishes_written hcalls buf hbuf⟩
    · exact absurd hall (Nat.ne_of_lt hless)

theorem sender_trace_tiny :
    ∃ tr x, Runs (xmodemSend .signed 60 ⟨true⟩ (some ⟨fun _ => 7, 0⟩) 1) tr 0 ∧
      tr = x.events ∧ InOrder .signed 60 ⟨fun _ => 7, 0⟩ 1 x := by
  obtain ⟨tr, rest, hx⟩ := exec_replay
  obtain ⟨x, htr, hx'⟩ := sender_trace (by decide) (by decide) (exec_runs hx).traces
  exact ⟨tr, x, exec_runs hx, htr, hx'⟩

end

end HostInterface.Xmodem
