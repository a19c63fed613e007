import HostInterface.Xmodem.Upload

/-!
# The two ends in step

What the bootloader has can be told from what the sender has seen, whatever the line does
short of repeating answers (`Line.Sound`): it may turn a packet into anything the bootloader
does not take for one and an answer into noise or into any other answer but `ACK`, and any
call may fail. Packets are numbered and answers are not, so a sender that finds an answer too
many is one answer behind from then on; that is why there is one to each packet at most,
and one letter C.

`bootloader_agrees`: at all times the bootloader has the first packets of the payload, it
has the whole payload when it finishes, and the sender returns 0 only then. The invariant of
the data loop is `InSync`: the bootloader has the packets acknowledged so far, or one more
when its `ACK` was damaged, and no answer is left on the line when a packet goes out.
-/

namespace HostInterface.Xmodem

open Interact Prog

/-- Damage the protocol can bear. -/
structure Line.Sound (L : Line) (char : PlainChar) : Prop where
  forth : ∀ n buf, L.forth n buf = buf ∨
    unframe char (L.forth n buf) = none ∧ L.forth n buf ≠ [eot]
  back : ∀ n a, ((L.back n a).filter isResponse).length ≤ 1
  acks : ∀ n a, ack ∈ L.back n a → a = ack
  hello : (L.hello.filter isResponse).length ≤ 1

/-- The packets acknowledged, or one more whose `ACK` was damaged. -/
def InSync (payload : Ptr) (size k : Nat) (m : Bootloader) : Prop :=
  Holds payload size k m ∨ k < numPackets size ∧ Holds payload size (k + 1) m

section

variable {char theirs : PlainChar} {fuel : Nat} {payload : Ptr} {size k : Nat} {L : Line}
  {d : Wire} {tr : List Ev}

/-! ## Packets -/

theorem InSync.running {m : Bootloader} (h : InSync payload size k m) : m.finished = false :=
  h.elim Holds.running fun h => h.2.running

theorem InSync.image {m : Bootloader} (h : InSync payload size k m) :
    m.image <+: whole payload size := by
  rcases h with h | ⟨-, h⟩
  · rw [h.image]
    exact List.take_prefix _ _
  · rw [h.image]
    exact List.take_prefix _ _

/-- Packet `k`, or what the line has made of it: the bootloader stays in step, and has the
packet if it says so. -/
theorem InSync.takes {m : Bootloader} {buf : List U8} (h : InSync payload size k m)
    (hk : k < numPackets size)
    (hbuf : buf = dataPacket char payload size k ∨ unframe theirs buf = none ∧ buf ≠ [eot]) :
    InSync payload size k (m.takes theirs buf).2 ∧
      ((m.takes theirs buf).1 = ack → Holds payload size (k + 1) (m.takes theirs buf).2) := by
  rcases hbuf with rfl | ⟨hnone, hne⟩
  · rcases h with h | ⟨-, h⟩
    · obtain ⟨m', htakes, hnext⟩ := h.takes hk
      rw [htakes]
      exact ⟨Or.inr ⟨hk, hnext⟩, fun _ => hnext⟩
    · rw [h.takes_again]
      exact ⟨Or.inr ⟨hk, h⟩, fun _ => h⟩
  · rw [takes_noise hnone hne]
    refine ⟨h, fun hno => ?_⟩
    cases hno

/-! ## What is read of the line -/

/-- Reads on the line are clean. -/
theorem Line.clean (hf : Follows (L.handle theirs) d tr) : ReadsClean tr := by
  induction tr generalizing d with
  | nil => exact fun r hr => nomatch hr
  | cons ev tr ih =>
    obtain ⟨e, reply⟩ := ev
    obtain ⟨rfl, hf⟩ := hf
    intro r hr hneg
    rcases List.mem_cons.mp hr with heq | hr
    · cases e with
      | transportRead =>
        obtain rfl : r = (L.read d).1 := eq_of_heq (Sigma.mk.inj heq).2
        rcases L.read_cases d with ⟨-, hnone, -⟩ | ⟨-, -, -, hzero, -⟩
        · exact hnone
        · omega
      | transportWrite | gettime | sleepMs | progress => cases heq
    · exact ih hf r hr hneg

/-- Where nothing is written, what is read is what was on the line, and nothing else changes. -/
theorem Line.received (hf : Follows (L.handle theirs) d tr) (hno : written tr = []) :
    (after (L.handle theirs) d tr).loader = d.loader ∧
      d.pending = received tr ++ (after (L.handle theirs) d tr).pending := by
  induction tr generalizing d with
  | nil => exact ⟨rfl, rfl⟩
  | cons ev tr ih =>
    obtain ⟨e, reply⟩ := ev
    obtain ⟨rfl, hf⟩ := hf
    cases e with
    | transportWrite buf => cases hno
    | transportRead =>
      have hrest : (after (L.handle theirs) (L.read d).2 tr).loader = (L.read d).2.loader ∧
          (L.read d).2.pending =
            received tr ++ (after (L.handle theirs) (L.read d).2 tr).pending := ih hf hno
      have hread : received (⟨.transportRead, (L.read d).1⟩ :: tr) =
          (if 0 ≤ (L.read d).1.ret then (L.read d).1.stored.toList else []) ++ received tr := rfl
      show (after (L.handle theirs) (L.read d).2 tr).loader = _ ∧ d.pending = received
        (⟨.transportRead, (L.read d).1⟩ :: tr) ++ (after (L.handle theirs) (L.read d).2 tr).pending
      rw [hread, hrest.1, List.append_assoc, ← hrest.2]
      rcases L.read_cases d with ⟨hneg, -, hd⟩ | ⟨b, pending, hp, hret, hstored, hd⟩
      · rw [if_neg (Int.not_le.mpr hneg), hd]
        exact ⟨rfl, rfl⟩
      · rw [if_pos (by omega), hstored, hd]
        exact ⟨rfl, hp⟩
    | gettime => exact ih hf hno
    | sleepMs millis => exact ih hf hno
    | progress sent total => exact ih hf hno

/-- The last turn of a wait that is answered. -/
theorem responseTurn_answered {timeStart : Time} {old b : U8} {last : List Ev}
    (h : ResponseTurn timeStart old last (.stop (0, b))) :
    ∃ r now, last = [⟨.transportRead, r⟩, ⟨.gettime, now⟩] ∧ b = r.stored.getD old ∧
      isResponse b = true := by
  generalize hout : (Turn.stop ((0 : Int), b) : Turn (Int × U8) U8) = out at h
  cases h with
  | failed hret =>
    injection hout with hout
    injection hout with hzero hb
    omega
  | timedOut =>
    injection hout with hout
    injection hout with hzero hb
    cases hzero
  | @answered r now hret hresp =>
    injection hout with hout
    injection hout with hzero hb
    exact ⟨r, now, rfl, hb, hb ▸ hresp⟩
  | ignored => cases hout

theorem received_append (tr tr' : List Ev) : received (tr ++ tr') = received tr ++ received tr' :=
  List.flatMap_append

theorem received_read (r : ReadReply) (now : Time) :
    received [⟨.transportRead, r⟩, ⟨.gettime, now⟩] =
      if 0 ≤ r.ret then r.stored.toList else [] :=
  List.append_nil _

/-- The first response on the line ends the wait for it. -/
theorem getClientResponse_received {old b : U8} {wait : List Ev}
    (h : Runs (getClientResponse fuel old) wait (0, b)) (hnew : old ≠ b)
    (hclean : ReadsClean wait) :
    ∃ noise, received wait = noise ++ [b] ∧ noise.filter isResponse = [] := by
  unfold getClientResponse at h
  rw [runs_call] at h
  obtain ⟨timeStart, wait, rfl, h⟩ := h
  rw [← List.singleton_append] at hclean
  -- Carried along: what has been read so far is noise, and the buffer holds it, or the old.
  obtain ⟨prev, mid, last, ⟨hprev, hnoise⟩, rfl, hlast⟩ :=
    runs_iterate (I := fun prev pre => (prev = old ∨ isResponse prev = false) ∧
        (received pre).filter isResponse = []) h ⟨Or.inl rfl, rfl⟩
      fun prev pre evs next hI hturn => by
        cases clientResponseTurn_runs hturn with
        | @ignored r now hno =>
          refine ⟨Or.inr hno, ?_⟩
          rw [received_append, List.filter_append, hI.2, received_read, List.nil_append]
          split
          next =>
            cases hs : r.stored with
            | none => rfl
            | some c =>
              rw [hs] at hno
              exact List.filter_eq_nil_iff.mpr fun c' hc' => by
                obtain rfl := List.mem_singleton.mp hc'
                exact Bool.eq_false_iff.mp hno
          next => rfl
  obtain ⟨r, now, rfl, hb, hresp⟩ := responseTurn_answered (clientResponseTurn_runs hlast)
  have hstored : r.stored = some b := by
    cases hs : r.stored with
    | some c => rw [hb, hs]; rfl
    | none =>
      -- A stale byte is the old one, or noise.
      rw [hs] at hb
      rcases hprev with rfl | hno
      · exact absurd hb.symm hnew
      · rw [hb] at hresp
        exact absurd hresp (Bool.eq_false_iff.mp hno)
  have hret : 0 ≤ r.ret := by
    by_contra hneg
    rw [hclean.right.right r (by simp) (Int.not_le.mp hneg)] at hstored
    cases hstored
  refine ⟨received mid, ?_, hnoise⟩
  show received (mid ++ _) = _
  rw [received_append, received_read, if_pos hret, hstored]
  rfl

/-- A turn of the wait for a response goes on with another one, or stops with an error or with
this one. -/
theorem waitForTurn_runs {response old : U8} {timeStart : Time} {evs : List Ev} {t : Turn Int U8}
    (h : Runs (waitForTurn fuel response timeStart old) evs t) :
    (∃ ret, t = .stop ret ∧ (ret < 0 ∨ ∃ wait tail, evs = wait ++ tail ∧
      Runs (getClientResponse fuel old) wait (0, response))) ∨
      ∃ next, t = .next next ∧ next ≠ response := by
  unfold waitForTurn at h
  obtain ⟨wait, ⟨ret, res⟩, tail, hwait, htail, rfl⟩ := runs_bind.mp h
  dsimp only at htail
  rcases getClientResponse_runs hwait with hneg | ⟨rfl, -⟩
  · rw [if_pos hneg] at htail
    obtain ⟨-, rfl⟩ := runs_pure.mp htail
    exact Or.inl ⟨ret, rfl, Or.inl hneg⟩
  · rw [if_neg (Int.lt_irrefl 0)] at htail
    unfold llDifftimeFromNow at htail
    rw [call_bind, runs_call] at htail
    obtain ⟨now, tail, rfl, htail⟩ := htail
    rw [done_bind] at htail
    split at htail
    next =>
      obtain ⟨-, rfl⟩ := runs_pure.mp htail
      exact Or.inl ⟨-2, rfl, Or.inl (by decide)⟩
    next =>
      obtain ⟨-, rfl⟩ := runs_pure.mp htail
      split
      next heq => exact Or.inl ⟨0, rfl, Or.inr ⟨wait, _, rfl, heq ▸ hwait⟩⟩
      next hne => exact Or.inr ⟨res, rfl, fun heq => hne heq.symm⟩

/-- The receiver has been heard when the wait for it is over. -/
theorem waitFor_received {response : U8} {start : List Ev} {ret : Int}
    (h : Runs (waitFor fuel response) start ret) (hret : 0 ≤ ret) (hclean : ReadsClean start)
    (hzero : response ≠ 0) : response ∈ received start := by
  unfold waitFor at h
  rw [runs_call] at h
  obtain ⟨timeStart, start, rfl, h⟩ := h
  rw [← List.singleton_append] at hclean
  obtain ⟨old, mid, last, hold, rfl, hlast⟩ :=
    runs_iterate (I := fun old _ => old ≠ response) h hzero.symm
      fun old pre evs next _ hturn => by
        rcases waitForTurn_runs hturn with ⟨ret, hno, -⟩ | ⟨res, hnext, hne⟩
        · cases hno
        · obtain rfl := Turn.next.inj hnext
          exact hne
  rcases waitForTurn_runs hlast with ⟨ret', hstop, hneg | ⟨wait, tail, rfl, hwait⟩⟩ | ⟨res, hno, -⟩
  · obtain rfl := Turn.stop.inj hstop
    exact absurd hneg (Int.not_lt.mpr hret)
  · obtain ⟨noise, hnoise, -⟩ :=
      getClientResponse_received hwait hold hclean.right.right.left
    show response ∈ received (mid ++ (wait ++ tail))
    rw [received_append, received_append, hnoise]
    simp
  · cases hno

/-! ## In step -/

/-- A packet that is sent finds the bootloader in step and leaves it so. -/
theorem InSync.write (hL : L.Sound theirs) (h : InSync payload size k d.loader)
    (hk : k < numPackets size) :
    InSync payload size k
        (L.handle theirs (.transportWrite (dataPacket char payload size k)) d).2.loader ∧
      ∃ answer : List U8, (answer.filter isResponse).length ≤ 1 ∧
        (L.handle theirs (.transportWrite (dataPacket char payload size k)) d).2.pending =
          d.pending ++ answer ∧
        (ack ∈ answer → Holds payload size (k + 1)
          (L.handle theirs (.transportWrite (dataPacket char payload size k)) d).2.loader) := by
  let buf := L.forth d.writes (dataPacket char payload size k)
  have hbuf : buf = dataPacket char payload size k ∨ unframe theirs buf = none ∧ buf ≠ [eot] := by
    rcases hL.forth d.writes (dataPacket char payload size k) with heq | hbad
    · exact Or.inl heq
    · exact Or.inr hbad
  obtain ⟨hsync, hacked⟩ := h.takes hk hbuf
  refine ⟨hsync, L.back d.writes (d.loader.takes theirs buf).1, hL.back _ _, ?_,
    fun hmem => hacked (hL.acks _ _ hmem)⟩
  show d.pending ++ _ ++ (if (d.loader.takes theirs buf).2.finished = true then _ else []) = _
  rw [if_neg (by rw [hsync.running]; exact Bool.false_ne_true), List.append_nil]

/-- While packet `k` is sent, the bootloader stays in step. -/
theorem InSync.sends (hL : L.Sound theirs) (h : InSync payload size k d.loader)
    (hk : k < numPackets size)
    (hsends : ∀ ev ∈ tr, Sends (dataPacket char payload size k) ev.1) :
    InSync payload size k (after (L.handle theirs) d tr).loader := by
  induction tr generalizing d with
  | nil => exact h
  | cons ev tr ih =>
    obtain ⟨e, reply⟩ := ev
    refine ih ?_ fun ev hev => hsends ev (List.mem_cons_of_mem _ hev)
    rcases hsends ⟨e, reply⟩ List.mem_cons_self with rfl | hw
    · exact (h.write hL hk).1
    · rcases waits_iff.mp hw with rfl | rfl
      · show InSync payload size k (L.read d).2.loader
        rcases L.read_cases d with ⟨-, -, hd⟩ | ⟨b, pending, -, -, -, hd⟩
        · rw [hd]
          exact h
        · rw [hd]
          exact h
      · exact h

/-- No answer is on the line. -/
def Wire.Clear (d : Wire) : Prop :=
  d.pending.filter isResponse = []

/-- One response has been read off the line, and there was one at most. -/
theorem clear_of_response {noise rest : List U8} {b : U8}
    (hone : ((noise ++ [b] ++ rest).filter isResponse).length ≤ 1) (hb : isResponse b = true) :
    rest.filter isResponse = [] := by
  rw [List.filter_append, List.filter_append, List.length_append, List.length_append,
    List.filter_cons_of_pos hb] at hone
  simp only [List.filter_nil, List.length_singleton] at hone
  exact List.length_eq_zero_iff.mp (by omega)

/-- **A round keeps the two sides in step**: behind it the bootloader has the packets that are
acknowledged then, and no answer is left. -/
theorem InSync.round {payloadLen : SizeT} {r : Round} (hL : L.Sound theirs)
    (hv : r.Valid char fuel payload payloadLen)
    (hr : r.packet = dataPacket char payload size k) (hk : k < numPackets size)
    (hf : Follows (L.handle theirs) d r.events) (h : InSync payload size k d.loader)
    (hclear : d.Clear) :
    InSync payload size (k + if r.acked = true then 1 else 0)
        (after (L.handle theirs) d r.events).loader ∧
      (after (L.handle theirs) d r.events).Clear := by
  obtain ⟨w, wait, report, -, hwait, hevs, hreport⟩ := hv.exchange
  rw [hr] at hevs
  rw [hevs] at hf ⊢
  obtain ⟨-, hf⟩ := hf
  obtain ⟨hsync, answer, hone, hpending, hacked⟩ := @InSync.write char theirs payload size k L d hL h hk
  change Follows _ _ (wait ++ report) at hf
  show InSync _ _ _ (after _ (L.handle theirs (.transportWrite _) d).2 (wait ++ report)).loader ∧
    (after _ (L.handle theirs (.transportWrite _) d).2 (wait ++ report)).Clear
  generalize (L.handle theirs (.transportWrite (dataPacket char payload size k)) d).2 = d₁ at *
  -- The answer is read behind the packet.
  have hresp : isResponse r.answer = true := by
    rcases getClientResponse_runs hwait with hno | ⟨-, hresp⟩
    · exact absurd hno (Int.lt_irrefl 0)
    · exact hresp
  have hquiet := written_of_waits ((getClientResponse_only fuel 0).runs hwait)
  have hsilent : written report = [] ∧ received report = [] := by
    split at hreport
    next =>
      obtain ⟨x, rfl⟩ := hreport
      exact ⟨rfl, rfl⟩
    next =>
      rw [hreport]
      exact ⟨rfl, rfl⟩
  obtain ⟨hloader, hline⟩ := Line.received hf (by rw [written_append, hquiet, hsilent.1]; rfl)
  obtain ⟨noise, hnoise, -⟩ := getClientResponse_received hwait
    (fun h0 => by rw [← h0] at hresp; cases hresp) (Line.clean (follows_append.mp hf).1)
  rw [received_append, hnoise, hsilent.2, List.append_nil, hpending] at hline
  have hlength : ((noise ++ [r.answer] ++
      (after (L.handle theirs) d₁ (wait ++ report)).pending).filter isResponse).length ≤ 1 := by
    rw [← hline, List.filter_append, hclear]
    exact hone
  refine ⟨?_, clear_of_response hlength hresp⟩
  rw [hloader]
  split
  next hack =>
    -- An `ACK` on the line is one for this packet.
    have hmem : ack ∈ d.pending ++ answer := by
      rw [hline, ← show r.answer = ack from of_decide_eq_true hack]
      simp
    rcases List.mem_append.mp hmem with hold | hnew
    · have := List.mem_filter.mpr ⟨hold, show isResponse ack = true from rfl⟩
      rw [hclear] at this
      cases this
    · exact Or.inl (hacked hnew)
  next => exact hsync

/-- So do all the rounds of the data loop. -/
theorem InSync.rounds {payloadLen : SizeT} {rounds : List Round} (hL : L.Sound theirs)
    (hsent : Sent char fuel payload payloadLen rounds)
    (hf : Follows (L.handle theirs) d (rounds.flatMap Round.events))
    (h : Holds payload payloadLen.toNat 0 d.loader) (hclear : d.Clear) {n : Nat}
    (hn : n ≤ rounds.length) :
    InSync payload payloadLen.toNat ((rounds.take n).countP Round.acked)
        (after (L.handle theirs) d ((rounds.take n).flatMap Round.events)).loader ∧
      (after (L.handle theirs) d ((rounds.take n).flatMap Round.events)).Clear := by
  induction n with
  | zero => exact ⟨Or.inl h, hclear⟩
  | succ n ih =>
    obtain ⟨hsync, hclear⟩ := ih (Nat.le_of_succ_le hn)
    have hget : rounds[n]? = some rounds[n] := List.getElem?_eq_getElem hn
    have htake : rounds.take (n + 1) = rounds.take n ++ [rounds[n]] :=
      List.take_succ_eq_append_getElem hn
    have hfollows : Follows (L.handle theirs)
        (after (L.handle theirs) d ((rounds.take n).flatMap Round.events)) rounds[n].events := by
      rw [← List.take_append_drop (n + 1) rounds, htake, List.flatMap_append, List.flatMap_append,
        List.append_assoc, follows_append, List.flatMap_singleton, follows_append] at hf
      exact hf.2.1
    have hround := hsync.round hL (hsent.valid _ (List.getElem_mem hn)) (hsent.inStep n _ hget)
      (hsent.room n _ hget) hfollows hclear
    rw [htake, List.flatMap_append, List.flatMap_singleton, after_append, List.countP_append,
      List.countP_singleton]
    exact hround

/-! ## The end of the transfer -/

/-- Behind the last packet: the bootloader has the payload, and an `ACK` on the line is for the
end of transmission. -/
structure Settled (payload : Ptr) (size : Nat) (d : Wire) : Prop where
  image : d.loader.image = whole payload size
  told : ack ∈ d.pending → d.loader.finished = true

theorem settled_of_sync (h : InSync payload size (numPackets size) d.loader) (hclear : d.Clear) :
    Settled payload size d := by
  refine ⟨?_, fun hmem => ?_⟩
  · rcases h with h | ⟨hno, -⟩
    · exact h.whole
    · exact absurd hno (Nat.lt_irrefl _)
  · have := List.mem_filter.mpr ⟨hmem, show isResponse ack = true from rfl⟩
    rw [hclear] at this
    cases this

/-- The letters that are sent do not change the image, and only the end of transmission is
acknowledged. -/
theorem Settled.write (hL : L.Sound theirs) (h : Settled payload size d) {letter : U8} :
    Settled payload size (L.handle theirs (.transportWrite [letter]) d).2 ∧
      (d.loader.finished = true →
        (L.handle theirs (.transportWrite [letter]) d).2.loader.finished = true) := by
  -- What arrives is the letter or noise; only one letter means something.
  have htakes : d.loader.takes theirs (L.forth d.writes [letter]) =
        (ack, { d.loader with finished := true }) ∨
      d.loader.takes theirs (L.forth d.writes [letter]) = (nak, d.loader) := by
    by_cases heot : L.forth d.writes [letter] = [eot]
    · exact Or.inl (if_pos heot)
    · rcases hL.forth d.writes [letter] with heq | ⟨hnone, hne⟩
      · exact Or.inr (takes_noise (by rw [heq]; rfl) heot)
      · exact Or.inr (takes_noise hnone hne)
  unfold Line.handle
  dsimp only
  rcases htakes with htakes | htakes
  · rw [htakes]
    exact ⟨⟨h.image, fun _ => rfl⟩, fun _ => rfl⟩
  · rw [htakes]
    refine ⟨⟨h.image, fun hmem => ?_⟩, id⟩
    by_cases hfin : d.loader.finished = true
    · exact hfin
    · rw [if_neg hfin, List.append_nil] at hmem
      rcases List.mem_append.mp hmem with hold | hnew
      · exact h.told hold
      · cases hL.acks _ _ hnew

/-- Each call behind the data loop. -/
theorem Settled.call {payloadLen : SizeT} (hL : L.Sound theirs) (h : Settled payload size d)
    {c : Call} (hc : Finishes payloadLen c) :
    Settled payload size (L.handle theirs c d).2 ∧
      (d.loader.finished = true → (L.handle theirs c d).2.loader.finished = true) := by
  rcases hc with rfl | rfl | hw | rfl | rfl
  · exact h.write hL
  · exact h.write hL
  · rcases waits_iff.mp hw with rfl | rfl
    · show Settled payload size (L.read d).2 ∧ (_ → (L.read d).2.loader.finished = true)
      rcases L.read_cases d with ⟨-, -, hd⟩ | ⟨b, pending, hp, -, -, hd⟩
      · rw [hd]
        exact ⟨⟨h.image, h.told⟩, id⟩
      · rw [hd]
        refine ⟨⟨h.image, fun hmem => h.told ?_⟩, id⟩
        rw [hp]
        exact List.mem_cons_of_mem _ hmem
    · exact ⟨⟨h.image, h.told⟩, id⟩
  · exact ⟨⟨h.image, h.told⟩, id⟩
  · exact ⟨⟨h.image, h.told⟩, id⟩

/-- All of them; and where an `ACK` is read, the bootloader has finished. -/
theorem Settled.calls {payloadLen : SizeT} (hL : L.Sound theirs) (h : Settled payload size d)
    (hcalls : ∀ ev ∈ tr, Finishes payloadLen ev.1) (hf : Follows (L.handle theirs) d tr) :
    Settled payload size (after (L.handle theirs) d tr) ∧
      ((d.loader.finished = true ∨
          ∃ r : ReadReply, (⟨.transportRead, r⟩ : Ev) ∈ tr ∧ r.stored = some ack) →
        (after (L.handle theirs) d tr).loader.finished = true) := by
  induction tr generalizing d with
  | nil =>
    refine ⟨h, ?_⟩
    rintro (hfin | ⟨r, hr, -⟩)
    · exact hfin
    · cases hr
  | cons ev tr ih =>
    obtain ⟨e, reply⟩ := ev
    obtain ⟨rfl, hf⟩ := hf
    obtain ⟨hsettled, hkeeps⟩ := h.call hL (hcalls _ List.mem_cons_self)
    obtain ⟨hend, hfin⟩ := ih hsettled (fun ev hev => hcalls ev (List.mem_cons_of_mem _ hev)) hf
    refine ⟨hend, ?_⟩
    rintro (hd | ⟨r, hr, hack⟩)
    · exact hfin (Or.inl (hkeeps hd))
    · rcases List.mem_cons.mp hr with heq | hr
      · refine hfin (Or.inl (hkeeps (h.told ?_)))
        cases e with
        | transportRead =>
          obtain rfl : r = (L.read d).1 := eq_of_heq (Sigma.mk.inj heq).2
          rcases L.read_cases d with ⟨-, hnone, -⟩ | ⟨b, pending, hp, -, hstored, -⟩
          · rw [hnone] at hack
            cases hack
          · rw [hstored] at hack
            rw [hp, Option.some.inj hack]
            exact List.mem_cons_self
        | transportWrite | gettime | sleepMs | progress => cases heq
      · exact hfin (Or.inr ⟨r, hr, hack⟩)

/-! ## The transfer -/

/-- A transfer ends in the wait for the receiver, or comes to the data loop behind it. -/
theorem xmodemSend_begins {payloadLen : SizeT} {cb : Callbacks} {out : Option Int}
    (h : Traces (xmodemSend char fuel cb (some payload) payloadLen) tr out) :
    (written tr = [] ∧ out ≠ some 0) ∨
    ∃ start mid ret, 1 ≤ payloadLen.toNat ∧ Runs (waitFor fuel ccc) start ret ∧ 0 ≤ ret ∧
      tr = start ++ mid ∧ Traces (sendData char fuel payload payloadLen >>= fun
        | .error ret => pure ret
        | .ok s => finishTransfer fuel payloadLen s.offset) mid out := by
  unfold xmodemSend at h
  dsimp only at h
  split at h
  next =>
    obtain ⟨rfl, rfl⟩ := traces_pure.mp h
    exact Or.inl ⟨rfl, by decide⟩
  next hlong =>
    rw [BitVec.lt_def] at hlong
    split at h
    next =>
      obtain ⟨rfl, rfl⟩ := traces_pure.mp h
      exact Or.inl ⟨rfl, by decide⟩
    next =>
      rcases traces_bind.mp h with ⟨hwait, rfl⟩ | ⟨start, ret, mid, hwait, hrest, rfl⟩
      · exact Or.inl ⟨written_of_waits ((waitFor_only ccc).cut hwait), nofun⟩
      · split at hrest
        next hneg =>
          obtain ⟨rfl, rfl⟩ := traces_pure.mp hrest
          rw [List.append_nil]
          refine Or.inl ⟨written_of_waits ((waitFor_only ccc).runs hwait), fun hzero => ?_⟩
          rw [Option.some.inj hzero] at hneg
          exact absurd hneg (Int.lt_irrefl 0)
        next hneg =>
          exact Or.inr ⟨start, mid, ret, Nat.not_lt.mp hlong, hwait, Int.not_lt.mp hneg, rfl, hrest⟩

/-- In the data loop, and where it has been left with an error. -/
theorem Sending.agrees {payloadLen : SizeT} (h : Sending char fuel payload payloadLen tr)
    (hL : L.Sound theirs) (hf : Follows (L.handle theirs) d tr)
    (hstart : Holds payload payloadLen.toNat 0 d.loader) (hclear : d.Clear) :
    (after (L.handle theirs) d tr).loader.image <+: whole payload payloadLen.toNat ∧
      (after (L.handle theirs) d tr).loader.finished = false := by
  obtain ⟨rounds, last, hsent, hmore, hsends, -, rfl⟩ := h
  have hrounds := InSync.rounds hL hsent (follows_append.mp hf).1 hstart hclear (Nat.le_refl _)
  rw [List.take_length] at hrounds
  have hsync := hrounds.1.sends hL hmore hsends
  rw [after_append]
  exact ⟨hsync.image, hsync.running⟩

/-- A transfer to a bootloader that has nothing yet, with one response on the line at most. -/
theorem Line.Sound.agrees {payloadLen : SizeT} {cb : Callbacks} {out : Option Int}
    (hL : L.Sound theirs) (hsmall : payloadLen.toNat < 0x100000000)
    (h : Traces (xmodemSend char fuel cb (some payload) payloadLen) tr out)
    (hf : Follows (L.handle theirs) d tr) (hloader : d.loader = ⟨1, [], false⟩)
    (hone : (d.pending.filter isResponse).length ≤ 1) :
    let m := (after (L.handle theirs) d tr).loader
    m.image <+: whole payload payloadLen.toNat ∧
      (m.finished = true → m.image = whole payload payloadLen.toNat) ∧
      (out = some 0 → m.finished = true) := by
  intro m
  have hstart : Holds payload payloadLen.toNat 0 d.loader := hloader ▸ ⟨rfl, rfl, rfl⟩
  rcases xmodemSend_begins h with ⟨hno, hout⟩ | ⟨start, mid, ret, hpos, hwait, hret, rfl, hmid⟩
  · have hm : m = ⟨1, [], false⟩ := (Line.received hf hno).1.trans hloader
    rw [hm]
    exact ⟨List.nil_prefix, nofun, fun hzero => absurd hzero hout⟩
  have hquiet := written_of_waits ((waitFor_only ccc).runs hwait)
  obtain ⟨hf₀, hf⟩ := follows_append.mp hf
  -- The letter C has been read, and no other answer is on the line.
  obtain ⟨hloader, hline⟩ := Line.received hf₀ hquiet
  have hclear : (after (L.handle theirs) d start).Clear := by
    obtain ⟨front, back, hsplit⟩ :=
      List.append_of_mem (waitFor_received hwait hret (Line.clean hf₀) (by decide))
    rw [hline, hsplit, List.append_cons, List.append_assoc _ back] at hone
    have hrest := clear_of_response hone rfl
    rw [List.filter_append] at hrest
    exact (List.append_eq_nil_iff.mp hrest).2
  have hm : m = (after (L.handle theirs) (after (L.handle theirs) d start) mid).loader :=
    congrArg Wire.loader (after_append _ _ _)
  rw [← hloader] at hstart
  rw [hm]
  generalize after (L.handle theirs) d start = d at *
  rcases traces_bind.mp hmid with ⟨hdata, rfl⟩ | ⟨data, res, fin, hdata, hfin, rfl⟩
  · rcases sendData_traces hpos hsmall hdata.traces with ⟨-, hsending⟩ | ⟨_, _, hno, -⟩
    · obtain ⟨himage, hopen⟩ := hsending.agrees hL hf hstart hclear
      exact ⟨himage, fun hfin => absurd (hfin.symm.trans hopen) (by decide), nofun⟩
    · cases hno
  · rcases sendData_traces hpos hsmall hdata.traces with ⟨herr, hsending⟩ |
      ⟨s, rounds, hok, hsent, hall, hoff, rfl⟩
    · obtain ⟨err, rfl, hneg⟩ := herr res rfl
      obtain ⟨rfl, rfl⟩ := traces_pure.mp hfin
      rw [List.append_nil] at hf ⊢
      obtain ⟨himage, hopen⟩ := hsending.agrees hL hf hstart hclear
      refine ⟨himage, fun hfin => absurd (hfin.symm.trans hopen) (by decide), fun hzero => ?_⟩
      rw [Option.some.inj hzero] at hneg
      exact absurd hneg (Int.lt_irrefl 0)
    · obtain rfl := Option.some.inj hok
      have hend : s.offset = payloadLen.setWidth 32 := by
        apply BitVec.eq_of_toNat_eq
        rw [hoff, BitVec.toNat_setWidth]
        omega
      change Traces (finishTransfer fuel payloadLen s.offset) fin out at hfin
      rw [hend] at hfin
      obtain ⟨hf₁, hf₂⟩ := follows_append.mp hf
      have hrounds := InSync.rounds hL hsent hf₁ hstart hclear (Nat.le_refl _)
      rw [List.take_length, hall] at hrounds
      obtain ⟨hsettled, hheard⟩ := (settled_of_sync hrounds.1 hrounds.2).calls hL
        (finishTransfer_only.traces hfin) hf₂
      rw [after_append]
      refine ⟨hsettled.image ▸ List.prefix_refl _, fun _ => hsettled.image, fun hzero => ?_⟩
      obtain ⟨front, w, rfl, tries, last, tail, rfl, hacked, -⟩ :=
        (finishTransfer_traces hfin (Line.clean hf₂)).sound.1 hzero
      obtain ⟨w', wait, rest, rfl, -, ⟨front', r, now, rfl, -, hstored⟩, -⟩ := hacked
      exact hheard (Or.inr ⟨r, by simp, hstored⟩)

/-- **The two ends agree.** Whatever the line does, short of repeating answers, and whichever
calls fail: at every point of a transfer the bootloader has the first packets of the payload;
where it has seen the end of transmission it has the whole payload; and the sender returns 0
only where it has. -/
theorem bootloader_agrees {payloadLen : SizeT} {cb : Callbacks} {out : Option Int}
    (hL : L.Sound theirs) (hsmall : payloadLen.toNat < 0x100000000)
    (h : Traces (xmodemSend char fuel cb (some payload) payloadLen) tr out)
    (hf : Follows (L.handle theirs) L.start tr) :
    let m := (after (L.handle theirs) L.start tr).loader
    m.image <+: whole payload payloadLen.toNat ∧
      (m.finished = true → m.image = whole payload payloadLen.toNat) ∧
      (out = some 0 → m.finished = true) :=
  hL.agrees hsmall h hf rfl hL.hello

end

theorem patchyLine_sound (char : PlainChar) : patchyLine.Sound char where
  forth n buf := by
    rcases (patchyLine_good char ⟨fun _ => 0, 0⟩ 0).forth n with hintact | hbad
    · exact Or.inl (hintact buf)
    · exact Or.inr (hbad buf)
  back _ _ := List.length_filter_le _ _
  acks _ _ h := (List.mem_singleton.mp h).symm
  hello := by decide

/-- A transfer over the line that loses every other buffer, with a success that is one. -/
theorem bootloader_agrees_patchy :
    ∃ tr, Runs (xmodemSend .signed 200 ⟨true⟩ (some ⟨fun i => BitVec.ofNat 8 i, 5⟩) 300) tr 0 ∧
      let m := (after (patchyLine.handle .unsigned) patchyLine.start tr).loader
      m.image <+: whole ⟨fun i => BitVec.ofNat 8 i, 5⟩ 300 ∧
        (m.finished = true → m.image = whole ⟨fun i => BitVec.ofNat 8 i, 5⟩ 300) ∧
        m.finished = true := by
  obtain ⟨d, hends, -⟩ := @Line.Good.upload .signed .unsigned 200 ⟨fun i => BitVec.ofNat 8 i, 5⟩ 200
    300 patchyLine patchyLine.start (patchyLine_good _ _ _) (by decide) (by decide) [] rfl
    List.not_mem_nil rfl (by decide) (by decide)
  obtain ⟨tr, hrun, hf, -⟩ := hends.follows
  obtain ⟨hbegin, hwhole, hfin⟩ :=
    bootloader_agrees (patchyLine_sound .unsigned) (by decide) hrun.traces hf
  exact ⟨tr, hrun, hbegin, hwhole, hfin rfl⟩

end HostInterface.Xmodem
