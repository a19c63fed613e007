import HostInterface.Xmodem.Attempts
import HostInterface.Xmodem.Bootloader

/-!
# Uploads that come through

The other half of the agreement of the two ends. On a line whose answers arrive as they were
sent and on which no packet is damaged more than `maxAttempts` times in a row
(`Line.Good`), `ll_xmodem_send` ends: it returns 0, and the bootloader has the payload and
has seen the end of transmission.

The potential of the data loop is the number of answers it can still get, `maxAttempts + 1` for
each packet less the refusals of the one outstanding; each turn takes one (`data_ends`). The
refusals counted are those of the last writes, one after the other, so a line that is good
has to let the packet through before they are too many.
-/

namespace HostInterface.Xmodem

open Interact Prog

/-- The `n`th buffer arrives as it was written. -/
def Line.Intact (L : Line) (n : Nat) : Prop :=
  ∀ buf, L.forth n buf = buf

/-- A line on which every packet comes through in the end, and nothing takes too long: no wait
takes more than `span` calls, and `span` calls take less than the timeout. The end of
transmission is sent in up to 17 turns of 5 calls. -/
structure Line.Good (L : Line) (char : PlainChar) (payload : Ptr) (size span : Nat) : Prop where
  forth : ∀ n, L.Intact n ∨ ∀ buf, unframe char (L.forth n buf) = none ∧ L.forth n buf ≠ [eot]
  often : ∀ n, ∃ j, j ≤ maxAttempts ∧ L.Intact (n + j)
  back : ∀ n a, L.back n a = [a]
  result : ∀ n, 0 ≤ L.result n
  reads : ∀ n, L.fails n = false
  timely : ∀ i j, i ≤ j → j ≤ i + span → llDifftime (L.clock i) (L.clock j) < timeout
  turns : 86 ≤ span
  text : 2 * (L.tell (whole payload size)).length + 1 ≤ span
  hello : L.hello = [ccc]
  tell : (L.tell (whole payload size)).filter (fun b => !isFiller b) = contentText

section

variable {char theirs : PlainChar} {fuel : Nat} {payload : Ptr} {size span k : Nat}
  {payloadLen : SizeT} {L : Line} {d : Wire} {s : Transfer}

/-! ## One answer -/

theorem Line.Good.read (hL : L.Good theirs payload size span) {b : U8} {rest : List U8}
    (hd : d.pending = b :: rest) :
    L.read d = (⟨0, some b, fun _ => rfl⟩, { d with calls := d.calls + 1, pending := rest }) := by
  have hbytes : (if L.fails d.calls then [] else d.pending) = b :: rest := by
    rw [if_neg (by rw [hL.reads]; exact Bool.false_ne_true), hd]
  unfold Line.read
  rw [hbytes]

theorem Line.Good.inTime (hL : L.Good theirs payload size span) {i j : Nat} (hij : i ≤ j)
    (hspan : j ≤ i + span) : ¬ timeout ≤ llDifftime (L.clock i) (L.clock j) :=
  Int.not_le.mpr (hL.timely i j hij hspan)

/-- One byte for the wait for a response that began at `i`. -/
theorem Line.Good.responseTurn (hL : L.Good theirs payload size span) {b : U8} {rest : List U8}
    (hd : d.pending = b :: rest) {i : Nat} (hi : i ≤ d.calls) (hspan : d.calls + 1 ≤ i + span)
    (old : U8) :
    Ends (L.handle theirs) (clientResponseTurn (L.clock i) old) d
      (if isResponse b = true then .stop (0, b) else .next b)
      { d with calls := d.calls + 2, pending := rest } := by
  refine .call_of (hL.read hd) ?_
  dsimp only
  rw [if_neg (by decide)]
  refine Ends.bind (.call (.done _ _)) ?_
  show Ends _ (if timeout ≤ llDifftime (L.clock _) (L.clock _) then _ else _) _ _ _
  rw [if_neg (hL.inTime (Nat.le_succ_of_le hi) hspan)]
  exact .done _ _

/-- A response on the line is the answer. -/
theorem Line.Good.wait (hL : L.Good theirs payload size span) {b : U8} {rest : List U8}
    (hd : d.pending = b :: rest) (hb : isResponse b = true) (old : U8) :
    Ends (L.handle theirs) (getClientResponse (fuel + 1) old) d (0, b)
      { d with calls := d.calls + 3, pending := rest } := by
  have hspan := hL.turns
  have hturn := hL.responseTurn (d := { d with calls := d.calls + 1 }) hd (Nat.le_succ d.calls)
    (by dsimp only; omega) old
  rw [if_pos hb] at hturn
  exact .call (hturn.bind (.done _ _))

/-- What is no response is skipped. -/
theorem Line.Good.skip (hL : L.Good theirs payload size span) {noise rest : List U8} {b : U8}
    (hd : d.pending = noise ++ b :: rest) (hnoise : ∀ x ∈ noise, ¬ isResponse x = true)
    (hb : isResponse b = true) (hfuel : noise.length < fuel) {i : Nat} (hi : i ≤ d.calls)
    (hspan : d.calls + 2 * noise.length + 1 ≤ i + span) (old : U8) :
    Ends (L.handle theirs) (iterate (clientResponseTurn (L.clock i)) fuel old) d (0, b)
      ⟨d.calls + 2 * noise.length + 2, d.writes, rest, d.loader⟩ := by
  induction noise generalizing d fuel old with
  | nil =>
    obtain ⟨fuel, rfl⟩ := Nat.exists_eq_succ_of_ne_zero (Nat.ne_of_gt hfuel)
    have hturn := hL.responseTurn hd hi hspan old
    rw [if_pos hb] at hturn
    exact hturn.bind (.done _ _)
  | cons x noise ih =>
    obtain ⟨fuel, rfl⟩ := Nat.exists_eq_succ_of_ne_zero (Nat.ne_of_gt (Nat.zero_lt_of_lt hfuel))
    rw [List.length_cons] at hspan
    have hturn := hL.responseTurn hd hi (by omega) old
    rw [if_neg (hnoise x List.mem_cons_self)] at hturn
    have hrest := ih (d := { d with calls := d.calls + 2, pending := noise ++ b :: rest }) rfl
      (fun y hy => hnoise y (List.mem_cons_of_mem _ hy)) (Nat.lt_of_succ_lt_succ hfuel)
      (Nat.le_add_right_of_le hi) (by dsimp only; omega) x
    have hcalls : d.calls + 2 + 2 * noise.length + 2 = d.calls + 2 * (x :: noise).length + 2 := by
      rw [List.length_cons]
      omega
    rw [← hcalls]
    exact hturn.bind hrest

/-- A turn of the wait for one response, which comes to the first one on the line. -/
theorem Line.Good.waitTurn (hL : L.Good theirs payload size span) {noise rest : List U8} {b : U8}
    (hd : d.pending = noise ++ b :: rest) (hnoise : ∀ x ∈ noise, ¬ isResponse x = true)
    (hb : isResponse b = true) (hfuel : noise.length < fuel) {i : Nat} (hi : i ≤ d.calls)
    (hspan : d.calls + 2 * noise.length + 3 ≤ i + span) (hlen : 2 * noise.length + 2 ≤ span)
    (response old : U8) :
    Ends (L.handle theirs) (waitForTurn fuel response (L.clock i) old) d
      (if response = b then .stop 0 else .next b)
      ⟨d.calls + 2 * noise.length + 4, d.writes, rest, d.loader⟩ := by
  have hskip := hL.skip (d := { d with calls := d.calls + 1 }) hd hnoise hb hfuel
    (Nat.le_succ d.calls) (by dsimp only; omega) old
  have hcalls : d.calls + 1 + 2 * noise.length + 2 = d.calls + 2 * noise.length + 3 := by omega
  dsimp only at hskip
  rw [hcalls] at hskip
  refine Ends.bind (.call hskip) ?_
  dsimp only
  rw [if_neg (Int.lt_irrefl 0)]
  refine Ends.bind (.call (.done _ _)) ?_
  show Ends _ (if timeout ≤ llDifftime (L.clock _) (L.clock _) then _ else _) _ _ _
  rw [if_neg (hL.inTime (by omega) hspan)]
  exact .done _ _

/-- **The wait for a response** ends behind the first one of its kind, whatever comes before. -/
theorem Line.Good.waitFor (hL : L.Good theirs payload size span) {before rest : List U8}
    {response : U8} (hd : d.pending = before ++ response :: rest) (hbefore : response ∉ before)
    (hresp : isResponse response = true) (hfuel : before.length < fuel)
    (hspan : 4 * before.length + 5 ≤ span) :
    ∃ c, Ends (L.handle theirs) (Xmodem.waitFor fuel response) d 0
      ⟨c, d.writes, rest, d.loader⟩ := by
  -- By induction on the turns that are left; a byte takes at most four calls.
  have hturns : ∀ (turns : Nat) {before : List U8} {d : Wire} (old : U8) {i : Nat}, i ≤ d.calls →
      d.calls + 4 * before.length + 4 ≤ i + span → 4 * before.length + 5 ≤ span →
      before.length < turns → before.length < fuel → d.pending = before ++ response :: rest →
      response ∉ before →
      ∃ c, Ends (L.handle theirs) (iterate (waitForTurn fuel response (L.clock i)) turns old) d 0
        ⟨c, d.writes, rest, d.loader⟩ := by
    intro turns
    induction turns with
    | zero => exact fun _ _ _ _ _ hlt => absurd hlt (Nat.not_lt_zero _)
    | succ turns ih =>
      intro before d old i hi hspan hlong hlt hfuel hd hbefore
      cases hfirst : before.find? isResponse with
      | none =>
        have hturn := hL.waitTurn hd (List.find?_eq_none.mp hfirst) hresp hfuel hi (by omega)
          (by omega) response old
        rw [if_pos rfl] at hturn
        exact ⟨_, hturn.bind (.done _ _)⟩
      | some b =>
        obtain ⟨hb, noise, behind, rfl, hnoise⟩ := List.find?_eq_some_iff_append.mp hfirst
        rw [List.mem_append, List.mem_cons, not_or, not_or] at hbefore
        rw [List.length_append, List.length_cons] at hlt hfuel hspan hlong
        rw [List.append_assoc, List.cons_append] at hd
        have hturn := hL.waitTurn hd (fun x hx => by simpa using hnoise x hx) hb
          (show noise.length < fuel by omega) hi (by omega) (by omega) response old
        rw [if_neg hbefore.2.1] at hturn
        obtain ⟨c', hrest⟩ := @ih behind
          ⟨d.calls + 2 * noise.length + 4, d.writes, behind ++ response :: rest, d.loader⟩ b i
          (by dsimp only; omega) (by dsimp only; omega) (by omega) (by omega) (by omega) rfl
          hbefore.2.2
        exact ⟨c', hturn.bind hrest⟩
  obtain ⟨c, hends⟩ := @hturns fuel before { d with calls := d.calls + 1 } 0 d.calls
    (Nat.le_succ _) (by dsimp only; omega) hspan hfuel hfuel hd hbefore
  exact ⟨c, .call hends⟩

/-- What a buffer of one letter is answered with. -/
theorem Line.Good.takes_letter (hL : L.Good theirs payload size span) (n : Nat) (m : Bootloader)
    (letter : U8) :
    m.takes theirs (L.forth n [letter]) =
      if L.forth n [letter] = [eot] then (ack, { m with finished := true }) else (nak, m) := by
  split
  next heot => exact if_pos heot
  next hne =>
    refine takes_noise ?_ hne
    rcases hL.forth n with hintact | hbad
    · rw [hintact]
      rfl
    · exact (hbad _).1

/-! ## The data loop -/

/-- A turn against a bootloader that answers `b`. -/
theorem Line.Good.turn (hL : L.Good theirs payload size span) (hs : s.Next payloadLen k)
    (hd : d.pending = []) {b : U8} {m : Bootloader}
    (htakes : d.loader.takes theirs
      (L.forth d.writes (dataPacket char payload payloadLen.toNat k)) = (b, m))
    (hopen : m.finished = false) (hb : isResponse b = true) :
    ∃ c, Ends (L.handle theirs) (dataTurn char (fuel + 1) payload payloadLen s) d
      (whileTest payloadLen (respond payloadLen s b)) ⟨c, d.writes + 1, [], m⟩ := by
  have hwrite : (L.handle theirs (.transportWrite (dataPacket char payload payloadLen.toNat k)) d) =
      (L.result d.writes, ⟨d.calls + 1, d.writes + 1, [b], m⟩) := by
    show (L.result d.writes, Wire.mk _ _ (d.pending ++ L.back _ _ ++ _) _) = _
    rw [htakes, hd, hL.back, hopen]
    rfl
  have hpacket : Ends (L.handle theirs) (sendPacket char (fuel + 1)
      ⟨payload.mem, payload.off + s.offset.toNat⟩
      ((bytesToSend payloadLen s.offset).setWidth 16) s.packetNumber) d (b.toNat : Int)
      ⟨d.calls + 4, d.writes + 1, [], m⟩ := by
    unfold sendPacket
    rw [if_neg (Nat.not_lt.mpr (bytesToSend_le s.offset)),
      buildPacket_eq (by rw [Ptr.length_bytes]; exact bytesToSend_le s.offset), frame_next hs]
    refine .call_of hwrite ?_
    dsimp only
    rw [if_neg (Int.not_lt.mpr (hL.result _))]
    refine (hL.wait rfl hb 0).bind ?_
    dsimp only
    rw [if_neg (by decide)]
    exact .done _ _
  have hresponse : ∃ c, Ends (L.handle theirs) (handleResponse payloadLen s
      (bytesToSend payloadLen s.offset) (b.toNat : Int)) ⟨d.calls + 4, d.writes + 1, [], m⟩
      (respond payloadLen s b) ⟨c, d.writes + 1, [], m⟩ := by
    rw [handleResponse_eq]
    split
    next => exact ⟨_, .call (.done _ _)⟩
    next => exact ⟨_, .done _ _⟩
  obtain ⟨c, hresponse⟩ := hresponse
  exact ⟨c, (hpacket.bind hresponse).bind (.done _ _)⟩

/-- The refusals counted are those of the last writes. -/
def Refused (L : Line) (s : Transfer) (d : Wire) : Prop :=
  s.atmptNum.toNat ≤ d.writes ∧ ∀ j, j < s.atmptNum.toNat → ¬ L.Intact (d.writes - 1 - j)

/-- A packet that is damaged once more has not been refused too often. -/
theorem Line.Good.few (hL : L.Good theirs payload size span) (hr : Refused L s d)
    (hbad : ¬ L.Intact d.writes) (hle : s.atmptNum.toNat ≤ maxAttempts) :
    s.atmptNum.toNat < maxAttempts := by
  by_contra hfull
  have hmax : maxAttempts = 16 := rfl
  obtain ⟨j, hj, hintact⟩ := hL.often (d.writes - maxAttempts)
  have hwrites := hr.1
  rcases Nat.lt_or_eq_of_le hj with hlt | rfl
  · refine hr.2 (maxAttempts - 1 - j) (by omega) ?_
    rw [show d.writes - 1 - (maxAttempts - 1 - j) = d.writes - maxAttempts + j by omega]
    exact hintact
  · rw [show d.writes - maxAttempts + maxAttempts = d.writes by omega] at hintact
    exact hbad hintact

theorem whileTest_more (h : s.offset.toNat < payloadLen.toNat) :
    whileTest payloadLen (.ok s) = .next s :=
  if_pos (by rw [BitVec.lt_def, offset_toNat]; exact h)

theorem whileTest_done (h : payloadLen.toNat ≤ s.offset.toNat) :
    whileTest payloadLen (.ok s) = .stop (.ok s) :=
  if_neg (by rw [BitVec.lt_def, offset_toNat]; exact Nat.not_lt.mpr h)

/-- **The data loop ends**, with all the packets taken. -/
theorem Line.Good.data (hL : L.Good theirs payload payloadLen.toNat span)
    (hsmall : payloadLen.toNat < 0x100000000) (turns : Nat) :
    ∀ {s : Transfer} {k : Nat} {d : Wire}, s.Next payloadLen k →
      Holds payload payloadLen.toNat k d.loader → d.pending = [] → Refused L s d →
      s.atmptNum.toNat ≤ maxAttempts →
      17 * (numPackets payloadLen.toNat - k) ≤ turns + s.atmptNum.toNat →
      ∃ s' c w m, Ends (L.handle theirs)
          (iterate (dataTurn char (fuel + 1) payload payloadLen) turns s) d (.ok s') ⟨c, w, [], m⟩ ∧
        s'.offset = payloadLen.setWidth 32 ∧
        Holds payload payloadLen.toNat (numPackets payloadLen.toNat) m := by
  have hmax : maxAttempts = 16 := rfl
  induction turns with
  | zero =>
    intro s k d hs _ _ _ hle hturns
    have := numPackets_room.mpr hs.room
    omega
  | succ turns ih =>
    intro s k d hs hk hd hr hle hturns
    have hroom := numPackets_room.mpr hs.room
    by_cases hintact : L.Intact d.writes
    · -- The packet is taken.
      obtain ⟨m, htakes, hnext⟩ : ∃ m, d.loader.takes theirs
          (dataPacket char payload payloadLen.toNat k) = (ack, m) ∧
            Holds payload payloadLen.toNat (k + 1) m := hk.takes hroom
      obtain ⟨c, hturn⟩ := @Line.Good.turn char theirs fuel payload payloadLen.toNat span k
        payloadLen L d s hL hs hd ack m (by rw [hintact]; exact htakes) hnext.running rfl
      have hoff := hs.offset_ack hsmall
      have hok : respond payloadLen s ack = .ok
          ⟨s.offset + (bytesToSend payloadLen s.offset).setWidth 32, s.packetNumber + 1, 0⟩ :=
        if_pos rfl
      rw [hok] at hturn
      by_cases hmore : 128 * (k + 1) < payloadLen.toNat
      · rw [whileTest_more (by dsimp only; omega)] at hturn
        have hs' : Transfer.Next payloadLen (k + 1)
            ⟨s.offset + (bytesToSend payloadLen s.offset).setWidth 32, s.packetNumber + 1, 0⟩ :=
          ⟨by dsimp only; omega, by rw [← number_succ, ← hs.number], hmore⟩
        obtain ⟨s', c', w, m', hrest, hend⟩ := ih hs' (d := ⟨c, d.writes + 1, [], m⟩) hnext rfl
          ⟨Nat.zero_le _, fun j hj => absurd hj (Nat.not_lt_zero j)⟩ (Nat.zero_le _) (by
            show _ ≤ turns + 0
            omega)
        exact ⟨s', c', w, m', hturn.bind hrest, hend⟩
      · rw [whileTest_done (by dsimp only; omega)] at hturn
        have hlast : numPackets payloadLen.toNat = k + 1 := by
          unfold numPackets at hroom ⊢
          omega
        refine ⟨_, c, _, m, hturn.bind (.done _ _), ?_, hlast ▸ hnext⟩
        apply BitVec.eq_of_toNat_eq
        rw [hoff, BitVec.toNat_setWidth]
        omega
    · -- It is refused, and not for the last time.
      have hnoise := (hL.forth d.writes).resolve_left hintact
        (dataPacket char payload payloadLen.toNat k)
      obtain ⟨c, hturn⟩ := @Line.Good.turn char theirs fuel payload payloadLen.toNat span k
        payloadLen L d s hL hs hd nak d.loader (takes_noise hnoise.1 hnoise.2) hk.running rfl
      have hfew := hL.few hr hintact hle
      have hsucc : (s.atmptNum + 1).toNat = s.atmptNum.toNat + 1 := toNat_succ hle
      have hok : respond payloadLen s nak = .ok { s with atmptNum := s.atmptNum + 1 } := by
        unfold respond
        rw [if_neg (by decide), if_pos rfl]
        exact if_neg (by dsimp only; omega)
      rw [hok, whileTest_more (by dsimp only; rw [hs.offset]; exact hs.room)] at hturn
      have hr' : Refused L { s with atmptNum := s.atmptNum + 1 }
          ⟨c, d.writes + 1, [], d.loader⟩ := by
        refine ⟨by dsimp only; have := hr.1; omega, fun j hj => ?_⟩
        dsimp only at hj
        cases j with
        | zero => exact hintact
        | succ j =>
          show ¬ L.Intact (d.writes + 1 - 1 - (j + 1))
          rw [show d.writes + 1 - 1 - (j + 1) = d.writes - 1 - j by omega]
          exact hr.2 j (by omega)
      obtain ⟨s', c', w, m', hrest, hend⟩ := ih (k := k)
        (s := { s with atmptNum := s.atmptNum + 1 }) (d := ⟨c, d.writes + 1, [], d.loader⟩)
        ⟨hs.offset, hs.number, hs.room⟩ hk rfl hr'
        (by dsimp only; omega) (by dsimp only; omega)
      exact ⟨s', c', w, m', hturn.bind hrest, hend⟩

/-! ## The end of the transfer -/

/-- The end of transmission is sent until it arrives. -/
theorem Line.Good.closing (hL : L.Good theirs payload size span) (turns : Nat) :
    ∀ {d : Wire} {timeStart : Time} {response : U8}, d.pending = [] → d.loader.finished = false →
      (∃ i j, timeStart = L.clock i ∧ i ≤ d.calls ∧ d.calls + 5 * j + 4 ≤ i + span ∧ j < turns ∧
        L.Intact (d.writes + j)) →
      ∃ c w, Ends (L.handle theirs)
        (iterate (sendByteTurn (fuel + 1) eot timeStart) turns response) d (ack.toNat : Int)
        ⟨c, w, L.tell d.loader.image, { d.loader with finished := true }⟩ := by
  induction turns with
  | zero =>
    rintro d timeStart response - - ⟨i, j, -, -, -, hj, -⟩
    exact absurd hj (Nat.not_lt_zero j)
  | succ turns ih =>
    rintro d timeStart response hd hopen ⟨i, j, rfl, hi, hspan, hj, hintact⟩
    -- Whatever arrives, one answer comes back, and behind the right one the report.
    have hwrite : ∀ {b : U8} {m : Bootloader},
        d.loader.takes theirs (L.forth d.writes [eot]) = (b, m) →
        L.handle theirs (.transportWrite [eot]) d = (L.result d.writes,
          ⟨d.calls + 1, d.writes + 1, b :: if m.finished then L.tell m.image else [], m⟩) := by
      intro b m htakes
      show (L.result d.writes, Wire.mk _ _ (d.pending ++ L.back _ _ ++ _) _) = _
      rw [htakes, hd, hL.back]
      rfl
    have hturn : ∀ {b : U8} {m : Bootloader},
        d.loader.takes theirs (L.forth d.writes [eot]) = (b, m) → isResponse b = true →
        Ends (L.handle theirs) (sendByteTurn (fuel + 1) eot (L.clock i) response) d
          (if b = ack then .stop (b.toNat : Int) else .next b)
          ⟨d.calls + 5, d.writes + 1, if m.finished then L.tell m.image else [], m⟩ := by
      intro b m htakes hb
      refine .call_of (hwrite htakes) ?_
      dsimp only
      rw [if_neg (Int.not_lt.mpr (hL.result _))]
      refine (hL.wait rfl hb response).bind ?_
      dsimp only
      rw [if_neg (by decide)]
      refine Ends.bind (.call (.done _ _)) ?_
      show Ends _ (if timeout ≤ llDifftime (L.clock _) (L.clock _) then _ else _) _ _ _
      rw [if_neg (hL.inTime (by dsimp only; omega) (by dsimp only; omega))]
      exact .done _ _
    by_cases hnow : L.forth d.writes [eot] = [eot]
    · have hend := hturn (b := ack) ((hL.takes_letter _ _ _).trans (if_pos hnow)) rfl
      exact ⟨_, _, hend.bind (.done _ _)⟩
    · have hagain := hturn (b := nak) ((hL.takes_letter _ _ _).trans (if_neg hnow)) rfl
      rw [if_neg (by decide), hopen] at hagain
      cases j with
      | zero => exact absurd (hintact [eot]) hnow
      | succ j =>
        obtain ⟨c, w, hrest⟩ := @ih ⟨d.calls + 5, d.writes + 1, [], d.loader⟩ (L.clock i) nak rfl
          hopen ⟨i, j, rfl, by dsimp only; omega, by dsimp only; omega, by omega, by
            rw [show d.writes + 1 + j = d.writes + (j + 1) by omega]
            exact hintact⟩
        exact ⟨c, w, hagain.bind hrest⟩

/-- Keeping the client informed leaves the line as it is. -/
theorem updateClient_ends (L : Line) (offset : U32) (n : Nat) (d : Wire) :
    ∃ c, Ends (L.handle theirs) (updateClient payloadLen offset n) d () { d with calls := c } := by
  induction n generalizing d with
  | zero => exact ⟨_, .done _ _⟩
  | succ n ih =>
    obtain ⟨c, hrest⟩ := ih { d with calls := d.calls + 1001 + 1 }
    exact ⟨c, .call (.call hrest)⟩

/-- One byte for a parser. -/
theorem Line.Good.parseTurn (hL : L.Good theirs payload size span) (len : U8) {b : U8}
    {bytes : List U8} (data : List U8) (hd : d.pending = b :: bytes) {i : Nat} (hi : i ≤ d.calls)
    (hspan : d.calls + 1 ≤ i + span) :
    Ends (L.handle theirs) (Xmodem.parseTurn len (L.clock i) data) d
      (if (data ++ [b].filter fun b => !isFiller b).length < len.toNat then
        .next (data ++ [b].filter fun b => !isFiller b)
      else .stop (0, data ++ [b].filter fun b => !isFiller b))
      { d with calls := d.calls + 2, pending := bytes } := by
  refine .call_of (hL.read hd) (Ends.bind (.call (.done _ _)) ?_)
  show Ends _ (if timeout ≤ llDifftime (L.clock _) (L.clock _) then _ else _) _ _ _
  rw [if_neg (hL.inTime (Nat.le_succ_of_le hi) hspan)]
  exact .done _ _

/-- A parser reads the text up to its length and leaves the rest on the line. -/
theorem Line.Good.parse (hL : L.Good theirs payload size span) {len : U8} {rest : List U8} (i : Nat)
    (turns : Nat) :
    ∀ {d : Wire} {data text : List U8}, i ≤ d.calls → d.calls + 2 * d.pending.length ≤ i + span →
      d.pending.length ≤ turns →
      data.length + text.length = len.toNat → text ≠ [] →
      d.pending.filter (fun b => !isFiller b) = text ++ rest →
      ∃ c pending, Ends (L.handle theirs)
          (iterate (Xmodem.parseTurn len (L.clock i)) turns data) d (0, data ++ text)
          ⟨c, d.writes, pending, d.loader⟩ ∧
        pending.filter (fun b => !isFiller b) = rest ∧ pending.length ≤ d.pending.length := by
  induction turns with
  | zero =>
    intro d data text _ _ hturns _ hne htext
    rw [List.length_eq_zero_iff.mp (Nat.le_zero.mp hturns)] at htext
    exact absurd (List.append_eq_nil_iff.mp htext.symm).1 hne
  | succ turns ih =>
    intro d data text hi hspan hturns hlen hne htext
    cases hd : d.pending with
    | nil =>
      rw [hd] at htext
      exact absurd (List.append_eq_nil_iff.mp htext.symm).1 hne
    | cons b bytes =>
      rw [hd, List.length_cons] at hturns hspan
      rw [hd] at htext
      have hpos := List.length_pos_iff.mpr hne
      have hturn := hL.parseTurn len data hd hi (by omega)
      cases hfill : isFiller b with
      | true =>
        -- Left out.
        rw [List.filter_cons_of_neg (by rw [hfill]; decide)] at htext hturn
        rw [List.filter_nil, List.append_nil, if_pos (by omega)] at hturn
        obtain ⟨c, pending, hrest, hend, hle⟩ :=
          ih (d := { d with calls := d.calls + 2, pending := bytes }) (Nat.le_add_right_of_le hi)
            (by dsimp only; omega) (by dsimp only; omega) hlen hne htext
        exact ⟨c, pending, hturn.bind hrest, hend, Nat.le_succ_of_le hle⟩
      | false =>
        rw [List.filter_cons_of_pos (by rw [hfill]; rfl)] at htext hturn
        rw [List.filter_nil] at hturn
        cases text with
        | nil => exact absurd rfl hne
        | cons b' text =>
          obtain ⟨rfl, htail⟩ := List.cons.inj htext
          have hdata : (data ++ [b]).length = data.length + 1 := by
            rw [List.length_append, List.length_singleton]
          rw [List.length_cons] at hlen
          by_cases hlast : text = []
          · rw [if_neg (by rw [hdata]; rw [hlast, List.length_nil] at hlen; omega)] at hturn
            rw [hlast] at htail ⊢
            exact ⟨_, bytes, hturn.bind (.done _ _), htail, Nat.le_succ _⟩
          · have hmore := List.length_pos_iff.mpr hlast
            rw [if_pos (by omega)] at hturn
            obtain ⟨c, pending, hrest, hend, hle⟩ :=
              @ih { d with calls := d.calls + 2, pending := bytes } (data ++ [b]) text
                (Nat.le_add_right_of_le hi) (by dsimp only; omega) (by dsimp only; omega) (by omega)
                hlast htail
            rw [List.append_assoc] at hrest
            exact ⟨c, pending, hturn.bind hrest, hend, Nat.le_succ_of_le hle⟩

/-- The text is what the sender wants to see, and the letter that reboots is sent. -/
theorem Line.Good.verify (hL : L.Good theirs payload size span) (hfuel : d.pending.length ≤ fuel)
    (hspan : 2 * d.pending.length + 1 ≤ span)
    (htext : d.pending.filter (fun b => !isFiller b) = contentText) :
    ∃ d', Ends (L.handle theirs) (verifyModule fuel) d 0 d' ∧ d'.loader = d.loader := by
  have hparse : ∀ {d : Wire} {len : U8} {text rest : List U8}, d.pending.length ≤ fuel →
      2 * d.pending.length + 1 ≤ span → text.length = len.toNat → text ≠ [] →
      d.pending.filter (fun b => !isFiller b) = text ++ rest →
      ∃ c pending, Ends (L.handle theirs) (parseModuleOutput fuel len) d (0, text)
          ⟨c, d.writes, pending, d.loader⟩ ∧
        pending.filter (fun b => !isFiller b) = rest ∧ pending.length ≤ d.pending.length := by
    intro d len text rest hfuel hspan hlen hne htext
    obtain ⟨c, pending, hends, hend⟩ := @Line.Good.parse theirs payload size span L hL len rest
      d.calls fuel { d with calls := d.calls + 1 } [] text (Nat.le_succ _)
      (by dsimp only; omega) hfuel (by rw [List.length_nil]; omega) hne htext
    exact ⟨c, pending, .call hends, hend⟩
  obtain ⟨c₁, p₁, h₁, hp₁, hle₁⟩ := @hparse d 19 (ascii "Firmware downloaded")
    (ascii "Verifying...OK" ++ ascii "Activating...DONE") hfuel hspan (by decide) (by decide)
    (htext.trans (List.append_assoc _ _ _))
  obtain ⟨c₂, p₂, h₂, hp₂, hle₂⟩ := @hparse ⟨c₁, d.writes, p₁, d.loader⟩ 14
    (ascii "Verifying...OK") (ascii "Activating...DONE") (Nat.le_trans hle₁ hfuel)
    (by dsimp only; omega) (by decide) (by decide) hp₁
  obtain ⟨c₃, p₃, h₃, -, -⟩ := @hparse ⟨c₂, d.writes, p₂, d.loader⟩ 17
    (ascii "Activating...DONE") [] (Nat.le_trans hle₂ (Nat.le_trans hle₁ hfuel))
    (by dsimp only at *; omega) (by decide) (by decide) (hp₂.trans (List.append_nil _).symm)
  have hletter : ∀ n, L.forth n [reboot] ≠ [eot] := fun n => by
    rcases hL.forth n with hintact | hbad
    · rw [hintact]
      decide
    · exact (hbad _).2
  let told := if d.loader.finished then L.tell d.loader.image else []
  have hreboot : L.handle theirs (.transportWrite [reboot]) ⟨c₃, d.writes, p₃, d.loader⟩ =
      (L.result d.writes, ⟨c₃ + 1, d.writes + 1, p₃ ++ [nak] ++ told, d.loader⟩) := by
    show (L.result d.writes, Wire.mk _ _ (p₃ ++ L.back _ _ ++ _) _) = _
    dsimp only
    rw [hL.takes_letter, if_neg (hletter _), hL.back]
  refine ⟨⟨c₃ + 1, d.writes + 1, p₃ ++ [nak] ++ told, d.loader⟩, ?_, rfl⟩
  unfold verifyModule
  refine h₁.bind (h₂.bind (h₃.bind ?_))
  dsimp only
  rw [if_neg (by decide), if_neg (by decide), if_neg (by decide)]
  refine Ends.bind (.call_of hreboot (.done _ _)) ?_
  rw [if_neg (Int.not_lt.mpr (hL.result _))]
  exact .done _ _

/-- With turns enough, the upload comes through, whatever is on the line before the letter C. -/
theorem Line.Good.upload (hL : L.Good theirs payload payloadLen.toNat span)
    (hpos : 1 ≤ payloadLen.toNat) (hsmall : payloadLen.toNat < 0x100000000) {before : List U8}
    (hd : d.pending = before ++ [ccc]) (hbefore : ccc ∉ before)
    (hloader : d.loader = ⟨1, [], false⟩) (hspan : 4 * before.length + 5 ≤ span)
    (hfuel : 17 * numPackets payloadLen.toNat + (L.tell (whole payload payloadLen.toNat)).length
      + 17 + before.length ≤ fuel) :
    ∃ d', Ends (L.handle theirs) (xmodemSend char fuel ⟨true⟩ (some payload) payloadLen) d 0 d' ∧
      d'.loader.finished = true ∧ d'.loader.image = whole payload payloadLen.toNat := by
  have hroom : 0 < numPackets payloadLen.toNat := numPackets_room.mpr hpos
  obtain ⟨c₀, hwait⟩ := hL.waitFor hd hbefore rfl (show before.length < fuel by omega) hspan
  obtain ⟨fuel, rfl⟩ : ∃ n, fuel = n + 1 := ⟨fuel - 1, by omega⟩
  obtain ⟨s, c, w, m, hdata, hoff, hm⟩ := @Line.Good.data char theirs fuel payload span payloadLen L
    hL hsmall (fuel + 1) ⟨0, 1, 0⟩ 0 ⟨c₀, d.writes, [], d.loader⟩
    ⟨rfl, rfl, hpos⟩ (hloader ▸ ⟨rfl, rfl, rfl⟩) rfl
    ⟨Nat.zero_le _, fun j hj => absurd hj (Nat.not_lt_zero j)⟩
    (Nat.zero_le _) (by show _ ≤ fuel + 1 + 0; omega)
  have himage := hm.whole
  -- The end of transmission, at most so often.
  obtain ⟨j, hj, hintact⟩ := hL.often w
  have hmax : maxAttempts = 16 := rfl
  have hturns := hL.turns
  obtain ⟨c₁, w₁, hclosing⟩ := @Line.Good.closing theirs fuel payload payloadLen.toNat span L hL
    (fuel + 1) ⟨c + 1, w, [], m⟩ (L.clock c) 0 rfl hm.running
    ⟨c, j, rfl, Nat.le_succ c, by dsimp only; omega, by omega, hintact⟩
  obtain ⟨c₂, hupdate⟩ := @updateClient_ends theirs payloadLen L s.offset 10
    ⟨c₁, w₁, L.tell m.image, { m with finished := true }⟩
  obtain ⟨d', hverify, hd'⟩ := @Line.Good.verify theirs (fuel + 1) payload payloadLen.toNat span
    L ⟨c₂, w₁, L.tell m.image, { m with finished := true }⟩ hL
    (by dsimp only; rw [himage]; omega) (by dsimp only; rw [himage]; exact hL.text)
    (by dsimp only; rw [himage]; exact hL.tell)
  refine ⟨d', ?_, by rw [hd'], by rw [hd']; exact himage⟩
  have hlong : ¬ payloadLen < 1 := by
    rw [BitVec.lt_def]
    exact Nat.not_lt.mpr hpos
  unfold xmodemSend
  dsimp only
  rw [if_neg hlong, if_neg (by decide)]
  refine hwait.bind ?_
  rw [if_neg (by decide)]
  refine hdata.bind ?_
  dsimp only
  unfold finishTransfer
  refine Ends.bind (.call hclosing) ?_
  rw [if_neg (by decide)]
  exact hupdate.bind hverify

end

/-! ## Loops without a bound -/

section

variable {m n : Nat} (hmn : m ≤ n)
include hmn

theorem getClientResponse_below (response : U8) :
    Below (getClientResponse m response) (getClientResponse n response) :=
  .call fun _ => .iterate (fun _ => .refl _) hmn _

theorem sendPacket_below (char : PlainChar) (payload : Ptr) (payloadLen : U16) (number : U8) :
    Below (sendPacket char m payload payloadLen number)
      (sendPacket char n payload payloadLen number) :=
  .ite (.refl _) (.call fun _ => .ite (.refl _)
    (.bind (getClientResponse_below hmn 0) fun _ => .refl _))

theorem sendByte_below (byte : U8) : Below (sendByte m byte) (sendByte n byte) := by
  refine .call fun _ => .iterate (fun response => .call fun _ => .ite (.refl _) ?_) hmn _
  exact .bind (getClientResponse_below hmn response) fun _ => .refl _

theorem waitFor_below (response : U8) : Below (waitFor m response) (waitFor n response) := by
  refine .call fun _ => .iterate (fun res => ?_) hmn _
  exact .bind (getClientResponse_below hmn res) fun _ => .refl _

theorem parseModuleOutput_below (len : U8) :
    Below (parseModuleOutput m len) (parseModuleOutput n len) :=
  .call fun _ => .iterate (fun _ => .refl _) hmn _

theorem sendData_below (char : PlainChar) (payload : Ptr) (payloadLen : SizeT) :
    Below (sendData char m payload payloadLen) (sendData char n payload payloadLen) := by
  refine .iterate (fun s => .bind ?_ fun _ => .refl _) hmn _
  exact .bind (sendPacket_below hmn char _ _ _) fun _ => .refl _

theorem finishTransfer_below (payloadLen : SizeT) (offset : U32) :
    Below (finishTransfer m payloadLen offset) (finishTransfer n payloadLen offset) := by
  refine .bind (sendByte_below hmn eot) fun _ => .ite (.refl _) ?_
  refine .bind (.refl _) fun _ => ?_
  refine .bind (parseModuleOutput_below hmn 19) fun _ => ?_
  refine .bind (parseModuleOutput_below hmn 14) fun _ => ?_
  exact .bind (parseModuleOutput_below hmn 17) fun _ => .refl _

/-- A longer transfer does the same, as far as the shorter one goes. -/
theorem xmodemSend_below (char : PlainChar) (cb : Callbacks) (payload : Option Ptr)
    (payloadLen : SizeT) :
    Below (xmodemSend char m cb payload payloadLen) (xmodemSend char n cb payload payloadLen) := by
  cases payload with
  | none => exact .refl _
  | some payload =>
    refine .ite (.refl _) (.ite (.refl _) (.bind (waitFor_below hmn ccc) fun _ => .ite (.refl _) ?_))
    refine .bind (sendData_below hmn char payload payloadLen) fun ended => ?_
    cases ended with
    | error ret => exact .refl _
    | ok s => exact finishTransfer_below hmn payloadLen s.offset

end

/-! ## The upload -/

/-- **An upload comes through.** On a good line the transfer ends, and however long its loops
are let run, where it ends it returns 0, and the bootloader has the payload, filled up, and has
seen the end of transmission. -/
theorem bootloader_receives {char theirs : PlainChar} {payload : Ptr} {payloadLen : SizeT}
    {L : Line} {span : Nat} (hL : L.Good theirs payload payloadLen.toNat span)
    (hpos : 1 ≤ payloadLen.toNat) (hsmall : payloadLen.toNat < 0x100000000) :
    (∀ fuel, 17 * numPackets payloadLen.toNat +
        (L.tell (whole payload payloadLen.toNat)).length + 17 ≤ fuel →
      Halts (L.handle theirs) (xmodemSend char fuel ⟨true⟩ (some payload) payloadLen) L.start) ∧
    ∀ fuel ret d,
      Ends (L.handle theirs) (xmodemSend char fuel ⟨true⟩ (some payload) payloadLen) L.start ret d →
      ret = 0 ∧ d.loader.finished = true ∧ d.loader.image = whole payload payloadLen.toNat := by
  have hupload : ∀ fuel, 17 * numPackets payloadLen.toNat +
      (L.tell (whole payload payloadLen.toNat)).length + 17 ≤ fuel →
      ∃ d, Ends (L.handle theirs) (xmodemSend char fuel ⟨true⟩ (some payload) payloadLen) L.start 0
          d ∧
        d.loader.finished = true ∧ d.loader.image = whole payload payloadLen.toNat :=
    fun fuel hfuel => hL.upload hpos hsmall (show L.start.pending = [] ++ [ccc] from hL.hello)
      List.not_mem_nil rfl (Nat.le_trans (by decide) hL.turns) hfuel
  refine ⟨fun fuel hfuel => ?_, fun fuel ret d hends => ?_⟩
  · obtain ⟨d, hends, -⟩ := hupload fuel hfuel
    exact ⟨0, d, hends⟩
  · obtain ⟨d', hends', hfin, himage⟩ := hupload _ (Nat.le_refl _)
    obtain ⟨rfl, rfl⟩ := Below.unique
      (fun _ _ hmn => xmodemSend_below hmn char ⟨true⟩ (some payload) payloadLen) hends hends'
    exact ⟨rfl, hfin, himage⟩

/-- A line that loses every other buffer, with a clock on which a call takes a millisecond. -/
def patchyLine : Line where
  hello := [ccc]
  tell _ := ascii "Firmware downloaded\r\nVerifying...OK\r\nActivating...DONE\r\n"
  forth n buf := if n % 2 = 0 then [] else buf
  back _ answer := [answer]
  result _ := 0
  fails _ := false
  error _ := 0
  clock n := ⟨n / 1000, (n % 1000) * 1000000⟩

theorem patchyLine_good (char : PlainChar) (payload : Ptr) (size : Nat) :
    patchyLine.Good char payload size 200 where
  forth n := by
    rcases Nat.mod_two_eq_zero_or_one n with heven | hodd
    · refine Or.inr fun buf => ?_
      show unframe char (if n % 2 = 0 then [] else buf) = none ∧ (if n % 2 = 0 then [] else buf) ≠ _
      rw [if_pos heven]
      exact ⟨rfl, nofun⟩
    · exact Or.inl fun buf => if_neg (by omega)
  often n := by
    rcases Nat.mod_two_eq_zero_or_one n with heven | hodd
    · exact ⟨1, by decide, fun buf => if_neg (by omega)⟩
    · exact ⟨0, by decide, fun buf => if_neg (by omega)⟩
  back _ _ := rfl
  result _ := Int.le_refl 0
  reads _ := rfl
  timely i j hij hspan := by
    have hle : (patchyLine.clock i).Le (patchyLine.clock j) := by
      unfold Time.Le
      dsimp only [patchyLine]
      omega
    rw [llDifftime_near hle (by dsimp only [patchyLine]; omega)]
    dsimp only [patchyLine]
    show (if (_ : Int) < 0 then (_ : Int) else _) < 3
    split <;> omega
  turns := by decide
  text := by
    show 2 * (ascii "Firmware downloaded\r\nVerifying...OK\r\nActivating...DONE\r\n").length + 1 ≤
      200
    decide
  hello := rfl
  tell := by
    show (ascii "Firmware downloaded\r\nVerifying...OK\r\nActivating...DONE\r\n").filter
      (fun b => !isFiller b) = contentText
    decide

/-- Three packets, each sent twice, between a host and a module that differ in their `char`. -/
theorem bootloader_receives_patchy :
    ∃ d, Ends (patchyLine.handle .unsigned)
        (xmodemSend .signed 200 ⟨true⟩ (some ⟨fun i => BitVec.ofNat 8 i, 5⟩) 300) patchyLine.start 0
        d ∧
      d.loader.finished = true ∧ d.loader.image = whole ⟨fun i => BitVec.ofNat 8 i, 5⟩ 300 := by
  obtain ⟨hhalts, hall⟩ := @bootloader_receives .signed .unsigned ⟨fun i => BitVec.ofNat 8 i, 5⟩ 300
    patchyLine 200 (patchyLine_good _ _ _) (by decide) (by decide)
  obtain ⟨ret, d, hends⟩ := hhalts 200 (by decide)
  obtain ⟨rfl, hend⟩ := hall 200 ret d hends
  exact ⟨d, hends, hend⟩

end HostInterface.Xmodem
