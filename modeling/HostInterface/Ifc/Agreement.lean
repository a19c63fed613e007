import HostInterface.Ifc.Session

/-!
# Which response a command gets

`recv_packet` leaves the payload of a response it refuses unread, and a response
that a command has only begun stays in the FIFO as well. The next command looks
for `FRAME_START` in what is left, and a payload can hold a whole frame with the
right opcode, number and checksum: `stale_payload_accepted` is such a session.
And `recv_packet` ignores that the payload could not be read: the checksum is then
computed of the old contents of the buffer and compared with bytes of the payload
that have arrived in the meantime (`torn_payload_accepted`).

A command gets the payload of its own response whenever it starts with nothing
left that looks like a frame, and the read of that payload does not fail (`agreement`);
the other reads may. The message number then does its part, as long as no response is
256 commands late.
-/

namespace HostInterface.Ifc

open Interact Prog

variable {env : Surroundings}

/-! ## Sending -/

/-- A command is complete with its checksum, and not before. -/
theorem commandOf_append (op messageNum : U8) (len : U16) (tail : List U8) :
    commandOf (List.replicate 4 0xff ++ ([frameStart, op, messageNum] ++ be16 len) ++ tail) =
      if tail.length = len.toNat + 2 then some (op, messageNum) else none := by
  show (if tail.length = (fromBe16 ((len >>> 8).setWidth 8) (len.setWidth 8)).toNat + 2 then _
    else _) = _
  rw [fromBe16_be16]

/-- A write that does not complete a command. -/
theorem write_part {l : Line} {buf : List U8} (h : commandOf (l.received ++ buf) = none) :
    (session env (.transportWrite buf) l).2 = (l.arrive env).heard (l.received ++ buf) := by
  show (l.arrive env).hear env buf = _
  unfold Line.hear
  rw [arrive_received, h]

/-- A write that does. -/
theorem write_command {l : Line} {buf : List U8} {op messageNum : U8}
    (h : commandOf (l.received ++ buf) = some (op, messageNum)) :
    (session env (.transportWrite buf) l).2 =
      { l.arrive env with
        received := []
        sent := l.sent + 1
        unread := l.unread ++ (env.answer l.sent).toList.map (⟨l.sent, op, messageNum, ·⟩) } := by
  show (l.arrive env).hear env buf = _
  unfold Line.hear
  rw [arrive_received, h]
  rfl

/-- The line after a command: the module has received it, and its answer is under way. -/
structure Answered (env : Surroundings) (l : Line) (op messageNum : U8) (l' : Line) : Prop where
  rest : l'.rest = l.rest
  received : l'.received = []
  sent : l'.sent = l.sent + 1
  torn : l'.torn = l.torn
  unread : l'.unread = l.unread ++ (env.answer l.sent).toList.map (⟨l.sent, op, messageNum, ·⟩)

/-- The module receives exactly the command that is sent. -/
theorem sendPacket_wlp (op messageNum : U8) {buf : Option (List U8)} {len : U16}
    (hbuf : len.toNat ≤ (buf.getD []).length) {l : Line} (hl : l.received = []) :
    Wlp (session env) (sendPacket op messageNum buf len) l fun _ l' =>
      Answered env l op messageNum l' := by
  have hpay : ((buf.getD []).take len.toNat).length = len.toNat := List.length_take_of_le hbuf
  -- The module waits for as many bytes as the header says, so the writes before the last
  -- one complete nothing.
  have hheader : commandOf (l.received ++
      (List.replicate 4 0xff ++ ([frameStart, op, messageNum] ++ be16 len))) = none := by
    have h := commandOf_append op messageNum len []
    rw [if_neg (by simp), List.append_nil] at h
    rw [hl]
    exact h
  unfold sendPacket
  refine .call ?_
  rw [write_part hheader, hl, List.nil_append]
  split
  next hsome =>
    have hpayload := commandOf_append op messageNum len ((buf.getD []).take len.toNat)
    rw [if_neg (by omega)] at hpayload
    refine .call ?_
    rw [write_part hpayload]
    refine .call ?_
    have hsum := commandOf_append op messageNum len ((buf.getD []).take len.toNat ++
      be16 (computeChecksum ([frameStart, op, messageNum] ++ be16 len)
        ((buf.getD []).take len.toNat)))
    rw [if_pos (by rw [List.length_append, hpay]; rfl), ← List.append_assoc] at hsum
    rw [write_command hsum]
    exact .done ⟨rfl, rfl, rfl, rfl, rfl⟩
  next hnone =>
    refine .call ?_
    have hzero : len.toNat = 0 := by
      cases buf with
      | none => exact Nat.le_zero.mp hbuf
      | some b => exact absurd rfl hnone
    have hsum := commandOf_append op messageNum len
      (be16 (computeChecksum ([frameStart, op, messageNum] ++ be16 len)
        ((buf.getD []).take len.toNat)))
    rw [if_pos (by rw [hzero]; rfl)] at hsum
    rw [write_command (l := (l.arrive env).heard _) hsum]
    exact .done ⟨rfl, rfl, rfl, rfl, rfl⟩

/-! ## Receiving -/

section Receiving

variable {α : Type} {P : Response → Prop}

/-- A read that gets its bytes. -/
theorem read_enough {len : U16} {l : Line} (h : (l.arrive env).Serves env len l.calls) :
    session env (.transportRead len) l =
      (.ok ((l.arrive env).fifo.take len.toNat) (List.length_take_of_le h.1),
        (l.arrive env).take len.toNat) :=
  dif_pos h

/-- A read that does not. -/
theorem read_short {len : U16} {l : Line} (h : ¬ (l.arrive env).Serves env len l.calls) :
    session env (.transportRead len) l =
      (env.short len l.calls,
        ((l.arrive env).tear len).take
          (min (env.taken l.calls) (min (len.toNat - 1) (l.arrive env).fifo.length))) :=
  dif_neg h

/-- The bytes that have arrived are the first ones. -/
theorem fifo_take {l : Line} {n : Nat} (h : n ≤ l.fifo.length) :
    l.fifo.take n = l.bytes.take n := by
  have hhere : n ≤ l.here := Nat.le_trans h (List.length_take_le _ _)
  unfold Line.fifo
  rw [List.take_take, Nat.min_eq_left hhere]

/-- A read inside the response begun delivers its next bytes, if it does not fail. -/
theorem readRest {len : U16} {l : Line} {a b : List U8} (h : l.rest = a ++ b)
    (hlen : a.length = len.toNat) (henough : (l.arrive env).Serves env len l.calls) :
    (session env (.transportRead len) l).1 = .ok a hlen ∧
      (session env (.transportRead len) l).2.rest = b ∧
      (session env (.transportRead len) l).2.begun = l.begun := by
  have hbytes : (l.arrive env).fifo.take len.toNat = a := by
    rw [fifo_take henough.1]
    unfold Line.bytes
    rw [arrive_rest, h, List.append_assoc]
    exact List.take_left' hlen
  have hwithin : len.toNat ≤ l.rest.length := by
    rw [h, List.length_append]
    omega
  rw [read_enough henough]
  refine ⟨by simp only [hbytes], ?_, ?_⟩
  · unfold Line.take
    rw [arrive_rest, skip_within hwithin, h]
    exact List.drop_left' hlen
  · unfold Line.take
    rw [arrive_rest, skip_within hwithin]
    rfl

/-- One byte of the wait. Where nothing of a response begun looks like a frame, the first
`FRAME_START` that is delivered is that of a response. -/
theorem readByte {l : Line} (hrest : frameStart ∉ l.rest) (hP : ∀ f ∈ l.unread, P f) :
    let r := (session env (.transportRead 1) l).1
    let l' := (session env (.transportRead 1) l).2
    (r.stored = [frameStart] ∧ ∃ f, P f ∧ l'.rest = f.bytes.tail ∧ l'.begun = some f) ∨
      ((r.ret < 0 ∨ ∃ b, b ≠ frameStart ∧ r.stored = [b]) ∧
        frameStart ∉ l'.rest ∧ ∀ f ∈ l'.unread, P f) := by
  intro r l'
  have hunread : ∀ f ∈ l'.unread, P f := fun f hf =>
    hP f ((listen_keeps (e := .transportRead 1) trivial l).2.2.1 f hf)
  by_cases henough : (l.arrive env).Serves env 1 l.calls
  · cases hl : l.rest with
    | cons b t =>
      rw [hl] at hrest
      obtain ⟨hr, hl', -⟩ := @readRest env 1 l [b] t hl rfl henough
      refine Or.inr ⟨Or.inr ⟨b, ?_, ?_⟩, ?_, hunread⟩
      · exact fun h => hrest (h ▸ List.mem_cons_self ..)
      · show (session env (.transportRead 1) l).1.stored = [b]
        rw [hr]
        rfl
      · show frameStart ∉ (session env (.transportRead 1) l).2.rest
        rw [hl']
        exact fun h => hrest (List.mem_cons_of_mem _ h)
    | nil =>
      cases hun : l.unread with
      | nil =>
        -- Nothing has been sent that could have arrived.
        have hnone : (l.arrive env).bytes = [] := by
          unfold Line.bytes
          rw [arrive_rest, arrive_unread, hl, hun]
          rfl
        have hle := fifo_length_le (l.arrive env)
        rw [hnone] at hle
        exact absurd (Nat.le_trans henough.1 hle) (by decide)
      | cons f fs =>
        -- The next byte is the first of a response.
        have hbytes : (l.arrive env).fifo.take (1 : U16).toNat = [frameStart] := by
          rw [fifo_take henough.1]
          unfold Line.bytes
          rw [arrive_rest, arrive_unread, hl, hun]
          rfl
        have hskip : skip (1 : U16).toNat l.rest l.begun l.unread = (f.bytes.tail, some f, fs) := by
          rw [hl, hun]
          exact skip_first f _ fs
        refine Or.inl ⟨?_, f, ?_, ?_, ?_⟩
        · show (session env (.transportRead 1) l).1.stored = [frameStart]
          rw [read_enough henough]
          exact hbytes
        · exact hP f (hun ▸ List.mem_cons_self ..)
        · show (session env (.transportRead 1) l).2.rest = f.bytes.tail
          rw [read_enough henough]
          exact congrArg (fun x => x.1) hskip
        · show (session env (.transportRead 1) l).2.begun = some f
          rw [read_enough henough]
          exact congrArg (fun x => x.2.1) hskip
  · -- The read fails, and takes nothing.
    refine Or.inr ⟨Or.inl ?_, ?_, hunread⟩
    · show (session env (.transportRead 1) l).1.ret < 0
      rw [read_short henough]
      exact env.fails 1 l.calls
    · show frameStart ∉ (session env (.transportRead 1) l).2.rest
      rw [read_short henough, show (1 : U16).toNat - 1 = 0 from rfl, Nat.zero_min, Nat.min_zero]
      unfold Line.take
      rw [skip_within (Nat.zero_le _), List.drop_zero]
      exact hrest

/-- The wait ends well only behind the first byte of a response. -/
theorem awaitFrameStart_response (timeStart : Time) (fuel : Nat) (currByte : U8) (l : Line)
    (hrest : frameStart ∉ l.rest) (hP : ∀ f ∈ l.unread, P f) :
    Wlp (session env) (awaitFrameStart timeStart fuel currByte) l fun r l' =>
      match r with
      | .error code => code < 0
      | .ok ret => 0 ≤ ret → ∃ f, P f ∧ l'.rest = f.bytes.tail ∧ l'.begun = some f := by
  refine awaitFrameStart_rule (I := fun l => frameStart ∉ l.rest ∧ ∀ f ∈ l.unread, P f) timeStart
    (fun code _ hcode => by show code < 0; omega) (fun currByte l hI => ?_) fuel currByte l
    ⟨hrest, hP⟩
  have hbyte := @readByte env P l hI.1 hI.2
  refine .call (.call ?_)
  generalize hr : (session env (.transportRead 1) l).1 = r at hbyte ⊢
  generalize (session env (.transportRead 1) l).2 = l' at hbyte ⊢
  have hover : ∀ b, r.stored = [b] → (r.over [currByte]).getD 0 0 = b := by
    intro b hb
    unfold ReadReply.over
    rw [hb]
    rfl
  -- A response begins here, or the byte is something else and the wait goes on.
  rcases hbyte with ⟨hstored, f, hf, hrest', hbegun⟩ | ⟨hother, hrest', hP'⟩
  · exact .done ⟨fun hne => absurd (hover _ hstored) hne, fun _ _ => ⟨f, hf, hrest', hbegun⟩⟩
  · refine .done ⟨fun _ => ⟨hrest', hP'⟩, fun hx hret => ?_⟩
    rcases hother with hneg | ⟨b, hb, hstored⟩
    · exact absurd hret (Int.not_le.mpr hneg)
    · exact absurd ((hover b hstored).symm.trans hx) hb

/-- The length field holds the length of a payload. -/
theorem Answer.length_eq (a : Answer) :
    (BitVec.ofNat 16 a.payload.length).toNat = a.payload.length := by
  have hsmall := a.small
  rw [BitVec.toNat_ofNat]
  omega

/-- Where the read of a payload does not fail, or there is nothing to read, the buffer begins
with the payload. -/
theorem readPayload_over {l : Line} {a : Answer} {sum : List U8}
    (hrest : l.rest = a.payload ++ sum)
    (h : (l.arrive env).Serves env (BitVec.ofNat 16 a.payload.length) l.calls ∨ a.payload = []) :
    (session env (.transportRead (BitVec.ofNat 16 a.payload.length)) l).1.over =
      fun old => a.payload ++ old.drop a.payload.length := by
  funext old
  rcases h with henough | hempty
  · rw [(readRest hrest a.length_eq.symm henough).1]
    rfl
  · have hzero : (BitVec.ofNat 16 a.payload.length).toNat = 0 := by
      rw [a.length_eq, hempty]
      rfl
    rw [ReadReply.over_of_zero _ hzero, hempty]
    rfl

/-- Where the read of the payload of the last answer fails, it is torn. -/
theorem readPayload_torn {l : Line} {f : Response} {sum : List U8} (hsum : sum.length = 2)
    (hrest : l.rest = f.answer.payload ++ sum) (hbegun : l.begun = some f)
    (hcmd : f.cmd + 1 = l.sent) (hack : f.answer.ack = 0)
    (h : ¬ (l.arrive env).Serves env (BitVec.ofNat 16 f.answer.payload.length) l.calls) :
    (session env (.transportRead (BitVec.ofNat 16 f.answer.payload.length)) l).2.torn =
      l.torn + 1 := by
  have hat : (l.arrive env).atPayload (BitVec.ofNat 16 f.answer.payload.length) = true := by
    unfold Line.atPayload
    rw [arrive_begun, arrive_rest, arrive_sent, hbegun, hrest]
    simp [hcmd, hack, hsum, f.answer.length_eq]
  rw [read_short h]
  show ((l.arrive env).tear _).torn = _
  unfold Line.tear
  exact if_pos hat

/-- The rest of a frame whose header has been read: accepted, it is an ACK with this number, and
the buffer gets its payload, unless the read of that payload has failed. -/
theorem recvBody_response (fuel : Nat) (checksumBuff : List U8) (op messageNum : U8)
    {buf : Option (List U8)} {len : U16} (hbuf : len.toNat ≤ (buf.getD []).length) {l : Line}
    {f : Response} {sum : List U8} (hsum : sum.length = 2)
    (hrest : l.rest = f.answer.payload ++ sum) (hbegun : l.begun = some f) {sent torn : Nat}
    (hsent : l.sent = sent) (htorn : torn ≤ l.torn) :
    Wlp (session env)
      (recvBody fuel checksumBuff
        (frameStart :: ([f.op, f.messageNum, f.answer.ack] ++
          be16 (BitVec.ofNat 16 f.answer.payload.length))) op messageNum buf len) l
      fun r l' => 0 ≤ r.1 → f.messageNum = messageNum ∧ f.answer.ack = 0 ∧
        (f.cmd + 1 = sent → l'.torn ≤ torn →
          r = ((f.answer.payload.length : Int), withPayload buf f.answer.payload)) := by
  have hlen : (fromBe16 ((BitVec.ofNat 16 f.answer.payload.length >>> 8).setWidth 8)
      ((BitVec.ofNat 16 f.answer.payload.length).setWidth 8)) =
        BitVec.ofNat 16 f.answer.payload.length := fromBe16_be16 _
  have hpost := recvBody_post (h := session env) (s := l) fuel checksumBuff f.op f.messageNum
    f.answer.ack ((BitVec.ofNat 16 f.answer.payload.length >>> 8).setWidth 8)
    ((BitVec.ofNat 16 f.answer.payload.length).setWidth 8) op messageNum hbuf
  rw [hlen] at hpost
  by_cases hread : (l.arrive env).Serves env (BitVec.ofNat 16 f.answer.payload.length) l.calls ∨
      f.answer.payload = []
  · refine hpost.mono fun r l' hr hpos => ?_
    obtain ⟨⟨-, hnum, hack⟩, hr⟩ := hr hpos
    exact ⟨hnum, hack, fun _ _ => hr.trans (Prod.ext
      (congrArg (fun k : Nat => (k : Int)) f.answer.length_eq)
      (congrArg (buf.map ·) (readPayload_over hrest hread)))⟩
  · -- The payload is torn, and stays so.
    obtain ⟨hfails, hne⟩ := not_or.mp hread
    have hpos : 0 < (fromBe16 ((BitVec.ofNat 16 f.answer.payload.length >>> 8).setWidth 8)
        ((BitVec.ofNat 16 f.answer.payload.length).setWidth 8)).toNat := by
      rw [hlen, f.answer.length_eq]
      exact List.length_pos_iff.mpr hne
    have hkeep := recvBody_reads (h := session env) (s := l)
      (I := fun l' => f.cmd + 1 = sent → f.answer.ack = 0 → torn + 1 ≤ l'.torn)
      (fun e l' he hl' hcmd hack => Nat.le_trans (hl' hcmd hack) (listen_keeps he l').2.2.2)
      fuel checksumBuff f.op f.messageNum f.answer.ack
      ((BitVec.ofNat 16 f.answer.payload.length >>> 8).setWidth 8)
      ((BitVec.ofNat 16 f.answer.payload.length).setWidth 8) op messageNum hbuf hpos ?_
    · refine (hpost.and hkeep).mono fun r l' hr hr0 => ?_
      obtain ⟨⟨-, hnum, hack⟩, -⟩ := hr.1 hr0
      refine ⟨hnum, hack, fun hcmd hwhole => ?_⟩
      exact absurd (hr.2 hr0 hcmd hack) (by omega)
    · intro hcmd hack
      rw [hlen, readPayload_torn hsum hrest hbegun (hcmd.trans hsent.symm) hack hfails]
      exact Nat.succ_le_succ htorn

/-- **The response that is accepted** is one of those unread, with this message number, and
the buffer gets its payload, unless the read of that payload has failed. -/
theorem recvPacket_response (fuel : Nat) (checksumBuff : List U8) (op messageNum : U8)
    {buf : Option (List U8)} {len : U16} (hbuf : len.toNat ≤ (buf.getD []).length) {l : Line}
    (hrest : frameStart ∉ l.rest) (hP : ∀ f ∈ l.unread, P f) :
    Wlp (session env) (recvPacket fuel checksumBuff op messageNum buf len) l fun r l' =>
      0 ≤ r.1 → ∃ f, P f ∧ f.messageNum = messageNum ∧ f.answer.ack = 0 ∧
        (f.cmd + 1 = l.sent → l'.torn ≤ l.torn →
          r = ((f.answer.payload.length : Int), withPayload buf f.answer.payload)) := by
  refine .call ?_
  split
  next => exact .done fun h => absurd (show 0 ≤ errorHalCallFailed from h) (by decide)
  next =>
    -- Waiting receives no command and mends nothing.
    have hkeep := Wlp.invariant (s := l.arrive env)
      (I := fun l' => l'.sent = l.sent ∧ l.torn ≤ l'.torn)
      (awaitFrameStart_only (session env .gettime l).1.2 fuel 0)
      (fun e l' he hl' => ⟨(@listen_keeps env e he l').2.1.trans hl'.1,
        Nat.le_trans hl'.2 (listen_keeps he l').2.2.2⟩) ⟨rfl, Nat.le_refl _⟩
    refine Wlp.bind (((awaitFrameStart_response _ _ _ (l.arrive env) hrest hP).and hkeep).mono
      fun started l₁ hstarted => ?_)
    obtain ⟨hstarted, hsent, htorn⟩ := hstarted
    cases started with
    | error code =>
      exact .done fun h => absurd (show 0 ≤ code from h) (Int.not_le.mpr hstarted)
    | ok ret =>
      dsimp only
      split
      next => exact .done fun h => absurd (show 0 ≤ errorStartOfFrame from h) (by decide)
      next hret =>
        obtain ⟨f, hf, hl₁, hbegun⟩ := hstarted (Int.not_lt.mp hret)
        have hfive : ([f.op, f.messageNum, f.answer.ack] ++
            be16 (BitVec.ofNat 16 f.answer.payload.length)).length = (5 : U16).toNat := rfl
        have hframe := respFrame_append f.op f.messageNum f.answer.ack f.answer.payload []
        rw [List.append_nil] at hframe
        have hl₁ : l₁.rest = _ := hl₁.trans (congrArg List.tail hframe)
        obtain ⟨-, hsent₂, -, htorn₂⟩ := @listen_keeps env (.transportRead 5) trivial l₁
        refine .call ?_
        by_cases henough : (l₁.arrive env).Serves env 5 l₁.calls
        · obtain ⟨hreply, hl₂, hbegun₂⟩ := @readRest env 5 l₁ _ _ hl₁ hfive henough
          have hover : (ReadReply.ok _ hfive).over (List.replicate 5 0) = _ :=
            ReadReply.ok_over hfive rfl
          rw [hreply, ReadReply.ok_ret, if_neg (by decide), hover]
          refine (recvBody_response fuel checksumBuff op messageNum hbuf rfl hl₂
            (hbegun₂.trans hbegun) (hsent₂.trans hsent) (Nat.le_trans htorn htorn₂)).mono
            fun r l' hr hpos => ?_
          obtain ⟨hnum, hack, hr⟩ := hr hpos
          exact ⟨f, hf, hnum, hack, hr⟩
        · -- A header that is not there is an error.
          rw [read_short henough, if_pos (env.fails 5 l₁.calls)]
          exact .done fun h => absurd (show 0 ≤ errorHeader from h) (by decide)

end Receiving

/-! ## Whole sessions -/

/-- A response is one the module has given, under the number of the command it answers. -/
structure Genuine (env : Surroundings) (sent : Nat) (f : Response) : Prop where
  past : f.cmd < sent
  num : f.messageNum = BitVec.ofNat 8 f.cmd
  answer : env.answer f.cmd = some f.answer

/-- Between two commands: the host and the module have counted the same, and what is unread
is genuine. -/
structure Synced (env : Surroundings) (messageNum : U32) (l : Line) : Prop where
  received : l.received = []
  count : messageNum = BitVec.ofNat 32 l.sent
  genuine : ∀ f ∈ l.unread, Genuine env l.sent f

/-- No response that is unread when the exchange starts answers a command 256 or more
before this one. -/
def InTime (x : Exchange) : Prop :=
  ∀ f ∈ x.pre.2.unread, x.pre.2.sent < f.cmd + 256

/-- Nothing that is left of a response begun looks like the start of a frame. -/
def ClearRest (x : Exchange) : Prop :=
  frameStart ∉ x.pre.2.rest

/-- The read of the payload of the response to this command does not fail: what is read has
arrived. -/
def WholePayload (x : Exchange) : Prop :=
  x.post.2.torn = x.pre.2.torn

/-- If the exchange returns a length, it has stored that many bytes, the payload of the
module's response to this very command. -/
def Agrees (env : Surroundings) (x : Exchange) : Prop :=
  0 ≤ x.out.1 → ∃ a, env.answer x.pre.2.sent = some a ∧ a.ack = 0 ∧
    x.out = ((a.payload.length : Int), withPayload x.input.command.bufOut a.payload)

theorem byte_ofNat (n : Nat) : (BitVec.ofNat 32 n).setWidth 8 = BitVec.ofNat 8 n := by
  apply BitVec.eq_of_toNat_eq
  rw [BitVec.toNat_setWidth, BitVec.toNat_ofNat, BitVec.toNat_ofNat]
  omega

/-- The responses unread once a command has been sent are genuine, the new one too. -/
theorem answered_genuine {messageNum : U32} {l l' : Line} {op : U8}
    (hs : Synced env messageNum l) (h : Answered env l op (messageNum.setWidth 8) l') :
    ∀ f ∈ l'.unread, Genuine env (l.sent + 1) f ∧ (f ∈ l.unread ∨ f.cmd = l.sent) := by
  intro f hf
  rw [h.unread] at hf
  rcases List.mem_append.mp hf with hf | hf
  · obtain ⟨hpast, hnum, hanswer⟩ := hs.genuine f hf
    exact ⟨⟨by omega, hnum, hanswer⟩, Or.inl hf⟩
  · obtain ⟨a, ha, rfl⟩ := List.mem_map.mp hf
    refine ⟨⟨Nat.lt_succ_self _, ?_, Option.mem_toList.mp ha⟩, Or.inr rfl⟩
    show messageNum.setWidth 8 = BitVec.ofNat 8 l.sent
    rw [hs.count, byte_ofNat]

/-- `hal_read_write`, behind its check of the arguments. -/
theorem halReadWrite_wlp {messageNum : U32} {l : Line} (hs : Synced env messageNum l) (fuel : Nat)
    (checksumBuff : List U8) (c : Command) {Q : (Int × Option (List U8)) × U32 → Line → Prop}
    (hbad : Q ((errorIncorrectParameter, c.bufOut), messageNum) l)
    (hgo : ∀ l', Answered env l c.op (messageNum.setWidth 8) l' →
      c.outLen.toNat ≤ (c.bufOut.getD []).length →
      Wlp (session env)
        (recvPacket fuel checksumBuff c.op (messageNum.setWidth 8) c.bufOut c.outLen) l'
        fun r l'' => Q (r, messageNum + 1) l'') :
    Wlp (session env) (halReadWrite fuel checksumBuff messageNum c) l Q := by
  unfold halReadWrite
  split
  next => exact .done hbad
  next hin =>
    split
    next => exact .done hbad
    next hout =>
      have hinFits := badBuffer_fits (Bool.eq_false_iff.mpr hin) c.inFits
      have houtFits := badBuffer_fits (Bool.eq_false_iff.mpr hout) c.outFits
      refine Wlp.bind ((sendPacket_wlp c.op _ hinFits hs.received).mono fun _ l' hl' => ?_)
      exact Wlp.bind ((hgo l' hl' houtFits).mono fun r l'' hr => .done hr)

/-- An exchange keeps host and module synced. -/
theorem exchange_synced {x : Exchange} (hx : x.Valid (exchange env))
    (hs : Synced env x.pre.1 x.pre.2) : Synced env x.post.1 x.post.2 := by
  refine halReadWrite_wlp (Q := fun r l => Synced env r.2 l) hs x.input.fuel x.input.checksumBuff
    x.input.command hs ?_ _ _ (exchange_ends hx)
  intro l' hl' _
  -- Receiving takes responses away and adds none.
  have hkeep : Wlp (session env) (recvPacket x.input.fuel x.input.checksumBuff x.input.command.op
      (x.pre.1.setWidth 8) x.input.command.bufOut x.input.command.outLen) l' fun _ l'' =>
        l''.received = [] ∧ l''.sent = x.pre.2.sent + 1 ∧
          ∀ f ∈ l''.unread, Genuine env (x.pre.2.sent + 1) f := by
    refine Wlp.invariant (recvPacket_only _ _ _ _ _ _) ?_
      ⟨hl'.received, hl'.sent, fun f hf => (answered_genuine hs hl' f hf).1⟩
    intro e l he hl
    obtain ⟨hrec, hsent, hgen⟩ := hl
    obtain ⟨hrec', hsent', hmem, -⟩ := @listen_keeps env e he l
    exact ⟨hrec'.trans hrec, hsent'.trans hsent, fun f hf => hgen f (hmem f hf)⟩
  refine hkeep.mono fun r l'' hl'' => ?_
  obtain ⟨hrec, hsent, hgen⟩ := hl''
  refine ⟨hrec, ?_, fun f hf => hsent ▸ hgen f hf⟩
  rw [hsent, hs.count, BitVec.ofNat_add]
  rfl

/-- Every reachable host is synced with its module. -/
theorem session_synced {hist : List Exchange} {s : U32 × Line} (h : SessionRun env hist s) :
    Synced env s.1 s.2 := by
  refine Run.always (P := fun s => Synced env s.1 s.2) h ⟨rfl, rfl, ?_⟩
    fun x hx hs => exchange_synced hx hs
  intro f hf
  cases hf

/-- An exchange that starts in time and with a clear rest and reads the payload whole agrees. -/
theorem exchange_agrees {x : Exchange} (hx : x.Valid (exchange env))
    (hs : Synced env x.pre.1 x.pre.2) (htime : InTime x) (hclear : ClearRest x)
    (hwhole : WholePayload x) : Agrees env x := by
  refine halReadWrite_wlp (Q := fun r l => l.torn = x.pre.2.torn → 0 ≤ r.1.1 →
      ∃ a, env.answer x.pre.2.sent = some a ∧ a.ack = 0 ∧
        r.1 = ((a.payload.length : Int), withPayload x.input.command.bufOut a.payload))
    hs x.input.fuel x.input.checksumBuff x.input.command ?_ ?_ _ _ (exchange_ends hx) hwhole
  · exact fun _ h => absurd (show 0 ≤ errorIncorrectParameter from h) (by decide)
  intro l' hl' hfits
  refine (recvPacket_response x.input.fuel x.input.checksumBuff x.input.command.op
    (x.pre.1.setWidth 8) hfits (hl'.rest ▸ hclear) (answered_genuine hs hl')).mono
    fun r l'' hr hwhole hpos => ?_
  obtain ⟨f, ⟨hgen, hold⟩, hnum, hack, hr⟩ := hr hpos
  -- Of the last 256 commands only this one has the number.
  have hcmd : f.cmd = x.pre.2.sent := by
    have hnum := hgen.num.symm.trans hnum
    rw [hs.count, byte_ofNat] at hnum
    have hmod : f.cmd % 256 = x.pre.2.sent % 256 := by
      have := congrArg BitVec.toNat hnum
      simpa [BitVec.toNat_ofNat] using this
    have hpast := hgen.past
    rcases hold with hmem | heq
    · have := htime f hmem
      omega
    · exact heq
  have hlast : f.cmd + 1 = l'.sent := by rw [hcmd, hl'.sent]
  have htorn : l''.torn ≤ l'.torn := Nat.le_of_eq (hwhole.trans hl'.torn.symm)
  exact ⟨f.answer, hcmd ▸ hgen.answer, hack, hr hlast htorn⟩

/-- The response to the first command arrives late, during the second: the clock jumps by
three seconds in the wait for it. -/
def lateFirst (answer : Nat → Option Answer) : Surroundings where
  answer := answer
  arrivals := fun i => if i < 5 then 0 else 1000
  clock := fun i => (0, ⟨if i < 4 then 0 else 3, 0⟩)
  breaks := fun _ => false
  short := fun _ _ => ⟨-1, [], Nat.zero_le _, fun h => absurd h (by decide)⟩
  fails := fun _ _ => show (-1 : Int) < 0 by decide
  taken := fun _ => 0

/-- A retrieval of a message into a buffer of 16 bytes. -/
def retrieve : Request where
  command :=
    { op := 43
      bufIn := none
      inLen := 0
      bufOut := some (List.replicate 16 0)
      outLen := 16
      inFits := by
        intro b h
        cases h
      outFits := by
        intro b h
        cases h
        decide }
  checksumBuff := [0, 0]
  fuel := 30

/-- **Response agreement.** In every session, each exchange that starts in time and with
nothing left that looks like a frame, and whose read of the payload does not fail, returns its
own response or an error. -/
theorem agreement {hist : List Exchange} {s : U32 × Line} (h : SessionRun env hist s) :
    ∀ x ∈ hist, InTime x → ClearRest x → WholePayload x → Agrees env x := by
  intro x hx htime hclear hwhole
  obtain ⟨⟨hist', hrun, -⟩, hv⟩ := Run.mem h hx
  exact exchange_agrees hv (session_synced hrun) htime hclear hwhole

/-- A late response of three bytes leaves three bytes behind; the third command skips them
and gets its own response. -/
theorem agreement_late :
    let env := lateFirst fun k =>
      if k = 0 then some ⟨0, [1, 2, 3], by decide⟩
      else if k = 2 then some ⟨0, [5], by decide⟩ else none
    ∃ x ∈ sessionHist env [retrieve, retrieve, retrieve],
      x.pre.2.rest.length = 3 ∧ x.out.1 = 1 ∧ Agrees env x := by
  intro env
  obtain ⟨s, hrun⟩ := sessionHist_run env [retrieve, retrieve, retrieve]
  have hthird : ((sessionHist env [retrieve, retrieve, retrieve])[2]?.map fun x =>
      (x.pre.2.rest.length, x.out.1, decide (∀ f ∈ x.pre.2.unread, x.pre.2.sent < f.cmd + 256),
        decide (frameStart ∉ x.pre.2.rest), decide (x.post.2.torn = x.pre.2.torn))) =
          some (3, 1, true, true, true) := by
    decide +kernel
  obtain ⟨x, hx, heq⟩ := Option.map_eq_some_iff.mp hthird
  simp only [Prod.mk.injEq, decide_eq_true_eq] at heq
  obtain ⟨hrest, hout, htime, hclear, hwhole⟩ := heq
  have hmem := List.mem_of_getElem? hx
  exact ⟨x, hmem, hrest, hout, agreement hrun x hmem htime hclear hwhole⟩

/-- Two bytes, then a response to command 2 with the payload `[77]`. -/
def nested : Answer :=
  ⟨0, [0, 0] ++ respFrame 43 2 0 [77], by decide⟩

/-- **A stale payload is accepted**: the third command, which the module has not answered,
returns the byte 77 out of the payload of the response to the first. -/
theorem stale_payload_accepted :
    ∃ env hist s, SessionRun env hist s ∧ (∀ x ∈ hist, InTime x) ∧
      (∀ x ∈ hist, WholePayload x) ∧ ∃ x ∈ hist, ¬ Agrees env x := by
  let env := lateFirst fun k => if k = 0 then some nested else none
  obtain ⟨s, hrun⟩ := sessionHist_run env [retrieve, retrieve, retrieve]
  have htime : ∀ x ∈ sessionHist env [retrieve, retrieve, retrieve],
      ∀ f ∈ x.pre.2.unread, x.pre.2.sent < f.cmd + 256 := by decide +kernel
  have hwhole : ∀ x ∈ sessionHist env [retrieve, retrieve, retrieve],
      x.post.2.torn = x.pre.2.torn := by decide +kernel
  have hlast : (2, (1 : Int)) ∈
      (sessionHist env [retrieve, retrieve, retrieve]).map fun x => (x.pre.2.sent, x.out.1) := by
    decide +kernel
  obtain ⟨x, hx, heq⟩ := List.mem_map.mp hlast
  simp only [Prod.mk.injEq] at heq
  obtain ⟨hsent, hout⟩ := heq
  refine ⟨env, _, s, hrun, htime, hwhole, x, hx, fun hagrees => ?_⟩
  obtain ⟨a, ha, -⟩ := hagrees (by rw [hout]; decide)
  rw [hsent] at ha
  cases ha

/-- The header of every response is there in time, its payload only one read later. -/
def latePayload (answer : Nat → Option Answer) : Surroundings where
  answer := answer
  arrivals := fun i => if i = 5 then 6 else if i < 9 then 0 else 1000
  clock := fun _ => (0, ⟨0, 0⟩)
  breaks := fun _ => false
  short := fun _ _ => ⟨-1, [], Nat.zero_le _, fun h => absurd h (by decide)⟩
  fails := fun _ _ => show (-1 : Int) < 0 by decide
  taken := fun _ => 0

/-- A payload of two bytes, the checksum of a response with two bytes of zero. -/
def selfSummed : Answer :=
  ⟨0, be16 (computeChecksum (respHeader 43 0 0 2) [0, 0]), by decide⟩

/-- **A torn payload is accepted**: the read of the payload fails, its two bytes arrive and
are taken for the checksum, and the first command returns what was in its buffer. -/
theorem torn_payload_accepted :
    ∃ env hist s, SessionRun env hist s ∧ (∀ x ∈ hist, InTime x) ∧ (∀ x ∈ hist, ClearRest x) ∧
      ∃ x ∈ hist, ¬ Agrees env x := by
  let env := latePayload fun _ => some selfSummed
  obtain ⟨s, hrun⟩ := sessionHist_run env [retrieve]
  have htime : ∀ x ∈ sessionHist env [retrieve],
      ∀ f ∈ x.pre.2.unread, x.pre.2.sent < f.cmd + 256 := by decide +kernel
  have hclear : ∀ x ∈ sessionHist env [retrieve], frameStart ∉ x.pre.2.rest := by decide +kernel
  have hfirst : (some (List.replicate 16 (0 : U8)), (2 : Int), some (List.replicate 16 (0 : U8))) ∈
      (sessionHist env [retrieve]).map fun x => (x.input.command.bufOut, x.out) := by
    decide +kernel
  obtain ⟨x, hx, heq⟩ := List.mem_map.mp hfirst
  rw [Prod.mk.injEq] at heq
  obtain ⟨hbuf, hout⟩ := heq
  refine ⟨env, _, s, hrun, htime, hclear, x, hx, fun hagrees => ?_⟩
  obtain ⟨a, ha, -, hstored⟩ := hagrees (by rw [hout]; decide)
  obtain rfl : selfSummed = a := Option.some.inj ha
  rw [hout, hbuf] at hstored
  exact absurd hstored (by decide +kernel)

end HostInterface.Ifc
