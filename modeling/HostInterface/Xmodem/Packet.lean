import HostInterface.Xmodem.Sender

/-!
# One transmission

What `ll_xmodem_send_packet` puts on the line, and what one turn of the data loop makes
of the answer.

The packet is built by stores into a buffer full of `<SUB>`; `buildPacket_eq` reads it off
as a `frame` around the padded bytes. The wait for an answer writes nothing and ends with
an error or with one of the responses (`getClientResponse_runs`). `Transfer.Next` says of
the variables of the data loop that packet `k` is the next one: a turn from there sends
that packet (`frame_next`), and one that leads to a further turn moves on by one packet
on `ACK`, reporting it, and stays where it is on anything else (`sendTurn_runs_ok`).
-/

namespace HostInterface.Xmodem

open Interact Prog Buffer

/-! ## Packets -/

/-- How many packets a payload takes. -/
def numPackets (size : Nat) : Nat :=
  (size + 127) / 128

/-- The bytes of the payload that go out in packet `k`. -/
def chunk (payload : Ptr) (size k : Nat) : List U8 :=
  ((payload.bytes size).drop (128 * k)).take 128

/-- Filled up to 128 bytes. -/
def padded (data : List U8) : List U8 :=
  data ++ List.replicate (128 - data.length) sub

/-- A packet: the start of header, its number and the complement, 128 bytes, and their
checksum, high byte first. -/
def frame (char : PlainChar) (number : U8) (data : List U8) : List U8 :=
  let crc := crc16 char (padded data)
  [soh, number, 255 - number] ++ padded data ++ [(crc >>> 8).setWidth 8, crc.setWidth 8]

/-- Packet `k` of a payload. The number on it starts at one. -/
def dataPacket (char : PlainChar) (payload : Ptr) (size k : Nat) : List U8 :=
  frame char (BitVec.ofNat 8 (k + 1)) (chunk payload size k)

theorem length_padded {data : List U8} (h : data.length ≤ 128) : (padded data).length = 128 := by
  unfold padded
  rw [List.length_append, List.length_replicate]
  omega

theorem length_frame {char : PlainChar} {number : U8} {data : List U8} (h : data.length ≤ 128) :
    (frame char number data).length = 133 := by
  unfold frame
  simp only [List.length_append, length_padded h, List.length_cons, List.length_nil]

theorem length_chunk_le (payload : Ptr) (size k : Nat) : (chunk payload size k).length ≤ 128 := by
  unfold chunk
  rw [List.length_take]
  omega

theorem length_dataPacket (char : PlainChar) (payload : Ptr) (size k : Nat) :
    (dataPacket char payload size k).length = 133 :=
  length_frame (length_chunk_le payload size k)

/-- A run of equal items, inside one. -/
theorem at_replicate {α : Type} {a : α} {n i m : Nat} (h : i + m ≤ n) :
    At (List.replicate n a) i (List.replicate m a) := by
  intro j hj
  rw [List.length_replicate] at hj
  rw [List.getElem?_replicate, List.getElem?_replicate, if_pos (by omega), if_pos hj]

/-- What the stores build. -/
theorem buildPacket_eq {char : PlainChar} {number : U8} {data : List U8} (h : data.length ≤ 128) :
    buildPacket char data number = frame char number data := by
  have hnumber : number &&& 0xff#8 = number := BitVec.and_allOnes
  have hpad := length_padded h
  unfold buildPacket
  dsimp only
  rw [hnumber]
  -- In front of the checksum.
  generalize hpacket : store (store (store (store (List.replicate 133 sub) 0 [soh]) 1 [number]) 2
    [0xff#8 - number]) 3 data = packet
  have hlen : packet.length = 133 := by simp [← hpacket]
  have hroom : ∀ l : List U8, l.length = 133 → ∀ i b, i < 133 → At (store l i [b]) i [b] :=
    fun l hl i b hi => at_store (by rw [hl]; exact hi)
  have hfront : At packet 0 ([soh] ++ ([number] ++ ([0xff#8 - number] ++ padded data))) := by
    rw [← hpacket]
    refine at_append.mpr ⟨?_, at_append.mpr ⟨?_, at_append.mpr ⟨?_, at_append.mpr ⟨?_, ?_⟩⟩⟩⟩
    · exact (((hroom _ (by simp) 0 soh (by omega)).store (by simp)).store (by simp)).store (by simp)
    · exact ((hroom _ (by simp) 1 number (by omega)).store (by simp)).store (by simp)
    · exact (hroom _ (by simp) 2 _ (by omega)).store (by simp)
    · exact at_store (by simp; omega)
    · -- What is not stored over is still there.
      refine ((((at_replicate ?_).store ?_).store ?_).store ?_).store (Or.inr ?_)
      · simp; omega
      · simp; omega
      · simp; omega
      · simp
      · simp
  have hdata : At packet 3 (padded data) := by
    rw [at_append, at_append, at_append] at hfront
    exact hfront.2.2.2
  have hslice : (packet.drop 3).take 128 = padded data := by
    rw [List.take_drop, ← hpad]
    exact hdata.drop_take (by omega)
  rw [hslice]
  unfold frame
  dsimp only
  generalize crc16 char (padded data) = crc
  have hlow : (crc &&& 0xff#16).setWidth 8 = crc.setWidth 8 := by
    apply BitVec.eq_of_toNat_eq
    rw [BitVec.toNat_setWidth, BitVec.toNat_setWidth, BitVec.toNat_and,
      show (0xff#16).toNat = 2 ^ 8 - 1 from rfl, Nat.and_two_pow_sub_one_eq_mod, Nat.mod_mod]
  rw [hlow]
  have hall : At (store (store packet 132 [crc.setWidth 8]) 131 [(crc >>> 8).setWidth 8]) 0
      ([soh, number, 0xff#8 - number] ++ padded data ++
        ([(crc >>> 8).setWidth 8] ++ [crc.setWidth 8])) := by
    refine at_append.mpr ⟨?_, at_append.mpr ⟨?_, ?_⟩⟩
    · exact (hfront.store (by simp; omega)).store (by simp; omega)
    · simpa [hpad] using hroom (store packet 132 [crc.setWidth 8]) (by simp [hlen]) 131
        ((crc >>> 8).setWidth 8) (by omega)
    · have hlast := (hroom packet hlen 132 (crc.setWidth 8) (by omega)).store
        (Or.inr (Nat.le_refl (131 + [(crc >>> 8).setWidth 8].length)))
      simpa [hpad] using hlast
  have htake := hall.take_eq (by simp; omega)
  rw [List.take_of_length_le (by simp; omega)] at htake
  exact htake

/-- The bytes of packet `k`, as the sender points at them. -/
theorem chunk_eq (payload : Ptr) (size k : Nat) :
    chunk payload size k =
      (Ptr.mk payload.mem (payload.off + 128 * k)).bytes (min 128 (size - 128 * k)) := by
  unfold chunk
  apply List.ext_getElem
  · rw [List.length_take, List.length_drop, Ptr.length_bytes, Ptr.length_bytes]
  · intro i h₁ h₂
    rw [List.getElem_take, List.getElem_drop, Ptr.getElem_bytes, Ptr.getElem_bytes, Nat.add_assoc]

/-! ## Answers -/

/-- What the sender does while it waits for an answer. -/
def Waits : Call → Prop
  | .transportRead => True
  | .gettime => True
  | _ => False

theorem waits_iff {c : Call} : Waits c ↔ c = .transportRead ∨ c = .gettime := by
  cases c <;> simp [Waits]

theorem llDifftimeFromNow_only {G : Call → Prop} (h : G .gettime) (t : Time) :
    Only G (llDifftimeFromNow t) :=
  .call h fun _ => trivial

theorem getClientResponse_only (fuel : Nat) (response : U8) :
    Only Waits (getClientResponse fuel response) := by
  refine .call trivial fun timeStart => Only.iterate fun response => .call trivial fun r => ?_
  refine .ite trivial (.bind (llDifftimeFromNow_only trivial _) fun _ time _ => .ite trivial ?_)
  trivial

/-- What a turn of the loop for the client's response can be. -/
inductive ResponseTurn (timeStart : Time) (old : U8) : List Ev → Turn (Int × U8) U8 → Prop
  | failed {r : ReadReply} : r.ret < -1 →
      ResponseTurn timeStart old [⟨.transportRead, r⟩] (.stop (r.ret, r.stored.getD old))
  | timedOut (r : ReadReply) (now : Time) :
      ResponseTurn timeStart old [⟨.transportRead, r⟩, ⟨.gettime, now⟩]
        (.stop (-2, r.stored.getD old))
  | answered {r : ReadReply} {now : Time} :
      -1 ≤ r.ret → isResponse (r.stored.getD old) = true →
      ResponseTurn timeStart old [⟨.transportRead, r⟩, ⟨.gettime, now⟩]
        (.stop (0, r.stored.getD old))
  | ignored {r : ReadReply} {now : Time} : isResponse (r.stored.getD old) = false →
      ResponseTurn timeStart old [⟨.transportRead, r⟩, ⟨.gettime, now⟩] (.next (r.stored.getD old))

theorem clientResponseTurn_runs {timeStart : Time} {old : U8} {evs : List Ev}
    {t : Turn (Int × U8) U8} (h : Runs (clientResponseTurn timeStart old) evs t) :
    ResponseTurn timeStart old evs t := by
  unfold clientResponseTurn at h
  rw [runs_call] at h
  obtain ⟨r, evs, rfl, h⟩ := h
  split at h
  next hret =>
    obtain ⟨rfl, rfl⟩ := runs_pure.mp h
    exact .failed hret
  next hret =>
    unfold llDifftimeFromNow at h
    rw [call_bind, runs_call] at h
    obtain ⟨now, evs, rfl, h⟩ := h
    rw [done_bind] at h
    split at h
    next =>
      obtain ⟨rfl, rfl⟩ := runs_pure.mp h
      exact .timedOut r now
    next =>
      obtain ⟨rfl, rfl⟩ := runs_pure.mp h
      split
      next hresp => exact .answered (Int.not_lt.mp hret) hresp
      next hresp => exact .ignored (Bool.eq_false_iff.mpr hresp)

/-- The last turn of a loop that has answered, and what `*response` held in front of it: what
it held at first, or a byte that is no response. -/
theorem getClientResponse_last {fuel : Nat} {old response : U8} {evs : List Ev} {ret : Int}
    (h : Runs (getClientResponse fuel old) evs (ret, response)) :
    ∃ timeStart front prev last, evs = front ++ last ∧ (prev = old ∨ isResponse prev = false) ∧
      ResponseTurn timeStart prev last (.stop (ret, response)) := by
  unfold getClientResponse at h
  rw [runs_call] at h
  obtain ⟨timeStart, evs, rfl, h⟩ := h
  obtain ⟨prev, mid, last, hprev, rfl, hlast⟩ :=
    runs_iterate (I := fun prev _ => prev = old ∨ isResponse prev = false) h
      (Or.inl rfl) fun prev pre evs next _ hturn => by
        cases clientResponseTurn_runs hturn with
        | ignored hresp => exact Or.inr hresp
  exact ⟨timeStart, ⟨.gettime, timeStart⟩ :: mid, prev, last, rfl, hprev,
    clientResponseTurn_runs hlast⟩

/-- An answer is an error or one of the responses. -/
theorem getClientResponse_runs {fuel : Nat} {old response : U8} {evs : List Ev} {ret : Int}
    (h : Runs (getClientResponse fuel old) evs (ret, response)) :
    ret < 0 ∨ ret = 0 ∧ isResponse response = true := by
  obtain ⟨_, _, _, _, -, -, hturn⟩ := getClientResponse_last h
  cases hturn with
  | failed hret => exact Or.inl (by omega)
  | timedOut => exact Or.inl (by decide)
  | answered _ hresp => exact Or.inr ⟨rfl, hresp⟩

/-! ## One turn of the data loop -/

section

variable {char : PlainChar} {fuel : Nat} {payload : Ptr} {payloadLen : SizeT} {k : Nat}

/-- Packet `k` is the next one. -/
structure Transfer.Next (payloadLen : SizeT) (k : Nat) (s : Transfer) : Prop where
  offset : s.offset.toNat = 128 * k
  number : s.packetNumber = BitVec.ofNat 8 (k + 1)
  room : 128 * k < payloadLen.toNat

theorem bytesToSend_toNat {offset : U32} (h : offset.toNat ≤ payloadLen.toNat) :
    (bytesToSend payloadLen offset).toNat = min 128 (payloadLen.toNat - offset.toNat) := by
  have hoff : (offset.setWidth 64).toNat = offset.toNat := by
    rw [BitVec.toNat_setWidth]
    exact Nat.mod_eq_of_lt (by have := offset.isLt; omega)
  have hsub : (payloadLen - offset.setWidth 64).toNat = payloadLen.toNat - offset.toNat := by
    rw [BitVec.toNat_sub_of_le (by rw [BitVec.le_def, hoff]; exact h), hoff]
  unfold bytesToSend
  split
  next hlt =>
    rw [BitVec.lt_def, hsub] at hlt
    have : (128#64).toNat = 128 := rfl
    have : (128 : U8).toNat = 128 := rfl
    omega
  next hge =>
    rw [BitVec.lt_def, hsub] at hge
    have : (128#64).toNat = 128 := rfl
    rw [BitVec.toNat_setWidth, hsub]
    omega

theorem bytesToSend_le (offset : U32) :
    ((bytesToSend payloadLen offset).setWidth 16).toNat ≤ 128 := by
  have hle : (bytesToSend payloadLen offset).toNat ≤ 128 := by
    unfold bytesToSend
    split
    next => exact Nat.le_refl _
    next hge =>
      rw [BitVec.lt_def] at hge
      rw [BitVec.toNat_setWidth]
      exact Nat.le_trans (Nat.mod_le _ _) (Nat.not_lt.mp hge)
  rw [BitVec.toNat_setWidth]
  exact Nat.le_trans (Nat.mod_le _ _) hle

theorem bytesToSend_next {s : Transfer} (hs : s.Next payloadLen k) :
    (bytesToSend payloadLen s.offset).toNat = min 128 (payloadLen.toNat - 128 * k) := by
  have hroom := hs.room
  rw [bytesToSend_toNat (by rw [hs.offset]; omega), hs.offset]

/-- Where the offset comes to on `ACK`. -/
theorem Transfer.Next.offset_ack {s : Transfer} (hs : s.Next payloadLen k)
    (hsmall : payloadLen.toNat < 0x100000000) :
    (s.offset + (bytesToSend payloadLen s.offset).setWidth 32).toNat =
      min (128 * (k + 1)) payloadLen.toNat := by
  have hroom := hs.room
  rw [BitVec.toNat_add, BitVec.toNat_setWidth, bytesToSend_next hs, hs.offset]
  omega

theorem number_succ (k : Nat) : BitVec.ofNat 8 (k + 1) + 1 = BitVec.ofNat 8 (k + 2) := by
  apply BitVec.eq_of_toNat_eq
  rw [BitVec.toNat_add, BitVec.toNat_ofNat, BitVec.toNat_ofNat, show (1 : U8).toNat = 1 from rfl]
  omega

/-- What `ll_xmodem_send_packet` does: it writes the packet, once, and returns an error
or the response. -/
theorem sendPacket_runs {p : Ptr} {len : U16} {number : U8} {evs : List Ev} {ret : Int}
    (hlen : len.toNat ≤ 128) (h : Runs (sendPacket char fuel p len number) evs ret) :
    ∃ w wait, evs = ⟨.transportWrite (frame char number (p.bytes len.toNat)), w⟩ :: wait ∧
      (ret < 0 ∨ (0 : Int) ≤ w ∧ ∃ response : U8,
        Runs (getClientResponse fuel 0) wait (0, response) ∧ isResponse response = true ∧
          ret = response.toNat) := by
  unfold sendPacket at h
  rw [if_neg (Nat.not_lt.mpr hlen), buildPacket_eq (by rw [Ptr.length_bytes]; exact hlen),
    runs_call] at h
  obtain ⟨w, wait, rfl, h⟩ := h
  refine ⟨w, wait, rfl, ?_⟩
  split at h
  next hw =>
    obtain ⟨-, rfl⟩ := runs_pure.mp h
    exact Or.inl hw
  next hw =>
    obtain ⟨wait, ⟨r, response⟩, tail, hresp, hrest, rfl⟩ := runs_bind.mp h
    dsimp only at hrest
    rcases getClientResponse_runs hresp with hneg | ⟨rfl, his⟩
    · rw [if_pos hneg] at hrest
      obtain ⟨-, rfl⟩ := runs_pure.mp hrest
      exact Or.inl hneg
    · rw [if_neg (Int.lt_irrefl 0)] at hrest
      obtain ⟨rfl, rfl⟩ := runs_pure.mp hrest
      rw [List.append_nil]
      exact Or.inr ⟨Int.not_lt.mp hw, response, hresp, his, rfl⟩

/-- Where packet `k` is next, the sender points at its bytes. -/
theorem frame_next {s : Transfer} (hs : s.Next payloadLen k) :
    frame char s.packetNumber
        ((Ptr.mk payload.mem (payload.off + s.offset.toNat)).bytes
          ((bytesToSend payloadLen s.offset).setWidth 16).toNat) =
      dataPacket char payload payloadLen.toNat k := by
  have hlen : ((bytesToSend payloadLen s.offset).setWidth 16).toNat =
      min 128 (payloadLen.toNat - 128 * k) := by
    rw [BitVec.toNat_setWidth, bytesToSend_next hs]
    omega
  unfold dataPacket
  rw [hlen, hs.offset, hs.number, chunk_eq]

/-- The calls of a transmission: the packet is written, and the answer awaited. -/
def Sends (packet : List U8) (c : Call) : Prop :=
  c = .transportWrite packet ∨ Waits c

theorem sendPacket_only {p : Ptr} {len : U16} {number : U8} :
    Only (Sends (buildPacket char (p.bytes len.toNat) number))
      (sendPacket char fuel p len number) := by
  unfold sendPacket
  refine .ite trivial (.call (Or.inl rfl) fun w => .ite trivial (.bind ?_ fun _ x _ => ?_))
  · exact (getClientResponse_only fuel 0).mono fun _ => Or.inr
  · exact .ite trivial trivial

/-- On anything but `ACK`, nothing is called and the position stays. -/
theorem handleResponse_done {s : Transfer} {bytes : U8} {ret : Int} (hret : ret ≠ ack.toNat) :
    ∃ out, handleResponse payloadLen s bytes ret = .done out ∧
      (∀ s', out = .ok s' → 0 ≤ ret ∧ s'.offset = s.offset ∧ s'.packetNumber = s.packetNumber) ∧
      ∀ err, out = .error err → err < 0 := by
  unfold handleResponse
  rw [if_neg hret]
  split
  next hnak =>
    refine ⟨_, rfl, fun s' hout => ?_, fun err hout => ?_⟩
    · split at hout
      next => cases hout
      next =>
        obtain rfl := Except.ok.inj hout
        exact ⟨by omega, rfl, rfl⟩
    · split at hout
      next =>
        obtain rfl := Except.error.inj hout
        decide
      next => cases hout
  next =>
    split
    next =>
      refine ⟨_, rfl, nofun, fun err hout => ?_⟩
      obtain rfl := Except.error.inj hout
      decide
    next =>
      split
      next hccc =>
        refine ⟨_, rfl, fun s' hout => ?_, nofun⟩
        obtain rfl := Except.ok.inj hout
        exact ⟨by omega, rfl, rfl⟩
      next =>
        split
        next hneg =>
          refine ⟨_, rfl, nofun, fun err hout => ?_⟩
          obtain rfl := Except.error.inj hout
          exact hneg
        next hpos =>
          refine ⟨_, rfl, fun s' hout => ?_, nofun⟩
          obtain rfl := Except.ok.inj hout
          exact ⟨Int.not_lt.mp hpos, rfl, rfl⟩

/-- A turn that leads to the next: the packet is written, the answer awaited, and the
progress reported on `ACK`. -/
theorem sendTurn_runs_ok {s s' : Transfer} {evs : List Ev} (hs : s.Next payloadLen k)
    (hsmall : payloadLen.toNat < 0x100000000)
    (h : Runs (sendTurn char fuel payload payloadLen s) evs (.ok s')) :
    ∃ w wait answer report, (0 : Int) ≤ w ∧ Runs (getClientResponse fuel 0) wait (0, answer) ∧
      evs = ⟨.transportWrite (dataPacket char payload payloadLen.toNat k), w⟩ :: (wait ++ report) ∧
      if answer = ack then
        (∃ x, report = [⟨.progress s'.offset (payloadLen.setWidth 32), x⟩]) ∧
          s'.offset.toNat = min (128 * (k + 1)) payloadLen.toNat ∧
          s'.packetNumber = BitVec.ofNat 8 (k + 2)
      else report = [] ∧ s'.offset = s.offset ∧ s'.packetNumber = s.packetNumber := by
  unfold sendTurn at h
  obtain ⟨evs, ret, report, hsend, htail, rfl⟩ := runs_bind.mp h
  obtain ⟨w, wait, rfl, hret⟩ := sendPacket_runs (bytesToSend_le s.offset) hsend
  rw [frame_next hs]
  by_cases hack : ret = ack.toNat
  · rcases hret with hneg | ⟨hw, answer, hwait, -, hanswer⟩
    · rw [hack] at hneg
      exact absurd hneg (by decide)
    · refine ⟨w, wait, answer, report, hw, hwait, rfl, ?_⟩
      rw [if_pos (BitVec.eq_of_toNat_eq (Int.ofNat.inj (hanswer.symm.trans hack)))]
      unfold handleResponse at htail
      rw [if_pos hack, runs_call] at htail
      obtain ⟨x, tail, rfl, htail⟩ := htail
      obtain ⟨rfl, hout⟩ := runs_done.mp htail
      obtain rfl := Except.ok.inj hout
      refine ⟨⟨x, rfl⟩, hs.offset_ack hsmall, ?_⟩
      show s.packetNumber + 1 = _
      rw [hs.number, number_succ]
  · obtain ⟨out, hdone, hout, -⟩ := handleResponse_done (s := s) hack
    rw [hdone, runs_done] at htail
    obtain ⟨rfl, rfl⟩ := htail
    obtain ⟨hpos, hkeep⟩ := hout s' rfl
    rcases hret with hneg | ⟨hw, answer, hwait, -, rfl⟩
    · exact absurd hneg (Int.not_lt.mpr hpos)
    · refine ⟨w, wait, answer, [], hw, hwait, rfl, ?_⟩
      rw [if_neg fun heq => hack (by rw [heq])]
      exact ⟨rfl, hkeep⟩

/-- What a turn hands to the caller is negative. -/
theorem sendTurn_error {s : Transfer} {evs : List Ev} {ret : Int}
    (h : Runs (sendTurn char fuel payload payloadLen s) evs (.error ret)) : ret < 0 := by
  unfold sendTurn at h
  obtain ⟨evs, r, tail, hsend, htail, rfl⟩ := runs_bind.mp h
  by_cases hack : r = ack.toNat
  · unfold handleResponse at htail
    rw [if_pos hack, runs_call] at htail
    obtain ⟨_, _, _, hdone⟩ := htail
    cases (runs_done.mp hdone).2
  · obtain ⟨out, hdone, -, herr⟩ := handleResponse_done (s := s) hack
    rw [hdone] at htail
    exact herr ret (runs_done.mp htail).2.symm

/-- Any other turn, ended or cut, sends the packet, and that is all. -/
theorem sendTurn_sends {s : Transfer} {evs : List Ev} {out : Option (Except Int Transfer)}
    (hs : s.Next payloadLen k) (h : Traces (sendTurn char fuel payload payloadLen s) evs out)
    (hout : ∀ s', out ≠ some (.ok s')) :
    ∀ ev ∈ evs, Sends (dataPacket char payload payloadLen.toNat k) ev.1 := by
  have honly := @sendPacket_only char fuel ⟨payload.mem, payload.off + s.offset.toNat⟩
    ((bytesToSend payloadLen s.offset).setWidth 16) s.packetNumber
  rw [buildPacket_eq (by rw [Ptr.length_bytes]; exact bytesToSend_le s.offset),
    frame_next hs] at honly
  unfold sendTurn at h
  rcases traces_bind.mp h with ⟨hcut, -⟩ | ⟨evs, ret, tail, hsend, htail, rfl⟩
  · exact honly.cut hcut
  · have hnil : tail = [] := by
      by_cases hack : ret = ack.toNat
      · -- The report is the last call of a turn.
        unfold handleResponse at htail
        rw [if_pos hack] at htail
        rcases traces_call.mp htail with ⟨rfl, -⟩ | ⟨_, _, rfl, hdone⟩
        · rfl
        · exact absurd (traces_done.mp hdone).2 (hout _)
      · obtain ⟨out', hdone, -, -⟩ := handleResponse_done (s := s) hack
        rw [hdone] at htail
        exact (traces_done.mp htail).1
    rw [hnil, List.append_nil]
    exact honly.runs hsend

end

end HostInterface.Xmodem
