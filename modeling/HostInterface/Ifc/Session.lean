import HostInterface.Ifc.Grammar
import HostInterface.Interact.Machine

/-!
# Sessions with a module

The other side of `hal_read_write` over many commands: a module that answers each
command it receives with at most one response, and a serial line that delivers the
bytes of the responses in order, uncorrupted, and as late as it likes. `Surroundings`
holds everything that is left open, the answers, the arrivals, the clock, which reads
fail and what they do then; `session` is the handler, and `Line` its state.

Bytes arrive one by one: of a response, the host may find the header in the FIFO and
the payload still on its way. A read of the payload then fails, and `recv_packet` does
not look at the result; `torn` counts such reads of the response to the last command.
Any other read may fail as well, having taken fewer bytes than it was asked for.

`SessionRun` is the runs of the host against it, one `hal_read_write` a step.
-/

namespace HostInterface.Ifc

open Interact Prog

/-- What the module answers to a command. -/
structure Answer where
  ack : U8
  payload : List U8
  small : payload.length < 65536

/-- A response to the command number `cmd` of the session. -/
structure Response where
  cmd : Nat
  op : U8
  messageNum : U8
  answer : Answer

/-- The frame of a response. -/
def Response.bytes (f : Response) : List U8 :=
  respFrame f.op f.messageNum f.answer.ack f.answer.payload

/-- What the module and the line may do: the answer to each command; how many bytes arrive
before each call of the host, the clock's answer to it, whether a read fails there that would
find enough bytes, and what a read does that fails for that or for too few bytes, with the
number of bytes it takes. -/
structure Surroundings where
  answer : Nat → Option Answer
  arrivals : Nat → Nat
  clock : Nat → Int × Time
  breaks : Nat → Bool
  short : (len : U16) → Nat → ReadReply len.toNat
  fails : ∀ len i, (short len i).ret < 0
  taken : Nat → Nat

/-- The line: the response begun last, its unread end, and the responses behind it; how many of
the unread bytes have arrived; the bytes of the command the module is receiving, the commands
it has received, the calls of the host so far, and the payloads whose read has failed. -/
structure Line where
  begun : Option Response
  rest : List U8
  unread : List Response
  here : Nat
  received : List U8
  sent : Nat
  calls : Nat
  torn : Nat

/-- Nothing has happened. -/
def Line.start : Line :=
  ⟨none, [], [], 0, [], 0, 0, 0⟩

/-- The bytes the module has sent that have not been read. -/
def Line.bytes (l : Line) : List U8 :=
  l.rest ++ l.unread.flatMap Response.bytes

/-- Those in the FIFO. -/
def Line.fifo (l : Line) : List U8 :=
  l.bytes.take l.here

/-- Some bytes arrive. -/
def Line.arrive (env : Surroundings) (l : Line) : Line :=
  { l with
    here := min (l.here + env.arrivals l.calls) l.bytes.length
    calls := l.calls + 1 }

/-- What is left after `n` bytes have been read: the end of the response begun, which one was
begun last, and the responses behind it. -/
def skip (n : Nat) (rest : List U8) (begun : Option Response) :
    List Response → List U8 × Option Response × List Response
  | [] => (rest.drop n, begun, [])
  | f :: fs =>
    if n ≤ rest.length then (rest.drop n, begun, f :: fs)
    else skip (n - rest.length) f.bytes (some f) fs

/-- The line after `n` bytes have been read. -/
def Line.take (l : Line) (n : Nat) : Line :=
  { l with
    rest := (skip n l.rest l.begun l.unread).1
    begun := (skip n l.rest l.begun l.unread).2.1
    unread := (skip n l.rest l.begun l.unread).2.2
    here := l.here - n }

/-- The next `len` bytes are the payload of the module's response to the last command, an ACK;
only the checksum is behind it. -/
def Line.atPayload (l : Line) (len : U16) : Bool :=
  l.begun.any fun f =>
    f.cmd + 1 = l.sent && f.answer.ack = 0 && f.answer.payload.length = len.toNat &&
      l.rest.length = len.toNat + 2

/-- A read of `len` bytes fails. -/
def Line.tear (l : Line) (len : U16) : Line :=
  { l with torn := if l.atPayload len then l.torn + 1 else l.torn }

/-- The opcode and message number of a command, once all of it is there. -/
def commandOf (received : List U8) : Option (U8 × U8) :=
  match received.dropWhile (· = 0xff) with
  | _ :: op :: messageNum :: hi :: lo :: tail =>
    if tail.length = (fromBe16 hi lo).toNat + 2 then some (op, messageNum) else none
  | _ => none

/-- The module has `received` of a command. -/
def Line.heard (l : Line) (received : List U8) : Line :=
  { l with received := received }

/-- The module receives bytes, and answers a complete command. -/
def Line.hear (env : Surroundings) (l : Line) (buf : List U8) : Line :=
  match commandOf (l.received ++ buf) with
  | none => l.heard (l.received ++ buf)
  | some (op, messageNum) =>
    { l with
      received := []
      sent := l.sent + 1
      unread := l.unread ++ (env.answer l.sent).toList.map (⟨l.sent, op, messageNum, ·⟩) }

/-- The read that is call `i` gets its bytes. -/
def Line.Serves (env : Surroundings) (l : Line) (len : U16) (i : Nat) : Prop :=
  len.toNat ≤ l.fifo.length ∧ env.breaks i = false

instance (env : Surroundings) (l : Line) (len : U16) (i : Nat) : Decidable (l.Serves env len i) :=
  inferInstanceAs (Decidable (_ ∧ _))

/-- The module and the line. -/
def session (env : Surroundings) : (e : Call) → Line → Reply e × Line
  | .transportWrite buf, l => ((0 : Int), (l.arrive env).hear env buf)
  | .transportRead len, l =>
    if h : (l.arrive env).Serves env len l.calls then
      (.ok ((l.arrive env).fifo.take len.toNat) (List.length_take_of_le h.1),
        (l.arrive env).take len.toNat)
    else
      (env.short len l.calls,
        ((l.arrive env).tear len).take
          (min (env.taken l.calls) (min (len.toNat - 1) (l.arrive env).fifo.length)))
  | .gettime, l => (env.clock l.calls, l.arrive env)

/-! ## Runs -/

/-- One call of `hal_read_write`: its arguments, what its stack holds, and how many turns of
its loops are looked at. -/
structure Request where
  command : Command
  checksumBuff : List U8
  fuel : Nat

/-- The host and the line, as a machine that calls nobody. -/
def NoReply : Empty → Type := fun e => nomatch e

/-- One `hal_read_write` of the session. -/
def exchange (env : Surroundings) (s : U32 × Line) (r : Request) :
    Prog NoReply ((Int × Option (List U8)) × (U32 × Line)) :=
  Prog.ofOption ((exec (session env) (halReadWrite r.fuel r.checksumBuff s.1 r.command) s.2).map
    fun x => (x.2.1.1, (x.2.1.2, x.2.2)))

abbrev Exchange := Interact.Step NoReply (U32 × Line) Request (Int × Option (List U8))

/-- The session `hist`, from a host and a module that have just started. -/
def SessionRun (env : Surroundings) (hist : List Exchange) (s : U32 × Line) : Prop :=
  Interact.Run (exchange env) (0, Line.start) hist s

/-- A step of a session is an execution of `hal_read_write`. -/
theorem exchange_ends {env : Surroundings} {x : Exchange} (h : x.Valid (exchange env)) :
    Ends (session env) (halReadWrite x.input.fuel x.input.checksumBuff x.pre.1 x.input.command)
      x.pre.2 (x.out, x.post.1) x.post.2 := by
  unfold Step.Valid exchange at h
  rw [runs_ofOption] at h
  obtain ⟨-, h⟩ := h
  rw [Option.map_eq_some_iff] at h
  obtain ⟨⟨tr, ⟨out, messageNum⟩, l⟩, hx, heq⟩ := h
  simp only [Prod.mk.injEq] at heq
  obtain ⟨hout, hpost⟩ := heq
  rw [← hout, ← hpost]
  exact ⟨tr, hx⟩

/-- The session of some requests, where all of them return. -/
def sessionHist (env : Surroundings) (rs : List Request) : List Exchange :=
  ((execAll (exchange env) (fun e => nomatch e) (0, Line.start) rs ()).map fun x => x.1).getD []

/-- It is a session. -/
theorem sessionHist_run (env : Surroundings) (rs : List Request) :
    ∃ s, SessionRun env (sessionHist env rs) s :=
  execAll_hist_run _ _ _

/-! ## What each call does to the line -/

variable {env : Surroundings}

@[simp] theorem arrive_rest (l : Line) : (l.arrive env).rest = l.rest := rfl
@[simp] theorem arrive_begun (l : Line) : (l.arrive env).begun = l.begun := rfl
@[simp] theorem arrive_unread (l : Line) : (l.arrive env).unread = l.unread := rfl
@[simp] theorem arrive_received (l : Line) : (l.arrive env).received = l.received := rfl
@[simp] theorem arrive_sent (l : Line) : (l.arrive env).sent = l.sent := rfl

/-- What has arrived is not more than what has been sent. -/
theorem fifo_length_le (l : Line) : l.fifo.length ≤ l.bytes.length := by
  unfold Line.fifo
  rw [List.length_take]
  exact Nat.min_le_right _ _

theorem le_tear (l : Line) (len : U16) : l.torn ≤ (l.tear len).torn := by
  unfold Line.tear
  dsimp only
  split <;> omega

/-- Reading only takes responses away. -/
theorem skip_mem {n : Nat} {rest : List U8} {begun : Option Response} {fs : List Response} :
    ∀ f ∈ (skip n rest begun fs).2.2, f ∈ fs := by
  induction fs generalizing n rest begun with
  | nil => exact fun f hf => hf
  | cons g fs ih =>
    intro f hf
    unfold skip at hf
    split at hf
    next => exact hf
    next => exact List.mem_cons_of_mem _ (ih f hf)

/-- Inside the response begun, nothing else is touched. -/
theorem skip_within {n : Nat} {rest : List U8} {begun : Option Response} {fs : List Response}
    (h : n ≤ rest.length) : skip n rest begun fs = (rest.drop n, begun, fs) := by
  cases fs with
  | nil => rfl
  | cons f fs => exact if_pos h

/-- The first byte of a response. -/
theorem skip_first (f : Response) (begun : Option Response) (fs : List Response) :
    skip 1 [] begun (f :: fs) = (f.bytes.tail, some f, fs) := by
  have hone : 1 ≤ f.bytes.length := by
    unfold Response.bytes respFrame
    simp [respHeader]
  show skip 1 f.bytes (some f) fs = _
  rw [skip_within hone, List.drop_one]

/-- Listening: the module hears nothing, no response is new, and what was torn is. -/
theorem listen_keeps {e : Call} (he : Listens e) (l : Line) :
    (session env e l).2.received = l.received ∧ (session env e l).2.sent = l.sent ∧
      (∀ f ∈ (session env e l).2.unread, f ∈ l.unread) ∧ l.torn ≤ (session env e l).2.torn := by
  cases e with
  | transportWrite buf => exact he.elim
  | transportRead len =>
    unfold session
    dsimp only
    split
    next => exact ⟨rfl, rfl, fun f hf => skip_mem f hf, Nat.le_refl _⟩
    next => exact ⟨rfl, rfl, fun f hf => skip_mem f hf, le_tear _ _⟩
  | gettime => exact ⟨rfl, rfl, fun f hf => hf, Nat.le_refl _⟩

end HostInterface.Ifc
