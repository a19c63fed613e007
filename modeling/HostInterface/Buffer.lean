/-!
# Buffers written in pieces

A message is often built by stores into one buffer that outlives it: a byte
here, a word there, a field patched in at the end. `store` is one such piece,
consecutive stores from an index on, and `At l i bs` says that the buffer `l`
shows the items `bs` from index `i` on. What the stores of a message leave in the buffer
follows from two rules: a piece is there after its own store (`at_store`), and
the store of a piece that lies beside it does not touch it (`At.store`). Pieces
that meet join (`at_append`), and a buffer that shows a message from its start is
the message, cut to length (`At.take_eq`). A `move` within the buffer is the store
of what it finds there.
-/

namespace HostInterface.Buffer

variable {α : Type}

/-- The buffer shows `bs` from index `i` on. -/
def At (l : List α) (i : Nat) (bs : List α) : Prop :=
  ∀ j, j < bs.length → l[i + j]? = bs[j]?

/-- Consecutive stores of `bs` from index `i` on. -/
def store (l : List α) (i : Nat) : List α → List α
  | [] => l
  | b :: bs => store (l.set i b) (i + 1) bs

variable {l : List α} {i k : Nat} {bs cs : List α}

@[simp] theorem length_store (l : List α) (i : Nat) (bs : List α) :
    (store l i bs).length = l.length := by
  induction bs generalizing l i with
  | nil => rfl
  | cons b bs ih => rw [store, ih, List.length_set]

/-- What lies beside the stores stays. -/
theorem getElem?_store_of_out (h : k < i ∨ i + bs.length ≤ k) :
    (store l i bs)[k]? = l[k]? := by
  induction bs generalizing l i with
  | nil => rfl
  | cons b bs ih =>
    rw [List.length_cons] at h
    rw [store, ih (by omega), List.getElem?_set_ne (by omega)]

theorem at_nil (l : List α) (i : Nat) : At l i [] := by
  intro j hj
  cases hj

/-- The first item, and those behind it. -/
theorem at_cons_getElem? {b : α} : At l i (b :: bs) ↔ l[i]? = some b ∧ At l (i + 1) bs := by
  constructor
  · intro h
    refine ⟨h 0 (Nat.zero_lt_succ _), fun j hj => ?_⟩
    have := h (j + 1) (Nat.succ_lt_succ hj)
    rwa [Nat.add_comm j 1, ← Nat.add_assoc, Nat.add_comm 1 j] at this
  · rintro ⟨h₀, h⟩ j hj
    cases j with
    | zero => exact h₀
    | succ j =>
      rw [← Nat.add_assoc, Nat.add_right_comm]
      exact h j (Nat.lt_of_succ_lt_succ hj)

/-- Two pieces side by side are one. -/
theorem at_append : At l i (bs ++ cs) ↔ At l i bs ∧ At l (i + bs.length) cs := by
  induction bs generalizing i with
  | nil => simp [at_nil]
  | cons b bs ih =>
    rw [List.cons_append, at_cons_getElem?, at_cons_getElem?, ih, List.length_cons, and_assoc,
      Nat.add_assoc, Nat.add_comm 1]

theorem at_cons {b : α} : At l i (b :: bs) ↔ At l i [b] ∧ At l (i + 1) bs :=
  (at_append : At l i ([b] ++ bs) ↔ At l i [b] ∧ At l (i + 1) bs)

/-- A piece with room in the buffer is there once it is stored. -/
theorem at_store (h : i + bs.length ≤ l.length) : At (store l i bs) i bs := by
  induction bs generalizing l i with
  | nil => exact at_nil _ _
  | cons b bs ih =>
    rw [List.length_cons] at h
    refine at_cons_getElem?.mpr ⟨?_, ih (by rw [List.length_set]; omega)⟩
    rw [store, getElem?_store_of_out (Or.inl (Nat.lt_succ_self i)),
      List.getElem?_set_self (by omega)]

/-- A store beside a piece leaves it alone. -/
theorem At.store (h : At l i bs) (hout : i + bs.length ≤ k ∨ k + cs.length ≤ i) :
    At (Buffer.store l k cs) i bs := by
  intro j hj
  rw [getElem?_store_of_out (by omega)]
  exact h j hj

/-- The piece is in every buffer that agrees on its stretch. -/
theorem At.congr {l' : List α} (h : At l i bs)
    (hsame : ∀ k, i ≤ k → k < i + bs.length → l'[k]? = l[k]?) : At l' i bs := by
  intro j hj
  rw [hsame (i + j) (by omega) (by omega)]
  exact h j hj

/-- A buffer that starts with the items, cut to their number. -/
theorem At.take_eq (h : At l 0 bs) (hroom : bs.length ≤ l.length) : l.take bs.length = bs := by
  apply List.ext_getElem?
  intro j
  rcases Nat.lt_or_ge j bs.length with hlt | hge
  · rw [List.getElem?_take_of_lt hlt, ← h j hlt, Nat.zero_add]
  · rw [List.getElem?_eq_none (by rw [List.length_take]; omega), List.getElem?_eq_none hge]

/-- The items in the middle of a buffer. -/
theorem At.drop_take (h : At l i bs) (hroom : i + bs.length ≤ l.length) :
    (l.take (i + bs.length)).drop i = bs := by
  rw [List.drop_take, Nat.add_sub_cancel_left]
  refine At.take_eq (fun j hj => ?_) (by rw [List.length_drop]; omega)
  rw [List.getElem?_drop, Nat.zero_add]
  exact h j hj

/-- Move `n` items from `src` to `dst`, whether the two stretches overlap or not; `none` where one
of them is not in the buffer. -/
def move (l : List α) (dst src n : Nat) : Option (List α) :=
  if dst + n ≤ l.length ∧ src + n ≤ l.length then some (store l dst ((l.drop src).take n)) else none

/-- What has been moved to the start. -/
theorem move_take {l : List α} {src n : Nat} (h : src + n ≤ l.length) :
    ∃ l', move l 0 src n = some l' ∧ l'.take n = (l.drop src).take n := by
  have hlen : ((l.drop src).take n).length = n := by
    rw [List.length_take, List.length_drop]
    omega
  refine ⟨_, if_pos ⟨by omega, h⟩, ?_⟩
  have hstored : At (store l 0 ((l.drop src).take n)) 0 ((l.drop src).take n) :=
    at_store (by omega)
  have htake := hstored.take_eq (by rw [length_store]; omega)
  rw [hlen] at htake
  exact htake

end HostInterface.Buffer
