import HostInterface.Reader

/-!
# Writers

A `Writer` overwrites the items of a buffer from a cursor on; `none` is a write past
the end. `Writes p enc` says that it puts `enc` there, moves the cursor behind it and leaves
what is in front of the cursor and behind `enc` as it was. The rules follow the form of the
writer, an item and one writer after another.

A format that is written as `enc x` and read from `enc x` by a reader that `Decodes` is
read as it was written (`Decodes.read_written`), and written as it was read
(`Decodes.written_read`).
-/

namespace HostInterface

/-- A buffer, cut where the cursor is. -/
structure Cursor (τ : Type) where
  front : List τ
  back : List τ

/-- Overwrites items of a buffer. -/
abbrev Writer (τ α : Type) := StateT (Cursor τ) Option α

namespace Writer

variable {τ : Type}

/-- One item. -/
def put (a : τ) : Writer τ Unit
  | ⟨_, []⟩ => none
  | ⟨front, _ :: back⟩ => some ((), ⟨front ++ [a], back⟩)

/-- The writer puts `enc` where the cursor is. -/
def Writes (p : Writer τ Unit) (enc : List τ) : Prop :=
  ∀ (front old back : List τ), old.length = enc.length →
    p ⟨front, old ++ back⟩ = some ((), ⟨front ++ enc, back⟩)

theorem Writes.put (a : τ) : Writes (put a) [a] := by
  intro front old back hold
  obtain ⟨b, rfl⟩ := List.length_eq_one_iff.mp hold
  rfl

/-- One writer after another. -/
theorem Writes.bind {p q : Writer τ Unit} {e₁ e₂ : List τ} (hp : Writes p e₁) (hq : Writes q e₂) :
    Writes (do p; q) (e₁ ++ e₂) := by
  intro front old back hold
  rw [List.length_append] at hold
  -- What the first one overwrites, and what the second one does.
  have hsplit : old ++ back = old.take e₁.length ++ (old.drop e₁.length ++ back) := by
    rw [← List.append_assoc, List.take_append_drop]
  have h₁ : p ⟨front, old ++ back⟩ = some ((), ⟨front ++ e₁, old.drop e₁.length ++ back⟩) := by
    rw [hsplit]
    exact hp _ _ _ (List.length_take_of_le (by omega))
  show (p ⟨front, old ++ back⟩).bind (fun x => q x.2) = _
  rw [h₁, ← List.append_assoc]
  exact hq _ _ _ (by rw [List.length_drop]; omega)

/-- The last writer of a format. -/
theorem Writes.last {p : Writer τ Unit} {enc : List τ} (h : Writes p enc) :
    Writes p (enc ++ []) := by
  rw [List.append_nil]
  exact h

/-- How far the cursor has come from the start of the buffer, and the buffer. -/
def run (p : Writer τ Unit) (buff : List τ) : Option (Nat × List τ) :=
  (p ⟨[], buff⟩).map fun x => (x.2.front.length, x.2.front ++ x.2.back)

/-- Written into a buffer with enough room. -/
theorem Writes.run {p : Writer τ Unit} {enc : List τ} (h : Writes p enc) {buff : List τ}
    (hfit : enc.length ≤ buff.length) :
    p.run buff = some (enc.length, enc ++ buff.drop enc.length) := by
  have hp := h [] (buff.take enc.length) (buff.drop enc.length) (List.length_take_of_le hfit)
  rw [List.take_append_drop] at hp
  unfold Writer.run
  rw [hp]
  rfl

end Writer

namespace Reader

variable {τ α : Type} {p : Reader τ α} {P : α → Prop} {n : Nat} {enc : α → List τ}

/-- What is written is read. -/
theorem Decodes.read_written (h : Decodes p P n enc) {x : α} (hx : P x) (rest : List τ) :
    p (enc x ++ rest) = some (x, rest) :=
  h.iff.mpr ⟨hx, rfl⟩

/-- The value of an encoding. -/
theorem Decodes.value_written (h : Decodes p P n enc) {x : α} (hx : P x) :
    (p (enc x)).map Prod.fst = some x := by
  have hread := h.read_written hx []
  rw [List.append_nil] at hread
  exact congrArg (Option.map Prod.fst) hread

/-- As many items as an encoding has are read. -/
theorem Decodes.value_isSome (h : Decodes p P n enc) {l : List τ} (hl : l.length = n) :
    ((p l).map Prod.fst).isSome := by
  obtain ⟨y, hread⟩ := h.total (Nat.le_of_eq hl.symm)
  rw [hread]
  rfl

/-- What is read is written. -/
theorem Decodes.written_read (h : Decodes p P n enc) {l : List τ} (hl : l.length = n) :
    ∃ x, P x ∧ p l = some (x, []) ∧ enc x = l := by
  obtain ⟨⟨x, rest⟩, hread⟩ := h.total (Nat.le_of_eq hl.symm)
  obtain ⟨hx, heq⟩ := h.iff.mp hread
  have hlen := congrArg List.length heq
  rw [List.length_append, h.length, hl] at hlen
  have hnil : rest = [] := List.eq_nil_of_length_eq_zero (by omega)
  subst hnil
  exact ⟨x, hx, hread, ((List.append_nil _).symm.trans heq.symm)⟩

end Reader

end HostInterface
