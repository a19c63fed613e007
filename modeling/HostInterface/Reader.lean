/-!
# Readers

A `Reader` takes items from the front of a list; `none` is a read past the end. What
a reader of a fixed format does is said by `Decodes p P size enc`: it gives a value
exactly where the list begins with the encoding of that value, `enc`, which has `size`
items, and there is always one if the list is long enough. `P` holds of the values
the reader can give. The rules follow the form of the reader: an item, a value, one
reader after another (`Decodes.bind`, where `g` finds the result of the first reader in
that of the whole), and two readers in either order.

What follows for the reader as a function of the list: it does not mix up two lists
of the format's size (`Decodes.injective`).
-/

namespace HostInterface

/-- Takes items from the front of a list. -/
abbrev Reader (τ α : Type) := StateT (List τ) Option α

/-- Which of two readers comes first. -/
inductive Order where
  | left
  | right
  deriving DecidableEq

/-- Two lists, the first in front or behind. -/
def Order.cat {τ : Type} : Order → List τ → List τ → List τ
  | .left, l, r => l ++ r
  | .right, l, r => r ++ l

namespace Reader

variable {τ α β γ : Type}

/-- The next item. -/
def item : Reader τ τ
  | [] => none
  | a :: l => some (a, l)

/-- Two readers, in either order. -/
def both (o : Order) (p : Reader τ α) (q : Reader τ β) : Reader τ (α × β) :=
  match o with
  | .left => do
    let a ← p
    let b ← q
    return (a, b)
  | .right => do
    let b ← q
    let a ← p
    return (a, b)

theorem run_pure (x : α) (l : List τ) : (pure x : Reader τ α) l = some (x, l) := rfl

theorem run_bind (p : Reader τ α) (q : α → Reader τ β) (l : List τ) :
    (p >>= q) l = (p l).bind fun y => q y.1 y.2 := rfl

/-- The reader gives the values with `P`, each exactly from its encoding. -/
structure Decodes (p : Reader τ α) (P : α → Prop) (size : Nat) (enc : α → List τ) : Prop where
  iff : ∀ {l r : List τ} {x : α}, p l = some (x, r) ↔ P x ∧ l = enc x ++ r
  total : ∀ {l : List τ}, size ≤ l.length → ∃ y, p l = some y
  length : ∀ x, (enc x).length = size

theorem Decodes.item : Decodes (item : Reader τ τ) (fun _ => True) 1 fun a => [a] where
  iff := by
    intro l r x
    cases l with
    | nil => exact iff_of_false (fun h => nomatch h) fun h => nomatch h.2
    | cons a l =>
      show some (a, l) = some (x, r) ↔ _
      simp [eq_comm]
  total := by
    intro l hl
    cases l with
    | nil => exact absurd hl (Nat.not_succ_le_zero 0)
    | cons a l => exact ⟨(a, l), rfl⟩
  length _ := rfl

theorem Decodes.pure {x : α} {P : α → Prop} (hP : ∀ y, P y ↔ y = x) :
    Decodes (pure x : Reader τ α) P 0 fun _ => [] where
  iff := by
    intro l r y
    rw [run_pure, hP, Option.some.injEq, Prod.mk.injEq, List.nil_append, @eq_comm _ x]
  total _ := ⟨_, rfl⟩
  length _ := rfl

/-- One reader after another, where the result still has that of the first in it. -/
theorem Decodes.bind {p : Reader τ α} {q : α → Reader τ β} {P : β → Prop} {m n : Nat}
    {e₁ : α → List τ} {e₂ : β → List τ} (g : β → α) (hp : Decodes p (fun _ => True) m e₁)
    (hq : ∀ a, Decodes (q a) (fun y => P y ∧ g y = a) n e₂) :
    Decodes (p >>= q) P (m + n) fun y => e₁ (g y) ++ e₂ y where
  iff := by
    intro l r y
    rw [run_bind, Option.bind_eq_some_iff]
    constructor
    · intro h
      obtain ⟨⟨a, l₁⟩, h₁, h₂⟩ := h
      obtain ⟨-, hl⟩ := hp.iff.mp h₁
      obtain ⟨⟨hP, hg⟩, hl₁⟩ := (hq a).iff.mp h₂
      have hl₁ : l₁ = e₂ y ++ r := hl₁
      refine ⟨hP, ?_⟩
      rw [hl, hl₁, hg, List.append_assoc]
    · rintro ⟨hP, rfl⟩
      refine ⟨(g y, e₂ y ++ r), hp.iff.mpr ⟨trivial, List.append_assoc _ _ _⟩, ?_⟩
      exact (hq (g y)).iff.mpr ⟨⟨hP, rfl⟩, rfl⟩
  total := by
    intro l hl
    obtain ⟨⟨a, l₁⟩, h₁⟩ := hp.total (show m ≤ l.length by omega)
    have hlen : n ≤ l₁.length := by
      have hl₁ := congrArg List.length (hp.iff.mp h₁).2
      rw [List.length_append, hp.length] at hl₁
      omega
    obtain ⟨y, h₂⟩ := (hq a).total hlen
    exact ⟨y, by rw [run_bind, h₁]; exact h₂⟩
  length y := by
    rw [List.length_append, hp.length, (hq (g y)).length]

/-- The same values, said in another way. -/
theorem Decodes.congr {p : Reader τ α} {P Q : α → Prop} {n : Nat} {e e' : α → List τ}
    (h : Decodes p P n e) (hPQ : ∀ x, P x ↔ Q x) (he : ∀ x, e x = e' x) : Decodes p Q n e' where
  iff := by
    intro l r x
    rw [h.iff, hPQ, he]
  total := h.total
  length x := by rw [← he, h.length]

/-- Two readers in either order. -/
theorem Decodes.both (o : Order) {p : Reader τ α} {q : Reader τ β} {m n : Nat}
    {e₁ : α → List τ} {e₂ : β → List τ} (hp : Decodes p (fun _ => True) m e₁)
    (hq : Decodes q (fun _ => True) n e₂) :
    Decodes (both o p q) (fun _ => True) (m + n) fun y => o.cat (e₁ y.1) (e₂ y.2) := by
  cases o with
  | left =>
    refine .bind Prod.fst hp fun a => ?_
    refine (Decodes.bind Prod.snd hq fun b => .pure fun y => ?_).congr (fun _ => Iff.rfl)
      fun y => List.append_nil _
    rw [true_and, Prod.ext_iff]
  | right =>
    rw [Nat.add_comm]
    refine .bind Prod.snd hq fun b => ?_
    refine (Decodes.bind Prod.fst hp fun a => .pure fun y => ?_).congr (fun _ => Iff.rfl)
      fun y => List.append_nil _
    rw [true_and, Prod.ext_iff, and_comm]

/-- A value built from what is read, and from which that can be recovered. -/
theorem Decodes.map {p : Reader τ α} {n : Nat} {e : α → List τ} {f : α → β} {g : β → α}
    {P : β → Prop} (hp : Decodes p (fun _ => True) n e) (h : ∀ a y, P y ∧ g y = a ↔ y = f a) :
    Decodes (do let a ← p; return f a) P n fun y => e (g y) :=
  (Decodes.bind g hp fun a => .pure (h a)).congr (fun _ => Iff.rfl) fun _ => List.append_nil _

/-- Lists of the format's size are told apart. -/
theorem Decodes.injective {p : Reader τ α} {P : α → Prop} {n : Nat} {e : α → List τ}
    (h : Decodes p P n e) {l l' : List τ} (hl : l.length = n) (hl' : l'.length = n)
    (heq : (p l).map Prod.fst = (p l').map Prod.fst) : l = l' := by
  have hwhole : ∀ {l : List τ}, l.length = n → ∃ x, p l = some (x, []) ∧ l = e x := by
    intro l hl
    obtain ⟨⟨x, r⟩, hx⟩ := h.total (Nat.le_of_eq hl.symm)
    have hlen := congrArg List.length (h.iff.mp hx).2
    rw [List.length_append, h.length] at hlen
    have hr : r = [] := List.eq_nil_of_length_eq_zero (by omega)
    rw [hr] at hx
    exact ⟨x, hx, by rw [← List.append_nil (e x)]; exact (h.iff.mp hx).2⟩
  obtain ⟨x, hx, hlx⟩ := hwhole hl
  obtain ⟨x', hx', hlx'⟩ := hwhole hl'
  rw [hx, hx'] at heq
  have hxx' : x = x' := Option.some.inj heq
  rw [hlx, hlx', hxx']

end Reader

end HostInterface
