/-!
# Interaction programs

Code that works through callbacks, a serial line or a clock does not contain
the other side, so its meaning cannot be a function of its arguments alone. A
`Prog` is the tree of what such code may do: it is `done` with a result, or it
makes a `call` and goes on with whatever reply comes back, or it hits a
`fault` (an access C leaves undefined, a loop that never ends), after which
nothing is promised.

Three readings of one program are used below:

* `Runs p tr a`: against *some* replies, `p` makes exactly the calls of `tr`
  and ends with `a`. What holds of every run holds whatever the other side does.
* `Only G p`: every call `p` can ever make lies in `G`, in runs that later
  fault too.
* `exec h p s`: the run against one concrete other side, the handler `h`
  with state `s`; `exec_runs` makes it one of the `Runs`, and `Ends` is where
  it ends with the calls left out. `Wlp` says what holds wherever it ends, with
  one rule for each form of a program.

Everything here is generic in the calls `E` and their reply types `R`.
-/

namespace HostInterface.Interact

/-- A call together with the reply it got. -/
abbrev Event {E : Type} (R : E → Type) := (e : E) × R e

/-- A program over the calls `E`, where a call `e` is answered by an `R e`. -/
inductive Prog {E : Type} (R : E → Type) (α : Type) where
  | done (a : α)
  | call (e : E) (k : R e → Prog R α)
  | fault

namespace Prog

variable {E : Type} {R : E → Type} {α β σ : Type}

/-- Sequencing: a fault of the first program is a fault of the whole. -/
def bind : Prog R α → (α → Prog R β) → Prog R β
  | done a, f => f a
  | call e k, f => call e fun r => (k r).bind f
  | fault, _ => fault

instance : Monad (Prog R) where
  pure := done
  bind := bind

/-- Make one call and return its reply. -/
def perform (e : E) : Prog R (R e) := call e done

/-- Lift a computation that may be undefined: `none` is a fault. -/
def ofOption : Option α → Prog R α
  | some a => done a
  | none => fault

theorem pure_eq (a : α) : (pure a : Prog R α) = done a := rfl

@[simp] theorem done_bind (a : α) (f : α → Prog R β) : (done a >>= f) = f a := rfl

@[simp] theorem call_bind (e : E) (k : R e → Prog R α) (f : α → Prog R β) :
    (call e k >>= f) = call e fun r => k r >>= f := rfl

@[simp] theorem ofOption_some (a : α) : (ofOption (some a) : Prog R α) = done a := rfl

@[simp] theorem ofOption_none : (ofOption none : Prog R α) = fault := rfl

instance : LawfulMonad (Prog R) :=
  LawfulMonad.mk' (Prog R)
    (fun p => by
      induction p with
      | done a => rfl
      | call e k ih => exact congrArg (call e) (funext ih)
      | fault => rfl)
    (fun _ _ => rfl)
    (fun p f g => by
      induction p with
      | done a => rfl
      | call e k ih => exact congrArg (call e) (funext ih)
      | fault => rfl)

/-! ## Runs -/

/-- `Runs p tr a`: the calls and replies of `tr` take `p` to its result `a`. -/
inductive Runs : Prog R α → List (Event R) → α → Prop
  | done (a : α) : Runs (done a) [] a
  | call {e : E} {k : R e → Prog R α} {r : R e} {tr : List (Event R)} {a : α} :
      Runs (k r) tr a → Runs (call e k) (⟨e, r⟩ :: tr) a

@[simp] theorem runs_done {a b : α} {tr : List (Event R)} :
    Runs (done a) tr b ↔ tr = [] ∧ b = a := by
  constructor
  · intro h
    cases h
    exact ⟨rfl, rfl⟩
  · rintro ⟨rfl, rfl⟩
    exact .done b

@[simp] theorem runs_pure {a b : α} {tr : List (Event R)} :
    Runs (pure a) tr b ↔ tr = [] ∧ b = a := runs_done

/-- The result of a run that ends with a pair, part by part. -/
theorem runs_pair {a a' : α} {b b' : β} {tr : List (Event R)} :
    Runs (pure (a, b) : Prog R (α × β)) tr (a', b') ↔ tr = [] ∧ a' = a ∧ b' = b := by
  rw [runs_pure, Prod.mk.injEq]

theorem runs_triple {γ : Type} {a a' : α} {b b' : β} {c c' : γ} {tr : List (Event R)} :
    Runs (pure (a, b, c) : Prog R (α × β × γ)) tr (a', b', c') ↔
      tr = [] ∧ a' = a ∧ b' = b ∧ c' = c := by
  rw [runs_pair, Prod.mk.injEq]

@[simp] theorem runs_fault {tr : List (Event R)} {b : α} : ¬ Runs (fault : Prog R α) tr b := by
  intro h
  cases h

@[simp] theorem runs_call {e : E} {k : R e → Prog R α} {tr : List (Event R)} {a : α} :
    Runs (call e k) tr a ↔ ∃ r tr', tr = ⟨e, r⟩ :: tr' ∧ Runs (k r) tr' a := by
  constructor
  · intro h
    cases h with
    | call h => exact ⟨_, _, rfl, h⟩
  · rintro ⟨r, tr', rfl, h⟩
    exact .call h

/-- A run of a sequence is a run of its first part followed by one of its second. -/
theorem runs_bind {p : Prog R α} {f : α → Prog R β} {tr : List (Event R)} {b : β} :
    Runs (p >>= f) tr b ↔
      ∃ tr₁ a tr₂, Runs p tr₁ a ∧ Runs (f a) tr₂ b ∧ tr = tr₁ ++ tr₂ := by
  constructor
  · intro h
    -- The first program is followed down its tree; what is left of the trace is the second's.
    induction p generalizing tr with
    | done a => exact ⟨[], a, tr, .done a, h, rfl⟩
    | call e k ih =>
      rw [call_bind, runs_call] at h
      obtain ⟨r, tr', rfl, h⟩ := h
      obtain ⟨tr₁, a, tr₂, h₁, h₂, rfl⟩ := ih r h
      exact ⟨⟨e, r⟩ :: tr₁, a, tr₂, .call h₁, h₂, rfl⟩
    | fault => exact absurd h runs_fault
  · rintro ⟨tr₁, a, tr₂, h₁, h₂, rfl⟩
    induction h₁ with
    | done a => exact h₂
    | call _ ih => exact .call (ih h₂)

@[simp] theorem runs_ofOption {o : Option α} {tr : List (Event R)} {b : α} :
    Runs (ofOption o : Prog R α) tr b ↔ tr = [] ∧ o = some b := by
  cases o with
  | none => simp
  | some a => simp [eq_comm]

/-! ## Calls a program can make -/

/-- Every call the program can make, in whichever run, lies in `G`. -/
def Only (G : E → Prop) : Prog R α → Prop
  | done _ => True
  | call e k => G e ∧ ∀ r, (k r).Only G
  | fault => True

variable {G : E → Prop}

@[simp] theorem only_done (a : α) : Only G (done a : Prog R α) := trivial

@[simp] theorem only_pure (a : α) : Only G (pure a : Prog R α) := trivial

@[simp] theorem only_call {e : E} {k : R e → Prog R α} :
    Only G (call e k) ↔ G e ∧ ∀ r, Only G (k r) := Iff.rfl

@[simp] theorem only_ofOption (o : Option α) : Only G (ofOption o : Prog R α) := by
  cases o <;> trivial

theorem Only.call {e : E} {k : R e → Prog R α} (he : G e) (hk : ∀ r, Only G (k r)) :
    Only G (Prog.call e k) := ⟨he, hk⟩

theorem only_true (p : Prog R α) : Only (fun _ => True) p := by
  induction p with
  | done a => trivial
  | call e k ih => exact ⟨trivial, ih⟩
  | fault => trivial

theorem only_ite {c : Prop} [Decidable c] {p q : Prog R α} :
    Only G (if c then p else q) ↔ (c → Only G p) ∧ (¬ c → Only G q) := by
  by_cases hc : c
  · rw [if_pos hc]
    exact ⟨fun hp => ⟨fun _ => hp, absurd hc⟩, fun h => h.1 hc⟩
  · rw [if_neg hc]
    exact ⟨fun hq => ⟨fun h => absurd h hc, fun _ => hq⟩, fun h => h.2 hc⟩

/-- Both branches of a test. -/
theorem Only.ite {c : Prop} [Decidable c] {p q : Prog R α} (hp : Only G p) (hq : Only G q) :
    Only G (if c then p else q) :=
  only_ite.mpr ⟨fun _ => hp, fun _ => hq⟩

/-- The second part of a sequence only matters on results the first can have. -/
theorem Only.bind {p : Prog R α} {f : α → Prog R β} (hp : Only G p)
    (hf : ∀ tr a, Runs p tr a → Only G (f a)) : Only G (p >>= f) := by
  induction p with
  | done a => exact hf [] a (.done a)
  | call e k ih =>
    exact ⟨hp.1, fun r => ih r (hp.2 r) fun tr a h => hf (⟨e, r⟩ :: tr) a (.call h)⟩
  | fault => trivial

/-- A bound on a sequence bounds its second part wherever the first can end. -/
theorem Only.of_bind {p : Prog R α} {f : α → Prog R β} (h : Only G (p >>= f))
    {tr : List (Event R)} {a : α} (hr : Runs p tr a) : Only G (f a) := by
  induction hr with
  | done a => exact h
  | call _ ih => exact ih (h.2 _)

theorem Only.of_bind_left {p : Prog R α} {f : α → Prog R β} (h : Only G (p >>= f)) :
    Only G p := by
  induction p with
  | done a => trivial
  | call e k ih => exact ⟨h.1, fun r => ih r (h.2 r)⟩
  | fault => trivial

theorem Only.mono {G' : E → Prop} {p : Prog R α} (hp : Only G p) (hG : ∀ e, G e → G' e) :
    Only G' p := by
  induction p with
  | done a => trivial
  | call e k ih => exact ⟨hG e hp.1, fun r => ih r (hp.2 r)⟩
  | fault => trivial

/-- `Only` bounds the calls of every complete run. -/
theorem Only.runs {p : Prog R α} {tr : List (Event R)} {a : α} (hp : Only G p)
    (h : Runs p tr a) : ∀ ev ∈ tr, G ev.1 := by
  induction h with
  | done a => intro ev hev; cases hev
  | call _ ih =>
    intro ev hev
    rcases List.mem_cons.mp hev with rfl | hev
    · exact hp.1
    · exact ih (hp.2 _) ev hev

/-! ## Execution against a concrete other side -/

/-- Run `p` against the handler `h`; `none` is a fault. -/
def exec (h : (e : E) → σ → R e × σ) : Prog R α → σ → Option (List (Event R) × α × σ)
  | done a, s => some ([], a, s)
  | call e k, s =>
    (exec h (k (h e s).1) (h e s).2).map fun x => (⟨e, (h e s).1⟩ :: x.1, x.2.1, x.2.2)
  | fault, _ => none

variable {h : (e : E) → σ → R e × σ}

@[simp] theorem exec_done (a : α) (s : σ) : exec h (done a : Prog R α) s = some ([], a, s) := rfl

@[simp] theorem exec_call (e : E) (k : R e → Prog R α) (s : σ) :
    exec h (call e k) s =
      (exec h (k (h e s).1) (h e s).2).map fun x => (⟨e, (h e s).1⟩ :: x.1, x.2.1, x.2.2) := rfl

theorem exec_bind (p : Prog R α) (f : α → Prog R β) (s : σ) :
    exec h (p >>= f) s =
      (exec h p s).bind fun x =>
        (exec h (f x.2.1) x.2.2).map fun y => (x.1 ++ y.1, y.2.1, y.2.2) := by
  induction p generalizing s with
  | done a => simp
  | call e k ih =>
    rw [call_bind, exec_call, exec_call, ih]
    cases exec h (k (h e s).1) (h e s).2 with
    | none => rfl
    | some x => simp [Function.comp_def]
  | fault => rfl

/-- Sequencing of executions, once the first part is known. -/
theorem exec_bind_some {p : Prog R α} {f : α → Prog R β} {s s' : σ} {a : α}
    {tr : List (Event R)} (hp : exec h p s = some (tr, a, s')) :
    exec h (p >>= f) s = (exec h (f a) s').map fun y => (tr ++ y.1, y.2.1, y.2.2) := by
  rw [exec_bind, hp]
  rfl

/-- An execution is one of the runs. -/
theorem exec_runs {p : Prog R α} {s s' : σ} {a : α} {tr : List (Event R)}
    (hx : exec h p s = some (tr, a, s')) : Runs p tr a := by
  induction p generalizing s tr with
  | done b =>
    simp only [exec_done, Option.some.injEq, Prod.mk.injEq] at hx
    obtain ⟨rfl, rfl, -⟩ := hx
    exact .done b
  | call e k ih =>
    rw [exec_call, Option.map_eq_some_iff] at hx
    obtain ⟨⟨tr', b, t⟩, hx, heq⟩ := hx
    simp only [Prod.mk.injEq] at heq
    obtain ⟨rfl, rfl, rfl⟩ := heq
    exact .call (ih _ hx)
  | fault => cases hx

/-! ## Where an execution ends -/

/-- Against `h`, from `s`, the program ends with `a` and leaves `s'`. -/
def Ends (h : (e : E) → σ → R e × σ) (p : Prog R α) (s : σ) (a : α) (s' : σ) : Prop :=
  ∃ tr, exec h p s = some (tr, a, s')

theorem Ends.done (a : α) (s : σ) : Ends h (done a : Prog R α) s a s := ⟨[], rfl⟩

theorem Ends.call {e : E} {k : R e → Prog R α} {s s' : σ} {a : α}
    (hk : Ends h (k (h e s).1) (h e s).2 a s') : Ends h (Prog.call e k) s a s' := by
  obtain ⟨tr, htr⟩ := hk
  exact ⟨⟨e, (h e s).1⟩ :: tr, by rw [exec_call, htr]; rfl⟩

/-- The same where the answer is known. -/
theorem Ends.call_of {e : E} {k : R e → Prog R α} {r : R e} {s s₁ s' : σ} {a : α}
    (he : h e s = (r, s₁)) (hk : Ends h (k r) s₁ a s') : Ends h (Prog.call e k) s a s' := by
  refine .call ?_
  rw [he]
  exact hk

theorem Ends.bind {p : Prog R α} {f : α → Prog R β} {s s₁ s' : σ} {a : α} {b : β}
    (hp : Ends h p s a s₁) (hf : Ends h (f a) s₁ b s') : Ends h (p >>= f) s b s' := by
  obtain ⟨tr, htr⟩ := hp
  obtain ⟨tr', htr'⟩ := hf
  exact ⟨tr ++ tr', by rw [exec_bind_some htr, htr']; rfl⟩

@[simp] theorem ends_done {a b : α} {s s' : σ} :
    Ends h (done a : Prog R α) s b s' ↔ b = a ∧ s' = s := by
  constructor
  · intro hb
    obtain ⟨tr, htr⟩ := hb
    simp only [exec_done, Option.some.injEq, Prod.mk.injEq] at htr
    exact ⟨htr.2.1.symm, htr.2.2.symm⟩
  · rintro ⟨rfl, rfl⟩
    exact .done b s'

theorem ends_call {e : E} {k : R e → Prog R α} {s s' : σ} {a : α} :
    Ends h (Prog.call e k) s a s' ↔ Ends h (k (h e s).1) (h e s).2 a s' := by
  constructor
  · intro ha
    obtain ⟨tr, htr⟩ := ha
    rw [exec_call, Option.map_eq_some_iff] at htr
    obtain ⟨⟨tr', b, t⟩, htr', heq⟩ := htr
    simp only [Prod.mk.injEq] at heq
    obtain ⟨-, rfl, rfl⟩ := heq
    exact ⟨tr', htr'⟩
  · exact .call

/-- A sequence ends where its second part does, from where its first part does. -/
theorem ends_bind {p : Prog R α} {f : α → Prog R β} {s s' : σ} {b : β} :
    Ends h (p >>= f) s b s' ↔ ∃ a s₁, Ends h p s a s₁ ∧ Ends h (f a) s₁ b s' := by
  constructor
  · intro hb
    obtain ⟨tr, htr⟩ := hb
    rw [exec_bind, Option.bind_eq_some_iff] at htr
    obtain ⟨⟨tr₁, a, s₁⟩, h₁, htr⟩ := htr
    rw [Option.map_eq_some_iff] at htr
    obtain ⟨⟨tr₂, b₂, s₂⟩, h₂, heq⟩ := htr
    simp only [Prod.mk.injEq] at heq
    obtain ⟨-, rfl, rfl⟩ := heq
    exact ⟨a, s₁, ⟨tr₁, h₁⟩, ⟨tr₂, h₂⟩⟩
  · rintro ⟨a, s₁, h₁, h₂⟩
    exact h₁.bind h₂

theorem Ends.ofOption {o : Option α} {a : α} (ho : o = some a) (s : σ) :
    Ends h (Prog.ofOption o : Prog R α) s a s := by
  rw [ho]
  exact .done a s

/-- Some run ends as the execution does. -/
theorem Ends.runs {p : Prog R α} {s s' : σ} {a : α} (hp : Ends h p s a s') :
    ∃ tr, Runs p tr a := by
  obtain ⟨tr, htr⟩ := hp
  exact ⟨tr, exec_runs htr⟩

/-! ## Programs cut short

A loop without a bound is a family of programs, one for each number of turns
before it is cut short by a fault. `Below` orders such a family, and its results
are those of one program: `Below.unique`. -/

/-- The first program is the second, except where it faults. -/
inductive Below : Prog R α → Prog R α → Prop
  | done (a : α) : Below (done a) (done a)
  | call {e : E} {k k' : R e → Prog R α} : (∀ r, Below (k r) (k' r)) → Below (call e k) (call e k')
  | fault (q : Prog R α) : Below fault q

theorem Below.refl (p : Prog R α) : Below p p := by
  induction p with
  | done a => exact .done a
  | call e k ih => exact .call ih
  | fault => exact .fault _

theorem Below.ite {c : Prop} [Decidable c] {p p' q q' : Prog R α} (hp : Below p p')
    (hq : Below q q') : Below (if c then p else q) (if c then p' else q') := by
  split
  next => exact hp
  next => exact hq

theorem Below.bind {p p' : Prog R α} {f f' : α → Prog R β} (hp : Below p p')
    (hf : ∀ a, Below (f a) (f' a)) : Below (p >>= f) (p' >>= f') := by
  induction hp with
  | done a => exact hf a
  | call _ ih => exact .call ih
  | fault q => exact .fault _

/-- A result is a result of every longer program. -/
theorem Below.ends {p q : Prog R α} {s s' : σ} {a : α} (hpq : Below p q) (hp : Ends h p s a s') :
    Ends h q s a s' := by
  induction hpq generalizing s with
  | done b => exact hp
  | call _ ih => exact .call (ih _ (ends_call.mp hp))
  | fault q =>
    -- What has been cut short has no result to keep.
    obtain ⟨tr, htr⟩ := hp
    cases htr

/-- There is at most one result. -/
theorem Ends.unique {p : Prog R α} {s s₁ s₂ : σ} {a₁ a₂ : α} (h₁ : Ends h p s a₁ s₁)
    (h₂ : Ends h p s a₂ s₂) : a₁ = a₂ ∧ s₁ = s₂ := by
  obtain ⟨tr₁, h₁⟩ := h₁
  obtain ⟨tr₂, h₂⟩ := h₂
  rw [h₁] at h₂
  simp only [Option.some.injEq, Prod.mk.injEq] at h₂
  exact h₂.2

/-- The result does not depend on where the loops are cut short. -/
theorem Below.unique {p : Nat → Prog R α} (hp : ∀ m n, m ≤ n → Below (p m) (p n)) {m n : Nat}
    {s s₁ s₂ : σ} {a₁ a₂ : α} (h₁ : Ends h (p m) s a₁ s₁) (h₂ : Ends h (p n) s a₂ s₂) :
    a₁ = a₂ ∧ s₁ = s₂ := by
  rcases Nat.le_total m n with hle | hle
  · exact ((hp m n hle).ends h₁).unique h₂
  · exact h₁.unique ((hp n m hle).ends h₂)

/-! ## Postconditions -/

/-- Wherever `p` ends against `h` from `s`, `Q` holds of the result and the state. -/
def Wlp (h : (e : E) → σ → R e × σ) (p : Prog R α) (s : σ) (Q : α → σ → Prop) : Prop :=
  ∀ a s', Ends h p s a s' → Q a s'

variable {Q Q' : α → σ → Prop} {s : σ}

theorem Wlp.done {a : α} (hQ : Q a s) : Wlp h (done a : Prog R α) s Q := by
  intro b s' hb
  obtain ⟨rfl, rfl⟩ := ends_done.mp hb
  exact hQ

theorem Wlp.call {e : E} {k : R e → Prog R α} (hk : Wlp h (k (h e s).1) (h e s).2 Q) :
    Wlp h (Prog.call e k) s Q := by
  intro a s' ha
  exact hk a s' (ends_call.mp ha)

theorem Wlp.fault : Wlp h (Prog.fault : Prog R α) s Q := by
  intro a s' ha
  obtain ⟨tr, htr⟩ := ha
  cases htr

theorem Wlp.bind {p : Prog R β} {f : β → Prog R α}
    (hp : Wlp h p s fun b s' => Wlp h (f b) s' Q) : Wlp h (p >>= f) s Q := by
  intro a s' ha
  obtain ⟨b, s₁, h₁, h₂⟩ := ends_bind.mp ha
  exact hp b s₁ h₁ a s' h₂

theorem Wlp.mono {p : Prog R α} (hp : Wlp h p s Q) (hQ : ∀ a s', Q a s' → Q' a s') :
    Wlp h p s Q' :=
  fun a s' ha => hQ a s' (hp a s' ha)

theorem Wlp.and {p : Prog R α} (hp : Wlp h p s Q) (hp' : Wlp h p s Q') :
    Wlp h p s fun a s' => Q a s' ∧ Q' a s' :=
  fun a s' ha => ⟨hp a s' ha, hp' a s' ha⟩

/-- What every answer to a call of the program keeps, the program keeps. -/
theorem Wlp.invariant {G : E → Prop} {I : σ → Prop} {p : Prog R α} (hp : p.Only G)
    (hI : ∀ e s, G e → I s → I (h e s).2) (hs : I s) : Wlp h p s fun _ s' => I s' := by
  induction p generalizing s with
  | done a => exact .done hs
  | call e k ih => exact .call (ih _ (hp.2 _) (hI e s hp.1 hs))
  | fault => exact .fault

end Prog

end HostInterface.Interact
