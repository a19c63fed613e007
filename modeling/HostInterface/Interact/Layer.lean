import HostInterface.Interact.Prog

/-!
# Programs on top of programs

A call of one level can itself be a program of the level below. `interp` puts such programs
in the place of the calls; `Implements` says that against `lo` they answer as `hi` does, and
keep the states of the two other sides related. Then every program of the upper level ends on
the lower one as it does on its own, with related states (`Implements.ends`,
`Implements.ends_above`).

`G` bounds the calls this is asked for. The answers may differ as far as `V` allows, for
programs that do not tell such answers apart (`Blind`). And a call may not come back at all,
where the upper side gets into a state of `D`, which it cannot leave: these are the runs of the
upper level that the lower one does not have.
-/

namespace HostInterface.Interact.Prog

variable {E E' : Type} {R : E → Type} {R' : E' → Type} {α β σ σ' : Type}

/-- Each call made by a program of the level below. -/
def interp (impl : (e : E) → Prog R' (R e)) : Prog R α → Prog R' α
  | done a => done a
  | call e k => impl e >>= fun r => interp impl (k r)
  | fault => fault

/-- The program goes on in the same way behind answers that `V` relates. -/
def Blind (V : (e : E) → R e → R e → Prop) : Prog R α → Prop
  | done _ => True
  | call e k => (∀ r r', V e r r' → k r = k r') ∧ ∀ r, (k r).Blind V
  | fault => True

variable {V : (e : E) → R e → R e → Prop} {G : E → Prop}

theorem Blind.bind {p : Prog R α} {f : α → Prog R β} (hp : p.Blind V) (hf : ∀ a, (f a).Blind V) :
    (p >>= f).Blind V := by
  induction p with
  | done a => exact hf a
  | call e k ih =>
    refine ⟨fun r r' hr => ?_, fun r => ih r (hp.2 r)⟩
    show k r >>= f = k r' >>= f
    rw [hp.1 r r' hr]
  | fault => trivial

theorem Blind.ite {c : Prop} [Decidable c] {p q : Prog R α} (hp : p.Blind V) (hq : q.Blind V) :
    (if c then p else q).Blind V := by
  split
  next => exact hp
  next => exact hq

/-- Where `V` relates no different answers, there is nothing not to see. -/
theorem Only.blind {p : Prog R α} (hp : p.Only G) (hV : ∀ e, G e → ∀ r r', V e r r' → r = r') :
    p.Blind V := by
  induction p with
  | done a => trivial
  | call e k ih => exact ⟨fun r r' hr => by rw [hV e hp.1 r r' hr], fun r => ih r (hp.2 r)⟩
  | fault => trivial

/-- Against `lo`, the calls in `G` are answered as `hi` does, up to `V`, and `I` is kept, unless
they never are, and `hi` is then in `D` for good. -/
structure Implements (hi : (e : E) → σ → R e × σ) (lo : (e : E') → σ' → R' e × σ') (G : E → Prop)
    (V : (e : E) → R e → R e → Prop) (I : σ → σ' → Prop) (D : σ → Prop)
    (impl : (e : E) → Prog R' (R e)) : Prop where
  step : ∀ e s t, G e → I s t →
    (∃ r t', Ends lo (impl e) t r t' ∧ V e r (hi e s).1 ∧ I (hi e s).2 t') ∨
      (∀ r t', ¬ Ends lo (impl e) t r t') ∧ D (hi e s).2
  forGood : ∀ e s, D s → D (hi e s).2
  apart : ∀ s t, I s t → ¬ D s

namespace Implements

variable {impl : (e : E) → Prog R' (R e)} {hi : (e : E) → σ → R e × σ}
  {lo : (e : E') → σ' → R' e × σ'} {I : σ → σ' → Prop} {D : σ → Prop} {p : Prog R α} {s s' : σ}
  {t t' : σ'} {a : α}

/-- What ends above, outside of `D`, ends below in the same way. -/
theorem ends (h : Implements hi lo G V I D impl) (hG : p.Only G) (hV : p.Blind V) (hI : I s t)
    (hp : Ends hi p s a s') (hD : ¬ D s') : ∃ t', Ends lo (interp impl p) t a t' ∧ I s' t' := by
  induction p generalizing s t with
  | done b =>
    obtain ⟨rfl, rfl⟩ := ends_done.mp hp
    exact ⟨t, .done _ t, hI⟩
  | call e k ih =>
    have hp := ends_call.mp hp
    rcases h.step e s t hG.1 hI with ⟨r, t₁, hcall, hr, hI₁⟩ | ⟨-, hdoomed⟩
    · obtain ⟨t', hrest, hI'⟩ := ih _ (hG.2 _) (hV.2 _) hI₁ hp
      rw [← hV.1 _ _ hr] at hrest
      exact ⟨t', hcall.bind hrest, hI'⟩
    · exact absurd (Wlp.invariant (only_true _) (fun e s _ => h.forGood e s) hdoomed _ _ hp) hD
  | fault =>
    obtain ⟨tr, htr⟩ := hp
    cases htr

/-- What ends below has ended above. -/
theorem ends_above (h : Implements hi lo G V I D impl) (hG : p.Only G) (hV : p.Blind V)
    (hI : I s t) (hp : Ends lo (interp impl p) t a t') : ∃ s', Ends hi p s a s' ∧ I s' t' := by
  induction p generalizing s t with
  | done b =>
    obtain ⟨rfl, rfl⟩ := ends_done.mp hp
    exact ⟨s, .done _ s, hI⟩
  | call e k ih =>
    obtain ⟨r', t₂, hcall', hrest⟩ := ends_bind.mp hp
    rcases h.step e s t hG.1 hI with ⟨r, t₁, hcall, hr, hI₁⟩ | ⟨hnever, -⟩
    · -- The call has only one end.
      obtain ⟨rfl, rfl⟩ := hcall'.unique hcall
      rw [hV.1 _ _ hr] at hrest
      obtain ⟨s', hs', hI'⟩ := ih _ (hG.2 _) (hV.2 _) hI₁ hrest
      exact ⟨s', .call hs', hI'⟩
    · exact absurd hcall' (hnever _ _)
  | fault =>
    obtain ⟨tr, htr⟩ := hp
    cases htr

end Implements

/-! ## With a variable of their own

The programs of the lower level may share a variable, such as a sequence number, that the upper
level does not see. -/

variable {S : Type}

/-- Each call made by a program that gets the variable and returns it. -/
def interpWith (impl : (e : E) → S → Prog R' (R e × S)) : Prog R α → S → Prog R' (α × S)
  | done a, v => done (a, v)
  | call e k, v => impl e v >>= fun r => interpWith impl (k r.1) r.2
  | fault, _ => fault

/-- Against `lo`, every call is answered as `hi` does, and `I` is kept. -/
def Carries (hi : (e : E) → σ → R e × σ) (lo : (e : E') → σ' → R' e × σ')
    (I : σ → S → σ' → Prop) (impl : (e : E) → S → Prog R' (R e × S)) : Prop :=
  ∀ e s v t, I s v t →
    ∃ v' t', Ends lo (impl e v) t ((hi e s).1, v') t' ∧ I (hi e s).2 v' t'

section Carries

variable {impl : (e : E) → S → Prog R' (R e × S)} {hi : (e : E) → σ → R e × σ}
  {lo : (e : E') → σ' → R' e × σ'} {I : σ → S → σ' → Prop} {p : Prog R α} {s s' : σ} {v v' : S}
  {t t' : σ'} {a : α}

/-- What ends above ends below. -/
theorem Carries.ends (h : Carries hi lo I impl) (hI : I s v t) (hp : Ends hi p s a s') :
    ∃ v' t', Ends lo (interpWith impl p v) t (a, v') t' ∧ I s' v' t' := by
  induction p generalizing s v t with
  | done b =>
    obtain ⟨rfl, rfl⟩ := ends_done.mp hp
    exact ⟨v, t, .done _ t, hI⟩
  | call e k ih =>
    obtain ⟨v₁, t₁, hcall, hI₁⟩ := h e s v t hI
    obtain ⟨v', t', hrest, hI'⟩ := ih _ hI₁ (ends_call.mp hp)
    exact ⟨v', t', hcall.bind hrest, hI'⟩
  | fault =>
    obtain ⟨tr, htr⟩ := hp
    cases htr

/-- What ends below has ended above. -/
theorem Carries.ends_above (h : Carries hi lo I impl) (hI : I s v t)
    (hp : Ends lo (interpWith impl p v) t (a, v') t') : ∃ s', Ends hi p s a s' ∧ I s' v' t' := by
  induction p generalizing s v t with
  | done b =>
    obtain ⟨heq, rfl⟩ := ends_done.mp hp
    obtain ⟨rfl, rfl⟩ := Prod.mk.inj heq
    exact ⟨s, .done _ s, hI⟩
  | call e k ih =>
    obtain ⟨v₁, t₁, hcall, hI₁⟩ := h e s v t hI
    obtain ⟨r, t₂, hcall', hrest⟩ := ends_bind.mp hp
    -- The call has only one end.
    obtain ⟨rfl, rfl⟩ := hcall'.unique hcall
    obtain ⟨s', hs', hI'⟩ := ih _ hI₁ hrest
    exact ⟨s', .call hs', hI'⟩
  | fault =>
    obtain ⟨tr, htr⟩ := hp
    cases htr

end Carries

end HostInterface.Interact.Prog
