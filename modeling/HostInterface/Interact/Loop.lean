import HostInterface.Interact.Prog

/-!
# Unfinished runs and loops

A program that waits for the other side need not end, and what it does before that
matters as much as its result. `Cut p tr` says that `p` can have made the calls of
`tr` and not be at its end. A trace of `p` (`Traces`) is cut, without a result, or
complete, with one; as for `Runs`, a trace of a sequence is taken apart at the end
of its first part (`traces_bind`).

`iterate` is the loop these programs have in common: a body that either goes on
with a new state or stops with a result, cut short after a number of turns. What
each turn keeps of the state and of the trace so far holds in front of the last turn
of every trace (`traces_iterate`), and `Turns` counts the turns that are complete.

`Follows` says that the replies of a trace are those of one other side, a handler; for a
run this is the same as an execution (`Runs.ends`, `Ends.follows`). `Halts` says that there
is one.
-/

namespace HostInterface.Interact.Prog

variable {E : Type} {R : E → Type} {α β σ : Type}

/-! ## Unfinished runs -/

/-- The calls and replies of `tr` take `p` to a point in front of its end. -/
inductive Cut : Prog R α → List (Event R) → Prop
  | next (e : E) (k : R e → Prog R α) : Cut (call e k) []
  | fault : Cut fault []
  | call {e : E} {k : R e → Prog R α} {r : R e} {tr : List (Event R)} :
      Cut (k r) tr → Cut (call e k) (⟨e, r⟩ :: tr)

/-- What `p` can have done at some time, with its result if it has ended. -/
def Traces (p : Prog R α) (tr : List (Event R)) : Option α → Prop
  | none => Cut p tr
  | some a => Runs p tr a

@[simp] theorem cut_done {a : α} {tr : List (Event R)} : ¬ Cut (done a) tr := by
  intro h
  cases h

@[simp] theorem cut_fault {tr : List (Event R)} : Cut (fault : Prog R α) tr ↔ tr = [] := by
  constructor
  · intro h
    cases h
    rfl
  · rintro rfl
    exact .fault

@[simp] theorem cut_call {e : E} {k : R e → Prog R α} {tr : List (Event R)} :
    Cut (call e k) tr ↔ tr = [] ∨ ∃ r tr', tr = ⟨e, r⟩ :: tr' ∧ Cut (k r) tr' := by
  constructor
  · intro h
    cases h with
    | next => exact Or.inl rfl
    | call h => exact Or.inr ⟨_, _, rfl, h⟩
  · rintro (rfl | ⟨r, tr', rfl, h⟩)
    · exact .next e k
    · exact .call h

/-- A sequence is cut in its first part, or in its second. -/
theorem cut_bind {p : Prog R α} {f : α → Prog R β} {tr : List (Event R)} :
    Cut (p >>= f) tr ↔
      Cut p tr ∨ ∃ tr₁ a tr₂, Runs p tr₁ a ∧ Cut (f a) tr₂ ∧ tr = tr₁ ++ tr₂ := by
  constructor
  · intro h
    -- As for a run, the first program is followed down its tree.
    induction p generalizing tr with
    | done a => exact Or.inr ⟨[], a, tr, .done a, h, rfl⟩
    | call e k ih =>
      rw [call_bind, cut_call] at h
      rcases h with rfl | ⟨r, tr', rfl, h⟩
      · exact Or.inl (.next e k)
      · rcases ih r h with hcut | ⟨tr₁, a, tr₂, h₁, h₂, rfl⟩
        · exact Or.inl (.call hcut)
        · exact Or.inr ⟨⟨e, r⟩ :: tr₁, a, tr₂, .call h₁, h₂, rfl⟩
    | fault =>
      obtain rfl := cut_fault.mp h
      exact Or.inl .fault
  · rintro (h | ⟨tr₁, a, tr₂, h₁, h₂, rfl⟩)
    · induction h with
      | next e k => exact .next e _
      | fault => exact .fault
      | call _ ih => exact .call ih
    · induction h₁ with
      | done a => exact h₂
      | call _ ih => exact .call (ih h₂)

/-- `Only` bounds the calls of an unfinished run, too. -/
theorem Only.cut {G : E → Prop} {p : Prog R α} {tr : List (Event R)} (hp : Only G p)
    (h : Cut p tr) : ∀ ev ∈ tr, G ev.1 := by
  induction h with
  | next e k => exact fun ev hev => nomatch hev
  | fault => exact fun ev hev => nomatch hev
  | call _ ih =>
    intro ev hev
    rcases List.mem_cons.mp hev with rfl | hev
    · exact hp.1
    · exact ih (hp.2 _) ev hev

theorem Cut.traces {p : Prog R α} {tr : List (Event R)} (h : Cut p tr) : Traces p tr none := h

theorem Runs.traces {p : Prog R α} {tr : List (Event R)} {a : α} (h : Runs p tr a) :
    Traces p tr (some a) := h

theorem Only.traces {G : E → Prop} {p : Prog R α} {tr : List (Event R)} {out : Option α}
    (hp : Only G p) (h : Traces p tr out) : ∀ ev ∈ tr, G ev.1 := by
  cases out with
  | none => exact hp.cut h
  | some a => exact hp.runs h

@[simp] theorem traces_done {a : α} {tr : List (Event R)} {out : Option α} :
    Traces (done a) tr out ↔ tr = [] ∧ out = some a := by
  cases out with
  | none => exact ⟨fun h => absurd h cut_done, fun h => nomatch h.2⟩
  | some b => exact runs_done.trans (and_congr_right fun _ => Option.some_inj.symm)

@[simp] theorem traces_pure {a : α} {tr : List (Event R)} {out : Option α} :
    Traces (pure a) tr out ↔ tr = [] ∧ out = some a := traces_done

theorem traces_call {e : E} {k : R e → Prog R α} {tr : List (Event R)} {out : Option α} :
    Traces (call e k) tr out ↔
      (tr = [] ∧ out = none) ∨ ∃ r tr', tr = ⟨e, r⟩ :: tr' ∧ Traces (k r) tr' out := by
  cases out with
  | none => simp [Traces]
  | some a => simp [Traces]

/-- A sequence is cut in its first part, or goes on where this ends. -/
theorem traces_bind {p : Prog R α} {f : α → Prog R β} {tr : List (Event R)} {out : Option β} :
    Traces (p >>= f) tr out ↔
      (Cut p tr ∧ out = none) ∨
        ∃ tr₁ a tr₂, Runs p tr₁ a ∧ Traces (f a) tr₂ out ∧ tr = tr₁ ++ tr₂ := by
  cases out with
  | none => simp [Traces, cut_bind]
  | some b => simp [Traces, runs_bind]

/-- What a sequence does behind a run of its first part. -/
theorem Runs.split {p : Prog R α} {f : α → Prog R β} {tr tr' : List (Event R)} {a : α}
    {out : Option β} (hr : Runs p tr a) (h : Traces (p >>= f) (tr ++ tr') out) :
    Traces (f a) tr' out := by
  induction hr with
  | done a => exact h
  | call _ ih =>
    rcases traces_call.mp h with ⟨hnil, -⟩ | ⟨r, rest, heq, hrest⟩
    · cases hnil
    · obtain ⟨hev, rfl⟩ := List.cons.inj heq
      cases hev
      exact ih hrest

/-- The trace of an execution has the replies of its other side. -/
theorem exec_forall {P : Event R → Prop} {τ : Type} {h : (e : E) → τ → R e × τ}
    (hP : ∀ e t, P ⟨e, (h e t).1⟩) {p : Prog R α} {t t' : τ} {a : α} {tr : List (Event R)}
    (hx : exec h p t = some (tr, a, t')) : ∀ ev ∈ tr, P ev := by
  induction p generalizing t tr with
  | done b =>
    simp only [exec_done, Option.some.injEq, Prod.mk.injEq] at hx
    obtain ⟨rfl, -, -⟩ := hx
    exact nofun
  | call e k ih =>
    rw [exec_call, Option.map_eq_some_iff] at hx
    obtain ⟨⟨tr', b, s⟩, hx, heq⟩ := hx
    simp only [Prod.mk.injEq] at heq
    obtain ⟨rfl, rfl, rfl⟩ := heq
    intro ev hev
    rcases List.mem_cons.mp hev with rfl | hev
    · exact hP e t
    · exact ih _ hx ev hev
  | fault => cases hx

/-! ## Traces against one other side -/

section Follows

variable {τ : Type} (h : (e : E) → τ → R e × τ)

/-- The replies of `tr` are those of `h`, from `t` on. -/
def Follows : τ → List (Event R) → Prop
  | _, [] => True
  | t, ⟨e, r⟩ :: tr => r = (h e t).1 ∧ Follows (h e t).2 tr

/-- What `h` has come to behind `tr`. -/
def after : τ → List (Event R) → τ
  | t, [] => t
  | t, ⟨e, _⟩ :: tr => after (h e t).2 tr

variable {h}

theorem after_append (t : τ) (tr tr' : List (Event R)) :
    after h t (tr ++ tr') = after h (after h t tr) tr' := by
  induction tr generalizing t with
  | nil => rfl
  | cons ev tr ih => exact ih _

theorem follows_append {t : τ} {tr tr' : List (Event R)} :
    Follows h t (tr ++ tr') ↔ Follows h t tr ∧ Follows h (after h t tr) tr' := by
  induction tr generalizing t with
  | nil => exact (iff_of_eq (true_and _)).symm
  | cons ev tr ih => exact (and_congr_right fun _ => ih).trans and_assoc.symm

/-- An execution is a run whose replies are those of `h`. -/
theorem Ends.follows {p : Prog R α} {t t' : τ} {a : α} (hp : Ends h p t a t') :
    ∃ tr, Runs p tr a ∧ Follows h t tr ∧ after h t tr = t' := by
  induction p generalizing t with
  | done b =>
    obtain ⟨rfl, rfl⟩ := ends_done.mp hp
    exact ⟨[], .done _, trivial, rfl⟩
  | call e k ih =>
    obtain ⟨tr, hr, hf, hafter⟩ := ih _ (ends_call.mp hp)
    exact ⟨⟨e, (h e t).1⟩ :: tr, .call hr, ⟨rfl, hf⟩, hafter⟩
  | fault =>
    obtain ⟨tr, htr⟩ := hp
    cases htr

/-- The calls of an execution got the replies of `h`, and it leaves what `h` has come to. -/
theorem exec_follows {p : Prog R α} {t t' : τ} {tr : List (Event R)} {a : α}
    (hx : exec h p t = some (tr, a, t')) : Follows h t tr ∧ after h t tr = t' := by
  induction p generalizing t tr with
  | done b =>
    simp only [exec_done, Option.some.injEq, Prod.mk.injEq] at hx
    obtain ⟨rfl, -, rfl⟩ := hx
    exact ⟨trivial, rfl⟩
  | call e k ih =>
    rw [exec_call, Option.map_eq_some_iff] at hx
    obtain ⟨⟨tr', b, u⟩, hx, heq⟩ := hx
    simp only [Prod.mk.injEq] at heq
    obtain ⟨rfl, rfl, rfl⟩ := heq
    obtain ⟨hf, hafter⟩ := ih _ hx
    exact ⟨⟨rfl, hf⟩, hafter⟩
  | fault => cases hx

/-- A run whose replies are those of `h` is the execution against it. -/
theorem Runs.exec_eq {p : Prog R α} {t : τ} {tr : List (Event R)} {a : α} (hr : Runs p tr a)
    (hf : Follows h t tr) : exec h p t = some (tr, a, after h t tr) := by
  induction hr generalizing t with
  | done a => rfl
  | call _ ih =>
    obtain ⟨rfl, hf⟩ := hf
    rw [exec_call, ih hf]
    rfl

theorem Runs.ends {p : Prog R α} {t : τ} {tr : List (Event R)} {a : α} (hr : Runs p tr a)
    (hf : Follows h t tr) : Ends h p t a (after h t tr) :=
  ⟨tr, hr.exec_eq hf⟩

/-- Against `h`, from `t`, the program comes to an end. -/
def Halts (h : (e : E) → τ → R e × τ) (p : Prog R α) (t : τ) : Prop :=
  ∃ a t', Ends h p t a t'

theorem Halts.done (a : α) (t : τ) : Halts h (Prog.done a) t := ⟨a, t, .done a t⟩

theorem Halts.call {e : E} {k : R e → Prog R α} {t : τ} (hk : Halts h (k (h e t).1) (h e t).2) :
    Halts h (Prog.call e k) t := by
  obtain ⟨a, t', hk⟩ := hk
  exact ⟨a, t', .call hk⟩

theorem Halts.bind {p : Prog R α} {f : α → Prog R β} {t : τ} (hp : Halts h p t)
    (hf : ∀ a t', Halts h (f a) t') : Halts h (p >>= f) t := by
  obtain ⟨a, t', hp⟩ := hp
  obtain ⟨b, t'', hf⟩ := hf a t'
  exact ⟨b, t'', hp.bind hf⟩

theorem Halts.ite {c : Prop} [Decidable c] {p q : Prog R α} {t : τ} (hp : Halts h p t)
    (hq : Halts h q t) : Halts h (if c then p else q) t := by
  split
  next => exact hp
  next => exact hq

end Follows

/-! ## Programs that never fault -/

/-- No run of the program faults, whatever the replies. -/
def Total : Prog R α → Prop
  | done _ => True
  | call _ k => ∀ r, (k r).Total
  | fault => False

@[simp] theorem total_done (a : α) : (done a : Prog R α).Total := trivial

@[simp] theorem total_pure (a : α) : (pure a : Prog R α).Total := trivial

@[simp] theorem total_call {e : E} {k : R e → Prog R α} :
    (call e k).Total ↔ ∀ r, (k r).Total := Iff.rfl

theorem total_ofOption {o : Option α} : (ofOption o : Prog R α).Total ↔ ∃ a, o = some a := by
  cases o with
  | none => exact iff_of_false id (by simp)
  | some a => exact iff_of_true trivial ⟨a, rfl⟩

theorem Total.ite {c : Prop} [Decidable c] {p q : Prog R α} (hp : c → p.Total)
    (hq : ¬ c → q.Total) : (if c then p else q).Total := by
  split
  next hc => exact hp hc
  next hc => exact hq hc

/-- The second part of a sequence only matters on results the first can have. -/
theorem Total.bind {p : Prog R α} {f : α → Prog R β} (hp : p.Total)
    (hf : ∀ tr a, Runs p tr a → (f a).Total) : (p >>= f).Total := by
  induction p with
  | done a => exact hf [] a (.done a)
  | call e k ih => exact fun r => ih r (hp r) fun tr a h => hf (⟨e, r⟩ :: tr) a (.call h)
  | fault => exact hp

/-- Where a sequence never faults, neither does its first part, nor its second wherever the
first can end. -/
theorem Total.of_bind_left {p : Prog R α} {f : α → Prog R β} (h : (p >>= f).Total) : p.Total := by
  induction p with
  | done a => trivial
  | call e k ih => exact fun r => ih r (h r)
  | fault => exact h

theorem Total.of_bind {p : Prog R α} {f : α → Prog R β} (h : (p >>= f).Total)
    {tr : List (Event R)} {a : α} (hr : Runs p tr a) : (f a).Total := by
  induction hr with
  | done a => exact h
  | call _ ih => exact ih (h _)

/-- Such a program comes to an end against every other side. -/
theorem Total.halts {τ : Type} {h : (e : E) → τ → R e × τ} {p : Prog R α} (hp : p.Total) (t : τ) :
    Halts h p t := by
  induction p generalizing t with
  | done a => exact .done a t
  | call e k ih => exact .call (ih _ (hp _) _)
  | fault => exact hp.elim

/-! ## Loops -/

/-- How a turn of a loop ends. -/
inductive Turn (α σ : Type) where
  | stop (a : α)
  | next (s : σ)

/-- The loop of `body` from a state, cut short after so many turns. -/
def iterate (body : σ → Prog R (Turn α σ)) : Nat → σ → Prog R α
  | 0, _ => fault
  | n + 1, s => body s >>= fun
    | .stop a => done a
    | .next s' => iterate body n s'

variable {body : σ → Prog R (Turn α σ)} {I : σ → List (Event R) → Prop} {n : Nat} {s : σ}
  {tr : List (Event R)}

/-- What each turn keeps holds in front of the last turn of a trace, from wherever the loop
has come to. -/
theorem traces_iterate_from {pre : List (Event R)} {out : Option α}
    (h : Traces (iterate body n s) tr out) (hs : I s pre)
    (hturn : ∀ s pre evs s', I s pre → Runs (body s) evs (.next s') → I s' (pre ++ evs)) :
    ∃ s' mid last, I s' (pre ++ mid) ∧ tr = mid ++ last ∧
      (last = [] ∧ out = none ∨ Traces (body s') last (out.map .stop)) := by
  induction n generalizing s pre tr with
  | zero =>
    cases out with
    | none =>
      obtain rfl := cut_fault.mp h
      exact ⟨s, [], [], by rwa [List.append_nil], rfl, Or.inl ⟨rfl, rfl⟩⟩
    | some a => exact absurd h runs_fault
  | succ n ih =>
    rw [iterate, traces_bind] at h
    rcases h with ⟨h, rfl⟩ | ⟨evs, t, tr', hbody, h, rfl⟩
    · exact ⟨s, [], tr, by rwa [List.append_nil], rfl, Or.inr h⟩
    · cases t with
      | stop a =>
        obtain ⟨rfl, rfl⟩ := traces_done.mp h
        exact ⟨s, [], evs, by rwa [List.append_nil], List.append_nil evs, Or.inr hbody⟩
      | next s' =>
        obtain ⟨s'', mid, last, hI, rfl, hlast⟩ := ih h (hturn s pre evs s' hs hbody)
        exact ⟨s'', evs ++ mid, last, by rwa [← List.append_assoc],
          (List.append_assoc evs mid last).symm, hlast⟩

/-- **The rule for loops**: what holds at the start and is kept by each turn holds in front
of the last turn of every trace. -/
theorem traces_iterate {out : Option α} (h : Traces (iterate body n s) tr out) (hs : I s [])
    (hturn : ∀ s pre evs s', I s pre → Runs (body s) evs (.next s') → I s' (pre ++ evs)) :
    ∃ s' mid last, I s' mid ∧ tr = mid ++ last ∧
      (last = [] ∧ out = none ∨ Traces (body s') last (out.map .stop)) :=
  traces_iterate_from h hs hturn

/-- The same of a loop that has ended. -/
theorem runs_iterate {a : α} (h : Runs (iterate body n s) tr a) (hs : I s [])
    (hturn : ∀ s pre evs s', I s pre → Runs (body s) evs (.next s') → I s' (pre ++ evs)) :
    ∃ s' mid last, I s' mid ∧ tr = mid ++ last ∧ Runs (body s') last (.stop a) := by
  obtain ⟨s', mid, last, hI, rfl, hlast⟩ := traces_iterate h.traces hs hturn
  rcases hlast with ⟨-, hnone⟩ | hlast
  · cases hnone
  · exact ⟨s', mid, last, hI, rfl, hlast⟩

/-- A loop that is cut short later. -/
theorem Below.iterate {body body' : σ → Prog R (Turn α σ)} {m n : Nat}
    (hbody : ∀ s, Below (body s) (body' s)) (hmn : m ≤ n) (s : σ) :
    Below (iterate body m s) (iterate body' n s) := by
  induction m generalizing n s with
  | zero => exact .fault _
  | succ m ih =>
    obtain ⟨n, rfl⟩ := Nat.exists_eq_add_of_le' (Nat.le_trans (Nat.le_add_left 1 m) hmn)
    refine (hbody s).bind fun t => ?_
    cases t with
    | stop a => exact .refl _
    | next s' => exact ih (Nat.le_of_succ_le_succ hmn) s'

/-- So many turns of a loop, each of which has led to the next. -/
inductive Turns (body : σ → Prog R (Turn α σ)) (s : σ) : Nat → List (Event R) → σ → Prop
  | nil : Turns body s 0 [] s
  | snoc {n : Nat} {tr evs : List (Event R)} {s' s'' : σ} : Turns body s n tr s' →
      Runs (body s') evs (.next s'') → Turns body s (n + 1) (tr ++ evs) s''

/-- What the loop does behind its first turns. -/
theorem Turns.traces {s' : σ} (ht : Turns body s n tr s') {k : Nat} {last : List (Event R)}
    {out : Option α} (h : Traces (iterate body k s') last out) :
    Traces (iterate body (n + k) s) (tr ++ last) out := by
  induction ht generalizing k last with
  | nil =>
    rw [Nat.zero_add]
    exact h
  | @snoc n tr evs s' s'' _ hturn ih =>
    rw [List.append_assoc, Nat.add_assoc, Nat.add_comm 1]
    exact ih (traces_bind.mpr (.inr ⟨evs, _, last, hturn, h, rfl⟩))

/-- A loop makes the calls of its turns. -/
theorem Only.iterate {G : E → Prop} (hbody : ∀ s, Only G (body s)) :
    Only G (iterate body n s) := by
  induction n generalizing s with
  | zero => trivial
  | succ n ih =>
    refine (hbody s).bind fun tr t _ => ?_
    cases t with
    | stop a => trivial
    | next s' => exact ih

end HostInterface.Interact.Prog
