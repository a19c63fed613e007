import HostInterface.Interact.Prog

/-!
# Runs of a reactive machine

A machine holds a state between inputs and processes each input with one
`Prog`. `Run step s₀ hist s` says that the history `hist` leads from `s₀` to
`s`: one `Step` for each input, with the state before and after it, what was
returned and every call made meanwhile with its reply. Nothing is assumed of
the replies, so a fact about all runs holds against any environment.

* `Run.invariant`: what each step keeps holds of every run; `Run.always_of` is
  the rule for invariants of the state alone, kept by the steps that meet a
  condition, in runs whose steps all meet it.
* `Run.throughout_iff`: a property kept by exactly the steps that meet a condition
  holds all the way along a run if and only if all its steps meet it.
* `Run.at_pos`: every position of a history is reached by the run before it.
* `LooseRun`: runs in which nothing is said of the steps that meet a condition.
* `execAll`: the run against one handler; `execAll_run` makes it a `Run`.
* `runAll`: the inputs in order as one program, which ends as `execAll` does.
-/

namespace HostInterface.Interact

variable {E : Type} {R : E → Type} {S I O σ : Type}

/-- The record of one processed input. -/
structure Step {E : Type} (R : E → Type) (S I O : Type) where
  pre : S
  input : I
  events : List (Event R)
  out : O
  post : S

/-- The record is one the machine can produce. -/
def Step.Valid (step : S → I → Prog R (O × S)) (st : Step R S I O) : Prop :=
  (step st.pre st.input).Runs st.events (st.out, st.post)

/-- `hist` is a history of the machine from `s₀` to the state given last. -/
inductive Run (step : S → I → Prog R (O × S)) (s₀ : S) : List (Step R S I O) → S → Prop
  | nil : Run step s₀ [] s₀
  | snoc {hist : List (Step R S I O)} {st : Step R S I O} :
      Run step s₀ hist st.pre → st.Valid step → Run step s₀ (hist ++ [st]) st.post

variable {step : S → I → Prog R (O × S)} {s₀ s : S} {hist : List (Step R S I O)}

namespace Run

/-- A property of the history and the state that each step keeps holds of every run. -/
theorem invariant {P : List (Step R S I O) → S → Prop} (h : Run step s₀ hist s) (h₀ : P [] s₀)
    (hstep : ∀ (hist : List (Step R S I O)) (st : Step R S I O),
      st.Valid step → P hist st.pre → P (hist ++ [st]) st.post) : P hist s := by
  induction h with
  | nil => exact h₀
  | snoc _ hv ih => exact hstep _ _ hv ih

/-- An invariant of the steps that meet `C` holds along every run of such steps. -/
theorem always_of {P : S → Prop} {C : Step R S I O → Prop} (h : Run step s₀ hist s)
    (hC : ∀ st ∈ hist, C st) (h₀ : P s₀)
    (hstep : ∀ st : Step R S I O, st.Valid step → C st → P st.pre → P st.post) : P s := by
  refine h.invariant (P := fun hist s => (∀ st ∈ hist, C st) → P s) (fun _ => h₀) ?_ hC
  intro hist st hv ih hC
  have hpre : P st.pre := ih fun st' hst' => hC st' (List.mem_append_left _ hst')
  exact hstep st hv (hC st (by simp)) hpre

/-- An invariant of every step holds along every run. -/
theorem always {P : S → Prop} (h : Run step s₀ hist s) (h₀ : P s₀)
    (hstep : ∀ st : Step R S I O, st.Valid step → P st.pre → P st.post) : P s :=
  h.always_of (C := fun _ => True) (fun _ _ => trivial) h₀ fun st hv _ => hstep st hv

/-- The state before the step at position `i` is reached by the steps before it. -/
theorem at_pos (h : Run step s₀ hist s) {i : Nat} {st : Step R S I O}
    (hi : hist[i]? = some st) : Run step s₀ (hist.take i) st.pre ∧ st.Valid step := by
  induction h with
  | nil => simp at hi
  | @snoc hist last hrun hv ih =>
    -- Either an earlier position, or that of the last step.
    rcases Nat.lt_or_ge i hist.length with hlt | hge
    · rw [List.getElem?_append_left hlt] at hi
      rw [List.take_append_of_le_length (Nat.le_of_lt hlt)]
      exact ih hi
    · rw [List.getElem?_append_right hge] at hi
      have hi0 : i - hist.length = 0 := by
        have := (List.getElem?_eq_some_iff.mp hi).1
        simp at this
        omega
      rw [hi0] at hi
      simp only [List.getElem?_cons_zero, Option.some.injEq] at hi
      subst hi
      have hlen : i = hist.length := by omega
      rw [hlen, List.take_left]
      exact ⟨hrun, hv⟩

/-- Where a property is kept by exactly the steps that meet `C`, it holds all the way
along a run if and only if every step of the run meets `C`. -/
theorem throughout_iff {P : List (Step R S I O) → S → Prop} {C : Step R S I O → Prop}
    (h : Run step s₀ hist s) (h₀ : P [] s₀)
    (hstep : ∀ (hist : List (Step R S I O)) (st : Step R S I O),
      st.Valid step → P hist st.pre → (P (hist ++ [st]) st.post ↔ C st)) :
    (∀ i st, hist[i]? = some st → P (hist.take (i + 1)) st.post) ↔ ∀ st ∈ hist, C st := by
  -- Carried along: where all steps so far meet `C`, the property holds at the end, which
  -- is what the equivalence for the next step starts from.
  suffices hboth : ((∀ i st, hist[i]? = some st → P (hist.take (i + 1)) st.post) ↔
      ∀ st ∈ hist, C st) ∧ ((∀ st ∈ hist, C st) → P hist s) from hboth.1
  induction h with
  | nil => exact ⟨by simp, fun _ => h₀⟩
  | @snoc hist st _ hv ih =>
    obtain ⟨ihIff, ihEnd⟩ := ih
    have hfront : ∀ i st', hist[i]? = some st' →
        (hist ++ [st])[i]? = some st' ∧ (hist ++ [st]).take (i + 1) = hist.take (i + 1) := by
      intro i st' hi
      have hlt := (List.getElem?_eq_some_iff.mp hi).1
      rw [List.getElem?_append_left hlt, List.take_append_of_le_length hlt]
      exact ⟨hi, rfl⟩
    have hlast : (hist ++ [st])[hist.length]? = some st ∧
        (hist ++ [st]).take (hist.length + 1) = hist ++ [st] := by
      simp [List.take_of_length_le]
    refine ⟨⟨fun hall => ?_, fun hC => ?_⟩, fun hC => ?_⟩
    · have hCfront : ∀ st' ∈ hist, C st' := by
        refine ihIff.mp fun i st' hi => ?_
        obtain ⟨hi', htake⟩ := hfront i st' hi
        have hP := hall i st' hi'
        rwa [htake] at hP
      have hPlast := hall hist.length st hlast.1
      rw [hlast.2] at hPlast
      intro st' hst'
      rcases List.mem_append.mp hst' with hmem | hmem
      · exact hCfront st' hmem
      · rw [List.mem_singleton.mp hmem]
        exact (hstep hist st hv (ihEnd hCfront)).mp hPlast
    · have hCfront : ∀ st' ∈ hist, C st' := fun st' h' => hC st' (List.mem_append_left _ h')
      intro i st' hi
      rcases Nat.lt_or_ge i hist.length with hlt | hge
      · rw [List.getElem?_append_left hlt] at hi
        rw [(hfront i st' hi).2]
        exact ihIff.mpr hCfront i st' hi
      · have hlen := (List.getElem?_eq_some_iff.mp hi).1
        simp only [List.length_append, List.length_singleton] at hlen
        obtain rfl : i = hist.length := by omega
        rw [hlast.1] at hi
        obtain rfl := Option.some.inj hi
        rw [hlast.2]
        exact (hstep hist st hv (ihEnd hCfront)).mpr (hC st (by simp))
    · have hCfront : ∀ st' ∈ hist, C st' := fun st' h' => hC st' (List.mem_append_left _ h')
      exact (hstep hist st hv (ihEnd hCfront)).mpr (hC st (by simp))

/-- Every step of a run starts in a state some run reaches. -/
theorem mem (h : Run step s₀ hist s) {st : Step R S I O} (hst : st ∈ hist) :
    (∃ hist', Run step s₀ hist' st.pre ∧ ∀ st' ∈ hist', st' ∈ hist) ∧ st.Valid step := by
  obtain ⟨i, hi⟩ := List.getElem?_of_mem hst
  obtain ⟨hrun, hv⟩ := h.at_pos hi
  exact ⟨⟨hist.take i, hrun, fun st' h' => List.mem_of_mem_take h'⟩, hv⟩

end Run

/-! ## Loose runs -/

/-- A history from `s₀` in which the steps that meet `C`, a condition on the state and the
input, may have done anything at all; the others did what the machine does. -/
inductive LooseRun (C : S → I → Prop) (step : S → I → Prog R (O × S)) (s₀ : S) :
    List (Step R S I O) → S → Prop
  | nil : LooseRun C step s₀ [] s₀
  | snoc {hist : List (Step R S I O)} {st : Step R S I O} :
      LooseRun C step s₀ hist st.pre → (st.Valid step ∨ C st.pre st.input) →
        LooseRun C step s₀ (hist ++ [st]) st.post

/-- Where no step meets the condition, it is a run. -/
theorem LooseRun.run {C : S → I → Prop} (h : LooseRun C step s₀ hist s)
    (hC : ∀ st ∈ hist, ¬ C st.pre st.input) : Run step s₀ hist s := by
  induction h with
  | nil => exact .nil
  | @snoc hist st _ hst ih =>
    have hfront : ∀ st' ∈ hist, ¬ C st'.pre st'.input := fun st' h' =>
      hC st' (List.mem_append_left _ h')
    exact .snoc (ih hfront) (hst.resolve_right (hC st (by simp)))

/-- A run is loose. -/
theorem Run.loose {C : S → I → Prop} (h : Run step s₀ hist s) : LooseRun C step s₀ hist s := by
  induction h with
  | nil => exact .nil
  | snoc _ hv ih => exact .snoc ih (Or.inl hv)

/-- A loose run goes on as a run from its end. -/
theorem LooseRun.append {C : S → I → Prop} {s' : S} {hist' : List (Step R S I O)}
    (h : LooseRun C step s₀ hist s) (h' : Run step s hist' s') :
    LooseRun C step s₀ (hist ++ hist') s' := by
  induction h' with
  | nil =>
    rw [List.append_nil]
    exact h
  | snoc _ hv ih =>
    rw [← List.append_assoc]
    exact .snoc ih (Or.inl hv)

/-! ## Execution -/

/-- Process the inputs in order against the handler `h`; `none` is a fault. -/
def execAll (step : S → I → Prog R (O × S)) (h : (e : E) → σ → R e × σ) :
    S → List I → σ → Option (List (Step R S I O) × S × σ)
  | s, [], t => some ([], s, t)
  | s, i :: is, t =>
    (Prog.exec h (step s i) t).bind fun x =>
      (execAll step h x.2.1.2 is x.2.2).map fun y =>
        (⟨s, i, x.1, x.2.1.1, x.2.1.2⟩ :: y.1, y.2.1, y.2.2)

variable {h : (e : E) → σ → R e × σ}

@[simp] theorem execAll_nil (s : S) (t : σ) : execAll step h s [] t = some ([], s, t) := rfl

/-- One more input, once its execution is known. -/
theorem execAll_cons {i : I} {is : List I} {t t' : σ} {tr : List (Event R)} {o : O} {s' : S}
    (hx : Prog.exec h (step s i) t = some (tr, (o, s'), t')) :
    execAll step h s (i :: is) t =
      (execAll step h s' is t').map fun y => (⟨s, i, tr, o, s'⟩ :: y.1, y.2.1, y.2.2) := by
  rw [execAll, hx]
  rfl

/-- An execution taken apart: that of the first input, and that of the others. -/
theorem execAll_cons_some {i : I} {is : List I} {s' : S} {t t' : σ} {hist : List (Step R S I O)}
    (hx : execAll step h s (i :: is) t = some (hist, s', t')) :
    ∃ tr o s₁ t₁ hist₁, Prog.exec h (step s i) t = some (tr, (o, s₁), t₁) ∧
      execAll step h s₁ is t₁ = some (hist₁, s', t') ∧ hist = ⟨s, i, tr, o, s₁⟩ :: hist₁ := by
  rw [execAll, Option.bind_eq_some_iff] at hx
  obtain ⟨⟨tr, ⟨o, s₁⟩, t₁⟩, hfirst, hx⟩ := hx
  rw [Option.map_eq_some_iff] at hx
  obtain ⟨⟨hist₁, s₂, t₂⟩, hrest, heq⟩ := hx
  simp only [Prod.mk.injEq] at heq
  obtain ⟨rfl, rfl, rfl⟩ := heq
  exact ⟨tr, o, s₁, t₁, hist₁, hfirst, hrest, rfl⟩

/-- Two executions, one after the other. -/
theorem execAll_append {is js : List I} {s₁ s' : S} {t t₁ t' : σ} {hist hist' : List (Step R S I O)}
    (hx : execAll step h s is t = some (hist, s₁, t₁))
    (hy : execAll step h s₁ js t₁ = some (hist', s', t')) :
    execAll step h s (is ++ js) t = some (hist ++ hist', s', t') := by
  induction is generalizing s t hist with
  | nil =>
    simp only [execAll_nil, Option.some.injEq, Prod.mk.injEq] at hx
    obtain ⟨rfl, rfl, rfl⟩ := hx
    exact hy
  | cons i is ih =>
    obtain ⟨tr, o, s₂, t₂, hist₂, hfirst, hrest, rfl⟩ := execAll_cons_some hx
    rw [List.cons_append, execAll_cons hfirst, ih hrest]
    rfl

/-- The history records the inputs it was given. -/
theorem execAll_inputs {is : List I} {s' : S} {t t' : σ} {hist : List (Step R S I O)}
    (hx : execAll step h s is t = some (hist, s', t')) : hist.map Step.input = is := by
  induction is generalizing s t hist with
  | nil =>
    simp only [execAll_nil, Option.some.injEq, Prod.mk.injEq] at hx
    obtain ⟨rfl, -⟩ := hx
    rfl
  | cons i is ih =>
    obtain ⟨tr, o, s₁, t₁, hist₁, -, hrest, rfl⟩ := execAll_cons_some hx
    rw [List.map_cons, ih hrest]

/-- An execution extends a run by its history. -/
theorem execAll_run {is : List I} {s' : S} {t t' : σ} {hist' : List (Step R S I O)}
    (hr : Run step s₀ hist s) (hx : execAll step h s is t = some (hist', s', t')) :
    Run step s₀ (hist ++ hist') s' := by
  induction is generalizing s t hist hist' with
  | nil =>
    simp only [execAll_nil, Option.some.injEq, Prod.mk.injEq] at hx
    obtain ⟨rfl, rfl, -⟩ := hx
    rw [List.append_nil]
    exact hr
  | cons i is ih =>
    obtain ⟨tr, o, s₁, t₁, hist₁, hx₁, hx₂, rfl⟩ := execAll_cons_some hx
    -- The first input extends the run, and the others go on from there.
    let st : Step R S I O := ⟨s, i, tr, o, s₁⟩
    have hv : st.Valid step := Prog.exec_runs hx₁
    rw [List.append_cons]
    exact ih (.snoc hr hv) hx₂

/-- The history of some inputs, where none faults, is that of a run. -/
theorem execAll_hist_run (s : S) (is : List I) (t : σ) :
    ∃ s', Run step s (((execAll step h s is t).map fun x => x.1).getD []) s' := by
  cases hx : execAll step h s is t with
  | none => exact ⟨_, .nil⟩
  | some x => exact ⟨x.2.1, execAll_run .nil hx⟩

/-! ## As one program -/

/-- Process the inputs in order, and return what each has returned. -/
def runAll (step : S → I → Prog R (O × S)) : S → List I → Prog R (List O × S)
  | s, [] => .done ([], s)
  | s, i :: is => step s i >>= fun x => runAll step x.2 is >>= fun y => .done (x.1 :: y.1, y.2)

/-- The program ends where the execution does, with what its steps have returned. -/
theorem runAll_ends_iff {is : List I} {s' : S} {t t' : σ} {outs : List O} :
    Prog.Ends h (runAll step s is) t (outs, s') t' ↔
      ∃ hist, execAll step h s is t = some (hist, s', t') ∧ hist.map Step.out = outs := by
  induction is generalizing s t outs with
  | nil =>
    rw [runAll, Prog.ends_done, Prod.mk.injEq]
    constructor
    · rintro ⟨⟨rfl, rfl⟩, rfl⟩
      exact ⟨[], rfl, rfl⟩
    · rintro ⟨hist, hx, rfl⟩
      simp only [execAll_nil, Option.some.injEq, Prod.mk.injEq] at hx
      obtain ⟨rfl, rfl, rfl⟩ := hx
      exact ⟨⟨rfl, rfl⟩, rfl⟩
  | cons i is ih =>
    rw [runAll]
    constructor
    · intro hends
      obtain ⟨⟨o, s₁⟩, t₁, ⟨tr, hstep⟩, hmore⟩ := Prog.ends_bind.mp hends
      obtain ⟨⟨outs₁, s₂⟩, t₂, hrest, hdone⟩ := Prog.ends_bind.mp hmore
      obtain ⟨heq, rfl⟩ := Prog.ends_done.mp hdone
      obtain ⟨rfl, rfl⟩ := Prod.mk.inj heq
      obtain ⟨hist, hx, rfl⟩ := ih.mp hrest
      exact ⟨_, by rw [execAll_cons hstep, hx]; rfl, rfl⟩
    · rintro ⟨hist, hx, rfl⟩
      obtain ⟨tr, o, s₁, t₁, hist₁, hstep, hrest, rfl⟩ := execAll_cons_some hx
      exact Prog.Ends.bind ⟨tr, hstep⟩ ((ih.mpr ⟨hist₁, hrest, rfl⟩).bind (.done _ _))

end HostInterface.Interact
