import Mathlib.Data.List.Basic

/-!
# Runs of a partial step function

A system is a step function `step : σ → ε → Option (σ × List ο)`: it takes a state and an
event to the next state and the outputs of the step, or to `none` where the process has no
next state (it crashed, it hangs, or the event cannot happen). `Runs step P s₀ es s tr` is a
run from `s₀` over the events `es`, all of whose steps meet the condition `P` on the state
before the step and the event; `tr` is everything it put out.

The rules below are the only inductions over runs that the rest of the development makes; the
last one is for a loop whose turns can fail.
-/

namespace TransitionSystem

variable {σ ε ο : Type*}

/-- A run of `step` from `s₀` in which every step meets `P`. Runs grow at the end, so that an
induction over a run sees the state before the last step. -/
inductive Runs (step : σ → ε → Option (σ × List ο)) (P : σ → ε → Prop) (s₀ : σ) :
    List ε → σ → List ο → Prop
  | nil : Runs step P s₀ [] s₀ []
  | snoc {es : List ε} {s s' : σ} {tr out : List ο} {e : ε} :
      Runs step P s₀ es s tr → P s e → step s e = some (s', out) →
      Runs step P s₀ (es ++ [e]) s' (tr ++ out)

/-- The condition that every step meets. -/
abbrev Always : σ → ε → Prop := fun _ _ => True

/-- The run over a list of events, computed, if there is one and all its steps meet `P`. -/
def run (step : σ → ε → Option (σ × List ο)) (P : σ → ε → Prop) [∀ s e, Decidable (P s e)] :
    σ → List ε → Option (σ × List ο)
  | s, [] => some (s, [])
  | s, e :: es =>
    if P s e then do
      let (s₁, out) ← step s e
      let (s₂, tr) ← run step P s₁ es
      return (s₂, out ++ tr)
    else none

section
variable {step : σ → ε → Option (σ × List ο)} {P Q : σ → ε → Prop} {s₀ s s' : σ}
  {es es' : List ε} {tr tr' out : List ο} {e : ε}

/-- A run of one step. -/
theorem Runs.single (hP : P s e) (h : step s e = some (s', out)) :
    Runs step P s [e] s' out := by
  simpa using Runs.snoc Runs.nil hP h

/-- Runs compose. -/
theorem Runs.append (h : Runs step P s₀ es s tr) (h' : Runs step P s es' s' tr') :
    Runs step P s₀ (es ++ es') s' (tr ++ tr') := by
  induction h' with
  | nil => simpa using h
  | snoc _ hP hs ih =>
      rw [← List.append_assoc, ← List.append_assoc]
      exact ih.snoc hP hs

/-- A run whose steps meet `P` is a run whose steps meet any consequence of `P`. -/
theorem Runs.mono (hPQ : ∀ s e, P s e → Q s e) (h : Runs step P s₀ es s tr) :
    Runs step Q s₀ es s tr := by
  induction h with
  | nil => exact .nil
  | snoc _ hP hs ih => exact ih.snoc (hPQ _ _ hP) hs

/-- A condition that the events of a run meet in every state is met by its steps. -/
theorem Runs.of_mem (hQ : ∀ e ∈ es, ∀ s, Q s e) (h : Runs step P s₀ es s tr) :
    Runs step Q s₀ es s tr := by
  induction h with
  | nil => exact .nil
  | snoc _ _ hs ih =>
      have hmem := List.forall_mem_append.1 hQ
      exact (ih hmem.1).snoc (hmem.2 _ (.head _) _) hs

/-- The events determine the run. -/
theorem Runs.det (h : Runs step P s₀ es s tr) (h' : Runs step Q s₀ es s' tr') :
    s = s' ∧ tr = tr' := by
  induction h generalizing s' tr' with
  | nil =>
      generalize hes : ([] : List ε) = es at h'
      cases h' with
      | nil => exact ⟨rfl, rfl⟩
      | snoc => simp at hes
  | @snoc es s s₁ tr out e _ _ hs ih =>
      generalize hes : es ++ [e] = es' at h'
      cases h' with
      | nil => simp at hes
      | snoc hr' _ hs' =>
          obtain ⟨rfl, rfl⟩ : es = _ ∧ e = _ := by simpa [List.append_inj'] using hes
          obtain ⟨rfl, rfl⟩ := ih hr'
          obtain ⟨rfl, rfl⟩ := Prod.mk.inj (Option.some.inj (hs.symm.trans hs'))
          exact ⟨rfl, rfl⟩

/-- A run over at least one event begins with a step. -/
theorem Runs.uncons (h : Runs step P s (e :: es) s' tr) : ∃ s₁ out tr₁, P s e ∧
    step s e = some (s₁, out) ∧ Runs step P s₁ es s' tr₁ ∧ tr = out ++ tr₁ := by
  generalize hes : e :: es = es' at h
  induction h generalizing es with
  | nil => cases hes
  | @snoc es₀ s₂ s₃ tr₂ out₂ e₂ hr hP hs ih =>
      cases es₀ with
      | nil =>
          obtain ⟨rfl, rfl⟩ : e = e₂ ∧ es = [] := by simpa using hes
          obtain ⟨rfl, rfl⟩ := hr.det (.nil : Runs step P s [] s [])
          exact ⟨s₃, out₂, [], hP, hs, .nil, by simp⟩
      | cons e₀ es₁ =>
          obtain ⟨rfl, rfl⟩ : e = e₀ ∧ es = es₁ ++ [e₂] := by simpa using hes
          obtain ⟨s₁, out, tr₁, hP₁, hs₁, hr₁, rfl⟩ := ih rfl
          exact ⟨s₁, out, tr₁ ++ out₂, hP₁, hs₁, hr₁.snoc hP hs, by rw [List.append_assoc]⟩

/-- A run over two lists of events is a run over the one and then one over the other. -/
theorem Runs.split (h : Runs step P s₀ (es ++ es') s tr) : ∃ s₁ tr₁ tr₂,
    Runs step P s₀ es s₁ tr₁ ∧ Runs step P s₁ es' s tr₂ ∧ tr = tr₁ ++ tr₂ := by
  induction es generalizing s₀ tr with
  | nil => exact ⟨s₀, [], tr, .nil, h, rfl⟩
  | cons e es ih =>
      obtain ⟨s₁, out, tr₁, hP, hs, hr, rfl⟩ := h.uncons
      obtain ⟨s₂, tr₂, tr₃, hr₂, hr₃, rfl⟩ := ih hr
      exact ⟨s₂, out ++ tr₂, tr₃, (Runs.single hP hs).append hr₂, hr₃, by rw [List.append_assoc]⟩

/-- **The invariant rule.** What holds at the start and survives every step that meets `P`
holds at the end of every run. -/
theorem Runs.invariant {I : σ → Prop} (h : Runs step P s₀ es s tr) (h₀ : I s₀)
    (hstep : ∀ s e s' out, I s → P s e → step s e = some (s', out) → I s') : I s := by
  induction h with
  | nil => exact h₀
  | snoc _ hP hs ih => exact hstep _ _ _ _ ih hP hs

/-- **The invariant rule over histories**, for a property that also speaks of the events so
far and of the outputs so far. The step is given the run that leads to it. -/
theorem Runs.invariant_history {I : List ε → σ → List ο → Prop}
    (h : Runs step P s₀ es s tr) (h₀ : I [] s₀ [])
    (hstep : ∀ es s tr e s' out, Runs step P s₀ es s tr → I es s tr → P s e →
      step s e = some (s', out) → I (es ++ [e]) s' (tr ++ out)) : I es s tr := by
  induction h with
  | nil => exact h₀
  | snoc hr hP hs ih => exact hstep _ _ _ _ _ _ hr ih hP hs

/-- A computed run is a run. -/
theorem runs_of_run [∀ s e, Decidable (P s e)] (h : run step P s es = some (s', tr)) :
    Runs step P s es s' tr := by
  induction es generalizing s tr with
  | nil =>
      simp only [run, Option.some.injEq, Prod.mk.injEq] at h
      obtain ⟨rfl, rfl⟩ := h
      exact .nil
  | cons e es ih =>
      rw [run] at h
      split at h
      · next hP =>
          simp only [Option.bind_eq_bind, Option.bind_eq_some_iff, Prod.exists,
            Option.pure_def, Option.some.injEq, Prod.mk.injEq] at h
          obtain ⟨s₁, out, hs, s₂, tr₂, hr, rfl, rfl⟩ := h
          exact (Runs.single hP hs).append (ih hr)
      · cases h

end

/-- At every event of the run over a list of events, the state before it and the event meet `P`. -/
def Throughout (step : σ → ε → Option (σ × List ο)) (P : σ → ε → Prop) (s₀ : σ) (es : List ε) :
    Prop :=
  ∀ pre e post s tr, es = pre ++ e :: post → Runs step Always s₀ pre s tr → P s e

/-- What is the same at every state and event is the same throughout a run. -/
theorem throughout_congr {step : σ → ε → Option (σ × List ο)} {P Q : σ → ε → Prop} {s₀ : σ}
    {es : List ε} (h : ∀ s e, P s e ↔ Q s e) :
    Throughout step P s₀ es ↔ Throughout step Q s₀ es := by
  simp only [Throughout, h]

/-! ## Histories -/

section
variable {p : List ο → ο → Prop} {tr tr' pre post : List ο} {o x : ο}

/-- Every output satisfies `p` after those before it. -/
def EachAfter (p : List ο → ο → Prop) (tr : List ο) : Prop :=
  ∀ pre o post, tr = pre ++ o :: post → p pre o

/-- Nothing has happened. -/
theorem eachAfter_nil : EachAfter p [] := fun pre o post h => by simp at h

/-- An output of a longer history is the last one, or one of the shorter history. -/
theorem split_concat (h : tr ++ [o] = pre ++ x :: post) :
    (pre = tr ∧ x = o) ∨ ∃ post', tr = pre ++ x :: post' := by
  rcases List.eq_nil_or_concat' post with rfl | ⟨post', y, rfl⟩
  · obtain ⟨rfl, hlast⟩ := List.append_inj' h rfl
    exact .inl ⟨rfl, (List.singleton_inj.1 hlast).symm⟩
  · rw [← List.cons_append, ← List.append_assoc] at h
    exact .inr ⟨post', (List.append_inj' h rfl).1⟩

/-- One more output, after those before it. -/
theorem eachAfter_concat : EachAfter p (tr ++ [o]) ↔ EachAfter p tr ∧ p tr o := by
  constructor
  · intro h
    exact ⟨fun pre x post heq => h pre x (post ++ [o]) (by rw [heq]; simp), h tr o [] rfl⟩
  · rintro ⟨h, ho⟩ pre x post heq
    rcases split_concat heq with ⟨rfl, rfl⟩ | ⟨post', rfl⟩
    · exact ho
    · exact h pre x post' rfl

end

/-! ## Refinement -/

section
variable {τ δ ω : Type*} {step : σ → ε → Option (σ × List ο)} {P : σ → ε → Prop}
  {step' : τ → δ → Option (τ × List ω)} {P' : τ → δ → Prop} {R : σ → τ → Prop}
  {O : List ο → List ω → Prop} {s₀ s : σ} {t₀ : τ} {es : List ε} {tr : List ο}

/-- **The refinement rule.** If every step that meets `P` is matched by a run of the abstract
system that leads to a related state and shows related outputs, every run is. -/
theorem Runs.refines (hnil : O [] [])
    (happend : ∀ {out out' tr tr'}, O out out' → O tr tr' → O (out ++ tr) (out' ++ tr'))
    (hstep : ∀ s t e s' out, R s t → P s e → step s e = some (s', out) →
      ∃ as t' out', Runs step' P' t as t' out' ∧ R s' t' ∧ O out out')
    (h : Runs step P s₀ es s tr) (h₀ : R s₀ t₀) :
    ∃ as t tr', Runs step' P' t₀ as t tr' ∧ R s t ∧ O tr tr' := by
  induction h with
  | nil => exact ⟨[], t₀, [], .nil, h₀, hnil⟩
  | snoc _ hP hs ih =>
      obtain ⟨as, t, tr', hr, hR, hO⟩ := ih
      obtain ⟨as', t', out', hr', hR', hO'⟩ := hstep _ _ _ _ _ hR hP hs
      exact ⟨as ++ as', t', tr' ++ out', hr.append hr', hR', happend hO hO'⟩

end

/-! ## Loops that may fail -/

/-- **The loop rule.** What holds before a loop over a list and survives every turn, given what
has been visited, holds when the loop is done. -/
theorem foldlM_rule {σ α : Type*} {f : σ → α → Option σ} {l : List α} {s s' : σ}
    {I : List α → σ → Prop} (h : l.foldlM f s = some s') (h₀ : I [] s)
    (hturn : ∀ done a rest s₁ s₂, l = done ++ a :: rest → I done s₁ → f s₁ a = some s₂ →
      I (done ++ [a]) s₂) : I l s' := by
  have go : ∀ rest done s, l = done ++ rest → I done s → rest.foldlM f s = some s' → I l s' := by
    intro rest
    induction rest with
    | nil =>
        intro done s hl hI hf
        obtain rfl := Option.some.inj hf
        rwa [hl, List.append_nil]
    | cons a rest ih =>
        intro done s hl hI hf
        rw [List.foldlM_cons, Option.bind_eq_bind, Option.bind_eq_some_iff] at hf
        obtain ⟨s₁, hs₁, hf⟩ := hf
        exact ih (done ++ [a]) s₁ (by simp [hl]) (hturn done a rest s s₁ hl hI hs₁) hf
  exact go l [] s rfl h₀ h

end TransitionSystem
