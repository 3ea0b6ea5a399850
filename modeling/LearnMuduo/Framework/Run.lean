import Mathlib.Data.List.Basic

/-!
# Runs of a labelled transition system

A run is a finite sequence of labelled steps. Safety arguments use one rule: a predicate that
the start satisfies and every step keeps holds wherever the run ends.
-/

namespace Framework

variable {σ ε : Type*}

/-- `Run step s es t`: the steps labelled `es`, in this order, lead from `s` to `t`. -/
inductive Run (step : σ → ε → σ → Prop) (s : σ) : List ε → σ → Prop
  | nil : Run step s [] s
  | snoc {es : List ε} {t : σ} {e : ε} {u : σ} :
      Run step s es t → step t e u → Run step s (es ++ [e]) u

namespace Run

variable {step step' : σ → ε → σ → Prop} {s t u : σ} {es fs : List ε}

theorem single {e : ε} (h : step s e t) : Run step s [e] t := by
  simpa using Run.snoc Run.nil h

theorem append (h : Run step s es t) (h' : Run step t fs u) : Run step s (es ++ fs) u := by
  induction h' with
  | nil => simpa using h
  | snoc _ hstep ih =>
      rw [← List.append_assoc]
      exact ih.snoc hstep

theorem of_foldlM {next : σ → ε → Option σ} (h : es.foldlM next s = some t) :
    Run (fun s e s' => next s e = some s') s es t := by
  induction es generalizing s with
  | nil =>
      rw [List.foldlM_nil] at h
      cases h
      exact nil
  | cons e es ih =>
      rw [List.foldlM_cons] at h
      obtain ⟨s', hstep, hrest⟩ := Option.bind_eq_some_iff.mp h
      exact (single hstep).append (ih hrest)

/-- The invariant rule. -/
theorem invariant {I : σ → Prop} (hstep : ∀ t e u, I t → step t e u → I u)
    (h : Run step s es t) (hs : I s) : I t := by
  induction h with
  | nil => exact hs
  | snoc _ he ih => exact hstep _ _ _ ih he

theorem mono_invariant {I : σ → Prop} (hstep : ∀ t e u, I t → step t e u → I u)
    (hmono : ∀ t e u, I t → step t e u → step' t e u)
    (h : Run step s es t) (hs : I s) : Run step' s es t := by
  induction h with
  | nil => exact Run.nil
  | snoc hrun he ih => exact ih.snoc (hmono _ _ _ (hrun.invariant hstep hs) he)

theorem mono (hmono : ∀ t e u, step t e u → step' t e u) (h : Run step s es t) :
    Run step' s es t :=
  h.mono_invariant (fun _ _ _ (_ : True) _ => trivial)
    (fun _ _ _ _ => hmono _ _ _) trivial

/-- If each step of one system is a run of another, so is each run, seen through `f`. -/
theorem simulate {τ δ : Type*} {stepτ : τ → δ → τ → Prop} {f : σ → τ} {I : σ → Prop}
    (hstep : ∀ t e u, I t → step t e u → I u)
    (hsim : ∀ t e u, I t → step t e u → ∃ ds, Run stepτ (f t) ds (f u))
    (h : Run step s es t) (hs : I s) : ∃ ds, Run stepτ (f s) ds (f t) := by
  induction h with
  | nil => exact ⟨[], Run.nil⟩
  | snoc hrun he ih =>
      obtain ⟨ds, hds⟩ := ih
      obtain ⟨ds', hds'⟩ := hsim _ _ _ (hrun.invariant hstep hs) he
      exact ⟨ds ++ ds', hds.append hds'⟩

theorem exists_of_append (h : Run step s (es ++ fs) u) :
    ∃ t, Run step s es t ∧ Run step t fs u := by
  generalize hgs : es ++ fs = gs at h
  induction h generalizing fs with
  | nil =>
      obtain ⟨rfl, rfl⟩ := List.append_eq_nil_iff.mp hgs
      exact ⟨s, Run.nil, Run.nil⟩
  | @snoc _ _ e v hrun hstep ih =>
      rcases List.eq_nil_or_concat' fs with rfl | ⟨fs', e', rfl⟩
      · refine ⟨v, ?_, Run.nil⟩
        rw [List.append_nil] at hgs
        exact hgs ▸ hrun.snoc hstep
      · rw [← List.append_assoc] at hgs
        obtain ⟨hinit, hlast⟩ := List.append_inj' hgs rfl
        obtain ⟨t, hfirst, hsecond⟩ := ih hinit
        cases hlast
        exact ⟨t, hfirst, hsecond.snoc hstep⟩

theorem eq_of_nil (h : Run step s [] t) : t = s := by
  generalize hes : [] = es at h
  cases h with
  | nil => rfl
  | snoc _ _ => simp at hes

theorem exists_of_snoc {e : ε} (h : Run step s (es ++ [e]) u) :
    ∃ t, Run step s es t ∧ step t e u := by
  generalize hgs : es ++ [e] = gs at h
  cases h with
  | nil => simp at hgs
  | snoc hrun hstep =>
      obtain ⟨rfl, hlast⟩ := List.append_inj' hgs rfl
      cases hlast
      exact ⟨_, hrun, hstep⟩

theorem exists_step_of_mem {e : ε} (h : Run step s es t) (he : e ∈ es) :
    ∃ before after v w, es = before ++ e :: after ∧
      Run step s before v ∧ step v e w ∧ Run step w after t := by
  obtain ⟨before, after, rfl⟩ := List.append_of_mem he
  have hsplit : before ++ e :: after = (before ++ [e]) ++ after := by simp
  rw [hsplit] at h
  rcases h.exists_of_append with ⟨w, hfirst, hafter⟩
  rcases hfirst.exists_of_snoc with ⟨v, hbefore, hstep⟩
  exact ⟨before, after, v, w, rfl, hbefore, hstep, hafter⟩

/-- A deterministic system reaches one state by each sequence of labels. -/
theorem unique (hdet : ∀ t e u u', step t e u → step t e u' → u = u')
    (h : Run step s es t) (h' : Run step s es u) : t = u := by
  induction h generalizing u with
  | nil => exact h'.eq_of_nil.symm
  | snoc _ he ih =>
      rcases h'.exists_of_snoc with ⟨t', hrun', he'⟩
      rw [ih hrun'] at he
      exact hdet _ _ _ _ he he'

/-- What holds after a step exactly if it held before and the step was good, holds at the end of
exactly those runs all of whose steps are good. -/
theorem iff_forall_good {I P : σ → Prop} {good : σ → ε → Prop}
    (hdet : ∀ t e u u', step t e u → step t e u' → u = u')
    (hstep : ∀ t e u, I t → step t e u → I u)
    (hgood : ∀ t e u, I t → step t e u → (P u ↔ P t ∧ good t e))
    (h : Run step s es t) (hs : I s) (hP : P s) :
    P t ↔ Run (fun t e u => step t e u ∧ good t e) s es t := by
  induction h with
  | nil => exact iff_of_true hP Run.nil
  | @snoc es t e u hrun he ih =>
      have ht : I t := hrun.invariant hstep hs
      constructor
      · intro hu
        rcases (hgood t e u ht he).mp hu with ⟨hPt, hgoode⟩
        exact (ih.mp hPt).snoc ⟨he, hgoode⟩
      · intro hall
        rcases hall.exists_of_snoc with ⟨t', hinit, hlast, hgoode⟩
        have hsame : t' = t := (hinit.mono fun _ _ _ h => h.1).unique hdet hrun
        subst hsame
        exact (hgood t' e u ht he).mpr ⟨ih.mpr hinit, hgoode⟩

/-- Every step of the run works if and only if every step of it is good, where what works and what
is good are the same as long as an invariant holds, which steps that work keep. -/
theorem forall_step_iff {I : σ → Prop} {works good : σ → ε → Prop}
    (hdet : ∀ t e u u', step t e u → step t e u' → u = u')
    (hstep : ∀ t e u, I t → step t e u → works t e → I u)
    (hgood : ∀ t e u, I t → step t e u → (works t e ↔ good t e))
    (h : Run step s es t) (hs : I s) :
    (∀ before e after u, es = before ++ e :: after → Run step s before u → works u e) ↔
      ∀ before e after u, es = before ++ e :: after → Run step s before u → good u e := by
  have hwalk : ∀ {P : σ → ε → Prop}, (∀ t e u, I t → step t e u → P t e → works t e) →
      (∀ before e after u, es = before ++ e :: after → Run step s before u → P u e) →
      ∀ before rest u, es = before ++ rest → Run step s before u → I u := by
    intro P hP hall before rest u hes hrun
    induction hrun generalizing rest with
    | nil => exact hs
    | @snoc before t e u hrun he ih =>
        have hsplit : es = before ++ e :: rest := by simpa using hes
        have ht : I t := ih _ hsplit
        exact hstep _ _ _ ht he (hP _ _ _ ht he (hall _ _ _ _ hsplit hrun))
  have hnext : ∀ before e after u, es = before ++ e :: after → Run step s before u →
      ∃ v, step u e v := by
    intro before e after u hes hrun
    have hsplit : es = (before ++ [e]) ++ after := by simpa using hes
    rw [hsplit] at h
    rcases h.exists_of_append with ⟨v, hfirst, _⟩
    rcases hfirst.exists_of_snoc with ⟨u', hbefore, he⟩
    rw [hbefore.unique hdet hrun] at he
    exact ⟨v, he⟩
  constructor
  · intro hall before e after u hes hrun
    rcases hnext before e after u hes hrun with ⟨v, he⟩
    have hu := hwalk (fun _ _ _ _ _ hworks => hworks) hall before _ u hes hrun
    exact (hgood u e v hu he).mp (hall before e after u hes hrun)
  · intro hall before e after u hes hrun
    rcases hnext before e after u hes hrun with ⟨v, he⟩
    have hu := hwalk (fun _ _ _ ht he hgoode => (hgood _ _ _ ht he).mpr hgoode) hall before _ u hes
      hrun
    exact (hgood u e v hu he).mpr (hall before e after u hes hrun)

/-- A property of the start holds in every state that the run goes through if and only if every step
is good, where the good steps are those that keep the property, as long as an invariant holds. -/
theorem forall_state_iff {I Q : σ → Prop} {good : σ → ε → Prop}
    (hdet : ∀ t e u u', step t e u → step t e u' → u = u')
    (hstep : ∀ t e u, I t → step t e u → I u)
    (hgood : ∀ t e u, I t → Q t → step t e u → (Q u ↔ good t e))
    (h : Run step s es t) (hs : I s) (hQ : Q s) :
    (∀ before after u, es = before ++ after → Run step s before u → Q u) ↔
      ∀ before e after u, es = before ++ e :: after → Run step s before u → good u e := by
  have hworks : ∀ t e u, I t ∧ Q t → step t e u → ((∀ u, step t e u → Q u) ↔ good t e) := by
    intro t e u ht he
    rw [← hgood t e u ht.1 ht.2 he]
    exact ⟨fun hall => hall u he, fun hu u' he' => hdet t e u u' he he' ▸ hu⟩
  have hsteps := h.forall_step_iff hdet
    (fun t e u ht he hall => ⟨hstep t e u ht.1 he, hall u he⟩) hworks ⟨hs, hQ⟩
  rw [← hsteps]
  constructor
  · intro hall before e after u hes hrun v he
    exact hall (before ++ [e]) after v (by simpa using hes) (hrun.snoc he)
  · intro hall before after u hes hrun
    cases hrun with
    | nil => exact hQ
    | snoc hrun he => exact hall _ _ after _ (by simpa using hes) hrun _ he

end Run

end Framework
