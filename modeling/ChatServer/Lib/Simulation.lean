import ChatServer.Lib.Run

/-!
# Runs under a simulation

A system that is watched at some of its labels only: `Run.simulate` turns its runs into runs of a system
that has these labels as its own, and `watched` is what is seen of a run.
-/

namespace Transition

variable {σ τ L M : Type}

/-- The labels of the steps `tr` that are seen. -/
def watched (f : L → Option M) (tr : List (L × σ)) : List M := (tr.map Prod.fst).filterMap f

@[simp] theorem watched_nil (f : L → Option M) : watched f ([] : List (L × σ)) = [] := rfl

theorem watched_append (f : L → Option M) (tr₁ tr₂ : List (L × σ)) :
    watched f (tr₁ ++ tr₂) = watched f tr₁ ++ watched f tr₂ := by
  simp [watched]

theorem watched_snoc (f : L → Option M) (tr : List (L × σ)) (l : L) (t : σ) :
    watched f (tr ++ [(l, t)]) = watched f tr ++ (f l).toList := by
  rw [watched_append]
  rcases hl : f l with _ | m <;> simp [watched, hl]

variable {step : σ → L → σ → Prop} {step' : τ → M → τ → Prop} {s₀ : σ} {t₀ : τ}

/-- What is noted of the steps from a state on, each with the state that it leaves. -/
def noted (f : σ → L → Option M) : σ → List (L × σ) → List M
  | _, [] => []
  | s, (l, t) :: tr => (f s l).toList ++ noted f t tr

theorem noted_concat (f : σ → L → Option M) (s : σ) (tr : List (L × σ)) (l : L) (t : σ) :
    noted f s (tr ++ [(l, t)]) = noted f s tr ++ (f (final s tr) l).toList := by
  induction tr generalizing s with
  | nil => simp [noted, final]
  | cons x tr ih => simp [noted, final, ih]

theorem Run.noted_snoc (f : σ → L → Option M) {tr : List (L × σ)} {s : σ} (h : Run step s₀ tr s) (l : L)
    (t : σ) : noted f s₀ (tr ++ [(l, t)]) = noted f s₀ tr ++ (f s l).toList := by
  rw [noted_concat, h.final_eq]

/-- **The simulation rule.** If every step of one system is seen as a step of the other between related
states, or not seen and keeps the relation, a run of the first is seen as a run of the second. -/
theorem Run.simulate {f : L → Option M} {R : σ → τ → Prop} (h0 : R s₀ t₀)
    (hstep : ∀ s l s' t, R s t → step s l s' →
      (f l = none ∧ R s' t) ∨ ∃ m t', f l = some m ∧ step' t m t' ∧ R s' t')
    {tr : List (L × σ)} {s : σ} (h : Run step s₀ tr s) :
    ∃ tr' t, Run step' t₀ tr' t ∧ R s t ∧ tr'.map Prod.fst = watched f tr := by
  induction h with
  | nil => exact ⟨[], t₀, .nil, h0, rfl⟩
  | @snoc tr s s' l _ hs ih =>
    obtain ⟨tr', t, hr', hR, htr'⟩ := ih
    rcases hstep _ _ _ _ hR hs with ⟨hl, hR'⟩ | ⟨m, t', hl, hs', hR'⟩
    · refine ⟨tr', t, hr', hR', ?_⟩
      rw [watched_snoc, hl, htr']
      simp
    · refine ⟨tr' ++ [(m, t')], t', .snoc hr' hs', hR', ?_⟩
      rw [watched_snoc, hl, ← htr']
      simp

/-- The runs of a system can be put together. -/
theorem Run.append {tr tr' : List (L × σ)} {s t : σ} (h : Run step s₀ tr s) (h' : Run step s tr' t) :
    Run step s₀ (tr ++ tr') t := by
  induction h' with
  | nil => simpa using h
  | snoc _ hs ih =>
    rw [← List.append_assoc]
    exact .snoc ih hs

end Transition
