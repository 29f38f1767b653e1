import Mathlib.Data.List.Infix

/-!
# Runs of a labelled transition system

A run is recorded as the list of its steps, each step as its label and the state it leads to. The
rules of this file prove statements about *every* state of a run from statements about one step:

* `Run.invariant`: what the start has and every step keeps holds at the end;
* `Run.invariant_of_each`: the same when only the steps that meet a side condition keep it;
* `Run.throughout_iff_each`: when a step keeps the property exactly if it meets the condition, the
  property holds throughout a run exactly if every step of the run meets the condition;
* `Run.of_last`: what the steps of one kind bring about, and only the steps of another kind undo.
-/

namespace Transition

variable {σ L : Type}

/-- `Run step s₀ tr s`: the steps `tr` lead from `s₀` to `s`. -/
inductive Run (step : σ → L → σ → Prop) (s₀ : σ) : List (L × σ) → σ → Prop where
  | nil : Run step s₀ [] s₀
  | snoc {tr : List (L × σ)} {s t : σ} {l : L} :
      Run step s₀ tr s → step s l t → Run step s₀ (tr ++ [(l, t)]) t

variable {step : σ → L → σ → Prop} {s₀ : σ}

/-- Every step taken in the run `tr` satisfies `C`, a condition on the steps so far, the state
before the step and its label. -/
def Each (step : σ → L → σ → Prop) (s₀ : σ) (C : List (L × σ) → σ → L → Prop)
    (tr : List (L × σ)) : Prop :=
  ∀ pre s l t, Run step s₀ pre s → pre ++ [(l, t)] <+: tr → C pre s l

/-- Every state the run `tr` goes through satisfies `P`, a property of the steps so far and the
state. -/
def Throughout (step : σ → L → σ → Prop) (s₀ : σ) (P : List (L × σ) → σ → Prop)
    (tr : List (L × σ)) : Prop :=
  ∀ pre s, Run step s₀ pre s → pre <+: tr → P pre s

theorem Run.nil_inv {s : σ} (h : Run step s₀ [] s) : s = s₀ := by
  generalize htr : ([] : List (L × σ)) = tr at h
  cases h with
  | nil => rfl
  | snoc _ _ => simp at htr

theorem Run.snoc_inv {tr : List (L × σ)} {l : L} {t u : σ} (h : Run step s₀ (tr ++ [(l, t)]) u) :
    u = t ∧ ∃ s, Run step s₀ tr s ∧ step s l t := by
  generalize htr : tr ++ [(l, t)] = tr' at h
  cases h with
  | nil => simp at htr
  | snoc hr hs =>
    obtain ⟨rfl, hlast⟩ := List.append_inj' htr rfl
    cases hlast
    exact ⟨rfl, _, hr, hs⟩

/-- A run that begins with a given step. -/
theorem Run.cons {s t u : σ} {l : L} {tr : List (L × σ)} (hs : step s l t)
    (h : Run step t tr u) : Run step s ((l, t) :: tr) u := by
  induction h with
  | nil => exact .snoc .nil hs
  | snoc _ hlast ih => exact .snoc ih hlast

/-- The recorded steps determine the state they lead to. -/
theorem Run.unique {tr : List (L × σ)} {s s' : σ} (h : Run step s₀ tr s)
    (h' : Run step s₀ tr s') : s = s' := by
  induction h with
  | nil => exact h'.nil_inv.symm
  | snoc _ _ _ => exact h'.snoc_inv.1.symm

/-- The beginning of a run is a run. -/
theorem Run.of_prefix {tr pre : List (L × σ)} {s : σ} (h : Run step s₀ tr s) (hp : pre <+: tr) :
    ∃ t, Run step s₀ pre t := by
  induction h with
  | nil =>
    obtain rfl := List.prefix_nil.mp hp
    exact ⟨_, .nil⟩
  | snoc hr hs ih =>
    rcases List.prefix_concat_iff.mp hp with rfl | hp
    · exact ⟨_, .snoc hr hs⟩
    · exact ih hp

theorem Each.of_snoc {C : List (L × σ) → σ → L → Prop} {tr : List (L × σ)} {l : L} {t : σ}
    (h : Each step s₀ C (tr ++ [(l, t)])) : Each step s₀ C tr :=
  fun pre s l' t' hr hp => h pre s l' t' hr (hp.trans (List.prefix_append _ _))

theorem Each.last {C : List (L × σ) → σ → L → Prop} {tr : List (L × σ)} {s t : σ} {l : L}
    (h : Each step s₀ C (tr ++ [(l, t)])) (hr : Run step s₀ tr s) : C tr s l :=
  h tr s l t hr (List.prefix_refl _)

theorem each_nil {C : List (L × σ) → σ → L → Prop} : Each step s₀ C [] := by
  intro pre s l t _ hp
  simp at hp

theorem each_snoc {C : List (L × σ) → σ → L → Prop} {tr : List (L × σ)} {s t : σ} {l : L}
    (hr : Run step s₀ tr s) :
    Each step s₀ C (tr ++ [(l, t)]) ↔ Each step s₀ C tr ∧ C tr s l := by
  refine ⟨fun h => ⟨h.of_snoc, h.last hr⟩, fun ⟨h, hc⟩ pre s' l' t' hr' hp => ?_⟩
  rcases List.prefix_concat_iff.mp hp with he | hp
  · obtain ⟨rfl, hlast⟩ := List.append_inj' he rfl
    cases hlast
    exact hr'.unique hr ▸ hc
  · exact h pre s' l' t' hr' hp

theorem throughout_nil {P : List (L × σ) → σ → Prop} :
    Throughout step s₀ P [] ↔ P [] s₀ := by
  constructor
  · intro h
    exact h [] s₀ .nil (List.prefix_refl _)
  · intro h pre s hr hp
    obtain rfl := List.prefix_nil.mp hp
    exact hr.nil_inv ▸ h

theorem throughout_snoc {P : List (L × σ) → σ → Prop} {tr : List (L × σ)} {s t : σ} {l : L}
    (hr : Run step s₀ tr s) (hs : step s l t) :
    Throughout step s₀ P (tr ++ [(l, t)]) ↔
      Throughout step s₀ P tr ∧ P (tr ++ [(l, t)]) t := by
  constructor
  · intro h
    refine ⟨fun pre s' hr' hp => h pre s' hr' (hp.trans (List.prefix_append _ _)), ?_⟩
    exact h _ t (.snoc hr hs) (List.prefix_refl _)
  · rintro ⟨h, ht⟩ pre s' hr' hp
    rcases List.prefix_concat_iff.mp hp with rfl | hp
    · exact hr'.snoc_inv.1 ▸ ht
    · exact h pre s' hr' hp

/-- **The invariant rule.** -/
theorem Run.invariant {P : List (L × σ) → σ → Prop} (h0 : P [] s₀)
    (hstep : ∀ tr s l t, Run step s₀ tr s → P tr s → step s l t → P (tr ++ [(l, t)]) t)
    {tr : List (L × σ)} {s : σ} (h : Run step s₀ tr s) : P tr s := by
  induction h with
  | nil => exact h0
  | snoc hr hs ih => exact hstep _ _ _ _ hr ih hs

/-- The invariant rule for the runs all of whose steps meet a condition. -/
theorem Run.invariant_of_each {C : List (L × σ) → σ → L → Prop} {P : List (L × σ) → σ → Prop}
    (h0 : P [] s₀)
    (hstep : ∀ tr s l t, Run step s₀ tr s → P tr s → C tr s l → step s l t →
      P (tr ++ [(l, t)]) t)
    {tr : List (L × σ)} {s : σ} (h : Run step s₀ tr s) (hc : Each step s₀ C tr) : P tr s := by
  induction h with
  | nil => exact h0
  | snoc hr hs ih => exact hstep _ _ _ _ hr (ih hc.of_snoc) (hc.last hr) hs

/-- What holds at the end of every run with good steps holds throughout such a run. -/
theorem Run.throughout_of_each {C : List (L × σ) → σ → L → Prop} {P : List (L × σ) → σ → Prop}
    (hend : ∀ tr s, Run step s₀ tr s → Each step s₀ C tr → P tr s)
    {tr : List (L × σ)} (hc : Each step s₀ C tr) : Throughout step s₀ P tr :=
  fun pre s hr hp => hend pre s hr fun pre' s' l t hr' hp' => hc pre' s' l t hr' (hp'.trans hp)

/-- What every good step after good steps has, every step of a run with good steps has. -/
theorem Run.each_of_each {C D : List (L × σ) → σ → L → Prop}
    (hstep : ∀ tr s l t, Run step s₀ tr s → Each step s₀ C tr → C tr s l → step s l t → D tr s l)
    {tr : List (L × σ)} {s : σ} (h : Run step s₀ tr s) (hc : Each step s₀ C tr) :
    Each step s₀ D tr := by
  induction h with
  | nil => exact each_nil
  | snoc hr hs ih =>
    exact (each_snoc hr).mpr ⟨ih hc.of_snoc, hstep _ _ _ _ hr hc.of_snoc (hc.last hr) hs⟩

/-- **The exactness rule.** If the property holds at the start, and a step from a state with the
property leads to a state with the property exactly when it meets the condition, then a run has the
property throughout exactly when each of its steps meets the condition. -/
theorem Run.throughout_iff_each {C : List (L × σ) → σ → L → Prop} {P : List (L × σ) → σ → Prop}
    (h0 : P [] s₀)
    (hstep : ∀ tr s l t, Run step s₀ tr s → Throughout step s₀ P tr → step s l t →
      (P (tr ++ [(l, t)]) t ↔ C tr s l))
    {tr : List (L × σ)} {s : σ} (h : Run step s₀ tr s) :
    Throughout step s₀ P tr ↔ Each step s₀ C tr := by
  induction h with
  | nil => exact ⟨fun _ => each_nil, fun _ => throughout_nil.mpr h0⟩
  | snoc hr hs ih =>
    rw [throughout_snoc hr hs, each_snoc hr, ih]
    constructor
    · rintro ⟨he, hp⟩
      exact ⟨he, (hstep _ _ _ _ hr (ih.mpr he) hs).mp hp⟩
    · rintro ⟨he, hc⟩
      exact ⟨he, (hstep _ _ _ _ hr (ih.mpr he) hs).mpr hc⟩

/-! ## The last step of a kind -/

/-- The last of the steps `tr` that `q` tells is one of those that `r` tells. -/
def lastOf (q r : L → Bool) (tr : List (L × σ)) : Bool := ((tr.map Prod.fst).filter q).getLast?.any r

theorem lastOf_snoc (q r : L → Bool) (tr : List (L × σ)) (l : L) (t : σ) :
    lastOf q r (tr ++ [(l, t)]) = if q l then r l else lastOf q r tr := by
  unfold lastOf
  by_cases hq : q l = true
  · rw [if_pos hq]
    simp [hq]
  · rw [if_neg hq]
    simp [hq]

/-- What each step of `r` brings about and every other step but those of `q` keeps holds when the last
step of `q` is one of `r`. -/
theorem Run.of_last {q r : L → Bool} {I : σ → Prop}
    (hlast : ∀ s l t, step s l t → r l = true → I t)
    (hkeep : ∀ s l t, step s l t → q l = false → I s → I t) {tr : List (L × σ)} {s : σ}
    (h : Run step s₀ tr s) (hl : lastOf q r tr = true) : I s := by
  induction h with
  | nil => cases hl
  | @snoc tr s t l hr hs ih =>
    rw [lastOf_snoc] at hl
    by_cases hq : q l = true
    · rw [if_pos hq] at hl
      exact hlast _ _ _ hs hl
    · rw [if_neg hq] at hl
      exact hkeep _ _ _ hs (by simpa using hq) (ih hl)

/-! ## Recorded runs -/

/-- Along the steps `tr` from `s`, every label suits the state before it. -/
def Along (C : σ → L → Prop) : σ → List (L × σ) → Prop
  | _, [] => True
  | s, (l, t) :: tr => C s l ∧ Along C t tr

instance Along.decidable {C : σ → L → Prop} [∀ s l, Decidable (C s l)] :
    ∀ (s : σ) (tr : List (L × σ)), Decidable (Along C s tr)
  | _, [] => isTrue trivial
  | s, (l, t) :: tr =>
    have := Along.decidable (C := C) t tr
    inferInstanceAs (Decidable (C s l ∧ Along C t tr))

/-- The state that recorded steps lead to. -/
def final (s : σ) (tr : List (L × σ)) : σ := tr.foldl (fun _ x => x.2) s

theorem Run.final_eq {tr : List (L × σ)} {s : σ} (h : Run step s₀ tr s) : final s₀ tr = s := by
  cases h with
  | nil => rfl
  | snoc _ _ => simp [final]

/-- How many of the recorded steps from `s` on `f` tells, from the states before and after them. -/
def countSteps (f : σ → L → σ → Bool) : σ → List (L × σ) → Nat
  | _, [] => 0
  | s, (l, t) :: tr => (f s l t).toNat + countSteps f t tr

theorem countSteps_concat (f : σ → L → σ → Bool) (s t : σ) (l : L) (tr : List (L × σ)) :
    countSteps f s (tr ++ [(l, t)]) = countSteps f s tr + (f (final s tr) l t).toNat := by
  induction tr generalizing s with
  | nil => simp [countSteps, final]
  | cons x tr ih =>
    show (f s x.1 x.2).toNat + countSteps f x.2 (tr ++ [(l, t)]) =
      (f s x.1 x.2).toNat + countSteps f x.2 tr + (f (final x.2 tr) l t).toNat
    rw [ih, Nat.add_assoc]

theorem Run.countSteps_snoc (f : σ → L → σ → Bool) {tr : List (L × σ)} {s : σ} (h : Run step s₀ tr s)
    (l : L) (t : σ) :
    countSteps f s₀ (tr ++ [(l, t)]) = countSteps f s₀ tr + (f s l t).toNat := by
  rw [countSteps_concat, h.final_eq]

theorem along_append {C : σ → L → Prop} (s t : σ) (l : L) (tr : List (L × σ)) :
    Along C s (tr ++ [(l, t)]) ↔ Along C s tr ∧ C (final s tr) l := by
  induction tr generalizing s with
  | nil => exact and_comm
  | cons x tr ih =>
    show C s x.1 ∧ Along C x.2 (tr ++ [(l, t)]) ↔ (C s x.1 ∧ Along C x.2 tr) ∧ C (final x.2 tr) l
    rw [ih, and_assoc]

/-- A condition on the state before the step and its label is met by each step of a run exactly if it
is met along the record of the run. -/
theorem Run.each_iff_along {C : σ → L → Prop} {tr : List (L × σ)} {s : σ}
    (h : Run step s₀ tr s) : Each step s₀ (fun _ s l => C s l) tr ↔ Along C s₀ tr := by
  induction h with
  | nil => exact ⟨fun _ => trivial, fun _ => each_nil⟩
  | snoc hr _ ih => rw [each_snoc hr, along_append, hr.final_eq, ih]

/-- The steps of a run that all meet a condition are steps of any system that has the steps that do. -/
theorem Run.restrict {step' : σ → L → σ → Prop} {C : σ → L → Prop}
    (hstep : ∀ s l t, step s l t → C s l → step' s l t) {tr : List (L × σ)} {s : σ}
    (h : Run step s₀ tr s) (hc : Each step s₀ (fun _ s l => C s l) tr) : Run step' s₀ tr s := by
  induction h with
  | nil => exact .nil
  | snoc hr hs ih => exact .snoc (ih hc.of_snoc) (hstep _ _ _ hs (hc.last hr))

/-! ## Carrying out moves -/

/-- Carry out moves one after another, leaving out those that are not possible: the steps that are
taken. -/
def follow {M : Type} (move : M → σ → Option (L × σ)) : σ → List M → List (L × σ)
  | _, [] => []
  | s, m :: ms =>
    match move m s with
    | none => follow move s ms
    | some (l, t) => (l, t) :: follow move t ms

theorem follow_run {M : Type} {move : M → σ → Option (L × σ)} {ms : List M}
    (h : ∀ m ∈ ms, ∀ s l t, move m s = some (l, t) → step s l t) (s : σ) :
    Run step s (follow move s ms) (final s (follow move s ms)) := by
  induction ms generalizing s with
  | nil => exact .nil
  | cons m ms ih =>
    have hrest := ih fun m' hm' => h m' (List.mem_cons_of_mem m hm')
    unfold follow
    split
    · exact hrest s
    · rename_i l t hmove
      exact .cons (h m List.mem_cons_self s l t hmove) (hrest t)

/-- If every move is possible, the labels are the moves. -/
theorem follow_labels {M : Type} {move : M → σ → Option (M × σ)} (h : ∀ m s, ∃ t, move m s = some (m, t))
    (s : σ) (ms : List M) : (follow move s ms).map Prod.fst = ms := by
  induction ms generalizing s with
  | nil => rfl
  | cons m ms ih =>
    obtain ⟨t, ht⟩ := h m s
    unfold follow
    rw [ht]
    simp only [List.map_cons, ih t]

end Transition
