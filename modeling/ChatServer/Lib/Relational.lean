import ChatServer.Lib.Program
import ChatServer.Lib.Run

/-!
# Two programs, and two runs, side by side

`Alike C E post p q` says that `p` and `q`, run side by side, make calls that `C` relates one to one, as
long as `E` relates the calls with their answers, and return values that `post` relates. It is how one
program is compared with itself in two runs whose states differ.

`Run.side_by_side` is the invariant rule for two runs with the same labels.
-/

namespace Interaction

namespace Prog

variable {S : Sig} {α β γ δ : Type} {C : S.Op → S.Op → Prop} {E : Event S → Event S → Prop}

/-- Two programs make related calls as long as the answers are related, and return related values. -/
def Alike (C : S.Op → S.Op → Prop) (E : Event S → Event S → Prop) (post : α → β → Prop) :
    Prog S α → Prog S β → Prop
  | .ret a, .ret b => post a b
  | .call o k, .call o' k' => C o o' ∧ ∀ r r', E ⟨o, r⟩ ⟨o', r'⟩ → (k r).Alike C E post (k' r')
  | _, _ => False

variable {post : α → β → Prop}

/-- What two programs that are alike are. -/
theorem Alike.cases {p : Prog S α} {q : Prog S β} (h : p.Alike C E post q) :
    (∃ a b, p = .ret a ∧ q = .ret b ∧ post a b) ∨
      ∃ o k o' k', p = .call o k ∧ q = .call o' k' ∧ C o o' ∧
        ∀ r r', E ⟨o, r⟩ ⟨o', r'⟩ → (k r).Alike C E post (k' r') := by
  rcases p with a | ⟨o, k⟩
  · rcases q with b | ⟨o', k'⟩
    · exact Or.inl ⟨a, b, rfl, rfl, h⟩
    · exact h.elim
  · rcases q with b | ⟨o', k'⟩
    · exact h.elim
    · exact Or.inr ⟨o, k, o', k', rfl, rfl, h.1, h.2⟩

/-- Sequencing. -/
theorem Alike.bind {post' : γ → δ → Prop} {p : Prog S α} {q : Prog S β} {f : α → Prog S γ}
    {g : β → Prog S δ} (h : p.Alike C E post q)
    (hf : ∀ a b, post a b → (f a).Alike C E post' (g b)) : (p >>= f).Alike C E post' (q >>= g) := by
  induction p generalizing q with
  | ret a =>
    rcases q with b | ⟨o', k'⟩
    · exact hf a b h
    · exact h.elim
  | call o k ih =>
    rcases q with b | ⟨o', k'⟩
    · exact h.elim
    · refine ⟨h.1, ?_⟩
      intro r r' hr
      exact ih r (h.2 r r' hr)

theorem Alike.mono {post' : α → β → Prop} {p : Prog S α} {q : Prog S β} (h : p.Alike C E post q)
    (hp : ∀ a b, post a b → post' a b) : p.Alike C E post' q := by
  rw [← bind_pure p, ← bind_pure q]
  exact h.bind hp

/-- A program whose answers are the same side by side is alike itself. -/
theorem Uses.alike {P : S.Op → Prop} {p : Prog S α} (hp : p.Uses P) (hC : ∀ o, P o → C o o)
    (hE : ∀ o r r', P o → E ⟨o, r⟩ ⟨o, r'⟩ → r = r') : p.Alike C E Eq p := by
  induction p with
  | ret a => rfl
  | call o k ih =>
    refine ⟨hC o hp.1, ?_⟩
    intro r r' hr
    obtain rfl := hE o r r' hp.1 hr
    exact ih r (hp.2 r)

end Prog

end Interaction

namespace Transition

variable {σ σ' L : Type} {step : σ → L → σ → Prop} {step' : σ' → L → σ' → Prop} {s₀ : σ} {s₀' : σ'}

/-- **The invariant rule for two runs**: what the two starts have, and what two steps with one label of
the first run keep, the two ends have. -/
theorem Run.side_by_side {R : σ → σ' → Prop} (h0 : R s₀ s₀') {tr : List (L × σ)} {tr' : List (L × σ')}
    {s : σ} {s' : σ'}
    (hstep : ∀ pre s s' l t t', Run step s₀ pre s → pre ++ [(l, t)] <+: tr → R s s' → step s l t →
      step' s' l t' → R t t')
    (h : Run step s₀ tr s) (h' : Run step' s₀' tr' s')
    (hlabels : tr'.map Prod.fst = tr.map Prod.fst) : R s s' := by
  have hpre : ∀ pre s, Run step s₀ pre s → pre <+: tr → ∀ pre' s', Run step' s₀' pre' s' →
      pre'.map Prod.fst = pre.map Prod.fst → R s s' := by
    intro pre s hr
    induction hr with
    | nil =>
      intro _ pre' s' hr' hlabels
      obtain rfl := List.map_eq_nil_iff.mp hlabels
      exact hr'.nil_inv ▸ h0
    | @snoc pre s t l hr hs ih =>
      intro hp pre' s' hr' hlabels
      rcases List.eq_nil_or_concat pre' with rfl | ⟨q, x, rfl⟩
      · simp at hlabels
      · obtain ⟨l', t'⟩ := x
        simp only [List.concat_eq_append, List.map_append, List.map_cons, List.map_nil] at hlabels hr'
        obtain ⟨hq, hl⟩ := List.append_inj' hlabels rfl
        obtain rfl : l' = l := by simpa using hl
        obtain ⟨rfl, r', hr', hs'⟩ := hr'.snoc_inv
        exact hstep pre s r' _ t _ hr hp (ih ((List.prefix_append _ _).trans hp) q r' hr' hq) hs hs'
  exact hpre tr s h (List.prefix_refl _) tr' s' h' hlabels

end Transition
