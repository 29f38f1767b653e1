import ChatServer.Lib.Program
import Mathlib.Data.List.Basic

/-!
# Programs between their calls

`Steps p tr q`: the program `p` has made the calls `tr`, and `q` is what it has left to do. `p.Within n`:
whatever the answers are, `p` makes at most `n` calls.
-/

namespace Interaction

namespace Prog

variable {S : Sig} {α β : Type}

/-! ## A program that has made some of its calls -/

inductive Steps (p : Prog S α) : List (Event S) → Prog S α → Prop where
  | nil : Steps p [] p
  | snoc {tr : List (Event S)} {e : Event S} {q r : Prog S α} :
      Steps p tr q → Step q e r → Steps p (tr ++ [e]) r

/-- The calls made so far, and then those that are left, are a run of the program. -/
theorem Steps.yields_append {p q : Prog S α} {tr tr' : List (Event S)} {a : α} (h : Steps p tr q)
    (hq : Yields q tr' a) : Yields p (tr ++ tr') a := by
  induction h generalizing tr' with
  | nil => exact hq
  | @snoc tr e q r _ hs ih =>
    rw [List.append_assoc, List.singleton_append]
    refine ih ?_
    cases hs with
    | call o k r => exact .call hq

theorem Steps.yields {p : Prog S α} {tr : List (Event S)} {a : α} (h : Steps p tr (.ret a)) :
    Yields p tr a := by
  have := h.yields_append (.ret a)
  rwa [List.append_nil] at this

/-- The calls made so far are among those that the program makes. -/
theorem Steps.uses {P : S.Op → Prop} {p q : Prog S α} {tr : List (Event S)} (h : Steps p tr q)
    (hp : p.Uses P) : (∀ e ∈ tr, P e.1) ∧ q.Uses P := by
  induction h with
  | nil => exact ⟨by simp, hp⟩
  | snoc _ hs ih =>
    obtain ⟨hmade, hq⟩ := ih
    obtain ⟨he, hr⟩ := hq.step hs
    refine ⟨?_, hr⟩
    simpa [or_imp, forall_and] using ⟨hmade, he⟩

/-! ## The number of calls -/

/-- The program makes at most so many calls. -/
def Within : Prog S α → Nat → Prop
  | .ret _, _ => True
  | .call _ _, 0 => False
  | .call _ k, n + 1 => ∀ r, (k r).Within n

@[simp] theorem within_ret (a : α) (n : Nat) : (Prog.ret a : Prog S α).Within n := trivial

@[simp] theorem within_call (o : S.Op) (k : S.Resp o → Prog S α) (n : Nat) :
    (Prog.call o k).Within (n + 1) ↔ ∀ r, (k r).Within n := Iff.rfl

theorem Within.mono {p : Prog S α} {m n : Nat} (h : p.Within m) (hmn : m ≤ n) : p.Within n := by
  induction p generalizing m n with
  | ret a => trivial
  | call o k ih =>
    obtain _ | m := m
    · exact h.elim
    · obtain ⟨n, rfl⟩ : ∃ j, n = j + 1 := ⟨n - 1, by omega⟩
      intro r
      exact ih r (h r) (by omega)

/-- The calls of a sequence are those of its parts. -/
theorem Within.bind {p : Prog S α} {f : α → Prog S β} {m n : Nat} (hp : p.Within m)
    (hf : ∀ a, (f a).Within n) : (p >>= f).Within (m + n) := by
  induction p generalizing m with
  | ret a => exact (hf a).mono (by omega)
  | call o k ih =>
    obtain _ | m := m
    · exact hp.elim
    · rw [call_bind, show m + 1 + n = m + n + 1 by omega]
      intro r
      exact ih r (hp r)

/-- A call that is made is one less to make. -/
theorem Within.step {p q : Prog S α} {e : Event S} {n : Nat} (hp : p.Within n) (h : Step p e q) :
    ∃ m, n = m + 1 ∧ q.Within m := by
  cases h with
  | call o k r =>
    obtain _ | m := n
    · exact hp.elim
    · exact ⟨m, rfl, hp r⟩

theorem Within.steps {p q : Prog S α} {tr : List (Event S)} {n : Nat} (hp : p.Within n)
    (h : Steps p tr q) : ∃ m, tr.length + m = n ∧ q.Within m := by
  induction h with
  | nil => exact ⟨n, by simp, hp⟩
  | snoc _ hs ih =>
    obtain ⟨m, hm, hq⟩ := ih
    obtain ⟨j, rfl, hr⟩ := hq.step hs
    refine ⟨j, ?_, hr⟩
    rw [List.length_append, List.length_singleton]
    omega

end Prog

end Interaction
