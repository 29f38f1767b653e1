import Mathlib.Data.List.Infix

/-!
# Programs over a signature of calls

A `Prog S α` is a sequential program that makes the calls of a signature `S` one after another and
finally returns an `α`. What a call does is left open: the program only branches on the answer. The
same program can therefore be

* executed in one piece against a state (`Exec`, or `run` for an executable semantics),
* stepped call by call between the steps of other threads (`Step`),
* examined for every answer the calls could give (`Yields`, `Uses`),
* checked against a protocol, an automaton over the calls (`Conforms`), or
* checked against a condition on each call and the calls before it (`Heeds`).

`Exec.invariant` is the rule that carries a protocol-indexed invariant through a whole execution.
-/

namespace Interaction

/-- A signature: the calls a program may make, each with the type of its answer. -/
structure Sig where
  Op : Type
  Resp : Op → Type

/-- One call together with the answer it received. -/
abbrev Event (S : Sig) : Type := Σ o : S.Op, S.Resp o

/-- Sequential programs over a signature. -/
inductive Prog (S : Sig) (α : Type) : Type where
  | ret (a : α) : Prog S α
  | call (o : S.Op) (k : S.Resp o → Prog S α) : Prog S α

namespace Prog

variable {S : Sig} {α β γ W Q : Type}

/-! ## The monad -/

def bind : Prog S α → (α → Prog S β) → Prog S β
  | .ret a, f => f a
  | .call o k, f => .call o (fun r => (k r).bind f)

/-- Make one call and return its answer. -/
def perform (o : S.Op) : Prog S (S.Resp o) := .call o .ret

instance : Monad (Prog S) where
  pure := .ret
  bind := Prog.bind

@[simp] theorem pure_eq_ret (a : α) : (pure a : Prog S α) = .ret a := rfl

@[simp] theorem ret_bind (a : α) (f : α → Prog S β) : (Prog.ret a >>= f) = f a := rfl

@[simp] theorem call_bind (o : S.Op) (k : S.Resp o → Prog S α) (f : α → Prog S β) :
    (Prog.call o k >>= f) = .call o (fun r => k r >>= f) := rfl

@[simp] theorem perform_bind (o : S.Op) (f : S.Resp o → Prog S β) :
    (perform o >>= f) = .call o f := rfl

@[simp] theorem bind_assoc (p : Prog S α) (f : α → Prog S β) (g : β → Prog S γ) :
    ((p >>= f) >>= g) = (p >>= fun a => f a >>= g) := by
  induction p with
  | ret a => rfl
  | call o k ih =>
    simp only [call_bind]
    congr 1
    funext r
    exact ih r

instance : LawfulMonad (Prog S) :=
  LawfulMonad.mk' (Prog S)
    (fun p => by
      induction p with
      | ret a => rfl
      | call o k ih =>
        show Prog.call o (fun r => id <$> k r) = _
        congr 1
        funext r
        exact ih r)
    (fun _ _ => rfl) (fun p f g => bind_assoc p f g)

/-! ## One call at a time -/

/-- `Step p e q`: the first call of `p` is answered as in `e`, and `q` is left to do. -/
inductive Step : Prog S α → Event S → Prog S α → Prop where
  | call (o : S.Op) (k : S.Resp o → Prog S α) (r : S.Resp o) : Step (.call o k) ⟨o, r⟩ (k r)

/-! ## Whole executions -/

/-- `Yields p tr a`: with the answers listed in `tr`, the program `p` returns `a`. Nothing is
assumed about where the answers come from. -/
inductive Yields : Prog S α → List (Event S) → α → Prop where
  | ret (a : α) : Yields (.ret a) [] a
  | call {o : S.Op} {k : S.Resp o → Prog S α} {r : S.Resp o} {tr : List (Event S)} {a : α} :
      Yields (k r) tr a → Yields (.call o k) (⟨o, r⟩ :: tr) a

/-- `Exec sem p w tr a w'`: run in one piece from the state `w`, where `sem e w w'` says how a call
answered as in `e` changes the state, `p` makes the calls `tr`, returns `a` and leaves `w'`. -/
inductive Exec (sem : Event S → W → W → Prop) :
    Prog S α → W → List (Event S) → α → W → Prop where
  | ret (a : α) (w : W) : Exec sem (.ret a) w [] a w
  | call {o : S.Op} {k : S.Resp o → Prog S α} {r : S.Resp o} {tr : List (Event S)} {a : α}
      {w w₁ w' : W} :
      sem ⟨o, r⟩ w w₁ → Exec sem (k r) w₁ tr a w' → Exec sem (.call o k) w (⟨o, r⟩ :: tr) a w'

theorem yields_ret {a b : α} {tr : List (Event S)} :
    Yields (.ret a : Prog S α) tr b ↔ tr = [] ∧ b = a := by
  constructor
  · intro h
    cases h
    exact ⟨rfl, rfl⟩
  · rintro ⟨rfl, rfl⟩
    exact .ret _

theorem yields_call {o : S.Op} {k : S.Resp o → Prog S α} {tr : List (Event S)} {a : α} :
    Yields (.call o k) tr a ↔ ∃ r tr', tr = ⟨o, r⟩ :: tr' ∧ Yields (k r) tr' a := by
  constructor
  · intro h
    cases h with
    | call h => exact ⟨_, _, rfl, h⟩
  · rintro ⟨r, tr', rfl, h⟩
    exact .call h

/-- A sequence of two programs yields what the second does on what the first returned. -/
theorem yields_bind {p : Prog S α} {f : α → Prog S β} {tr : List (Event S)} {b : β} :
    Yields (p >>= f) tr b ↔ ∃ a t₁ t₂, tr = t₁ ++ t₂ ∧ Yields p t₁ a ∧ Yields (f a) t₂ b := by
  induction p generalizing tr with
  | ret a =>
    simp only [ret_bind, yields_ret]
    constructor
    · intro h
      exact ⟨a, [], tr, rfl, ⟨rfl, rfl⟩, h⟩
    · rintro ⟨_, _, t₂, rfl, ⟨rfl, rfl⟩, h⟩
      exact h
  | call o k ih =>
    simp only [call_bind, yields_call, ih]
    constructor
    · rintro ⟨r, _, rfl, a, t₁, t₂, rfl, h₁, h₂⟩
      exact ⟨a, ⟨o, r⟩ :: t₁, t₂, rfl, ⟨r, t₁, rfl, h₁⟩, h₂⟩
    · rintro ⟨a, _, t₂, rfl, ⟨r, t₁, rfl, h₁⟩, h₂⟩
      exact ⟨r, t₁ ++ t₂, rfl, a, t₁, t₂, rfl, h₁, h₂⟩

/-- Every execution is one of the runs that `Yields` describes. -/
theorem Exec.yields {sem : Event S → W → W → Prop} {p : Prog S α} {w w' : W}
    {tr : List (Event S)} {a : α} (h : Exec sem p w tr a w') : Yields p tr a := by
  induction h with
  | ret a w => exact .ret a
  | call _ _ ih => exact .call ih

theorem exec_ret {sem : Event S → W → W → Prop} {a b : α} {w w' : W} {tr : List (Event S)}
    (h : Exec sem (.ret a) w tr b w') : b = a ∧ w' = w := by
  cases h
  exact ⟨rfl, rfl⟩

theorem exec_call_iff {sem : Event S → W → W → Prop} {o : S.Op} {k : S.Resp o → Prog S α}
    {w w' : W} {tr : List (Event S)} {a : α} :
    Exec sem (.call o k) w tr a w' ↔
      ∃ r w₁ tr', tr = ⟨o, r⟩ :: tr' ∧ sem ⟨o, r⟩ w w₁ ∧ Exec sem (k r) w₁ tr' a w' := by
  constructor
  · intro h
    cases h with
    | call hs hk => exact ⟨_, _, _, rfl, hs, hk⟩
  · rintro ⟨r, w₁, tr', rfl, hs, hk⟩
    exact .call hs hk

theorem exec_bind {sem : Event S → W → W → Prop} {p : Prog S α} {f : α → Prog S β} {w w' : W}
    {tr : List (Event S)} {b : β} :
    Exec sem (p >>= f) w tr b w' ↔
      ∃ a w₁ t₁ t₂, tr = t₁ ++ t₂ ∧ Exec sem p w t₁ a w₁ ∧ Exec sem (f a) w₁ t₂ b w' := by
  induction p generalizing w tr with
  | ret a =>
    constructor
    · intro h
      exact ⟨a, w, [], tr, rfl, .ret a w, h⟩
    · rintro ⟨a', w₁, t₁, t₂, rfl, h₁, h₂⟩
      cases h₁
      exact h₂
  | call o k ih =>
    constructor
    · intro h
      obtain ⟨r, w₀, _, rfl, hs, hk⟩ := exec_call_iff.mp h
      obtain ⟨a, w₁, t₁, t₂, rfl, h₁, h₂⟩ := (ih _).mp hk
      exact ⟨a, w₁, _ :: t₁, t₂, rfl, .call hs h₁, h₂⟩
    · rintro ⟨a, w₁, t₁, t₂, rfl, h₁, h₂⟩
      obtain ⟨r, w₀, _, rfl, hs, hk⟩ := exec_call_iff.mp h₁
      exact .call hs ((ih _).mpr ⟨a, w₁, _, t₂, rfl, hk, h₂⟩)

/-! ## An executable semantics -/

/-- Run a program against an interpreter that answers each call and updates the state. -/
def run (h : (o : S.Op) → W → S.Resp o × W) : Prog S α → W → α × W
  | .ret a, w => (a, w)
  | .call o k, w => ((k (h o w).1).run h) (h o w).2

@[simp] theorem run_ret (h : (o : S.Op) → W → S.Resp o × W) (a : α) (w : W) :
    (Prog.ret a).run h w = (a, w) := rfl

@[simp] theorem run_call (h : (o : S.Op) → W → S.Resp o × W) (o : S.Op)
    (k : S.Resp o → Prog S α) (w : W) :
    (Prog.call o k).run h w = ((k (h o w).1).run h) (h o w).2 := rfl

theorem run_bind (h : (o : S.Op) → W → S.Resp o × W) (p : Prog S α) (f : α → Prog S β) (w : W) :
    (p >>= f).run h w = (f (p.run h w).1).run h (p.run h w).2 := by
  induction p generalizing w with
  | ret a => rfl
  | call o k ih => exact ih (h o w).1 (h o w).2

/-- An interpreter whose answers and updates `sem` allows produces executions of `sem`. -/
theorem exec_run {sem : Event S → W → W → Prop} {h : (o : S.Op) → W → S.Resp o × W}
    (hsem : ∀ o w, sem ⟨o, (h o w).1⟩ w (h o w).2) (p : Prog S α) (w : W) :
    ∃ tr, Exec sem p w tr (p.run h w).1 (p.run h w).2 := by
  induction p generalizing w with
  | ret a => exact ⟨[], .ret a w⟩
  | call o k ih =>
    obtain ⟨tr, htr⟩ := ih (h o w).1 (h o w).2
    exact ⟨⟨o, (h o w).1⟩ :: tr, .call (hsem o w) htr⟩

/-! ## The calls a program can make -/

/-- `Uses P p`: whatever the answers are, every call of `p` satisfies `P`. -/
def Uses (P : S.Op → Prop) : Prog S α → Prop
  | .ret _ => True
  | .call o k => P o ∧ ∀ r, (k r).Uses P

@[simp] theorem uses_ret (P : S.Op → Prop) (a : α) : (Prog.ret a : Prog S α).Uses P := trivial

@[simp] theorem uses_call (P : S.Op → Prop) (o : S.Op) (k : S.Resp o → Prog S α) :
    (Prog.call o k).Uses P ↔ P o ∧ ∀ r, (k r).Uses P := Iff.rfl

theorem uses_perform_bind {P : S.Op → Prop} {o : S.Op} {f : S.Resp o → Prog S β} (ho : P o)
    (hf : ∀ r, (f r).Uses P) : (perform o >>= f).Uses P := ⟨ho, hf⟩

theorem Uses.bind {P : S.Op → Prop} {p : Prog S α} {f : α → Prog S β} (hp : p.Uses P)
    (hf : ∀ a, (f a).Uses P) : (p >>= f).Uses P := by
  induction p with
  | ret a => exact hf a
  | call o k ih => exact ⟨hp.1, fun r => ih r (hp.2 r)⟩

theorem Uses.mono {P P' : S.Op → Prop} {p : Prog S α} (hp : p.Uses P) (h : ∀ o, P o → P' o) :
    p.Uses P' := by
  induction p with
  | ret a => trivial
  | call o k ih => exact ⟨h o hp.1, fun r => ih r (hp.2 r)⟩

theorem Uses.step {P : S.Op → Prop} {p q : Prog S α} {e : Event S} (hp : p.Uses P)
    (h : Step p e q) : P e.1 ∧ q.Uses P := by
  cases h with
  | call o k r => exact ⟨hp.1, hp.2 r⟩

/-- Every call of a run is one that the program can make. -/
theorem Yields.uses {P : S.Op → Prop} {p : Prog S α} {tr : List (Event S)} {a : α}
    (h : Yields p tr a) (hp : p.Uses P) : ∀ e ∈ tr, P e.1 := by
  induction h with
  | ret a => exact fun _ he => nomatch he
  | call _ ih =>
    intro e he
    rcases List.mem_cons.mp he with rfl | he
    · exact hp.1
    · exact ih (hp.2 _) e he

theorem Exec.uses {sem : Event S → W → W → Prop} {P : S.Op → Prop} {p : Prog S α} {w w' : W}
    {tr : List (Event S)} {a : α} (h : Exec sem p w tr a w') (hp : p.Uses P) :
    ∀ e ∈ tr, P e.1 :=
  h.yields.uses hp

/-- `UsesGiven A P p`: as long as the answers satisfy `A`, every call of `p` satisfies `P`. -/
def UsesGiven (A : Event S → Prop) (P : S.Op → Prop) : Prog S α → Prop
  | .ret _ => True
  | .call o k => P o ∧ ∀ r, A ⟨o, r⟩ → (k r).UsesGiven A P

section UsesGiven

variable {A : Event S → Prop} {P : S.Op → Prop}

theorem Uses.given {p : Prog S α} (hp : p.Uses P) (A : Event S → Prop) : p.UsesGiven A P := by
  induction p with
  | ret a => trivial
  | call o k ih => exact ⟨hp.1, fun r _ => ih r (hp.2 r)⟩

theorem UsesGiven.bind {p : Prog S α} {f : α → Prog S β} (hp : p.UsesGiven A P)
    (hf : ∀ a, (f a).UsesGiven A P) : (p >>= f).UsesGiven A P := by
  induction p with
  | ret a => exact hf a
  | call o k ih => exact ⟨hp.1, fun r hr => ih r (hp.2 r hr)⟩

theorem UsesGiven.step {p q : Prog S α} {e : Event S} (hp : p.UsesGiven A P) (h : Step p e q) :
    P e.1 ∧ (A e → q.UsesGiven A P) := by
  cases h with
  | call o k r => exact ⟨hp.1, hp.2 r⟩

end UsesGiven

/-! ## Protocols -/

/-- `Conforms next post p q`: started in protocol state `q`, every call of `p` is one that the
automaton `next` admits, whatever the answers are, and `p` returns only in protocol states that
`post` accepts together with the returned value. -/
def Conforms (next : Q → Event S → Option Q) (post : α → Q → Prop) : Prog S α → Q → Prop
  | .ret a, q => post a q
  | .call o k, q => ∀ r, ∃ q', next q ⟨o, r⟩ = some q' ∧ (k r).Conforms next post q'

variable {next : Q → Event S → Option Q} {post : α → Q → Prop}

@[simp] theorem conforms_ret (a : α) (q : Q) :
    (Prog.ret a : Prog S α).Conforms next post q ↔ post a q := Iff.rfl

/-- One step of a conforming program is admitted and leaves a conforming program. -/
theorem Conforms.step {p p' : Prog S α} {e : Event S} {q : Q} (hp : p.Conforms next post q)
    (h : Step p e p') : ∃ q', next q e = some q' ∧ p'.Conforms next post q' := by
  cases h with
  | call o k r => exact hp r

/-- Sequencing: the second program starts in the protocol states the first may end in. -/
theorem Conforms.bind {post' : β → Q → Prop} {p : Prog S α} {f : α → Prog S β} {q : Q}
    (hp : p.Conforms next post q) (hf : ∀ a q, post a q → (f a).Conforms next post' q) :
    (p >>= f).Conforms next post' q := by
  induction p generalizing q with
  | ret a => exact hf a q hp
  | call o k ih =>
    intro r
    obtain ⟨q', hq, hk⟩ := hp r
    exact ⟨q', hq, ih r hk⟩

theorem Conforms.mono {post' : α → Q → Prop} {p : Prog S α} {q : Q}
    (hp : p.Conforms next post q) (h : ∀ a q, post a q → post' a q) :
    p.Conforms next post' q := by
  rw [← bind_pure p]
  exact hp.bind h

/-- A program that only makes calls on which the automaton stays where it is conforms. -/
theorem Uses.conforms {P : S.Op → Prop} {p : Prog S α} {q : Q} (hp : p.Uses P)
    (hstay : ∀ o r, P o → next q ⟨o, r⟩ = some q) :
    p.Conforms next (fun _ q' => q' = q) q := by
  induction p with
  | ret a => rfl
  | call o k ih => exact fun r => ⟨q, hstay o r hp.1, ih r (hp.2 r)⟩

/-- **The invariant rule.** If every admitted call preserves an invariant indexed by the protocol
state, a whole execution of a conforming program does, and it ends in an accepted state. -/
theorem Exec.invariant {sem : Event S → W → W → Prop} {I : Q → W → Prop}
    (hstep : ∀ q e q' w w', next q e = some q' → I q w → sem e w w' → I q' w')
    {p : Prog S α} {q : Q} {w w' : W} {tr : List (Event S)} {a : α}
    (h : Exec sem p w tr a w') (hp : p.Conforms next post q) (hI : I q w) :
    ∃ q', post a q' ∧ I q' w' := by
  induction h generalizing q with
  | ret a w => exact ⟨q, hp, hI⟩
  | call hs _ ih =>
    obtain ⟨q', hq, hk⟩ := hp _
    exact ih hk (hstep q _ q' _ _ hq hI hs)

/-! ## Conditions on the calls made so far -/

/-- `Heeds A P post p past`: when the calls `past` have been made, each further call of `p` satisfies
`P` together with the calls before it, as long as the answers satisfy `A`; and `p` returns only values
that `post` accepts together with all calls. -/
def Heeds (A : Event S → Prop) (P : List (Event S) → S.Op → Prop) (post : α → List (Event S) → Prop) :
    Prog S α → List (Event S) → Prop
  | .ret a, past => post a past
  | .call o k, past => P past o ∧ ∀ r, A ⟨o, r⟩ → (k r).Heeds A P post (past ++ [⟨o, r⟩])

section Heeds

variable {A : Event S → Prop} {P : List (Event S) → S.Op → Prop} {post : α → List (Event S) → Prop}
  {past : List (Event S)}

/-- One step of a program satisfies the condition. -/
theorem Heeds.step {p q : Prog S α} {e : Event S} (hp : p.Heeds A P post past) (h : Step p e q) :
    P past e.1 ∧ (A e → q.Heeds A P post (past ++ [e])) := by
  cases h with
  | call o k r => exact ⟨hp.1, hp.2 r⟩

/-- What the condition says of a call by itself. -/
theorem Heeds.uses {Q : S.Op → Prop} {p : Prog S α} (hp : p.Heeds (fun _ => True) P post past)
    (h : ∀ past o, P past o → Q o) : p.Uses Q := by
  induction p generalizing past with
  | ret a => trivial
  | call o k ih => exact ⟨h past o hp.1, fun r => ih r (hp.2 r trivial)⟩

theorem Heeds.bind {post' : β → List (Event S) → Prop} {p : Prog S α} {f : α → Prog S β}
    (hp : p.Heeds A P post past) (hf : ∀ a past, post a past → (f a).Heeds A P post' past) :
    (p >>= f).Heeds A P post' past := by
  induction p generalizing past with
  | ret a => exact hf a past hp
  | call o k ih =>
    refine ⟨hp.1, ?_⟩
    intro r hr
    exact ih r (hp.2 r hr)

theorem Heeds.mono {post' : α → List (Event S) → Prop} {p : Prog S α} (hp : p.Heeds A P post past)
    (h : ∀ a past, post a past → post' a past) : p.Heeds A P post' past := by
  rw [← bind_pure p]
  exact hp.bind h

/-- The calls are added behind those made before. -/
theorem Heeds.extended {p : Prog S α} (hp : p.Heeds A P post past) :
    p.Heeds A P (fun a past' => post a past' ∧ past <+: past') past := by
  induction p generalizing past with
  | ret a => exact ⟨hp, List.prefix_refl past⟩
  | call o k ih =>
    refine ⟨hp.1, ?_⟩
    intro r hr
    refine (ih r (hp.2 r hr)).mono ?_
    rintro a past' ⟨ha, hpast⟩
    exact ⟨ha, (List.prefix_append past _).trans hpast⟩

/-- A program all of whose calls satisfy the condition whatever has been called before. -/
theorem Uses.heeds_append {Q : S.Op → Prop} {p : Prog S α} (hp : p.Uses Q)
    (h : ∀ past o, Q o → P past o) (past : List (Event S)) :
    p.Heeds A P (fun _ past' => ∃ es, past' = past ++ es ∧ ∀ e ∈ es, Q e.1) past := by
  induction p generalizing past with
  | ret a => exact ⟨[], by simp, fun _ he => (nomatch he)⟩
  | call o k ih =>
    refine ⟨h past o hp.1, ?_⟩
    intro r _
    refine (ih r (hp.2 r) _).mono ?_
    rintro a past' ⟨es, rfl, hes⟩
    refine ⟨⟨o, r⟩ :: es, by simp, ?_⟩
    intro e he
    rcases List.mem_cons.mp he with rfl | he
    · exact hp.1
    · exact hes e he

theorem Uses.heeds {Q : S.Op → Prop} {p : Prog S α} (hp : p.Uses Q) (h : ∀ past o, Q o → P past o)
    (past : List (Event S)) : p.Heeds A P (fun _ past' => past <+: past') past := by
  refine (hp.heeds_append h past).mono ?_
  rintro a past' ⟨es, rfl, -⟩
  exact List.prefix_append past es

end Heeds

end Prog

end Interaction
