import ChatServer.Lib.Program
import ChatServer.Lib.Simulation
import Mathlib.Logic.Function.Basic

/-!
# Threads over one store

Threads take jobs and work on them call by call, in any order, and each call acts on the one store that they
share. What the program of a job promises of its own calls (`Heeds`) it keeps, whatever the other threads do
in between (`promised_of_run`). The calls of a run are those made for the jobs (`mem_history_iff`), and they
are carried out on the store one after another (`executed_of_run`).
-/

namespace Interaction

open Transition Function

variable {S : Sig} {W : Type}

/-! ## Calls on a store -/

/-- The calls lead from one state of the store to another. -/
inductive Executed (sem : Event S → W → W → Prop) (w₀ : W) : List (Event S) → W → Prop where
  | nil : Executed sem w₀ [] w₀
  | snoc {log : List (Event S)} {e : Event S} {w w' : W} :
      Executed sem w₀ log w → sem e w w' → Executed sem w₀ (log ++ [e]) w'

/-- When a call was made, the store was in some state. -/
theorem Executed.mem {sem : Event S → W → W → Prop} {w₀ w : W} {log : List (Event S)} {e : Event S}
    (h : Executed sem w₀ log w) (he : e ∈ log) :
    ∃ pre w₁ w₂, pre ++ [e] <+: log ∧ Executed sem w₀ pre w₁ ∧ sem e w₁ w₂ := by
  induction h with
  | nil => simp at he
  | snoc hlog hs ih =>
    rcases List.mem_append.mp he with he | he
    · obtain ⟨pre, w₁, w₂, hpre, hw, hsem⟩ := ih he
      exact ⟨pre, w₁, w₂, hpre.trans (List.prefix_append _ _), hw, hsem⟩
    · obtain rfl := List.mem_singleton.mp he
      exact ⟨_, _, _, List.prefix_refl _, hlog, hs⟩

/-! ## Jobs -/

namespace Threads

variable {K R ι : Type}

/-- What the job is for, the calls that were made for it, and what is left to do. -/
structure Job (S : Sig) (K R : Type) where
  kind : K
  past : List (Event S)
  rest : Prog S R

/-- The job that a thread works on, and the jobs that are done. -/
structure State (S : Sig) (W K R ι : Type) where
  store : W
  job : ι → Option (Job S K R)
  done : List (Job S K R)

inductive Act (S : Sig) (K ι : Type) where
  | take (i : ι) (kind : K)
  | call (i : ι) (e : Event S)
  | leave (i : ι)

/-- All threads wait for jobs. -/
def State.init (store : W) : State S W K R ι := { store := store, job := fun _ => none, done := [] }

/-- The job was taken, and is perhaps done. -/
def State.Has (s : State S W K R ι) (b : Job S K R) : Prop := b ∈ s.done ∨ ∃ i, s.job i = some b

/-- The call of a step. -/
def Act.event : Act S K ι → Option (Event S)
  | .call _ e => some e
  | _ => none

/-- The calls of a run. -/
def history {σ : Type} (tr : List (Act S K ι × σ)) : List (Event S) := watched Act.event tr

variable [DecidableEq ι]

/-- A step of one thread; `code` is what it does for a job, and `leaves` says of what it returns whether the
thread goes on. -/
inductive Step (code : ι → K → Prog S R) (sem : Event S → W → W → Prop) (leaves : R → Prop) :
    State S W K R ι → Act S K ι → State S W K R ι → Prop where
  | take {s : State S W K R ι} {i : ι} {kind : K} : s.job i = none →
      Step code sem leaves s (.take i kind)
        { s with job := update s.job i (some { kind := kind, past := [], rest := code i kind }) }
  | call {s : State S W K R ι} {i : ι} {b : Job S K R} {e : Event S} {rest : Prog S R} {store : W} :
      s.job i = some b → Prog.Step b.rest e rest → sem e s.store store →
      Step code sem leaves s (.call i e)
        { s with store := store
                 job := update s.job i (some { b with past := b.past ++ [e], rest := rest }) }
  | leave {s : State S W K R ι} {i : ι} {b : Job S K R} {r : R} :
      s.job i = some b → b.rest = .ret r → leaves r →
      Step code sem leaves s (.leave i)
        { s with job := update s.job i none, done := s.done ++ [b] }

/-! ### The jobs after a step -/

section Jobs

variable {s : State S W K R ι} {i : ι} {b b' : Job S K R}

theorem update_eq_some {job : ι → Option (Job S K R)} {x : Option (Job S K R)} :
    (∃ j, update job i x j = some b) ↔ x = some b ∨ ∃ j, j ≠ i ∧ job j = some b := by
  constructor
  · rintro ⟨j, hj⟩
    by_cases hji : j = i
    · rw [hji, update_self] at hj
      exact Or.inl hj
    · rw [update_of_ne hji] at hj
      exact Or.inr ⟨j, hji, hj⟩
  · rintro (hx | ⟨j, hji, hj⟩)
    · exact ⟨i, by rw [update_self, hx]⟩
    · exact ⟨j, by rw [update_of_ne hji, hj]⟩

theorem has_take (hidle : s.job i = none) :
    State.Has { s with job := update s.job i (some b) } b' ↔ b' = b ∨ s.Has b' := by
  unfold State.Has
  dsimp only
  rw [update_eq_some]
  constructor
  · rintro (hdone | hb | ⟨j, -, hj⟩)
    · exact Or.inr (Or.inl hdone)
    · exact Or.inl (Option.some.inj hb).symm
    · exact Or.inr (Or.inr ⟨j, hj⟩)
  · rintro (rfl | hdone | ⟨j, hj⟩)
    · exact Or.inr (Or.inl rfl)
    · exact Or.inl hdone
    · refine Or.inr (Or.inr ⟨j, ?_, hj⟩)
      rintro rfl
      simp [hidle] at hj

/-- The job of the thread is replaced. -/
theorem has_call {b₀ : Job S K R} {store : W} (hb₀ : s.job i = some b₀) :
    (State.Has { s with store := store, job := update s.job i (some b) } b' → b' = b ∨ s.Has b') ∧
      (s.Has b' → b' = b₀ ∨ State.Has { s with store := store, job := update s.job i (some b) } b') := by
  unfold State.Has
  dsimp only
  rw [update_eq_some]
  constructor
  · rintro (hdone | hb | ⟨j, -, hj⟩)
    · exact Or.inr (Or.inl hdone)
    · exact Or.inl (Option.some.inj hb).symm
    · exact Or.inr (Or.inr ⟨j, hj⟩)
  · rintro (hdone | ⟨j, hj⟩)
    · exact Or.inr (Or.inl hdone)
    · by_cases hji : j = i
      · rw [hji, hb₀] at hj
        exact Or.inl (Option.some.inj hj).symm
      · exact Or.inr (Or.inr (Or.inr ⟨j, hji, hj⟩))

theorem has_leave (hb : s.job i = some b) :
    State.Has { s with job := update s.job i none, done := s.done ++ [b] } b' ↔ s.Has b' := by
  unfold State.Has
  dsimp only
  rw [update_eq_some, List.mem_append, List.mem_singleton]
  constructor
  · rintro ((hdone | rfl) | hb | ⟨j, -, hj⟩)
    · exact Or.inl hdone
    · exact Or.inr ⟨i, hb⟩
    · simp at hb
    · exact Or.inr ⟨j, hj⟩
  · rintro (hdone | ⟨j, hj⟩)
    · exact Or.inl (Or.inl hdone)
    · by_cases hji : j = i
      · rw [hji, hb] at hj
        exact Or.inl (Or.inr (Option.some.inj hj).symm)
      · exact Or.inr (Or.inr ⟨j, hji, hj⟩)

end Jobs

section Runs

variable {code : ι → K → Prog S R} {sem : Event S → W → W → Prop} {leaves : R → Prop} {store : W}
  {s : State S W K R ι} {tr : List (Act S K ι × State S W K R ι)}

/-! ## The store -/

/-- **The store is what the calls make of it**, in their order. -/
theorem executed_of_run (h : Run (Step code sem leaves) (.init store) tr s) :
    Executed sem store (history tr) s.store := by
  induction h with
  | nil => exact .nil
  | snoc _ hs ih =>
    rw [history, watched_snoc]
    cases hs with
    | take _ => simpa [Act.event, history] using ih
    | call _ _ hsem => exact ih.snoc hsem
    | leave _ _ _ => simpa [Act.event, history] using ih

/-- What every call keeps, is kept from a state of a run to the later ones. -/
theorem kept_of_prefix {P : W → Prop} (hsem : ∀ e w w', sem e w w' → P w → P w')
    (h : Run (Step code sem leaves) (.init store) tr s) {pre : List (Act S K ι × State S W K R ι)}
    {s₁ : State S W K R ι} (h₁ : Run (Step code sem leaves) (.init store) pre s₁) (hpre : pre <+: tr) :
    P s₁.store → P s.store := by
  induction h with
  | nil =>
    obtain rfl := List.prefix_nil.mp hpre
    rw [h₁.nil_inv]
    exact id
  | snoc hr hs ih =>
    rcases List.prefix_concat_iff.mp hpre with rfl | hpre
    · rw [h₁.unique (.snoc hr hs)]
      exact id
    · intro hP
      have hbefore := ih hpre hP
      cases hs with
      | take _ => exact hbefore
      | call _ _ hcall => exact hsem _ _ _ hcall hbefore
      | leave _ _ _ => exact hbefore

/-! ## The jobs -/

/-- A property of jobs that a new one has, and that a job keeps with each of its calls, holds of all. -/
theorem forall_has {P : Job S K R → Prop} (hnew : ∀ i kind, P ⟨kind, [], code i kind⟩)
    (hcall : ∀ b e rest, P b → Prog.Step b.rest e rest → P { b with past := b.past ++ [e], rest := rest })
    (h : Run (Step code sem leaves) (.init store) tr s) : ∀ b, s.Has b → P b := by
  induction h with
  | nil => simp [State.Has, State.init]
  | snoc _ hs ih =>
    intro b hb
    cases hs with
    | take hidle =>
      rcases (has_take hidle).mp hb with rfl | hb
      · exact hnew _ _
      · exact ih b hb
    | call hb₀ hstep _ =>
      rcases (has_call hb₀).1 hb with rfl | hb
      · exact hcall _ _ _ (ih _ (Or.inr ⟨_, hb₀⟩)) hstep
      · exact ih b hb
    | leave hb₀ _ _ => exact ih b ((has_leave hb₀).mp hb)

/-- Nothing is left of a job that is done. -/
theorem returned_of_done (h : Run (Step code sem leaves) (.init store) tr s) :
    ∀ b ∈ s.done, ∃ r, b.rest = .ret r ∧ leaves r := by
  induction h with
  | nil => simp [State.init]
  | snoc _ hs ih =>
    cases hs with
    | take _ => exact ih
    | call _ _ _ => exact ih
    | leave _ hrest hr =>
      intro b hb
      rcases List.mem_append.mp hb with hb | hb
      · exact ih b hb
      · rw [List.mem_singleton.mp hb]
        exact ⟨_, hrest, hr⟩

/-- **Every call is one that was made for a job.** -/
theorem mem_history_iff (h : Run (Step code sem leaves) (.init store) tr s) (e : Event S) :
    e ∈ history tr ↔ ∃ b, s.Has b ∧ e ∈ b.past := by
  induction h with
  | nil => simp [history, State.Has, State.init]
  | snoc _ hs ih =>
    rw [history, watched_snoc, List.mem_append, show e ∈ watched Act.event _ ↔ _ from ih]
    cases hs with
    | take hidle => simp [has_take hidle, Act.event]
    | leave hb₀ _ _ => simp [has_leave hb₀, Act.event]
    | call hb₀ _ _ =>
      constructor
      · rintro (⟨b, hb, he⟩ | he)
        · rcases (has_call hb₀).2 hb with rfl | hb
          · exact ⟨_, Or.inr ⟨_, update_self _ _ _⟩, List.mem_append_left _ he⟩
          · exact ⟨b, hb, he⟩
        · exact ⟨_, Or.inr ⟨_, update_self _ _ _⟩, List.mem_append_right _ he⟩
      · rintro ⟨b, hb, he⟩
        rcases (has_call hb₀).1 hb with rfl | hb
        · rcases List.mem_append.mp he with he | he
          · exact Or.inl ⟨_, Or.inr ⟨_, hb₀⟩, he⟩
          · exact Or.inr he
        · exact Or.inl ⟨b, hb, he⟩

/-! ## What programs promise -/

/-- The calls of the job were as its program promises, and so will be those that are left. -/
structure Promised (P : K → List (Event S) → S.Op → Prop) (post : K → R → List (Event S) → Prop)
    (b : Job S K R) : Prop where
  made : ∀ pre e, pre ++ [e] <+: b.past → P b.kind pre e.1
  left : b.rest.Heeds (fun _ => True) (P b.kind) (post b.kind) b.past

variable {P : K → List (Event S) → S.Op → Prop} {post : K → R → List (Event S) → Prop}
  (hcode : ∀ i kind, (code i kind).Heeds (fun _ => True) (P kind) (post kind) [])
include hcode

/-- **A job keeps what its program promises**, whatever the other threads do. -/
theorem promised_of_run (h : Run (Step code sem leaves) (.init store) tr s) :
    ∀ b, s.Has b → Promised P post b := by
  refine forall_has ?_ ?_ h
  · exact fun i kind => ⟨by simp, hcode i kind⟩
  · rintro b e rest ⟨hmade, hleft⟩ hstep
    obtain ⟨he, hrest⟩ := hleft.step hstep
    refine ⟨?_, hrest trivial⟩
    intro pre e' hpre
    rcases List.prefix_concat_iff.mp hpre with heq | hpre
    · obtain ⟨rfl, hlast⟩ := List.append_inj' heq rfl
      cases hlast
      exact he
    · exact hmade pre e' hpre

/-- What is promised of the end of a job that is done. -/
theorem post_of_done (h : Run (Step code sem leaves) (.init store) tr s) :
    ∀ b ∈ s.done, ∃ r, leaves r ∧ post b.kind r b.past := by
  intro b hb
  obtain ⟨r, hrest, hr⟩ := returned_of_done h b hb
  have hleft := (promised_of_run hcode h b (Or.inl hb)).left
  rw [hrest] at hleft
  exact ⟨r, hr, hleft⟩

end Runs

/-! ## Running threads -/

/-- What can happen next: a thread takes a job, or goes on with its own. -/
inductive Move (K ι : Type) where
  | take (i : ι) (kind : K)
  | advance (i : ι)

/-- Carry out a move, if it is possible. -/
def move (code : ι → K → Prog S R) (answer : (o : S.Op) → W → S.Resp o × W) (leaves : R → Prop)
    [DecidablePred leaves] : Move K ι → State S W K R ι → Option (Act S K ι × State S W K R ι)
  | .take i kind, s =>
    match s.job i with
    | none => some (.take i kind,
        { s with job := update s.job i (some { kind := kind, past := [], rest := code i kind }) })
    | some _ => none
  | .advance i, s =>
    match s.job i with
    | none => none
    | some b =>
      match b.rest with
      | .ret r =>
        if leaves r then some (.leave i, { s with job := update s.job i none, done := s.done ++ [b] })
        else none
      | .call o k =>
        let x := answer o s.store
        some (.call i ⟨o, x.1⟩,
          { s with store := x.2
                   job := update s.job i (some { b with past := b.past ++ [⟨o, x.1⟩], rest := k x.1 }) })

theorem move_step {code : ι → K → Prog S R} {sem : Event S → W → W → Prop} {leaves : R → Prop}
    [DecidablePred leaves] {answer : (o : S.Op) → W → S.Resp o × W}
    (hsem : ∀ o w, sem ⟨o, (answer o w).1⟩ w (answer o w).2) {m : Move K ι} {s t : State S W K R ι}
    {a : Act S K ι} (h : move code answer leaves m s = some (a, t)) : Step code sem leaves s a t := by
  rcases m with ⟨i, kind⟩ | i
  · dsimp only [move] at h
    split at h
    · rename_i hidle
      cases h
      exact .take hidle
    · cases h
  · dsimp only [move] at h
    split at h
    · cases h
    · rename_i b hb
      split at h
      · rename_i r hrest
        split at h
        · rename_i hr
          cases h
          exact .leave hb hrest hr
        · cases h
      · rename_i o k hrest
        cases h
        exact .call hb (hrest ▸ .call o k _) (hsem o s.store)

end Threads

end Interaction
