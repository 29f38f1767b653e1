import ChatServer.Lib.Program

/-!
# Programs some of whose calls a store answers

`answers o w` is what the store does on the call `o` in the state `w`: its answer and the state after
it, or nothing when the call is none of the store's. A call of the latter kind may return anything, and
leaves the state as it is. `Wp` is what has to hold before a program for its postcondition to hold after
every execution (`Exec.wp`).
-/

namespace Interaction

namespace Prog

variable {S : Sig} {α β W : Type} {answers : (o : S.Op) → W → Option (S.Resp o × W)}

/-- A call as the store answers it. -/
def Answered (answers : (o : S.Op) → W → Option (S.Resp o × W)) (e : Event S) (w w' : W) : Prop :=
  match answers e.1 w with
  | some x => e.2 = x.1 ∧ w' = x.2
  | none => w' = w

/-- Answer the calls that are not the store's by `other`. -/
def respond (answers : (o : S.Op) → W → Option (S.Resp o × W)) (other : (o : S.Op) → S.Resp o)
    (o : S.Op) (w : W) : S.Resp o × W :=
  (answers o w).getD (other o, w)

theorem answered_respond (other : (o : S.Op) → S.Resp o) (o : S.Op) (w : W) :
    Answered answers ⟨o, (respond answers other o w).1⟩ w (respond answers other o w).2 := by
  unfold Answered respond
  rcases hanswer : answers o w with _ | x
  · simp
  · simp

/-- After every execution of the program from `w`, the postcondition holds. -/
def Wp (answers : (o : S.Op) → W → Option (S.Resp o × W)) (post : α → W → Prop) : Prog S α → W → Prop
  | .ret a, w => post a w
  | .call o k, w =>
    match answers o w with
    | some x => (k x.1).Wp answers post x.2
    | none => ∀ r, (k r).Wp answers post w

variable {post : α → W → Prop} {o : S.Op} {k : S.Resp o → Prog S α} {w : W}

theorem wp_answered {r : S.Resp o} {w' : W} (h : answers o w = some (r, w'))
    (hk : (k r).Wp answers post w') : (Prog.call o k).Wp answers post w := by
  unfold Wp
  rw [h]
  exact hk

theorem wp_other (h : answers o w = none) (hk : ∀ r, (k r).Wp answers post w) :
    (Prog.call o k).Wp answers post w := by
  unfold Wp
  rw [h]
  exact hk

/-- **Soundness.** -/
theorem Exec.wp {p : Prog S α} {w' : W} {tr : List (Event S)} {a : α}
    (h : Exec (Answered answers) p w tr a w') (hp : p.Wp answers post w) : post a w' := by
  induction h with
  | ret a w => exact hp
  | @call o k r tr a w w₁ w' hs _ ih =>
    refine ih ?_
    unfold Answered at hs
    unfold Wp at hp
    rcases hanswer : answers o w with _ | x
    · simp only [hanswer] at hs hp
      exact hs ▸ hp r
    · simp only [hanswer] at hs hp
      obtain ⟨rfl, rfl⟩ := hs
      exact hp

/-- What is left of a program keeps to the postcondition, from call to call. -/
theorem Wp.step {p q : Prog S α} {e : Event S} {w' : W} (hp : p.Wp answers post w) (h : Step p e q)
    (hs : Answered answers e w w') : q.Wp answers post w' := by
  cases h with
  | call o k r =>
    unfold Answered at hs
    unfold Wp at hp
    rcases hanswer : answers o w with _ | x
    · simp only [hanswer] at hs hp
      exact hs ▸ hp r
    · simp only [hanswer] at hs hp
      obtain ⟨rfl, rfl⟩ := hs
      exact hp

theorem Wp.bind {post' : β → W → Prop} {p : Prog S α} {f : α → Prog S β} (hp : p.Wp answers post w)
    (hf : ∀ a w, post a w → (f a).Wp answers post' w) : (p >>= f).Wp answers post' w := by
  induction p generalizing w with
  | ret a => exact hf a w hp
  | call o k ih =>
    unfold Wp at hp
    rw [call_bind]
    rcases hanswer : answers o w with _ | x
    · simp only [hanswer] at hp
      exact wp_other hanswer fun r => ih r (hp r)
    · simp only [hanswer] at hp
      exact wp_answered hanswer (ih x.1 hp)

theorem Wp.mono {post' : α → W → Prop} {p : Prog S α} (hp : p.Wp answers post w)
    (h : ∀ a w, post a w → post' a w) : p.Wp answers post' w := by
  rw [← bind_pure p]
  exact hp.bind h

/-- A program whose calls leave the store as it is. -/
theorem Uses.wp {P : S.Op → Prop} {p : Prog S α} (hp : p.Uses P)
    (hkeep : ∀ o w x, P o → answers o w = some x → x.2 = w) (w : W) :
    p.Wp answers (fun _ w' => w' = w) w := by
  induction p with
  | ret a => rfl
  | call o k ih =>
    rcases hanswer : answers o w with _ | x
    · exact wp_other hanswer fun r => ih r (hp.2 r)
    · refine wp_answered hanswer ?_
      rw [hkeep o w x hp.1 hanswer]
      exact ih x.1 (hp.2 x.1)

end Prog

end Interaction
