import ChatServer.Lib.Run

/-!
# Monitors

A mutex that some threads enter and leave, one thread that waits on a condition variable, and a queue.

* `Exclusive`: the threads inside the critical section are the owner of the mutex, if there is one.
  `Access` is what a step may do to the mutex, and every access keeps exclusion.
* `View` is how a system looks to the thread that waits: whether it is awake, has decided to sleep or
  is asleep, whether it has nothing to do, and whether a notification is still to come. `View.Safe`
  says that no wake-up is lost; `Keeps` is what a step has to respect for it. A notification that
  falls between the decision to sleep and the sleep is what `Keeps.given` excludes.
* `Fifo` is the queue that a monitor guards.
-/

namespace Monitor

open Transition

/-! ## The mutex -/

section Mutex

variable {X : Type} {owner owner' : Option X} {inside inside' : X → Prop}

def Exclusive (owner : Option X) (inside : X → Prop) : Prop := ∀ x, inside x ↔ owner = some x

/-- A step of the thread `x`, which leaves the mutex alone, acquires it or releases it. -/
inductive Access (x : X) (owner : Option X) (inside inside' : X → Prop) : Option X → Prop where
  | keep : (inside' x ↔ inside x) → Access x owner inside inside' owner
  | acquire : owner = none → inside' x → Access x owner inside inside' (some x)
  | release : inside x → ¬ inside' x → Access x owner inside inside' none

theorem Exclusive.access (h : Exclusive owner inside) {x : X}
    (hothers : ∀ y, y ≠ x → (inside' y ↔ inside y))
    (ha : Access x owner inside inside' owner') : Exclusive owner' inside' := by
  intro y
  by_cases hy : y = x
  · subst hy
    cases ha with
    | keep hkeep => rw [hkeep, h y]
    | acquire _ hin => exact iff_of_true hin rfl
    | release _ hout => exact iff_of_false hout (by simp)
  · rw [hothers y hy, h y]
    cases ha with
    | keep => rfl
    | acquire hfree => simp [hfree, Ne.symm hy]
    | release hin => simp [(h x).mp hin, Ne.symm hy]

/-- At most one thread is inside. -/
theorem Exclusive.unique (h : Exclusive owner inside) {x y : X} (hx : inside x) (hy : inside y) :
    x = y :=
  Option.some.inj (((h x).mp hx).symm.trans ((h y).mp hy))

/-- While a thread is inside, the others are not. -/
theorem Exclusive.outside (h : Exclusive owner inside) {x y : X} (hx : inside x) (hne : y ≠ x) :
    ¬ inside y :=
  fun hy => hne (h.unique hy hx)

end Mutex

/-! ## The condition variable -/

/-- The thread that waits has taken no decision to sleep, has taken it, or sleeps. -/
inductive Phase where
  | awake
  | deciding
  | asleep
  deriving DecidableEq, Repr

structure View where
  phase : Phase
  /-- There is nothing to do, so the thread may sleep. -/
  idle : Prop
  /-- A notification is still to come. -/
  due : Prop

/-- No wake-up is lost: a thread that sleeps, or is about to, has nothing to do or will be notified. -/
def View.Safe (v : View) : Prop := v.phase ≠ .awake → ¬ v.idle → v.due

/-- What a step has to respect. -/
structure Keeps (v v' : View) : Prop where
  /-- Nobody sleeps without having decided to. -/
  asleep : v'.phase = .asleep → v.phase ≠ .awake
  /-- The decision is taken when there is nothing to do. -/
  deciding : v'.phase = .deciding → v.phase = .awake → v'.idle
  /-- Who brings work will notify. -/
  busy : v.idle → ¬ v'.idle → v'.due
  /-- A notification finds the thread asleep, or awake, or with nothing to do. -/
  given : v.due → ¬ v'.due → v'.phase = .awake ∨ v'.idle

theorem View.Safe.keeps {v v' : View} (h : v.Safe) (hk : Keeps v v') : v'.Safe := by
  intro hphase hidle
  have hbefore : v.phase ≠ .awake := by
    cases hp : v'.phase with
    | awake => exact absurd hp hphase
    | deciding => exact fun ha => hidle (hk.deciding hp ha)
    | asleep => exact hk.asleep hp
  by_cases hi : v.idle
  · exact hk.busy hi hidle
  · by_contra hdue
    rcases hk.given (h hbefore hi) hdue with ha | hi'
    · exact hphase ha
    · exact hidle hi'

/-- **No lost wake-up.** In a run whose steps all respect the protocol, no wake-up is lost. -/
theorem View.safe_of_run {σ L : Type} {step : σ → L → σ → Prop} {s₀ s : σ} {tr : List (L × σ)}
    {view : σ → View} {C : List (L × σ) → σ → L → Prop} (h0 : (view s₀).Safe)
    (hstep : ∀ tr s l t, Run step s₀ tr s → C tr s l → step s l t → Keeps (view s) (view t))
    (h : Run step s₀ tr s) (hc : Each step s₀ C tr) : (view s).Safe :=
  h.invariant_of_each (P := fun _ s => (view s).Safe) h0
    (fun tr s l t hr hs hcond ht => hs.keeps (hstep tr s l t hr hcond ht)) hc

/-! ## The queue -/

section Queue

variable {α : Type}

/-- A queue with what has been put into it and taken from it since the start. -/
structure Fifo (α : Type) where
  offered : List α
  given : List α
  waiting : List α

namespace Fifo

inductive Step : Fifo α → Fifo α → Prop where
  | offer {f : Fifo α} (x : α) :
      Step f { f with offered := f.offered ++ [x], waiting := f.waiting ++ [x] }
  | give {f : Fifo α} {x : α} {rest : List α} : f.waiting = x :: rest →
      Step f { f with given := f.given ++ [x], waiting := rest }

/-- Nothing is lost, duplicated or reordered. -/
def Ordered (f : Fifo α) : Prop := f.offered = f.given ++ f.waiting

theorem Ordered.step {f g : Fifo α} (h : f.Ordered) (hs : Step f g) : g.Ordered := by
  cases hs with
  | offer x =>
    show f.offered ++ [x] = f.given ++ (f.waiting ++ [x])
    rw [h, List.append_assoc]
  | give hw =>
    show f.offered = f.given ++ [_] ++ _
    rw [h, hw, List.append_assoc, List.singleton_append]

end Fifo

end Queue

end Monitor
