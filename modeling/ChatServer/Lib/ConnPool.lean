import ChatServer.Lib.Program
import Mathlib.Algebra.GroupWithZero.Nat
import Mathlib.Data.List.Basic

/-!
# Pools of connections

Threads share a pool: a queue of idle connections behind a mutex and a condition variable. A thread
runs programs that take a connection, make queries on it and give it back (`Client`).

* `Balanced` is what a program has to keep to: it uses only connections that it holds, and gives back
  every connection that it takes, once. Rules for it follow the statements of a program.
* `Pool.Step` is the system of the threads. Its steps are the critical sections of the mutex, so a
  thread that finds the queue empty is asleep with that step, and whoever gives a connection back
  pushes it and notifies in one step.
* `Pool.size` counts the connections that are idle or held, and no thread changes it (`Step.size`).
* `Pool.holders` counts where one connection is, and only a thread that drops it changes that
  (`Step.holders`).
* `Pool.WakeSafe` says that no wake-up is lost: while a thread sleeps, there are no more idle
  connections than threads on their way to take one. The threads keep it (`Step.wakeSafe`), and what
  else is done to the queue keeps it under the conditions stated here.
-/

namespace ConnPool

open Interaction Prog

/-! ## Programs -/

/-- What a program can do with a pool. -/
inductive Op (C Q : Type) where
  | getConnection
  | returnConnection (con : C)
  | query (con : C) (q : Q)

/-- A pool that has been stopped gives no connection. -/
@[reducible] def Op.Resp {C Q : Type} (R : Q → Type) : Op C Q → Type
  | .getConnection => Option C
  | .returnConnection _ => Unit
  | .query _ q => R q

abbrev sig (C : Type) {Q : Type} (R : Q → Type) : Sig := ⟨Op C Q, Op.Resp R⟩

/-- A program of a thread that uses the pool. -/
abbrev Client (C : Type) {Q : Type} (R : Q → Type) : Type → Type := Prog (sig C R)

section Programs

variable {C Q : Type} {R : Q → Type} {α β : Type}

abbrev Client.ask (o : Op C Q) : Client C R (Op.Resp R o) := perform (S := sig C R) o

/-- Take a connection, and give it back when the body has returned. -/
def withConnection (fallback : α) (body : C → Client C R α) : Client C R α := do
  let con ← Client.ask .getConnection
  match con with
  | none => pure fallback
  | some con =>
    let a ← body con
    let _ ← Client.ask (.returnConnection con)
    pure a

variable [DecidableEq C]

/-- The connections that a program holds after a call; none if it may not make the call. It may hold
`limit` connections at a time. -/
def holds (limit : Nat) (held : List C) : Event (sig C R) → Option (List C)
  | ⟨.getConnection, none⟩ => if held.length < limit then some held else none
  | ⟨.getConnection, some con⟩ => if held.length < limit then some (con :: held) else none
  | ⟨.returnConnection con, _⟩ => if con ∈ held then some (held.erase con) else none
  | ⟨.query con _, _⟩ => if con ∈ held then some held else none

/-- The program takes at most `depth` connections at a time, and leaves what is held as it was. -/
def Balanced (depth : Nat) (p : Client C R α) : Prop :=
  ∀ limit held, held.length + depth ≤ limit →
    p.Conforms (holds limit) (fun _ held' => held' = held) held

/-- The program uses `con` and takes at most `depth` connections at a time, and leaves what is held as
it was. -/
def Using (con : C) (depth : Nat) (p : Client C R α) : Prop :=
  ∀ limit held, con ∈ held → held.length + depth ≤ limit →
    p.Conforms (holds limit) (fun _ held' => held' = held) held

/-- The program gives `con` back, and leaves what else is held as it was. -/
def Gives (con : C) (depth : Nat) (p : Client C R α) : Prop :=
  ∀ limit held, held.length + 1 + depth ≤ limit →
    p.Conforms (holds limit) (fun _ held' => held' = held) (con :: held)

variable {con : C} {depth : Nat}

theorem balanced_pure (depth : Nat) (a : α) : Balanced depth (pure a : Client C R α) := by
  intro limit held _
  rfl

theorem Balanced.mono {more : Nat} {p : Client C R α} (h : Balanced depth p) (hle : depth ≤ more) :
    Balanced more p := by
  intro limit held hlimit
  exact h limit held (by omega)

theorem Balanced.using {p : Client C R α} (h : Balanced depth p) (con : C) : Using con depth p := by
  intro limit held _ hlimit
  exact h limit held hlimit

theorem Balanced.bind {p : Client C R α} {f : α → Client C R β} (hp : Balanced depth p)
    (hf : ∀ a, Balanced depth (f a)) : Balanced depth (p >>= f) := by
  intro limit held hlimit
  refine Conforms.bind (hp limit held hlimit) ?_
  rintro a _ rfl
  exact hf a limit _ hlimit

theorem using_pure (con : C) (depth : Nat) (a : α) : Using con depth (pure a : Client C R α) :=
  (balanced_pure depth a).using con

theorem Using.bind {p : Client C R α} {f : α → Client C R β} (hp : Using con depth p)
    (hf : ∀ a, Using con depth (f a)) : Using con depth (p >>= f) := by
  intro limit held hcon hlimit
  refine Conforms.bind (hp limit held hcon hlimit) ?_
  rintro a _ rfl
  exact hf a limit _ hcon hlimit

theorem using_query {q : Q} {f : R q → Client C R β} (hf : ∀ r, Using con depth (f r)) :
    Using con depth (Client.ask (.query con q) >>= f) := by
  intro limit held hcon hlimit r
  exact ⟨held, by simp [holds, hcon], hf r limit held hcon hlimit⟩

/-- Taking a connection. -/
theorem Balanced.get {f : Option C → Client C R β} (hnone : Balanced (depth + 1) (f none))
    (hsome : ∀ con, Gives con depth (f (some con))) :
    Balanced (depth + 1) (Client.ask (R := R) .getConnection >>= f) := by
  intro limit held hlimit r
  have hlt : held.length < limit := by omega
  rcases r with _ | con
  · exact ⟨held, by simp [holds, hlt], hnone limit held hlimit⟩
  · exact ⟨con :: held, by simp [holds, hlt], hsome con limit held (by omega)⟩

theorem Using.gives {p : Client C R α} {f : α → Client C R β} (hp : Using con depth p)
    (hf : ∀ a, Gives con depth (f a)) : Gives con depth (p >>= f) := by
  intro limit held hlimit
  refine Conforms.bind (hp limit _ List.mem_cons_self (by simpa using hlimit)) ?_
  rintro a _ rfl
  exact hf a limit held hlimit

theorem gives_query {q : Q} {f : R q → Client C R β} (hf : ∀ r, Gives con depth (f r)) :
    Gives con depth (Client.ask (.query con q) >>= f) := by
  intro limit held hlimit r
  exact ⟨con :: held, by simp [holds], hf r limit held hlimit⟩

theorem gives_return {f : Unit → Client C R β} (hf : Balanced (depth + 1) (f ())) :
    Gives con depth (Client.ask (R := R) (.returnConnection con) >>= f) := by
  intro limit held hlimit r
  exact ⟨held, by simp [holds], hf limit held (by omega)⟩

theorem balanced_withConnection {fallback : α} {body : C → Client C R α}
    (h : ∀ con, Using con depth (body con)) :
    Balanced (depth + 1) (withConnection fallback body) := by
  refine Balanced.get (balanced_pure _ fallback) ?_
  intro con
  refine (h con).gives ?_
  intro a
  exact gives_return (balanced_pure _ a)

end Programs

/-! ## Threads -/

/-- What a thread is doing: `running p` has `p` left to do, `asleep resume` waits on the condition
variable in `getConnection`. -/
inductive Status (C : Type) {Q : Type} (R : Q → Type) where
  | running (rest : Client C R Unit)
  | asleep (resume : Option C → Client C R Unit)

namespace Status

variable {C Q : Type} {R : Q → Type}

/-- What is left to do. -/
def rest : Status C R → Client C R Unit
  | .running rest => rest
  | .asleep resume => .call .getConnection resume

def isAsleep : Status C R → Bool
  | .asleep _ => true
  | .running _ => false

/-- The thread is about to lock the mutex for a connection. -/
def isAwaiting : Status C R → Bool
  | .running (.call .getConnection _) => true
  | _ => false

end Status

/-- A thread of some kind, with the connections that it holds. -/
structure Caller (K C : Type) {Q : Type} (R : Q → Type) where
  kind : K
  held : List C
  status : Status C R

/-- The steps of a thread. -/
inductive Act (K C : Type) {Q : Type} (R : Q → Type) where
  /-- A thread starts. -/
  | arrive
  /-- A thread that has nothing to do begins a program. -/
  | call
  /-- A connection is taken from the queue. -/
  | take
  /-- The queue is empty, and the thread `x` sleeps. -/
  | sleep (x : Caller K C R)
  /-- A thread wakes up without a notification. -/
  | wake
  /-- The pool has been stopped, and gives no connection. -/
  | refuse
  /-- A connection is pushed to the queue, and a thread is notified. -/
  | giveBack
  /-- The pool has been stopped, and a connection that is given back is dropped. -/
  | drop
  | query

structure Pool (K C : Type) {Q : Type} (R : Q → Type) where
  idle : List C
  stopped : Bool
  callers : List (Caller K C R)

section Threads

variable {K C Q : Type} {R : Q → Type}

/-- `notify_one`: one of the threads that sleep wakes up, if there is any. -/
inductive Notified : List (Caller K C R) → List (Caller K C R) → Prop where
  | one (pre post : List (Caller K C R)) {x : Caller K C R} {resume : Option C → Client C R Unit} :
      x.status = .asleep resume →
      Notified (pre ++ x :: post)
        (pre ++ { x with status := .running (.call .getConnection resume) } :: post)
  | nobody {xs : List (Caller K C R)} : (∀ x ∈ xs, x.status.isAsleep = false) → Notified xs xs

/-- The thread after a notification. -/
def Caller.awake (x : Caller K C R) : Caller K C R :=
  { x with status := .running x.status.rest }

/-- `notify_all`, when the pool has been stopped. -/
def Pool.stop (p : Pool K C R) : Pool K C R :=
  { p with stopped := true, callers := p.callers.map Caller.awake }

/-! ## Counting -/

/-- The connections held by threads. -/
def heldCount (xs : List (Caller K C R)) : Nat := (xs.map fun x => x.held.length).sum

def sleeping (xs : List (Caller K C R)) : Nat := xs.countP fun x => x.status.isAsleep

def awaiting (xs : List (Caller K C R)) : Nat := xs.countP fun x => x.status.isAwaiting

@[simp] theorem heldCount_cons (x : Caller K C R) (xs : List (Caller K C R)) :
    heldCount (x :: xs) = x.held.length + heldCount xs := by
  simp [heldCount]

@[simp] theorem heldCount_append (xs ys : List (Caller K C R)) :
    heldCount (xs ++ ys) = heldCount xs + heldCount ys := by
  simp [heldCount]

@[simp] theorem sleeping_cons (x : Caller K C R) (xs : List (Caller K C R)) :
    sleeping (x :: xs) = sleeping xs + (if x.status.isAsleep then 1 else 0) := by
  simp [sleeping, List.countP_cons]

@[simp] theorem sleeping_append (xs ys : List (Caller K C R)) :
    sleeping (xs ++ ys) = sleeping xs + sleeping ys := by
  simp [sleeping]

@[simp] theorem awaiting_cons (x : Caller K C R) (xs : List (Caller K C R)) :
    awaiting (x :: xs) = awaiting xs + (if x.status.isAwaiting then 1 else 0) := by
  simp [awaiting, List.countP_cons]

@[simp] theorem awaiting_append (xs ys : List (Caller K C R)) :
    awaiting (xs ++ ys) = awaiting xs + awaiting ys := by
  simp [awaiting]

@[simp] theorem isAsleep_running (p : Client C R Unit) :
    (Status.running p).isAsleep = false := rfl

@[simp] theorem isAsleep_asleep (resume : Option C → Client C R Unit) :
    (Status.asleep resume).isAsleep = true := rfl

@[simp] theorem isAwaiting_get (k : Option C → Client C R Unit) :
    (Status.running (.call .getConnection k)).isAwaiting = true := rfl

@[simp] theorem isAwaiting_asleep (resume : Option C → Client C R Unit) :
    (Status.asleep resume).isAwaiting = false := rfl

theorem sleeping_eq_zero {xs : List (Caller K C R)} (h : ∀ x ∈ xs, x.status.isAsleep = false) :
    sleeping xs = 0 := by
  simpa [sleeping] using h

theorem length_le_heldCount {x : Caller K C R} {xs : List (Caller K C R)} (h : x ∈ xs) :
    x.held.length ≤ heldCount xs := by
  obtain ⟨pre, post, rfl⟩ := List.append_of_mem h
  simp
  omega

theorem Notified.kinds {xs ys : List (Caller K C R)} (h : Notified xs ys) :
    ys.map Caller.kind = xs.map Caller.kind := by
  rcases h with ⟨pre, post, hx⟩ | hnone
  · simp
  · rfl

/-- A thread that sleeps after a notification has slept before. -/
theorem Notified.asleep {xs ys : List (Caller K C R)} (h : Notified xs ys) {x : Caller K C R}
    (hx : x ∈ ys) (ha : x.status.isAsleep = true) : x ∈ xs := by
  rcases h with ⟨pre, post, hz⟩ | hnone
  · simp only [List.mem_append, List.mem_cons] at hx ⊢
    rcases hx with hx | rfl | hx
    · exact Or.inl hx
    · cases ha
    · exact Or.inr (Or.inr hx)
  · exact hx

/-- A notification wakes one thread up, or nobody sleeps. -/
theorem Notified.counts {xs ys : List (Caller K C R)} (h : Notified xs ys) :
    heldCount ys = heldCount xs ∧
      ((sleeping xs = sleeping ys + 1 ∧ awaiting ys = awaiting xs + 1) ∨
        (sleeping xs = 0 ∧ ys = xs)) := by
  rcases h with ⟨pre, post, hx⟩ | hnone
  · refine ⟨by simp, Or.inl ⟨?_, ?_⟩⟩
    · simp [hx]
      omega
    · simp [hx]
      omega
  · exact ⟨rfl, Or.inr ⟨sleeping_eq_zero hnone, rfl⟩⟩

/-- A thread that returns a connection neither sleeps nor is on its way to take one. -/
theorem counts_returning (pre post : List (Caller K C R)) {x : Caller K C R} {con : C}
    {k : Unit → Client C R Unit} (hx : x.status = .running (.call (.returnConnection con) k))
    (held : List C) (q : Client C R Unit) :
    sleeping (pre ++ { x with held := held, status := .running q } :: post)
        = sleeping (pre ++ x :: post) ∧
      awaiting (pre ++ x :: post)
        ≤ awaiting (pre ++ { x with held := held, status := .running q } :: post) := by
  constructor
  · simp [hx]
  · simp [hx, Status.isAwaiting]

/-! ## The queue -/

variable {p : Pool K C R} {ys : List (Caller K C R)}

/-- The connections that are idle or held by a thread. -/
def Pool.size (p : Pool K C R) : Nat := p.idle.length + heldCount p.callers

/-- While a thread sleeps, every idle connection has a thread on its way to take it. -/
def Pool.WakeSafe (p : Pool K C R) : Prop :=
  0 < sleeping p.callers → p.idle.length ≤ awaiting p.callers

/-- Taking a connection away. -/
theorem Pool.WakeSafe.take (hw : p.WakeSafe) {con : C} {rest : List C} (hi : p.idle = con :: rest) :
    Pool.WakeSafe { p with idle := rest } := by
  intro hpos
  have := hw hpos
  rw [hi, List.length_cons] at this
  dsimp only
  omega

/-- Pushing a connection and notifying. -/
theorem Pool.WakeSafe.notify (hw : p.WakeSafe) (con : C) (hn : Notified p.callers ys) :
    Pool.WakeSafe { p with idle := p.idle ++ [con], callers := ys } := by
  intro hpos
  dsimp only at hpos ⊢
  rw [List.length_append, List.length_singleton]
  rcases hn.counts.2 with ⟨hz, ha⟩ | ⟨hz, rfl⟩
  · have := hw (by omega)
    omega
  · omega

/-- Pushing a connection without notifying: nobody may sleep, or a thread has to be on its way that
no other connection is there for. -/
theorem Pool.wakeSafe_push (p : Pool K C R) (con : C) :
    Pool.WakeSafe { p with idle := p.idle ++ [con] } ↔
      (0 < sleeping p.callers → p.idle.length < awaiting p.callers) := by
  unfold Pool.WakeSafe
  dsimp only
  rw [List.length_append, List.length_singleton]
  exact Iff.rfl

end Threads

/-! ## The steps -/

section Steps

variable {K C Q : Type} {R : Q → Type} [DecidableEq C]

/-- The steps of the threads. A thread of kind `k` runs the programs that `ops k` allows, and new
threads are of the kinds that `arrives` allows. -/
inductive Pool.Step (ops : K → Client C R Unit → Prop) (arrives : K → Prop) :
    Pool K C R → Act K C R → Pool K C R → Prop where
  | arrive {p : Pool K C R} {kind : K} : arrives kind →
      Step ops arrives p .arrive
        { p with callers := { kind := kind, held := [], status := .running (.ret ()) } :: p.callers }
  | call {p : Pool K C R} {pre post : List (Caller K C R)} {x : Caller K C R}
      {q : Client C R Unit} :
      p.callers = pre ++ x :: post → x.status = .running (.ret ()) → ops x.kind q →
      Step ops arrives p .call
        { p with callers := pre ++ { x with status := .running q } :: post }
  | take {p : Pool K C R} {pre post : List (Caller K C R)} {x : Caller K C R}
      {k : Option C → Client C R Unit} {con : C} {rest : List C} :
      p.callers = pre ++ x :: post → x.status = .running (.call .getConnection k) →
      p.stopped = false → p.idle = con :: rest →
      Step ops arrives p .take
        { p with
          idle := rest
          callers := pre ++
            { x with held := con :: x.held, status := .running (k (some con)) } :: post }
  | sleep {p : Pool K C R} {pre post : List (Caller K C R)} {x : Caller K C R}
      {k : Option C → Client C R Unit} :
      p.callers = pre ++ x :: post → x.status = .running (.call .getConnection k) →
      p.stopped = false → p.idle = [] →
      Step ops arrives p (.sleep x)
        { p with callers := pre ++ { x with status := .asleep k } :: post }
  | wake {p : Pool K C R} {pre post : List (Caller K C R)} {x : Caller K C R}
      {resume : Option C → Client C R Unit} :
      p.callers = pre ++ x :: post → x.status = .asleep resume →
      Step ops arrives p .wake
        { p with
          callers := pre ++ { x with status := .running (.call .getConnection resume) } :: post }
  | refuse {p : Pool K C R} {pre post : List (Caller K C R)} {x : Caller K C R}
      {k : Option C → Client C R Unit} :
      p.callers = pre ++ x :: post → x.status = .running (.call .getConnection k) →
      p.stopped = true →
      Step ops arrives p .refuse
        { p with callers := pre ++ { x with status := .running (k none) } :: post }
  | giveBack {p : Pool K C R} {pre post callers : List (Caller K C R)} {x : Caller K C R}
      {con : C} {k : Unit → Client C R Unit} :
      p.callers = pre ++ x :: post → x.status = .running (.call (.returnConnection con) k) →
      p.stopped = false →
      Notified (pre ++ { x with held := x.held.erase con, status := .running (k ()) } :: post)
        callers →
      Step ops arrives p .giveBack { p with idle := p.idle ++ [con], callers := callers }
  | drop {p : Pool K C R} {pre post : List (Caller K C R)} {x : Caller K C R} {con : C}
      {k : Unit → Client C R Unit} :
      p.callers = pre ++ x :: post → x.status = .running (.call (.returnConnection con) k) →
      p.stopped = true →
      Step ops arrives p .drop
        { p with
          callers := pre ++
            { x with held := x.held.erase con, status := .running (k ()) } :: post }
  | query {p : Pool K C R} {pre post : List (Caller K C R)} {x : Caller K C R} {con : C} {q : Q}
      {k : R q → Client C R Unit} (r : R q) :
      p.callers = pre ++ x :: post → x.status = .running (.call (.query con q) k) →
      Step ops arrives p .query
        { p with callers := pre ++ { x with status := .running (k r) } :: post }

/-! ## What threads keep -/

variable {ops : K → Client C R Unit → Prop} {arrives : K → Prop} {p p' : Pool K C R}
  {a : Act K C R} {xs ys pre post : List (Caller K C R)} {x : Caller K C R}

/-- The thread accounts for the connections that it holds. -/
def Caller.Formed (limit : K → Nat) (x : Caller K C R) : Prop :=
  x.status.rest.Conforms (holds (limit x.kind)) (fun _ held => held = []) x.held

def Formed (limit : K → Nat) (xs : List (Caller K C R)) : Prop := ∀ x ∈ xs, x.Formed limit

variable {limit : K → Nat}

theorem formed_split :
    Formed limit (pre ++ x :: post) ↔ Formed limit pre ∧ x.Formed limit ∧ Formed limit post := by
  simp only [Formed, List.forall_mem_append, List.forall_mem_cons]

/-- Threads that have done nothing yet hold nothing. -/
theorem formed_start (kinds : List K) :
    Formed limit (kinds.map fun kind =>
      ({ kind := kind, held := [], status := .running (.ret ()) } : Caller K C R)) := by
  intro x hx
  obtain ⟨kind, -, rfl⟩ := List.mem_map.mp hx
  rfl

omit [DecidableEq C] in
theorem heldCount_start (kinds : List K) :
    heldCount (kinds.map fun kind =>
      ({ kind := kind, held := [], status := .running (.ret ()) } : Caller K C R)) = 0 := by
  simp [heldCount, Function.comp_def]

/-- A thread that moves leaves the others as they were. -/
theorem Formed.move (h : Formed limit (pre ++ x :: post)) {y : Caller K C R}
    (hy : x.Formed limit → y.Formed limit) : Formed limit (pre ++ y :: post) := by
  rw [formed_split] at h ⊢
  exact ⟨h.1, hy h.2.1, h.2.2⟩

theorem Formed.stop (h : Formed limit p.callers) : Formed limit p.stop.callers := by
  intro x hx
  obtain ⟨y, hy, rfl⟩ := List.mem_map.mp hx
  exact h y hy

theorem Formed.notified (h : Formed limit xs) (hn : Notified xs ys) : Formed limit ys := by
  rcases hn with ⟨pre, post, hx⟩ | hnone
  · refine h.move ?_
    intro hf
    rwa [Caller.Formed, hx] at hf
  · exact h

namespace Caller.Formed

theorem begins (h : x.Formed limit) (hx : x.status = .running (.ret ())) : x.held = [] := by
  rw [Caller.Formed, hx] at h
  exact h

theorem takes {k : Option C → Client C R Unit} (h : x.Formed limit)
    (hx : x.status.rest = .call .getConnection k) (con : C) :
    x.held.length < limit x.kind ∧
      (k (some con)).Conforms (holds (limit x.kind)) (fun _ held => held = []) (con :: x.held) := by
  rw [Caller.Formed, hx] at h
  obtain ⟨held, hnext, hk⟩ := h (some con)
  obtain ⟨hlt, hheld⟩ := Option.ite_none_right_eq_some.mp hnext
  cases hheld
  exact ⟨hlt, hk⟩

theorem refused {k : Option C → Client C R Unit} (h : x.Formed limit)
    (hx : x.status.rest = .call .getConnection k) :
    (k none).Conforms (holds (limit x.kind)) (fun _ held => held = []) x.held := by
  rw [Caller.Formed, hx] at h
  obtain ⟨held, hnext, hk⟩ := h none
  obtain ⟨-, hheld⟩ := Option.ite_none_right_eq_some.mp hnext
  cases hheld
  exact hk

/-- A thread gives back what it holds. -/
theorem gives {con : C} {k : Unit → Client C R Unit} (h : x.Formed limit)
    (hx : x.status = .running (.call (.returnConnection con) k)) :
    con ∈ x.held ∧
      (k ()).Conforms (holds (limit x.kind)) (fun _ held => held = []) (x.held.erase con) := by
  rw [Caller.Formed, hx] at h
  obtain ⟨held, hnext, hk⟩ := h ()
  obtain ⟨hcon, hheld⟩ := Option.ite_none_right_eq_some.mp hnext
  cases hheld
  exact ⟨hcon, hk⟩

/-- A thread queries a connection that it holds. -/
theorem answered {con : C} {q : Q} {k : R q → Client C R Unit} (h : x.Formed limit)
    (hx : x.status = .running (.call (.query con q) k)) (r : R q) :
    con ∈ x.held ∧ (k r).Conforms (holds (limit x.kind)) (fun _ held => held = []) x.held := by
  rw [Caller.Formed, hx] at h
  obtain ⟨held, hnext, hk⟩ := h r
  obtain ⟨hcon, hheld⟩ := Option.ite_none_right_eq_some.mp hnext
  cases hheld
  exact ⟨hcon, hk⟩

end Caller.Formed

/-- A thread that has come to the end of its program holds no connection, and one that gives a
connection back holds it. -/
def Caller.GivesBack (x : Caller K C R) : Prop :=
  (x.status = .running (.ret ()) → x.held = []) ∧
    ∀ con k, x.status = .running (.call (.returnConnection con) k) → con ∈ x.held

theorem Caller.Formed.givesBack (h : x.Formed limit) : x.GivesBack :=
  ⟨h.begins, fun _ _ hx => (h.gives hx).1⟩

/-- Programs that give back what they take leave every thread accounting for what it holds. -/
theorem Pool.Step.formed (hops : ∀ kind q, ops kind q → Balanced (limit kind) q)
    (hf : Formed limit p.callers) (h : Pool.Step ops arrives p a p') : Formed limit p'.callers := by
  rcases h with _ | ⟨hc, hx, hq⟩ | ⟨hc, hx⟩ | ⟨hc, hx⟩ | ⟨hc, hx⟩ | ⟨hc, hx⟩ | ⟨hc, hx, _, hn⟩ |
    ⟨hc, hx⟩ | ⟨r, hc, hx⟩
  · exact List.forall_mem_cons.mpr ⟨rfl, hf⟩
  all_goals rw [hc] at hf
  · refine hf.move ?_
    intro hform
    have hnil := hform.begins hx
    rw [Caller.Formed]
    dsimp only
    rw [hnil]
    exact hops _ _ hq _ [] (by simp)
  · refine hf.move ?_
    intro hform
    exact (hform.takes (by rw [hx]; rfl) _).2
  · refine hf.move ?_
    intro hform
    rwa [Caller.Formed, hx] at hform
  · refine hf.move ?_
    intro hform
    rwa [Caller.Formed, hx] at hform
  · refine hf.move ?_
    intro hform
    exact hform.refused (by rw [hx]; rfl)
  · refine Formed.notified (hf.move ?_) hn
    intro hform
    exact (hform.gives hx).2
  · refine hf.move ?_
    intro hform
    exact (hform.gives hx).2
  · refine hf.move ?_
    intro hform
    exact (hform.answered hx r).2

theorem Pool.Step.stopped (h : Pool.Step ops arrives p a p') : p'.stopped = p.stopped := by
  cases h <;> rfl

/-- A step changes no thread's kind, and the kinds of new threads are allowed. -/
theorem Pool.Step.kinds (h : Pool.Step ops arrives p a p') :
    p'.callers.map Caller.kind = p.callers.map Caller.kind ∨
      ∃ kind, arrives kind ∧ p'.callers.map Caller.kind = kind :: p.callers.map Caller.kind := by
  rcases h with harr | ⟨hc, _⟩ | ⟨hc, _⟩ | ⟨hc, _⟩ | ⟨hc, _⟩ | ⟨hc, _⟩ | ⟨hc, _, _, hn⟩ | ⟨hc, _⟩ |
    ⟨r, hc, _⟩
  · exact Or.inr ⟨_, harr, rfl⟩
  · simp [hc]
  · simp [hc]
  · simp [hc]
  · simp [hc]
  · simp [hc]
  · simp [hc, hn.kinds]
  · simp [hc]
  · simp [hc]

omit [DecidableEq C] in
/-- A thread that sleeps after another one has moved has slept before. -/
theorem asleep_of_move {y z : Caller K C R} (hy : y.status.isAsleep = false)
    (hz : z ∈ pre ++ y :: post) (ha : z.status.isAsleep = true) : z ∈ pre ++ x :: post := by
  simp only [List.mem_append, List.mem_cons] at hz ⊢
  rcases hz with hz | rfl | hz
  · exact Or.inl hz
  · rw [ha] at hy
    cases hy
  · exact Or.inr (Or.inr hz)

/-- Who sleeps has slept before, or goes to sleep with this step. -/
theorem Pool.Step.asleep (h : Pool.Step ops arrives p a p') {z : Caller K C R}
    (hz : z ∈ p'.callers) (ha : z.status.isAsleep = true) :
    z ∈ p.callers ∨ ∃ x ∈ p.callers, a = .sleep x ∧ z.held = x.held := by
  cases h with
  | arrive _ =>
    rcases List.mem_cons.mp hz with rfl | hz
    · cases ha
    · exact Or.inl hz
  | call hc _ _ | take hc _ _ _ | wake hc _ | refuse hc _ _ | drop hc _ _ | query _ hc _ =>
    rw [hc]
    exact Or.inl (asleep_of_move rfl hz ha)
  | giveBack hc _ _ hn =>
    rw [hc]
    exact Or.inl (asleep_of_move rfl (hn.asleep hz ha) ha)
  | sleep hc _ _ _ =>
    rw [hc]
    simp only [List.mem_append, List.mem_cons] at hz ⊢
    rcases hz with hz | rfl | hz
    · exact Or.inl (Or.inl hz)
    · exact Or.inr ⟨_, Or.inr (Or.inl rfl), rfl, rfl⟩
    · exact Or.inl (Or.inr (Or.inr hz))

/-! ## Conservation -/

/-- **No thread makes or loses a connection.** -/
theorem Pool.Step.size (hf : Formed limit p.callers) (hs : p.stopped = false)
    (h : Pool.Step ops arrives p a p') : p'.size = p.size := by
  unfold Pool.size
  rcases h with _ | ⟨hc, hx, hq⟩ | ⟨hc, hx, _, hi⟩ | ⟨hc, hx⟩ | ⟨hc, hx⟩ | ⟨hc, hx⟩ |
    ⟨hc, hx, _, hn⟩ | ⟨hc, hx, hstop⟩ | ⟨r, hc, hx⟩
  · simp
  all_goals rw [hc]
  · simp
  · simp [hi]
    omega
  · simp
  · simp
  · simp
  · rw [hc, formed_split] at hf
    have hcon := (hf.2.1.gives hx).1
    have hlen := List.length_erase_of_mem hcon
    have hpos := List.length_pos_of_mem hcon
    simp [hn.counts.1]
    omega
  · rw [hs] at hstop
    cases hstop
  · simp

/-! ## One connection -/

/-- How often the threads hold `con`. -/
def holdersOf (con : C) (xs : List (Caller K C R)) : Nat := (xs.map fun x => x.held.count con).sum

@[simp] theorem holdersOf_cons (con : C) (x : Caller K C R) (xs : List (Caller K C R)) :
    holdersOf con (x :: xs) = x.held.count con + holdersOf con xs := by
  simp [holdersOf]

@[simp] theorem holdersOf_append (con : C) (xs ys : List (Caller K C R)) :
    holdersOf con (xs ++ ys) = holdersOf con xs + holdersOf con ys := by
  simp [holdersOf]

theorem holdersOf_eq_zero {con : C} (h : ∀ x ∈ xs, x.held = []) : holdersOf con xs = 0 := by
  induction xs with
  | nil => rfl
  | cons x xs ih =>
    rw [holdersOf_cons, h x List.mem_cons_self, List.count_nil, Nat.zero_add]
    exact ih fun y hy => h y (List.mem_cons_of_mem _ hy)

theorem Notified.holdersOf (h : Notified xs ys) (con : C) :
    ConnPool.holdersOf con ys = ConnPool.holdersOf con xs := by
  rcases h with ⟨pre, post, hx⟩ | hnone
  · simp
  · rfl

/-- How often `con` is idle or held. -/
def Pool.holders (p : Pool K C R) (con : C) : Nat := p.idle.count con + holdersOf con p.callers

theorem Pool.holders_stop (p : Pool K C R) (con : C) : p.stop.holders con = p.holders con := by
  simp [Pool.holders, Pool.stop, holdersOf, Caller.awake, Function.comp_def]

theorem count_erase_add {held : List C} {con : C} (h : con ∈ held) (c : C) :
    (held.erase con).count c + [con].count c = held.count c := by
  have hpos := List.count_pos_iff.mpr h
  by_cases hc : con = c
  · subst hc
    rw [List.count_erase_self, List.count_singleton_self]
    omega
  · rw [List.count_erase_of_ne (Ne.symm hc), List.count_singleton, if_neg (by simpa using hc)]
    omega

/-- A connection that a thread drops is nowhere any more. -/
theorem Pool.Step.holders_drop (hf : Formed limit p.callers) (h : Pool.Step ops arrives p .drop p') :
    ∃ con, p.holders con = p'.holders con + 1 := by
  cases h with
  | @drop pre post x con k hc hx hstop =>
    rw [hc, formed_split] at hf
    have hcount := count_erase_add (hf.2.1.gives hx).1 con
    rw [List.count_singleton_self] at hcount
    refine ⟨con, ?_⟩
    simp [Pool.holders, hc]
    omega

/-- **Every other step leaves each connection as often as it is.** -/
theorem Pool.Step.holders (hf : Formed limit p.callers) (h : Pool.Step ops arrives p a p')
    (ha : a ≠ .drop) (con : C) : p'.holders con = p.holders con := by
  unfold Pool.holders
  cases h with
  | arrive _ => simp
  | take hc hx _ hi =>
    simp [hc, hi, List.count_cons]
    omega
  | @giveBack pre post callers x con' k hc hx _ hn =>
    rw [hc, formed_split] at hf
    have hcount := count_erase_add (hf.2.1.gives hx).1 con
    rw [hc, List.count_append, hn.holdersOf]
    simp only [holdersOf_append, holdersOf_cons]
    omega
  | drop _ _ _ => exact absurd rfl ha
  | call hc _ _ | sleep hc _ _ _ | wake hc _ | refuse hc _ _ | query _ hc _ => simp [hc]

/-! ## Wake-ups -/

/-- **The threads lose no wake-up.** -/
theorem Pool.Step.wakeSafe (hs : p.stopped = false) (hw : p.WakeSafe)
    (h : Pool.Step ops arrives p a p') : p'.WakeSafe := by
  unfold Pool.WakeSafe at *
  cases h with
  | arrive _ => simpa [Status.isAwaiting] using hw
  | call hc hx _ =>
    simp [hc, hx, Status.isAwaiting] at hw ⊢
    omega
  | take hc hx _ hi =>
    -- a connection goes with the thread that was on its way
    simp [hc, hx, hi] at hw ⊢
    omega
  | sleep _ _ _ hi => simp [hi]
  | wake hc hx =>
    simp [hc, hx] at hw ⊢
    omega
  | @giveBack pre post _ x con k hc hx _ hn =>
    -- one more connection, and one more thread on its way if any sleeps
    have hret := counts_returning pre post hx (x.held.erase con) (k ())
    rw [hc] at hw
    dsimp only
    intro hpos
    rw [List.length_append, List.length_singleton]
    rcases hn.counts.2 with ⟨hz, ha⟩ | ⟨hz, rfl⟩
    · have := hw (by omega)
      omega
    · omega
  | refuse _ _ hstop | drop _ _ hstop =>
    rw [hs] at hstop
    cases hstop
  | query r hc hx =>
    simp [hc, hx, Status.isAwaiting] at hw ⊢
    omega

/-! ## Running the threads -/

omit [DecidableEq C] in
/-- A list around one of its elements. -/
theorem exists_split {i : Nat} (h : xs[i]? = some x) :
    ∃ pre post, xs = pre ++ x :: post ∧ ∀ y, xs.set i y = pre ++ y :: post := by
  induction xs generalizing i with
  | nil => simp at h
  | cons z xs ih =>
    rcases i with _ | i
    · obtain rfl : z = x := by simpa using h
      exact ⟨[], xs, rfl, fun _ => rfl⟩
    · obtain ⟨pre, post, rfl, hset⟩ := ih (by simpa using h)
      exact ⟨z :: pre, post, rfl, fun y => by simp [hset]⟩

omit [DecidableEq C] in
/-- The first thread that sleeps wakes up. -/
def notifyFirst : List (Caller K C R) → List (Caller K C R)
  | [] => []
  | x :: xs =>
    match x.status with
    | .asleep resume => { x with status := .running (.call .getConnection resume) } :: xs
    | .running _ => x :: notifyFirst xs

omit [DecidableEq C] in
theorem notified_first (xs : List (Caller K C R)) : Notified xs (notifyFirst xs) := by
  induction xs with
  | nil => exact .nobody (by simp)
  | cons x xs ih =>
    unfold notifyFirst
    split
    · rename_i hx
      exact Notified.one [] xs hx
    · rename_i hx
      generalize notifyFirst xs = ys at ih
      rcases ih with @⟨pre, post, y, resume, hy⟩ | hnone
      · exact Notified.one (x :: pre) post hy
      · refine .nobody ?_
        simpa [hx] using hnone

/-- The thread at a place of the list takes its next step; `answer` answers its queries. -/
def Pool.advance (answer : (q : Q) → R q) (p : Pool K C R) (i : Nat) :
    Option (Act K C R × Pool K C R) :=
  match p.callers[i]? with
  | none => none
  | some x =>
    match x.status with
    | .asleep resume => some (.wake, { p with
        callers := p.callers.set i { x with status := .running (.call .getConnection resume) } })
    | .running (.ret ()) => none
    | .running (.call .getConnection k) =>
      if p.stopped then
        some (.refuse, { p with callers := p.callers.set i { x with status := .running (k none) } })
      else
        match p.idle with
        | [] => some (.sleep x, { p with
            callers := p.callers.set i { x with status := .asleep k } })
        | con :: rest => some (.take, { p with
            idle := rest
            callers := p.callers.set i
              { x with held := con :: x.held, status := .running (k (some con)) } })
    | .running (.call (.returnConnection con) k) =>
      let callers := p.callers.set i
        { x with held := x.held.erase con, status := .running (k ()) }
      if p.stopped then some (.drop, { p with callers := callers })
      else some (.giveBack, { p with idle := p.idle ++ [con], callers := notifyFirst callers })
    | .running (.call (.query _ q) k) => some (.query, { p with
        callers := p.callers.set i { x with status := .running (k (answer q)) } })

theorem Pool.advance_step {answer : (q : Q) → R q} {i : Nat}
    (h : p.advance answer i = some (a, p')) : Pool.Step ops arrives p a p' := by
  unfold Pool.advance at h
  split at h
  · cases h
  · rename_i x hi
    obtain ⟨pre, post, hc, hset⟩ := exists_split hi
    simp only [hset] at h
    split at h
    · rename_i hx
      cases h
      exact .wake hc hx
    · cases h
    · rename_i hx
      split at h
      · rename_i hstop
        cases h
        exact .refuse hc hx hstop
      · rename_i hstop
        have hrun : p.stopped = false := by simpa using hstop
        split at h
        · rename_i hidle
          cases h
          exact .sleep hc hx hrun hidle
        · rename_i hidle
          cases h
          exact .take hc hx hrun hidle
    · rename_i hx
      split at h
      · rename_i hstop
        cases h
        exact .drop hc hx hstop
      · rename_i hstop
        cases h
        exact .giveBack hc hx (by simpa using hstop) (notified_first _)
    · rename_i hx
      cases h
      exact .query _ hc hx

/-- The thread at a place of the list begins the program that `f` gives to its kind. -/
def Pool.begin (p : Pool K C R) (i : Nat) (f : K → Client C R Unit) : Option (Pool K C R) :=
  match p.callers[i]? with
  | none => none
  | some x =>
    match x.status with
    | .running (.ret ()) =>
      some { p with callers := p.callers.set i { x with status := .running (f x.kind) } }
    | _ => none

theorem Pool.begin_step {i : Nat} {f : K → Client C R Unit} (hf : ∀ kind, ops kind (f kind))
    (h : p.begin i f = some p') : Pool.Step ops arrives p .call p' := by
  unfold Pool.begin at h
  split at h
  · cases h
  · rename_i x hi
    obtain ⟨pre, post, hc, hset⟩ := exists_split hi
    split at h
    · rename_i hx
      cases h
      rw [hset]
      exact .call hc hx (hf x.kind)
    · cases h

end Steps

end ConnPool
