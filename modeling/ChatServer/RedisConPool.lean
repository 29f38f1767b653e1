import ChatServer.Connections
import ChatServer.Lib.Run

/-!
# The pool of Redis connections

`infra/redis/RedisConPool.cpp`: any number of threads that call operations of `RedisMgr`, the check
thread with `checkThreadPro` and `reconnect`, and a thread that calls `close`. A step is a critical
section of `_mutex`, or what a thread does between two of them. Only `close` does more than one thing
in its critical section: it joins the check thread there. Every PING and every reconnect may fail.
-/

namespace ChatServer

open Interaction Prog Transition ConnPool

namespace RedisConPool

/-- What a command on a connection returns. -/
abbrev Answer (_ : List Bytes) : Type := Option Reply

/-! ## The check thread -/

/-- Where the check thread is. -/
inductive CheckPc where
  /-- Asleep, or before `while (!_b_stop)`. -/
  | resting
  /-- Before `_counter++`. -/
  | counting
  /-- Before the lock under which the size of the queue is read. -/
  | sizing
  /-- In the first loop, with `left` iterations to come, before its test of `_b_stop`. -/
  | looping (left : Nat)
  /-- Before the lock in `getConNonBlock`. -/
  | taking (left : Nat)
  /-- `con` has been taken from the queue, and a PING is made. -/
  | pinging (con : Conn) (left : Nat)
  /-- `con` has been freed, and `_fail_count` does not count it yet. -/
  | freed (left : Nat)
  /-- Before the lock in `returnConnection`. -/
  | returning (con : Conn) (left : Nat)
  /-- Before `while (_fail_count > 0)`. -/
  | repairing
  /-- In `reconnect`, before it has an authenticated connection. -/
  | connecting
  /-- In `reconnect`, before the lock under which the new connection is pushed. -/
  | pushing (con : Conn)
  /-- `reconnect` has pushed, and `_fail_count` still counts the connection. -/
  | restored
  | ended
  deriving DecidableEq, Repr

namespace CheckPc

/-- The connections that the check thread holds. -/
def holds : CheckPc → Nat
  | .pinging _ _ | .returning _ _ => 1
  | _ => 0

/-- In the middle of the failure or reconnect bookkeeping. -/
def bookkeeping : CheckPc → Bool
  | .freed _ | .pushing _ | .restored => true
  | _ => false

/-- The connections that are missing and not in `_fail_count`. -/
def uncounted : CheckPc → Nat
  | .freed _ => 1
  | _ => 0

/-- The connections that are both in the queue and in `_fail_count`. -/
def counted : CheckPc → Nat
  | .restored => 1
  | _ => 0

/-- `reconnect` has been called for a connection that `_fail_count` counts. -/
def mending : CheckPc → Bool
  | .connecting | .pushing _ | .restored => true
  | _ => false

/-- The check thread waits for the mutex, or is about to lock it. -/
def locks : CheckPc → Bool
  | .sizing | .taking _ | .returning _ _ | .pushing _ => true
  | _ => false

end CheckPc

/-- Where the thread that calls `close` is. -/
inductive ClosePc where
  | running
  /-- It has the mutex. -/
  | locked
  /-- It has set `_b_stop`. -/
  | stopped
  /-- It has notified all, and waits for the check thread to end. It still has the mutex. -/
  | joining
  /-- `close` has returned. -/
  | closed
  deriving DecidableEq, Repr

namespace ClosePc

/-- `close` has the mutex. -/
def inside : ClosePc → Bool
  | .locked | .stopped | .joining => true
  | _ => false

end ClosePc

/-- `next` is the name of the next new connection. -/
structure State (K : Type) where
  pool : Pool K Conn Answer
  check : CheckPc
  counter : Nat
  failCount : Nat
  closer : ClosePc
  next : Conn

inductive Act (K : Type) where
  | caller (a : ConnPool.Act K Conn Answer)
  -- the loop of the check thread
  | begin
  | finish
  | count
  -- checkThreadPro
  | size
  | test
  | leave
  | takeOut
  | runOut
  | pong
  | failed
  | addFailure
  | pushBack
  | dropped
  | retry
  | repaired
  -- reconnect
  | connectFails
  | connect
  | push
  | restore
  -- close
  | lock
  | stop
  | notifyAll
  | join

variable {K : Type}

/-- The steps of a thread for which it locks the mutex. -/
def Act.locks : Act K → Bool
  | .caller a =>
    match a with
    | .take | .sleep _ | .refuse | .giveBack | .drop => true
    | _ => false
  | .size | .takeOut | .runOut | .pushBack | .dropped | .push => true
  | _ => false

/-- The steps of the threads while the mutex is free for those that lock it. -/
inductive Move (ops : K → RedisClient Unit → Prop) (arrives : K → Prop) :
    State K → Act K → State K → Prop where
  | caller {s : State K} {a : ConnPool.Act K Conn Answer} {p : Pool K Conn Answer} :
      Pool.Step ops arrives s.pool a p → Move ops arrives s (.caller a) { s with pool := p }
  | begin {s : State K} : s.check = .resting → s.pool.stopped = false →
      Move ops arrives s .begin { s with check := .counting }
  | finish {s : State K} : s.check = .resting → s.pool.stopped = true →
      Move ops arrives s .finish { s with check := .ended }
  | count {s : State K} : s.check = .counting →
      Move ops arrives s .count
        { s with
          check := if s.counter + 1 ≥ 60 then .sizing else .resting
          counter := s.counter + 1 }
  | size {s : State K} : s.check = .sizing →
      Move ops arrives s .size { s with check := .looping s.pool.idle.length }
  | test {s : State K} {left : Nat} : s.check = .looping (left + 1) → s.pool.stopped = false →
      Move ops arrives s .test { s with check := .taking left }
  | leave {s : State K} {left : Nat} : s.check = .looping left →
      left = 0 ∨ s.pool.stopped = true →
      Move ops arrives s .leave { s with check := .repairing }
  | takeOut {s : State K} {left : Nat} {con : Conn} {rest : List Conn} :
      s.check = .taking left → s.pool.stopped = false → s.pool.idle = con :: rest →
      Move ops arrives s .takeOut
        { s with pool := { s.pool with idle := rest }, check := .pinging con left }
  | runOut {s : State K} {left : Nat} : s.check = .taking left →
      s.pool.stopped = true ∨ s.pool.idle = [] →
      Move ops arrives s .runOut { s with check := .repairing }
  | pong {s : State K} {con : Conn} {left : Nat} : s.check = .pinging con left →
      Move ops arrives s .pong { s with check := .returning con left }
  /-- The connection has an error, or the reply is null or an error: `redisFree`. -/
  | failed {s : State K} {con : Conn} {left : Nat} : s.check = .pinging con left →
      Move ops arrives s .failed { s with check := .freed left }
  | addFailure {s : State K} {left : Nat} : s.check = .freed left →
      Move ops arrives s .addFailure
        { s with check := .looping left, failCount := s.failCount + 1 }
  | pushBack {s : State K} {con : Conn} {left : Nat} {callers : List (Caller K Conn Answer)} :
      s.check = .returning con left → s.pool.stopped = false →
      Notified s.pool.callers callers →
      Move ops arrives s .pushBack
        { s with
          pool := { s.pool with idle := s.pool.idle ++ [con], callers := callers }
          check := .looping left }
  | dropped {s : State K} {con : Conn} {left : Nat} : s.check = .returning con left →
      s.pool.stopped = true →
      Move ops arrives s .dropped { s with check := .looping left }
  | retry {s : State K} : s.check = .repairing → 0 < s.failCount →
      Move ops arrives s .retry { s with check := .connecting }
  /-- The pass is over: `_counter = 0`, and the thread sleeps. -/
  | repaired {s : State K} : s.check = .repairing → s.failCount = 0 →
      Move ops arrives s .repaired { s with check := .resting, counter := 0 }
  /-- `redisConnect` or `AUTH` fails, which ends the pass as well. -/
  | connectFails {s : State K} : s.check = .connecting →
      Move ops arrives s .connectFails { s with check := .resting, counter := 0 }
  | connect {s : State K} : s.check = .connecting →
      Move ops arrives s .connect { s with check := .pushing s.next, next := s.next + 1 }
  /-- Unlike `returnConnection`, `reconnect` does not notify. -/
  | push {s : State K} {con : Conn} : s.check = .pushing con →
      Move ops arrives s .push
        { s with pool := { s.pool with idle := s.pool.idle ++ [con] }, check := .restored }
  | restore {s : State K} : s.check = .restored →
      Move ops arrives s .restore
        { s with check := .repairing, failCount := s.failCount - 1 }
  | lock {s : State K} : s.closer = .running →
      Move ops arrives s .lock { s with closer := .locked }
  | stop {s : State K} : s.closer = .locked →
      Move ops arrives s .stop
        { s with pool := { s.pool with stopped := true }, closer := .stopped }
  | notifyAll {s : State K} : s.closer = .stopped →
      Move ops arrives s .notifyAll { s with pool := s.pool.stop, closer := .joining }
  | join {s : State K} : s.closer = .joining → s.check = .ended →
      Move ops arrives s .join { s with closer := .closed }

/-- A step: a thread that locks the mutex does so while `close` does not have it. -/
structure Step (ops : K → RedisClient Unit → Prop) (arrives : K → Prop) (s : State K) (a : Act K)
    (t : State K) : Prop where
  free : a.locks = true → s.closer.inside = false
  move : Move ops arrives s a t

/-- The pool after its constructor, which has put the connections `idle` into it. -/
def State.init (idle : List Conn) (callers : List K) : State K where
  pool :=
    { idle := idle, stopped := false
      callers := callers.map fun kind => { kind := kind, held := [], status := .running (.ret ()) } }
  check := .resting
  counter := 0
  failCount := 0
  closer := .running
  next := idle.length

/-! ## Moves -/

/-- What happens next: the thread at a place of the list goes on or begins an operation, the check
thread goes on, its PING or its `redisConnect` succeeding or not, or the thread that closes the pool
goes on. -/
inductive Choice (K : Type) where
  | advance (i : Nat)
  | call (i : Nat) (f : K → RedisClient Unit)
  | check (good : Bool)
  | close

/-- The next step of the check thread. -/
def State.checkStep (good : Bool) (s : State K) : Option (Act K × State K) :=
  match s.check with
  | .resting =>
    if s.pool.stopped then some (.finish, { s with check := .ended })
    else some (.begin, { s with check := .counting })
  | .counting => some (.count,
      { s with
        check := if s.counter + 1 ≥ 60 then .sizing else .resting
        counter := s.counter + 1 })
  | .sizing => some (.size, { s with check := .looping s.pool.idle.length })
  | .looping 0 => some (.leave, { s with check := .repairing })
  | .looping (left + 1) =>
    if s.pool.stopped then some (.leave, { s with check := .repairing })
    else some (.test, { s with check := .taking left })
  | .taking left =>
    if s.pool.stopped then some (.runOut, { s with check := .repairing })
    else
      match s.pool.idle with
      | [] => some (.runOut, { s with check := .repairing })
      | con :: rest => some (.takeOut,
          { s with pool := { s.pool with idle := rest }, check := .pinging con left })
  | .pinging con left =>
    if good then some (.pong, { s with check := .returning con left })
    else some (.failed, { s with check := .freed left })
  | .freed left => some (.addFailure,
      { s with check := .looping left, failCount := s.failCount + 1 })
  | .returning con left =>
    if s.pool.stopped then some (.dropped, { s with check := .looping left })
    else some (.pushBack, { s with
      pool := { s.pool with
        idle := s.pool.idle ++ [con]
        callers := notifyFirst s.pool.callers }
      check := .looping left })
  | .repairing =>
    if 0 < s.failCount then some (.retry, { s with check := .connecting })
    else some (.repaired, { s with check := .resting, counter := 0 })
  | .connecting =>
    if good then some (.connect, { s with check := .pushing s.next, next := s.next + 1 })
    else some (.connectFails, { s with check := .resting, counter := 0 })
  | .pushing con => some (.push,
      { s with pool := { s.pool with idle := s.pool.idle ++ [con] }, check := .restored })
  | .restored => some (.restore, { s with check := .repairing, failCount := s.failCount - 1 })
  | .ended => none

/-- The next step of the thread that calls `close`. -/
def State.closeStep (s : State K) : Option (Act K × State K) :=
  match s.closer with
  | .running => some (.lock, { s with closer := .locked })
  | .locked =>
    some (.stop, { s with pool := { s.pool with stopped := true }, closer := .stopped })
  | .stopped => some (.notifyAll, { s with pool := s.pool.stop, closer := .joining })
  | .joining => if s.check = .ended then some (.join, { s with closer := .closed }) else none
  | .closed => none

/-- What a choice does, if the mutex is free; `answer` answers the commands of the threads. -/
def State.choose (answer : (q : List Bytes) → Answer q) : Choice K → State K →
    Option (Act K × State K)
  | .advance i, s => (s.pool.advance answer i).map fun x => (.caller x.1, { s with pool := x.2 })
  | .call i f, s => (s.pool.begin i f).map fun p => (.caller .call, { s with pool := p })
  | .check good, s => s.checkStep good
  | .close, s => s.closeStep

/-- Carry out a choice, if it is possible. -/
def State.move (answer : (q : List Bytes) → Answer q) (m : Choice K) (s : State K) :
    Option (Act K × State K) :=
  match s.choose answer m with
  | none => none
  | some (a, t) => if a.locks && s.closer.inside then none else some (a, t)

section Runs

variable {ops : K → RedisClient Unit → Prop} {arrives : K → Prop} {limit : K → Nat} {s t : State K}
  {a : Act K} {idle : List Conn} {kinds : List K} {tr : List (Act K × State K)}

theorem checkStep_move {good : Bool} (h : s.checkStep good = some (a, t)) :
    Move ops arrives s a t := by
  unfold State.checkStep at h
  split at h
  · rename_i hc
    split at h
    · rename_i hstop
      cases h
      exact .finish hc hstop
    · rename_i hstop
      cases h
      exact .begin hc (by simpa using hstop)
  · rename_i hc
    cases h
    exact .count hc
  · rename_i hc
    cases h
    exact .size hc
  · rename_i hc
    cases h
    exact .leave hc (Or.inl rfl)
  · rename_i hc
    split at h
    · rename_i hstop
      cases h
      exact .leave hc (Or.inr hstop)
    · rename_i hstop
      cases h
      exact .test hc (by simpa using hstop)
  · rename_i hc
    split at h
    · rename_i hstop
      cases h
      exact .runOut hc (Or.inl hstop)
    · rename_i hstop
      split at h
      · rename_i hidle
        cases h
        exact .runOut hc (Or.inr hidle)
      · rename_i hidle
        cases h
        exact .takeOut hc (by simpa using hstop) hidle
  · rename_i hc
    split at h
    · cases h
      exact .pong hc
    · cases h
      exact .failed hc
  · rename_i hc
    cases h
    exact .addFailure hc
  · rename_i hc
    split at h
    · rename_i hstop
      cases h
      exact .dropped hc hstop
    · rename_i hstop
      cases h
      exact .pushBack hc (by simpa using hstop) (notified_first _)
  · rename_i hc
    split at h
    · rename_i hpos
      cases h
      exact .retry hc hpos
    · rename_i hpos
      cases h
      exact .repaired hc (by omega)
  · rename_i hc
    split at h
    · cases h
      exact .connect hc
    · cases h
      exact .connectFails hc
  · rename_i hc
    cases h
    exact .push hc
  · rename_i hc
    cases h
    exact .restore hc
  · cases h

theorem closeStep_move (h : s.closeStep = some (a, t)) : Move ops arrives s a t := by
  unfold State.closeStep at h
  split at h
  · rename_i hc
    cases h
    exact .lock hc
  · rename_i hc
    cases h
    exact .stop hc
  · rename_i hc
    cases h
    exact .notifyAll hc
  · rename_i hc
    split at h
    · rename_i hended
      cases h
      exact .join hc hended
    · cases h
  · cases h

theorem choose_move {answer : (q : List Bytes) → Answer q} {m : Choice K}
    (hm : ∀ i f, m = .call i f → ∀ kind, ops kind (f kind)) (h : s.choose answer m = some (a, t)) :
    Move ops arrives s a t := by
  cases m with
  | advance i =>
    obtain ⟨⟨b, p⟩, hp, he⟩ := Option.map_eq_some_iff.mp h
    cases he
    exact .caller (Pool.advance_step hp)
  | call i f =>
    obtain ⟨p, hp, he⟩ := Option.map_eq_some_iff.mp h
    cases he
    exact .caller (Pool.begin_step (hm i f rfl) hp)
  | check good => exact checkStep_move h
  | close => exact closeStep_move h

/-- A choice that is carried out is a step, if the operations that threads begin are allowed. -/
theorem move_step {answer : (q : List Bytes) → Answer q} {m : Choice K}
    (hm : ∀ i f, m = .call i f → ∀ kind, ops kind (f kind)) (h : s.move answer m = some (a, t)) :
    Step ops arrives s a t := by
  unfold State.move at h
  split at h
  · cases h
  · rename_i b u hchoose
    split at h
    · cases h
    · rename_i hlock
      cases h
      refine ⟨?_, choose_move hm hchoose⟩
      intro hl
      simpa [hl] using hlock

theorem formed_init (kinds : List K) : Formed limit (State.init idle kinds).pool.callers :=
  formed_start kinds

theorem heldCount_init (idle : List Conn) (kinds : List K) :
    heldCount (State.init idle kinds).pool.callers = 0 :=
  heldCount_start kinds

theorem Move.formed (hops : ∀ kind q, ops kind q → Balanced (limit kind) q) (hf : Formed limit s.pool.callers)
    (h : Move ops arrives s a t) : Formed limit t.pool.callers := by
  cases h with
  | caller h => exact h.formed hops hf
  | pushBack _ _ hn => exact hf.notified hn
  | notifyAll _ => exact hf.stop
  | _ => exact hf

theorem Move.stopped (h : Move ops arrives s a t) (ht : t.pool.stopped = false) :
    s.pool.stopped = false := by
  cases h with
  | caller h => rwa [h.stopped] at ht
  | stop _ | notifyAll _ => cases ht
  | _ => exact ht

/-! ## Conservation -/

/-- The account of the `n` connections that the constructor put into the pool. -/
structure Account (limit : K → Nat) (n : Nat) (s : State K) : Prop where
  formed : Formed limit s.pool.callers
  sum : s.pool.stopped = false →
    s.pool.size + s.check.holds + s.check.uncounted + s.failCount = n + s.check.counted
  mending : s.check.mending = true → 0 < s.failCount

/-- What one step does to the sum. -/
theorem Account.sum_move {n : Nat} (hi : Account limit n s) (h : Move ops arrives s a t)
    (ht : t.pool.stopped = false) :
    t.pool.size + t.check.holds + t.check.uncounted + t.failCount = n + t.check.counted := by
  have hs := h.stopped ht
  have hsum := hi.sum hs
  have hmend := hi.mending
  unfold Pool.size at *
  cases h with
  | caller h =>
    have hsize := h.size hi.formed hs
    unfold Pool.size at hsize
    dsimp only
    omega
  | count hc =>
    dsimp only
    split <;> simp [hc, CheckPc.holds, CheckPc.counted, CheckPc.uncounted] at hsum ⊢ <;> omega
  | takeOut hc _ hidle =>
    simp [hc, hidle, CheckPc.holds, CheckPc.counted, CheckPc.uncounted] at hsum ⊢
    omega
  | pushBack hc _ hn =>
    simp [hc, hn.counts.1, CheckPc.holds, CheckPc.counted, CheckPc.uncounted] at hsum ⊢
    omega
  | dropped _ hstop =>
    rw [hs] at hstop
    cases hstop
  | restore hc =>
    have hpos := hmend (by rw [hc]; rfl)
    simp [hc, CheckPc.holds, CheckPc.counted, CheckPc.uncounted] at hsum ⊢
    omega
  | stop _ | notifyAll _ => cases ht
  | lock _ | join _ _ => exact hsum
  | begin hc _ | finish hc _ | size hc | test hc _ | leave hc _ | runOut hc _ | pong hc | failed hc
  | addFailure hc | retry hc _ | repaired hc _ | connectFails hc | connect hc | push hc =>
    simp [hc, CheckPc.holds, CheckPc.counted, CheckPc.uncounted] at hsum ⊢
    omega

theorem Account.move {n : Nat} (hops : ∀ kind q, ops kind q → Balanced (limit kind) q) (hi : Account limit n s)
    (h : Move ops arrives s a t) : Account limit n t := by
  refine ⟨h.formed hops hi.formed, hi.sum_move h, ?_⟩
  have hmend := hi.mending
  cases h with
  | retry hc hpos => exact fun _ => hpos
  | connect hc | push hc =>
    intro _
    exact hmend (by rw [hc]; rfl)
  | count hc =>
    dsimp only
    split <;> nofun
  | caller _ | lock _ | stop _ | notifyAll _ | join _ _ => exact hmend
  | _ => exact nofun

theorem Account.run {n : Nat} {s₀ : State K} (hops : ∀ kind q, ops kind q → Balanced (limit kind) q)
    (h0 : Account limit n s₀) (h : Run (Step ops arrives) s₀ tr s) : Account limit n s := by
  refine Run.invariant (P := fun _ s => Account limit n s) h0 ?_ h
  intro tr s a t _ hi hs
  exact hi.move hops hs.move

theorem account_init (limit : K → Nat) (idle : List Conn) (kinds : List K) :
    Account limit idle.length (State.init idle kinds) := by
  refine ⟨formed_init kinds, ?_, nofun⟩
  intro _
  rw [Pool.size, heldCount_init]
  rfl

theorem Account.of_run (hops : ∀ kind q, ops kind q → Balanced (limit kind) q)
    (h : Run (Step ops arrives) (.init idle kinds) tr s) : Account limit idle.length s :=
  (account_init limit idle kinds).run hops h

/-! ## Wake-ups -/

/-- No wake-up is lost, as long as the pool has not been stopped. -/
def State.WakeSafe (s : State K) : Prop := s.pool.stopped = false → s.pool.WakeSafe

/-- If `reconnect` pushes its connection, then nobody sleeps, or a thread is on its way for whom no
other connection is there. -/
def PushSafe (s : State K) (a : Act K) : Prop :=
  a = .push → s.pool.stopped = false → 0 < sleeping s.pool.callers →
    s.pool.idle.length < awaiting s.pool.callers

/-- **The push of `reconnect` is the only step that can lose a wake-up.** -/
theorem Move.wakeSafe (hw : s.WakeSafe) (h : Move ops arrives s a t) :
    t.WakeSafe ↔ PushSafe s a := by
  cases h with
  | push hc =>
    constructor
    · intro ht _ hs
      exact (s.pool.wakeSafe_push _).mp (ht hs)
    · intro hp hs
      exact (s.pool.wakeSafe_push _).mpr (hp rfl hs)
  | caller h =>
    refine iff_of_true ?_ nofun
    intro ht
    have hs := h.stopped.symm.trans ht
    exact h.wakeSafe hs (hw hs)
  | takeOut hc _ hidle => exact iff_of_true (fun hs => (hw hs).take hidle) nofun
  | pushBack hc _ hn => exact iff_of_true (fun hs => (hw hs).notify _ hn) nofun
  | stop _ | notifyAll _ => exact iff_of_true nofun nofun
  | _ => exact iff_of_true hw nofun

/-! ## Closing -/

/-- `close` waits for the check thread to end, and the check thread waits for the mutex. -/
def State.Deadlock (s : State K) : Prop := s.closer = .joining ∧ s.check.locks = true

/-- A deadlock is final. -/
theorem State.Deadlock.step (hd : s.Deadlock) (h : Step ops arrives s a t) : t.Deadlock := by
  obtain ⟨hclose, hlocks⟩ := hd
  obtain ⟨hfree, hmove⟩ := h
  have hinside : s.closer.inside = true := by rw [hclose]; rfl
  cases hmove with
  | caller h => exact ⟨hclose, hlocks⟩
  | size _ | takeOut _ _ _ | runOut _ _ | pushBack _ _ _ | dropped _ _ | push _ =>
    -- the check thread does not get the mutex
    rw [hfree rfl] at hinside
    cases hinside
  | begin hc _ | finish hc _ | count hc | test hc _ | leave hc _ | pong hc | failed hc | addFailure hc
  | retry hc _ | repaired hc _ | connectFails hc | connect hc | restore hc =>
    rw [hc] at hlocks
    cases hlocks
  | lock hc | stop hc | notifyAll hc =>
    rw [hclose] at hc
    cases hc
  | join _ hc =>
    rw [hc] at hlocks
    cases hlocks

/-- While `close` waits for the check thread, the pool has been stopped. -/
theorem stopped_of_run (h : Run (Step ops arrives) (.init idle kinds) tr s) :
    s.closer = .stopped ∨ s.closer = .joining → s.pool.stopped = true := by
  refine Run.invariant
    (P := fun _ s => s.closer = .stopped ∨ s.closer = .joining → s.pool.stopped = true) ?_ ?_ h
  · exact nofun
  · intro tr s a t _ hi hs
    obtain ⟨-, hmove⟩ := hs
    cases hmove with
    | caller h => rwa [h.stopped]
    | lock _ | join _ _ => exact nofun
    | stop _ | notifyAll _ => exact fun _ => rfl
    | _ => exact hi

/-- `close` begins to wait for the check thread only when that does not wait for the mutex; and while
`close` waits, the check thread begins no pass, no PING of it is answered, and no `reconnect` of it
succeeds. -/
def CloseSafe (s : State K) (a : Act K) : Prop :=
  (a = .notifyAll → s.check.locks = false) ∧
    (s.closer = .joining → a ≠ .pong ∧ a ≠ .connect ∧ (a = .count → s.counter + 1 < 60))

/-- **How `close` comes to a deadlock.** -/
theorem Step.deadlock (hd : ¬ s.Deadlock) (hstop : s.closer = .joining → s.pool.stopped = true)
    (h : Step ops arrives s a t) : ¬ t.Deadlock ↔ CloseSafe s a := by
  obtain ⟨hfree, hmove⟩ := h
  unfold State.Deadlock CloseSafe at *
  cases hmove with
  | caller h => simpa using hd
  | count hc =>
    dsimp only
    split
    · rename_i hpass
      simp [CheckPc.locks, Nat.not_lt.mpr hpass]
    · rename_i hpass
      simp [CheckPc.locks, Nat.not_le.mp hpass]
  | test hc hrun =>
    -- the first loop is not continued once `_b_stop` is set
    have hclose : s.closer ≠ .joining := by
      intro hclose
      rw [hstop hclose] at hrun
      cases hrun
    simp [hclose]
  | pong hc | connect hc => simp [CheckPc.locks]
  | notifyAll hc => simp [hc]
  | lock hc | stop hc => simp [hc]
  | join hc _ => simp [hc]
  | _ => simp [CheckPc.locks]

/-- **When `close` does not come to a deadlock.** From a pool with any number of connections and any
callers: no state of a run has `close` in its `join` while the check thread waits for the mutex exactly
if each step of the run keeps to `CloseSafe`. -/
theorem closing_iff (h : Run (Step ops arrives) (.init idle kinds) tr s) :
    Throughout (Step ops arrives) (.init idle kinds) (fun _ s => ¬ s.Deadlock) tr ↔
      Each (Step ops arrives) (.init idle kinds) (fun _ s a => CloseSafe s a) tr := by
  refine Run.throughout_iff_each ?_ ?_ h
  · rintro ⟨hclose, -⟩
    cases hclose
  · intro tr s a t hr hall hs
    refine hs.deadlock (hall tr s hr (List.prefix_refl _)) ?_
    intro hclose
    exact stopped_of_run hr (Or.inr hclose)

/-- Threads of one kind run any operation, and new ones start at any time. -/
abbrev AnyStep : State Unit → Act Unit → State Unit → Prop :=
  Step (fun _ q => ∃ o : RedisMgr.Operation, q = o.run) fun _ => True

/-- The steps of choices in which threads begin nothing. -/
theorem follow_choices (ms : List (Choice Unit)) (hms : ∀ i f, .call i f ∉ ms) (s : State Unit) :
    Run AnyStep s (follow (State.move fun _ => none) s ms)
      (final s (follow (State.move fun _ => none) s ms)) := by
  refine follow_run ?_ s
  intro m hm s a t hmove
  refine move_step ?_ hmove
  rintro i f rfl
  exact absurd hm (hms i f)

/-- The check thread sleeps when `close` is called. -/
theorem closing_idle : ∃ tr, ∃ s : State Unit, Run AnyStep (.init [0] []) tr s ∧
    s.closer = .closed ∧
    (Throughout AnyStep (.init [0] []) (fun _ s => ¬ s.Deadlock) tr ↔
      Each AnyStep (.init [0] []) (fun _ s a => CloseSafe s a) tr) := by
  have hrun := follow_choices [.close, .close, .close, .check true, .close] (by simp)
    (.init [0] [])
  refine ⟨_, _, hrun, ?_, closing_iff hrun⟩
  decide

/-- The check thread is about to take a connection out of the queue when `close` locks the mutex. -/
theorem closing_fails : ¬ ∀ tr s, Run AnyStep (.init [0] []) tr s → ¬ s.Deadlock := by
  intro h
  have hrun := follow_choices
    (List.replicate 122 (.check true) ++ [.close, .close, .close]) (by simp) (.init [0] [])
  refine h _ _ hrun ⟨?_, ?_⟩
  · decide +kernel
  · decide +kernel

end Runs

end RedisConPool

end ChatServer
