import ChatServer.Connections
import ChatServer.Lib.Run

/-!
# The pool of database connections

`infra/mysql/MySqlPool.cpp`: any number of threads that call functions of `MySqlDao`, and the check
thread with `checkConnection` and `reconnect`. A step is a critical section of `_mutex` or what a
thread does between two of them. Every probe and every reconnect may fail.
-/

namespace ChatServer

open Interaction Prog Transition ConnPool

namespace MySqlPool

/-! ## The check thread -/

/-- Where the check thread is. -/
inductive CheckPc where
  /-- Asleep, or before `while (!_b_stop)`. -/
  | resting
  /-- Before the size of the queue is read. -/
  | sizing
  /-- In the first loop, with `left` iterations to come. -/
  | looping (left : Nat)
  /-- `con` has been taken from the queue. -/
  | checking (con : Conn) (left : Nat)
  /-- The probe threw, and `_fail_count` counts `con`, which is destroyed next. -/
  | discarding (con : Conn) (left : Nat)
  /-- Before the `Defer` pushes `con` back. -/
  | givingBack (con : Conn) (left : Nat)
  /-- Before `while (_fail_count > 0)`. -/
  | repairing
  /-- In `reconnect`, before `connect`. -/
  | connecting
  /-- In `reconnect`, before the new connection is pushed. -/
  | pushing (con : Conn)
  /-- `reconnect` has pushed, and `_fail_count` still counts the connection. -/
  | restored
  | ended
  deriving DecidableEq, Repr

namespace CheckPc

/-- The connections that the check thread holds. -/
def holds : CheckPc → Nat
  | .checking _ _ | .givingBack _ _ => 1
  | _ => 0

/-- In the middle of the failure or reconnect bookkeeping. -/
def bookkeeping : CheckPc → Bool
  | .discarding _ _ | .pushing _ | .restored => true
  | _ => false

/-- The connections that are both in the queue and in `_fail_count`. -/
def counted : CheckPc → Nat
  | .restored => 1
  | _ => 0

/-- `reconnect` has been called for a connection that `_fail_count` counts. -/
def mending : CheckPc → Bool
  | .connecting | .pushing _ | .restored => true
  | _ => false

end CheckPc

/-- `next` is the name of the next new connection. -/
structure State (K : Type) where
  pool : Pool K Conn Statement.Resp
  check : CheckPc
  failCount : Nat
  next : Conn

inductive Act (K : Type) where
  | caller (a : ConnPool.Act K Conn Statement.Resp)
  -- checkConnection
  | begin
  | finish
  | size
  | takeOut
  | runOut
  | walked
  | alive
  | failed
  | discard
  | pushBack
  | retry
  | repaired
  -- reconnect
  | connectFails
  | connect
  | push
  | restore
  -- close
  | close

variable {K : Type}

/-- The steps. A thread of kind `k` calls the functions that `ops k` allows. -/
inductive Step (ops : K → SqlClient Unit → Prop) (arrives : K → Prop) :
    State K → Act K → State K → Prop where
  | caller {s : State K} {a : ConnPool.Act K Conn Statement.Resp}
      {p : Pool K Conn Statement.Resp} :
      Pool.Step ops arrives s.pool a p → Step ops arrives s (.caller a) { s with pool := p }
  | begin {s : State K} : s.check = .resting → s.pool.stopped = false →
      Step ops arrives s .begin { s with check := .sizing }
  | finish {s : State K} : s.check = .resting → s.pool.stopped = true →
      Step ops arrives s .finish { s with check := .ended }
  | size {s : State K} : s.check = .sizing →
      Step ops arrives s .size { s with check := .looping s.pool.idle.length }
  | takeOut {s : State K} {left : Nat} {con : Conn} {rest : List Conn} :
      s.check = .looping (left + 1) → s.pool.idle = con :: rest →
      Step ops arrives s .takeOut
        { s with pool := { s.pool with idle := rest }, check := .checking con left }
  | runOut {s : State K} {left : Nat} : s.check = .looping (left + 1) → s.pool.idle = [] →
      Step ops arrives s .runOut { s with check := .repairing }
  | walked {s : State K} : s.check = .looping 0 →
      Step ops arrives s .walked { s with check := .repairing }
  /-- The connection was used a moment ago, or `SELECT 1` is executed. -/
  | alive {s : State K} {con : Conn} {left : Nat} : s.check = .checking con left →
      Step ops arrives s .alive { s with check := .givingBack con left }
  | failed {s : State K} {con : Conn} {left : Nat} : s.check = .checking con left →
      Step ops arrives s .failed
        { s with check := .discarding con left, failCount := s.failCount + 1 }
  | discard {s : State K} {con : Conn} {left : Nat} : s.check = .discarding con left →
      Step ops arrives s .discard { s with check := .looping left }
  | pushBack {s : State K} {con : Conn} {left : Nat}
      {callers : List (Caller K Conn Statement.Resp)} :
      s.check = .givingBack con left → Notified s.pool.callers callers →
      Step ops arrives s .pushBack
        { s with
          pool := { s.pool with idle := s.pool.idle ++ [con], callers := callers }
          check := .looping left }
  | retry {s : State K} : s.check = .repairing → 0 < s.failCount →
      Step ops arrives s .retry { s with check := .connecting }
  | repaired {s : State K} : s.check = .repairing → s.failCount = 0 →
      Step ops arrives s .repaired { s with check := .resting }
  | connectFails {s : State K} : s.check = .connecting →
      Step ops arrives s .connectFails { s with check := .resting }
  | connect {s : State K} : s.check = .connecting →
      Step ops arrives s .connect { s with check := .pushing s.next, next := s.next + 1 }
  /-- Unlike the other two, this push is not followed by a notification. -/
  | push {s : State K} {con : Conn} : s.check = .pushing con →
      Step ops arrives s .push
        { s with pool := { s.pool with idle := s.pool.idle ++ [con] }, check := .restored }
  | restore {s : State K} : s.check = .restored →
      Step ops arrives s .restore
        { s with check := .repairing, failCount := s.failCount - 1 }
  | close {s : State K} : Step ops arrives s .close { s with pool := s.pool.stop }

/-- The pool after its constructor, which has put the connections `idle` into it. -/
def State.init (idle : List Conn) (callers : List K) : State K where
  pool :=
    { idle := idle, stopped := false
      callers := callers.map fun kind => { kind := kind, held := [], status := .running (.ret ()) } }
  check := .resting
  failCount := 0
  next := idle.length

/-! ## Moves -/

/-- What happens next: the thread at a place of the list goes on or begins a function, the check thread
goes on, its probe or its `connect` succeeding or not, or the pool is closed. -/
inductive Move (K : Type) where
  | advance (i : Nat)
  | call (i : Nat) (f : K → SqlClient Unit)
  | check (good : Bool)
  | close

/-- The next step of the check thread. -/
def State.checkStep (good : Bool) (s : State K) : Option (Act K × State K) :=
  match s.check with
  | .resting =>
    if s.pool.stopped then some (.finish, { s with check := .ended })
    else some (.begin, { s with check := .sizing })
  | .sizing => some (.size, { s with check := .looping s.pool.idle.length })
  | .looping 0 => some (.walked, { s with check := .repairing })
  | .looping (left + 1) =>
    match s.pool.idle with
    | [] => some (.runOut, { s with check := .repairing })
    | con :: rest => some (.takeOut,
        { s with pool := { s.pool with idle := rest }, check := .checking con left })
  | .checking con left =>
    if good then some (.alive, { s with check := .givingBack con left })
    else some (.failed, { s with check := .discarding con left, failCount := s.failCount + 1 })
  | .discarding _ left => some (.discard, { s with check := .looping left })
  | .givingBack con left => some (.pushBack, { s with
      pool := { s.pool with
        idle := s.pool.idle ++ [con]
        callers := notifyFirst s.pool.callers }
      check := .looping left })
  | .repairing =>
    if 0 < s.failCount then some (.retry, { s with check := .connecting })
    else some (.repaired, { s with check := .resting })
  | .connecting =>
    if good then some (.connect, { s with check := .pushing s.next, next := s.next + 1 })
    else some (.connectFails, { s with check := .resting })
  | .pushing con => some (.push,
      { s with pool := { s.pool with idle := s.pool.idle ++ [con] }, check := .restored })
  | .restored => some (.restore, { s with check := .repairing, failCount := s.failCount - 1 })
  | .ended => none

/-- Carry out a move, if it is possible; `answer` answers the statements of the threads. -/
def State.move (answer : (q : Statement) → q.Resp) : Move K → State K → Option (Act K × State K)
  | .advance i, s => (s.pool.advance answer i).map fun x => (.caller x.1, { s with pool := x.2 })
  | .call i f, s => (s.pool.begin i f).map fun p => (.caller .call, { s with pool := p })
  | .check good, s => s.checkStep good
  | .close, s => some (.close, { s with pool := s.pool.stop })

/-! ## Conservation -/

section Runs

variable {ops : K → SqlClient Unit → Prop} {arrives : K → Prop} {limit : K → Nat} {s t : State K}
  {a : Act K} {idle : List Conn} {callers : List K} {tr : List (Act K × State K)}

theorem checkStep_step {good : Bool} (h : s.checkStep good = some (a, t)) :
    Step ops arrives s a t := by
  unfold State.checkStep at h
  split at h
  · rename_i hc
    split at h
    · rename_i hstop
      cases h
      exact .finish hc hstop
    · rename_i hstop
      cases h
      exact .begin hc (by simpa using hstop)
  · rename_i hc
    cases h
    exact .size hc
  · rename_i hc
    cases h
    exact .walked hc
  · rename_i hc
    split at h
    · rename_i hidle
      cases h
      exact .runOut hc hidle
    · rename_i hidle
      cases h
      exact .takeOut hc hidle
  · rename_i hc
    split at h
    · cases h
      exact .alive hc
    · cases h
      exact .failed hc
  · rename_i hc
    cases h
    exact .discard hc
  · rename_i hc
    cases h
    exact .pushBack hc (notified_first _)
  · rename_i hc
    split at h
    · rename_i hpos
      cases h
      exact .retry hc hpos
    · rename_i hpos
      cases h
      exact .repaired hc (by omega)
  · rename_i hc
    split at h
    · cases h
      exact .connect hc
    · cases h
      exact .connectFails hc
  · rename_i hc
    cases h
    exact .push hc
  · rename_i hc
    cases h
    exact .restore hc
  · cases h

/-- A move that is carried out is a step, if the functions that threads begin are allowed. -/
theorem move_step {answer : (q : Statement) → q.Resp} {m : Move K}
    (hm : ∀ i f, m = .call i f → ∀ kind, ops kind (f kind)) (h : s.move answer m = some (a, t)) :
    Step ops arrives s a t := by
  cases m with
  | advance i =>
    obtain ⟨⟨b, p⟩, hp, he⟩ := Option.map_eq_some_iff.mp h
    cases he
    exact .caller (Pool.advance_step hp)
  | call i f =>
    obtain ⟨p, hp, he⟩ := Option.map_eq_some_iff.mp h
    cases he
    exact .caller (Pool.begin_step (hm i f rfl) hp)
  | check good => exact checkStep_step h
  | close =>
    cases h
    exact .close

theorem formed_init (kinds : List K) : Formed limit (State.init idle kinds).pool.callers :=
  formed_start kinds

theorem Step.formed (hops : ∀ kind q, ops kind q → Balanced (limit kind) q) (hf : Formed limit s.pool.callers)
    (h : Step ops arrives s a t) : Formed limit t.pool.callers := by
  cases h with
  | caller h => exact h.formed hops hf
  | pushBack _ hn => exact hf.notified hn
  | close => exact hf.stop
  | _ => exact hf

theorem Step.stopped (h : Step ops arrives s a t) (ht : t.pool.stopped = false) :
    s.pool.stopped = false := by
  cases h with
  | caller h => rwa [h.stopped] at ht
  | close => cases ht
  | _ => exact ht

/-- The account of the `n` connections that the constructor put into the pool. -/
structure Account (limit : K → Nat) (n : Nat) (s : State K) : Prop where
  formed : Formed limit s.pool.callers
  sum : s.pool.stopped = false →
    s.pool.size + s.check.holds + s.failCount = n + s.check.counted
  mending : s.check.mending = true → 0 < s.failCount

/-- What one step does to the sum. -/
theorem Account.sum_step {n : Nat} (hi : Account limit n s) (h : Step ops arrives s a t)
    (ht : t.pool.stopped = false) :
    t.pool.size + t.check.holds + t.failCount = n + t.check.counted := by
  have hs := h.stopped ht
  have hsum := hi.sum hs
  have hmend := hi.mending
  unfold Pool.size at *
  cases h with
  | caller h =>
    have hsize := h.size hi.formed hs
    unfold Pool.size at hsize
    dsimp only
    omega
  | begin hc _ | finish hc _ | size hc | runOut hc _ | walked hc | alive hc | retry hc _
  | repaired hc _ | connectFails hc | connect hc =>
    simp [hc, CheckPc.holds, CheckPc.counted] at hsum ⊢
    omega
  | takeOut hc hidle =>
    simp [hc, hidle, CheckPc.holds, CheckPc.counted] at hsum ⊢
    omega
  | failed hc | discard hc =>
    simp [hc, CheckPc.holds, CheckPc.counted] at hsum ⊢
    omega
  | pushBack hc hn =>
    simp [hc, hn.counts.1, CheckPc.holds, CheckPc.counted] at hsum ⊢
    omega
  | push hc =>
    simp [hc, CheckPc.holds, CheckPc.counted] at hsum ⊢
    omega
  | restore hc =>
    have hpos := hmend (by rw [hc]; rfl)
    simp [hc, CheckPc.holds, CheckPc.counted] at hsum ⊢
    omega
  | close => cases ht

theorem Account.step {n : Nat} (hops : ∀ kind q, ops kind q → Balanced (limit kind) q) (hi : Account limit n s)
    (h : Step ops arrives s a t) : Account limit n t := by
  refine ⟨h.formed hops hi.formed, hi.sum_step h, ?_⟩
  · have hmend := hi.mending
    cases h with
    | retry hc hpos => exact fun _ => hpos
    | connect hc | push hc =>
      intro _
      exact hmend (by rw [hc]; rfl)
    | caller _ | close => exact hmend
    | _ => exact nofun

theorem heldCount_init (idle : List Conn) (kinds : List K) :
    heldCount (State.init idle kinds).pool.callers = 0 :=
  heldCount_start kinds

theorem Account.run {n : Nat} {s₀ : State K} (hops : ∀ kind q, ops kind q → Balanced (limit kind) q)
    (h0 : Account limit n s₀) (h : Run (Step ops arrives) s₀ tr s) : Account limit n s := by
  refine Run.invariant (P := fun _ s => Account limit n s) h0 ?_ h
  intro tr s a t _ hi hs
  exact hi.step hops hs

theorem account_init (limit : K → Nat) (idle : List Conn) (kinds : List K) :
    Account limit idle.length (State.init idle kinds) := by
  refine ⟨formed_init kinds, ?_, nofun⟩
  intro _
  rw [Pool.size, heldCount_init]
  rfl

theorem Account.of_run (hops : ∀ kind q, ops kind q → Balanced (limit kind) q) {kinds : List K}
    (h : Run (Step ops arrives) (.init idle kinds) tr s) : Account limit idle.length s :=
  (account_init limit idle kinds).run hops h

/-! ## Wake-ups -/

/-- No wake-up is lost, as long as the pool has not been stopped. -/
def State.WakeSafe (s : State K) : Prop := s.pool.stopped = false → s.pool.WakeSafe

/-- If `reconnect` pushes its connection, then nobody sleeps, or a thread is on its way for whom no
other connection is there. -/
def PushSafe (s : State K) (a : Act K) : Prop :=
  a = .push → s.pool.stopped = false → 0 < sleeping s.pool.callers →
    s.pool.idle.length < awaiting s.pool.callers

/-- **The push of `reconnect` is the only step that can lose a wake-up.** -/
theorem Step.wakeSafe (hw : s.WakeSafe) (h : Step ops arrives s a t) :
    t.WakeSafe ↔ PushSafe s a := by
  cases h with
  | push hc =>
    constructor
    · intro ht _ hs
      exact (s.pool.wakeSafe_push _).mp (ht hs)
    · intro hp hs
      exact (s.pool.wakeSafe_push _).mpr (hp rfl hs)
  | caller h =>
    refine iff_of_true ?_ nofun
    intro ht
    have hs := h.stopped.symm.trans ht
    exact h.wakeSafe hs (hw hs)
  | takeOut hc hidle => exact iff_of_true (fun hs => (hw hs).take hidle) nofun
  | pushBack hc hn => exact iff_of_true (fun hs => (hw hs).notify _ hn) nofun
  | close => exact iff_of_true nofun nofun
  | _ => exact iff_of_true hw nofun

end Runs

/-! ## Holding a connection and waiting for another -/

/-- The threads that use the database: the logic worker, and those of the chat service. -/
inductive Thread where
  | worker
  | service
  deriving DecidableEq, Repr

namespace Thread

/-- The worker calls any function of `MySqlDao`, the chat service looks up profiles and aliases. -/
def Calls : Thread → SqlClient Unit → Prop
  | .worker, q => MySqlDao.Operation q
  | .service, q =>
    (∃ uid, q = (MySqlDao.getUserInfo uid >>= fun _ => pure ())) ∨
      ∃ self_id friend_id,
        q = (MySqlDao.pooled (MySqlDao.getFriendAlias self_id friend_id) >>= fun _ => pure ())

/-- The connections that the thread holds at a time: `getFriendList` calls `getUserInfo`. -/
def limit : Thread → Nat
  | .worker => 2
  | .service => 1

theorem balanced {kind : Thread} {q : SqlClient Unit} (h : kind.Calls q) :
    Balanced kind.limit q := by
  rcases kind with _ | _
  · exact MySqlDao.operation_balanced h
  · rcases h with ⟨uid, rfl⟩ | ⟨self_id, friend_id, rfl⟩
    · exact (MySqlDao.getUserInfo_balanced uid).bind fun _ => balanced_pure _ ()
    · exact (MySqlDao.pooled_balanced _).bind fun _ => balanced_pure _ ()

end Thread

/-- The connections in the hands of the check thread that are in order. -/
def CheckPc.has : CheckPc → Nat
  | .checking _ _ | .givingBack _ _ | .pushing _ => 1
  | _ => 0

namespace State

/-- The live connections. -/
def live (s : State K) : Nat := s.pool.size + s.check.has

/-- A thread that holds a connection sleeps in `getConnection`. -/
def Waits (s : State K) : Prop := ∃ x ∈ s.pool.callers, x.status.isAsleep = true ∧ x.held ≠ []

/-- There is a live connection, and every one is held by a thread that sleeps in `getConnection`. -/
structure Deadlock (s : State K) : Prop where
  idle : s.pool.idle = []
  check : s.check.has = 0
  held : ∃ x ∈ s.pool.callers, x.held ≠ []
  asleep : ∀ x ∈ s.pool.callers, x.held ≠ [] → x.status.isAsleep = true

end State

/-- What holds in every reachable state of a server with one worker. -/
structure Single (s : State Thread) : Prop where
  formed : Formed Thread.limit s.pool.callers
  one : (s.pool.callers.map Caller.kind).count .worker ≤ 1
  stopped : s.pool.stopped = true → ∀ x ∈ s.pool.callers, x.status.isAsleep = false

section Deadlock

variable {s t : State Thread} {a : Act Thread}

/-- The steps of a server with one worker, and any number of threads of its chat service. -/
abbrev ServerStep : State Thread → Act Thread → State Thread → Prop :=
  Step Thread.Calls fun kind => kind = .service

theorem Single.step (hi : Single s) (h : ServerStep s a t) : Single t := by
  obtain ⟨hf, hone, hstop⟩ := hi
  refine ⟨h.formed (fun _ _ => Thread.balanced) hf, ?_, ?_⟩
  · cases h with
    | caller h =>
      rcases h.kinds with hk | ⟨kind, rfl, hk⟩
      · rwa [hk]
      · simpa [hk] using hone
    | pushBack _ hn => rwa [hn.kinds]
    | close => simpa [Pool.stop, Caller.awake, Function.comp_def] using hone
    | _ => exact hone
  · cases h with
    | caller h =>
      intro ht z hz
      rw [h.stopped] at ht
      by_contra ha
      rw [Bool.not_eq_false] at ha
      rcases h.asleep hz ha with hz | ⟨x, hx, rfl, -⟩
      · rw [hstop ht z hz] at ha
        cases ha
      · -- nobody goes to sleep when the pool has been stopped
        cases h with
        | sleep _ _ hrun _ =>
          rw [ht] at hrun
          cases hrun
    | pushBack _ hn =>
      intro ht z hz
      by_contra ha
      rw [Bool.not_eq_false] at ha
      rw [hstop ht z (hn.asleep hz ha)] at ha
      cases ha
    | close =>
      intro _ z hz
      obtain ⟨y, -, rfl⟩ := List.mem_map.mp hz
      rfl
    | _ => exact hstop

/-- A thread that waits for another connection is the worker, and holds one. -/
theorem Single.waiting (hi : Single s) {x : Caller Thread Conn Statement.Resp}
    (hx : x ∈ s.pool.callers) (ha : x.status.isAsleep = true) (hheld : x.held ≠ []) :
    x.kind = .worker ∧ x.held.length = 1 := by
  have hpos := List.length_pos_iff.mpr hheld
  have hform := hi.formed x hx
  obtain ⟨kind, held, status⟩ := x
  rcases status with rest | resume
  · cases ha
  · have hlt := (hform.takes rfl 0).1
    rcases kind with _ | _
    · have hle : held.length < 2 := hlt
      exact ⟨rfl, by dsimp only at *; omega⟩
    · have hle : held.length < 1 := hlt
      dsimp only at *
      omega

/-- **When there is a deadlock**: the worker holds the only live connection, and waits for another. -/
theorem Single.deadlock_iff (hi : Single s) : s.Deadlock ↔ s.live = 1 ∧ s.Waits := by
  constructor
  · rintro ⟨hidle, hcheck, ⟨x, hx, hheld⟩, hasleep⟩
    have hax := hasleep x hx hheld
    obtain ⟨hkind, hlen⟩ := hi.waiting hx hax hheld
    refine ⟨?_, x, hx, hax, hheld⟩
    have hone := hi.one
    obtain ⟨pre, post, hc⟩ := List.append_of_mem hx
    have hothers : ∀ y ∈ pre ++ post, y.held = [] := by
      intro y hy
      by_contra hne
      have hmem : y ∈ s.pool.callers := by
        rw [hc]
        simp only [List.mem_append, List.mem_cons] at hy ⊢
        exact hy.imp_right Or.inr
      have hy' := (hi.waiting hmem (hasleep y hmem hne) hne).1
      have hcount : 0 < ((pre ++ post).map Caller.kind).count .worker :=
        List.count_pos_iff.mpr (List.mem_map.mpr ⟨y, hy, hy'⟩)
      rw [List.map_append, List.count_append] at hcount
      simp only [hc, List.map_append, List.map_cons, hkind, List.count_append,
        List.count_cons_self] at hone
      omega
    have hzero : heldCount (pre ++ post) = 0 := by
      rw [heldCount, List.sum_eq_zero]
      intro n hn
      obtain ⟨y, hy, rfl⟩ := List.mem_map.mp hn
      rw [hothers y hy, List.length_nil]
    simp [State.live, Pool.size, hidle, hcheck, hc] at hzero ⊢
    omega
  · rintro ⟨hlive, x, hx, hax, hheld⟩
    have hlen := (hi.waiting hx hax hheld).2
    obtain ⟨pre, post, hc⟩ := List.append_of_mem hx
    simp [State.live, Pool.size, hc] at hlive
    refine ⟨List.length_eq_zero_iff.mp (by omega), by omega, ⟨x, hx, hheld⟩, ?_⟩
    intro y hy hne
    have hpos := List.length_pos_iff.mpr hne
    rw [hc] at hy
    rcases List.mem_append.mp hy with hy | hy
    · have := length_le_heldCount hy
      omega
    · rcases List.mem_cons.mp hy with rfl | hy
      · exact hax
      · have := length_le_heldCount hy
        omega

/-- The number of live connections: a probe that fails destroys one, and `reconnect` makes one. -/
theorem Step.live (hf : Formed Thread.limit s.pool.callers) (ht : t.pool.stopped = false)
    (h : ServerStep s a t) :
    (a = .failed ∧ t.live + 1 = s.live) ∨ (a = .connect ∧ t.live = s.live + 1) ∨
      (a ≠ .failed ∧ t.live = s.live) := by
  have hs := h.stopped ht
  unfold State.live
  cases h with
  | caller h => exact Or.inr (Or.inr ⟨nofun, by simp [h.size hf hs]⟩)
  | failed hc =>
    left
    simp [hc, CheckPc.has]
  | connect hc =>
    right
    left
    simp [hc, CheckPc.has]
  | takeOut hc hidle =>
    right
    right
    simp [hc, hidle, CheckPc.has, Pool.size]
    omega
  | pushBack hc hn =>
    right
    right
    simp [hc, hn.counts.1, CheckPc.has, Pool.size]
    omega
  | push hc =>
    right
    right
    simp [hc, CheckPc.has, Pool.size]
    omega
  | close => cases ht
  | begin hc _ | finish hc _ | size hc | runOut hc _ | walked hc | alive hc | discard hc
  | retry hc _ | repaired hc _ | connectFails hc | restore hc =>
    right
    right
    simp [hc, CheckPc.has]

/-- Who waits while holding a connection has waited before, or goes to sleep with this step. -/
theorem Step.waits (h : ServerStep s a t) (ht : t.Waits) :
    s.Waits ∨ ∃ x, a = .caller (.sleep x) ∧ x.held ≠ [] := by
  obtain ⟨z, hz, ha, hheld⟩ := ht
  cases h with
  | caller h =>
    rcases h.asleep hz ha with hz | ⟨x, hx, rfl, hsame⟩
    · exact Or.inl ⟨z, hz, ha, hheld⟩
    · exact Or.inr ⟨x, rfl, hsame ▸ hheld⟩
  | pushBack _ hn => exact Or.inl ⟨z, hn.asleep hz ha, ha, hheld⟩
  | close =>
    obtain ⟨y, -, rfl⟩ := List.mem_map.mp hz
    cases ha
  | _ => exact Or.inl ⟨z, hz, ha, hheld⟩

theorem Single.not_waits (hi : Single s) (hs : s.pool.stopped = true) : ¬ s.Waits := by
  rintro ⟨x, hx, ha, -⟩
  rw [hi.stopped hs x hx] at ha
  cases ha

/-- If a thread goes to sleep with a connection, there is another live one; and if a probe fails while
a thread sleeps with a connection, it leaves another live one. -/
def HoldSafe (s : State Thread) (a : Act Thread) : Prop :=
  (∀ x, a = .caller (.sleep x) → x.held ≠ [] → 2 ≤ s.live) ∧ (a = .failed → s.Waits → 3 ≤ s.live)

/-- **How the server comes to a deadlock.** -/
theorem Step.deadlock (hi : Single s) (hd : ¬ s.Deadlock) (h : ServerStep s a t) :
    ¬ t.Deadlock ↔ HoldSafe s a := by
  have hit := hi.step h
  rw [hi.deadlock_iff] at hd
  rw [hit.deadlock_iff]
  have hpos : s.Waits → 0 < s.live := by
    rintro ⟨x, hx, -, hheld⟩
    have hle := length_le_heldCount hx
    have hlen := List.length_pos_iff.mpr hheld
    unfold State.live Pool.size
    omega
  by_cases ht : t.pool.stopped = true
  · -- nobody sleeps in a pool that has been stopped
    refine iff_of_true (fun hdead => hit.not_waits ht hdead.2) ⟨?_, ?_⟩
    · rintro x rfl
      cases h with
      | caller h =>
        cases h with
        | sleep _ _ hrun _ =>
          rw [show s.pool.stopped = true from ht] at hrun
          cases hrun
    · rintro rfl hw
      cases h with
      | failed _ => exact absurd hw (hi.not_waits ht)
  · rw [Bool.not_eq_true] at ht
    have hlive := h.live hi.formed ht
    constructor
    · intro hnot
      refine ⟨?_, ?_⟩
      · rintro x rfl hheld
        cases h with
        | caller h =>
          cases h with
          | @sleep pre post _ k hc hx hrun hidle =>
            have hmem : x ∈ s.pool.callers := by simp [hc]
            have hle := length_le_heldCount hmem
            have hlen := List.length_pos_iff.mpr hheld
            have hne : ¬ s.live = 1 := by
              intro hone
              refine hnot ⟨?_, { x with status := .asleep k }, by simp, rfl, hheld⟩
              simpa [hone] using hlive
            unfold State.live Pool.size at *
            omega
      · rintro rfl hw
        have hw' : t.Waits := by
          cases h with
          | failed _ => exact hw
        have hne : ¬ t.live = 1 := fun hone => hnot ⟨hone, hw'⟩
        have hsne : ¬ s.live = 1 := fun hone => hd ⟨hone, hw⟩
        have := hpos hw
        rcases hlive with ⟨-, hl⟩ | ⟨hne, -⟩ | ⟨hne, -⟩
        · omega
        · cases hne
        · exact absurd rfl hne
    · rintro ⟨hsleep, hfail⟩ ⟨hone, hw⟩
      rcases h.waits hw with hw | ⟨x, rfl, hheld⟩
      · have hsne : ¬ s.live = 1 := fun hone => hd ⟨hone, hw⟩
        have := hpos hw
        rcases hlive with ⟨rfl, hl⟩ | ⟨rfl, hl⟩ | ⟨-, hl⟩
        · have := hfail rfl hw
          omega
        · omega
        · omega
      · have := hsleep x rfl hheld
        rcases hlive with ⟨hne, -⟩ | ⟨hne, -⟩ | ⟨-, hl⟩
        · cases hne
        · cases hne
        · omega

theorem Single.of_run {idle : List Conn} {kinds : List Thread}
    {tr : List (Act Thread × State Thread)} (hone : kinds.count .worker ≤ 1)
    (h : Run ServerStep (.init idle kinds) tr s) : Single s := by
  refine Run.invariant (P := fun _ s => Single s) ?_ ?_ h
  · refine ⟨formed_init kinds, ?_, nofun⟩
    simpa [State.init, Function.comp_def] using hone
  · intro tr s a t _ hi hs
    exact hi.step hs

/-- **When the server has no deadlock on its connections.** From a pool with any number of
connections, one worker and any number of threads of the chat service: every live connection is held
by a thread that sleeps in `getConnection` in no state of a run exactly if, in each step of the run, a
thread that goes to sleep with a connection leaves another live one, and so does a probe that fails
while a thread sleeps with a connection. -/
theorem undeadlocked_iff {idle : List Conn} {kinds : List Thread}
    {tr : List (Act Thread × State Thread)} (hone : kinds.count .worker ≤ 1)
    (h : Run ServerStep (.init idle kinds) tr s) :
    Throughout ServerStep (.init idle kinds) (fun _ s => ¬ s.Deadlock) tr ↔
      Each ServerStep (.init idle kinds) (fun _ s a => HoldSafe s a) tr := by
  refine Run.throughout_iff_each ?_ ?_ h
  · rintro ⟨-, -, ⟨x, hx, hheld⟩, -⟩
    obtain ⟨kind, -, rfl⟩ := List.mem_map.mp hx
    exact hheld rfl
  · intro tr s a t hr hall hs
    exact hs.deadlock (Single.of_run hone hr) (hall tr s hr (List.prefix_refl _))

/-- User 7 has the friend 8; no other statement finds anything. -/
def oneFriend : (q : Statement) → q.Resp
  | .table o => Sql.failure o
  | .selectUser _ => none
  | .selectUserByName _ => none
  | .selectApplyList _ _ _ => none
  | .selectFriends uid => some { rows := if uid = 7 then [(8, [])] else [] }

/-- The worker looks for the friends of user 7, and the chat service looks up a profile. -/
def friendLookup : Thread → SqlClient Unit
  | .worker => MySqlDao.getFriendList 7 [] >>= fun _ => pure ()
  | .service => MySqlDao.getUserInfo 7 >>= fun _ => pure ()

theorem friendLookup_calls (kind : Thread) : kind.Calls (friendLookup kind) := by
  rcases kind with _ | _
  · exact ⟨.getFriendList 7, _, rfl, rfl⟩
  · exact Or.inl ⟨7, rfl⟩

/-- The moves in which the first thread looks for the friends of user 7, up to the lookup of the first
of them. -/
def lookupMoves : List (Move Thread) := [.call 0 friendLookup, .advance 0, .advance 0, .advance 0]

theorem lookup_run (idle : List Conn) (kinds : List Thread) :
    Run ServerStep (.init idle kinds)
      (follow (State.move oneFriend) (.init idle kinds) lookupMoves)
      (final (.init idle kinds) (follow (State.move oneFriend) (.init idle kinds) lookupMoves)) := by
  refine follow_run ?_ _
  intro m hm s a t hmove
  refine move_step ?_ hmove
  rintro i f rfl kind
  obtain ⟨-, rfl⟩ : i = 0 ∧ f = friendLookup := by simpa [lookupMoves] using hm
  exact friendLookup_calls kind

/-- With two connections the worker gets the second one. -/
theorem undeadlocked_two : ∃ tr, ∃ s, Run ServerStep (.init [0, 1] [.worker, .service]) tr s ∧
    heldCount s.pool.callers = 2 ∧
    (Throughout ServerStep (.init [0, 1] [.worker, .service]) (fun _ s => ¬ s.Deadlock) tr ↔
      Each ServerStep (.init [0, 1] [.worker, .service]) (fun _ s a => HoldSafe s a) tr) := by
  have hrun := lookup_run [0, 1] [.worker, .service]
  refine ⟨_, _, hrun, ?_, undeadlocked_iff (by decide) hrun⟩
  decide

/-- With one connection the worker waits for itself. -/
theorem undeadlocked_fails : ¬ ∀ tr s, Run ServerStep (.init [0] [.worker]) tr s → ¬ s.Deadlock := by
  intro h
  have hrun := lookup_run [0] [.worker]
  refine h _ _ hrun ⟨?_, ?_, ?_, ?_⟩
  · decide
  · decide
  · refine ⟨_, List.mem_cons_self, ?_⟩
    decide
  · intro x hx _
    obtain rfl := List.mem_singleton.mp hx
    rfl

end Deadlock

end MySqlPool

end ChatServer
