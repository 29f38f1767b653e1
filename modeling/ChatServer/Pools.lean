import ChatServer.MySqlPool
import ChatServer.RedisConPool

/-!
# Both pools

What `MySqlPool` and `RedisConPool` have in common, for any number of threads that run the functions of
`MySqlDao` and the operations of `RedisMgr`:

* no connection is lost or made up (`conserved`);
* a wake-up is lost only by the push of a `reconnect` (`wakeSafe_iff`).
-/

namespace ChatServer

open Interaction Prog Transition ConnPool

/-- A thread that runs functions of `MySqlDao`. -/
def RunsMySqlDao {K : Type} (_ : K) (q : SqlClient Unit) : Prop := MySqlDao.Operation q

/-- A thread that runs operations of `RedisMgr`. -/
def RunsRedisMgr {K : Type} (_ : K) (q : RedisClient Unit) : Prop :=
  ∃ o : RedisMgr.Operation, q = o.run

/-- The steps of `MySqlPool` with threads that call `MySqlDao`; new ones start at any time. -/
abbrev MySqlStep (K : Type) : MySqlPool.State K → MySqlPool.Act K → MySqlPool.State K → Prop :=
  MySqlPool.Step RunsMySqlDao fun _ => True

/-- The steps of `RedisConPool` with threads that call `RedisMgr`; new ones start at any time. -/
abbrev RedisStep (K : Type) :
    RedisConPool.State K → RedisConPool.Act K → RedisConPool.State K → Prop :=
  RedisConPool.Step RunsRedisMgr fun _ => True

section Runs

variable {K : Type} {idle idle' : List Conn} {kinds kinds' : List K}
  {tr : List (MySqlPool.Act K × MySqlPool.State K)} {s : MySqlPool.State K}
  {tr' : List (RedisConPool.Act K × RedisConPool.State K)} {s' : RedisConPool.State K}

/-! ## Conservation -/

/-- A thread that has come to the end of a function has given back what it took, and gives back only
what it holds. Until the pool is stopped, the idle connections and those that the threads and the check
thread hold are never more than `n`, and outside the bookkeeping of the check thread they are `n`
together with the `failCount` ones that are to be replaced. -/
def Conserves {Q : Type} {R : Q → Type} (n : Nat) (pool : Pool K Conn R) (checkHolds failCount : Nat)
    (bookkeeping : Bool) : Prop :=
  (∀ x ∈ pool.callers, x.GivesBack) ∧
    (pool.stopped = false →
      pool.idle.length + (heldCount pool.callers + checkHolds) ≤ n ∧
        (bookkeeping = false →
          pool.idle.length + (heldCount pool.callers + checkHolds) + failCount = n))

theorem mysql_conserves (h : Run (MySqlStep K) (.init idle kinds) tr s) :
    Conserves idle.length s.pool s.check.holds s.failCount s.check.bookkeeping := by
  have ha : MySqlPool.Account (fun _ => 2) idle.length s :=
    MySqlPool.Account.of_run (fun _ _ hq => MySqlDao.operation_balanced hq) h
  refine ⟨fun x hx => (ha.formed x hx).givesBack, ?_⟩
  intro hs
  have hsum := ha.sum hs
  have hmend := ha.mending
  rw [Pool.size] at hsum
  constructor
  · -- a connection that is counted twice has been missing before
    have hcounted : s.check.counted ≤ s.failCount := by
      cases hc : s.check <;> simp_all [MySqlPool.CheckPc.mending, MySqlPool.CheckPc.counted]
      omega
    omega
  · intro hbook
    have hcounted : s.check.counted = 0 := by
      cases hc : s.check <;> simp_all [MySqlPool.CheckPc.bookkeeping, MySqlPool.CheckPc.counted]
    omega

theorem redis_conserves (h : Run (RedisStep K) (.init idle kinds) tr' s') :
    Conserves idle.length s'.pool s'.check.holds s'.failCount s'.check.bookkeeping := by
  have ha : RedisConPool.Account (fun _ => 1) idle.length s' := by
    refine RedisConPool.Account.of_run ?_ h
    rintro kind q ⟨o, rfl⟩
    exact RedisMgr.operation_balanced o
  refine ⟨fun x hx => (ha.formed x hx).givesBack, ?_⟩
  intro hs
  have hsum := ha.sum hs
  have hmend := ha.mending
  rw [Pool.size] at hsum
  constructor
  · have hcounted : s'.check.counted ≤ s'.failCount := by
      cases hc : s'.check <;> simp_all [RedisConPool.CheckPc.mending, RedisConPool.CheckPc.counted]
      omega
    omega
  · intro hbook
    have hcounted : s'.check.counted = 0 ∧ s'.check.uncounted = 0 := by
      cases hc : s'.check <;>
        simp_all [RedisConPool.CheckPc.bookkeeping, RedisConPool.CheckPc.counted,
          RedisConPool.CheckPc.uncounted]
    omega

/-- **No connection is lost or made up**, in any run of either pool. -/
theorem conserved (h : Run (MySqlStep K) (.init idle kinds) tr s)
    (h' : Run (RedisStep K) (.init idle' kinds') tr' s') :
    Conserves idle.length s.pool s.check.holds s.failCount s.check.bookkeeping ∧
      Conserves idle'.length s'.pool s'.check.holds s'.failCount s'.check.bookkeeping :=
  ⟨mysql_conserves h, redis_conserves h'⟩

/-! ## Wake-ups -/

/-- **When no wake-up is lost**: exactly when each push of a `reconnect` finds nobody asleep, or finds
a thread on its way to take a connection for whom no other one is there. -/
theorem wakeSafe_iff (h : Run (MySqlStep K) (.init idle kinds) tr s)
    (h' : Run (RedisStep K) (.init idle' kinds') tr' s') :
    (Throughout (MySqlStep K) (.init idle kinds) (fun _ s => s.WakeSafe) tr ↔
      Each (MySqlStep K) (.init idle kinds) (fun _ s a => MySqlPool.PushSafe s a) tr) ∧
    (Throughout (RedisStep K) (.init idle' kinds') (fun _ s => s.WakeSafe) tr' ↔
      Each (RedisStep K) (.init idle' kinds') (fun _ s a => RedisConPool.PushSafe s a) tr') := by
  constructor
  · refine Run.throughout_iff_each ?_ ?_ h
    · intro _ hpos
      simp [MySqlPool.State.init, sleeping] at hpos
    · intro pre s a t hr hall hs
      exact hs.wakeSafe (hall pre s hr (List.prefix_refl _))
  · refine Run.throughout_iff_each ?_ ?_ h'
    · intro _ hpos
      simp [RedisConPool.State.init, sleeping] at hpos
    · intro pre s a t hr hall hs
      exact hs.move.wakeSafe (hall pre s hr (List.prefix_refl _))

end Runs

/-! ## One connection -/

/-- No statement finds anything. -/
def noRows : (q : Statement) → q.Resp
  | .table o => Sql.failure o
  | .selectUser _ => none
  | .selectUserByName _ => none
  | .selectApplyList _ _ _ => none
  | .selectFriends _ => none

/-- A thread looks up the profile of user 7. -/
def profileLookup (_ : Unit) : SqlClient Unit := MySqlDao.getUserInfo 7 >>= fun _ => pure ()

/-- A thread reads the token of user 7. -/
def tokenLookup (_ : Unit) : RedisClient Unit := RedisMgr.get (tokenKey 7) >>= fun _ => pure ()

/-- The check thread has the only connection when a thread looks up a profile. The probe succeeds or
not, and every `connect` does. -/
def waitMoves (good : Bool) : List (MySqlPool.Move Unit) :=
  List.replicate 3 (.check true) ++ [.call 0 profileLookup, .advance 0] ++ [.check good] ++
    List.replicate 6 (.check true)

/-- The check thread has the only connection when a thread reads a token. The reply to the PING is right
or not, and every `redisConnect` succeeds. -/
def waitChoices (good : Bool) : List (RedisConPool.Choice Unit) :=
  List.replicate 123 (.check true) ++ [.call 0 tokenLookup, .advance 0] ++ [.check good] ++
    List.replicate 6 (.check true)

theorem wait_run (good : Bool) : Run (MySqlStep Unit) (.init [0] [()])
    (follow (MySqlPool.State.move noRows) (.init [0] [()]) (waitMoves good))
    (final (.init [0] [()])
      (follow (MySqlPool.State.move noRows) (.init [0] [()]) (waitMoves good))) := by
  refine follow_run ?_ _
  intro m hm s a t hmove
  refine MySqlPool.move_step ?_ hmove
  rintro i f rfl kind
  obtain ⟨-, rfl⟩ : i = 0 ∧ f = profileLookup := by simpa [waitMoves] using hm
  exact ⟨.getUserInfo 7, _, rfl, rfl⟩

theorem wait_choices_run (good : Bool) : Run (RedisStep Unit) (.init [0] [()])
    (follow (RedisConPool.State.move fun _ => none) (.init [0] [()]) (waitChoices good))
    (final (.init [0] [()])
      (follow (RedisConPool.State.move fun _ => none) (.init [0] [()]) (waitChoices good))) := by
  refine follow_run ?_ _
  intro m hm s a t hmove
  refine RedisConPool.move_step ?_ hmove
  rintro i f rfl kind
  obtain ⟨-, rfl⟩ : i = 0 ∧ f = tokenLookup := by simpa [waitChoices] using hm
  exact ⟨.get (tokenKey 7), rfl⟩

/-- A connection is replaced in each pool. -/
theorem conserved_replaced : ∃ tr s tr' s', Run (MySqlStep Unit) (.init [0] [()]) tr s ∧
    s.next = 2 ∧ Run (RedisStep Unit) (.init [0] [()]) tr' s' ∧ s'.next = 2 ∧
    Conserves 1 s.pool s.check.holds s.failCount s.check.bookkeeping ∧
    Conserves 1 s'.pool s'.check.holds s'.failCount s'.check.bookkeeping := by
  refine ⟨_, _, _, _, wait_run false, ?_, wait_choices_run false, ?_,
    conserved (wait_run false) (wait_choices_run false)⟩
  · decide +kernel
  · decide +kernel

/-- In each pool the check thread wakes up the thread that waits. -/
theorem wakeSafe_given : ∃ tr s tr' s', Run (MySqlStep Unit) (.init [0] [()]) tr s ∧
    awaiting s.pool.callers = 1 ∧ Run (RedisStep Unit) (.init [0] [()]) tr' s' ∧
    awaiting s'.pool.callers = 1 ∧
    (Throughout (MySqlStep Unit) (.init [0] [()]) (fun _ s => s.WakeSafe) tr ↔
      Each (MySqlStep Unit) (.init [0] [()]) (fun _ s a => MySqlPool.PushSafe s a) tr) ∧
    (Throughout (RedisStep Unit) (.init [0] [()]) (fun _ s => s.WakeSafe) tr' ↔
      Each (RedisStep Unit) (.init [0] [()]) (fun _ s a => RedisConPool.PushSafe s a) tr') := by
  refine ⟨_, _, _, _, wait_run true, ?_, wait_choices_run true, ?_,
    wakeSafe_iff (wait_run true) (wait_choices_run true)⟩
  · decide +kernel
  · decide +kernel

/-- In each pool the thread sleeps on, next to the connection that `reconnect` has pushed. -/
theorem wakeSafe_fails : (¬ ∀ tr s, Run (MySqlStep Unit) (.init [0] [()]) tr s → s.WakeSafe) ∧
    ¬ ∀ tr s, Run (RedisStep Unit) (.init [0] [()]) tr s → s.WakeSafe := by
  constructor
  · intro h
    have hwake := h _ _ (wait_run false) (by decide +kernel)
    refine absurd (hwake ?_) ?_
    · decide +kernel
    · decide +kernel
  · intro h
    have hwake := h _ _ (wait_choices_run false) (by decide +kernel)
    refine absurd (hwake ?_) ?_
    · decide +kernel
    · decide +kernel

end ChatServer
