import ChatServer.Pools

/-!
# How the pools come about

The constructors of `MySqlPool` and `RedisConPool`, for every pattern of outcomes of their attempts to
connect, and the size that the pools have after a pass of the check thread. `_fail_count` counts what a
probe destroys; what a constructor leaves out it does not count.
-/

namespace ChatServer

open Interaction Prog Transition ConnPool

namespace MySqlPool

/-! ## The pool of database connections -/

/-- What comes of an iteration of the constructor's loop. -/
inductive Attempt where
  | connected
  /-- `driver->connect` throws. -/
  | connectThrows
  /-- `setSchema` throws, and the new connection is lost. -/
  | setSchemaThrows
  deriving DecidableEq, Repr

/-- The loop of the constructor, with new connections from `con` on: what it pushes, and whether it
comes to its end. An exception leaves the loop for the `catch` block. -/
def build : List Attempt → Conn → List Conn × Bool
  | [], _ => ([], true)
  | .connected :: attempts, con =>
    let built := build attempts (con + 1)
    (con :: built.1, built.2)
  | .connectThrows :: _, _ => ([], false)
  | .setSchemaThrows :: _, _ => ([], false)

variable {K : Type}

/-- `MySqlPool::MySqlPool`, with an outcome for each of the `_pool_size` iterations of its loop. The
check thread is started behind the loop. -/
def State.construct (attempts : List Attempt) (callers : List K) : State K :=
  let built := build attempts 0
  { State.init built.1 callers with check := if built.2 then .resting else .ended }

/-- The steps of a pass of the check thread. -/
def Act.ofPass : Act K → Bool
  | .caller _ | .begin | .finish | .close => false
  | _ => true

/-- The end of a pass in which every attempted reconnect succeeded. -/
def Act.isRepaired : Act K → Bool
  | .repaired => true
  | _ => false

/-- A pass has run, every reconnect that it attempted succeeded, and no other pass has begun. -/
def Passed (tr : List (Act K × State K)) : Prop := lastOf Act.ofPass Act.isRepaired tr = true

instance (tr : List (Act K × State K)) : Decidable (Passed tr) :=
  inferInstanceAs (Decidable (lastOf Act.ofPass Act.isRepaired tr = true))

/-- The check thread is between two passes, and `_fail_count` is 0. -/
structure Between (s : State K) : Prop where
  check : s.check = .resting ∨ s.check = .sizing ∨ s.check = .ended
  failCount : s.failCount = 0

section Runs

variable {ops : K → SqlClient Unit → Prop} {arrives : K → Prop} {s t s₀ : State K} {a : Act K}
  {tr : List (Act K × State K)}

theorem Between.of_passed (h : Run (Step ops arrives) s₀ tr s) (hp : Passed tr) : Between s := by
  refine Run.of_last ?_ ?_ h hp
  · intro s a t hs ha
    cases hs with
    | repaired hc hzero => exact ⟨Or.inl rfl, hzero⟩
    | _ => cases ha
  · intro s a t hs ha hb
    cases hs with
    | caller _ | close => exact ⟨hb.check, hb.failCount⟩
    | begin _ _ => exact ⟨Or.inr (Or.inl rfl), hb.failCount⟩
    | finish _ _ => exact ⟨Or.inr (Or.inr rfl), hb.failCount⟩
    | _ => cases ha

/-- Between two passes the pool is complete, as far as the account goes. -/
theorem Account.size {limit : K → Nat} {n : Nat} (ha : Account limit n s) (hb : Between s)
    (hs : s.pool.stopped = false) : s.pool.size = n := by
  have hsum := ha.sum hs
  have hzero := hb.failCount
  rcases hb.check with hc | hc | hc
  all_goals
    simp only [hc, CheckPc.holds, CheckPc.counted] at hsum
    omega

/-- A check thread that has not been started takes no step. -/
theorem Step.ended (h : Step ops arrives s a t) (hc : s.check = .ended) :
    t.check = .ended ∧ t.failCount = s.failCount ∧ a.ofPass = false := by
  cases h with
  | caller _ | close => exact ⟨hc, rfl, rfl⟩
  | begin he _ | finish he _ | size he | takeOut he _ | runOut he _ | walked he | alive he | failed he
  | discard he | pushBack he _ | retry he _ | repaired he _ | connectFails he | connect he | push he
  | restore he =>
    rw [hc] at he
    cases he

theorem unstarted (hc : s₀.check = .ended) (h : Run (Step ops arrives) s₀ tr s) :
    s.check = .ended ∧ s.failCount = s₀.failCount ∧ ¬ Passed tr := by
  refine Run.invariant
    (P := fun tr s => s.check = .ended ∧ s.failCount = s₀.failCount ∧ ¬ Passed tr) ?_ ?_ h
  · exact ⟨hc, rfl, nofun⟩
  · intro tr s a t _ hi hs
    obtain ⟨hcheck, hfail, hpassed⟩ := hi
    obtain ⟨hcheck', hfail', hof⟩ := hs.ended hcheck
    refine ⟨hcheck', hfail'.trans hfail, ?_⟩
    unfold Passed
    rwa [lastOf_snoc, hof, if_neg Bool.false_ne_true]

end Runs

theorem build_connected (con : Conn) (attempts : List Attempt)
    (h : ∀ attempt ∈ attempts, attempt = .connected) :
    (build attempts con).1.length = attempts.length ∧ (build attempts con).2 = true := by
  induction attempts generalizing con with
  | nil => exact ⟨rfl, rfl⟩
  | cons attempt attempts ih =>
    obtain rfl := h attempt List.mem_cons_self
    obtain ⟨hlen, hdone⟩ := ih (con + 1) fun attempt ha => h attempt (List.mem_cons_of_mem _ ha)
    refine ⟨?_, hdone⟩
    simp [build, hlen]

theorem build_throws (con : Conn) (attempts : List Attempt)
    (h : ¬ ∀ attempt ∈ attempts, attempt = .connected) :
    (build attempts con).1.length < attempts.length ∧ (build attempts con).2 = false := by
  induction attempts generalizing con with
  | nil => exact absurd nofun h
  | cons attempt attempts ih =>
    rcases attempt with _ | _ | _
    · have hrest : ¬ ∀ attempt ∈ attempts, attempt = .connected := by
        intro hall
        exact h (List.forall_mem_cons.mpr ⟨rfl, hall⟩)
      obtain ⟨hlen, hdone⟩ := ih (con + 1) hrest
      refine ⟨?_, hdone⟩
      simpa [build] using hlen
    · exact ⟨by simp [build], rfl⟩
    · exact ⟨by simp [build], rfl⟩

theorem account_construct (limit : K → Nat) (attempts : List Attempt) (kinds : List K) :
    Account limit (build attempts 0).1.length (State.construct attempts kinds) := by
  have hinit := account_init limit (build attempts 0).1 kinds
  refine ⟨hinit.formed, ?_, ?_⟩
  · intro hs
    have hsum := hinit.sum hs
    unfold State.construct
    dsimp only
    split
    · exact hsum
    · exact hsum
  · unfold State.construct
    dsimp only
    split
    · exact nofun
    · exact nofun

end MySqlPool

namespace RedisConPool

/-! ## The pool of Redis connections -/

/-- What AUTH returns: a reply of another type, a reply of type `REDIS_REPLY_ERROR`, or null. -/
inductive Auth where
  | ok
  | error
  | null
  deriving DecidableEq, Repr

/-- What comes of an attempt to connect. -/
inductive Attempt where
  /-- `redisConnect` returns null. -/
  | null
  /-- `redisConnect` returns a context with an error. -/
  | err
  | connected (auth : Auth)
  deriving DecidableEq, Repr

/-- The loop of the constructor: what it has pushed, the contexts that it has freed, and the name of the
next context. -/
structure Built where
  idle : List Conn := []
  freed : List Conn := []
  next : Conn := 0
  deriving DecidableEq, Repr

/-- An iteration of the constructor's loop; none if it reads a null reply. -/
def Built.attempt (b : Built) : Attempt → Option Built
  | .null => some b
  | .err => some { b with freed := b.freed ++ [b.next], next := b.next + 1 }
  -- the context is neither pushed nor freed
  | .connected .error => some { b with next := b.next + 1 }
  -- `reply->str` is printed
  | .connected .null => none
  | .connected .ok => some { b with idle := b.idle ++ [b.next], next := b.next + 1 }

def build (attempts : List Attempt) : Option Built := attempts.foldlM Built.attempt {}

variable {K : Type}

/-- The pool behind the loop of the constructor, where the check thread is started. -/
def Built.state (b : Built) (callers : List K) : State K :=
  { State.init b.idle callers with next := b.next }

/-- `RedisConPool::RedisConPool`, with an outcome for each of the `_pool_size` iterations of its loop;
none if it reads a null reply. -/
def State.construct (attempts : List Attempt) (callers : List K) : Option (State K) :=
  (build attempts).map fun b => b.state callers

/-- The steps of a pass of the check thread. -/
def Act.ofPass : Act K → Bool
  | .caller _ | .begin | .finish | .count | .lock | .stop | .notifyAll | .join => false
  | _ => true

/-- The end of a pass in which every attempted reconnect succeeded. -/
def Act.isRepaired : Act K → Bool
  | .repaired => true
  | _ => false

/-- A pass has run, every reconnect that it attempted succeeded, and no other pass has begun. -/
def Passed (tr : List (Act K × State K)) : Prop := lastOf Act.ofPass Act.isRepaired tr = true

instance (tr : List (Act K × State K)) : Decidable (Passed tr) :=
  inferInstanceAs (Decidable (lastOf Act.ofPass Act.isRepaired tr = true))

/-- The check thread is between two passes, and `_fail_count` is 0. -/
structure Between (s : State K) : Prop where
  check : s.check = .resting ∨ s.check = .counting ∨ s.check = .sizing ∨ s.check = .ended
  failCount : s.failCount = 0

section Runs

variable {ops : K → RedisClient Unit → Prop} {arrives : K → Prop} {s s₀ : State K}
  {tr : List (Act K × State K)}

theorem Between.of_passed (h : Run (Step ops arrives) s₀ tr s) (hp : Passed tr) : Between s := by
  refine Run.of_last ?_ ?_ h hp
  · rintro s a t ⟨-, hs⟩ ha
    cases hs with
    | repaired hc hzero => exact ⟨Or.inl rfl, hzero⟩
    | _ => cases ha
  · rintro s a t ⟨-, hs⟩ ha hb
    cases hs with
    | caller _ | lock _ | stop _ | notifyAll _ | join _ _ => exact ⟨hb.check, hb.failCount⟩
    | begin _ _ => exact ⟨Or.inr (Or.inl rfl), hb.failCount⟩
    | finish _ _ => exact ⟨Or.inr (Or.inr (Or.inr rfl)), hb.failCount⟩
    | count _ =>
      refine ⟨?_, hb.failCount⟩
      dsimp only
      split
      · exact Or.inr (Or.inr (Or.inl rfl))
      · exact Or.inl rfl
    | _ => cases ha

/-- Between two passes the pool is complete, as far as the account goes. -/
theorem Account.size {limit : K → Nat} {n : Nat} (ha : Account limit n s) (hb : Between s)
    (hs : s.pool.stopped = false) : s.pool.size = n := by
  have hsum := ha.sum hs
  have hzero := hb.failCount
  rcases hb.check with hc | hc | hc | hc
  all_goals
    simp only [hc, CheckPc.holds, CheckPc.counted, CheckPc.uncounted] at hsum
    omega

end Runs

/-- An iteration pushes its context if AUTH succeeds. -/
theorem Built.attempt_idle {b b' : Built} {attempt : Attempt} (h : b.attempt attempt = some b') :
    b'.idle.length = b.idle.length + if attempt = .connected .ok then 1 else 0 := by
  rcases attempt with _ | _ | auth
  · obtain rfl := Option.some.inj h
    rfl
  · obtain rfl := Option.some.inj h
    rfl
  · rcases auth with _ | _ | _
    · obtain rfl := Option.some.inj h
      exact List.length_append
    · obtain rfl := Option.some.inj h
      rfl
    · cases h

theorem build_idle {attempts : List Attempt} {b b' : Built}
    (h : attempts.foldlM Built.attempt b = some b') :
    b'.idle.length = b.idle.length + attempts.countP (· = .connected .ok) := by
  induction attempts generalizing b with
  | nil =>
    obtain rfl := Option.some.inj h
    rfl
  | cons attempt attempts ih =>
    obtain ⟨b₁, hb₁, hrest⟩ := Option.bind_eq_some_iff.mp h
    rw [ih hrest, Built.attempt_idle hb₁, List.countP_cons]
    simp only [decide_eq_true_eq]
    omega

theorem account_state (limit : K → Nat) (b : Built) (kinds : List K) :
    Account limit b.idle.length (b.state kinds) := by
  have hinit := account_init limit b.idle kinds
  exact ⟨hinit.formed, hinit.sum, hinit.mending⟩

end RedisConPool

/-! ## Recovery -/

section Recovery

variable {K : Type} {kinds kinds' : List K}
  {attempts : List MySqlPool.Attempt} {tr : List (MySqlPool.Act K × MySqlPool.State K)}
  {s : MySqlPool.State K}
  {attempts' : List RedisConPool.Attempt} {tr' : List (RedisConPool.Act K × RedisConPool.State K)}
  {s₀ s' : RedisConPool.State K}

/-- The pool of database connections recovers if its constructor connected every time, and otherwise
never: its check thread is not started. -/
theorem mysql_recovers (h : Run (MySqlStep K) (.construct attempts kinds) tr s)
    (hs : s.pool.stopped = false) :
    ((∀ attempt ∈ attempts, attempt = .connected) → MySqlPool.Passed tr →
      s.pool.size = attempts.length) ∧
    ((¬ ∀ attempt ∈ attempts, attempt = .connected) →
      ¬ MySqlPool.Passed tr ∧ s.pool.size < attempts.length) := by
  have haccount : MySqlPool.Account (fun _ => 2) (MySqlPool.build attempts 0).1.length s :=
    (MySqlPool.account_construct _ attempts kinds).run
      (fun _ _ hq => MySqlDao.operation_balanced hq) h
  constructor
  · intro hall hpassed
    rw [haccount.size (.of_passed h hpassed) hs]
    exact (MySqlPool.build_connected 0 attempts hall).1
  · intro hthrown
    obtain ⟨hlen, hdone⟩ := MySqlPool.build_throws 0 attempts hthrown
    have hend : (MySqlPool.State.construct attempts kinds).check = .ended := by
      unfold MySqlPool.State.construct
      dsimp only
      rw [hdone, if_neg Bool.false_ne_true]
    obtain ⟨hcheck, hfail, hnot⟩ := MySqlPool.unstarted hend h
    refine ⟨hnot, ?_⟩
    rw [haccount.size ⟨Or.inr (Or.inr hcheck), hfail⟩ hs]
    exact hlen

/-- The pool of Redis connections recovers exactly if its constructor connected every time. -/
theorem redis_recovers (h₀ : RedisConPool.State.construct attempts' kinds' = some s₀)
    (h : Run (RedisStep K) s₀ tr' s') (hs : s'.pool.stopped = false)
    (hpassed : RedisConPool.Passed tr') :
    s'.pool.size = attempts'.length ↔ ∀ attempt ∈ attempts', attempt = .connected .ok := by
  obtain ⟨b, hb, rfl⟩ := Option.map_eq_some_iff.mp h₀
  have haccount : RedisConPool.Account (fun _ => 1) b.idle.length s' := by
    refine (RedisConPool.account_state _ b kinds').run ?_ h
    rintro kind q ⟨o, rfl⟩
    exact RedisMgr.operation_balanced o
  rw [haccount.size (.of_passed h hpassed) hs, RedisConPool.build_idle hb]
  simp [List.countP_eq_length]

/-- **When the pools recover their full size**, for every pattern of outcomes in their constructors and
every run behind them. After a pass in which every attempted reconnect succeeded, the connections that
are idle or held are `_pool_size` many if the constructor connected every time. Otherwise the pool of
Redis connections is short of some, and that of database connections, which never has a pass, is so in
every state. -/
theorem recovers_iff (h : Run (MySqlStep K) (.construct attempts kinds) tr s)
    (hs : s.pool.stopped = false) (h₀ : RedisConPool.State.construct attempts' kinds' = some s₀)
    (h' : Run (RedisStep K) s₀ tr' s') (hs' : s'.pool.stopped = false) :
    ((∀ attempt ∈ attempts, attempt = .connected) → MySqlPool.Passed tr →
      s.pool.size = attempts.length) ∧
    ((¬ ∀ attempt ∈ attempts, attempt = .connected) →
      ¬ MySqlPool.Passed tr ∧ s.pool.size < attempts.length) ∧
    (RedisConPool.Passed tr' →
      (s'.pool.size = attempts'.length ↔ ∀ attempt ∈ attempts', attempt = .connected .ok)) := by
  obtain ⟨hall, hthrown⟩ := mysql_recovers h hs
  exact ⟨hall, hthrown, redis_recovers h₀ h' hs'⟩

end Recovery

/-- In each pool, a pass in which the probe of the only connection fails, and every attempt to connect
succeeds. -/
def mendMoves : List (MySqlPool.Move Unit) :=
  List.replicate 3 (.check true) ++ [.check false] ++ List.replicate 7 (.check true)

def mendChoices : List (RedisConPool.Choice Unit) :=
  List.replicate 123 (.check true) ++ [.check false] ++ List.replicate 7 (.check true)

/-- The connection is replaced in each pool. -/
theorem recovers_mended : ∃ tr s s₀ tr' s',
    Run (MySqlStep Unit) (.construct [.connected] []) tr s ∧ s.next = 2 ∧ s.pool.size = 1 ∧
    RedisConPool.State.construct [.connected .ok] [] = some s₀ ∧
    Run (RedisStep Unit) s₀ tr' s' ∧ s'.next = 2 ∧ s'.pool.size = 1 := by
  have hmysql : Run (MySqlStep Unit) (.construct [.connected] [])
      (follow (MySqlPool.State.move noRows) (.construct [.connected] []) mendMoves)
      (final (.construct [.connected] [])
        (follow (MySqlPool.State.move noRows) (.construct [.connected] []) mendMoves)) := by
    refine follow_run ?_ _
    intro m hm s a t hmove
    refine MySqlPool.move_step ?_ hmove
    rintro i f rfl
    simp [mendMoves] at hm
  have hbuilt : RedisConPool.State.construct [.connected .ok] [] =
      some (RedisConPool.State.init [0] ([] : List Unit)) := rfl
  have hredis := RedisConPool.follow_choices mendChoices (by simp [mendChoices]) (.init [0] [])
  have hsizes := recovers_iff hmysql (by decide +kernel) hbuilt hredis (by decide +kernel)
  refine ⟨_, _, _, _, _, hmysql, ?_, ?_, hbuilt, hredis, ?_, ?_⟩
  · decide +kernel
  · exact hsizes.1 (by decide) (by decide +kernel)
  · decide +kernel
  · exact (hsizes.2.2 (by decide +kernel)).mpr (by decide)

/-- Redis cannot be reached when the constructor runs. The first pass finds nothing to do, and the pool
stays empty. -/
theorem recovers_fails : ¬ ∀ attempts s₀ tr s,
    RedisConPool.State.construct attempts ([] : List Unit) = some s₀ → Run (RedisStep Unit) s₀ tr s →
      s.pool.stopped = false → RedisConPool.Passed tr → s.pool.size = attempts.length := by
  intro h
  have hbuilt : RedisConPool.State.construct [.null] [] =
      some (RedisConPool.State.init [] ([] : List Unit)) := rfl
  have hrun := RedisConPool.follow_choices (List.replicate 123 (.check true)) (by simp) (.init [] [])
  have hsize := h _ _ _ _ hbuilt hrun (by decide +kernel) (by decide +kernel)
  exact absurd hsize (by decide +kernel)

end ChatServer
