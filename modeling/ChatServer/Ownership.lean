import ChatServer.Constructors

/-!
# Who owns a Redis context

`infra/redis/RedisConPool.cpp` once more, with every call of `redisFree`: the steps of the pool, the
attempts of `reconnect` that free their context, and `clearConnections`, which the destructor calls
behind `close`. A context is named by a number, and `next` of them have been obtained.
-/

namespace ChatServer

open Interaction Prog Transition ConnPool

namespace RedisConPool

/-! ## Contexts -/

/-- The pool, the contexts that have been freed, and whether the destructor has cleared the queue. -/
structure Contexts (K : Type) where
  base : State K
  freed : List Conn
  destroyed : Bool

variable {K : Type}

/-- The pool behind its constructor. -/
def Built.contexts (b : Built) (callers : List K) : Contexts K where
  base := b.state callers
  freed := b.freed
  destroyed := false

/-- What a step of the pool frees: the context whose PING has failed. -/
def State.frees (s : State K) : Act K → List Conn
  | .failed =>
    match s.check with
    | .pinging con _ => [con]
    | _ => []
  | _ => []

/-- `reconnect` frees the context that it has obtained. -/
def Attempt.Rejected : Attempt → Prop
  | .err | .connected .error | .connected .null => True
  | .null | .connected .ok => False

namespace Contexts

inductive Act (K : Type) where
  /-- A step of the pool; of the attempts of `reconnect`, the one that succeeds and the one in which
  `redisConnect` returns null. -/
  | pool (a : RedisConPool.Act K)
  | reject (attempt : Attempt)
  /-- `clearConnections`, in the destructor. -/
  | clear

inductive Step (ops : K → RedisClient Unit → Prop) (arrives : K → Prop) :
    Contexts K → Act K → Contexts K → Prop where
  | pool {s : Contexts K} {a : RedisConPool.Act K} {t : State K} :
      RedisConPool.Step ops arrives s.base a t →
      Step ops arrives s (.pool a) { s with base := t, freed := s.freed ++ s.base.frees a }
  | reject {s : Contexts K} {attempt : Attempt} {t : State K} : attempt.Rejected →
      RedisConPool.Step ops arrives s.base .connectFails t →
      Step ops arrives s (.reject attempt)
        { s with base := { t with next := t.next + 1 }, freed := s.freed ++ [s.base.next] }
  | clear {s : Contexts K} : s.base.closer = .closed →
      Step ops arrives s .clear
        { base := { s.base with pool := { s.base.pool with idle := [] } }
          freed := s.freed ++ s.base.pool.idle
          destroyed := true }

end Contexts

/-- The context in the hands of the check thread: it is checked, or `reconnect` is about to push it. -/
def CheckPc.context : CheckPc → List Conn
  | .pinging con _ | .returning con _ | .pushing con => [con]
  | _ => []

/-- In how many places a context is: in the queue, with the callers, with the check thread, freed. -/
def Contexts.owners (s : Contexts K) (con : Conn) : Nat :=
  s.base.pool.holders con + s.base.check.context.count con + s.freed.count con

/-- Every context that has been obtained is in one place, once; and when the pool has been destroyed and
all callers have given theirs back, it has been freed once. -/
structure Contexts.Owned (s : Contexts K) : Prop where
  once : ∀ con, s.owners con = if con < s.base.next then 1 else 0
  freed : s.destroyed = true → (∀ x ∈ s.base.pool.callers, x.held = []) →
    ∀ con, con < s.base.next → s.freed.count con = 1

/-! ## The constructor -/

/-- In how many places a context is while the constructor runs. -/
def Built.owners (b : Built) (con : Conn) : Nat := b.idle.count con + b.freed.count con

def Built.Owned (b : Built) : Prop := ∀ con, b.owners con = if con < b.next then 1 else 0

/-- A context that has been obtained is nowhere. -/
def Built.Lost (b : Built) : Prop := ∃ con, con < b.next ∧ b.owners con = 0

theorem Built.Lost.not_owned {b : Built} (h : b.Lost) : ¬ b.Owned := by
  obtain ⟨con, hlt, hzero⟩ := h
  intro ho
  have hone := ho con
  rw [if_pos hlt] at hone
  omega

/-- What an iteration of the loop does to the places of a context. -/
theorem Built.attempt_owners {b b' : Built} {attempt : Attempt} (h : b.attempt attempt = some b') :
    (b' = b ∧ attempt = .null) ∨
      (b'.next = b.next + 1 ∧ ∀ con, b'.owners con =
        b.owners con + if attempt = .connected .error then 0 else [b.next].count con) := by
  rcases attempt with _ | _ | auth
  · obtain rfl := Option.some.inj h
    exact Or.inl ⟨rfl, rfl⟩
  · obtain rfl := Option.some.inj h
    refine Or.inr ⟨rfl, fun con => ?_⟩
    simp [Built.owners]
    omega
  · rcases auth with _ | _ | _
    · obtain rfl := Option.some.inj h
      refine Or.inr ⟨rfl, fun con => ?_⟩
      simp [Built.owners]
      omega
    · obtain rfl := Option.some.inj h
      exact Or.inr ⟨rfl, fun con => rfl⟩
    · cases h

theorem count_singleton_next (next con : Nat) :
    (if con < next then 1 else 0) + [next].count con = if con < next + 1 then 1 else 0 := by
  rw [List.count_singleton]
  simp only [beq_iff_eq]
  split <;> split <;> split <;> omega

theorem Built.Lost.attempt {b b' : Built} {attempt : Attempt} (hl : b.Lost)
    (h : b.attempt attempt = some b') : b'.Lost := by
  rcases Built.attempt_owners h with ⟨rfl, -⟩ | ⟨hnext, howners⟩
  · exact hl
  · obtain ⟨con, hlt, hzero⟩ := hl
    refine ⟨con, ?_, ?_⟩
    · rw [hnext]
      exact Nat.lt_succ_of_lt hlt
    · have hne : [b.next].count con = 0 := by
        rw [List.count_singleton, if_neg (by simpa using (Nat.ne_of_lt hlt).symm)]
      rw [howners, hzero, hne, ite_self]

/-- A context is lost exactly if its AUTH is answered with an error. -/
theorem Built.Owned.attempt {b b' : Built} {attempt : Attempt} (ho : b.Owned)
    (h : b.attempt attempt = some b') :
    (attempt ≠ .connected .error → b'.Owned) ∧ (attempt = .connected .error → b'.Lost) := by
  rcases Built.attempt_owners h with ⟨rfl, rfl⟩ | ⟨hnext, howners⟩
  · exact ⟨fun _ => ho, nofun⟩
  · constructor
    · intro hne con
      rw [howners, if_neg hne, ho, hnext]
      exact count_singleton_next b.next con
    · rintro rfl
      refine ⟨b.next, ?_, ?_⟩
      · rw [hnext]
        exact Nat.lt_succ_self b.next
      · rw [howners, if_pos rfl, ho, if_neg (Nat.lt_irrefl b.next)]

theorem Built.Lost.build {attempts : List Attempt} {b b' : Built} (hl : b.Lost)
    (h : attempts.foldlM Built.attempt b = some b') : b'.Lost := by
  induction attempts generalizing b with
  | nil =>
    obtain rfl := Option.some.inj h
    exact hl
  | cons attempt attempts ih =>
    obtain ⟨b₁, hb₁, hrest⟩ := Option.bind_eq_some_iff.mp h
    exact ih (hl.attempt hb₁) hrest

/-- The constructor owns its contexts exactly if no AUTH was answered with an error. -/
theorem Built.Owned.build {attempts : List Attempt} {b b' : Built} (ho : b.Owned)
    (h : attempts.foldlM Built.attempt b = some b') :
    b'.Owned ↔ .connected .error ∉ attempts := by
  induction attempts generalizing b with
  | nil =>
    obtain rfl := Option.some.inj h
    exact iff_of_true ho List.not_mem_nil
  | cons attempt attempts ih =>
    obtain ⟨b₁, hb₁, hrest⟩ := Option.bind_eq_some_iff.mp h
    by_cases hattempt : attempt = .connected .error
    · refine iff_of_false ?_ ?_
      · exact (((ho.attempt hb₁).2 hattempt).build hrest).not_owned
      · rw [hattempt]
        simp
    · rw [ih ((ho.attempt hb₁).1 hattempt) hrest, List.mem_cons]
      simp [Ne.symm hattempt]

/-- The constructor reads a null reply exactly if some AUTH is answered with one. -/
theorem build_eq_none {attempts : List Attempt} {b : Built} :
    attempts.foldlM Built.attempt b = none ↔ .connected .null ∈ attempts := by
  induction attempts generalizing b with
  | nil => exact iff_of_false nofun List.not_mem_nil
  | cons attempt attempts ih =>
    rw [List.foldlM_cons, List.mem_cons]
    rcases attempt with _ | _ | (_ | _ | _)
    · exact ih.trans (by simp)
    · exact ih.trans (by simp)
    · exact ih.trans (by simp)
    · exact ih.trans (by simp)
    · exact iff_of_true rfl (Or.inl rfl)

/-! ## Closing -/

/-- What `close` has brought about. -/
structure Closing (s : State K) : Prop where
  stopped : s.pool.stopped = true ↔ s.closer = .stopped ∨ s.closer = .joining ∨ s.closer = .closed
  ended : s.closer = .closed → s.check = .ended

section Runs

variable {ops : K → RedisClient Unit → Prop} {arrives : K → Prop} {limit : K → Nat}

theorem closing_init (idle : List Conn) (kinds : List K) : Closing (State.init idle kinds) := by
  refine ⟨iff_of_false nofun ?_, nofun⟩
  rintro (h | h | h) <;> cases h

theorem Closing.move {s t : State K} {a : RedisConPool.Act K} (hi : Closing s)
    (h : Move ops arrives s a t) : Closing t := by
  -- `close` has not returned while the check thread runs
  have hruns : s.check ≠ .ended → s.closer = .closed → t.check = .ended :=
    fun hc hclosed => absurd (hi.ended hclosed) hc
  cases h with
  | caller h => exact ⟨by rw [h.stopped]; exact hi.stopped, hi.ended⟩
  | finish _ _ => exact ⟨hi.stopped, fun _ => rfl⟩
  | lock hc =>
    have hrun : s.pool.stopped ≠ true := by
      rw [Ne, hi.stopped, hc]
      simp
    exact ⟨by simp [hrun], by simp⟩
  | stop _ | notifyAll _ => exact ⟨by simp [Pool.stop], by simp⟩
  | join hc hended =>
    have hstop := hi.stopped.mpr (Or.inr (Or.inl hc))
    exact ⟨by simp [hstop], fun _ => hended⟩
  | begin hc _ | count hc | size hc | test hc _ | leave hc _ | takeOut hc _ _ | runOut hc _ | pong hc
  | failed hc | addFailure hc | pushBack hc _ _ | dropped hc _ | retry hc _ | repaired hc _
  | connectFails hc | connect hc | push hc | restore hc =>
    exact ⟨hi.stopped, hruns (by simp [hc])⟩

/-- Once `close` has returned, only callers move, and they find the pool stopped. -/
theorem Closing.moves {s t : State K} {a : RedisConPool.Act K} (hi : Closing s)
    (hclosed : s.closer = .closed) (h : Move ops arrives s a t) :
    t.closer = .closed ∧ t.pool.idle = s.pool.idle := by
  have hended := hi.ended hclosed
  have hstop := hi.stopped.mpr (Or.inr (Or.inr hclosed))
  cases h with
  | caller h =>
    refine ⟨hclosed, ?_⟩
    cases h with
    | take _ _ hrun _ | giveBack _ _ hrun _ =>
      rw [hstop] at hrun
      cases hrun
    | _ => rfl
  | lock hc | stop hc | notifyAll hc | join hc _ =>
    rw [hclosed] at hc
    cases hc
  | begin hc _ | finish hc _ | count hc | size hc | test hc _ | leave hc _ | takeOut hc _ _
  | runOut hc _ | pong hc | failed hc | addFailure hc | pushBack hc _ _ | dropped hc _ | retry hc _
  | repaired hc _ | connectFails hc | connect hc | push hc | restore hc =>
    rw [hended] at hc
    cases hc

/-- While `_b_stop` is set and the mutex is free, the check thread has ended. -/
theorem Closing.ended_of_free {s : State K} (hi : Closing s) (hstop : s.pool.stopped = true)
    (hfree : s.closer.inside = false) : s.check = .ended := by
  rcases hi.stopped.mp hstop with hc | hc | hc
  · rw [hc] at hfree
    cases hfree
  · rw [hc] at hfree
    cases hfree
  · exact hi.ended hc

/-! ## Steps -/

namespace Contexts

/-- What holds in every reachable state, whoever owns the contexts. -/
structure Inv (limit : K → Nat) (s : Contexts K) : Prop where
  formed : Formed limit s.base.pool.callers
  closing : Closing s.base
  cleared : s.destroyed = true → s.base.closer = .closed ∧ s.base.pool.idle = []

variable {s t : Contexts K} {a : Act K}

/-- A queue that has been cleared stays so. -/
theorem Inv.stays_cleared {b : RedisConPool.Act K} {u : State K} (hi : Inv limit s)
    (h : Move ops arrives s.base b u) (hdestroyed : s.destroyed = true) :
    u.closer = .closed ∧ u.pool.idle = [] := by
  obtain ⟨hclosed, hidle⟩ := hi.cleared hdestroyed
  obtain ⟨hclosed', hidle'⟩ := hi.closing.moves hclosed h
  exact ⟨hclosed', hidle'.trans hidle⟩

theorem Inv.step (hops : ∀ kind q, ops kind q → Balanced (limit kind) q) (hi : Inv limit s)
    (h : Step ops arrives s a t) : Inv limit t := by
  cases h with
  | pool h => exact ⟨h.move.formed hops hi.formed, hi.closing.move h.move, hi.stays_cleared h.move⟩
  | reject _ h =>
    have hformed := h.move.formed hops hi.formed
    have hclosing := hi.closing.move h.move
    have hcleared := hi.stays_cleared h.move
    exact ⟨hformed, ⟨hclosing.stopped, hclosing.ended⟩, hcleared⟩
  | clear hclosed => exact ⟨hi.formed, ⟨hi.closing.stopped, hi.closing.ended⟩, fun _ => ⟨hclosed, rfl⟩⟩

/-- A context that is dropped is in one place less. -/
theorem Step.owners_drop (hi : Inv limit s) (h : Step ops arrives s (.pool (.caller .drop)) t) :
    t.base.next = s.base.next ∧ ∃ con, s.owners con = t.owners con + 1 := by
  cases h with
  | pool h =>
    obtain ⟨-, hmove⟩ := h
    cases hmove with
    | caller h =>
      obtain ⟨con, hcon⟩ := h.holders_drop hi.formed
      refine ⟨rfl, con, ?_⟩
      simp [owners, State.frees, hcon]
      omega

/-- **What a step does to the places of the contexts**: it leaves them as many as they are, and puts a
new context into one place. -/
theorem Step.owners (hi : Inv limit s) (h : Step ops arrives s a t)
    (ha : a ≠ .pool (.caller .drop)) :
    (t.base.next = s.base.next ∧ ∀ con, t.owners con = s.owners con) ∨
      (t.base.next = s.base.next + 1 ∧
        ∀ con, t.owners con = s.owners con + [s.base.next].count con) := by
  cases h with
  | clear hclosed =>
    refine Or.inl ⟨rfl, fun con => ?_⟩
    simp [Contexts.owners, Pool.holders]
    omega
  | reject hrejected h =>
    obtain ⟨-, hmove⟩ := h
    cases hmove with
    | connectFails hc =>
      refine Or.inr ⟨rfl, fun con => ?_⟩
      simp [Contexts.owners, CheckPc.context, hc]
      omega
  | pool h =>
    obtain ⟨hfree, hmove⟩ := h
    cases hmove with
    | @caller b p h =>
      have hb : b ≠ .drop := by
        rintro rfl
        exact ha rfl
      refine Or.inl ⟨rfl, fun con => ?_⟩
      simp [Contexts.owners, State.frees, h.holders hi.formed hb con]
    | takeOut hc _ hidle =>
      refine Or.inl ⟨rfl, fun con => ?_⟩
      simp [Contexts.owners, Pool.holders, State.frees, CheckPc.context, hc, hidle, List.count_cons]
      omega
    | pushBack hc _ hn =>
      refine Or.inl ⟨rfl, fun con => ?_⟩
      simp [Contexts.owners, Pool.holders, State.frees, CheckPc.context, hc, hn.holdersOf con]
      omega
    | failed hc =>
      refine Or.inl ⟨rfl, fun con => ?_⟩
      simp [Contexts.owners, Pool.holders, State.frees, CheckPc.context, hc]
      omega
    | dropped hc hstop =>
      -- the check thread has ended before the mutex is free again
      have hended := hi.closing.ended_of_free hstop (hfree rfl)
      rw [hc] at hended
      cases hended
    | connect hc =>
      refine Or.inr ⟨rfl, fun con => ?_⟩
      simp [Contexts.owners, State.frees, CheckPc.context, hc]
      omega
    | push hc =>
      refine Or.inl ⟨rfl, fun con => ?_⟩
      simp [Contexts.owners, Pool.holders, State.frees, CheckPc.context, hc]
      omega
    | count hc =>
      refine Or.inl ⟨rfl, fun con => ?_⟩
      dsimp only [Contexts.owners]
      split <;> simp [State.frees, CheckPc.context, hc]
    | notifyAll _ =>
      refine Or.inl ⟨rfl, fun con => ?_⟩
      simp [Contexts.owners, State.frees, Pool.holders_stop]
    | lock _ | stop _ | join _ _ =>
      exact Or.inl ⟨rfl, fun con => by simp [Contexts.owners, Pool.holders, State.frees]⟩
    | begin hc _ | finish hc _ | size hc | test hc _ | leave hc _ | runOut hc _ | pong hc
    | addFailure hc | retry hc _ | repaired hc _ | connectFails hc | restore hc =>
      exact Or.inl ⟨rfl, fun con => by simp [Contexts.owners, State.frees, CheckPc.context, hc]⟩

/-- When the pool has been destroyed and the callers hold nothing, the contexts have been freed. -/
theorem Inv.freed (hi : Inv limit s) (honce : ∀ con, s.owners con = if con < s.base.next then 1 else 0)
    (hdestroyed : s.destroyed = true) (hheld : ∀ x ∈ s.base.pool.callers, x.held = []) (con : Conn)
    (hcon : con < s.base.next) : s.freed.count con = 1 := by
  obtain ⟨hclosed, hidle⟩ := hi.cleared hdestroyed
  have howners := honce con
  rw [if_pos hcon] at howners
  simpa [owners, Pool.holders, hidle, holdersOf_eq_zero hheld, hi.closing.ended hclosed,
    CheckPc.context] using howners

/-- **How a context is lost**: a caller gives it back when `_b_stop` is set. -/
theorem Step.owned (hops : ∀ kind q, ops kind q → Balanced (limit kind) q) (hi : Inv limit s)
    (ho : s.Owned) (h : Step ops arrives s a t) : t.Owned ↔ a ≠ .pool (.caller .drop) := by
  constructor
  · rintro ht rfl
    obtain ⟨hnext, con, hcon⟩ := h.owners_drop hi
    rw [ho.once con, ht.once con, hnext] at hcon
    omega
  · intro ha
    have honce : ∀ con, t.owners con = if con < t.base.next then 1 else 0 := by
      intro con
      rcases h.owners hi ha with ⟨hnext, howners⟩ | ⟨hnext, howners⟩
      · rw [howners, hnext]
        exact ho.once con
      · rw [howners, hnext, ho.once con]
        exact count_singleton_next s.base.next con
    exact ⟨honce, (hi.step hops h).freed honce⟩

end Contexts

end Runs

/-! ## Runs -/

/-- The steps with threads that call `RedisMgr`; new ones start at any time. -/
abbrev ContextsStep (K : Type) : Contexts K → Contexts.Act K → Contexts K → Prop :=
  Contexts.Step RunsRedisMgr fun _ => True

section OwnedRuns

variable {kinds : List K} {attempts : List Attempt} {b : Built} {s : Contexts K}
  {tr : List (Contexts.Act K × Contexts K)}

theorem runsRedisMgr_balanced {kind : K} {q : RedisClient Unit} (h : RunsRedisMgr kind q) :
    Balanced 1 q := by
  obtain ⟨o, rfl⟩ := h
  exact RedisMgr.operation_balanced o

/-- Every run of the pool is one with its contexts. -/
theorem exists_contexts_run {s₀ t : State K} {tr : List (Act K × State K)} (freed : List Conn)
    (h : Run (RedisStep K) s₀ tr t) :
    ∃ tr' c, Run (ContextsStep K) ⟨s₀, freed, false⟩ tr' c ∧ c.base = t := by
  induction h with
  | nil => exact ⟨[], _, .nil, rfl⟩
  | snoc _ hs ih =>
    obtain ⟨tr', c, hr, rfl⟩ := ih
    exact ⟨_, _, .snoc hr (.pool hs), rfl⟩

theorem Built.contexts_owned (b : Built) (kinds : List K) : (b.contexts kinds).Owned ↔ b.Owned := by
  have howners : ∀ con, (b.contexts kinds).owners con = b.owners con := by
    intro con
    have hheld : holdersOf con (b.state kinds).pool.callers = 0 := by
      refine holdersOf_eq_zero ?_
      intro x hx
      obtain ⟨kind, -, rfl⟩ := List.mem_map.mp hx
      rfl
    show b.idle.count con + holdersOf con (b.state kinds).pool.callers + 0 + b.freed.count con = _
    rw [hheld]
    rfl
  constructor
  · intro h con
    rw [← howners]
    exact h.once con
  · intro h
    refine ⟨fun con => ?_, nofun⟩
    rw [howners]
    exact h con

theorem Contexts.Inv.of_run (h : Run (ContextsStep K) (b.contexts kinds) tr s) :
    s.Inv fun _ => 1 := by
  refine Run.invariant (P := fun _ s => s.Inv fun _ => 1) ?_ ?_ h
  · have hclosing := closing_init b.idle kinds
    exact ⟨formed_init kinds, ⟨hclosing.stopped, hclosing.ended⟩, nofun⟩
  · intro tr s a t _ hi hs
    exact hi.step (fun _ _ => runsRedisMgr_balanced) hs

theorem owned_iff (hb : build attempts = some b) (h : Run (ContextsStep K) (b.contexts kinds) tr s) :
    Throughout (ContextsStep K) (b.contexts kinds) (fun _ s => s.Owned) tr ↔
      .connected .error ∉ attempts ∧
        Each (ContextsStep K) (b.contexts kinds) (fun _ _ a => a ≠ .pool (.caller .drop)) tr := by
  have hempty : Built.Owned {} := fun con => by simp [Built.owners]
  have hinit : (b.contexts kinds).Owned ↔ .connected .error ∉ attempts :=
    (b.contexts_owned kinds).trans (hempty.build hb)
  by_cases herror : .connected .error ∈ attempts
  · refine iff_of_false ?_ fun hall => hall.1 herror
    intro hall
    exact hinit.mp (hall [] _ .nil (List.nil_prefix)) herror
  · rw [and_iff_right herror]
    refine Run.throughout_iff_each (hinit.mpr herror) ?_ h
    intro tr s a t hr hall hs
    exact hs.owned (fun _ _ => runsRedisMgr_balanced) (.of_run hr) (hall tr s hr (List.prefix_refl _))

/-- **Who owns the contexts**, for every sequence of outcomes of `redisConnect` and AUTH in the
constructor, of PING, `redisConnect` and AUTH afterwards, and every order of steps. The constructor reads
a null reply exactly if an AUTH gets one. Behind it, every context is in one place, once, in each state of
a run, and freed once in the end, exactly if no AUTH of the constructor was answered with an error and
no caller gives a context back when `_b_stop` is set. -/
theorem ownership_iff (attempts : List Attempt) (kinds : List K) :
    (State.construct attempts kinds = none ↔ .connected .null ∈ attempts) ∧
    ∀ b tr s, build attempts = some b → Run (ContextsStep K) (b.contexts kinds) tr s →
      (Throughout (ContextsStep K) (b.contexts kinds) (fun _ s => s.Owned) tr ↔
        .connected .error ∉ attempts ∧
          Each (ContextsStep K) (b.contexts kinds) (fun _ _ a => a ≠ .pool (.caller .drop)) tr) := by
  constructor
  · exact Option.map_eq_none_iff.trans build_eq_none
  · intro b tr s hb h
    exact owned_iff hb h

end OwnedRuns

/-! ## One context and one caller -/

/-- What happens next: a choice of the pool's, or the destructor clears the queue. -/
inductive Contexts.Choice (K : Type) where
  | pool (m : RedisConPool.Choice K)
  | clear

/-- Carry out a choice, if it is possible; `answer` answers the commands of the threads. -/
def Contexts.move (answer : (q : List Bytes) → Answer q) :
    Contexts.Choice K → Contexts K → Option (Contexts.Act K × Contexts K)
  | .pool m, s => (s.base.move answer m).map fun x =>
      (.pool x.1, { s with base := x.2, freed := s.freed ++ s.base.frees x.1 })
  | .clear, s =>
    if s.base.closer = .closed then
      some (.clear,
        { base := { s.base with pool := { s.base.pool with idle := [] } }
          freed := s.freed ++ s.base.pool.idle
          destroyed := true })
    else none

/-- The pool with the context 0 behind its constructor, and one caller. -/
def oneContext : Contexts Unit := Built.contexts { idle := [0], next := 1 } [()]

/-- The caller reads a token, and the pool is closed and destroyed. The context is given back before
that. -/
def orderlyChoices : List (Contexts.Choice Unit) :=
  [.pool (.call 0 tokenLookup), .pool (.advance 0), .pool (.advance 0), .pool (.advance 0), .pool .close,
    .pool .close, .pool .close, .pool (.check true), .pool .close, .clear]

/-- The same, with the context given back when `close` has returned. -/
def lateChoices : List (Contexts.Choice Unit) :=
  [.pool (.call 0 tokenLookup), .pool (.advance 0), .pool (.advance 0), .pool .close, .pool .close,
    .pool .close, .pool (.check true), .pool .close, .pool (.advance 0), .clear]

theorem contexts_run (ms : List (Contexts.Choice Unit))
    (hms : ∀ i f, .pool (.call i f) ∈ ms → f = tokenLookup) (s : Contexts Unit) :
    Run (ContextsStep Unit) s (follow (Contexts.move fun _ => none) s ms)
      (final s (follow (Contexts.move fun _ => none) s ms)) := by
  refine follow_run ?_ s
  intro m hm s a t hmove
  rcases m with m | _
  · obtain ⟨⟨b, u⟩, hbase, he⟩ := Option.map_eq_some_iff.mp hmove
    cases he
    refine .pool (move_step ?_ hbase)
    rintro i f rfl kind
    obtain rfl := hms i f hm
    exact ⟨.get (tokenKey 7), rfl⟩
  · obtain ⟨hclosed, he⟩ := Option.ite_none_right_eq_some.mp hmove
    cases he
    exact .clear hclosed

/-- The context is freed by the destructor. -/
theorem ownership_orderly : ∃ tr s, Run (ContextsStep Unit) oneContext tr s ∧ s.freed = [0] ∧
    (Throughout (ContextsStep Unit) oneContext (fun _ s => s.Owned) tr ↔
      .connected .error ∉ [Attempt.connected .ok] ∧
        Each (ContextsStep Unit) oneContext (fun _ _ a => a ≠ .pool (.caller .drop)) tr) := by
  have hrun := contexts_run orderlyChoices (by simp [orderlyChoices]) oneContext
  refine ⟨_, _, hrun, ?_, (ownership_iff [.connected .ok] [()]).2 _ _ _ rfl hrun⟩
  decide

/-- An AUTH that gets no reply ends the constructor; one that is answered with an error leaves the context
behind; and a context that is given back when the pool has been closed is dropped. -/
theorem ownership_fails :
    State.construct [.connected .null] [()] = none ∧
    (∃ b, build [.connected .error] = some b ∧ ¬ (b.contexts [()]).Owned) ∧
    ¬ ∀ tr s, Run (ContextsStep Unit) oneContext tr s → s.Owned := by
  refine ⟨rfl, ⟨_, rfl, ?_⟩, ?_⟩
  · intro h
    have hone := h.once 0
    revert hone
    decide
  · intro h
    have hrun := contexts_run lateChoices (by simp [lateChoices]) oneContext
    have hone := (h _ _ hrun).once 0
    revert hone
    decide

end RedisConPool

end ChatServer
