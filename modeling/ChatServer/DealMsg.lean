import ChatServer.Lib.Monitor
import ChatServer.Footprint

/-!
# The queue of the logic worker

`LogicSystem` as a monitor: `postMsgToQue` is called by any number of threads, `dealMsg` runs in the
worker's thread, and `~LogicSystem` in another. Every step is one access to `_mutex`, `_msg_que`,
`_consume` or `_b_stop`. The worker keeps the mutex from the test of the queue to the end of the
iteration, the handler included; a producer notifies after it has unlocked, and only if its message
was the first; the destructor takes no lock at all. Handlers return, and they post nothing
(`handler_posts_nothing`).

* `delivered`: what was pushed is what was taken, in order, and what is still queued; no wake-up of
  the worker is lost; and the worker ends only after it has emptied the queue.
* `join_safe`: what the destructor needs for its `join` to return.
-/

namespace ChatServer

open Transition Monitor

namespace DealMsg

/-! ## The threads -/

/-- Where the worker is in `dealMsg`. `stop` is what `if (_b_stop)` has found. -/
inductive WorkerPc where
  /-- Before the lock at the top of the loop. -/
  | locking
  /-- Before the test of the inner loop. -/
  | testing
  /-- The test said to wait. -/
  | toWait
  | asleep
  /-- Woken up, before it has the mutex again. -/
  | waking
  /-- Before `if (_b_stop)`. -/
  | checking
  /-- Before `_msg_que.front()`, or, when it stops, before the test of the loop around it. -/
  | front (stop : Bool)
  /-- In the handler of the node at the front. -/
  | handling (stop : Bool)
  | popping (stop : Bool)
  /-- At the end of the scope of the lock. -/
  | unlocking (stop : Bool)
  | ended
  deriving DecidableEq, Repr

namespace WorkerPc

/-- The worker has the mutex. -/
def inside : WorkerPc → Bool
  | .testing | .toWait | .checking | .front _ | .handling _ | .popping _ | .unlocking _ => true
  | .locking | .asleep | .waking | .ended => false

/-- The node at the front has been taken, and is still there. -/
def holdsFront : WorkerPc → Bool
  | .handling _ | .popping _ => true
  | _ => false

def notified : WorkerPc → WorkerPc
  | .asleep => .waking
  | pc => pc

def phase : WorkerPc → Phase
  | .toWait => .deciding
  | .asleep => .asleep
  | _ => .awake

end WorkerPc

/-- Where a thread is in `postMsgToQue`. -/
inductive PosterPc where
  | idle
  | locking (msg : LogicNode)
  | pushing (msg : LogicNode)
  /-- `first` is what the test of the size has found. -/
  | unlocking (first : Bool)
  /-- Before `notify_one`. -/
  | notifying
  deriving DecidableEq, Repr

namespace PosterPc

def inside : PosterPc → Bool
  | .pushing _ | .unlocking _ => true
  | _ => false

/-- The thread has pushed the first message, and has not yet called `notify_one`. -/
def willNotify : PosterPc → Bool
  | .unlocking first => first
  | .notifying => true
  | _ => false

end PosterPc

/-- Where `~LogicSystem` is. -/
inductive DestructorPc where
  | running
  /-- `_b_stop` is set. -/
  | stopping
  /-- `notify_all` has been called, and `join` waits for the worker. -/
  | joining
  | joined
  deriving DecidableEq, Repr

/-! ## The monitor -/

/-- A thread that locks the mutex. -/
inductive Thread (T : Type) where
  | worker
  | poster (t : T)

/-- The fields of `LogicSystem` and its threads. The last three fields are a history: what was pushed,
what the worker took from the front, and the nodes for which a handler was called. -/
structure State (T : Type) where
  mutex : Option (Thread T)
  msgQue : List LogicNode
  bStop : Bool
  worker : WorkerPc
  posters : T → PosterPc
  destructor : DestructorPc
  pushed : List LogicNode
  taken : List LogicNode
  called : List LogicNode

variable {T : Type}

def State.init : State T :=
  { mutex := none, msgQue := [], bStop := false, worker := .locking, posters := fun _ => .idle,
    destructor := .running, pushed := [], taken := [], called := [] }

/-- There is a handler for the node. -/
def registered (J : JsonCpp) (self : ServerName) (node : LogicNode) : Bool :=
  (LogicSystem.callback J self node.recvNode.msgId).isSome

inductive Act (T : Type) where
  -- dealMsg
  | lock
  | test
  | wait
  | spurious
  | relock
  | check
  | drained
  | call (node : LogicNode)
  | drop (node : LogicNode)
  | returned
  | pop
  | unlock
  -- postMsgToQue
  | post (t : T) (msg : LogicNode)
  | acquire (t : T)
  | push (t : T) (msg : LogicNode)
  | release (t : T)
  | notifyOne (t : T)
  -- ~LogicSystem
  | stop
  | notifyAll
  | join

/-- The steps. Only the worker waits on `_consume`, so a notification is for it. -/
inductive Step [DecidableEq T] (J : JsonCpp) (self : ServerName) :
    State T → Act T → State T → Prop where
  | lock {s : State T} : s.worker = .locking → s.mutex = none →
      Step J self s .lock { s with mutex := some .worker, worker := .testing }
  | test {s : State T} : s.worker = .testing →
      Step J self s .test
        { s with worker := if s.msgQue.isEmpty && !s.bStop then .toWait else .checking }
  | wait {s : State T} : s.worker = .toWait →
      Step J self s .wait { s with mutex := none, worker := .asleep }
  | spurious {s : State T} : s.worker = .asleep →
      Step J self s .spurious { s with worker := .waking }
  | relock {s : State T} : s.worker = .waking → s.mutex = none →
      Step J self s .relock { s with mutex := some .worker, worker := .testing }
  | check {s : State T} : s.worker = .checking →
      Step J self s .check { s with worker := .front s.bStop }
  | drained {s : State T} : s.worker = .front true → s.msgQue = [] →
      Step J self s .drained { s with worker := .unlocking true }
  | call {s : State T} {stop : Bool} {node : LogicNode} {rest : List LogicNode} :
      s.worker = .front stop → s.msgQue = node :: rest → registered J self node = true →
      Step J self s (.call node)
        { s with worker := .handling stop, taken := s.taken ++ [node],
                 called := s.called ++ [node] }
  | drop {s : State T} {stop : Bool} {node : LogicNode} {rest : List LogicNode} :
      s.worker = .front stop → s.msgQue = node :: rest → registered J self node = false →
      Step J self s (.drop node)
        { s with worker := .popping stop, taken := s.taken ++ [node] }
  | returned {s : State T} {stop : Bool} : s.worker = .handling stop →
      Step J self s .returned { s with worker := .popping stop }
  | pop {s : State T} {stop : Bool} : s.worker = .popping stop →
      Step J self s .pop
        { s with msgQue := s.msgQue.tail,
                 worker := if stop then .front true else .unlocking false }
  | unlock {s : State T} {stop : Bool} : s.worker = .unlocking stop →
      Step J self s .unlock
        { s with mutex := none, worker := if stop then .ended else .locking }
  | post {s : State T} {t : T} {msg : LogicNode} : s.posters t = .idle →
      Step J self s (.post t msg)
        { s with posters := Function.update s.posters t (.locking msg) }
  | acquire {s : State T} {t : T} {msg : LogicNode} :
      s.posters t = .locking msg → s.mutex = none →
      Step J self s (.acquire t)
        { s with mutex := some (.poster t),
                 posters := Function.update s.posters t (.pushing msg) }
  | push {s : State T} {t : T} {msg : LogicNode} : s.posters t = .pushing msg →
      Step J self s (.push t msg)
        { s with msgQue := s.msgQue ++ [msg], pushed := s.pushed ++ [msg],
                 posters := Function.update s.posters t
                   (.unlocking (decide ((s.msgQue ++ [msg]).length = 1))) }
  | release {s : State T} {t : T} {first : Bool} : s.posters t = .unlocking first →
      Step J self s (.release t)
        { s with mutex := none,
                 posters := Function.update s.posters t (if first then .notifying else .idle) }
  | notifyOne {s : State T} {t : T} : s.posters t = .notifying →
      Step J self s (.notifyOne t)
        { s with worker := s.worker.notified, posters := Function.update s.posters t .idle }
  | stop {s : State T} : s.destructor = .running →
      Step J self s .stop { s with bStop := true, destructor := .stopping }
  | notifyAll {s : State T} : s.destructor = .stopping →
      Step J self s .notifyAll { s with worker := s.worker.notified, destructor := .joining }
  | join {s : State T} : s.destructor = .joining → s.worker = .ended →
      Step J self s .join { s with destructor := .joined }

/-- A node without a handler is dropped. -/
theorem dispatch_of_not_registered {J : JsonCpp} {self : ServerName} {node : LogicNode}
    (h : registered J self node = false) : LogicSystem.dispatch J self node = pure () := by
  have hnone : LogicSystem.callback J self node.recvNode.msgId = none := by
    simpa [registered] using h
  rw [LogicSystem.dispatch, hnone]

open LogicSystem in
/-- A handler posts nothing, so it does not lock the mutex that its thread has. -/
theorem handler_posts_nothing (J : JsonCpp) (self : ServerName) (node : LogicNode) :
    (dispatch J self node).run.Uses fun c : Call => ∀ msg, c ≠ .postMsgToQue msg := by
  refine (dispatch_calls J self node).mono fun c hc => ?_
  rintro msg rfl
  generalize node.recvNode.msgId = msg_id at hc
  cases hc with
  | login h => cases h with | cache h => cases h
  | search h => cases h with | cache h => cases h
  | addFriend _ h => cases h with | cache h => cases h
  | authFriend _ _ h => cases h with | cache h => cases h
  | textChat _ h => cases h

namespace State

/-- The thread is in the critical section. -/
def Inside (s : State T) : Thread T → Prop
  | .worker => s.worker.inside = true
  | .poster t => (s.posters t).inside = true

/-- The nodes that nobody has taken. -/
def rest (s : State T) : List LogicNode :=
  if s.worker.holdsFront then s.msgQue.tail else s.msgQue

/-- A producer is going to notify the worker. -/
def Pending (s : State T) : Prop := ∃ t, (s.posters t).willNotify = true

end State

/-! ## Mutual exclusion -/

section Steps

variable {J : JsonCpp} {self : ServerName} {s t : State T} {a : Act T}

@[simp] theorem WorkerPc.inside_notified (pc : WorkerPc) : pc.notified.inside = pc.inside := by
  cases pc <;> rfl

@[simp] theorem WorkerPc.holdsFront_notified (pc : WorkerPc) :
    pc.notified.holdsFront = pc.holdsFront := by
  cases pc <;> rfl

theorem WorkerPc.holdsFront_of_outside {pc : WorkerPc} (h : pc.inside = false) :
    pc.holdsFront = false := by
  cases pc <;> first | rfl | cases h

/-- A step of the worker moves no other thread. -/
theorem others_worker (h : t.posters = s.posters) :
    ∀ y, y ≠ .worker → (t.Inside y ↔ s.Inside y) := by
  intro y hy
  cases y with
  | worker => exact absurd rfl hy
  | poster u => show (t.posters u).inside = true ↔ _; rw [h]; rfl

theorem others_poster [DecidableEq T] {u : T} {pc : PosterPc} (hw : t.worker.inside = s.worker.inside)
    (h : t.posters = Function.update s.posters u pc) :
    ∀ y, y ≠ .poster u → (t.Inside y ↔ s.Inside y) := by
  intro y hy
  cases y with
  | worker => show t.worker.inside = true ↔ _; rw [hw]; rfl
  | poster v =>
    have hv : v ≠ u := fun h => hy (by rw [h])
    show (t.posters v).inside = true ↔ _
    rw [h, Function.update_of_ne hv]
    rfl

theorem inside_worker : s.Inside .worker ↔ s.worker.inside = true := Iff.rfl

theorem inside_poster {u : T} : s.Inside (.poster u) ↔ (s.posters u).inside = true := Iff.rfl

variable [DecidableEq T]

theorem inside_moved {u : T} {pc : PosterPc} (h : t.posters = Function.update s.posters u pc) :
    t.Inside (.poster u) ↔ pc.inside = true := by
  rw [inside_poster, h, Function.update_self]

/-- **Mutual exclusion.** The thread in the critical section is the one that has the mutex. -/
theorem exclusive_step (hex : Exclusive s.mutex s.Inside) (h : Step J self s a t) :
    Exclusive t.mutex t.Inside := by
  cases h with
  | lock hw hm | relock hw hm => exact hex.access (others_worker rfl) (.acquire hm rfl)
  | test hw | check hw | drained hw | call hw | drop hw | returned hw | pop hw =>
    refine hex.access (others_worker rfl) (.keep ?_)
    rw [inside_worker, inside_worker, hw]
    dsimp only
    refine iff_of_true ?_ rfl
    first | rfl | (split <;> rfl)
  | wait hw =>
    have hin : s.Inside .worker := by rw [inside_worker, hw]; rfl
    exact hex.access (others_worker rfl) (.release hin (by rw [inside_worker]; nofun))
  | spurious hw =>
    refine hex.access (others_worker rfl) (.keep ?_)
    rw [inside_worker, inside_worker, hw]
    exact iff_of_false nofun nofun
  | unlock hw =>
    have hin : s.Inside .worker := by rw [inside_worker, hw]; rfl
    refine hex.access (others_worker rfl) (.release hin ?_)
    rw [inside_worker]
    dsimp only
    split <;> nofun
  | post hp =>
    refine hex.access (others_poster rfl rfl) (.keep ?_)
    rw [inside_moved rfl, inside_poster, hp]
    exact iff_of_false nofun nofun
  | acquire hp hm =>
    refine hex.access (others_poster rfl rfl) (.acquire hm ?_)
    rw [inside_moved rfl]
    rfl
  | push hp =>
    refine hex.access (others_poster rfl rfl) (.keep ?_)
    rw [inside_moved rfl, inside_poster, hp]
    exact iff_of_true rfl rfl
  | @release u _ hp =>
    have hin : s.Inside (.poster u) := by rw [inside_poster, hp]; rfl
    refine hex.access (others_poster rfl rfl) (.release hin ?_)
    rw [inside_moved rfl]
    split <;> nofun
  | notifyOne hp =>
    refine hex.access (others_poster (s.worker.inside_notified) rfl) (.keep ?_)
    rw [inside_moved rfl, inside_poster, hp]
    exact iff_of_false nofun nofun
  | stop _ | join _ _ => exact hex
  | notifyAll _ =>
    refine hex.access (others_worker rfl) (.keep ?_)
    rw [inside_worker, inside_worker, WorkerPc.inside_notified]

omit [DecidableEq T] in
/-- A thread that pushes keeps the worker out. -/
theorem outside_of_poster {u : T} (hex : Exclusive s.mutex s.Inside)
    (hu : (s.posters u).inside = true) : s.worker.inside = false :=
  Bool.eq_false_iff.mpr (hex.outside (x := .poster u) (y := .worker) hu nofun)

/-! ## What the worker knows -/

/-- What the worker has learnt about the queue since it has the mutex. -/
def Knows (s : State T) : Prop :=
  match s.worker with
  | .toWait => s.msgQue = []
  | .checking => s.msgQue ≠ [] ∨ s.bStop = true
  | .front stop => stop = false → s.msgQue ≠ []
  | .handling _ | .popping _ => s.msgQue ≠ []
  | _ => True

omit [DecidableEq T] in
/-- Outside of the critical section the worker knows nothing. -/
theorem knows_of_outside (h : s.worker.inside = false) : Knows s := by
  unfold Knows
  cases hw : s.worker <;> first | trivial | (rw [hw] at h; cases h)

omit [DecidableEq T] in
theorem knows_of_notified (h : Knows s) (hw : t.worker = s.worker.notified)
    (hq : t.msgQue = s.msgQue) (hb : t.bStop = s.bStop) : Knows t := by
  unfold Knows at *
  rw [hw, hq, hb]
  cases hs : s.worker <;> rw [hs] at h <;> exact h

theorem knows_step (hex : Exclusive s.mutex s.Inside) (hk : Knows s) (h : Step J self s a t) :
    Knows t := by
  cases h with
  | lock | wait | spurious | relock | drained => trivial
  | test hw =>
    -- the only place where the worker learns that the queue is empty
    unfold Knows
    by_cases hidle : (s.msgQue.isEmpty && !s.bStop) = true
    · rw [if_pos hidle]
      rw [Bool.and_eq_true, List.isEmpty_iff] at hidle
      exact hidle.1
    · rw [if_neg hidle]
      simp only [Bool.and_eq_true, List.isEmpty_iff, Bool.not_eq_true', not_and_or,
        Bool.not_eq_false] at hidle
      exact hidle
  | check hw =>
    -- `_b_stop` may have been set since the test, but it is never reset
    rw [Knows, hw] at hk
    exact fun hstop => hk.resolve_right (Bool.eq_false_iff.mp hstop)
  | call _ hq | drop _ hq => exact fun hnil => nomatch hq.symm.trans hnil
  | returned hw =>
    rw [Knows, hw] at hk
    exact hk
  | @pop stop hw =>
    cases stop
    · trivial
    · exact nofun
  | @unlock stop hw => cases stop <;> trivial
  | post | acquire | release | join => exact hk
  | push hp =>
    -- the producer has the mutex
    have hout : s.worker.inside = false := outside_of_poster hex (by rw [hp]; rfl)
    exact knows_of_outside hout
  | notifyOne | notifyAll => exact knows_of_notified hk rfl rfl rfl
  | stop _ =>
    unfold Knows at *
    dsimp only
    cases hw : s.worker with
    | checking => exact .inr rfl
    | _ => rw [hw] at hk; exact hk

/-! ## The order of the messages -/

/-- The queue without its mutex. -/
def State.fifo (s : State T) : Fifo LogicNode :=
  { offered := s.pushed, given := s.taken, waiting := s.rest }

omit [DecidableEq T] in
theorem fifo_eq (hp : t.pushed = s.pushed) (ht : t.taken = s.taken) (hq : t.msgQue = s.msgQue)
    (hf : t.worker.holdsFront = s.worker.holdsFront) : t.fifo = s.fifo := by
  unfold State.fifo State.rest
  rw [hp, ht, hq, hf]

omit [DecidableEq T] in
/-- Taking the node at the front. -/
theorem fifo_give {node : LogicNode} {rest : List LogicNode} (hs : s.worker.holdsFront = false)
    (hq : s.msgQue = node :: rest) (ht : t.worker.holdsFront = true) (hp : t.pushed = s.pushed)
    (hn : t.taken = s.taken ++ [node]) (hq' : t.msgQue = s.msgQue) : Fifo.Step s.fifo t.fifo := by
  have hrest : s.rest = node :: rest := by
    rw [State.rest, hs, if_neg nofun, hq]
  have hgive : t.fifo = { s.fifo with given := s.taken ++ [node], waiting := rest } := by
    rw [State.fifo, State.rest, hp, hn, hq', hq, ht, if_pos rfl, List.tail_cons]
    rfl
  rw [hgive]
  exact .give hrest

/-- **The monitor is a queue.** Each step puts a node at the back, takes one from the front, or does
nothing to the queue. -/
theorem step_fifo (hex : Exclusive s.mutex s.Inside) (h : Step J self s a t) :
    t.fifo = s.fifo ∨ Fifo.Step s.fifo t.fifo := by
  cases h with
  | lock hw | wait hw | spurious hw | relock hw | check hw | drained hw | returned hw =>
    exact .inl (fifo_eq rfl rfl rfl (by rw [hw]; rfl))
  | test hw =>
    refine .inl (fifo_eq rfl rfl rfl ?_)
    rw [hw]
    dsimp only
    split <;> rfl
  | unlock hw =>
    refine .inl (fifo_eq rfl rfl rfl ?_)
    rw [hw]
    dsimp only
    split <;> rfl
  | call hw hq | drop hw hq =>
    exact .inr (fifo_give (by rw [hw]; rfl) hq rfl rfl rfl rfl)
  | @pop stop hw =>
    -- the node was taken when the worker looked at it
    left
    unfold State.fifo State.rest
    rw [hw]
    cases stop <;> rfl
  | post | acquire | release | stop | join => exact .inl rfl
  | @push u msg hp =>
    have hout : s.worker.inside = false := outside_of_poster hex (by rw [hp]; rfl)
    have hfront := WorkerPc.holdsFront_of_outside hout
    right
    unfold State.fifo State.rest
    dsimp only
    rw [hfront]
    exact .offer msg
  | notifyOne | notifyAll => exact .inl (fifo_eq rfl rfl rfl (WorkerPc.holdsFront_notified _))

/-- The nodes without a handler are dropped, and no others. -/
theorem called_step (hc : s.called = s.taken.filter (registered J self))
    (h : Step J self s a t) : t.called = t.taken.filter (registered J self) := by
  cases h with
  | call _ _ hr =>
    dsimp only
    rw [hc, List.filter_append, List.filter_cons_of_pos hr, List.filter_nil]
  | drop _ _ hr =>
    dsimp only
    rw [hc, List.filter_append, List.filter_cons_of_neg (Bool.eq_false_iff.mp hr), List.filter_nil,
      List.append_nil]
  | _ => exact hc

/-! ## Every reachable state -/

structure Inv (J : JsonCpp) (S : ServerName) (s : State T) : Prop where
  exclusive : Exclusive s.mutex s.Inside
  knows : Knows s
  ordered : s.fifo.Ordered
  called : s.called = s.taken.filter (registered J S)

omit [DecidableEq T] in
theorem Inv.init (J : JsonCpp) (self : ServerName) : Inv J self (.init : State T) where
  exclusive := by
    intro x
    cases x <;> exact iff_of_false nofun nofun
  knows := trivial
  ordered := rfl
  called := rfl

theorem Inv.step (hi : Inv J self s) (h : Step J self s a t) : Inv J self t where
  exclusive := exclusive_step hi.exclusive h
  knows := knows_step hi.exclusive hi.knows h
  ordered := by
    rcases step_fifo hi.exclusive h with heq | hf
    · rw [heq]
      exact hi.ordered
    · exact hi.ordered.step hf
  called := called_step hi.called h

theorem inv_of_run {s₀ : State T} {tr : List (Act T × State T)} (h0 : Inv J self s₀)
    (h : Run (Step J self) s₀ tr s) : Inv J self s :=
  h.invariant (P := fun _ s => Inv J self s) h0 fun _ _ _ _ _ hi hs => hi.step hs

/-! ## No lost wake-up -/

omit [DecidableEq T] in
/-- A notification wakes the worker, unless it has only decided to sleep. -/
theorem phase_notified (pc : WorkerPc) : pc.notified.phase = .awake ∨ pc = .toWait := by
  cases pc <;> first | exact .inr rfl | exact .inl rfl

theorem phase_asleep (h : Step J self s a t) (ht : t.worker.phase = .asleep) :
    s.worker.phase ≠ .awake := by
  intro hs
  cases h with
  | wait hw => rw [hw] at hs; cases hs
  | notifyOne | notifyAll =>
    rcases phase_notified s.worker with hn | hn
    · exact nomatch hn.symm.trans ht
    · rw [hn] at hs; cases hs
  | test => dsimp only at ht; split at ht <;> cases ht
  | pop | unlock => dsimp only at ht; split at ht <;> cases ht
  | lock | relock | spurious | check | drained | call | drop | returned => cases ht
  | _ => exact nomatch hs.symm.trans ht

theorem phase_deciding (h : Step J self s a t) (ht : t.worker.phase = .deciding)
    (hs : s.worker.phase = .awake) : t.msgQue = [] ∧ t.bStop = false := by
  cases h with
  | test =>
    dsimp only at ht
    split at ht
    · rename_i hidle
      simpa using hidle
    · cases ht
  | notifyOne | notifyAll =>
    rcases phase_notified s.worker with hn | hn
    · exact nomatch hn.symm.trans ht
    · rw [hn] at hs; cases hs
  | pop | unlock => dsimp only at ht; split at ht <;> cases ht
  | lock | wait | relock | spurious | check | drained | call | drop | returned => cases ht
  | _ => exact nomatch hs.symm.trans ht

/-- How the queue looks to the worker. -/
def queueView (s : State T) : View :=
  { phase := s.worker.phase, idle := s.msgQue = [], due := s.Pending }

/-- A producer that was going to notify and is not any more has moved itself. -/
theorem not_pending {u : T} {pc : PosterPc} (hp : t.posters = Function.update s.posters u pc)
    (hs : s.Pending) (ht : ¬ t.Pending) :
    (s.posters u).willNotify = true ∧ pc.willNotify = false := by
  obtain ⟨v, hv⟩ := hs
  have hnone : ∀ x, (t.posters x).willNotify = false := fun x =>
    Bool.eq_false_iff.mpr fun hx => ht ⟨x, hx⟩
  by_cases hvu : v = u
  · subst hvu
    have := hnone v
    rw [hp, Function.update_self] at this
    exact ⟨hv, this⟩
  · have := hnone v
    rw [hp, Function.update_of_ne hvu, hv] at this
    cases this

/-- The messages are put into the queue under the mutex, so the worker does not decide to sleep in
between, and the first of them is notified. -/
theorem queue_keeps (hi : Inv J self s) (h : Step J self s a t) :
    Keeps (queueView s) (queueView t) where
  asleep := phase_asleep h
  deciding ht hs := (phase_deciding h ht hs).1
  busy hidle hbusy := by
    cases h with
    | @push u msg hp =>
      -- the queue was empty, so this message is the first
      refine ⟨u, ?_⟩
      dsimp only
      rw [Function.update_self, show s.msgQue = [] from hidle]
      rfl
    | pop =>
      refine absurd ?_ hbusy
      show s.msgQue.tail = []
      rw [show s.msgQue = [] from hidle, List.tail_nil]
    | _ => exact absurd hidle hbusy
  given hdue hnot := by
    cases h with
    | post hp | acquire hp | push hp =>
      have hu := (not_pending rfl hdue hnot).1
      rw [hp] at hu
      cases hu
    | @release u first hp =>
      obtain ⟨hu, hpc⟩ := not_pending rfl hdue hnot
      rw [hp] at hu
      rw [if_pos (show first = true from hu)] at hpc
      cases hpc
    | notifyOne _ =>
      rcases phase_notified s.worker with hn | hn
      · exact .inl hn
      · -- the notification is lost, but the worker has just seen an empty queue
        have hk := hi.knows
        rw [Knows, hn] at hk
        exact .inr hk
    | _ => exact absurd hdue hnot

/-! ## Stopping -/

/-- The worker has seen `_b_stop`, and has taken or will take `nodes` before it ends. -/
def Drains (nodes : List LogicNode) (s : State T) : Prop :=
  match s.worker with
  | .front true | .handling true | .popping true => s.pushed = nodes
  | .unlocking true => s.pushed = nodes ∧ s.msgQue = []
  | .ended => s.taken = nodes
  | _ => False

omit [DecidableEq T] in
theorem drains_awake {nodes : List LogicNode} (h : Drains nodes s) :
    s.worker.notified = s.worker := by
  unfold Drains at h
  cases hw : s.worker <;> first | rfl | (rw [hw] at h; exact h.elim)

/-- It keeps the mutex until the queue is empty, so nothing comes in between. -/
theorem drains_step {nodes : List LogicNode} (hi : Inv J self s) (hd : Drains nodes s)
    (h : Step J self s a t) : Drains nodes t := by
  cases h with
  | lock hw | relock hw | test hw | wait hw | spurious hw | check hw =>
    rw [Drains, hw] at hd
    exact hd.elim
  | drained hw hq =>
    rw [Drains, hw] at hd
    exact ⟨hd, hq⟩
  | @call stop _ _ hw | @drop stop _ _ hw | @returned stop hw | @pop stop hw =>
    rw [Drains, hw] at hd
    cases stop
    · exact hd.elim
    · exact hd
  | @unlock stop hw =>
    have hordered := hi.ordered
    rw [Drains, hw] at hd
    cases stop
    · exact hd.elim
    · -- the queue is empty, so what was pushed is what was taken
      rw [Fifo.Ordered, State.fifo, State.rest, hw] at hordered
      show s.taken = nodes
      rw [← hd.1, show s.pushed = s.taken ++ s.msgQue from hordered, hd.2, List.append_nil]
  | push hp =>
    -- only after the worker has ended
    have hout : s.worker.inside = false := outside_of_poster hi.exclusive (by rw [hp]; rfl)
    unfold Drains at *
    cases hw : s.worker <;> rw [hw] at hd hout <;> first | exact hd | cases hout
  | notifyOne | notifyAll =>
    have hw := drains_awake hd
    unfold Drains at *
    dsimp only
    rw [hw]
    exact hd
  | post | acquire | release | stop | join => exact hd

/-- From where it has seen `_b_stop`, the worker takes all that is queued, and then ends. -/
theorem drained_of_run {tr : List (Act T × State T)} (hi : Inv J self s)
    (hs : s.worker = .front true) (h : Run (Step J self) s tr t) (ht : t.worker = .ended) :
    t.taken = s.taken ++ s.msgQue := by
  have hstart : Drains s.pushed s := by rw [Drains, hs]
  have hend : Inv J self t ∧ Drains s.pushed t :=
    h.invariant (P := fun _ t => Inv J self t ∧ Drains s.pushed t) ⟨hi, hstart⟩
      fun _ _ _ _ _ hinv hstep => ⟨hinv.1.step hstep, drains_step hinv.1 hinv.2 hstep⟩
  have hordered := hi.ordered
  rw [Fifo.Ordered, State.fifo, State.rest, hs] at hordered
  have hall := hend.2
  rw [Drains, ht] at hall
  exact hall.trans hordered

/-! ## Every message is taken -/

/-- The worker does not sleep while something is queued, unless a producer is about to notify it. -/
theorem no_lost_wakeup {tr : List (Act T × State T)} (h : Run (Step J self) .init tr s)
    (hasleep : s.worker = .asleep) (hq : s.msgQue ≠ []) : s.Pending := by
  have hsafe : (queueView s).Safe := by
    refine View.safe_of_run (C := fun _ _ _ => True) ?_ ?_ h fun _ _ _ _ _ _ => trivial
    · exact fun ha => absurd rfl ha
    · exact fun tr s a t hr _ hs => queue_keeps (inv_of_run (.init J self) hr) hs
  exact hsafe (by rw [queueView, hasleep]; nofun) hq

/-- **Any number of threads post messages.** In every state that they and the worker get into: if the
worker sleeps while something is queued, then a thread is about to notify it; the worker has taken what
was pushed, in order and each once, up to what is still queued; the nodes without a handler are dropped,
and the others not; and if it sees `_b_stop`, it takes all that is queued before it ends. -/
theorem delivered {tr : List (Act T × State T)} (h : Run (Step J self) .init tr s) :
    (s.worker = .asleep → s.msgQue ≠ [] → s.Pending) ∧
    s.pushed = s.taken ++ s.rest ∧
    s.called = s.taken.filter (registered J self) ∧
    (s.worker = .front true → ∀ tr' t, Run (Step J self) s tr' t → t.worker = .ended →
      t.taken = s.taken ++ s.msgQue ∧
        t.called = s.called ++ s.msgQue.filter (registered J self)) := by
  have hi := inv_of_run (.init J self) h
  refine ⟨no_lost_wakeup h, hi.ordered, hi.called, ?_⟩
  intro hstop tr' t hrun hend
  have htaken := drained_of_run hi hstop hrun hend
  refine ⟨htaken, ?_⟩
  rw [(inv_of_run hi hrun).called, htaken, List.filter_append, hi.called]

/-- A thread that finds the mutex free posts a message. -/
theorem post_run {tr : List (Act T × State T)} (h : Run (Step J self) .init tr s) {u : T}
    (hu : s.posters u = .idle) (hm : s.mutex = none) (msg : LogicNode) :
    ∃ tr', ∃ t : State T, Run (Step J self) .init tr' t ∧ t.worker = s.worker ∧
      t.msgQue = s.msgQue ++ [msg] := by
  have hpost : Step J self s (.post u msg) _ := .post hu
  have hlocking : Function.update s.posters u (.locking msg) u = .locking msg :=
    Function.update_self ..
  have hpushing : Function.update (Function.update s.posters u (.locking msg)) u (.pushing msg) u =
      .pushing msg := Function.update_self ..
  have hacquire := (h.snoc hpost).snoc (.acquire hlocking hm)
  exact ⟨_, _, hacquire.snoc (.push hpushing), rfl, rfl⟩

/-! ### No deadlock -/

/-- The steps that a thread takes to finish what it has begun. -/
def Act.Finishing : Act T → Prop
  | .spurious | .post _ _ | .stop | .notifyAll | .join => False
  | _ => True

omit [DecidableEq T] in
/-- The mutex is free, a producer has it, or the worker. -/
theorem mutex_cases (hex : Exclusive s.mutex s.Inside) :
    s.mutex = none ∨ (∃ u msg, s.posters u = .pushing msg) ∨
      (∃ u first, s.posters u = .unlocking first) ∨ s.worker.inside = true := by
  cases hm : s.mutex with
  | none => exact .inl rfl
  | some x =>
    have hin : s.Inside x := (hex x).mpr hm
    cases x with
    | worker => exact .inr (.inr (.inr hin))
    | poster u =>
      rw [inside_poster] at hin
      cases hp : s.posters u with
      | pushing msg => exact .inr (.inl ⟨u, msg, hp⟩)
      | unlocking first => exact .inr (.inr (.inl ⟨u, first, hp⟩))
      | _ => rw [hp] at hin; cases hin

theorem front_steps {stop : Bool} (hw : s.worker = .front stop) (hq : s.msgQue ≠ []) :
    ∃ a t, Step J self s a t ∧ Act.Finishing a := by
  obtain ⟨node, rest, hcons⟩ := List.exists_cons_of_ne_nil hq
  cases hr : registered J self node with
  | true => exact ⟨_, _, .call hw hcons hr, trivial⟩
  | false => exact ⟨_, _, .drop hw hcons hr, trivial⟩

/-- **No deadlock.** While something is queued and the worker has not ended, the worker or a thread
that is posting can take a step. -/
theorem progress {tr : List (Act T × State T)} (h : Run (Step J self) .init tr s)
    (hq : s.msgQue ≠ []) (hw : s.worker ≠ .ended) :
    ∃ a t, Step J self s a t ∧ Act.Finishing a := by
  have hi := inv_of_run (.init J self) h
  have hk := hi.knows
  rcases mutex_cases hi.exclusive with hm | ⟨u, msg, hp⟩ | ⟨u, first, hp⟩ | hin
  · cases hs : s.worker with
    | locking => exact ⟨_, _, .lock hs hm, trivial⟩
    | waking => exact ⟨_, _, .relock hs hm, trivial⟩
    | asleep =>
      obtain ⟨u, hu⟩ := no_lost_wakeup h hs hq
      cases hp : s.posters u with
      | unlocking first => exact ⟨_, _, .release hp, trivial⟩
      | notifying => exact ⟨_, _, .notifyOne hp, trivial⟩
      | _ => rw [hp] at hu; cases hu
    | ended => exact absurd hs hw
    | _ =>
      have hin : s.Inside .worker := by rw [inside_worker, hs]; rfl
      exact nomatch hm.symm.trans ((hi.exclusive _).mp hin)
  · exact ⟨_, _, .push hp, trivial⟩
  · exact ⟨_, _, .release hp, trivial⟩
  · cases hs : s.worker with
    | testing => exact ⟨_, _, .test hs, trivial⟩
    | toWait => exact ⟨_, _, .wait hs, trivial⟩
    | checking => exact ⟨_, _, .check hs, trivial⟩
    | front stop => exact front_steps hs hq
    | handling stop => exact ⟨_, _, .returned hs, trivial⟩
    | popping stop => exact ⟨_, _, .pop hs, trivial⟩
    | unlocking stop => exact ⟨_, _, .unlock hs, trivial⟩
    | _ => rw [hs] at hin; cases hin

/-! ## The destructor -/

/-- The destructor has called `notify_all`, and the worker sleeps with no notification to come. -/
def Stuck (s : State T) : Prop :=
  s.bStop = true ∧ s.destructor = .joining ∧ s.worker = .asleep ∧ ¬ s.Pending

/-- The destructor waits for a worker that sleeps. -/
def JoinsSleeper (s : State T) : Prop := s.destructor = .joining ∧ s.worker = .asleep

/-- How `_b_stop` looks to the worker. -/
def stopView (s : State T) : View :=
  { phase := s.worker.phase, idle := s.bStop = false, due := s.destructor = .stopping }

/-- `notify_all` is not called between the worker's test and its wait. -/
def OutsideWindow (s : State T) : Act T → Prop
  | .notifyAll => s.worker ≠ .toWait
  | _ => True

theorem stop_keeps (hc : OutsideWindow s a) (h : Step J self s a t) :
    Keeps (stopView s) (stopView t) where
  asleep := phase_asleep h
  deciding ht hs := (phase_deciding h ht hs).2
  busy hidle hbusy := by
    cases h with
    | stop _ => rfl
    | _ => exact absurd hidle hbusy
  given hdue hnot := by
    cases h with
    -- here the condition is used
    | notifyAll hd => exact .inl ((phase_notified s.worker).resolve_right hc)
    | stop hd => exact nomatch hd.symm.trans hdue
    | join hd => exact nomatch hd.symm.trans hdue
    | _ => exact absurd hdue hnot

/-- The flag is set before anyone is notified. -/
theorem bStop_step (hs : s.destructor ≠ .running → s.bStop = true) (h : Step J self s a t) :
    t.destructor ≠ .running → t.bStop = true := by
  cases h with
  | stop _ => exact fun _ => rfl
  | notifyAll hd => exact fun _ => hs (by rw [hd]; nofun)
  | join hd => exact fun _ => hs (by rw [hd]; nofun)
  | _ => exact hs

theorem bStop_of_run {tr : List (Act T × State T)} (h : Run (Step J self) .init tr s) :
    s.destructor ≠ .running → s.bStop = true :=
  h.invariant (P := fun _ s => s.destructor ≠ .running → s.bStop = true)
    (fun hne => absurd rfl hne) fun _ _ _ _ _ hs hstep => bStop_step hs hstep

/-- **When the destructor's `join` returns.** In a run in which `notify_all` is not called between the
worker's test and its wait, the destructor never waits for a worker that sleeps. -/
theorem join_safe {tr : List (Act T × State T)} (h : Run (Step J self) .init tr s)
    (hc : Each (Step J self) .init (fun _ s a => OutsideWindow s a) tr) :
    ¬ Stuck s ∧ ¬ JoinsSleeper s := by
  have hsafe : (stopView s).Safe := by
    refine View.safe_of_run (C := fun _ s a => OutsideWindow s a) ?_ ?_ h hc
    · exact fun ha => absurd rfl ha
    · exact fun _ _ _ _ _ hcond hs => stop_keeps hcond hs
  have hjoin : ¬ JoinsSleeper s := by
    rintro ⟨hd, hw⟩
    have hb := bStop_of_run h (by rw [hd]; nofun)
    have hdue : s.destructor = .stopping :=
      hsafe (by rw [stopView, hw]; nofun) (by rw [stopView, hb]; nofun)
    exact nomatch hd.symm.trans hdue
  exact ⟨fun hstuck => hjoin ⟨hstuck.2.1, hstuck.2.2.1⟩, hjoin⟩

/-- The condition is needed: after a `notify_all` between the test and the wait, the worker's next step
leaves it asleep for ever, unless a producer is about to notify it. -/
theorem stuck_of_notifyAll {tr : List (Act T × State T)} (h : Run (Step J self) .init tr s)
    (hw : s.worker = .toWait) (hd : s.destructor = .stopping) (hp : ¬ s.Pending) :
    ∃ t u, Step J self s .notifyAll t ∧ Step J self t .wait u ∧ Stuck u := by
  have hwake : s.worker.notified = .toWait := by rw [hw]; rfl
  refine ⟨_, _, .notifyAll hd, .wait hwake, ?_, rfl, rfl, hp⟩
  show s.bStop = true
  exact bStop_of_run h (by rw [hd]; nofun)

end Steps

/-! ### The window -/

/-- The library is not asked for anything. -/
def noJson : JsonCpp := .ofTable []

def s0 : ServerName := ⟨Bytes.lit "s0", by decide⟩

/-- The worker has looked at the empty queue and decides to wait. -/
theorem deciding_run : ∃ tr, Run (Step noJson s0) (.init : State Unit) tr
    { (.init : State Unit) with mutex := some .worker, worker := .toWait } :=
  ⟨_, .snoc (.snoc .nil (.lock rfl rfl)) (.test rfl)⟩

/-- A message without a handler. -/
def strayMsg : LogicNode :=
  { session := 0, recvNode := { curLen := 0, totalLen := 0, data := [0], msgId := 0 } }

/-- A message is posted while the worker sleeps. -/
theorem delivered_first : ∃ tr, ∃ s : State Unit, Run (Step noJson s0) .init tr s ∧
    s.worker = .asleep ∧ s.msgQue ≠ [] ∧ s.Pending ∧ s.pushed = s.taken ++ s.rest := by
  obtain ⟨tr, hrun⟩ := deciding_run
  obtain ⟨tr', t, hposted, hw, hq⟩ := post_run (hrun.snoc (.wait rfl)) (u := ()) rfl rfl strayMsg
  have hne : t.msgQue ≠ [] := by rw [hq]; nofun
  obtain ⟨hwake, horder, -⟩ := delivered hposted
  exact ⟨tr', t, hposted, hw, hne, hwake hw hne, horder⟩

/-- The destructor runs before the worker has started. -/
theorem join_safe_early : ∃ tr, ∃ s : State Unit, Run (Step noJson s0) .init tr s ∧
    s.destructor = .joining ∧ ¬ Stuck s ∧ ¬ JoinsSleeper s := by
  have hstop : Run (Step noJson s0) (.init : State Unit) _ _ := .snoc .nil (.stop rfl)
  have hrun := hstop.snoc (.notifyAll rfl)
  refine ⟨_, _, hrun, rfl, join_safe hrun ?_⟩
  refine (each_snoc hstop).mpr ⟨(each_snoc .nil).mpr ⟨each_nil, ?_⟩, ?_⟩
  · trivial
  · show WorkerPc.locking ≠ .toWait
    nofun

/-- The destructor runs between the test and the wait, and `join` never returns. -/
theorem join_fails : ¬ ∀ (J : JsonCpp) (self : ServerName) (tr : List (Act Unit × State Unit))
    (s : State Unit), Run (Step J self) .init tr s → ¬ Stuck s ∧ ¬ JoinsSleeper s := by
  intro h
  obtain ⟨tr, hrun⟩ := deciding_run
  have hnone : ¬ (State.init : State Unit).Pending := by
    rintro ⟨u, hu⟩
    cases hu
  have hstop := hrun.snoc (.stop rfl)
  obtain ⟨t, u, hnotify, hwait, hstuck⟩ := stuck_of_notifyAll hstop rfl rfl hnone
  exact (h _ _ _ _ ((hstop.snoc hnotify).snoc hwait)).1 hstuck

end DealMsg

end ChatServer
