import ChatServer.Lib.ConnPool
import ChatServer.Lib.Run

/-!
# Pools that nobody but their threads touches

A pool whose connections are never replaced: threads take them and give them back, until the pool is
destroyed, which happens under its mutex. `shared_of_run` is what holds of it at every point of every run:
the threads share the connections that the pool was made with, each of which is in one place, and no thread
sleeps for nothing.
-/

namespace ConnPool

open Interaction Prog Transition

namespace FixedPool

variable {K C Q : Type} {R : Q → Type} [DecidableEq C]

/-- The steps of a fixed pool. -/
inductive Act (K C : Type) {Q : Type} (R : Q → Type) where
  /-- A thread takes a step. -/
  | thread (a : ConnPool.Act K C R)
  /-- The destructor stops the pool, wakes all threads up and drops the idle connections. -/
  | destroy

inductive Step (ops : K → Client C R Unit → Prop) : Pool K C R → Act K C R → Pool K C R → Prop where
  | thread {p p' : Pool K C R} {a : ConnPool.Act K C R} :
      Pool.Step ops (fun _ => True) p a p' → Step ops p (.thread a) p'
  | destroy {p : Pool K C R} : p.stopped = false → Step ops p .destroy { p.stop with idle := [] }

/-- A pool as its constructor leaves it, with threads that have nothing to do. -/
def init (conns : List C) (kinds : List K) : Pool K C R where
  idle := conns
  stopped := false
  callers := kinds.map fun kind => { kind := kind, held := [], status := .running (.ret ()) }

/-- What holds of a fixed pool that was made with these connections. -/
structure Shared (conns : List C) (p : Pool K C R) : Prop where
  /-- Until the pool is destroyed, each connection is idle or held by a thread. -/
  conserved : p.stopped = false → ∀ con, p.holders con = conns.count con
  /-- No connection is in more places than there were of it. -/
  exclusive : ∀ con, p.holders con ≤ conns.count con
  /-- Until the pool is destroyed, while a thread sleeps there are no more idle connections than threads on
  their way to take one. -/
  awake : p.stopped = false → p.WakeSafe
  /-- Once the pool is destroyed no thread sleeps, and there is nothing to take. -/
  drained : p.stopped = true → sleeping p.callers = 0 ∧ p.idle = []

variable {ops : K → Client C R Unit → Prop} {limit : K → Nat} {p p' : Pool K C R} {conns : List C}

/-- A thread gives a connection back, or lets go of it after the pool was stopped. -/
theorem holders_le (hf : Formed limit p.callers) {a : ConnPool.Act K C R}
    (h : Pool.Step ops (fun _ => True) p a p') (con : C) : p'.holders con ≤ p.holders con := by
  by_cases ha : a = .drop
  · subst ha
    cases h with
    | @drop pre post x con' k hc hx _ =>
      have hle : (x.held.erase con').count con ≤ x.held.count con := List.Sublist.count_le _ List.erase_sublist
      simp [Pool.holders, hc]
      omega
  · rw [h.holders hf ha con]

/-- A thread drops no connection while the pool is not stopped. -/
theorem holders_eq (hf : Formed limit p.callers) (hs : p.stopped = false) {a : ConnPool.Act K C R}
    (h : Pool.Step ops (fun _ => True) p a p') (con : C) : p'.holders con = p.holders con := by
  refine h.holders hf ?_ con
  rintro rfl
  cases h with
  | drop _ _ hstop => simp [hs] at hstop

/-- In a pool that was stopped nobody goes to sleep, and nothing becomes idle. -/
theorem over_step (hs : p.stopped = true) {a : ConnPool.Act K C R}
    (h : Pool.Step ops (fun _ => True) p a p') (hover : sleeping p.callers = 0 ∧ p.idle = []) :
    sleeping p'.callers = 0 ∧ p'.idle = [] := by
  obtain ⟨hsleep, hidle⟩ := hover
  cases h with
  | arrive _ => exact ⟨by simpa using hsleep, hidle⟩
  | take _ _ hrun _ | sleep _ _ hrun _ | giveBack _ _ hrun _ => simp [hs] at hrun
  | wake hc hx => simp [hc, hx] at hsleep
  | call hc hx _ | refuse hc hx _ | drop hc hx _ | query _ hc hx =>
    refine ⟨?_, hidle⟩
    simp [hc, hx] at hsleep ⊢
    exact hsleep

omit [DecidableEq C] in
theorem sleeping_stop (p : Pool K C R) : sleeping p.stop.callers = 0 := by
  refine sleeping_eq_zero ?_
  intro x hx
  obtain ⟨y, -, rfl⟩ := List.mem_map.mp hx
  rfl

/-- The destructor takes away what is idle, and the threads keep what they hold. -/
theorem holders_destroy (p : Pool K C R) (con : C) :
    Pool.holders { p.stop with idle := [] } con + p.idle.count con = p.holders con := by
  have hstop := p.holders_stop con
  unfold Pool.holders at *
  have hidle : p.stop.idle = p.idle := rfl
  rw [hidle] at hstop
  simp only [List.count_nil]
  omega

omit [DecidableEq C] in
theorem sleeping_init (conns : List C) (kinds : List K) : sleeping (init (R := R) conns kinds).callers = 0 := by
  refine sleeping_eq_zero ?_
  intro x hx
  obtain ⟨kind, -, rfl⟩ := List.mem_map.mp hx
  rfl

theorem shared_init (conns : List C) (kinds : List K) : Shared conns (init (R := R) conns kinds) := by
  have hholders : ∀ con, Pool.holders (init (R := R) conns kinds) con = conns.count con := by
    intro con
    have hnone : holdersOf con (init (R := R) conns kinds).callers = 0 := by
      refine holdersOf_eq_zero ?_
      intro x hx
      obtain ⟨kind, -, rfl⟩ := List.mem_map.mp hx
      rfl
    unfold Pool.holders
    rw [hnone]
    rfl
  refine ⟨fun _ => hholders, fun con => (hholders con).le, ?_, ?_⟩
  · intro _ hpos
    rw [sleeping_init] at hpos
    omega
  · intro hs
    cases hs

/-- **Threads that account for what they hold go on sharing the connections**, and so does the
destructor. -/
theorem Shared.step {a : Act K C R} (h : Shared conns p) (hf : Formed limit p.callers)
    (hs : Step ops p a p') : Shared conns p' := by
  obtain ⟨hconserved, hexclusive, hawake, hover⟩ := h
  cases hs with
  | thread hs =>
    have hstopped := hs.stopped
    refine ⟨?_, ?_, ?_, ?_⟩
    · intro hrun con
      rw [hstopped] at hrun
      rw [holders_eq hf hrun hs, hconserved hrun]
    · exact fun con => (holders_le hf hs con).trans (hexclusive con)
    · intro hrun
      rw [hstopped] at hrun
      exact hs.wakeSafe hrun (hawake hrun)
    · intro hstop
      rw [hstopped] at hstop
      exact over_step hstop hs (hover hstop)
  | destroy hrun =>
    have hstop : p.stop.stopped = true := rfl
    refine ⟨?_, ?_, ?_, fun _ => ⟨sleeping_stop p, rfl⟩⟩
    · simp [hstop]
    · intro con
      have := holders_destroy p con
      have := hexclusive con
      omega
    · simp [hstop]

theorem Step.formed (hops : ∀ kind q, ops kind q → Balanced (limit kind) q) {a : Act K C R}
    (hf : Formed limit p.callers) (hs : Step ops p a p') : Formed limit p'.callers := by
  cases hs with
  | thread hs => exact hs.formed hops hf
  | destroy _ => exact hf.stop

/-- **What holds at every point of every run of a fixed pool**, if the threads run programs that give back
what they take: they share the connections, a thread at the end of a program holds none, and one that gives a
connection back holds it. -/
theorem shared_of_run (hops : ∀ kind q, ops kind q → Balanced (limit kind) q) {kinds : List K}
    {tr : List (Act K C R × Pool K C R)} (h : Run (Step ops) (init conns kinds) tr p) :
    Shared conns p ∧ ∀ x ∈ p.callers, x.GivesBack := by
  have hkeeps : Formed limit p.callers ∧ Shared conns p := by
    refine Run.invariant (P := fun _ p => Formed limit p.callers ∧ Shared conns p)
      ⟨formed_start kinds, shared_init conns kinds⟩ ?_ h
    intro tr p a p' _ hi hs
    exact ⟨hs.formed hops hi.1, hi.2.step hi.1 hs⟩
  exact ⟨hkeeps.2, fun x hx => (hkeeps.1 x hx).givesBack⟩

/-- A thread whose programs take one connection at a time holds none while it sleeps. -/
theorem held_of_asleep {x : Caller K C R} (hf : x.Formed fun _ => 1) (ha : x.status.isAsleep = true) :
    x.held = [] := by
  obtain ⟨kind, held, status⟩ := x
  cases status with
  | running _ => cases ha
  | asleep resume =>
    obtain ⟨held', hnext, -⟩ := hf none
    have hroom : held.length < 1 := by
      by_contra hno
      simp [holds, hno] at hnext
    show held = []
    exact List.eq_nil_of_length_eq_zero (by omega)

/-- **Threads that take one connection at a time do not all wait.** Until the pool is destroyed, if it was
made with any connection and a thread sleeps, then another one holds a connection or is about to take one. -/
theorem attended_of_run (hops : ∀ kind q, ops kind q → Balanced 1 q) {kinds : List K}
    {tr : List (Act K C R × Pool K C R)} (h : Run (Step ops) (init conns kinds) tr p)
    (hrun : p.stopped = false) (hconns : conns ≠ []) (hsleep : 0 < sleeping p.callers) :
    ∃ x ∈ p.callers, x.status.isAsleep = false ∧ (x.held ≠ [] ∨ x.status.isAwaiting = true) := by
  have hshared := (shared_of_run hops h).1
  have hformed : Formed (fun _ => 1) p.callers :=
    Run.invariant (P := fun _ p => Formed (fun _ => 1) p.callers) (formed_start kinds)
      (fun _ _ _ _ _ hi hs => hs.formed hops hi) h
  by_contra hno
  have hnone : ∀ x ∈ p.callers, x.status.isAsleep = false → x.held = [] ∧ x.status.isAwaiting = false := by
    intro x hx ha
    refine ⟨?_, ?_⟩
    · by_contra hheld
      exact hno ⟨x, hx, ha, Or.inl hheld⟩
    · by_contra hwaits
      exact hno ⟨x, hx, ha, Or.inr (by simpa using hwaits)⟩
  -- nobody is on the way to an idle connection, so none is idle
  have hawaiting : awaiting p.callers = 0 := by
    refine List.countP_eq_zero.mpr fun x hx ha => ?_
    have hawake : x.status.isAsleep = false := by
      obtain ⟨kind, held, status⟩ := x
      cases status <;> simp_all [Status.isAwaiting]
    simp [(hnone x hx hawake).2] at ha
  have hidle : p.idle = [] := by
    have := hshared.awake hrun hsleep
    exact List.eq_nil_of_length_eq_zero (by omega)
  -- and nobody holds one
  obtain ⟨con, hcon⟩ := List.exists_mem_of_ne_nil conns hconns
  have hheld : holdersOf con p.callers = 0 := by
    refine holdersOf_eq_zero fun x hx => ?_
    by_cases ha : x.status.isAsleep = true
    · exact held_of_asleep (hformed x hx) ha
    · exact (hnone x hx (by simpa using ha)).1
  have hcount := hshared.conserved hrun con
  have hpos := List.count_pos_iff.mpr hcon
  rw [Pool.holders, hidle, hheld] at hcount
  simp at hcount
  omega

/-! ## Running a pool -/

/-- What can happen next: a thread begins a program or takes its next step, or the pool is destroyed. -/
inductive Move (K C : Type) {Q : Type} (R : Q → Type) where
  | call (i : Nat) (f : K → Client C R Unit)
  | advance (i : Nat)
  | destroy

/-- Carry out a move, if it is possible. -/
def move (answer : (q : Q) → R q) : Move K C R → Pool K C R → Option (Act K C R × Pool K C R)
  | .call i f, p => (p.begin i f).map fun p' => (.thread .call, p')
  | .advance i, p => (p.advance answer i).map fun x => (.thread x.1, x.2)
  | .destroy, p => if p.stopped then none else some (.destroy, { p.stop with idle := [] })

theorem move_step {answer : (q : Q) → R q} {m : Move K C R} {a : Act K C R}
    (hcall : ∀ i f, m = .call i f → ∀ kind, ops kind (f kind)) (h : move answer m p = some (a, p')) :
    Step ops p a p' := by
  cases m with
  | call i f =>
    obtain ⟨p', hp', heq⟩ := Option.map_eq_some_iff.mp h
    cases heq
    exact .thread (Pool.begin_step (hcall i f rfl) hp')
  | advance i =>
    obtain ⟨x, hx, heq⟩ := Option.map_eq_some_iff.mp h
    cases heq
    exact .thread (Pool.advance_step hx)
  | destroy =>
    dsimp only [move] at h
    split_ifs at h with hstop
    cases h
    exact .destroy (by simpa using hstop)

end FixedPool

end ConnPool
