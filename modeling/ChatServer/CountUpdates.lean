import ChatServer.Current

/-!
# Updates of the login count

`loginHandler` and `close` read the login count, compute and write it back, on two threads and
without a lock. `count_of_undisturbed` shows that nothing is lost as long as neither thread reads
while the other is between its read and its write. `count_fails` is a run in which a decrement is
lost.
-/

namespace ChatServer

open Interaction Transition Function Decimal Word

/-! ## Logins and closes -/

/-- `close` removes the entry of a user. It does so once for a session that is logged in. -/
def Label.removes : Option Label → Bool
  | some (.io ⟨.removeUserSession _, _⟩) => true
  | _ => false

/-- How many times `close` of a logged-in session has removed the entry of its user. -/
def departures (S : ServerName) (tr : List (Cluster.Act × Cluster)) : Nat :=
  tr.countP fun x => Label.removes (x.1.own S)

/-- What a step adds to the completed logins less the closes of logged-in sessions. -/
def Label.change (l : Option Label) : Int :=
  (Label.registration l).toList.length - (Label.removes l).toNat

theorem change_snoc {S : ServerName} {tr : List (Cluster.Act × Cluster)} {a : Cluster.Act}
    {c : Cluster} :
    ((logins S (tr ++ [(a, c)])).length : Int) - departures S (tr ++ [(a, c)]) =
      (logins S tr).length - departures S tr + Label.change (a.own S) := by
  unfold departures Label.change
  rw [logins_snoc, List.length_append, List.countP_append, List.countP_singleton]
  cases Label.removes (a.own S) <;> simp <;> omega

/-! ## Undisturbed steps -/

/-- The worker has read the login count and has not written it back. -/
def WorkerPhase.isRead : WorkerPhase → Bool
  | .read _ => true
  | _ => false

/-- `close` has read the login count and has not written it back. -/
def IoPhase.isRead : IoPhase → Bool
  | .read _ => true
  | _ => false

/-- For this count the floor at zero decides what `close` writes back. -/
def needsFloor (rd_res : Bytes) : Bool :=
  match readCount rd_res with
  | .ok count => count ≤ 0
  | .error _ => false

namespace Ledger

/-- Redis carries out the commands on the login count. -/
def answered (b : Ledger) : Option Label → Bool
  | some (.worker ⟨.hGet _ _, r⟩) => r == b.count
  | some (.worker ⟨.hSet _ _ _, ok⟩) => ok
  | some (.io ⟨.hGet _ _, r⟩) => r == b.count
  | some (.io ⟨.hSet _ _ _, ok⟩) => ok
  | _ => true

/-- A login does not find the greatest value of the count, and `close` does not need the floor. -/
def inRange : Option Label → Bool
  | some (.worker ⟨.hGet _ _, r⟩) => r != renderInt 2147483647
  | some (.io ⟨.hGet _ _, r⟩) => !needsFloor r
  | _ => true

/-- Neither thread reads the count while the other is between its read and its write. -/
def alone (b : Ledger) : Option Label → Bool
  | some (.worker ⟨.hGet _ _, _⟩) => !b.io.any fun x => x.2.isRead
  | some (.io ⟨.hGet _ _, _⟩) => !b.worker.any fun x => x.2.isRead
  | _ => true

/-- The step disturbs no update of the login count. -/
structure Undisturbed (b : Ledger) (l : Option Label) : Prop where
  answered : b.answered l = true
  inRange : inRange l = true
  alone : b.alone l = true

instance (b : Ledger) (l : Option Label) : Decidable (b.Undisturbed l) :=
  decidable_of_iff (b.answered l = true ∧ inRange l = true ∧ b.alone l = true)
    ⟨fun h => ⟨h.1, h.2.1, h.2.2⟩, fun h => ⟨h.answered, h.inRange, h.alone⟩⟩

/-! ## The count between the steps -/

/-- What the worker has written and not yet completed. -/
def workerShift : Option (SessId × WorkerPhase) → Int
  | some (_, .counted) => 1
  | some (_, .bound _) => 1
  | some (_, .routed _) => 1
  | _ => 0

/-- What `close` has written and not yet completed. -/
def ioShift : Option (SessId × IoPhase) → Int
  | some (_, .counted) => -1
  | some (_, .erasing _) => -1
  | _ => 0

/-- The count stands for `n` completed updates and those that are written and not yet complete. A
thread that has read it, and then the only one, has read the value it still has. -/
structure Balanced (b : Ledger) (n : Int) : Prop where
  value : b.count = renderInt (n + workerShift b.worker + ioShift b.io)
  worker : ∀ s r, b.worker = some (s, .read r) → r = b.count ∧ r ≠ renderInt 2147483647
  io : ∀ s r, b.io = some (s, .read r) → r = b.count ∧ needsFloor r = false
  apart : ∀ s r t r', b.worker = some (s, .read r) → b.io ≠ some (t, .read r')

variable {b b' : Ledger} {n : Int} {l : Option Label}

/-- A thread is in no phase of a kind that it is tested not to be in. -/
theorem ne_of_not_any {Phase : Type} {f : Phase → Bool} {x : Option (SessId × Phase)}
    (h : (!x.any fun y => f y.2) = true) {q : Phase} (hq : f q = true) (t : SessId) : x ≠ some (t, q) := by
  rintro rfl
  rw [Option.any_some, hq] at h
  cases h

theorem change_of_neutral {e : Event calls} (he : e.1.neutral = true) :
    Label.change (some (.worker e)) = 0 ∧ Label.change (some (.io e)) = 0 := by
  rcases e with ⟨c, r⟩
  cases c with
  | setUserSession => exact Bool.noConfusion he
  | removeUserSession => exact Bool.noConfusion he
  | _ => exact ⟨rfl, rfl⟩

/-- The worker's phase changes. -/
theorem Balanced.workerMove {n' m : Int} {s : SessId} {q' : WorkerPhase} (h : b.Balanced n)
    (hio : b'.io = b.io) (hcount : b'.count = renderInt m)
    (hm : m = n' + workerShift (some (s, q')) + ioShift b.io)
    (hfree : (∀ t r, b.io ≠ some (t, .read r)) ∨ (b'.count = b.count ∧ q'.isRead = false))
    (hread : ∀ r, q' = .read r → r = b'.count ∧ r ≠ renderInt 2147483647) :
    Balanced { b' with worker := some (s, q') } n' := by
  refine ⟨?_, ?_, ?_, ?_⟩
  · show b'.count = renderInt (n' + workerShift (some (s, q')) + ioShift b'.io)
    rw [hio, hcount, hm]
  · rintro _ r ⟨⟩
    exact hread r rfl
  · intro t r ht
    have ht' : b.io = some (t, .read r) := hio.symm.trans ht
    rcases hfree with hfree | ⟨hsame, -⟩
    · exact absurd ht' (hfree t r)
    · obtain ⟨hr, hfloor⟩ := h.io t r ht'
      exact ⟨hr.trans hsame.symm, hfloor⟩
  · rintro _ r t r' ⟨⟩ ht
    have ht' : b.io = some (t, .read r') := hio.symm.trans ht
    rcases hfree with hfree | ⟨-, hq⟩
    · exact hfree t r' ht'
    · cases hq

/-- The phase of the I/O thread changes. -/
theorem Balanced.ioMove {n' m : Int} {s : SessId} {q' : IoPhase} (h : b.Balanced n)
    (hworker : b'.worker = b.worker) (hcount : b'.count = renderInt m)
    (hm : m = n' + workerShift b.worker + ioShift (some (s, q')))
    (hfree : (∀ t r, b.worker ≠ some (t, .read r)) ∨ (b'.count = b.count ∧ q'.isRead = false))
    (hread : ∀ r, q' = .read r → r = b'.count ∧ needsFloor r = false) :
    Balanced { b' with io := some (s, q') } n' := by
  refine ⟨?_, ?_, ?_, ?_⟩
  · show b'.count = renderInt (n' + workerShift b'.worker + ioShift (some (s, q')))
    rw [hworker, hcount, hm]
  · intro t r ht
    have ht' : b.worker = some (t, .read r) := hworker.symm.trans ht
    rcases hfree with hfree | ⟨hsame, -⟩
    · exact absurd ht' (hfree t r)
    · obtain ⟨hr, hmax⟩ := h.worker t r ht'
      exact ⟨hr.trans hsame.symm, hmax⟩
  · rintro _ r ⟨⟩
    exact hread r rfl
  · rintro t r _ r' ht ⟨⟩
    have ht' : b.worker = some (t, .read r) := hworker.symm.trans ht
    rcases hfree with hfree | ⟨-, hq⟩
    · exact hfree t r ht'
    · cases hq

theorem bump_eq {i : Int} {value : Bytes} (hmax : renderInt i ≠ renderInt 2147483647)
    (h : bump (renderInt i) = some value) : value = renderInt (i + 1) := by
  obtain ⟨⟨hlo, hhi⟩, hvalue⟩ := bump_renderInt h
  have hne : i ≠ 2147483647 := fun hi => hmax (hi ▸ rfl)
  have hwrap : toInt (i + 1) = i + 1 := by
    unfold toInt
    omega
  rw [hvalue, hwrap]

theorem drop_eq {i : Int} {value : Bytes} (hfloor : needsFloor (renderInt i) = false)
    (h : drop (renderInt i) = some value) : value = renderInt (i - 1) := by
  have hpos : 0 < i := by
    unfold needsFloor at hfloor
    unfold drop at h
    rw [readCount_renderInt] at hfloor h
    by_cases hi : IsInt i
    · rw [if_pos hi] at hfloor
      simpa using hfloor
    · rw [if_neg hi] at h
      cases h
  exact drop_renderInt hpos h

theorem Balanced.worker_step {self : ServerName} {s : SessId} {q q' : WorkerPhase}
    {e : Event calls} (h : b.Balanced n) (hat : b.worker = some (s, q))
    (hx : b.Undisturbed (some (.worker e))) (hc : WorkerCall true self s q b e q' b') :
    Balanced { b' with worker := some (s, q') } (n + Label.change (some (.worker e))) := by
  have hvalue := h.value
  rw [hat] at hvalue
  obtain ⟨hanswered, hrange, halone⟩ := hx
  cases hc with
  | neutral he =>
    rw [(change_of_neutral he).1, Int.add_zero, ← hat]
    exact h
  | readCount =>
    refine h.workerMove rfl hvalue (by simp [Label.change, Label.registration, Label.removes, workerShift])
      (Or.inl fun t r => ne_of_not_any halone rfl t) ?_
    rintro r ⟨⟩
    exact ⟨rfl, bne_iff_ne.mp hrange⟩
  | missCount =>
    -- a failed `HGET` does not answer with the stored count
    have hempty : [] = b.count := beq_iff_eq.mp hanswered
    rw [hvalue] at hempty
    exact absurd hempty.symm (renderInt_ne_nil _)
  | @writeCount _ rd_res value ok hbump =>
    obtain ⟨hrd, hmax⟩ := h.worker s rd_res hat
    rw [hrd, hvalue] at hbump hmax
    refine h.workerMove rfl (bump_eq hmax hbump) ?_ (Or.inl (h.apart s rd_res · · hat)) ?_
    · simp [Label.change, Label.registration, Label.removes, workerShift]
      omega
    · rintro r ⟨⟩
  | loseCount => cases hanswered
  | bind | route | loseRoute =>
    refine h.workerMove rfl hvalue ?_ (Or.inr ⟨rfl, rfl⟩) ?_
    · simp [Label.change, Label.registration, Label.removes, workerShift]
    · rintro r ⟨⟩
  | register =>
    refine h.workerMove rfl hvalue ?_ (Or.inr ⟨rfl, rfl⟩) ?_
    · simp [Label.change, Label.registration, Label.removes, workerShift]
    · rintro r ⟨⟩

theorem Balanced.io_step {self : ServerName} {s : SessId} {q q' : IoPhase} {e : Event calls}
    (h : b.Balanced n) (hat : b.io = some (s, q)) (hx : b.Undisturbed (some (.io e)))
    (hc : IoCall true self s q b e q' b') :
    Balanced { b' with io := some (s, q') } (n + Label.change (some (.io e))) := by
  have hvalue := h.value
  rw [hat] at hvalue
  obtain ⟨hanswered, hrange, halone⟩ := hx
  cases hc with
  | neutral he =>
    rw [(change_of_neutral he).2, Int.add_zero, ← hat]
    exact h
  | readCount =>
    refine h.ioMove rfl hvalue (by simp [Label.change, Label.registration, Label.removes, ioShift])
      (Or.inl fun t r => ne_of_not_any halone rfl t) ?_
    rintro r ⟨⟩
    exact ⟨rfl, Bool.not_eq_true' _ ▸ hrange⟩
  | missCount =>
    have hempty : [] = b.count := beq_iff_eq.mp hanswered
    rw [hvalue] at hempty
    exact absurd hempty.symm (renderInt_ne_nil _)
  | @writeCount _ rd_res value ok hdrop =>
    obtain ⟨hrd, hfloor⟩ := h.io s rd_res hat
    rw [hrd, hvalue] at hdrop hfloor
    refine h.ioMove rfl (drop_eq hfloor hdrop) ?_ (Or.inl fun t r ht => h.apart t r s rd_res ht hat) ?_
    · simp [Label.change, Label.registration, Label.removes, ioShift]
      omega
    · rintro r ⟨⟩
  | loseCount => cases hanswered
  | erase =>
    refine h.ioMove rfl hvalue ?_ (Or.inr ⟨rfl, rfl⟩) ?_
    · simp [Label.change, Label.registration, Label.removes, ioShift]
      omega
    · rintro r ⟨⟩
  | _ =>
    refine h.ioMove rfl hvalue ?_ (Or.inr ⟨rfl, rfl⟩) ?_
    · simp [Label.change, Label.registration, Label.removes, ioShift]
    · rintro r ⟨⟩

theorem ioShift_of_ends {s : SessId} {q : IoPhase} (h : q.Ends) : ioShift (some (s, q)) = 0 := by
  cases q with
  | counted => exact h.elim
  | erasing => exact h.elim
  | _ => rfl

theorem workerShift_of_ends {s : SessId} {q : WorkerPhase} (h : q.Ends (.ok ())) :
    workerShift (some (s, q)) = 0 := by
  cases q with
  | counted => exact h.elim
  | bound => exact h.elim
  | routed => exact h.elim
  | _ => rfl

theorem change_of_quiet {l : Label} (hl : l.quiet = true) : Label.change (some l) = 0 := by
  cases l with
  | io => exact Bool.noConfusion hl
  | worker => exact Bool.noConfusion hl
  | _ => rfl

/-- **Every update counts**: an undisturbed step changes what the count stands for by the logins that
it completes less the closes. -/
theorem Balanced.step {self : ServerName} (h : b.Balanced n) (hx : b.Undisturbed l)
    (hs : Step true self b l b') : b'.Balanced (n + Label.change l) := by
  have hvalue := h.value
  cases hs with
  | worker hat hc => exact h.worker_step hat hx hc
  | io hat hc => exact h.io_step hat hx hc
  | accept hidle _ =>
    rw [hidle] at hvalue
    show Balanced _ (n + 0)
    rw [Int.add_zero]
    exact ⟨hvalue, h.worker, fun _ _ h => (nomatch h), fun _ _ _ _ _ h => (nomatch h)⟩
  | readSome hidle _ =>
    rw [hidle] at hvalue
    show Balanced _ (n + 0)
    rw [Int.add_zero]
    exact ⟨hvalue, h.worker, fun _ _ h => (nomatch h), fun _ _ _ _ _ h => (nomatch h)⟩
  | take hidle _ =>
    rw [hidle] at hvalue
    show Balanced _ (n + 0)
    rw [Int.add_zero]
    exact ⟨hvalue, fun _ _ h => (nomatch h), h.io, fun _ _ _ _ h => (nomatch h)⟩
  | ioDone hat hends =>
    rw [hat, ioShift_of_ends hends] at hvalue
    show Balanced _ (n + 0)
    rw [Int.add_zero]
    exact ⟨hvalue, h.worker, fun _ _ h => (nomatch h), fun _ _ _ _ _ h => (nomatch h)⟩
  | workerDone hat hends =>
    rw [hat, workerShift_of_ends hends] at hvalue
    show Balanced _ (n + 0)
    rw [Int.add_zero]
    exact ⟨hvalue, fun _ _ h => (nomatch h), h.io, fun _ _ _ _ h => (nomatch h)⟩
  | quiet hl =>
    rw [change_of_quiet hl, Int.add_zero]
    exact h
  | others _ =>
    show Balanced _ (n + 0)
    rw [Int.add_zero]
    exact ⟨hvalue, h.worker, h.io, h.apart⟩

end Ledger

/-! ## Runs -/

/-- **No update of the login count is lost** in a run of which every step is undisturbed: whenever
neither the worker nor the I/O thread is busy, the count has changed by the completed logins less
the closes of logged-in sessions. -/
theorem count_of_undisturbed {J : JsonCpp} {redis : Redis} {tr : List (Cluster.Act × Cluster)}
    {c : Cluster} {n : Int} (S : ServerName) (hn : redis.count S = renderInt n)
    (h : Run (Cluster.Step J) (Cluster.init redis) tr c)
    (hx : Each (Cluster.Step J) (Cluster.init redis)
      (fun _ c a => (c.ledger S).Undisturbed (a.own S)) tr)
    (hworker : (c.ledger S).worker = none) (hio : (c.ledger S).io = none) :
    (c.ledger S).count = renderInt (n + ((logins S tr).length - departures S tr)) := by
  have hbalanced : (c.ledger S).Balanced (n + ((logins S tr).length - departures S tr)) := by
    refine Run.invariant_of_each
      (P := fun tr c => (c.ledger S).Balanced (n + ((logins S tr).length - departures S tr)))
      ?_ ?_ h hx
    · refine ⟨?_, fun _ _ h => (nomatch h), fun _ _ h => (nomatch h), fun _ _ _ _ h => (nomatch h)⟩
      show redis.count S = renderInt (n + (0 - 0) + 0 + 0)
      rw [hn]
      simp
    · intro tr c a c' hr hb hx hs
      have hstep := hb.step hx (ledger_step (Cluster.run_facts hr).1 hs S)
      rw [change_snoc, ← Int.add_assoc]
      exact hstep
  have hvalue := hbalanced.value
  rw [hworker, hio] at hvalue
  simpa [Ledger.workerShift, Ledger.ioShift] using hvalue

/-- Each session logs in at most once, and only before its `close` begins. -/
structure LogsInOnce (S : ServerName) (tr : List (Cluster.Act × Cluster)) : Prop where
  once : ((logins S tr).map Prod.snd).Nodup
  before : (tr.map fun x => x.1.own S).Pairwise fun l l' =>
    ∀ x ∈ Label.registration l', Label.beginsClose x.2 l = false

/-- The worker reads the count 1 for a login, a `close` reads it and writes 0, and the worker writes
2: the decrement is lost. Redis carries out every command, the floor is never needed, and each session
logs in once and before its `close`. -/
theorem count_fails : ¬ ∀ (J : JsonCpp) (redis : Redis) (tr : List (Cluster.Act × Cluster))
    (c : Cluster) (n : Int) (S : ServerName), redis.count S = renderInt n →
    Run (Cluster.Step J) (Cluster.init redis) tr c →
    Each (Cluster.Step J) (Cluster.init redis) (fun _ c a =>
      (c.ledger S).answered (a.own S) = true ∧ Ledger.inRange (a.own S) = true) tr →
    LogsInOnce S tr → (c.ledger S).worker = none → (c.ledger S).io = none →
    (c.ledger S).count = renderInt (n + ((logins S tr).length - departures S tr)) := by
  intro h
  let moves := connects 0 ++ logsIn 0 7 ++ connects 1 ++ requests 1 8 ++
    List.replicate 8 .worker ++ disconnects 0 ++ handling
  have hrun := runOf_run moves
  have hquiet : Each (Cluster.Step loginTexts) (Cluster.init startRedis) (fun _ c a =>
      (c.ledger s1).answered (a.own s1) = true ∧ Ledger.inRange (a.own s1) = true)
      (runOf moves) := hrun.each_iff_along.mpr (by decide +kernel)
  have honce : LogsInOnce s1 (runOf moves) := by
    refine ⟨?_, ?_⟩
    · decide +kernel
    · decide +kernel
  have hidle : ((stateAfter moves).ledger s1).worker = none ∧
      ((stateAfter moves).ledger s1).io = none := by decide +kernel
  have hcount := h loginTexts startRedis _ _ 0 s1 (by decide +kernel) hrun hquiet honce hidle.1 hidle.2
  revert hcount
  decide +kernel

/-- A session logs in and is closed: the count is 0 again. -/
theorem count_logout : ∃ tr c, Run (Cluster.Step loginTexts) (Cluster.init startRedis) tr c ∧
    (logins s1 tr).length = 1 ∧ departures s1 tr = 1 ∧
    (c.ledger s1).count = renderInt (0 + ((logins s1 tr).length - departures s1 tr)) := by
  let moves := connects 0 ++ logsIn 0 7 ++ disconnects 0
  have hrun := runOf_run moves
  have hx : Each (Cluster.Step loginTexts) (Cluster.init startRedis)
      (fun _ c a => (c.ledger s1).Undisturbed (a.own s1)) (runOf moves) :=
    hrun.each_iff_along.mpr (by decide +kernel)
  have hidle : ((stateAfter moves).ledger s1).worker = none ∧
      ((stateAfter moves).ledger s1).io = none := by decide +kernel
  refine ⟨runOf moves, stateAfter moves, hrun, ?_, ?_, ?_⟩
  · decide +kernel
  · decide +kernel
  · exact count_of_undisturbed s1 (by decide +kernel) hrun hx hidle.1 hidle.2

end ChatServer
