import ChatServer.Regular

/-!
# Bindings of users to sessions

A login writes the binding of a session twice, in `_user_uid` and in `UserMgr`, and `close` undoes
both. `consistent_iff` says exactly which runs keep the two in agreement. `sealed_of_exclusive` says
when a closed session is never registered again: when no login and close of one session overlap and a
login never starts on a closed session.
-/

namespace ChatServer

open Interaction Transition Function

/-! ## Runs of a cluster -/

/-- In every state of a run the tasks keep to their phases and the ledgers are regular. -/
theorem Cluster.run_facts {J : JsonCpp} {redis : Redis} {tr : List (Cluster.Act × Cluster)}
    {c : Cluster} (h : Run (Cluster.Step J) (Cluster.init redis) tr c) :
    c.Formed ∧ ∀ S, (c.ledger S).Regular := by
  refine Run.invariant (P := fun _ c => c.Formed ∧ ∀ S, (c.ledger S).Regular) ?_ ?_ h
  · refine ⟨Cluster.formed_init redis, fun S => ?_⟩
    exact ⟨List.nodup_nil, fun _ h => absurd rfl h, fun _ h => (nomatch h), fun _ _ h => (nomatch h),
      fun _ _ h => (nomatch h), fun _ _ h => (nomatch h), fun _ h => (nomatch h)⟩
  · intro tr c a c' _ hc hs
    exact ⟨hc.1.step hs, fun S => (hc.2 S).step (ledger_step hc.1 hs S)⟩

/-- `close` has read `_user_uid` and has neither returned nor thrown. -/
def IoPhase.isClosing : IoPhase → Bool
  | .leaving _ => true
  | .read _ => true
  | .counted => true
  | .erasing _ => true
  | .erased => true
  | .unbound => true
  | .shut => true
  | _ => false

/-- The login has read the login count and has not registered the session yet. -/
def WorkerPhase.isBinding : WorkerPhase → Bool
  | .read _ => true
  | .counted => true
  | .bound _ => true
  | .routed _ => true
  | _ => false

namespace Ledger

variable {lossy : Bool} {self : ServerName} {b b' : Ledger} {l : Option Label}

/-! ## The two places of a binding agree -/

/-- A session that is registered under a uid has that uid, which is positive: `close` of the session
would remove the entry. -/
def Consistent (b : Ledger) : Prop := ∀ u s, b.map u = some s → b.uid s = u ∧ 0 < u

/-- A login sets the uid of a session that is registered under no other uid, it registers a session
whose uid is still the one that it has set, and `close` resets the uid of a session that is not
registered any more. -/
def BindsOnce (b : Ledger) : Option Label → Prop
  | some (.worker ⟨.setUserId s v, _⟩) => ∀ u, b.map u = some s → u = v
  | some (.worker ⟨.setUserSession u s, _⟩) => b.uid s = u ∧ 0 < u
  | some (.io ⟨.setUserId s _, _⟩) => ∀ u, b.map u ≠ some s
  | _ => True

theorem bindsOnce_of_neutral {e : Event calls} (he : e.1.neutral = true) :
    b.BindsOnce (some (.worker e)) ∧ b.BindsOnce (some (.io e)) := by
  rcases e with ⟨c, r⟩
  cases c with
  | setUserId => exact Bool.noConfusion he
  | setUserSession => exact Bool.noConfusion he
  | _ => exact ⟨trivial, trivial⟩

theorem consistent_step_iff (hreg : b.Regular) (h : b.Consistent)
    (hs : Step lossy self b l b') : b'.Consistent ↔ b.BindsOnce l := by
  have hsame : b.Consistent ↔ True := iff_true_intro h
  cases hs with
  | @accept s hidle hnew =>
    refine iff_of_true ?_ trivial
    intro u t hut
    have hne : t ≠ s := fun h => hnew (h ▸ hreg.map u t hut)
    show update b.uid s 0 t = u ∧ 0 < u
    rw [update_of_ne hne]
    exact h u t hut
  | readSome _ _ => exact hsame
  | ioDone _ _ => exact hsame
  | take _ _ => exact hsame
  | workerDone _ _ => exact hsame
  | @quiet l hl => exact iff_of_true h (by cases l <;> trivial)
  | others _ => exact hsame
  | @worker b' s q q' e hat hc =>
    cases hc with
    | neutral he => exact iff_of_true h (bindsOnce_of_neutral he).1
    | @bind _ uid =>
      -- the entries of the session must already be under the new uid
      refine ⟨fun h' u hu => (h' u _ hu).1.symm.trans (update_self ..), fun hc u t hut => ?_⟩
      obtain ⟨huid, hpos⟩ := h u t hut
      refine ⟨?_, hpos⟩
      show update b.uid _ uid t = u
      by_cases ht : t = s
      · subst ht
        rw [update_self]
        exact (hc u hut).symm
      · rw [update_of_ne ht]
        exact huid
    | @register _ uid =>
      refine ⟨fun h' => h' uid s (update_self ..), fun hc u t hut => ?_⟩
      rcases update_some_eq_some.mp hut with ⟨rfl, rfl⟩ | ⟨-, hut⟩
      · exact hc
      · exact h u t hut
    | _ => exact hsame
  | @io b' s q q' e hat hc =>
    cases hc with
    | neutral he => exact iff_of_true h (bindsOnce_of_neutral he).2
    | unbind =>
      constructor
      · intro h' u hu
        obtain ⟨huid, hpos⟩ := h' u _ hu
        have hzero : (0 : Int) = u := (update_self ..).symm.trans huid
        omega
      · intro hc u t hut
        have hne : t ≠ s := fun ht => hc u (ht ▸ hut)
        show update b.uid s 0 t = u ∧ 0 < u
        rw [update_of_ne hne]
        exact h u t hut
    | erase => exact iff_of_true (fun u t hut => h u t (update_none_eq_some.mp hut).2) trivial
    | _ => exact hsame

/-- The session is registered under at most one uid, and removing the entry of its `_user_uid`, as
`close` does, leaves no entry that refers to it. -/
def RegisteredOnce (b : Ledger) (s : SessId) : Prop :=
  (∀ u v, b.map u = some s → b.map v = some s → u = v) ∧
    ∀ u, update b.map (b.uid s) none u ≠ some s

theorem Consistent.registeredOnce (h : b.Consistent) (s : SessId) : b.RegisteredOnce s := by
  constructor
  · intro u v hu hv
    exact (h u s hu).1.symm.trans (h v s hv).1
  · intro u hu
    obtain ⟨hne, hu⟩ := update_none_eq_some.mp hu
    exact hne (h u s hu).1.symm

/-! ## A closed session stays unregistered -/

/-- A `close` of the session is under way: it has read `_user_uid`. -/
def Closing (b : Ledger) (s : SessId) : Prop := ∃ q, b.io = some (s, q) ∧ q.isClosing = true

/-- A login of the session is between reading the login count and registering the session. -/
def LoggingIn (b : Ledger) (s : SessId) : Prop :=
  ∃ q, b.worker = some (s, q) ∧ q.isBinding = true

/-- A login begins to count only for an open session whose `close` is not under way, `close` reads
`_user_uid` only while the session is not being logged in, and a login is with a positive uid and for
a session that is registered under no other uid. -/
def Exclusive (b : Ledger) : Option Label → Prop
  | some (.worker ⟨.hGet _ _, _⟩) =>
    ∀ s q, b.worker = some (s, q) → b.closed s = false ∧ ¬ b.Closing s
  | some (.worker ⟨.setUserId s v, _⟩) => 0 < v ∧ ∀ u, b.map u = some s → u = v
  | some (.io ⟨.getUserId s, _⟩) => ¬ b.LoggingIn s
  | _ => True

/-- What holds of the session that the worker logs in. -/
def WorkerSound (b : Ledger) (s : SessId) : WorkerPhase → Prop
  | .read _ => b.closed s = false ∧ ¬ b.Closing s
  | .counted => b.closed s = false ∧ ¬ b.Closing s
  | .bound uid => (b.closed s = false ∧ ¬ b.Closing s) ∧ b.uid s = uid ∧ 0 < uid
  | .routed uid => (b.closed s = false ∧ ¬ b.Closing s) ∧ b.uid s = uid ∧ 0 < uid
  | _ => True

/-- What holds of the session that the I/O thread closes. -/
def IoSound (b : Ledger) (s : SessId) : IoPhase → Prop
  | .erasing uid => b.uid s = uid
  | .erased => ∀ u, b.map u ≠ some s
  | .unbound => ∀ u, b.map u ≠ some s
  | .shut => ∀ u, b.map u ≠ some s
  | _ => True

/-- Bindings that no login and `close` of one session have disturbed. -/
structure Sound (b : Ledger) : Prop where
  consistent : b.Consistent
  closed : ∀ s, b.closed s = true → ∀ u, b.map u ≠ some s
  worker : ∀ s q, b.worker = some (s, q) → b.WorkerSound s q
  io : ∀ s q, b.io = some (s, q) → b.IoSound s q

theorem WorkerSound.of_binding {s : SessId} {q : WorkerPhase} (h : b.WorkerSound s q)
    (hq : q.isBinding = true) : b.closed s = false ∧ ¬ b.Closing s := by
  cases q with
  | read => exact h
  | counted => exact h
  | bound => exact h.1
  | routed => exact h.1
  | checking => cases hq
  | registered => cases hq

/-- A session that is being closed is not being logged in. -/
theorem Sound.not_loggingIn {s : SessId} (h : b.Sound) (hc : b.Closing s) : ¬ b.LoggingIn s := by
  rintro ⟨q, hq, hbind⟩
  exact ((h.worker s q hq).of_binding hbind).2 hc

/-- A worker's claim survives what does not touch its session. -/
theorem WorkerSound.transfer {t : SessId} {q : WorkerPhase} (h : b.WorkerSound t q)
    (hsame : q.isBinding = true →
      b'.closed t = b.closed t ∧ b'.uid t = b.uid t ∧ ¬ b'.Closing t) : b'.WorkerSound t q := by
  cases q with
  | read =>
    obtain ⟨hclosed, -, hfree⟩ := hsame rfl
    exact ⟨hclosed.trans h.1, hfree⟩
  | counted =>
    obtain ⟨hclosed, -, hfree⟩ := hsame rfl
    exact ⟨hclosed.trans h.1, hfree⟩
  | bound =>
    obtain ⟨hclosed, huid, hfree⟩ := hsame rfl
    exact ⟨⟨hclosed.trans h.1.1, hfree⟩, huid.trans h.2.1, h.2.2⟩
  | routed =>
    obtain ⟨hclosed, huid, hfree⟩ := hsame rfl
    exact ⟨⟨hclosed.trans h.1.1, hfree⟩, huid.trans h.2.1, h.2.2⟩
  | checking => trivial
  | registered => trivial

/-- So does the claim of the I/O thread. -/
theorem IoSound.transfer {t : SessId} {q : IoPhase} (h : b.IoSound t q)
    (hsame : q.isClosing = true → b'.uid t = b.uid t ∧ ∀ u, b'.map u = some t → b.map u = some t) :
    b'.IoSound t q := by
  cases q with
  | erasing => exact (hsame rfl).1.trans h
  | erased => exact fun u hu => h u ((hsame rfl).2 u hu)
  | unbound => exact fun u hu => h u ((hsame rfl).2 u hu)
  | shut => exact fun u hu => h u ((hsame rfl).2 u hu)
  | _ => trivial

/-- A worker's step for the session `s`. -/
theorem Sound.workerMove {s : SessId} {q' : WorkerPhase} (h : b.Sound) (hio : b'.io = b.io)
    (hfree : ¬ b.Closing s ∨ (b'.uid s = b.uid s ∧ b'.map = b.map))
    (hother : ∀ t, t ≠ s → b'.uid t = b.uid t ∧ ∀ u, b'.map u = some t → b.map u = some t)
    (hcons : b'.Consistent) (hclosed : ∀ t, b'.closed t = true → ∀ u, b'.map u ≠ some t)
    (hwk : b'.WorkerSound s q') : Sound { b' with worker := some (s, q') } := by
  refine ⟨hcons, hclosed, ?_, ?_⟩
  · rintro _ _ ⟨⟩
    exact hwk
  · intro t q hq
    have hq' : b.io = some (t, q) := hio.symm.trans hq
    refine IoSound.transfer (b := b) (h.io t q hq') fun hclosing => ?_
    by_cases ht : t = s
    · subst ht
      rcases hfree with hfree | ⟨huid, hmap⟩
      · exact absurd ⟨q, hq', hclosing⟩ hfree
      · exact ⟨huid, fun u hu => by rwa [show b'.map = b.map from hmap] at hu⟩
    · exact hother t ht

/-- A step of the I/O thread for the session `s`. -/
theorem Sound.ioMove {s : SessId} {q' : IoPhase} (h : b.Sound) (hwk : b'.worker = b.worker)
    (hfree : ¬ b.LoggingIn s ∨
      (q'.isClosing = false ∧ b'.closed s = b.closed s ∧ b'.uid s = b.uid s))
    (hother : ∀ t, t ≠ s → b'.closed t = b.closed t ∧ b'.uid t = b.uid t)
    (hcons : b'.Consistent) (hclosed : ∀ t, b'.closed t = true → ∀ u, b'.map u ≠ some t)
    (hio : b'.IoSound s q') : Sound { b' with io := some (s, q') } := by
  refine ⟨hcons, hclosed, ?_, ?_⟩
  · intro t q hq
    have hq' : b.worker = some (t, q) := hwk.symm.trans hq
    refine WorkerSound.transfer (b := b) (h.worker t q hq') fun hbind => ?_
    by_cases ht : t = s
    · subst ht
      rcases hfree with hfree | ⟨hopen, hsame, huid⟩
      · exact absurd ⟨q, hq', hbind⟩ hfree
      · refine ⟨hsame, huid, ?_⟩
        rintro ⟨q₁, ⟨⟩, hq₁⟩
        exact Bool.noConfusion (hopen.symm.trans hq₁)
    · refine ⟨(hother t ht).1, (hother t ht).2, ?_⟩
      rintro ⟨q₁, ⟨⟩, -⟩
      exact ht rfl
  · rintro _ _ ⟨⟩
    exact hio

theorem Sound.worker_step {s : SessId} {q q' : WorkerPhase} {e : Event calls} (h : b.Sound)
    (hreg : b.Regular) (hat : b.worker = some (s, q)) (hx : b.Exclusive (some (.worker e)))
    (hc : WorkerCall lossy self s q b e q' b') : Sound { b' with worker := some (s, q') } := by
  have hwk := h.worker s q hat
  have hcons := consistent_step_iff hreg h.consistent (.worker hat hc)
  have hquiet : ∀ t, t ≠ s → b.uid t = b.uid t ∧ ∀ u, b.map u = some t → b.map u = some t :=
    fun _ _ => ⟨rfl, fun _ h => h⟩
  cases hc with
  | neutral he =>
    rw [← hat]
    exact h
  | readCount => exact h.workerMove rfl (Or.inr ⟨rfl, rfl⟩) hquiet h.consistent h.closed (hx s _ hat)
  | missCount => exact h.workerMove rfl (Or.inr ⟨rfl, rfl⟩) hquiet h.consistent h.closed (hx s _ hat)
  | writeCount => exact h.workerMove rfl (Or.inr ⟨rfl, rfl⟩) hquiet h.consistent h.closed hwk
  | loseCount => exact h.workerMove rfl (Or.inr ⟨rfl, rfl⟩) hquiet h.consistent h.closed hwk
  | @bind _ uid =>
    have hother : ∀ t, t ≠ s → update b.uid s uid t = b.uid t ∧
        ∀ u, b.map u = some t → b.map u = some t := fun t ht => ⟨update_of_ne ht .., fun _ h => h⟩
    exact h.workerMove rfl (Or.inl hwk.2) hother (hcons.mpr hx.2) h.closed
      ⟨hwk, update_self .., hx.1⟩
  | route => exact h.workerMove rfl (Or.inr ⟨rfl, rfl⟩) hquiet h.consistent h.closed hwk
  | loseRoute => exact h.workerMove rfl (Or.inr ⟨rfl, rfl⟩) hquiet h.consistent h.closed hwk
  | register =>
    refine h.workerMove rfl (Or.inl hwk.1.2) ?_ (hcons.mpr hwk.2) ?_ trivial
    · intro t ht
      refine ⟨rfl, fun u hu => ?_⟩
      rcases update_some_eq_some.mp hu with ⟨-, rfl⟩ | ⟨-, hu⟩
      · exact absurd rfl ht
      · exact hu
    · intro t hclosed u hu
      rcases update_some_eq_some.mp hu with ⟨-, rfl⟩ | ⟨-, hu⟩
      · exact Bool.noConfusion (hwk.1.1.symm.trans hclosed)
      · exact h.closed t hclosed u hu

theorem Sound.io_step {s : SessId} {q q' : IoPhase} {e : Event calls} (h : b.Sound)
    (hreg : b.Regular) (hat : b.io = some (s, q)) (hx : b.Exclusive (some (.io e)))
    (hc : IoCall lossy self s q b e q' b') : Sound { b' with io := some (s, q') } := by
  have hio := h.io s q hat
  have hcons := consistent_step_iff hreg h.consistent (.io hat hc)
  have hquiet : ∀ t, t ≠ s → b.closed t = b.closed t ∧ b.uid t = b.uid t := fun _ _ => ⟨rfl, rfl⟩
  have hbusy : q.isClosing = true → ¬ b.LoggingIn s := fun hq => h.not_loggingIn ⟨q, hat, hq⟩
  cases hc with
  | neutral he =>
    rw [← hat]
    exact h
  | header | reject | store | lost | fill | post | arm | armBody | add | seeClosed | beginClose
  | release => exact h.ioMove rfl (Or.inr ⟨rfl, rfl, rfl⟩) hquiet h.consistent h.closed trivial
  | leave => exact h.ioMove rfl (Or.inl hx) hquiet h.consistent h.closed trivial
  | readCount | missCount | writeCount | loseCount =>
    exact h.ioMove rfl (Or.inl (hbusy rfl)) hquiet h.consistent h.closed trivial
  | pass hle =>
    refine h.ioMove rfl (Or.inl hx) hquiet h.consistent h.closed fun u hu => ?_
    obtain ⟨huid, hpos⟩ := h.consistent u s hu
    omega
  | reread => exact h.ioMove rfl (Or.inl (hbusy rfl)) hquiet h.consistent h.closed rfl
  | @erase _ uid =>
    refine h.ioMove rfl (Or.inl (hbusy rfl)) hquiet (hcons.mpr trivial) ?_ ?_
    · exact fun t hclosed u hu => h.closed t hclosed u (update_none_eq_some.mp hu).2
    · intro u hu
      obtain ⟨hne, hu⟩ := update_none_eq_some.mp hu
      exact hne ((h.consistent u s hu).1.symm.trans hio)
  | unbind =>
    have hother : ∀ t, t ≠ s → b.closed t = b.closed t ∧ update b.uid s 0 t = b.uid t :=
      fun t ht => ⟨rfl, update_of_ne ht ..⟩
    exact h.ioMove rfl (Or.inl (hbusy rfl)) hother (hcons.mpr hio) h.closed hio
  | shut => exact h.ioMove rfl (Or.inl (hbusy rfl)) hquiet h.consistent h.closed hio
  | fail => exact h.ioMove rfl (Or.inl (hbusy rfl)) hquiet h.consistent h.closed trivial
  | setClosed =>
    have hother : ∀ t, t ≠ s → update b.closed s true t = b.closed t ∧ b.uid t = b.uid t :=
      fun t ht => ⟨update_of_ne ht .., rfl⟩
    refine h.ioMove rfl (Or.inl (hbusy rfl)) hother h.consistent ?_ trivial
    intro t hclosed
    by_cases ht : t = s
    · subst ht
      exact hio
    · exact h.closed t ((update_of_ne ht ..).symm.trans hclosed)

/-- **Sound bindings stay sound** under steps that keep logins and `close` apart. -/
theorem Sound.step (h : b.Sound) (hreg : b.Regular) (hx : b.Exclusive l)
    (hs : Step lossy self b l b') : b'.Sound := by
  have hsound := h
  obtain ⟨hcons, hclosed, hworker, hio⟩ := h
  have hiff := consistent_step_iff hreg hcons hs
  cases hs with
  | worker hat hc => exact hsound.worker_step hreg hat hx hc
  | io hat hc => exact hsound.io_step hreg hat hx hc
  | @accept s hidle hnew =>
    refine ⟨hiff.mpr trivial, ?_, ?_, ?_⟩
    · intro t ht u
      by_cases hts : t = s
      · subst hts
        exact Bool.noConfusion ((update_self ..).symm.trans ht)
      · exact hclosed t ((update_of_ne hts ..).symm.trans ht) u
    · intro t q hq
      have hts : t ≠ s := fun h => hnew (h ▸ hreg.worker t q hq)
      refine WorkerSound.transfer (b := b) (hworker t q hq) fun _ =>
        ⟨update_of_ne hts .., update_of_ne hts .., ?_⟩
      rintro ⟨q₁, ⟨⟩, hq₁⟩
      cases hq₁
    · rintro _ _ ⟨⟩
      trivial
  | readSome hidle hp =>
    refine ⟨hcons, hclosed, ?_, ?_⟩
    · intro t q hq
      refine WorkerSound.transfer (b := b) (hworker t q hq) fun _ => ⟨rfl, rfl, ?_⟩
      rintro ⟨q₁, ⟨⟩, hq₁⟩
      cases hq₁
    · rintro _ _ ⟨⟩
      trivial
  | ioDone hat hends =>
    refine ⟨hcons, hclosed, ?_, fun _ _ h => (nomatch h)⟩
    intro t q hq
    refine WorkerSound.transfer (b := b) (hworker t q hq) fun _ => ⟨rfl, rfl, ?_⟩
    rintro ⟨q₁, ⟨⟩, -⟩
  | take hidle hque =>
    refine ⟨hcons, hclosed, ?_, hio⟩
    rintro _ _ ⟨⟩
    trivial
  | workerDone hat hends => exact ⟨hcons, hclosed, fun _ _ h => (nomatch h), hio⟩
  | quiet _ => exact hsound
  | others _ => exact ⟨hcons, hclosed, hworker, hio⟩

/-- The step neither counts a login of a closed session nor registers one. -/
def NoLateLogin (b : Ledger) : Option Label → Prop
  | some (.worker ⟨.hSet _ _ _, _⟩) => ∀ s q, b.worker = some (s, q) → b.closed s = false
  | some (.worker ⟨.setUserSession _ s, _⟩) => b.closed s = false
  | _ => True

theorem Sound.noLateLogin (h : b.Sound) (hs : Step lossy self b l b') : b.NoLateLogin l := by
  cases hs with
  | @worker b' s q q' e hat hc =>
    have hwk := h.worker s q hat
    cases hc with
    | @neutral _ _ e he =>
      rcases e with ⟨c, r⟩
      cases c with
      | hSet => exact Bool.noConfusion he
      | setUserSession => exact Bool.noConfusion he
      | _ => trivial
    | writeCount =>
      intro t q₁ ht
      cases hat.symm.trans ht
      exact hwk.1
    | loseCount =>
      intro t q₁ ht
      cases hat.symm.trans ht
      exact hwk.1
    | register => exact hwk.1.1
    | _ => trivial
  | @quiet l hl => cases l <;> trivial
  | _ => trivial

end Ledger

/-! ## Runs -/

section Runs

variable {J : JsonCpp} {redis : Redis} {tr : List (Cluster.Act × Cluster)} {c : Cluster}

/-- **When the two places of every binding agree.** In a run of a cluster, every session registered
with the server `S` has the uid under which it is registered, and `close` would remove the entry,
exactly when each login sets the uid of a session that is registered under no other uid, registers
the session while it has that positive uid, and each `close` resets the uid of a session that is
registered no more. Then no session is registered twice, and removing the entry of its uid leaves no
other. -/
theorem consistent_iff (S : ServerName)
    (h : Run (Cluster.Step J) (Cluster.init redis) tr c) :
    (Throughout (Cluster.Step J) (Cluster.init redis) (fun _ c => (c.ledger S).Consistent) tr ↔
      Each (Cluster.Step J) (Cluster.init redis)
        (fun _ c a => (c.ledger S).BindsOnce (a.own S)) tr) ∧
    (Each (Cluster.Step J) (Cluster.init redis)
        (fun _ c a => (c.ledger S).BindsOnce (a.own S)) tr →
      Throughout (Cluster.Step J) (Cluster.init redis)
        (fun _ c => ∀ s, (c.ledger S).RegisteredOnce s) tr) := by
  have hiff : Throughout (Cluster.Step J) (Cluster.init redis) (fun _ c => (c.ledger S).Consistent) tr ↔
      Each (Cluster.Step J) (Cluster.init redis)
        (fun _ c a => (c.ledger S).BindsOnce (a.own S)) tr := by
    refine Run.throughout_iff_each ?_ ?_ h
    · intro u s hus
      cases hus
    · intro tr c a c' hr hthrough hs
      obtain ⟨hformed, hreg⟩ := Cluster.run_facts hr
      exact Ledger.consistent_step_iff (hreg S) (hthrough tr c hr (List.prefix_refl _))
        (ledger_step hformed hs S)
  refine ⟨hiff, ?_⟩
  intro hbinds tr' c' hr hpre s
  exact Ledger.Consistent.registeredOnce (hiff.mpr hbinds tr' c' hr hpre) s

/-- A session is logged in as one user and then as another: it stays registered as the first. -/
theorem consistent_fails : ¬ ∀ (J : JsonCpp) (redis : Redis) (S : ServerName)
    (tr : List (Cluster.Act × Cluster)) (c : Cluster),
    Run (Cluster.Step J) (Cluster.init redis) tr c →
    ∀ u s, (c.ledger S).map u = some s → (c.ledger S).uid s = u := by
  intro h
  let moves := connects 0 ++ logsIn 0 7 ++ logsIn 0 8
  have hmap : ((stateAfter moves).ledger s1).map 7 = some 0 := by decide +kernel
  have huid : ((stateAfter moves).ledger s1).uid 0 = 8 := by decide +kernel
  have hseven := h loginTexts startRedis s1 _ _ (runOf_run moves) 7 0 hmap
  rw [huid] at hseven
  exact absurd hseven (by decide)

/-- A session logs in and is registered. -/
theorem consistent_login : ∃ tr c, Run (Cluster.Step loginTexts) (Cluster.init startRedis) tr c ∧
    (c.ledger s1).map 7 = some 0 ∧
    (Throughout (Cluster.Step loginTexts) (Cluster.init startRedis)
        (fun _ c => (c.ledger s1).Consistent) tr ↔
      Each (Cluster.Step loginTexts) (Cluster.init startRedis)
        (fun _ c a => (c.ledger s1).BindsOnce (a.own s1)) tr) := by
  let moves := connects 0 ++ logsIn 0 7
  refine ⟨runOf moves, stateAfter moves, runOf_run moves, ?_, (consistent_iff s1 (runOf_run moves)).1⟩
  decide +kernel

/-- The bindings stay sound in a run that keeps logins and `close` of one session apart. -/
theorem sound_of_exclusive (S : ServerName)
    (h : Run (Cluster.Step J) (Cluster.init redis) tr c)
    (hx : Each (Cluster.Step J) (Cluster.init redis)
      (fun _ c a => (c.ledger S).Exclusive (a.own S)) tr) : (c.ledger S).Sound := by
  refine Run.invariant_of_each (P := fun _ c => (c.ledger S).Sound) ?_ ?_ h hx
  · exact ⟨fun _ _ h => (nomatch h), fun _ h => (nomatch h), fun _ _ h => (nomatch h),
      fun _ _ h => (nomatch h)⟩
  · intro tr c a c' hr hsound hexcl hs
    obtain ⟨hformed, hreg⟩ := Cluster.run_facts hr
    exact hsound.step (hreg S) hexcl (ledger_step hformed hs S)

/-- **A closed session is never registered again**, if no login of a session begins to count once its
`close` has begun, no `close` begins while the session is being logged in, and a session logs in with
positive uids and under one uid at a time: no entry of `UserMgr` refers to a closed session, and no
step counts or registers a login of one. -/
theorem sealed_of_exclusive (S : ServerName)
    (h : Run (Cluster.Step J) (Cluster.init redis) tr c)
    (hx : Each (Cluster.Step J) (Cluster.init redis)
      (fun _ c a => (c.ledger S).Exclusive (a.own S)) tr) :
    Throughout (Cluster.Step J) (Cluster.init redis)
        (fun _ c => ∀ s, (c.ledger S).closed s = true → ∀ u, (c.ledger S).map u ≠ some s) tr ∧
      Each (Cluster.Step J) (Cluster.init redis)
        (fun _ c a => (c.ledger S).NoLateLogin (a.own S)) tr := by
  constructor
  · exact Run.throughout_of_each (fun tr c hr hx => (sound_of_exclusive S hr hx).closed) hx
  · refine Run.each_of_each ?_ h hx
    intro tr c a c' hr hx _ hs
    exact (sound_of_exclusive S hr hx).noLateLogin (ledger_step (Cluster.run_facts hr).1 hs S)

/-- A login request is still queued when its session is closed: the worker then registers a closed
session. -/
theorem sealed_fails : ¬ ∀ (J : JsonCpp) (redis : Redis) (S : ServerName)
    (tr : List (Cluster.Act × Cluster)) (c : Cluster),
    Run (Cluster.Step J) (Cluster.init redis) tr c →
    ∀ s, (c.ledger S).closed s = true → ∀ u, (c.ledger S).map u ≠ some s := by
  intro h
  let moves := connects 0 ++ requests 0 7 ++ disconnects 0 ++ handling
  have hclosed : ((stateAfter moves).ledger s1).closed 0 = true := by decide +kernel
  have hmap : ((stateAfter moves).ledger s1).map 7 = some 0 := by decide +kernel
  exact h loginTexts startRedis s1 _ _ (runOf_run moves) 0 hclosed 7 hmap

/-! ## A sufficient condition that can be computed -/

namespace Ledger

variable {b : Ledger} {l : Option Label}

instance (b : Ledger) (s : SessId) : Decidable (b.Closing s) :=
  decidable_of_iff (∃ x ∈ b.io, x.1 = s ∧ x.2.isClosing = true) <| by
    constructor
    · rintro ⟨⟨t, q⟩, hx, rfl, hq⟩
      exact ⟨q, hx, hq⟩
    · rintro ⟨q, hx, hq⟩
      exact ⟨(s, q), hx, rfl, hq⟩

instance (b : Ledger) (s : SessId) : Decidable (b.LoggingIn s) :=
  decidable_of_iff (∃ x ∈ b.worker, x.1 = s ∧ x.2.isBinding = true) <| by
    constructor
    · rintro ⟨⟨t, q⟩, hx, rfl, hq⟩
      exact ⟨q, hx, hq⟩
    · rintro ⟨q, hx, hq⟩
      exact ⟨(s, q), hx, rfl, hq⟩

/-- `Exclusive`, with a login as another user excluded by `_user_uid`. -/
def separate (b : Ledger) : Option Label → Bool
  | some (.worker ⟨.hGet _ _, _⟩) => ∀ x ∈ b.worker, b.closed x.1 = false ∧ ¬ b.Closing x.1
  | some (.worker ⟨.setUserId s v, _⟩) => 0 < v ∧ (b.uid s ≤ 0 ∨ b.uid s = v)
  | some (.io ⟨.getUserId s, _⟩) => ¬ b.LoggingIn s
  | _ => true

theorem Sound.exclusive (h : b.Sound) (hsep : b.separate l = true) : b.Exclusive l := by
  unfold separate at hsep
  split at hsep
  · intro s q hq
    exact of_decide_eq_true hsep (s, q) hq
  · rename_i s v _
    obtain ⟨hpos, huid⟩ := of_decide_eq_true hsep
    refine ⟨hpos, fun u hu => ?_⟩
    obtain ⟨hu, hupos⟩ := h.consistent u s hu
    omega
  · have hfree := of_decide_eq_true hsep
    exact hfree
  · rename_i hget hset huid
    unfold Exclusive
    split
    · exact absurd rfl (hget _ _ _)
    · exact absurd rfl (hset _ _ _)
    · exact absurd rfl (huid _ _)
    · trivial

end Ledger

/-- A run that passes the computable check keeps logins and `close` of one session apart. -/
theorem exclusive_of_separate (S : ServerName)
    (h : Run (Cluster.Step J) (Cluster.init redis) tr c)
    (hsep : Each (Cluster.Step J) (Cluster.init redis)
      (fun _ c a => (c.ledger S).separate (a.own S) = true) tr) :
    Each (Cluster.Step J) (Cluster.init redis)
      (fun _ c a => (c.ledger S).Exclusive (a.own S)) tr := by
  induction h with
  | nil => exact each_nil
  | snoc hr _ ih =>
    have hx := ih hsep.of_snoc
    exact (each_snoc hr).mpr ⟨hx, (sound_of_exclusive S hr hx).exclusive (hsep.last hr)⟩

/-- A session logs in and is closed. -/
theorem sealed_logout : ∃ tr c, Run (Cluster.Step loginTexts) (Cluster.init startRedis) tr c ∧
    (c.ledger s1).closed 0 = true ∧
    Throughout (Cluster.Step loginTexts) (Cluster.init startRedis)
      (fun _ c => ∀ s, (c.ledger s1).closed s = true → ∀ u, (c.ledger s1).map u ≠ some s) tr := by
  let moves := connects 0 ++ logsIn 0 7 ++ disconnects 0
  have hrun := runOf_run moves
  have hsep : Each (Cluster.Step loginTexts) (Cluster.init startRedis)
      (fun _ c a => (c.ledger s1).separate (a.own s1) = true) (runOf moves) :=
    hrun.each_iff_along.mpr (by decide +kernel)
  refine ⟨runOf moves, stateAfter moves, hrun, ?_, ?_⟩
  · decide +kernel
  · exact (sealed_of_exclusive s1 hrun (exclusive_of_separate s1 hrun hsep)).1

end Runs

end ChatServer
