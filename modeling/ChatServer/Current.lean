import ChatServer.Binding

/-!
# The session of a user

Which session a user is reached at: the one that logged in as the user last, as long as it is open
and has not logged in as another user. `current_iff` says exactly which runs keep `UserMgr` at that
session. Entries are removed by uid, so what can go wrong is that the `close` of an older session
removes the entry of a newer one (`current_fails`).
-/

namespace ChatServer

open Interaction Transition Function

/-! ## The history of logins -/

/-- The login that the step completes: its uid and its session. -/
def Label.registration : Option Label → Option (Int × SessId)
  | some (.worker ⟨.setUserSession u s, _⟩) => some (u, s)
  | _ => none

/-- `close` begins on the session: it finds `_b_close` false. -/
def Label.beginsClose (s : SessId) : Option Label → Bool
  | some (.io ⟨.bClose t, r⟩) => t == s && !r
  | _ => false

/-- The logins completed on the server `S`, the last one first. -/
def logins (S : ServerName) (tr : List (Cluster.Act × Cluster)) : List (Int × SessId) :=
  tr.reverse.filterMap fun x => Label.registration (x.1.own S)

/-- The session `s` is the last that has logged in as `u` on the server `S`; since then it has not
logged in as another user, and no `close` has begun on it. -/
structure Current (S : ServerName) (tr : List (Cluster.Act × Cluster)) (u : Int) (s : SessId) :
    Prop where
  ofUser : (logins S tr).find? (fun x => x.1 = u) = some (u, s)
  ofSession : (logins S tr).find? (fun x => x.2 = s) = some (u, s)
  unclosed : ∀ x ∈ tr, Label.beginsClose s (x.1.own S) = false

section History

variable {S : ServerName} {tr : List (Cluster.Act × Cluster)} {c : Cluster} {a : Cluster.Act}
  {u v : Int} {s t : SessId}

theorem logins_snoc : logins S (tr ++ [(a, c)]) =
    (Label.registration (a.own S)).toList ++ logins S tr := by
  unfold logins
  rw [List.reverse_append, List.reverse_singleton, List.singleton_append, List.filterMap_cons]
  cases Label.registration (a.own S) <;> rfl

/-- A step that completes no login leaves no new session current. -/
theorem Current.of_quiet (h : Current S (tr ++ [(a, c)]) u s)
    (ha : Label.registration (a.own S) = none) : Current S tr u s := by
  obtain ⟨huser, hsession, hclose⟩ := h
  rw [logins_snoc, ha, Option.toList_none, List.nil_append] at huser hsession
  exact ⟨huser, hsession, fun x hx => hclose x (List.mem_append_left _ hx)⟩

theorem current_snoc_of_quiet (ha : Label.registration (a.own S) = none)
    (hclose : ∀ s, Label.beginsClose s (a.own S) = false) :
    Current S (tr ++ [(a, c)]) u s ↔ Current S tr u s := by
  refine ⟨fun h => h.of_quiet ha, ?_⟩
  rintro ⟨huser, hsession, hopen⟩
  refine ⟨?_, ?_, ?_⟩
  · rw [logins_snoc, ha]
    exact huser
  · rw [logins_snoc, ha]
    exact hsession
  · intro x hx
    rcases List.mem_append.mp hx with hx | hx
    · exact hopen x hx
    · rw [List.mem_singleton.mp hx]
      exact hclose s

/-- After a login of `t` as `v`, the session `t` is the only one that can be current for `v`, and for
no other user. -/
theorem Current.of_registration (h : Current S (tr ++ [(a, c)]) u s)
    (ha : Label.registration (a.own S) = some (v, t)) :
    (u = v ∧ s = t) ∨ (u ≠ v ∧ s ≠ t ∧ Current S tr u s) := by
  obtain ⟨huser, hsession, hclose⟩ := h
  rw [logins_snoc, ha, Option.toList_some, List.singleton_append, List.find?_cons] at huser hsession
  by_cases huv : v = u
  · rw [decide_eq_true huv] at huser
    cases huser
    exact Or.inl ⟨rfl, rfl⟩
  · rw [decide_eq_false huv] at huser
    by_cases hst : t = s
    · rw [decide_eq_true hst] at hsession
      cases hsession
      exact absurd rfl huv
    · rw [decide_eq_false hst] at hsession
      refine Or.inr ⟨Ne.symm huv, Ne.symm hst, huser, hsession, ?_⟩
      exact fun x hx => hclose x (List.mem_append_left _ hx)

end History

/-! ## Steps -/

/-- `UserMgr` has the current session of every user. -/
def Ledger.Tracks (b : Ledger) (S : ServerName) (tr : List (Cluster.Act × Cluster)) : Prop :=
  ∀ u s, 0 < u → Current S tr u s → b.map u = some s

/-- If the step removes the entry of a user, no session is current for that user. -/
def KeepsCurrent (S : ServerName) (tr : List (Cluster.Act × Cluster)) : Option Label → Prop
  | some (.io ⟨.removeUserSession u, _⟩) => 0 < u → ∀ s, ¬ Current S tr u s
  | _ => True

/-- What a step does to `UserMgr`: a login registers its session, `close` removes an entry, and no
other step changes it. -/
inductive MapStep (b b' : Ledger) : Option Label → Prop where
  | register {u : Int} {s : SessId} :
      b'.map = update b.map u (some s) → MapStep b b' (some (.worker ⟨.setUserSession u s, ()⟩))
  | erase {u : Int} :
      b'.map = update b.map u none → MapStep b b' (some (.io ⟨.removeUserSession u, ()⟩))
  | keep {l : Option Label} :
      Label.registration l = none → (∀ u r, l ≠ some (.io ⟨.removeUserSession u, r⟩)) →
      b'.map = b.map → MapStep b b' l

theorem registration_of_neutral {e : Event calls} (he : e.1.neutral = true) :
    Label.registration (some (.worker e)) = none := by
  rcases e with ⟨c, r⟩
  cases c with
  | setUserSession => exact Bool.noConfusion he
  | _ => rfl

theorem Ledger.Step.mapStep {lossy : Bool} {self : ServerName} {b b' : Ledger} {l : Option Label}
    (hs : Step lossy self b l b') : MapStep b b' l := by
  cases hs with
  | worker hat hc =>
    cases hc with
    | register => exact .register rfl
    | neutral he => exact .keep (registration_of_neutral he) (fun _ _ h => nomatch h) rfl
    | _ => exact .keep rfl (fun _ _ h => nomatch h) rfl
  | io hat hc =>
    cases hc with
    | erase => exact .erase rfl
    | neutral he =>
      refine .keep rfl ?_ rfl
      rintro u r ⟨⟩
      exact Bool.noConfusion he
    | _ => exact .keep rfl (fun _ _ h => nomatch h) rfl
  | @quiet l hl =>
    refine .keep ?_ ?_ rfl
    · cases l <;> first | rfl | exact Bool.noConfusion hl
    · rintro u r ⟨⟩
      exact Bool.noConfusion hl
  | _ => exact .keep rfl (fun _ _ h => nomatch h) rfl

theorem tracks_step_iff {S : ServerName} {tr : List (Cluster.Act × Cluster)} {a : Cluster.Act}
    {c : Cluster} {b b' : Ledger} (h : b.Tracks S tr) (hs : MapStep b b' (a.own S)) :
    b'.Tracks S (tr ++ [(a, c)]) ↔ KeepsCurrent S tr (a.own S) := by
  generalize hl : a.own S = l at hs
  cases hs with
  | @register v t hmap =>
    have ha : Label.registration (a.own S) = some (v, t) := by rw [hl]; rfl
    refine iff_of_true ?_ trivial
    intro u s hu hcur
    rw [hmap]
    rcases hcur.of_registration ha with ⟨rfl, rfl⟩ | ⟨huv, -, hcur⟩
    · rw [update_self]
    · rw [update_of_ne huv]
      exact h u s hu hcur
  | @erase v hmap =>
    have hsnoc : ∀ u s, Current S (tr ++ [(a, c)]) u s ↔ Current S tr u s :=
      fun u s => current_snoc_of_quiet (by rw [hl]; rfl) (by rw [hl]; exact fun _ => rfl)
    constructor
    · intro h' hv s hcur
      have hentry := h' v s hv ((hsnoc v s).mpr hcur)
      rw [hmap, update_self] at hentry
      cases hentry
    · intro hfree u s hu hcur
      have hcur := (hsnoc u s).mp hcur
      have hne : u ≠ v := by
        rintro rfl
        exact hfree hu s hcur
      rw [hmap, update_of_ne hne]
      exact h u s hu hcur
  | keep hreg hremove hmap =>
    refine iff_of_true ?_ ?_
    · intro u s hu hcur
      rw [hmap]
      exact h u s hu (hcur.of_quiet (hl ▸ hreg))
    · unfold KeepsCurrent
      split
      · exact absurd rfl (hremove _ _)
      · trivial

/-- **When `UserMgr` has the current session of every user.** In a run of a cluster, `UserMgr` of the
server `S` has for every user the session that logged in last and is open and logged in as no other
user since, exactly when no `close` removes the entry of a user who has such a session. -/
theorem current_iff {J : JsonCpp} {redis : Redis} {tr : List (Cluster.Act × Cluster)} {c : Cluster}
    (S : ServerName) (h : Run (Cluster.Step J) (Cluster.init redis) tr c) :
    Throughout (Cluster.Step J) (Cluster.init redis)
        (fun tr c => ∀ u s, 0 < u → Current S tr u s → (c.ledger S).map u = some s) tr ↔
      Each (Cluster.Step J) (Cluster.init redis) (fun tr _ a => KeepsCurrent S tr (a.own S)) tr := by
  refine Run.throughout_iff_each ?_ ?_ h
  · intro u s _ hcur
    cases hcur.ofUser
  · intro tr c a c' hr hthrough hs
    exact tracks_step_iff (hthrough tr c hr (List.prefix_refl _))
      (ledger_step (Cluster.run_facts hr).1 hs S).mapStep

/-- Two sessions log in as one user, and the older one is closed: the newer one is open and current,
and `UserMgr` has no entry for the user. -/
theorem current_fails : ¬ ∀ (J : JsonCpp) (redis : Redis) (S : ServerName)
    (tr : List (Cluster.Act × Cluster)) (c : Cluster),
    Run (Cluster.Step J) (Cluster.init redis) tr c →
    ∀ u s, 0 < u → Current S tr u s → (c.ledger S).map u = some s := by
  intro h
  let moves := connects 0 ++ logsIn 0 7 ++ connects 1 ++ logsIn 1 7 ++ disconnects 0
  have hcur : Current s1 (runOf moves) 7 1 := by
    refine ⟨?_, ?_, ?_⟩
    · decide +kernel
    · decide +kernel
    · decide +kernel
  have hmap : ((stateAfter moves).ledger s1).map 7 = none := by decide +kernel
  have hseven := h loginTexts startRedis s1 _ _ (runOf_run moves) 7 1 (by decide) hcur
  rw [hmap] at hseven
  cases hseven

/-- One session logs in and is current. -/
theorem current_login : ∃ tr c, Run (Cluster.Step loginTexts) (Cluster.init startRedis) tr c ∧
    (c.ledger s1).map 7 = some 0 ∧
    (Throughout (Cluster.Step loginTexts) (Cluster.init startRedis)
        (fun tr c => ∀ u s, 0 < u → Current s1 tr u s → (c.ledger s1).map u = some s) tr ↔
      Each (Cluster.Step loginTexts) (Cluster.init startRedis)
        (fun tr _ a => KeepsCurrent s1 tr (a.own s1)) tr) := by
  let moves := connects 0 ++ logsIn 0 7
  refine ⟨runOf moves, stateAfter moves, runOf_run moves, ?_, current_iff s1 (runOf_run moves)⟩
  decide +kernel

end ChatServer
