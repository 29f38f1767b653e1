import ChatServer.ReadChain

/-!
# Routes

The routing key of a user names the server on which the user logged in last; nothing ever removes it.
`route_stale` says what a route to a server is worth: the user did log in there, and the entry of the
user is that of the last login or has been removed by a `close` since. A server that is addressed in
vain drops the notification.
-/

namespace ChatServer

open Interaction Transition Prog Handler Function

/-! ## The history of an entry -/

/-- What the step makes of the entry of the user `u` in `UserMgr`. -/
def Label.entry (u : Int) : Option Label → Option (Option SessId)
  | some (.worker ⟨.setUserSession v s, _⟩) => if v = u then some (some s) else none
  | some (.io ⟨.removeUserSession v, _⟩) => if v = u then some none else none
  | _ => none

/-- The values that the entry of `u` on the server `S` was given, the last one first. -/
def entries (S : ServerName) (tr : List (Cluster.Act × Cluster)) (u : Int) : List (Option SessId) :=
  tr.reverse.filterMap fun x => Label.entry u (x.1.own S)

section History

variable {S : ServerName} {tr : List (Cluster.Act × Cluster)} {c : Cluster} {a : Cluster.Act} {u : Int}

theorem entries_snoc : entries S (tr ++ [(a, c)]) u =
    (Label.entry u (a.own S)).toList ++ entries S tr u := by
  unfold entries
  rw [List.reverse_append, List.reverse_singleton, List.singleton_append, List.filterMap_cons]
  cases Label.entry u (a.own S) <;> rfl

/-- The last session that logged in as `u`. -/
def lastLogin (S : ServerName) (tr : List (Cluster.Act × Cluster)) (u : Int) : Option SessId :=
  (entries S tr u).findSome? id

/-- A user who has logged in has logged in. -/
theorem lastLogin_snoc (h : (lastLogin S tr u).isSome = true) :
    (lastLogin S (tr ++ [(a, c)]) u).isSome = true := by
  unfold lastLogin at h ⊢
  rw [entries_snoc, List.findSome?_append]
  cases (Label.entry u (a.own S)).toList.findSome? id with
  | none => exact h
  | some s => rfl

end History

/-! ## Steps -/

namespace Ledger

variable {b b' : Ledger} {S : ServerName} {l : Option Label}
  {tr : List (Cluster.Act × Cluster)} {c : Cluster} {a : Cluster.Act}

/-- The worker has set the route of `u` and registers the session next. -/
def Routing (b : Ledger) (u : Int) : Prop := ∃ s, b.worker = some (s, .routed u)

/-- The entries follow their history, and a route to the server is that of a user who has logged in
there or is about to. -/
structure Routed (b : Ledger) (S : ServerName) (tr : List (Cluster.Act × Cluster)) : Prop where
  map : ∀ u, b.map u = (entries S tr u).head?.join
  route : ∀ u, b.route u = some S.val → (lastLogin S tr u).isSome = true ∨ b.Routing u

theorem entry_eq_none (hreg : Label.registration l = none)
    (hremove : ∀ u r, l ≠ some (.io ⟨.removeUserSession u, r⟩)) (u : Int) : Label.entry u l = none := by
  unfold Label.entry
  split
  · cases hreg
  · exact absurd rfl (hremove _ _)
  · rfl

theorem IoCall.route_eq {lossy : Bool} {s : SessId} {q q' : IoPhase} {e : Event calls}
    (hc : IoCall lossy S s q b e q' b') : b'.route = b.route ∧ b'.worker = b.worker := by
  cases hc <;> exact ⟨rfl, rfl⟩

theorem Routed.map_step (h : b.Routed S tr) (hs : MapStep b b' (a.own S)) (u : Int) :
    b'.map u = (entries S (tr ++ [(a, c)]) u).head?.join := by
  have hmap := h.map u
  rw [entries_snoc]
  generalize a.own S = l at hs
  cases hs with
  | @register v s hv =>
    rw [hv]
    by_cases huv : v = u
    · subst huv
      simp [Label.entry]
    · rw [update_of_ne (Ne.symm huv), hmap]
      simp [Label.entry, huv]
  | @erase v hv =>
    rw [hv]
    by_cases huv : v = u
    · subst huv
      simp [Label.entry]
    · rw [update_of_ne (Ne.symm huv), hmap]
      simp [Label.entry, huv]
  | keep hreg hremove hv =>
    rw [hv, hmap, entry_eq_none hreg hremove]
    rfl

/-- **What a step does to the routes to the server**: a new one is set for the login that the worker
is about to complete. -/
theorem Step.route_cases {lossy : Bool} (hs : Step lossy S b l b') (u : Int)
    (hu : b'.route u = some S.val) :
    b'.Routing u ∨ (b.route u = some S.val ∧ (b.Routing u → b'.Routing u ∨
      ∃ s, Label.entry u l = some (some s))) := by
  cases hs with
  | @worker b' s q q' e hat hc =>
    cases hc with
    | neutral _ => exact Or.inr ⟨hu, fun ⟨t, ht⟩ => Or.inl ⟨t, hat.symm.trans ht⟩⟩
    | @route _ uid =>
      by_cases huv : u = uid
      · exact Or.inl ⟨s, by rw [huv]⟩
      · refine Or.inr ⟨(update_of_ne huv ..).symm.trans hu, ?_⟩
        rintro ⟨t, ht⟩
        cases hat.symm.trans ht
    | @loseRoute _ uid =>
      refine Or.inr ⟨hu, ?_⟩
      rintro ⟨t, ht⟩
      cases hat.symm.trans ht
    | @register _ uid =>
      refine Or.inr ⟨hu, ?_⟩
      rintro ⟨t, ht⟩
      cases hat.symm.trans ht
      exact Or.inr ⟨s, by simp [Label.entry]⟩
    | _ =>
      refine Or.inr ⟨hu, ?_⟩
      rintro ⟨t, ht⟩
      cases hat.symm.trans ht
  | io hat hc =>
    have hsame := hc.route_eq
    exact Or.inr ⟨hsame.1 ▸ hu, fun ⟨t, ht⟩ => Or.inl ⟨t, hsame.2.trans ht⟩⟩
  | take hidle _ =>
    refine Or.inr ⟨hu, ?_⟩
    rintro ⟨t, ht⟩
    cases hidle.symm.trans ht
  | workerDone hat hends =>
    refine Or.inr ⟨hu, ?_⟩
    rintro ⟨t, ht⟩
    cases hat.symm.trans ht
    exact hends.elim
  | others hroute => exact Or.inr ⟨hroute u hu, fun h => Or.inl h⟩
  | _ => exact Or.inr ⟨hu, fun h => Or.inl h⟩

theorem Routed.step {lossy : Bool} (h : b.Routed S tr) (hs : Step lossy S b (a.own S) b') :
    b'.Routed S (tr ++ [(a, c)]) := by
  refine ⟨fun u => h.map_step hs.mapStep u, ?_⟩
  intro u hu
  rcases hs.route_cases u hu with hrouting | ⟨hroute, hkeep⟩
  · exact Or.inr hrouting
  · rcases h.route u hroute with hlast | hrouting
    · exact Or.inl (lastLogin_snoc hlast)
    · rcases hkeep hrouting with hrouting | ⟨s, hs⟩
      · exact Or.inr hrouting
      · refine Or.inl ?_
        unfold lastLogin
        rw [entries_snoc, hs]
        rfl

/-- What follows for a user with a route while no login is under way. -/
theorem Routed.entry (h : b.Routed S tr) (hidle : b.worker = none) {u : Int}
    (hu : b.route u = some S.val) :
    ∃ s, lastLogin S tr u = some s ∧
      (b.map u = some s ∨ (b.map u = none ∧ (entries S tr u).head? = some none)) := by
  have hlast : (lastLogin S tr u).isSome = true := by
    rcases h.route u hu with hlast | ⟨t, ht⟩
    · exact hlast
    · cases hidle.symm.trans ht
  have hmap := h.map u
  obtain ⟨s, hs⟩ := Option.isSome_iff_exists.mp hlast
  refine ⟨s, hs, ?_⟩
  unfold lastLogin at hs
  cases hentries : entries S tr u with
  | nil =>
    rw [hentries] at hs
    cases hs
  | cons x rest =>
    rw [hentries] at hs hmap
    cases x with
    | none => exact Or.inr ⟨hmap, rfl⟩
    | some t =>
      cases hs
      exact Or.inl hmap

end Ledger

/-! ## Peers that ask in vain -/

namespace ChatServiceImpl

/-- The user that a request is for. -/
def Request.touid : Request → Int
  | .addFriend request => request.touid
  | .authFriend request => request.touid
  | .textChatMsg request => request.touid

/-- A request for a user without an entry leaves the server and Redis as they are. -/
theorem exec_serve_absent {J : JsonCpp} {request : Request} {w w' : World} {tr : List (Event calls)}
    (h : Exec (World.sem false) (serve J request) w tr () w')
    (hnone : w.proc.uidToSession request.touid = none) : w' = w := by
  cases request with
  | addFriend request =>
    obtain ⟨_, _, -, hr, h⟩ := exec_call h
    obtain rfl := hr _ rfl
    rw [show w.proc.uidToSession request.touid = none from hnone] at h
    exact (exec_ret h).2
  | authFriend request =>
    obtain ⟨_, _, -, hr, h⟩ := exec_call h
    obtain rfl := hr _ rfl
    rw [show w.proc.uidToSession request.touid = none from hnone] at h
    exact (exec_ret h).2
  | textChatMsg request =>
    obtain ⟨_, _, -, hr, h⟩ := exec_call h
    obtain rfl := hr _ rfl
    rw [show w.proc.uidToSession request.touid = none from hnone] at h
    exact (exec_ret h).2

end ChatServiceImpl

/-- The Redis of the examples has no routes. -/
theorem noRoutes (u : Int) : startRedis.route u ≠ some s1.val := by
  have htoken : ∀ v, ¬ RedisPrefix.userIpPrefix <+: tokenKey v := by
    intro v h
    have hprefix : RedisPrefix.userIpPrefix.isPrefixOf (tokenKey v) = true :=
      List.isPrefixOf_iff_prefix.mpr h
    exact Bool.noConfusion ((show false = _ from rfl).trans hprefix)
  unfold startRedis
  rw [Redis.route_set_of_not_prefix _ _ (htoken 8), Redis.route_set_of_not_prefix _ _ (htoken 7)]
  exact fun h => nomatch h

/-! ## Runs -/

section Runs

variable {J : JsonCpp} {redis : Redis} {tr : List (Cluster.Act × Cluster)} {c : Cluster}

/-- **What a route to a server is worth.** From a start without routes to the server `S`, in every
state in which `S` handles no message: if the routing key of `u` names `S`, then `u` has logged in on
`S`, and `UserMgr` of `S` has the session of the last of these logins for `u`, unless a `close` has
removed that entry since. A request of a peer for a user without an entry changes nothing. -/
theorem route_stale (S : ServerName) (hstart : ∀ u, redis.route u ≠ some S.val)
    (h : Run (Cluster.Step J) (Cluster.init redis) tr c) (hidle : (c.ledger S).worker = none) :
    (∀ u, c.redis.route u = some S.val →
      ∃ s, lastLogin S tr u = some s ∧ ((c.ledger S).map u = some s ∨
        ((c.ledger S).map u = none ∧ (entries S tr u).head? = some none))) ∧
    ∀ (request : ChatServiceImpl.Request) (w' : World) (t : List (Event calls)),
      (c.ledger S).map request.touid = none →
      Exec (World.sem false) (ChatServiceImpl.serve J request) ⟨c.redis, (c.server S).proc⟩ t () w' →
      w' = ⟨c.redis, (c.server S).proc⟩ := by
  constructor
  · have hrouted : (c.ledger S).Routed S tr := by
      refine Run.invariant (P := fun tr c => (c.ledger S).Routed S tr) ?_ ?_ h
      · exact ⟨fun _ => rfl, fun u hu => absurd hu (hstart u)⟩
      · intro tr c a c' hr hrouted hs
        exact hrouted.step (ledger_step (Cluster.run_facts hr).1 hs S)
    exact fun u hu => hrouted.entry hidle hu
  · intro request w' t hnone hexec
    exact ChatServiceImpl.exec_serve_absent hexec hnone

/-- A user logs in and leaves again: the routing key still names the server, which has no entry for
the user. -/
theorem route_fails : ¬ ∀ (J : JsonCpp) (redis : Redis) (tr : List (Cluster.Act × Cluster))
    (c : Cluster) (S : ServerName), (∀ u, redis.route u ≠ some S.val) →
    Run (Cluster.Step J) (Cluster.init redis) tr c →
    (c.ledger S).worker = none → (c.ledger S).io = none →
    ∀ u, c.redis.route u = some S.val →
      ∃ s, (c.ledger S).map u = some s ∧ (c.ledger S).closed s = false := by
  intro h
  let moves := connects 0 ++ logsIn 0 7 ++ disconnects 0
  obtain ⟨hworker, hio, hroute, hmap⟩ : ((stateAfter moves).ledger s1).worker = none ∧
      ((stateAfter moves).ledger s1).io = none ∧
      (stateAfter moves).redis.route 7 = some s1.val ∧
      ((stateAfter moves).ledger s1).map 7 = none := by decide +kernel
  obtain ⟨s, hs, -⟩ := h loginTexts startRedis _ _ s1 noRoutes (runOf_run moves) hworker hio 7 hroute
  cases hmap.symm.trans hs

/-- A user logs in: the routing key names the server. -/
theorem route_login : ∃ tr c, Run (Cluster.Step loginTexts) (Cluster.init startRedis) tr c ∧
    c.redis.route 7 = some s1.val ∧
    ∃ s, lastLogin s1 tr 7 = some s ∧ ((c.ledger s1).map 7 = some s ∨
      ((c.ledger s1).map 7 = none ∧ (entries s1 tr 7).head? = some none)) := by
  let moves := connects 0 ++ logsIn 0 7
  obtain ⟨hworker, hroute⟩ : ((stateAfter moves).ledger s1).worker = none ∧
      (stateAfter moves).redis.route 7 = some s1.val := by decide +kernel
  refine ⟨runOf moves, stateAfter moves, runOf_run moves, hroute, ?_⟩
  exact (route_stale s1 noRoutes (runOf_run moves) hworker).1 7 hroute

end Runs

end ChatServer
