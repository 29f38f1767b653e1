import ChatServer.Secrecy

/-!
# Passwords of others

Two runs of the same servers in which the clients do the same at the same times, on databases and caches that
differ in the password of one user. `passwords_private` says that the sessions that are never bound to the
user cannot tell the two apart, in all runs in which none of them searches for a user and finds the user's
profile in the cache.
-/

namespace ChatServer

open Interaction Transition Prog Handler Bytes Function Fleet

/-! ## Servers in two worlds -/

namespace Variation

variable {J : JsonCpp} (V : Variation J) (T : ServerName → SessId → Prop)

/-- The threads of a server in the two worlds: they work on the same, and what is left to do is alike. -/
structure ThreadsTwins (S : ServerName) (t t' : Threads) : Prop where
  worker : Option.Rel (fun x x' => x'.1 = x.1 ∧
    x.2.Alike (V.Paired T) (V.Told T (Searches T S x.1)) (SameOutcome fun _ _ => True) x'.2)
    t.worker t'.worker
  io : Option.Rel (fun p p' => p.Alike (V.Paired T) (V.Told T False) Eq p') t.io t'.io
  crashed : t'.crashed = t.crashed

/-- The two worlds. Sessions that are not in `T` have received the same messages. -/
structure ServiceTwins (c c' : Service) : Prop where
  fleet : V.FleetTwins T c.fleet c'.fleet
  threads : ∀ S, V.ThreadsTwins T S (c.threads S) (c'.threads S)
  received : ∀ S s, ¬ T S s → c'.received S s = c.received S s

variable {V} {T} {c c' : Service} {S : ServerName}

theorem ServiceTwins.setProc (h : V.ServiceTwins T c c') {p p' : Proc} (hp : ProcTwins (T S) p p') :
    V.ServiceTwins T (c.setProc S p) (c'.setProc S p') :=
  ⟨h.fleet.update S c.fleet.sent c'.fleet.sent h.fleet.redis hp, h.threads, h.received⟩

theorem ServiceTwins.setThreads (h : V.ServiceTwins T c c') {t t' : Threads}
    (ht : V.ThreadsTwins T S t t') : V.ServiceTwins T (c.setThreads S t) (c'.setThreads S t') := by
  refine ⟨h.fleet, ?_, h.received⟩
  intro S'
  by_cases hS : S' = S
  · subst hS
    simpa [Service.setThreads] using ht
  · simpa [Service.setThreads, update_of_ne hS] using h.threads S'

theorem ServiceTwins.setFleet (h : V.ServiceTwins T c c') {f f' : Fleet} (hf : V.FleetTwins T f f') :
    V.ServiceTwins T { c with fleet := f } { c' with fleet := f' } := ⟨hf, h.threads, h.received⟩

/-! ## Calls -/

/-- Calls at the same point are made at the same server and fail alike. -/
theorem Paired.mayFail {o o' : ServerName × Call} (h : V.Paired T o o') (here : Bool) :
    o'.1 = o.1 ∧ o'.2.mayFail here = o.2.mayFail here := by
  cases h with
  | same o => exact ⟨rfl, rfl⟩
  | set _ => exact ⟨rfl, rfl⟩
  | send _ => exact ⟨rfl, rfl⟩

/-- Calls that fail are answered alike. -/
theorem told_noAnswer {quiet : Prop} {o o' : ServerName × Call} (ho : V.Paired T o o')
    (hbind : ∀ uid s, o.2 = .setUserSession uid s → uid = V.user → T o.1 s) :
    V.Told T quiet ⟨o, World.noAnswer o.2⟩ ⟨o', World.noAnswer o'.2⟩ := by
  intro heq
  obtain rfl : o' = o := heq
  exact ⟨answers_noAnswer o' hbind, fun _ _ _ => rfl⟩

/-- **Calls at the same point, in the two worlds.** -/
theorem FleetTwins.paired {f f' : Fleet} (h : V.FleetTwins T f f') {quiet : Prop}
    {o o' : ServerName × Call} (ho : V.Paired T o o')
    (hbind : ∀ uid s, o.2 = .setUserSession uid s → uid = V.user → T o.1 s)
    (hquiet : quiet → ∀ key x u, o.2 = .get key → f.redis.get key = some x →
      cachedProfile J x = .ok u → u.uid ≠ V.user) :
    V.Told T quiet ⟨o, (Fleet.call o f).1⟩ ⟨o', (Fleet.call o' f').1⟩ ∧
      V.FleetTwins T (Fleet.call o f).2 (Fleet.call o' f').2 := by
  cases ho with
  | same o =>
    obtain ⟨hanswers, htwins⟩ := h.call o hbind
    refine ⟨fun _ => ⟨hanswers, ?_⟩, htwins⟩
    intro hq key hkey
    obtain ⟨S, c⟩ := o
    obtain rfl : c = .get key := hkey
    have hfound : V.Found key (f.redis.get key) (f'.redis.get key) := h.redis.get key
    simp only [Fleet.call_get]
    rcases hfound with heq | ⟨-, x, x', hx, hx', u, u', hu, -, -, huser⟩
    · exact heq
    · exact absurd huser (hquiet hq key x u rfl hx hu)
  | set hvalue =>
    refine ⟨?_, h.set _ hvalue⟩
    intro heq
    obtain ⟨-, hcall⟩ := Prod.mk.inj heq
    obtain ⟨-, rfl⟩ := Call.set.inj hcall
    simp only [Fleet.call_set]
    exact ⟨rfl, fun _ _ hkey => (nomatch hkey)⟩
  | send hs =>
    refine ⟨?_, h.send _ fun hT => absurd hs hT⟩
    intro heq
    obtain ⟨-, hcall⟩ := Prod.mk.inj heq
    obtain ⟨-, rfl, -⟩ := Call.send.inj hcall
    exact ⟨rfl, fun _ _ hkey => (nomatch hkey)⟩

/-- A call that a thread makes, or fails to make. -/
theorem ServiceTwins.attempt (h : V.ServiceTwins T c c') {quiet : Prop} (fails : Bool)
    {o o' : ServerName × Call} (ho : V.Paired T o o')
    (hbind : ∀ uid s, o.2 = .setUserSession uid s → uid = V.user → T o.1 s)
    (hquiet : quiet → fails = false → ∀ key x u, o.2 = .get key → c.fleet.redis.get key = some x →
      cachedProfile J x = .ok u → u.uid ≠ V.user) :
    V.Told T quiet ⟨o, (c.attempt S fails o).1⟩ ⟨o', (c'.attempt S fails o').1⟩ ∧
      V.FleetTwins T (c.attempt S fails o).2 (c'.attempt S fails o').2 := by
  obtain ⟨hat, hfail⟩ := ho.mayFail (decide (o.1 = S))
  unfold Service.attempt
  rw [hat, hfail, (h.threads o.1).crashed]
  split
  · exact ⟨told_noAnswer ho hbind, h.fleet⟩
  · rename_i hcalled
    refine h.fleet.paired ho hbind ?_
    intro hq key x u hkey
    refine hquiet hq ?_ key x u hkey
    -- a command that is carried out has not failed
    rcases fails with _ | _
    · rfl
    · exact absurd (by simp [hkey, Call.mayFail]) hcalled

/-- A session that is entered into `UserMgr` is found there afterwards. -/
theorem attempt_setUserSession (c : Service) (S : ServerName) (fails : Bool) {o : ServerName × Call}
    {uid : Int} {s : SessId} (ho : o.2 = .setUserSession uid s) :
    ((c.attempt S fails o).2.proc o.1).uidToSession uid = some s := by
  obtain ⟨S', c'⟩ := o
  obtain rfl : c' = .setUserSession uid s := ho
  have hcall : c.attempt S fails (S', .setUserSession uid s) =
      Fleet.call (S', .setUserSession uid s) c.fleet := by
    unfold Service.attempt
    rw [if_neg (by simp [Call.mayFail])]
  rw [hcall]
  show (update c.fleet.proc S' (World.apply ⟨c.fleet.redis, c.fleet.proc S'⟩
    (.setUserSession uid s)).proc S').uidToSession uid = some s
  simp [World.apply]

/-! ## Turns -/

theorem ThreadsTwins.withWorker {t t' : Threads} (h : V.ThreadsTwins T S t t')
    {x x' : Option (LogicNode × Located (Except Exn Unit))}
    (hx : Option.Rel (fun x x' => x'.1 = x.1 ∧
      x.2.Alike (V.Paired T) (V.Told T (Searches T S x.1)) (SameOutcome fun _ _ => True) x'.2) x x') :
    V.ThreadsTwins T S { t with worker := x } { t' with worker := x' } := ⟨hx, h.io, h.crashed⟩

theorem ThreadsTwins.withIo {t t' : Threads} (h : V.ThreadsTwins T S t t')
    {p p' : Option (Located Unit)}
    (hp : Option.Rel (fun p p' => p.Alike (V.Paired T) (V.Told T False) Eq p') p p') :
    V.ThreadsTwins T S { t with io := p } { t' with io := p' } := ⟨h.worker, hp, h.crashed⟩

/-- A callback begins. -/
theorem ServiceTwins.callback (h : V.ServiceTwins T c c') {p p' : Proc} (hp : ProcTwins (T S) p p')
    {task : Io Unit} (htask : OfSession task) :
    V.ServiceTwins T
      ((c.setProc S p).setThreads S { c.threads S with io := some (locate S task) })
      ((c'.setProc S p').setThreads S { c'.threads S with io := some (locate S task) }) :=
  (h.setProc hp).setThreads ((h.threads S).withIo (.some (V.locate_alike S htask)))

theorem ServiceTwins.accept (h : V.ServiceTwins T c c') (s : SessId) :
    V.ServiceTwins T (c.accept S s) (c'.accept S s) := by
  have hio := (h.threads S).io
  have hp := h.fleet.proc S
  unfold Service.accept
  dsimp only
  generalize (c.threads S).io = io at hio ⊢
  generalize (c'.threads S).io = io' at hio ⊢
  rcases hio with _ | _
  · exact h
  · dsimp only
    rw [hp.known]
    split
    · exact h
    · refine h.callback ?_ (handleAccept_calls s)
      unfold Proc.accept
      refine ⟨by rw [hp.known], hp.sessions, hp.uidToSession, hp.msgQue, ?_, ?_⟩
      · intro t
        by_cases ht : t = s
        · subst ht
          simp [Sess.Agrees]
        · simpa [update_of_ne ht] using hp.agrees t
      · intro t hT
        by_cases ht : t = s
        · subst ht
          simp
        · simpa [update_of_ne ht] using hp.same t hT

theorem ServiceTwins.readSome (h : V.ServiceTwins T c c') (s : SessId) (ec : Bool) (bytes : Bytes) :
    V.ServiceTwins T (c.readSome S s ec bytes) (c'.readSome S s ec bytes) := by
  have hio := (h.threads S).io
  have hp := h.fleet.proc S
  unfold Service.readSome
  dsimp only
  rw [(hp.agrees s).fields.2.2.2.2]
  generalize (c.threads S).io = io at hio ⊢
  generalize (c'.threads S).io = io' at hio ⊢
  rcases hio with _ | _
  · exact h
  · generalize ((c.fleet.proc S).sess s).reads = reads
    rcases reads with _ | ⟨read, reads⟩
    · exact h
    · dsimp only
      split
      · exact h.callback (hp.modify_same s _ fun _ _ _ => rfl)
          (CSession.readCallback_calls S s read ec bytes.length)
      · exact h

/-- Leaving a session as it is. -/
theorem modify_self (p : Proc) (s : SessId) : p.modify s (fun x => x) = p := by
  unfold Proc.modify
  rw [update_eq_self]

/-- What a completed write has done to a session, and what it has written. -/
theorem written_eq (c : Service) (S : ServerName) (s : SessId) (ec : Bool) :
    ∃ (f : Sess → Sess) (received : ServerName → SessId → List SendNode),
      (∀ x, ∃ que writes, f x = { x with sendQue := que, writes := writes }) ∧
      (∀ S' t, ¬ (S' = S ∧ t = s) → received S' t = c.received S' t) ∧
      c.written S s ec =
        { c.setProc S ((c.fleet.proc S).modify s f) with received := received } := by
  have hsame : c = { c.setProc S ((c.fleet.proc S).modify s fun x => x) with
      received := c.received } := by
    rw [modify_self]
    simp [Service.setProc]
  have hid : ∀ x : Sess, ∃ que writes, x = { x with sendQue := que, writes := writes } :=
    fun x => ⟨x.sendQue, x.writes, rfl⟩
  unfold Service.written
  dsimp only
  rcases (c.threads S).io with _ | _
  · rcases ((c.fleet.proc S).sess s).writes with _ | ⟨node, writes⟩
    · exact ⟨fun x => x, c.received, hid, fun _ _ _ => rfl, hsame⟩
    · refine ⟨_, _, fun x => x.handleWrite_eq ec, ?_, rfl⟩
      intro S' t hne
      split
      · rfl
      · by_cases hS : S' = S
        · subst hS
          have ht : t ≠ s := fun ht => hne ⟨rfl, ht⟩
          rw [update_self, update_of_ne ht]
        · rw [update_of_ne hS]
  · exact ⟨fun x => x, c.received, hid, fun _ _ _ => rfl, hsame⟩

/-- A write to a session of `T` may complete in one of the two worlds only. -/
theorem ServiceTwins.written (h : V.ServiceTwins T c c') (s : SessId) (ec : Bool) :
    V.ServiceTwins T (c.written S s ec) (c'.written S s ec) := by
  by_cases hs : T S s
  · obtain ⟨f, received, hf, hreceived, heq⟩ := written_eq c S s ec
    obtain ⟨f', received', hf', hreceived', heq'⟩ := written_eq c' S s ec
    rw [heq, heq']
    have hp : ProcTwins (T S) ((c.fleet.proc S).modify s f) ((c'.fleet.proc S).modify s f') := by
      refine (h.fleet.proc S).modify ?_ fun hT => absurd hs hT
      intro x x' hx
      obtain ⟨que, writes, hx₁⟩ := hf x
      obtain ⟨que', writes', hx₂⟩ := hf' x'
      unfold Sess.Agrees at hx ⊢
      rw [hx₁, hx₂, hx]
    refine ⟨(h.setProc hp).fleet, h.threads, ?_⟩
    intro S' t hT
    have hne : ¬ (S' = S ∧ t = s) := by
      rintro ⟨rfl, rfl⟩
      exact hT hs
    show received' S' t = received S' t
    rw [hreceived S' t hne, hreceived' S' t hne, h.received S' t hT]
  · have hio := (h.threads S).io
    have hp := h.fleet.proc S
    unfold Service.written
    dsimp only
    rw [hp.same s hs]
    generalize (c.threads S).io = io at hio ⊢
    generalize (c'.threads S).io = io' at hio ⊢
    rcases hio with _ | _
    · exact h
    · generalize ((c.fleet.proc S).sess s).writes = writes
      rcases writes with _ | ⟨node, writes⟩
      · exact h
      · have hmodify : ProcTwins (T S)
            ((c.fleet.proc S).modify s fun x => Sess.handleWrite { x with writes := x.writes.tail } ec)
            ((c'.fleet.proc S).modify s fun x =>
              Sess.handleWrite { x with writes := x.writes.tail } ec) := by
          refine hp.modify ?_ fun _ => rfl
          intro x x' hx
          obtain ⟨que, writes, hx₁⟩ := x.handleWrite_eq ec
          obtain ⟨que', writes', hx₂⟩ := x'.handleWrite_eq ec
          unfold Sess.Agrees at hx ⊢
          rw [hx₁, hx₂, hx]
        refine ⟨(h.setProc hmodify).fleet, h.threads, ?_⟩
        intro S' t hT
        dsimp only
        split
        · exact h.received S' t hT
        · by_cases hS : S' = S
          · subst hS
            by_cases ht : t = s
            · subst ht
              simp [h.received S' t hT]
            · simp [update_of_ne ht, h.received S' t hT]
          · simp [update_of_ne hS, h.received S' t hT]

theorem ServiceTwins.runIo (h : V.ServiceTwins T c c') (fails : Bool)
    (hT : ∀ S' s, ((c.runIo S fails).fleet.proc S').uidToSession V.user = some s → T S' s) :
    V.ServiceTwins T (c.runIo S fails) (c'.runIo S fails) := by
  have hio := (h.threads S).io
  unfold Service.runIo at hT ⊢
  generalize (c.threads S).io = io at hT hio ⊢
  generalize (c'.threads S).io = io' at hio ⊢
  rcases hio with @⟨p, p', halike⟩ | _
  · rcases halike.cases with ⟨_, _, rfl, rfl, -⟩ | ⟨o, k, o', k', rfl, rfl, ho, hk⟩
    · exact h.setThreads ((h.threads S).withIo .none)
    · have hquiet : False → fails = false → ∀ key x u, o.2 = .get key →
          c.fleet.redis.get key = some x → cachedProfile J x = .ok u → u.uid ≠ V.user :=
        fun hq => hq.elim
      obtain ⟨htold, hfleet⟩ := h.attempt (S := S) fails ho
        (fun uid s hcall huid => hT o.1 s (huid ▸ attempt_setUserSession c S fails hcall)) hquiet
      exact (h.setFleet hfleet).setThreads ((h.threads S).withIo (.some (hk _ _ htold)))
  · exact h

end Variation

/-- What the worker of the server finds if it looks a user up for a search now: the session that searches,
and the cached profile. -/
def Service.finds (J : JsonCpp) (c : Service) (S : ServerName) : Option (SessId × UserInfo) :=
  match (c.threads S).worker with
  | some (node, .call o _) =>
    match o.2 with
    | .get key =>
      if node.recvNode.msgId = MsgIds.searchUserReq.id then
        (c.fleet.redis.get key).bind fun info_str =>
          (cachedProfile J info_str).toOption.map fun user_info => (node.session, user_info)
      else none
    | _ => none
  | _ => none

/-- If a search finds a cached profile of the user, the session that searches is one of `T`. -/
def Service.Discreet (J : JsonCpp) (user : Int) (T : ServerName → SessId → Prop) (c : Service) :
    ServerName × Turn → Prop
  | (S, .worker false) =>
    (c.threads S).crashed = false → ∀ x ∈ c.finds J S, x.2.uid = user → T S x.1
  | _ => True

instance (J : JsonCpp) (user : Int) (T : ServerName → SessId → Prop) [∀ S s, Decidable (T S s)]
    (c : Service) : ∀ l, Decidable (c.Discreet J user T l)
  | (S, .worker false) => inferInstanceAs
    (Decidable ((c.threads S).crashed = false → ∀ x ∈ c.finds J S, x.2.uid = user → T S x.1))
  | (_, .worker true) | (_, .accept _) | (_, .readSome _ _ _) | (_, .written _ _) | (_, .io _) =>
    isTrue trivial

namespace Variation

variable {J : JsonCpp} {V : Variation J} {T : ServerName → SessId → Prop} {pools : Pools}
  {c c' : Service} {S : ServerName}

theorem ServiceTwins.runWorker (h : V.ServiceTwins T c c') (fails : Bool)
    (hT : ∀ S' s, ((c.runWorker J pools S fails).fleet.proc S').uidToSession V.user = some s → T S' s)
    (hd : fails = false → ∀ x ∈ c.finds J S, x.2.uid = V.user → T S x.1) :
    V.ServiceTwins T (c.runWorker J pools S fails) (c'.runWorker J pools S fails) := by
  have hworker := (h.threads S).worker
  have hp := h.fleet.proc S
  unfold Service.finds at hd
  unfold Service.runWorker at hT ⊢
  dsimp only at hT ⊢
  rw [hp.msgQue]
  generalize (c.threads S).worker = worker at hT hd hworker ⊢
  generalize (c'.threads S).worker = worker' at hworker ⊢
  rcases hworker with @⟨⟨node, p⟩, ⟨node', p'⟩, hnode, halike⟩ | _
  · obtain rfl : node' = node := hnode
    rcases halike.cases with ⟨r, r', hr, hr', hout⟩ | ⟨o, k, o', k', hcall, hcall', ho, hk⟩
    · dsimp only at hr hr'
      subst hr hr'
      rcases r with e | _
      · rcases r' with e' | _
        · exact h.setThreads ⟨.some ⟨rfl, halike⟩, (h.threads S).io, rfl⟩
        · exact hout.elim
      · rcases r' with e' | _
        · exact hout.elim
        · refine ServiceTwins.setThreads (h.setProc ?_) ((h.threads S).withWorker .none)
          exact ⟨hp.known, hp.sessions, hp.uidToSession, rfl, hp.agrees, hp.same⟩
    · dsimp only at hcall hcall'
      subst hcall hcall'
      have hquiet : Searches T S node' → fails = false → ∀ key x u, o.2 = .get key →
          c.fleet.redis.get key = some x → cachedProfile J x = .ok u → u.uid ≠ V.user := by
        intro hq hfails key x u hkey hx hu huser
        refine hq.2 (hd hfails (node'.session, u) ?_ huser)
        dsimp only
        rw [hkey]
        dsimp only
        rw [if_pos hq.1, hx, Option.bind_some, hu]
        rfl
      obtain ⟨htold, hfleet⟩ := h.attempt (S := S) fails ho
        (fun uid s hbind huid => hT o.1 s (huid ▸ attempt_setUserSession c S fails hbind)) hquiet
      exact (h.setFleet hfleet).setThreads ((h.threads S).withWorker (.some ⟨rfl, hk _ _ htold⟩))
  · generalize (c.fleet.proc S).msgQue = msgQue
    rcases msgQue with _ | ⟨node, msgQue⟩
    · exact h
    · refine h.setThreads ((h.threads S).withWorker (.some ⟨rfl, ?_⟩))
      exact V.dispatch_parallel T pools S node

/-- **A turn in the two worlds.** -/
theorem ServiceTwins.turn (h : V.ServiceTwins T c c') (t : Turn)
    (hT : ∀ S' s, ((c.turn J pools S t).fleet.proc S').uidToSession V.user = some s → T S' s)
    (hd : c.Discreet J V.user T (S, t)) :
    V.ServiceTwins T (c.turn J pools S t) (c'.turn J pools S t) := by
  unfold Service.turn at hT ⊢
  rw [(h.threads S).crashed]
  rcases hcrashed : (c.threads S).crashed with _ | _
  · rw [hcrashed] at hT
    rcases t with s | ⟨s, ec, bytes⟩ | ⟨s, ec⟩ | fails | fails
    · exact h.accept s
    · exact h.readSome s ec bytes
    · exact h.written s ec
    · exact h.runIo fails hT
    · refine h.runWorker fails hT ?_
      rintro rfl
      exact hd hcrashed
  · exact h

/-! ## Runs -/

/-- Servers that have just started, in the two worlds. -/
theorem serviceTwins_init {redis redis' : Redis} {db db' : Database} (hredis : V.RedisTwins redis redis')
    (hdb : V.DatabaseTwins db db') :
    V.ServiceTwins T (.init redis db) (.init redis' db') := by
  refine ⟨⟨hredis, hdb, ?_⟩, ?_, fun _ _ _ => rfl⟩
  · intro _
    exact ⟨rfl, rfl, rfl, rfl, fun _ => rfl, fun _ _ => rfl⟩
  · intro _
    exact ⟨.none, .none, rfl⟩

end Variation

/-- In a state of the run, the session is in `UserMgr` for the user. -/
def BoundIn (user : Int) (tr : List ((ServerName × Turn) × Service)) (S : ServerName) (s : SessId) : Prop :=
  ∃ x ∈ tr, (x.2.fleet.proc S).uidToSession user = some s

instance (user : Int) (tr : List ((ServerName × Turn) × Service)) (S : ServerName) (s : SessId) :
    Decidable (BoundIn user tr S s) :=
  inferInstanceAs (Decidable (∃ x ∈ tr, (x.2.fleet.proc S).uidToSession user = some s))

/-- **Passwords of others.** Two runs of the servers in which the same happens at the same times, from
databases and Redis that differ in the password of one user: if no session that is never bound to the user
searches for a user and finds the user's profile in the cache, the sessions that are never bound to the
user receive the same messages in both. -/
theorem passwords_private {J : JsonCpp} {pools : Pools} (V : Variation J) {redis redis' : Redis}
    {db db' : Database} (hredis : V.RedisTwins redis redis') (hdb : V.DatabaseTwins db db')
    {tr tr' : List ((ServerName × Turn) × Service)} {c c' : Service}
    (hrun : Run (Service.Step J pools) (.init redis db) tr c)
    (hrun' : Run (Service.Step J pools) (.init redis' db') tr' c')
    (hlabels : tr'.map Prod.fst = tr.map Prod.fst)
    (hdiscreet : Each (Service.Step J pools) (.init redis db)
      (fun _ c l => c.Discreet J V.user (BoundIn V.user tr) l) tr) :
    ∀ S s, ¬ BoundIn V.user tr S s → c'.received S s = c.received S s := by
  refine Variation.ServiceTwins.received (V := V) (T := BoundIn V.user tr) ?_
  refine Run.side_by_side (Variation.serviceTwins_init hredis hdb) ?_ hrun hrun' hlabels
  intro pre c₁ c₁' l c₂ c₂' hr hp htwins hs hs'
  obtain rfl : c₂ = c₁.turn J pools l.1 l.2 := hs
  obtain rfl : c₂' = c₁'.turn J pools l.1 l.2 := hs'
  refine htwins.turn l.2 ?_ (hdiscreet pre c₁ l _ hr hp)
  intro S s hsession
  exact ⟨_, hp.subset (List.mem_append_right _ (List.mem_singleton_self _)), hsession⟩

/-! ### A search -/

/-- The user 7 with this password, alone. -/
def annWith (pwd : Bytes) : UserTable where
  rows := [{ annRow with pwd := pwd }]
  uids := by simp
  names := by simp
  valid := by
    intro row hrow
    obtain rfl := List.mem_singleton.mp hrow
    obtain ⟨huid, hsex, hname, hnul⟩ := annTable.valid annRow (List.mem_singleton_self annRow)
    exact ⟨huid, hsex, hname, hnul⟩

def profileWith (pwd : Bytes) : Json := Json.null.setProfile { annRow with pwd := pwd }.info

def searchText : Bytes := lit "\x7b\"uid\":7\x7d"

/-- The search for the user 7, and the user's profile with each of two passwords. -/
def profileTexts : JsonCpp :=
  .ofTable ((searchText, .obj [(lit "uid", .int 7)]) :: [lit "p", lit "q"].flatMap fun pwd =>
    [((JsonCpp.ofTable []).toStyledString (profileWith pwd), profileWith pwd),
      ((JsonCpp.ofTable []).fastWrite (profileWith pwd), profileWith pwd)])

def twoPasswords : Variation profileTexts where
  user := 7
  users := annWith (lit "p")
  users' := annWith (lit "q")
  rows := .cons (Or.inr ⟨rfl, rfl⟩) .nil
  readsBack := by
    intro uid user hu
    obtain ⟨row, hrow, -, rfl⟩ := UserTable.exists_row hu
    obtain rfl := List.mem_singleton.mp hrow
    exact ⟨rfl, by decide +kernel, rfl, by decide +kernel⟩
  readsBack' := by
    intro uid user hu
    obtain ⟨row, hrow, -, rfl⟩ := UserTable.exists_row hu
    obtain rfl := List.mem_singleton.mp hrow
    exact ⟨rfl, by decide +kernel, rfl, by decide +kernel⟩

/-- A client connects, searches for the user 7 (message 2003, 9 bytes) and is replied to. -/
def searchTurns : List (ServerName × Turn) :=
  let turns : List Turn := .accept 1 :: List.replicate 4 (.io false) ++
    .readSome 1 false [7, 211, 0, 9] :: List.replicate 5 (.io false) ++
    .readSome 1 false searchText :: List.replicate 7 (.io false) ++
    List.replicate 8 (.worker false) ++ [.written 1 false]
  turns.map fun t => (s1, t)

def databaseWith (pwd : Bytes) : Database := { annDatabase with users := annWith pwd }

theorem databaseWith_twins :
    twoPasswords.DatabaseTwins (databaseWith (lit "p")) (databaseWith (lit "q")) := by
  -- the passwords are not compared
  refine ⟨rfl, rfl, ?_, ?_, ?_, ?_⟩ <;> simp only [databaseWith]

/-- What happens when the client searches, and what the client has received in the end. -/
def searchRun (redis : Redis) (pwd : Bytes) : List ((ServerName × Turn) × Service) :=
  Service.record profileTexts (fun _ _ => none) (.init redis (databaseWith pwd)) searchTurns

def searchReplies (redis : Redis) (pwd : Bytes) : List SendNode :=
  (final (.init redis (databaseWith pwd)) (searchRun redis pwd)).received s1 1

theorem searchRun_run (redis : Redis) (pwd : Bytes) :
    Run (Service.Step profileTexts fun _ _ => none) (.init redis (databaseWith pwd)) (searchRun redis pwd)
      (final (.init redis (databaseWith pwd)) (searchRun redis pwd)) :=
  Service.record_run ..

theorem searchRun_labels (redis redis' : Redis) (pwd pwd' : Bytes) :
    (searchRun redis' pwd').map Prod.fst = (searchRun redis pwd).map Prod.fst :=
  (Service.record_labels ..).trans (Service.record_labels ..).symm

/-- Nobody has looked for the user 7 yet: the reply is the same, whatever the password is. -/
theorem passwords_uncached : searchReplies .empty (lit "p") ≠ [] ∧
    searchReplies .empty (lit "q") = searchReplies .empty (lit "p") := by
  have hrun := searchRun_run .empty (lit "p")
  refine ⟨by decide +kernel, passwords_private twoPasswords ⟨rfl, fun _ => Or.inl rfl⟩ databaseWith_twins
    hrun (searchRun_run .empty (lit "q")) (searchRun_labels ..) ?_ s1 1 (by decide +kernel)⟩
  exact hrun.each_iff_along.mpr (by decide +kernel)

/-- Redis with the cached profile of the user 7. -/
def cachedWith (pwd : Bytes) : Redis :=
  Redis.empty.set (baseKey 7) (profileTexts.toStyledString (profileWith pwd))

theorem cachedWith_twins : twoPasswords.RedisTwins (cachedWith (lit "p")) (cachedWith (lit "q")) := by
  refine Variation.RedisTwins.set ⟨rfl, fun _ => Or.inl rfl⟩ ?_
  have htwins := twoPasswords.twins_of_agrees (List.mem_singleton_self _) (List.mem_singleton_self _)
    (Or.inr ⟨rfl, rfl⟩)
  exact Variation.found_of_twins htwins (Variation.profileKey_base _) profileTexts.toStyledString
    (fun _ _ => cachedProfile_styled twoPasswords.readsBack)
    fun _ _ => cachedProfile_styled twoPasswords.readsBack'

/-- The profile of the user 7 is cached, and is the reply to a client who has not logged in. -/
theorem passwords_cached : ¬ ∀ (J : JsonCpp) (pools : Pools) (V : Variation J) (redis redis' : Redis)
    (db db' : Database) (tr tr' : List ((ServerName × Turn) × Service)) (c c' : Service),
    V.RedisTwins redis redis' → V.DatabaseTwins db db' →
    Run (Service.Step J pools) (.init redis db) tr c →
    Run (Service.Step J pools) (.init redis' db') tr' c' →
    tr'.map Prod.fst = tr.map Prod.fst →
    ∀ S s, ¬ BoundIn V.user tr S s → c'.received S s = c.received S s := by
  intro h
  have hsame : searchReplies (cachedWith (lit "q")) (lit "q") =
      searchReplies (cachedWith (lit "p")) (lit "p") :=
    h profileTexts (fun _ _ => none) twoPasswords _ _ _ _ _ _ _ _ cachedWith_twins databaseWith_twins
      (searchRun_run _ _) (searchRun_run _ _) (searchRun_labels ..) s1 1 (by decide +kernel)
  exact absurd hsame (by decide +kernel)

end ChatServer
