import ChatServer.Cluster

/-!
# Who may be bound

A session is bound to a user only by a login: in every run, by whatever servers and threads, a step
that binds a session or enters it into `UserMgr` is a call of the worker that handles a login message
of that session, and the worker has found the token of the message in Redis and the user in the
database (`binding_authentic`).
-/

namespace ChatServer

open Interaction Transition Prog Handler Bytes Function

/-! ## Calls that bind -/

/-- The session and the user that a call binds to each other. -/
def Call.binds : Call → Option (SessId × Int)
  | .setUserId s u => if u = 0 then none else some (s, u)
  | .setUserSession u s => some (s, u)
  | _ => none

/-- The session is bound to the user, or `UserMgr` has it for the user. -/
def Proc.Bound (p : Proc) (s : SessId) (u : Int) : Prop :=
  (u ≠ 0 ∧ (p.sess s).userUid = u) ∨ p.uidToSession u = some s

theorem Call.neutral.binds {c : Call} (h : c.neutral = true) : c.binds = none := by
  cases c with
  | setUserId _ _ | setUserSession _ _ => cases h
  | _ => rfl

theorem IoPhase.next_binds {self : ServerName} {s : SessId} {q q' : IoPhase} {e : Event calls}
    (h : IoPhase.next self s q e = some q') : e.1.binds = none := by
  obtain ⟨c, r⟩ := e
  cases c with
  | setUserId t u =>
    cases q <;> simp [IoPhase.next, Call.neutral] at h
    obtain ⟨⟨-, rfl⟩, -⟩ := h
    rfl
  | setUserSession u t => cases q <;> simp [IoPhase.next, Call.neutral] at h
  | _ => rfl

section World

variable {w w' : World} {s : SessId} {u : Int}

/-- Changing what else a session has leaves the bindings alone. -/
theorem bound_modify {t : SessId} {f : Sess → Sess} (hf : ∀ x, (f x).userUid = x.userUid)
    (h : (w.modify t f).proc.Bound s u) : w.proc.Bound s u := by
  refine h.imp_left ?_
  rintro ⟨hu, hs⟩
  refine ⟨hu, ?_⟩
  by_cases ht : s = t
  · subst ht
    rwa [World.modify_sess, hf] at hs
  · rwa [World.modify_sess_ne ht] at hs

/-- **What a call does to the bindings.** -/
theorem bound_apply (c : Call) (h : (w.apply c).proc.Bound s u) :
    w.proc.Bound s u ∨ c.binds = some (s, u) := by
  cases c with
  | setUserSession v t =>
    rcases h with h | h
    · exact Or.inl (Or.inl h)
    · by_cases hv : u = v
      · subst hv
        right
        have : some t = some s := by simpa [World.apply] using h
        simp [Call.binds, Option.some.inj this]
      · left
        right
        simpa [World.apply, update_of_ne hv] using h
  | removeUserSession v =>
    left
    refine h.imp_right ?_
    intro h
    by_cases hv : u = v
    · subst hv
      simp [World.apply] at h
    · simpa [World.apply, update_of_ne hv] using h
  | setUserId t v =>
    rcases h with ⟨hu, h⟩ | h
    · by_cases ht : s = t
      · subst ht
        right
        have hv : v = u := by simpa [World.apply] using h
        subst hv
        simp [Call.binds, hu]
      · left
        left
        refine ⟨hu, ?_⟩
        simpa [World.apply, World.modify_sess_ne ht] using h
    · exact Or.inl (Or.inr h)
  | send t msg msgid =>
    refine Or.inl (bound_modify (f := fun x => x.send msg msgid) ?_ h)
    intro x
    obtain ⟨que, writes, hx⟩ := x.send_eq msg msgid
    rw [hx]
  | setBClose t => exact Or.inl (bound_modify (f := fun x => { x with bClose := true }) (by simp) h)
  | socketClose t =>
    exact Or.inl (bound_modify (f := fun x => { x with socketOpen := false }) (by simp) h)
  | clearData t =>
    exact Or.inl (bound_modify (f := fun x => { x with data := List.replicate maxLength 0 })
      (by simp) h)
  | setRecvNode t node =>
    exact Or.inl (bound_modify (f := fun x => { x with recvMsgNode := some node }) (by simp) h)
  | asyncReadSome t p =>
    exact Or.inl (bound_modify (f := fun x => { x with reads := x.reads ++ [p] }) (by simp) h)
  | _ => exact Or.inl h

theorem bound_sem {lossy : Bool} {e : Event calls} (hs : World.sem lossy e w w')
    (h : w'.proc.Bound s u) : w.proc.Bound s u ∨ e.1.binds = some (s, u) := by
  rcases hs with ⟨rfl, -⟩ | ⟨-, -, rfl | rfl⟩
  · exact bound_apply e.1 h
  · exact Or.inl h
  · exact bound_apply e.1 h

/-- A message in the queue was there before, or the call posts it. -/
theorem mem_msgQue_apply (c : Call) {node : LogicNode} (h : node ∈ (w.apply c).proc.msgQue) :
    node ∈ w.proc.msgQue ∨ c = .postMsgToQue node := by
  cases c with
  | postMsgToQue msg =>
    refine (List.mem_append.mp h).imp_right ?_
    intro hmsg
    rw [List.mem_singleton.mp hmsg]
  | _ => exact Or.inl h

theorem mem_msgQue_sem {lossy : Bool} {e : Event calls} {node : LogicNode}
    (hs : World.sem lossy e w w') (h : node ∈ w'.proc.msgQue) :
    node ∈ w.proc.msgQue ∨ e.1 = .postMsgToQue node := by
  rcases hs with ⟨rfl, -⟩ | ⟨-, -, rfl | rfl⟩
  · exact mem_msgQue_apply e.1 h
  · exact Or.inl h
  · exact mem_msgQue_apply e.1 h

/-- A read that finds a text finds what is stored. -/
theorem get_sem {lossy : Bool} {key v : Bytes} (hs : World.sem lossy ⟨.get key, some v⟩ w w') :
    w.redis.get key = some v := by
  rcases hs with ⟨-, hr⟩ | ⟨-, hf, -⟩
  · exact (hr _ rfl).symm
  · cases hf

end World

/-! ## What the worker has found -/

/-- The message is a login request of the user with this token. -/
structure LoginRequest (J : JsonCpp) (node : LogicNode) (uid : Int) (token : Bytes) : Prop where
  msgId : node.recvNode.msgId = MsgIds.chatLogin.id
  uid : (J.parse node.recvNode.text).2.getInt "uid" = .ok uid
  token : (J.parse node.recvNode.text).2.getString J "token" = .ok token

/-- Handling the message, the worker has read the token of the request from Redis, and has found the
user in the database. -/
def Vouched (J : JsonCpp) (node : LogicNode) (past : List (Event calls)) (uid : Int) : Prop :=
  ∃ token user, LoginRequest J node uid token ∧
    (⟨.get (tokenKey uid), some token⟩ : Event calls) ∈ past ∧
    (⟨.getUserInfo uid, some user⟩ : Event calls) ∈ past

/-- A call that binds binds the session of the message to a user that is vouched for. -/
def BindsVouched (J : JsonCpp) (node : LogicNode) (past : List (Event calls)) (c : Call) : Prop :=
  ∀ s u, c.binds = some (s, u) → s = node.session ∧ Vouched J node past u

section Handlers

variable {J : JsonCpp} {node : LogicNode} {past : List (Event calls)} {uid : Int}

theorem Vouched.mono {past' : List (Event calls)} (h : Vouched J node past uid) (hs : past ⊆ past') :
    Vouched J node past' uid := by
  obtain ⟨token, user, hreq, htoken, huser⟩ := h
  exact ⟨token, user, hreq, hs htoken, hs huser⟩

theorem bindsVouched_of_none {c : Call} (h : c.binds = none) (past : List (Event calls)) :
    BindsVouched J node past c := by
  intro s u hb
  rw [h] at hb
  cases hb

theorem bindsVouched_of_neutral (past : List (Event calls)) {c : Call} (h : c.neutral = true) :
    BindsVouched J node past c :=
  bindsVouched_of_none (Call.neutral.binds h) past

/-- The condition of this file, with nothing assumed about the answers. -/
abbrev Heedful {α : Type} (J : JsonCpp) (node : LogicNode) (p : Io α)
    (post : α → List (Event calls) → Prop) (past : List (Event calls)) : Prop :=
  p.Heeds (fun _ => True) (BindsVouched J node) post past

theorem Neutral.heedful {α : Type} {p : Io α} (h : Neutral p) (past : List (Event calls)) :
    Heedful J node p (fun _ past' => past <+: past') past :=
  h.heeds (fun past _ => bindsVouched_of_neutral past) past

namespace LogicSystem

variable {self : ServerName}

/-- A profile that `getBaseInfo` returns was found in the database. -/
theorem getBaseInfo_found (uid_str : Bytes) (uid : Int) (past : List (Event calls)) :
    Heedful J node (getBaseInfo J (RedisPrefix.userBaseInfo ++ uid_str) uid).run
      (fun r past' => past ⊆ past' ∧ ∀ user, r = .ok (some user) →
        ∃ db_user, (⟨.getUserInfo uid, some db_user⟩ : Event calls) ∈ past') past := by
  refine heeds_ask (bindsVouched_of_none rfl past) ?_
  intro db_user _
  rcases db_user with _ | db_user
  · refine ⟨by simp, ?_⟩
    rintro user ⟨⟩
  · have hcache : Neutral (cacheProfile (RedisPrefix.userBaseInfo ++ uid_str)
        (if db_user.nick = [] then { db_user with nick := db_user.name } else db_user).name
        (J.fastWrite (Json.null.setProfile
          (if db_user.nick = [] then { db_user with nick := db_user.name } else db_user)))).run :=
      (cacheProfile_calls _ _ _).mono fun _ => CacheCall.neutral
    refine heeds_bind (hcache.heedful _) ?_ ?_
    · intro _ past' hpast
      have hsub := hpast.subset
      refine ⟨fun e he => hsub (List.mem_append_left _ he), ?_⟩
      intro user _
      exact ⟨db_user, hsub (by simp)⟩
    · intro e past' hpast
      refine ⟨fun e he => hpast.subset (List.mem_append_left _ he), ?_⟩
      rintro user ⟨⟩

theorem bindUser_heedful (h : Vouched J node past uid) :
    Heedful J node (bindUser self node.session uid).run (fun _ _ => True) past := by
  have hbinds : ∀ (past' : List (Event calls)) (c : Call), past ⊆ past' →
      (∀ s u, c.binds = some (s, u) → s = node.session ∧ u = uid) → BindsVouched J node past' c := by
    intro past' c hsub hc s u hb
    obtain ⟨rfl, rfl⟩ := hc s u hb
    exact ⟨rfl, h.mono hsub⟩
  refine heeds_ask (bindsVouched_of_none rfl _) ?_
  intro rd_res _
  refine heeds_lift ?_ (fun _ _ => trivial)
  intro count _
  refine heeds_ask (bindsVouched_of_none rfl _) ?_
  intro _ _
  refine heeds_ask (hbinds _ _ (by simp) ?_) ?_
  · intro s u hb
    obtain ⟨-, ⟨rfl, rfl⟩⟩ : ¬ uid = 0 ∧ node.session = s ∧ uid = u := by
      simpa [Call.binds] using hb
    exact ⟨rfl, rfl⟩
  intro _ _
  refine heeds_ask (bindsVouched_of_none rfl _) ?_
  intro _ _
  refine heeds_ask_last (c := .setUserSession uid node.session) ?_ (fun _ _ => trivial)
  refine hbinds _ _ (by simp) ?_
  intro s u hb
  obtain ⟨rfl, rfl⟩ : node.session = s ∧ uid = u := by simpa [Call.binds] using hb
  exact ⟨rfl, rfl⟩

theorem login_heedful {token : Bytes} (hreq : LoginRequest J node uid token) :
    Heedful J node (login J self node.session uid token).run (fun _ _ => True) past := by
  refine heeds_ask (bindsVouched_of_none rfl _) ?_
  intro token_value _
  rcases token_value with _ | token_value
  · trivial
  · dsimp only
    split
    · trivial
    · rename_i heq
      obtain rfl : token_value = token := by simpa using heq
      refine heeds_bind (getBaseInfo_found _ uid _) ?_ (fun _ _ _ => trivial)
      rintro user_info past' ⟨hsub, hfound⟩
      rcases user_info with _ | user_info
      · trivial
      · obtain ⟨db_user, hdb⟩ := hfound user_info rfl
        have htoken : (⟨.get (tokenKey uid), some token_value⟩ : Event calls) ∈ past' :=
          hsub (by simp)
        refine heeds_ask (bindsVouched_of_none rfl _) ?_
        intro apply _
        refine heeds_ask (bindsVouched_of_none rfl _) ?_
        intro friends _
        refine heeds_bind (bindUser_heedful ?_) (fun _ _ _ => trivial) (fun _ _ _ => trivial)
        exact ⟨token_value, db_user, hreq, by simp [htoken], by simp [hdb]⟩

/-- **The worker binds only whom it has found**, whatever message it handles. -/
theorem dispatch_heedful (J : JsonCpp) (self : ServerName) (node : LogicNode) :
    Heedful J node (dispatch J self node).run (fun _ _ => True) [] := by
  by_cases hid : node.recvNode.msgId = MsgIds.chatLogin.id
  · rw [dispatch_login J self hid]
    refine heeds_lift ?_ (fun _ _ => trivial)
    intro uid huid
    refine heeds_lift ?_ (fun _ _ => trivial)
    intro token htoken
    refine heeds_bind (login_heedful ⟨hid, huid, htoken⟩) ?_ (fun _ _ _ => trivial)
    intro v past _
    exact ⟨bindsVouched_of_none rfl _, fun _ _ => trivial⟩
  · exact ((dispatch_neutral J self hid).heedful []).mono fun _ _ _ => trivial

end LogicSystem

end Handlers

/-! ## One step -/

section Steps

variable {J : JsonCpp} {self : ServerName} {r r' : Redis} {v v' : Server} {l : Label}

/-- The worker's task has made its calls with the condition kept, and the rest of it keeps it. -/
def Server.Heedful (J : JsonCpp) (v : Server) : Prop :=
  ∀ t ∈ v.worker, ChatServer.Heedful J t.node t.rest (fun _ _ => True) t.past

theorem Server.Heedful.step (h : v.Heedful J) (hs : Server.Step J self (r, v) l (r', v')) :
    v'.Heedful J := by
  cases hs with
  | take _ _ =>
    rintro _ ⟨⟩
    exact LogicSystem.dispatch_heedful J self _
  | worker ht hp _ =>
    rintro _ ⟨⟩
    exact ((h _ ht).step hp).2 trivial
  | workerDone _ _ => exact fun _ h => nomatch h
  | _ => exact h

theorem bound_accept {p : Proc} {s t : SessId} {u : Int} (h : (p.accept t).Bound s u) :
    p.Bound s u := by
  refine h.imp_left ?_
  rintro ⟨hu, hs⟩
  refine ⟨hu, ?_⟩
  by_cases ht : s = t
  · subst ht
    simp [Proc.accept] at hs
    exact absurd hs.symm hu
  · simpa [Proc.accept, update_of_ne ht] using hs

/-- **Only a call of the worker binds.** -/
theorem Server.Step.bound (hf : v.Formed self) (hs : Server.Step J self (r, v) l (r', v')) {s : SessId}
    {u : Int} (h : v'.proc.Bound s u) :
    v.proc.Bound s u ∨ ∃ e, l = .worker e ∧ e.1.binds = some (s, u) := by
  cases hs with
  | accept _ _ => exact Or.inl (bound_accept h)
  | @readSome _ _ t p ec bytes _ _ _ =>
    exact Or.inl (bound_modify (w := ⟨r, v.proc⟩) (f := fun x => x.deliver p bytes) (fun _ => rfl) h)
  | @written _ _ t ec _ _ =>
    refine Or.inl (bound_modify (w := ⟨r, v.proc⟩)
      (f := fun x => Sess.handleWrite { x with writes := x.writes.tail } ec) ?_ h)
    intro x
    obtain ⟨que, writes, hx⟩ := x.handleWrite_eq ec
    rw [hx]
  | io ht hp hsem =>
    refine Or.inl ((bound_sem hsem h).resolve_right ?_)
    obtain ⟨q, hnext, -⟩ := (hf.io _ ht).step hp
    rw [IoPhase.next_binds hnext]
    nofun
  | @rpc _ _ pre post p q e w hmem hp hsem =>
    refine Or.inl ((bound_sem hsem h).resolve_right ?_)
    have hneutral := hf.rpcs p (by simp [hmem])
    rw [Call.neutral.binds (hneutral.step hp).1]
    nofun
  | @worker _ _ t e q w ht hp hsem =>
    exact (bound_sem hsem h).imp_right fun hb => ⟨e, rfl, hb⟩
  | _ => exact Or.inl h

/-- A message in the queue was there before, or a handler of its session posts it. -/
theorem Server.Step.mem_msgQue (hf : v.Formed self) (hs : Server.Step J self (r, v) l (r', v'))
    {node : LogicNode} (h : node ∈ v'.proc.msgQue) :
    node ∈ v.proc.msgQue ∨
      ∃ t a, v.io = some t ∧ t.session = node.session ∧ l = .io ⟨.postMsgToQue node, a⟩ := by
  cases hs with
  | @io _ _ t e q w ht hp hsem =>
    refine (mem_msgQue_sem hsem h).imp_right ?_
    intro he
    obtain ⟨c, a⟩ := e
    obtain rfl : c = .postMsgToQue node := he
    obtain ⟨q, hnext, -⟩ := (hf.io _ ht).step hp
    refine ⟨t, a, ht, ?_, rfl⟩
    generalize IoPhase.after self t.session t.handler t.past = phase at hnext
    cases phase <;> simp [IoPhase.next, Call.neutral] at hnext
    rename_i handler
    cases handler <;> simp at hnext
    exact hnext.1.symm
  | @worker _ _ t e q w ht hp hsem =>
    refine Or.inl ((mem_msgQue_sem hsem h).resolve_right ?_)
    intro he
    obtain ⟨c, a⟩ := e
    obtain rfl : c = .postMsgToQue node := he
    obtain ⟨q, hnext, -⟩ := (hf.worker _ ht).step hp
    generalize WorkerPhase.after self t.node.session t.past = phase at hnext
    cases phase <;> simp [WorkerPhase.next, Call.neutral] at hnext
  | @rpc _ _ pre post p q e w hmem hp hsem =>
    refine Or.inl ((mem_msgQue_sem hsem h).resolve_right ?_)
    intro he
    have hneutral := hf.rpcs p (by simp [hmem])
    have hc := (hneutral.step hp).1
    rw [he] at hc
    cases hc
  | workerDone _ _ => exact Or.inl (List.mem_of_mem_tail h)
  | _ => exact Or.inl h

/-- The worker's task is the one it had, or it has just taken a message, or it has made one more
call. -/
theorem Server.Step.worker_cases (hs : Server.Step J self (r, v) l (r', v')) {t' : WorkerTask}
    (ht' : t' ∈ v'.worker) :
    t' ∈ v.worker ∨ (t'.node ∈ v.proc.msgQue ∧ t'.past = []) ∨
      ∃ t e, t ∈ v.worker ∧ l = .worker e ∧ t'.node = t.node ∧ t'.past = t.past ++ [e] := by
  cases hs with
  | take hidle hque =>
    obtain rfl := Option.mem_some.mp ht'
    exact Or.inr (Or.inl ⟨by simp [hque], rfl⟩)
  | @worker _ _ t e q w ht hstep hsem =>
    obtain rfl := Option.mem_some.mp ht'
    exact Or.inr (Or.inr ⟨t, e, ht, rfl, rfl, rfl⟩)
  | workerDone _ _ => cases ht'
  | _ => exact Or.inl ht'

end Steps

/-! ## Runs -/

section Runs

variable {J : JsonCpp} {redis : Redis} {S : ServerName} {tr pre : List (Cluster.Act × Cluster)}
  {c c' : Cluster} {a : Cluster.Act} {node : LogicNode}

/-- A handler of the session of the message has posted the message. -/
def Delivered (J : JsonCpp) (redis : Redis) (S : ServerName) (tr : List (Cluster.Act × Cluster))
    (node : LogicNode) : Prop :=
  ∃ pre c c' t r, Run (Cluster.Step J) (.init redis) pre c ∧
    pre ++ [(some (S, .io ⟨.postMsgToQue node, r⟩), c')] <+: tr ∧
    (c.server S).io = some t ∧ t.session = node.session

/-- Handling the message, the worker has made the call `e` with the answer in it. -/
def Called (J : JsonCpp) (redis : Redis) (S : ServerName) (tr : List (Cluster.Act × Cluster))
    (node : LogicNode) (e : Event calls) : Prop :=
  ∃ pre c c' t, Run (Cluster.Step J) (.init redis) pre c ∧
    pre ++ [(some (S, .worker e), c')] <+: tr ∧ Cluster.Step J c (some (S, .worker e)) c' ∧
    (c.server S).worker = some t ∧ t.node = node

theorem Delivered.mono (h : Delivered J redis S pre node) (hp : pre <+: tr) :
    Delivered J redis S tr node := by
  obtain ⟨early, c, c', t, r, hr, hpre, ht⟩ := h
  exact ⟨early, c, c', t, r, hr, hpre.trans hp, ht⟩

theorem Called.mono {e : Event calls} (h : Called J redis S pre node e) (hp : pre <+: tr) :
    Called J redis S tr node e := by
  obtain ⟨early, c, c', t, hr, hpre, ht⟩ := h
  exact ⟨early, c, c', t, hr, hpre.trans hp, ht⟩

/-- What the queue and the worker of a server go back to. -/
structure Traced (J : JsonCpp) (redis : Redis) (S : ServerName) (tr : List (Cluster.Act × Cluster))
    (v : Server) : Prop where
  formed : v.Formed S
  heedful : v.Heedful J
  queue : ∀ node ∈ v.proc.msgQue, Delivered J redis S tr node
  worker : ∀ t ∈ v.worker, Delivered J redis S tr t.node ∧
    ∀ e ∈ t.past, Called J redis S tr t.node e

/-- A step that is not the server's own. -/
theorem Traced.mono {v : Server} (h : Traced J redis S pre v) (hp : pre <+: tr) :
    Traced J redis S tr v := by
  refine ⟨h.formed, h.heedful, fun node hnode => (h.queue node hnode).mono hp, ?_⟩
  intro t ht
  obtain ⟨hdel, hcall⟩ := h.worker t ht
  exact ⟨hdel.mono hp, fun e he => (hcall e he).mono hp⟩

theorem Traced.step (h : Traced J redis S tr (c.server S))
    (hr : Run (Cluster.Step J) (.init redis) tr c) (hs : Cluster.Step J c a c') :
    Traced J redis S (tr ++ [(a, c')]) (c'.server S) := by
  have hp : tr <+: tr ++ [(a, c')] := List.prefix_append _ _
  rcases hs.server_cases S with heq | ⟨l, rfl, hv⟩
  · rw [heq]
    exact h.mono hp
  · have hmono := h.mono hp
    have hqueue : ∀ node ∈ (c'.server S).proc.msgQue,
        Delivered J redis S (tr ++ [(some (S, l), c')]) node := by
      intro node hnode
      rcases hv.mem_msgQue h.formed hnode with hold | ⟨t, r, ht, hsess, rfl⟩
      · exact hmono.queue node hold
      · exact ⟨tr, c, c', t, r, hr, List.prefix_refl _, ht, hsess⟩
    refine ⟨h.formed.step hv, h.heedful.step hv, hqueue, ?_⟩
    intro t' ht'
    rcases hv.worker_cases ht' with hsame | ⟨hmem, hpast⟩ | ⟨t, e, ht, rfl, hnode, hpast⟩
    · exact hmono.worker t' hsame
    · rw [hpast]
      exact ⟨hmono.queue _ hmem, fun e he => nomatch he⟩
    · obtain ⟨hdel, hcall⟩ := hmono.worker t ht
      rw [hnode, hpast]
      refine ⟨hdel, ?_⟩
      intro e' he'
      rcases List.mem_append.mp he' with hold | hnew
      · exact hcall e' hold
      · obtain rfl := List.mem_singleton.mp hnew
        exact ⟨tr, c, c', t, hr, List.prefix_refl _, hs, ht, rfl⟩

theorem Traced.of_run (h : Run (Cluster.Step J) (.init redis) tr c) (S : ServerName) :
    Traced J redis S tr (c.server S) := by
  refine Run.invariant (P := fun tr c => Traced J redis S tr (c.server S)) ?_ ?_ h
  · exact ⟨Server.formed_init S, fun _ h => (nomatch h), fun _ h => (nomatch h), fun _ h => (nomatch h)⟩
  · intro tr c a c' hr hi hs
    exact hi.step hr hs

/-- After these steps, the worker of `S` handles a login message with the uid `u` that the session `s`
has delivered; in handling it, the worker has read the token of the message from Redis, which was what
`stored` found there, and has found the user `u` in the database. -/
def AuthenticLogin (J : JsonCpp) (redis : Redis) (stored : Redis → Bytes → Option Bytes) (S : ServerName)
    (tr : List (Cluster.Act × Cluster)) (c : Cluster) (s : SessId) (u : Int) : Prop :=
  ∃ t token user, (c.server S).worker = some t ∧ t.node.session = s ∧
    LoginRequest J t.node u token ∧ Delivered J redis S tr t.node ∧
    (∃ pre c₁ c₂ t₁, Run (Cluster.Step J) (.init redis) pre c₁ ∧
      pre ++ [(some (S, .worker ⟨.get (tokenKey u), some token⟩), c₂)] <+: tr ∧
      (c₁.server S).worker = some t₁ ∧ t₁.node = t.node ∧ stored c₁.redis (tokenKey u) = some token) ∧
    (⟨.getUserInfo u, some user⟩ : Event calls) ∈ t.past

/-- What a step that binds a session to a user goes back to. -/
theorem Traced.authenticLogin {e : Event calls} {s : SessId} {u : Int} (h : Traced J redis S tr (c.server S))
    (hs : Cluster.Step J c (some (S, .worker e)) c') (hb : e.1.binds = some (s, u)) :
    AuthenticLogin J redis Redis.get S tr c s u := by
  cases hs with
  | server hlive hs =>
    cases hs with
    | @worker _ _ t _ q w ht hstep hsem =>
      obtain ⟨rfl, token, user, hreq, htoken, huser⟩ := ((h.heedful t ht).step hstep).1 s u hb
      obtain ⟨hdel, hcall⟩ := h.worker t ht
      obtain ⟨pre, c₁, c₂, t₁, hr, hpre, hget, ht₁, hnode⟩ := hcall _ htoken
      refine ⟨t, token, user, ht, rfl, hreq, hdel, ⟨pre, c₁, c₂, t₁, hr, hpre, ht₁, hnode, ?_⟩, huser⟩
      cases hget with
      | server _ hget =>
        cases hget with
        | worker _ _ hsem => exact get_sem hsem

/-- **Every binding comes from a login.** In every run, a step that binds the session `s` to the user
`u` on the server `S`, or enters it into `UserMgr`, is a call of the worker of `S` in handling a login
message of `s` that names `u` and carries the token that `RedisMgr::get` has found for `u`, after `u`
was found in the database (`AuthenticLogin`); and every binding that exists comes from such a step. -/
theorem binding_authentic (h : Run (Cluster.Step J) (.init redis) tr c) :
    (∀ pre c₁ a c₂, Run (Cluster.Step J) (.init redis) pre c₁ → pre ++ [(a, c₂)] <+: tr →
      ∀ S s u, (c₂.server S).proc.Bound s u → (c₁.server S).proc.Bound s u ∨
        ∃ e, a = some (S, .worker e) ∧ e.1.binds = some (s, u) ∧
          AuthenticLogin J redis Redis.get S pre c₁ s u) ∧
    ∀ S s u, (c.server S).proc.Bound s u →
      ∃ pre c₁ e c₂, Run (Cluster.Step J) (.init redis) pre c₁ ∧
        pre ++ [(some (S, .worker e), c₂)] <+: tr ∧ e.1.binds = some (s, u) ∧
        AuthenticLogin J redis Redis.get S pre c₁ s u := by
  have hstep : ∀ pre c₁ a c₂, Run (Cluster.Step J) (.init redis) pre c₁ → Cluster.Step J c₁ a c₂ →
      ∀ S s u, (c₂.server S).proc.Bound s u → (c₁.server S).proc.Bound s u ∨
        ∃ e, a = some (S, .worker e) ∧ e.1.binds = some (s, u) ∧
          AuthenticLogin J redis Redis.get S pre c₁ s u := by
    intro pre c₁ a c₂ hr hs S s u hb
    have htraced := Traced.of_run hr S
    rcases hs.server_cases S with heq | ⟨l, rfl, hv⟩
    · rw [heq] at hb
      exact Or.inl hb
    · refine (hv.bound htraced.formed hb).imp_right ?_
      rintro ⟨e, rfl, he⟩
      exact ⟨e, rfl, he, htraced.authenticLogin hs he⟩
  constructor
  · intro pre c₁ a c₂ hr hp
    obtain ⟨t, ht⟩ := h.of_prefix hp
    obtain ⟨rfl, c', hr', hs⟩ := ht.snoc_inv
    rw [hr.unique hr']
    exact hstep pre c' a t hr' hs
  · induction h with
    | nil =>
      rintro S s u (⟨hu, hs⟩ | hmap)
      · exact absurd hs.symm hu
      · cases hmap
    | @snoc tr c₁ c₂ a hr hs ih =>
      intro S s u hb
      have hp : tr <+: tr ++ [(a, c₂)] := List.prefix_append _ _
      rcases hstep tr c₁ a c₂ hr hs S s u hb with hold | ⟨e, rfl, he, hlogs⟩
      · obtain ⟨pre, c₀, e, c₀', hr₀, hpre, he, hlogs⟩ := ih S s u hold
        exact ⟨pre, c₀, e, c₀', hr₀, hpre.trans hp, he, hlogs⟩
      · exact ⟨tr, c₁, e, c₂, hr, List.prefix_refl _, he, hlogs⟩

/-- The user 7 logs in. -/
theorem binding_login : ∃ tr c, Run (Cluster.Step loginTexts) (.init startRedis) tr c ∧
    (c.server s1).proc.Bound 0 7 ∧
    ∃ pre c₁ e c₂, Run (Cluster.Step loginTexts) (.init startRedis) pre c₁ ∧
      pre ++ [(some (s1, .worker e), c₂)] <+: tr ∧ e.1.binds = some (0, 7) ∧
      AuthenticLogin loginTexts startRedis Redis.get s1 pre c₁ 0 7 := by
  let moves := connects 0 ++ logsIn 0 7
  have hbound : ((stateAfter moves).server s1).proc.Bound 0 7 := by
    right
    decide +kernel
  exact ⟨runOf moves, stateAfter moves, runOf_run moves, hbound,
    (binding_authentic (runOf_run moves)).2 s1 0 7 hbound⟩

/-- The tokens of the login requests have no NUL. -/
theorem loginTexts_token {text token : Bytes}
    (h : (loginTexts.parse text).2.getString loginTexts "token" = .ok token) :
    (0 : UInt8) ∉ token := by
  have hvalue : ∀ v, loginTexts.parse text = v → v.2.getString loginTexts "token" = .ok token →
      (0 : UInt8) ∉ token := by
    rintro v hv htoken
    unfold loginTexts JsonCpp.ofTable at hv
    simp only [List.map, List.lookup_cons, List.lookup_nil] at hv
    split at hv
    · rename_i hlookup
      split at hlookup
      · cases hlookup
        subst hv
        cases htoken
        decide
      · split at hlookup
        · cases hlookup
          subst hv
          cases htoken
          decide
        · cases hlookup
    · subst hv
      cases htoken
      decide
  exact hvalue _ rfl h

/-- A Redis in which the token of the user 7 goes on after a NUL. -/
def nulRedis : Redis :=
  { startRedis with str := update startRedis.str (tokenKey 7) (some [116, 0, 120]) }

/-- The user 7 logs in with a token that is the stored one only up to its first NUL. -/
theorem binding_fails : ¬ ∀ (J : JsonCpp) (redis : Redis) (tr : List (Cluster.Act × Cluster))
    (c : Cluster), Run (Cluster.Step J) (.init redis) tr c →
    ∀ S s u, (c.server S).proc.Bound s u →
      ∃ pre c₁ e c₂, Run (Cluster.Step J) (.init redis) pre c₁ ∧
        pre ++ [(some (S, .worker e), c₂)] <+: tr ∧ e.1.binds = some (s, u) ∧
        AuthenticLogin J redis Redis.str S pre c₁ s u := by
  intro h
  let moves := (connects 0 ++ logsIn 0 7).map fun m => (s1, m)
  let tr := Cluster.schedule loginTexts knowsUsers (.init nulRedis) moves
  have hrun : Run (Cluster.Step loginTexts) (.init nulRedis) tr (final (.init nulRedis) tr) :=
    Cluster.schedule_run ..
  have hbound : ((final (.init nulRedis) tr).server s1).proc.Bound 0 7 := by
    right
    decide +kernel
  have hstored : Each (Cluster.Step loginTexts) (.init nulRedis)
      (fun _ c _ => c.redis.str (tokenKey 7) = some [116, 0, 120]) tr :=
    hrun.each_iff_along.mpr (by decide +kernel)
  obtain ⟨pre, c₁, e, c₂, -, hpre, -, t, token, user, -, -, hreq, -, ⟨early, c₀, c₀', t₁, hr₀, hp₀, -, -,
    htoken⟩, -⟩ := h _ _ _ _ hrun s1 0 7 hbound
  have hsame := hstored early c₀ _ _ hr₀ (hp₀.trans ((List.prefix_append _ _).trans hpre))
  obtain rfl : token = [116, 0, 120] := Option.some.inj (htoken.symm.trans hsame)
  exact absurd (by decide) (loginTexts_token hreq.token)

end Runs

end ChatServer
