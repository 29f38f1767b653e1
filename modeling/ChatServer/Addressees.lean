import ChatServer.Authentic
import ChatServer.Coherence
import ChatServer.Streams
import ChatServer.Location
import ChatServer.Route

/-!
# Who is sent what

What a server sends goes to the session whose request is handled, as the reply to it, or is a notification
for the user that the request names, and then it goes to a session that `UserMgr` has for this user. With
`Authentic`, a session only gets replies to what it has sent itself and notifications for users who have
logged in on it (`sends_addressed`). A notification that a peer brings goes back to a request that a client
has sent to the peer (`notices_stem`).
-/

namespace ChatServer

open Interaction Transition Prog Handler Bytes LogicSystem

/-! ## What a request allows to send -/

/-- The user that the request names for a notification, and the id of the notification. -/
def addressee (J : JsonCpp) (node : RecvNode) : Option (Except Exn Int × Int) :=
  let root := (J.parse node.text).2
  if node.msgId = MsgIds.addFriendReq.id then
    some (root.getInt "touid", MsgIds.notifyAddFriendReq.id)
  else if node.msgId = MsgIds.authFriendReq.id then
    some (root.getInt "fromuid", MsgIds.notifyAuthFriendReq.id)
  else if node.msgId = MsgIds.textChatMsgReq.id then
    -- the recipient is sent a copy of the reply, under the id of the reply
    some (root.getInt "touid", MsgIds.textChatMsgRsp.id)
  else none

namespace ChatServiceImpl

deriving instance DecidableEq for Request

/-- The id of the notification. -/
def Request.notice : Request → Int
  | .addFriend _ => MsgIds.notifyAddFriendReq.id
  | .authFriend _ => MsgIds.notifyAuthFriendReq.id
  | .textChatMsg _ => MsgIds.notifyTextChatMsgReq.id

/-- What the notification says; `info` is what `NotifyAuthFriend` adds to its request. -/
def Request.notification (info : Option (UserInfo × Bytes)) : Request → Json
  | .addFriend request => addFriendNotify request
  | .authFriend request => authFriendNotify request info
  | .textChatMsg request => textChatNotify request

/-- The request is what a client's message asks for. -/
def Request.Stems (J : JsonCpp) (node : RecvNode) : Request → Prop
  | .addFriend request => node.msgId = MsgIds.addFriendReq.id ∧
      (J.parse node.text).2.getInt "uid" = .ok request.applyuid ∧
      (J.parse node.text).2.getString J "apply_name" = .ok request.name ∧
      (J.parse node.text).2.getString J "alias_name" = .ok request.aliasName ∧
      (J.parse node.text).2.getInt "touid" = .ok request.touid
  | .authFriend request => node.msgId = MsgIds.authFriendReq.id ∧
      (J.parse node.text).2.getInt "touid" = .ok request.fromuid ∧
      (J.parse node.text).2.getInt "fromuid" = .ok request.touid
  | .textChatMsg request => node.msgId = MsgIds.textChatMsgReq.id ∧
      (J.parse node.text).2.getInt "fromuid" = .ok request.fromuid ∧
      (J.parse node.text).2.getInt "touid" = .ok request.touid ∧
      ∃ text_array, (J.parse node.text).2.member "text_array" = .ok text_array ∧
        textChatDatas J text_array = .ok request.textmsgs

/-- A message that the call sends is the notification of the request, and goes to the session that
`UserMgr` was found to have for the user. -/
def Addressed (J : JsonCpp) (request : Request) (past : List (Event calls)) (c : Call) : Prop :=
  ∀ s msg id, c = .send s msg id → id = request.notice ∧
    (∃ info, msg = J.toStyledString (request.notification info)) ∧
    (⟨.getSession request.touid, some s⟩ : Event calls) ∈ past

end ChatServiceImpl

/-- The peer and the request of a call to a peer. -/
def Call.requests : Call → Option (Bytes × ChatServiceImpl.Request)
  | .notifyAddFriend server_ip req => some (server_ip, .addFriend req)
  | .notifyAuthFriend server_ip req => some (server_ip, .authFriend req)
  | .notifyTextChatMsg server_ip req => some (server_ip, .textChatMsg req)
  | _ => none

theorem send_of_sends {c : Call} {s : SessId} {id : Int} (h : c.sends = some (s, id)) :
    ∃ msg, c = .send s msg id := by
  rcases c <;> simp only [Call.sends, reduceCtorEq, Option.some.injEq, Prod.mk.injEq] at h
  obtain ⟨rfl, rfl⟩ := h
  exact ⟨_, rfl⟩

/-- The call reaches neither a client nor a peer. -/
structure Call.Inward (c : Call) : Prop where
  sends : c.sends = none
  requests : c.requests = none

/-- A message that the call sends replies to the request, or it is the notification for the user that the
request names and goes to the session that `UserMgr` was found to have for this user; a peer that the call
asks is another server, Redis was found to have the user there, and the peer is asked for what the request
asks for. -/
structure Addressed (J : JsonCpp) (S : ServerName) (node : LogicNode) (past : List (Event calls))
    (c : Call) : Prop where
  sends : ∀ s id, c.sends = some (s, id) →
    (s = node.session ∧ responseId node.recvNode.msgId = some id) ∨
      ∃ u, addressee J node.recvNode = some (.ok u, id) ∧
        (⟨.getSession u, some s⟩ : Event calls) ∈ past
  requests : ∀ server_ip request, c.requests = some (server_ip, request) →
    server_ip ≠ S.val ∧ (⟨.get (ipKey request.touid), some server_ip⟩ : Event calls) ∈ past ∧
      request.Stems J node.recvNode

/-! ## The worker -/

/-- A program that reaches neither a client nor a peer. -/
abbrev Silent {α : Type} (p : Io α) : Prop := p.Uses Call.Inward

namespace LogicSystem

theorem CacheCall.inward {c : Call} (h : CacheCall c) : c.Inward := by
  rcases h with _ | _ | _ <;> exact ⟨rfl, rfl⟩

theorem LoginCall.inward {self : ServerName} {session : SessId} {uid : Int} {c : Call}
    (h : LoginCall self session uid c) : c.Inward := by
  rcases h with _ | h
  case cache => exact h.inward
  all_goals exact ⟨rfl, rfl⟩

theorem SearchCall.inward {c : Call} (h : SearchCall c) : c.Inward := by
  rcases h with _ | _ | h
  · exact ⟨rfl, rfl⟩
  · exact ⟨rfl, rfl⟩
  · exact h.inward

theorem getBaseInfo_silent (J : JsonCpp) (uid : Int) :
    Silent (getBaseInfo J (baseKey uid) uid).run :=
  (getBaseInfo_calls _ uid).mono fun _ h => h.inward

section Handlers

variable {J : JsonCpp} {self : ServerName} {node : LogicNode} {past : List (Event calls)} {α : Type}

/-- The condition of this file, with nothing assumed about the answers. -/
abbrev Directs (J : JsonCpp) (self : ServerName) (node : LogicNode) (p : Io (Except Exn α))
    (past : List (Event calls)) : Prop :=
  p.Heeds (fun _ => True) (Addressed J self node) (fun _ past' => past <+: past') past

theorem addressed_of_inward {c : Call} (h : c.Inward) (past : List (Event calls)) :
    Addressed J self node past c := by
  refine ⟨?_, ?_⟩
  · simp [h.sends]
  · simp [h.requests]

theorem directs_silent {p : Io (Except Exn α)} (h : Silent p) (past : List (Event calls)) :
    Directs J self node p past :=
  h.heeds (fun past _ hc => addressed_of_inward hc past) past

theorem directs_bind {β : Type} {h : Handler α} {f : α → Handler β} (hh : Directs J self node h.run past)
    (hf : ∀ a past', past <+: past' → Directs J self node (f a).run past') :
    Directs J self node (h >>= f).run past := by
  refine heeds_bind hh ?_ fun _ _ hpast => hpast
  intro a past' hpast
  exact (hf a past' hpast).mono fun _ _ h => hpast.trans h

theorem directs_ask {c : Call} {β : Type} {f : c.Resp → Handler β} (hc : Addressed J self node past c)
    (hf : ∀ r, Directs J self node (f r).run (past ++ [⟨c, r⟩])) :
    Directs J self node (ask c >>= f).run past := by
  refine heeds_ask hc fun r _ => (hf r).mono ?_
  intro _ past' h
  exact (List.prefix_append _ _).trans h

theorem directs_lift {β : Type} {x : Except Exn α} {f : α → Handler β}
    (hf : ∀ a, x = .ok a → Directs J self node (f a).run past) :
    Directs J self node ((liftM x : Handler α) >>= f).run past :=
  heeds_lift hf fun _ _ => List.prefix_refl past

theorem directs_pure (a : α) : Directs J self node (pure a : Handler α).run past := List.prefix_refl past

theorem directs_last {c : Call} (hc : Addressed J self node past c) : Directs J self node (ask c).run past :=
  heeds_ask_last hc fun _ _ => List.prefix_append _ _

/-- The reply. -/
theorem directs_reply {id : Int} (hid : responseId node.recvNode.msgId = some id) (msg : Bytes) :
    Directs J self node (ask (.send node.session msg id)).run past := by
  refine directs_last ⟨fun s id' hs => Or.inl ?_, by simp [Call.requests]⟩
  obtain ⟨rfl, rfl⟩ : node.session = s ∧ id = id' := by simpa [Call.sends] using hs
  exact ⟨rfl, hid⟩

/-- The notification, to a session that was found in `UserMgr`. -/
theorem directs_notify {id u : Int} {s : SessId} (hu : addressee J node.recvNode = some (.ok u, id))
    (hs : (⟨.getSession u, some s⟩ : Event calls) ∈ past) (msg : Bytes) :
    Directs J self node (ask (.send s msg id)).run past := by
  refine directs_last ⟨fun s' id' hs' => Or.inr ?_, by simp [Call.requests]⟩
  obtain ⟨rfl, rfl⟩ : s = s' ∧ id = id' := by simpa [Call.sends] using hs'
  exact ⟨u, hu, hs⟩

/-- A request to a peer, which was found in Redis. -/
theorem addressed_peer {server_ip : Bytes} {request : ChatServiceImpl.Request} {c : Call}
    (hc : c.requests = some (server_ip, request)) (hsends : c.sends = none) (hne : server_ip ≠ self.val)
    (hroute : (⟨.get (ipKey request.touid), some server_ip⟩ : Event calls) ∈ past)
    (hstems : request.Stems J node.recvNode) : Addressed J self node past c := by
  refine ⟨by simp [hsends], ?_⟩
  intro ip request' h
  obtain ⟨rfl, rfl⟩ : server_ip = ip ∧ request = request' := by simpa [hc] using h
  exact ⟨hne, hroute, hstems⟩

theorem routeAddFriend_directs {uid touid : Int} {name alias_name : Bytes}
    (hu : addressee J node.recvNode = some (.ok touid, MsgIds.notifyAddFriendReq.id))
    (hstems : ∀ info, (ChatServiceImpl.Request.addFriend
      (addFriendReq uid touid name alias_name info)).Stems J node.recvNode) :
    Directs J self node (routeAddFriend J self uid touid name alias_name).run past := by
  refine directs_ask (addressed_of_inward ⟨rfl, rfl⟩ _) fun to_ip_value => ?_
  rcases to_ip_value with _ | to_ip_value
  · exact directs_pure _
  refine directs_bind (directs_silent (getBaseInfo_silent J uid) _) fun apply_info past' hpast => ?_
  split_ifs with hself
  · refine directs_ask (addressed_of_inward ⟨rfl, rfl⟩ _) fun to_user_session => ?_
    rcases to_user_session with _ | to_user_session
    · exact directs_pure _
    · exact directs_notify hu (by simp) _
  · refine directs_ask (addressed_peer rfl rfl hself ?_ (hstems _)) fun _ => directs_pure _
    exact hpast.subset (by simp [ChatServiceImpl.Request.touid, addFriendReq])

theorem routeAuthFriend_directs {applicant_uid accepter_uid : Int} {peer_alias : Bytes}
    (hu : addressee J node.recvNode = some (.ok applicant_uid, MsgIds.notifyAuthFriendReq.id))
    (hstems : (ChatServiceImpl.Request.authFriend
      { fromuid := accepter_uid, touid := applicant_uid }).Stems J node.recvNode) :
    Directs J self node (routeAuthFriend J self applicant_uid accepter_uid peer_alias).run past := by
  refine directs_ask (addressed_of_inward ⟨rfl, rfl⟩ _) fun to_ip_value => ?_
  rcases to_ip_value with _ | to_ip_value
  · exact directs_pure _
  dsimp only
  split_ifs with hself
  · refine directs_ask (addressed_of_inward ⟨rfl, rfl⟩ _) fun peer_session => ?_
    rcases peer_session with _ | peer_session
    · exact directs_pure _
    -- the profile is read between the lookup and the notification
    refine directs_bind (directs_silent (getBaseInfo_silent J accepter_uid) _) fun peer_info past' hpast => ?_
    exact directs_notify hu (hpast.subset (by simp)) _
  · refine directs_ask (addressed_peer rfl rfl hself ?_ hstems) fun _ => directs_pure _
    simp [ChatServiceImpl.Request.touid]

theorem routeTextChatMsg_directs {fromuid touid : Int} {text_array : Json}
    (hu : addressee J node.recvNode = some (.ok touid, MsgIds.textChatMsgRsp.id))
    (hstems : ∀ textmsgs, textChatDatas J text_array = .ok textmsgs →
      (ChatServiceImpl.Request.textChatMsg
        { fromuid := fromuid, touid := touid, textmsgs := textmsgs }).Stems J node.recvNode) :
    Directs J self node (routeTextChatMsg J self fromuid touid text_array).run past := by
  refine directs_ask (addressed_of_inward ⟨rfl, rfl⟩ _) fun to_ip_value => ?_
  rcases to_ip_value with _ | to_ip_value
  · exact directs_pure _
  dsimp only
  split_ifs with hself
  · refine directs_ask (addressed_of_inward ⟨rfl, rfl⟩ _) fun session => ?_
    rcases session with _ | session
    · exact directs_pure _
    · exact directs_notify hu (by simp) _
  · refine directs_lift fun textmsgs htexts => ?_
    refine directs_ask (addressed_peer rfl rfl hself ?_ (hstems _ htexts)) fun _ => directs_pure _
    simp [ChatServiceImpl.Request.touid]

/-- **What the worker sends is addressed**, whatever message it handles. -/
theorem dispatch_directs (J : JsonCpp) (self : ServerName) (node : LogicNode) :
    Directs J self node (dispatch J self node).run [] := by
  have hinward : ∀ {c : Call} (past : List (Event calls)), c.sends = none → c.requests = none →
      Addressed J self node past c := fun past h h' => addressed_of_inward ⟨h, h'⟩ past
  unfold dispatch LogicSystem.callback
  split_ifs with hlogin hsearch hadd hauth hchat
  · have hid : responseId node.recvNode.msgId = some MsgIds.chatLoginRsp.id := by
      simp only [responseId, if_pos hlogin]
    refine directs_lift fun uid _ => directs_lift fun token _ => ?_
    refine directs_bind (directs_silent ((login_calls self _ uid token).mono fun _ h => h.inward) _)
      fun _ _ _ => ?_
    exact directs_reply hid _
  · have hid : responseId node.recvNode.msgId = some MsgIds.searchUserRsp.id := by
      simp only [responseId, if_neg hlogin, if_pos hsearch]
    refine directs_bind (directs_silent ((searchUser_calls _).mono fun _ h => h.inward) _) fun _ _ _ => ?_
    exact directs_reply hid _
  · have hid : responseId node.recvNode.msgId = some MsgIds.addFriendRsp.id := by
      simp only [responseId, if_neg hlogin, if_neg hsearch, if_pos hadd]
    refine directs_lift fun uid huid => directs_lift fun name hname =>
      directs_lift fun alias_name halias => directs_lift fun touid htouid => ?_
    have hu : addressee J node.recvNode = some (.ok touid, MsgIds.notifyAddFriendReq.id) := by
      simp only [addressee, if_pos hadd, htouid]
    refine directs_ask (hinward _ rfl rfl) fun _ => ?_
    refine directs_bind (routeAddFriend_directs hu ?_) fun _ _ _ => directs_reply hid _
    exact fun _ => ⟨hadd, huid, hname, halias, htouid⟩
  · have hid : responseId node.recvNode.msgId = some MsgIds.authFriendRsp.id := by
      simp only [responseId, if_neg hlogin, if_neg hsearch, if_neg hadd, if_pos hauth]
    refine directs_lift fun applicant_uid huid => directs_lift fun accepter_uid hto =>
      directs_lift fun alias_name _ => ?_
    have hu : addressee J node.recvNode = some (.ok applicant_uid, MsgIds.notifyAuthFriendReq.id) := by
      simp only [addressee, if_neg hadd, if_pos hauth, huid]
    refine directs_bind (directs_silent (getBaseInfo_silent J applicant_uid) _) fun user_info _ _ => ?_
    refine directs_ask (hinward _ rfl rfl) fun _ => directs_ask (hinward _ rfl rfl) fun _ =>
      directs_ask (hinward _ rfl rfl) fun _ => directs_ask (hinward _ rfl rfl) fun _ => ?_
    exact directs_bind (routeAuthFriend_directs hu ⟨hauth, hto, huid⟩) fun _ _ _ => directs_reply hid _
  · have hid : responseId node.recvNode.msgId = some MsgIds.textChatMsgRsp.id := by
      simp only [responseId, if_neg hlogin, if_neg hsearch, if_neg hadd, if_neg hauth, if_pos hchat]
    dsimp only
    unfold chatTextMsgHandler
    dsimp only
    split_ifs
    · exact directs_pure _
    refine directs_lift fun fromuid hfrom => directs_lift fun touid htouid =>
      directs_lift fun text_array harray => ?_
    have hu : addressee J node.recvNode = some (.ok touid, MsgIds.textChatMsgRsp.id) := by
      simp only [addressee, if_neg hadd, if_neg hauth, if_pos hchat, htouid]
    refine directs_bind (routeTextChatMsg_directs hu ?_) fun _ _ _ => directs_reply hid _
    exact fun textmsgs htexts => ⟨hchat, hfrom, htouid, text_array, harray, htexts⟩
  · exact directs_pure _

end Handlers

end LogicSystem

/-! ## The chat service -/

namespace ChatServiceImpl

variable {J : JsonCpp} {request : Request} {past : List (Event calls)}

theorem addressed_of_silent {c : Call} (h : c.sends = none) (past : List (Event calls)) :
    Addressed J request past c := by
  rintro s msg id rfl
  cases h

theorem addressed_notify {s : SessId} (request : Request) (info : Option (UserInfo × Bytes))
    (hs : (⟨.getSession request.touid, some s⟩ : Event calls) ∈ past) :
    Addressed J request past (.send s (J.toStyledString (request.notification info)) request.notice) := by
  rintro s' msg id hsend
  cases hsend
  exact ⟨rfl, ⟨info, rfl⟩, hs⟩

theorem heeds_served {α : Type} {x : Handler α}
    (hx : x.run.Heeds (fun _ => True) (Addressed J request) (fun _ _ => True) past) :
    (x.run >>= fun _ => pure ()).Heeds (fun _ => True) (Addressed J request) (fun _ _ => True) past :=
  Heeds.bind hx fun _ _ _ => trivial

/-- **What a thread of the service sends is addressed.** -/
theorem serve_directs (J : JsonCpp) (request : Request) :
    (serve J request).Heeds (fun _ => True) (Addressed J request) (fun _ _ => True) [] := by
  rcases request with request | request | request
  · refine heeds_served (heeds_ask (addressed_of_silent rfl _) fun session _ => ?_)
    rcases session with _ | session
    · trivial
    · exact heeds_ask (addressed_notify (.addFriend request) none (by simp [Request.touid]))
        fun _ _ => trivial
  · refine heeds_served (heeds_ask (addressed_of_silent rfl _) fun session _ => ?_)
    rcases session with _ | session
    · trivial
    · refine heeds_bind ((peerInfo_quiet J request).heeds
        (fun past _ hc => addressed_of_silent hc.2 past) _) ?_ fun _ _ _ => trivial
      intro info past' hpast
      exact heeds_ask (addressed_notify (.authFriend request) info
        (hpast.subset (by simp [Request.touid]))) fun _ _ => trivial
  · refine heeds_served (heeds_ask (addressed_of_silent rfl _) fun session _ => ?_)
    rcases session with _ | session
    · trivial
    · exact heeds_ask (addressed_notify (.textChatMsg request) none (by simp [Request.touid]))
        fun _ _ => trivial

end ChatServiceImpl

/-! ## Runs -/

section Runs

variable {J : JsonCpp} {redis : Redis} {S : ServerName} {tr pre : List (Cluster.Act × Cluster)}
  {c c' : Cluster} {a : Cluster.Act} {s : SessId} {u : Int}

/-- A login of the session has bound it to the user. -/
def Authenticated (J : JsonCpp) (redis : Redis) (S : ServerName) (tr : List (Cluster.Act × Cluster))
    (s : SessId) (u : Int) : Prop :=
  ∃ pre c e c', Run (Cluster.Step J) (.init redis) pre c ∧
    pre ++ [(some (S, .worker e), c')] <+: tr ∧ e.1.binds = some (s, u) ∧
    AuthenticLogin J redis Redis.get S pre c s u

theorem Authenticated.mono (h : Authenticated J redis S pre s u) (hp : pre <+: tr) :
    Authenticated J redis S tr s u := by
  obtain ⟨early, c, e, c', hr, hpre, hb⟩ := h
  exact ⟨early, c, e, c', hr, hpre.trans hp, hb⟩

/-- Whom a session is bound to has logged in on it. -/
theorem authenticated_of_bound (h : Run (Cluster.Step J) (.init redis) tr c)
    (hb : (c.server S).proc.Bound s u) : Authenticated J redis S tr s u := by
  induction h with
  | nil =>
    rcases hb with ⟨hu, hs⟩ | hmap
    · exact absurd hs.symm hu
    · cases hmap
  | @snoc tr c₁ c₂ a hr hs ih =>
    have hp : tr <+: tr ++ [(a, c₂)] := List.prefix_append _ _
    have htraced := Traced.of_run hr S
    rcases hs.server_cases S with heq | ⟨l, rfl, hv⟩
    · rw [heq] at hb
      exact (ih hb).mono hp
    · rcases hv.bound htraced.formed hb with hold | ⟨e, rfl, he⟩
      · exact (ih hold).mono hp
      · exact ⟨tr, c₁, e, c₂, hr, List.prefix_refl _, he, htraced.authenticLogin hs he⟩

/-- `UserMgr` has had the session for the user, after the user has logged in on it. -/
def Registered (J : JsonCpp) (redis : Redis) (S : ServerName) (tr : List (Cluster.Act × Cluster)) (s : SessId)
    (u : Int) : Prop :=
  ∃ pre c, Run (Cluster.Step J) (.init redis) pre c ∧ pre <+: tr ∧
    (c.server S).proc.uidToSession u = some s ∧ Authenticated J redis S pre s u

theorem Registered.mono (h : Registered J redis S pre s u) (hp : pre <+: tr) :
    Registered J redis S tr s u := by
  obtain ⟨early, c, hr, hpre, hreg⟩ := h
  exact ⟨early, c, hr, hpre.trans hp, hreg⟩

/-- A lookup in `UserMgr` that finds a session finds one that is registered. -/
theorem registered_of_found {w w' : World} (h : Run (Cluster.Step J) (.init redis) tr c)
    (hw : w.proc = (c.server S).proc) (hs : World.sem true ⟨.getSession u, some s⟩ w w') :
    Registered J redis S tr s u := by
  have hfound : some s = (c.server S).proc.uidToSession u := by
    rw [← hw]
    exact (World.sem_of_not_failed hs (by simp [World.Failed])).2 _ rfl
  exact ⟨tr, c, h, List.prefix_refl _, hfound.symm, authenticated_of_bound h (Or.inr hfound.symm)⟩

/-- The sessions that the calls have found in `UserMgr` are registered. -/
def LooksUp (J : JsonCpp) (redis : Redis) (S : ServerName) (tr : List (Cluster.Act × Cluster))
    (past : List (Event calls)) : Prop :=
  ∀ s u, (⟨.getSession u, some s⟩ : Event calls) ∈ past → Registered J redis S tr s u

theorem LooksUp.mono {past : List (Event calls)} (h : LooksUp J redis S pre past) (hp : pre <+: tr) :
    LooksUp J redis S tr past :=
  fun s u he => (h s u he).mono hp

theorem LooksUp.snoc {past : List (Event calls)} {e : Event calls} {w w' : World}
    (h : LooksUp J redis S tr past) (hr : Run (Cluster.Step J) (.init redis) tr c)
    (hw : w.proc = (c.server S).proc) (hs : World.sem true e w w') :
    LooksUp J redis S tr (past ++ [e]) := by
  intro s u he
  rcases List.mem_append.mp he with hold | hnew
  · exact h s u hold
  · obtain rfl := List.mem_singleton.mp hnew
    exact registered_of_found hr hw hs

/-- The server has been asked for this. -/
def Requested (S : ServerName) (tr : List (Cluster.Act × Cluster)) (request : ChatServiceImpl.Request) : Prop :=
  ∃ c, (some (S, .serve request), c) ∈ tr

/-- What the tasks of a server have been given to do and have found, and that they keep to it. -/
structure Directed (J : JsonCpp) (redis : Redis) (S : ServerName) (tr : List (Cluster.Act × Cluster))
    (v : Server) : Prop where
  worker : ∀ t ∈ v.worker, t.rest.Heeds (fun _ => True) (Addressed J S t.node) (fun _ _ => True) t.past ∧
    LooksUp J redis S tr t.past
  rpcs : ∀ p ∈ v.rpcs, ∃ request past, Requested S tr request ∧ LooksUp J redis S tr past ∧
    p.Heeds (fun _ => True) (ChatServiceImpl.Addressed J request) (fun _ _ => True) past

theorem Directed.mono {v : Server} (h : Directed J redis S pre v) (hp : pre <+: tr) :
    Directed J redis S tr v := by
  refine ⟨fun t ht => (h.worker t ht).imp_right fun hl => hl.mono hp, ?_⟩
  intro p hmem
  obtain ⟨request, past, ⟨c, hc⟩, hlooks, hp'⟩ := h.rpcs p hmem
  exact ⟨request, past, ⟨c, hp.subset hc⟩, hlooks.mono hp, hp'⟩

theorem Directed.step (h : Directed J redis S tr (c.server S))
    (hr : Run (Cluster.Step J) (.init redis) tr c) (hs : Cluster.Step J c a c') :
    Directed J redis S (tr ++ [(a, c')]) (c'.server S) := by
  have hp : tr <+: tr ++ [(a, c')] := List.prefix_append _ _
  rcases hs.server_cases S with heq | ⟨l, rfl, hv⟩
  · rw [heq]
    exact h.mono hp
  obtain ⟨hworker, hrpcs⟩ := h.mono hp
  have hold := h
  generalize hserver : c.server S = v at hv hworker hrpcs hold
  generalize hserver' : c'.server S = v' at hv
  generalize c'.redis = r' at hv
  cases hv with
  | take _ _ =>
    refine ⟨?_, hrpcs⟩
    rintro _ ⟨⟩
    exact ⟨(dispatch_directs J S _).mono fun _ _ _ => trivial, fun _ _ he => by simp at he⟩
  | @worker _ _ t e q w ht hstep hsem =>
    refine ⟨?_, hrpcs⟩
    rintro _ ⟨⟩
    have hlooks := (hold.worker t ht).2
    exact ⟨((hworker t ht).1.step hstep).2 trivial, (hlooks.snoc hr (by rw [hserver]) hsem).mono hp⟩
  | workerDone _ _ =>
    refine ⟨?_, hrpcs⟩
    rintro _ ⟨⟩
  | @serve _ _ request =>
    refine ⟨hworker, List.forall_mem_cons.mpr ⟨?_, hrpcs⟩⟩
    refine ⟨request, [], ⟨c', by simp⟩, fun _ _ he => by simp at he, ?_⟩
    exact ChatServiceImpl.serve_directs J request
  | @rpc _ _ before after p q e w hmem hstep hsem =>
    obtain ⟨request, past, ⟨c₀, hc₀⟩, hlooks, hheeds⟩ := hold.rpcs p (by simp [hmem])
    rw [hmem] at hrpcs
    simp only [List.forall_mem_append, List.forall_mem_cons] at hrpcs
    refine ⟨hworker, ?_⟩
    simp only [List.forall_mem_append, List.forall_mem_cons]
    have hrest := (hheeds.step hstep).2 trivial
    refine ⟨hrpcs.1, ⟨request, past ++ [e], ⟨c₀, hp.subset hc₀⟩, ?_, hrest⟩, hrpcs.2.2⟩
    exact (hlooks.snoc hr (by rw [hserver]) hsem).mono hp
  | @rpcDone _ _ before after hmem =>
    refine ⟨hworker, fun p hp => hrpcs p ?_⟩
    rw [hmem]
    rcases List.mem_append.mp hp with hp | hp
    · exact List.mem_append_left _ hp
    · exact List.mem_append_right _ (List.mem_cons_of_mem _ hp)
  | _ => exact ⟨hworker, hrpcs⟩

theorem directed_of_run (h : Run (Cluster.Step J) (.init redis) tr c) (S : ServerName) :
    Directed J redis S tr (c.server S) := by
  refine Run.invariant (P := fun tr c => Directed J redis S tr (c.server S)) ?_ ?_ h
  · refine ⟨?_, ?_⟩
    · rintro _ ⟨⟩
    · exact fun p hp => absurd hp (List.not_mem_nil)
  · intro tr c a c' hr hi hs
    exact hi.step hr hs

/-- **Every message is addressed.** Whenever, in any run, a thread of a server sends a message to a session:
either the worker handles a request that this session has posted, and the message is the reply to it; or the
worker handles a request of another user and the message is the notification for the user whom the request
names; or a thread of the chat service serves a request of a peer and the message is the notification for
the user whom it names. To be sent a notification, the session was in `UserMgr` under the user, after a login
as this user with the token in Redis. -/
theorem sends_addressed {l : Label} {e : Event calls} {id : Int}
    (h : Run (Cluster.Step J) (.init redis) tr c) (hs : Cluster.Step J c (some (S, l)) c')
    (hl : l.call = some e) (hsend : e.1.sends = some (s, id)) :
    (∃ t, l = .worker e ∧ (c.server S).worker = some t ∧ Delivered J redis S tr t.node ∧
      ((t.node.session = s ∧ responseId t.node.recvNode.msgId = some id) ∨
        ∃ u, addressee J t.node.recvNode = some (.ok u, id) ∧ Registered J redis S tr s u)) ∨
    ∃ request, l = .rpc e ∧ Requested S tr request ∧ id = request.notice ∧
      Registered J redis S tr s request.touid := by
  have hdirected := directed_of_run h S
  have htraced := Traced.of_run h S
  have hapart := Cluster.apart_of_run h S
  rcases hs with ⟨-, hv⟩
  generalize hserver : c.server S = v at *
  cases hv with
  | io ht hstep _ =>
    -- a callback sends nothing
    obtain rfl := Option.some.inj hl
    have hnone := ((hapart.io _ ht).step hstep).1.sends
    simp [hsend] at hnone
  | @worker _ _ t _ _ _ ht hstep _ =>
    obtain rfl := Option.some.inj hl
    obtain ⟨hheeds, hlooks⟩ := hdirected.worker t ht
    refine Or.inl ⟨t, rfl, ht, (htraced.worker t ht).1, ?_⟩
    rcases (hheeds.step hstep).1.sends s id hsend with ⟨rfl, hid⟩ | ⟨u, hu, hfound⟩
    · exact Or.inl ⟨rfl, hid⟩
    · exact Or.inr ⟨u, hu, hlooks s u hfound⟩
  | @rpc _ _ before after p _ _ _ hmem hstep _ =>
    obtain rfl := Option.some.inj hl
    obtain ⟨request, past, hserved, hlooks, hheeds⟩ := hdirected.rpcs p (by simp [hmem])
    obtain ⟨msg, he⟩ := send_of_sends hsend
    obtain ⟨hid, -, hfound⟩ := (hheeds.step hstep).1 s msg id he
    exact Or.inr ⟨request, rfl, hserved, hid, hlooks s _ hfound⟩
  | _ => cases hl

/-- A step of a running server is one of the cluster. -/
theorem step_of_server {l : Label} {r : Redis} {v v' : Server} (hc : c.server S = v)
    (hlive : v.crashed = false) (hs : Server.Step J S (c.redis, v) l (r, v')) :
    ∃ c', Cluster.Step J c (some (S, l)) c' ∧ c'.redis = r ∧ c'.server S = v' := by
  subst hc
  exact ⟨_, .server hlive hs, rfl, Function.update_self ..⟩

/-- The thread of the chat service that came last makes a call. -/
theorem last_rpc {v : Server} {o : Call} {r : o.Resp} {k : o.Resp → Io Unit} {rest : List (Io Unit)}
    {w : World} (hc : c.server S = v) (hlive : v.crashed = false) (hmem : v.rpcs = .call o k :: rest)
    (hsem : World.sem true ⟨o, r⟩ ⟨c.redis, v.proc⟩ w) :
    ∃ c', Cluster.Step J c (some (S, .rpc ⟨o, r⟩)) c' ∧
      c'.server S = { v with proc := w.proc, rpcs := k r :: rest } := by
  have hlast : v.rpcs = [] ++ .call o k :: rest := hmem
  have hcall : Prog.Step (.call o k : Io Unit) ⟨o, r⟩ (k r) := Prog.Step.call (S := calls) o k r
  obtain ⟨c', hs, -, hc'⟩ := step_of_server hc hlive (.rpc hlast hcall hsem)
  exact ⟨c', hs, hc'⟩

/-- Texts for a user who is registered can be sent on. -/
theorem texts_sent (h : Run (Cluster.Step J) (.init redis) tr c) (hlive : (c.server S).crashed = false)
    (request : TextChatMsgReq) (hfound : (c.server S).proc.uidToSession request.touid = some s) :
    ∃ tr' c₁ c₂ e, Run (Cluster.Step J) (.init redis)
        (tr ++ [(some (S, .serve (.textChatMsg request)), tr')] ++ [(some (S, .rpc e), c₁)]) c₁ ∧
      Cluster.Step J c₁ (some (S, .rpc (⟨.send s (J.toStyledString (ChatServiceImpl.textChatNotify request))
        MsgIds.notifyTextChatMsgReq.id, ()⟩))) c₂ := by
  -- the request arrives, `UserMgr` is asked, and the notification is sent
  have hserve : Server.Step J S (c.redis, c.server S) (.serve (.textChatMsg request)) _ := .serve
  obtain ⟨c₁, h₁, -, hc₁⟩ := step_of_server rfl hlive hserve
  obtain ⟨c₂, h₂, hc₂⟩ := last_rpc (r := some s) hc₁ hlive rfl
    (Or.inl ⟨rfl, fun a ha => hfound.symm.trans (Option.some.inj ha)⟩)
  obtain ⟨c₃, h₃, -⟩ := last_rpc (r := ()) hc₂ hlive rfl (Or.inl ⟨rfl, fun a ha => rfl⟩)
  exact ⟨c₁, c₂, c₃, _, .snoc (.snoc h h₁) h₂, h₃⟩

/-- The user 7 logs in on the session 0, which is then sent texts for 7. -/
theorem sends_addressed_texts : ∃ tr c c' e, Run (Cluster.Step loginTexts) (.init startRedis) tr c ∧
    Cluster.Step loginTexts c (some (s1, .rpc e)) c' ∧
    e.1.sends = some (0, MsgIds.notifyTextChatMsgReq.id) ∧
    ∃ request, Requested s1 tr request ∧ Registered loginTexts startRedis s1 tr 0 request.touid := by
  let moves := connects 0 ++ logsIn 0 7
  obtain ⟨hlive, hfound⟩ : ((stateAfter moves).server s1).crashed = false ∧
      ((stateAfter moves).server s1).proc.uidToSession 7 = some 0 := by decide +kernel
  obtain ⟨_, c, c', e, hr, hs⟩ := texts_sent (runOf_run moves) hlive ⟨8, 7, []⟩ hfound
  refine ⟨_, c, c', _, hr, hs, rfl, ?_⟩
  rcases sends_addressed hr hs rfl rfl with ⟨t, hl, -⟩ | ⟨request, -, hserved, -, hreg⟩
  · cases hl
  · exact ⟨request, hserved, hreg⟩

/-! ## Where a notification comes from -/

/-- The peer and the request, when a step is a call of a worker to a peer. -/
def peerCall : Cluster.Act → Option (Bytes × ChatServiceImpl.Request)
  | some (_, .worker e) => e.1.requests
  | _ => none

/-- Only the workers of the servers call the chat service: what a server is asked for, the worker of a server
has asked it for. -/
def Peered (tr : List (Cluster.Act × Cluster)) : Prop :=
  ∀ pre S request c, pre ++ [(some (S, .serve request), c)] <+: tr →
    (S.val, request) ∈ watched peerCall pre

/-- A client of another server has sent what the request asks for, and Redis has named the server `S` for
the user of the request. -/
def AskedFor (J : JsonCpp) (redis : Redis) (S : ServerName) (tr : List (Cluster.Act × Cluster))
    (request : ChatServiceImpl.Request) : Prop :=
  ∃ T node, T ≠ S ∧ Delivered J redis T tr node ∧ request.Stems J node.recvNode ∧
    ∃ pre c, Run (Cluster.Step J) (.init redis) pre c ∧ pre <+: tr ∧
      c.redis.route request.touid = some S.val

theorem AskedFor.mono {request : ChatServiceImpl.Request} (h : AskedFor J redis S pre request)
    (hp : pre <+: tr) : AskedFor J redis S tr request := by
  obtain ⟨T, node, hne, hdel, hstems, early, c, hr, hpre, hroute⟩ := h
  exact ⟨T, node, hne, hdel.mono hp, hstems, early, c, hr, hpre.trans hp, hroute⟩

/-- A step of a run, with the run before it. -/
theorem step_of_mem (h : Run (Cluster.Step J) (.init redis) tr c) (hmem : (a, c') ∈ tr) :
    ∃ pre c₁, Run (Cluster.Step J) (.init redis) pre c₁ ∧ pre ++ [(a, c')] <+: tr ∧
      Cluster.Step J c₁ a c' := by
  obtain ⟨pre, post, rfl⟩ := List.append_of_mem hmem
  have hp : pre ++ [(a, c')] <+: pre ++ (a, c') :: post := ⟨post, by simp⟩
  obtain ⟨c₂, h₂⟩ := h.of_prefix hp
  obtain ⟨-, c₁, h₁, hs⟩ := h₂.snoc_inv
  exact ⟨pre, c₁, h₁, hp, hs⟩

/-- What a worker asks a peer for, a client has asked the worker for. -/
theorem asked_of_call {T : ServerName} {e : Event calls} {request : ChatServiceImpl.Request}
    (h : Run (Cluster.Step J) (.init redis) tr c) (hs : Cluster.Step J c (some (T, .worker e)) c')
    (he : e.1.requests = some (S.val, request)) : AskedFor J redis S tr request := by
  have hdirected := directed_of_run h T
  have htraced := Traced.of_run h T
  rcases hs with ⟨-, hv⟩
  rcases hv with _ | _ | _ | _ | _ | _ | ⟨ht, hstep, -⟩
  obtain ⟨hdel, hcalled⟩ := htraced.worker _ ht
  obtain ⟨hne, hget, hstems⟩ := ((hdirected.worker _ ht).1.step hstep).1.requests _ _ he
  obtain ⟨pre, c₁, c₂, _, hr, hp, hcall, -⟩ := hcalled _ hget
  refine ⟨T, _, fun hT => hne (by rw [hT]), hdel, hstems, pre, c₁, hr, ?_, ?_⟩
  · exact (List.prefix_append _ _).trans hp
  · rcases hcall with ⟨-, hcall⟩
    rcases hcall with _ | _ | _ | _ | _ | _ | ⟨-, -, hsem⟩
    exact get_sem hsem

theorem asked_of_watched {request : Bytes × ChatServiceImpl.Request}
    (h : Run (Cluster.Step J) (.init redis) tr c) (hmem : request ∈ watched peerCall tr) :
    ∃ pre c₁ T e c₂, Run (Cluster.Step J) (.init redis) pre c₁ ∧ pre ++ [(some (T, .worker e), c₂)] <+: tr ∧
      Cluster.Step J c₁ (some (T, .worker e)) c₂ ∧ e.1.requests = some request := by
  obtain ⟨a, ha, hreq⟩ := List.mem_filterMap.mp hmem
  obtain ⟨⟨act, c'⟩, hx, rfl⟩ := List.mem_map.mp ha
  obtain ⟨pre, c₁, hr, hp, hs⟩ := step_of_mem h hx
  dsimp only at hreq hs
  rcases act with _ | ⟨T, l⟩
  · cases hreq
  · cases l with
    | worker e => exact ⟨pre, c₁, T, e, c', hr, hp, hs, hreq⟩
    | _ => cases hreq

/-- **A notification goes back to a client's request.** When only servers call the chat service: whatever a
thread of it sends to a session is the notification that a client of another server has asked for, with the
texts of the client's message; the client's message names a user for whom Redis has held this server, and the
session was in `UserMgr` under this user after a login as the user with the token in Redis. -/
theorem notices_stem {e : Event calls} {msg : Bytes} {id : Int}
    (h : Run (Cluster.Step J) (.init redis) tr c) (hpeers : Peered tr)
    (hs : Cluster.Step J c (some (S, .rpc e)) c') (he : e.1 = .send s msg id) :
    ∃ request, AskedFor J redis S tr request ∧ id = request.notice ∧
      (∃ info, msg = J.toStyledString (request.notification info)) ∧
      Registered J redis S tr s request.touid := by
  have hdirected := directed_of_run h S
  rcases hs with ⟨-, hv⟩
  generalize hserver : c.server S = v at *
  cases hv with
  | @rpc _ _ before after p _ _ _ hmem hstep _ =>
    obtain ⟨request, past, ⟨c₀, hserved⟩, hlooks, hheeds⟩ := hdirected.rpcs p (by simp [hmem])
    obtain ⟨hid, hmsg, hfound⟩ := (hheeds.step hstep).1 s msg id he
    refine ⟨request, ?_, hid, hmsg, hlooks s _ hfound⟩
    -- the request was served after a worker had asked for it
    obtain ⟨pre, c₁, hr, hp, -⟩ := step_of_mem h hserved
    obtain ⟨early, c₂, T, e', c₃, hr₂, hp₂, hcall, hreq⟩ :=
      asked_of_watched hr (hpeers pre S request c₀ hp)
    refine (asked_of_call hr₂ hcall hreq).mono ?_
    exact (List.prefix_append _ _).trans (hp₂.trans ((List.prefix_append _ _).trans hp))

/-- The request, when a step is the arrival of one. -/
def arrival : Cluster.Act → Option ChatServiceImpl.Request
  | some (_, .serve request) => some request
  | _ => none

/-- One request of a peer arrives, after the worker of a server has asked for it. -/
theorem Peered.of_one {e : Event calls} {request : ChatServiceImpl.Request} (hnone : watched arrival tr = [])
    (hask : (S.val, request) ∈ watched peerCall tr) :
    Peered (tr ++ [(some (S, .serve request), c)] ++ [(some (S, .rpc e), c')]) := by
  intro pre S' request' c hp
  rcases List.prefix_concat_iff.mp hp with hend | hp
  · obtain ⟨-, hlast⟩ := List.append_inj' hend rfl
    simp at hlast
  rcases List.prefix_concat_iff.mp hp with hend | hp
  · obtain ⟨rfl, hlast⟩ := List.append_inj' hend rfl
    cases hlast
    exact hask
  · have hin := hp.subset (List.mem_append_right _ (List.mem_singleton.mpr rfl))
    have : request' ∈ watched arrival tr := List.mem_filterMap.mpr ⟨_, List.mem_map_of_mem hin, rfl⟩
    simp [hnone] at this

/-- A client sends the user 7 a text. -/
def chatText : Bytes := lit
  "\x7b\"fromuid\":8,\"text_array\":[\x7b\"content\":\"hi\",\"msgid\":\"1\"\x7d],\"touid\":7\x7d"

/-- Its header: message 2011, 67 bytes. -/
def chatHead : Bytes := [7, 219, 0, 67]

def chatTexts : JsonCpp := .ofTable
  [(loginText 7, .obj [(lit "token", .str (lit "t")), (lit "uid", .int 7)]),
    (chatText, .obj [(lit "fromuid", .int 8), (lit "text_array", .arr
      [.obj [(lit "content", .str (lit "hi")), (lit "msgid", .str (lit "1"))]]), (lit "touid", .int 7)])]

/-- The user 7 logs in on `s1`, and a client of `s2` sends the text. -/
def chats : List (ServerName × Move) :=
  (connects 0 ++ logsIn 0 7).map (fun m => (s1, m)) ++
    (connects 0 ++ .readSome 0 false chatHead :: callback ++ .readSome 0 false chatText :: callback ++
      handling).map fun m => (s2, m)

/-- The text arrives at the session of the user 7. -/
theorem notices_stem_text : ∃ tr c c' e msg, Run (Cluster.Step chatTexts) (.init startRedis) tr c ∧
    Cluster.Step chatTexts c (some (s1, .rpc e)) c' ∧ e.1 = .send 0 msg MsgIds.notifyTextChatMsgReq.id ∧
    ∃ request, AskedFor chatTexts startRedis s1 tr request ∧
      ∃ info, msg = chatTexts.toStyledString (request.notification info) := by
  let tr := Cluster.schedule chatTexts knowsUsers (.init startRedis) chats
  let c := final (.init startRedis) tr
  obtain ⟨hlive, hfound⟩ : (c.server s1).crashed = false ∧ (c.server s1).proc.uidToSession 7 = some 0 := by
    decide +kernel
  obtain ⟨hnone, hask⟩ : watched arrival tr = [] ∧ watched peerCall tr =
      [(s1.val, .textChatMsg ⟨8, 7, [⟨lit "1", lit "hi"⟩]⟩)] := by decide +kernel
  obtain ⟨_, c₁, c₂, e, hr, hs⟩ := texts_sent (Cluster.schedule_run chatTexts knowsUsers _ chats) hlive
    ⟨8, 7, [⟨lit "1", lit "hi"⟩]⟩ hfound
  obtain ⟨request, hasked, -, hinfo, -⟩ :=
    notices_stem hr (Peered.of_one hnone (by rw [hask]; simp)) hs rfl
  exact ⟨_, c₁, c₂, _, _, hr, hs, rfl, request, hasked, hinfo⟩

end Runs

end ChatServer
