import ChatServer.Fleet
import ChatServer.History
import ChatServer.TextChat

/-!
# Friend notifications from near and far

A user is notified of a friend request and of its acceptance by the handler itself, if the user is on the
handler's server, and otherwise by the chat service of a peer, which gets a request without the profile
or with parts of it. `location_transparent` says that the two ways send the same message.
-/

namespace ChatServer

open Interaction Prog Handler Bytes Decimal Function Fleet

/-! ## Calls -/

namespace Fleet

variable (S : ServerName) (f : Fleet)

@[simp] theorem call_get (key : Bytes) : Fleet.call (S, .get key) f = (f.redis.get key, f) := by
  show (_, { f with
    redis := f.redis, proc := update f.proc S (f.proc S), sent := f.sent ++ [] }) = _
  simp [World.interpret, World.answer]

@[simp] theorem call_getSession (uid : Int) :
    Fleet.call (S, .getSession uid) f = ((f.proc S).uidToSession uid, f) := by
  show (_, { f with
    redis := f.redis, proc := update f.proc S (f.proc S), sent := f.sent ++ [] }) = _
  simp [World.interpret, World.answer]

@[simp] theorem call_set (key value : Bytes) :
    Fleet.call (S, .set key value) f = (true, { f with redis := f.redis.set key value }) := by
  show (_, { f with
    redis := f.redis.set key value, proc := update f.proc S (f.proc S), sent := f.sent ++ [] }) = _
  simp [World.interpret, World.answer]

theorem call_send_sent (s : SessId) (msg : Bytes) (msgid : Int) :
    (Fleet.call (S, .send s msg msgid) f).2.sent =
      f.sent ++ [{ server := S, session := s, msg := msg, msgid := msgid }] := rfl

/-- A call on the database does nothing else. -/
theorem call_database {c : Call} {x : c.Resp × Database} (h : f.database.call c = some x) :
    Fleet.call (S, c) f = (x.1, { f with database := x.2 }) := by
  unfold Fleet.call
  dsimp only
  rw [h]

end Fleet

/-! ## Profiles -/

/-- Only the profile cache has changed. -/
structure Fleet.Cached (J : JsonCpp) (f f' : Fleet) : Prop where
  database : f'.database = f.database
  proc : f'.proc = f.proc
  sent : f'.sent = f.sent
  route : f'.redis.route = f.redis.route
  coherent : f'.redis.Coherent J f.database.users

section Profiles

variable {J : JsonCpp} {pools : Pools} {S : ServerName} {f : Fleet} {uid : Int}

/-- Storing a profile of the table. -/
theorem Fleet.Cached.set {f' : Fleet} {key value : Bytes} (h : f.Cached J f')
    (hkey : RedisPrefix.userIpPrefix.isPrefixOf key = false)
    (hs : StoresProfile J f.database.users key value) :
    f.Cached J (Fleet.call (S, .set key value) f').2 := by
  rw [Fleet.call_set]
  refine ⟨h.database, h.proc, h.sent, ?_, h.coherent.set hs⟩
  refine (Redis.route_set_of_not_prefix f'.redis value ?_).trans h.route
  intro hprefix
  rw [List.isPrefixOf_iff_prefix.mpr hprefix] at hkey
  cases hkey

theorem Fleet.Cached.refl (hr : f.redis.Coherent J f.database.users) : f.Cached J f :=
  ⟨rfl, rfl, rfl, rfl, hr⟩

theorem LogicSystem.ends_cacheProfile {f₀ : Fleet} {k name value : Bytes} (h : f₀.Cached J f)
    (hbase : StoresProfile J f₀.database.users (RedisPrefix.userBaseInfo ++ k) value)
    (hname : StoresProfile J f₀.database.users (RedisPrefix.userNameInfo ++ name) value) :
    Ends (place J pools S (LogicSystem.cacheProfile (RedisPrefix.userBaseInfo ++ k) name value).run)
      (fun r f' => r = .ok () ∧ f₀.Cached J f') f := by
  refine ends_ask rfl rfl ?_
  split
  · exact ⟨rfl, h.set rfl hbase⟩
  · exact ends_ask rfl rfl ⟨rfl, (h.set rfl hbase).set rfl hname⟩

/-- The worker's `getBaseInfo`, which asks the database first. -/
theorem LogicSystem.ends_getBaseInfo (hJ : J.ReadsBackAll f.database.users)
    (hr : f.redis.Coherent J f.database.users) :
    Ends (place J pools S (LogicSystem.getBaseInfo J (baseKey uid) uid).run)
      (fun r f' => r = .ok (f.database.users.getUserInfo uid) ∧ f.Cached J f') f := by
  refine ends_ask rfl (Fleet.call_database S f (Database.call_getUserInfo f.database uid)) ?_
  dsimp only
  rcases hu : f.database.users.getUserInfo uid with _ | user
  · exact ⟨rfl, .refl hr⟩
  · dsimp only
    -- the nickname is set already
    rw [if_neg (UserTable.named hu).nick]
    have hcached := cachedProfile_fastWrite hJ hu
    have hstoi := stoi_renderInt (UserTable.getUserInfo_uid hu).2
    refine ends_bind (LogicSystem.ends_cacheProfile (.refl hr)
      (.base (zero_notMem_renderInt uid) hstoi hu hcached) (.name hu hcached)) ?_ ?_
    · rintro _ f' ⟨-, hf'⟩
      exact ⟨rfl, hf'⟩
    · rintro e f' ⟨h, -⟩
      cases h

/-- The chat service's `getBaseInfo`, which looks into the cache first. -/
theorem ChatServiceImpl.ends_getBaseInfo (hJ : J.ReadsBackAll f.database.users)
    (hr : f.redis.Coherent J f.database.users) :
    Ends (place J pools S (ChatServiceImpl.getBaseInfo J (baseKey uid) uid).run)
      (fun r f' => r = .ok (f.database.users.getUserInfo uid) ∧ f.Cached J f') f := by
  have hkey : cstr (baseKey uid) = baseKey uid := cstr_userBaseInfo (zero_notMem_renderInt uid)
  refine ends_ask rfl (Fleet.call_get S f (baseKey uid)) ?_
  dsimp only
  have hget : f.redis.get (baseKey uid) = (f.redis.str (baseKey uid)).map cstr := by
    rw [Redis.get, hkey]
  rw [hget]
  rcases hstr : f.redis.str (baseKey uid) with _ | v
  · refine ends_ask rfl (Fleet.call_database S f (Database.call_getUserInfo f.database uid)) ?_
    dsimp only
    rcases hu : f.database.users.getUserInfo uid with _ | user
    · exact ⟨rfl, .refl hr⟩
    · refine ends_ask rfl rfl ⟨rfl, Fleet.Cached.set (.refl hr) rfl ?_⟩
      have hstoi := stoi_renderInt (UserTable.getUserInfo_uid hu).2
      exact .base (zero_notMem_renderInt uid) hstoi hu (cachedProfile_styled hJ hu)
  · obtain ⟨user, hu, hcached⟩ := hr.base_uid hstr
    rw [Option.map_some, hu]
    dsimp only
    refine ends_lift ?_ ?_
    · intro info hinfo
      unfold cachedProfile at hcached
      rw [hcached] at hinfo
      cases hinfo
      exact ⟨rfl, .refl hr⟩
    · intro e he
      unfold cachedProfile at hcached
      rw [hcached] at he
      cases he

end Profiles

/-! ## The chat service -/

/-- Calls that are made at the server itself. -/
def Call.isLocal : Call → Bool
  | .notifyAddFriend _ _ => false
  | .notifyAuthFriend _ _ => false
  | .notifyTextChatMsg _ _ => false
  | _ => true

theorem carry_of_local {J : JsonCpp} {pools : Pools} {S : ServerName} {c : Call}
    (h : c.isLocal = true) : carry J pools S c = perform (S := located) (S, c) := by
  cases c with
  | notifyAddFriend _ _ | notifyAuthFriend _ _ | notifyTextChatMsg _ _ => cases h
  | _ => rfl

theorem locate_eq_place {α : Type} (J : JsonCpp) (pools : Pools) (S : ServerName) {p : Io α}
    (h : p.Uses fun c : Call => c.isLocal = true) : locate S p = place J pools S p := by
  induction p with
  | ret a => rfl
  | call c k ih =>
    show Prog.call (S := located) (S, c) (fun r => locate S (k r)) =
      (carry J pools S c >>= fun r => place J pools S (k r))
    rw [carry_of_local h.1]
    show _ = Prog.call (S := located) (S, c) (fun r => place J pools S (k r))
    congr 1
    funext r
    exact ih r (h.2 r)

/-- A program whose calls are made at the server itself. -/
theorem uses_place {α : Type} {J : JsonCpp} {pools : Pools} {S : ServerName} {P : ServerName × Call → Prop}
    {p : Io α} (hp : p.Uses fun c : Call => c.isLocal = true ∧ P (S, c)) :
    (place J pools S p).Uses P := by
  induction p with
  | ret a => trivial
  | call c k ih =>
    show (carry J pools S c >>= fun r => place J pools S (k r)).Uses P
    rw [carry_of_local hp.1.1]
    exact ⟨hp.1.2, fun r => ih r (hp.2 r)⟩

namespace ChatServiceImpl

variable {J : JsonCpp}

theorem notifyAddFriend_local (request : AddFriendReq) :
    (notifyAddFriend J request).run.Uses fun c : Call => c.isLocal = true := by
  refine uses_ask rfl ?_
  intro session
  rcases session with _ | s
  · exact uses_pure _
  · exact uses_ask rfl fun _ => uses_pure _

theorem getBaseInfo_local (base_key : Bytes) (uid : Int) :
    (getBaseInfo J base_key uid).run.Uses fun c : Call => c.isLocal = true := by
  refine uses_ask rfl ?_
  intro info_str
  rcases info_str with _ | info_str
  · refine uses_ask rfl ?_
    intro user_info
    rcases user_info with _ | user
    · exact uses_pure _
    · exact uses_ask rfl fun _ => uses_pure _
  · exact uses_lift fun _ => uses_pure _

theorem notifyAuthFriend_local (request : AuthFriendReq) :
    (notifyAuthFriend J request).run.Uses fun c : Call => c.isLocal = true := by
  refine uses_ask rfl ?_
  intro session
  rcases session with _ | s
  · exact uses_pure _
  · refine uses_bind (uses_bind (getBaseInfo_local _ _) ?_) ?_
    · intro user_info
      rcases user_info with _ | user
      · exact uses_pure _
      · exact uses_ask rfl fun _ => uses_pure _
    · intro info
      exact uses_ask rfl fun _ => uses_pure _

end ChatServiceImpl

/-- What a peer that is in the pools does for a remote call. -/
theorem ends_notify {ρ β : Type} {J : JsonCpp} {pools : Pools} {S T : ServerName} {f : Fleet}
    {server_ip : Bytes} {serve : Io (Except Exn ρ)} {rsp : ρ} {setError defer : ρ → ρ}
    {k : ρ → Located β} {mid : Except Exn ρ → Fleet → Prop} {post : β → Fleet → Prop}
    (hpool : pools S server_ip = some T) (hlocal : serve.Uses fun c : Call => c.isLocal = true)
    (hserve : Ends (place J pools T serve) mid f)
    (hk : ∀ r f, mid r f → ∀ reply, Ends (k reply) post f) :
    Ends (Remote.notify pools S server_ip serve rsp setError defer >>= k) post f := by
  rw [notify_of_pool hpool, bind_assoc, locate_eq_place J pools T hlocal]
  refine hserve.bind ?_
  intro r f hr
  rcases r with e | reply
  · exact hk _ f hr _
  · exact hk _ f hr _

/-! ## Notifying a user -/

/-- The user's routing key names the server, which has the user's session. -/
structure Fleet.Online (f : Fleet) (uid : Int) (S : ServerName) (s : SessId) : Prop where
  route : f.redis.get (ipKey uid) = some S.val
  session : (f.proc S).uidToSession uid = some s

section Notify

variable {J : JsonCpp} {pools : Pools} {S T : ServerName} {f : Fleet} {s : SessId}

/-- A message for a session. -/
def outbound (S : ServerName) (s : SessId) (msg : Bytes × Int) : Outbound :=
  { server := S, session := s, msg := msg.1, msgid := msg.2 }

/-- The program returns and has sent these messages; the users are what they were. -/
def Sends {α : Type} (f : Fleet) (ds : List Outbound) (r : Except Exn α) (f' : Fleet) : Prop :=
  (∃ a, r = .ok a) ∧ f'.sent = f.sent ++ ds

/-- The peer's notification says what the handler's does. -/
theorem addFriendNotify_addFriendReq (uid touid : Int) (name alias_name : Bytes)
    {info : Option UserInfo}
    (htext : ∀ user, info = some user → (0 : UInt8) ∉ user.icon ∧ (0 : UInt8) ∉ user.nick) :
    ChatServiceImpl.addFriendNotify (LogicSystem.addFriendReq uid touid name alias_name info) =
      LogicSystem.addFriendNotify uid name alias_name info := by
  rcases info with _ | user
  · rfl
  · obtain ⟨hicon, hnick⟩ := htext user rfl
    unfold LogicSystem.addFriendReq
    dsimp only [Option.getD_some]
    rw [cstr_eq_self hicon, cstr_eq_self hnick]
    rfl

/-- The notification of a friend request. -/
def addFrame (J : JsonCpp) (users : UserTable) (uid : Int) (name alias_name : Bytes) : Bytes × Int :=
  (J.toStyledString (LogicSystem.addFriendNotify uid name alias_name (users.getUserInfo uid)),
    MsgIds.notifyAddFriendReq.id)

/-- The notification of an acceptance. -/
def authFrame (J : JsonCpp) (users : UserTable) (applicant_uid accepter_uid : Int)
    (applicant_peer_alias : Bytes) : Bytes × Int :=
  (J.toStyledString (LogicSystem.authFriendNotify applicant_uid accepter_uid applicant_peer_alias
    (users.getUserInfo accepter_uid)), MsgIds.notifyAuthFriendReq.id)

variable (hJ : J.ReadsBackAll f.database.users) (hr : f.redis.Coherent J f.database.users)
include hJ hr

theorem routeAddFriend_here {uid touid : Int} {name alias_name : Bytes} (ho : f.Online touid S s) :
    Ends (place J pools S (LogicSystem.routeAddFriend J S uid touid name alias_name).run)
      (Sends f [outbound S s (addFrame J f.database.users uid name alias_name)]) f := by
  refine ends_ask rfl (Fleet.call_get S f (ipKey touid)) ?_
  dsimp only
  rw [ho.route]
  refine ends_bind (LogicSystem.ends_getBaseInfo hJ hr) ?_ ?_
  · rintro info f' ⟨hinfo, hf'⟩
    cases hinfo
    rw [if_pos rfl]
    refine ends_ask rfl (Fleet.call_getSession S f' touid) ?_
    dsimp only
    rw [hf'.proc, ho.session]
    refine ends_ask_last rfl rfl ⟨⟨_, rfl⟩, ?_⟩
    rw [Fleet.call_send_sent, hf'.sent]
    rfl
  · rintro e f' ⟨h, -⟩
    cases h

omit hJ hr in
/-- What the chat service sends for a friend request. -/
theorem ends_notifyAddFriend (request : AddFriendReq)
    (hs : (f.proc T).uidToSession request.touid = some s) :
    Ends (place J pools T (ChatServiceImpl.notifyAddFriend J request).run)
      (Sends f [outbound T s (J.toStyledString (ChatServiceImpl.addFriendNotify request),
        MsgIds.notifyAddFriendReq.id)]) f := by
  refine ends_ask rfl (Fleet.call_getSession T f request.touid) ?_
  dsimp only
  rw [hs]
  exact ends_ask rfl rfl ⟨⟨_, rfl⟩, rfl⟩

theorem routeAddFriend_there {uid touid : Int} {name alias_name : Bytes} (hne : T ≠ S)
    (hpool : pools S T.val = some T) (ho : f.Online touid T s)
    (htext : ∀ user, f.database.users.getUserInfo uid = some user →
      (0 : UInt8) ∉ user.icon ∧ (0 : UInt8) ∉ user.nick) :
    Ends (place J pools S (LogicSystem.routeAddFriend J S uid touid name alias_name).run)
      (Sends f [outbound T s (addFrame J f.database.users uid name alias_name)]) f := by
  refine ends_ask rfl (Fleet.call_get S f (ipKey touid)) ?_
  dsimp only
  rw [ho.route]
  refine ends_bind (LogicSystem.ends_getBaseInfo hJ hr) ?_ ?_
  · rintro info f' ⟨hinfo, hf'⟩
    cases hinfo
    rw [if_neg fun h => hne (Subtype.ext h)]
    have hs : (f'.proc T).uidToSession touid = some s := by
      rw [hf'.proc]
      exact ho.session
    show Ends (Remote.notifyAddFriend J pools S T.val _ >>= fun _ =>
      place J pools S (Prog.ret (Except.ok ()))) _ f'
    refine ends_notify hpool (ChatServiceImpl.notifyAddFriend_local _)
      (ends_notifyAddFriend (LogicSystem.addFriendReq uid touid name alias_name _) hs) ?_
    rintro r f'' ⟨-, hsent⟩ reply
    refine ⟨⟨_, rfl⟩, ?_⟩
    show f''.sent = _
    rw [hsent, hf'.sent, addFriendNotify_addFriendReq _ _ _ _ htext]
    rfl
  · rintro e f' ⟨h, -⟩
    cases h

/-- The alias that the applicant has for the accepter. -/
def Database.friendAlias (db : Database) (self_id friend_id : Int) : Bytes :=
  (db.tables.friend (self_id, friend_id)).getD []

omit hJ hr in
theorem call_friendAlias (self_id friend_id : Int) : ∃ found,
    Fleet.call (S, .getFriendAlias self_id friend_id) f =
      ((found, f.database.friendAlias self_id friend_id), f) := by
  have hcall := Database.call_getFriendAlias f.database self_id friend_id
  unfold Database.friendAlias
  rcases hrow : f.database.tables.friend (self_id, friend_id) with _ | out_alias
  · rw [hrow] at hcall
    exact ⟨false, Fleet.call_database S f hcall⟩
  · rw [hrow] at hcall
    exact ⟨true, Fleet.call_database S f hcall⟩

omit hJ hr in
theorem call_applyAlias (from_uid to_uid : Int) : ∃ found,
    Fleet.call (S, .getFriendApplyAlias from_uid to_uid) f =
      ((found, ((f.database.tables.friendApply (from_uid, to_uid)).map ApplyRow.aliasName).getD []),
        f) := by
  have hcall := Database.call_getFriendApplyAlias f.database from_uid to_uid
  rcases hrow : f.database.tables.friendApply (from_uid, to_uid) with _ | row
  · rw [hrow] at hcall
    exact ⟨false, Fleet.call_database S f hcall⟩
  · rw [hrow] at hcall
    exact ⟨true, Fleet.call_database S f hcall⟩

theorem routeAuthFriend_here {applicant_uid accepter_uid : Int} {peer_alias : Bytes}
    (ho : f.Online applicant_uid S s) :
    Ends (place J pools S
        (LogicSystem.routeAuthFriend J S applicant_uid accepter_uid peer_alias).run)
      (Sends f [outbound S s (authFrame J f.database.users applicant_uid accepter_uid peer_alias)])
      f := by
  refine ends_ask rfl (Fleet.call_get S f (ipKey applicant_uid)) ?_
  dsimp only
  rw [ho.route]
  dsimp only
  rw [if_pos rfl]
  refine ends_ask rfl (Fleet.call_getSession S f applicant_uid) ?_
  dsimp only
  rw [ho.session]
  refine ends_bind (LogicSystem.ends_getBaseInfo hJ hr) ?_ ?_
  · rintro info f' ⟨hinfo, hf'⟩
    cases hinfo
    refine ends_ask_last rfl rfl ⟨⟨_, rfl⟩, ?_⟩
    rw [Fleet.call_send_sent, hf'.sent]
    rfl
  · rintro e f' ⟨h, -⟩
    cases h

/-- What the chat service sends for an acceptance. -/
theorem ends_notifyAuthFriend {applicant_uid accepter_uid : Int}
    (hs : (f.proc T).uidToSession applicant_uid = some s) :
    Ends (place J pools T (ChatServiceImpl.notifyAuthFriend J
        { fromuid := accepter_uid, touid := applicant_uid }).run)
      (Sends f [outbound T s (authFrame J f.database.users applicant_uid accepter_uid
        (f.database.friendAlias applicant_uid accepter_uid))]) f := by
  refine ends_ask rfl (Fleet.call_getSession T f applicant_uid) ?_
  dsimp only
  rw [hs]
  have hinfo : Ends (place J pools T (ChatServiceImpl.peerInfo J
      { fromuid := accepter_uid, touid := applicant_uid }).run)
      (fun r f' => r = .ok ((f.database.users.getUserInfo accepter_uid).map fun user =>
        (user, f.database.friendAlias applicant_uid accepter_uid)) ∧ f'.sent = f.sent) f := by
    refine ends_bind (ChatServiceImpl.ends_getBaseInfo hJ hr) ?_ ?_
    · rintro info f' ⟨hinfo, hf'⟩
      cases hinfo
      rcases f.database.users.getUserInfo accepter_uid with _ | user
      · exact ⟨rfl, hf'.sent⟩
      · -- the alias is read with the two uids in their places
        obtain ⟨found, hcall⟩ := call_friendAlias (S := T) (f := f') applicant_uid accepter_uid
        refine ends_ask rfl hcall ⟨?_, hf'.sent⟩
        rw [hf'.database]
        rfl
    · rintro e f' ⟨h, -⟩
      cases h
  refine ends_bind hinfo ?_ ?_
  · rintro info f' ⟨hinfo, hsent⟩
    cases hinfo
    refine ends_ask rfl rfl ⟨⟨_, rfl⟩, ?_⟩
    show f'.sent ++ [_] = _
    rw [hsent]
    unfold authFrame
    rcases f.database.users.getUserInfo accepter_uid with _ | user <;> rfl
  · rintro e f' ⟨h, -⟩
    cases h

theorem routeAuthFriend_there {applicant_uid accepter_uid : Int} (hne : T ≠ S)
    (hpool : pools S T.val = some T) (ho : f.Online applicant_uid T s) (peer_alias : Bytes) :
    Ends (place J pools S
        (LogicSystem.routeAuthFriend J S applicant_uid accepter_uid peer_alias).run)
      (Sends f [outbound T s (authFrame J f.database.users applicant_uid accepter_uid
        (f.database.friendAlias applicant_uid accepter_uid))]) f := by
  refine ends_ask rfl (Fleet.call_get S f (ipKey applicant_uid)) ?_
  dsimp only
  rw [ho.route]
  dsimp only
  rw [if_neg fun h => hne (Subtype.ext h)]
  show Ends (Remote.notifyAuthFriend J pools S T.val _ >>= fun _ =>
    place J pools S (Prog.ret (Except.ok ()))) _ f
  refine ends_notify hpool (ChatServiceImpl.notifyAuthFriend_local _)
    (ends_notifyAuthFriend hJ hr ho.session) ?_
  rintro r f' ⟨-, hsent⟩ reply
  exact ⟨⟨_, rfl⟩, hsent⟩

end Notify

/-! ## The two handlers -/

/-- The server of the user is the handler's own or a peer in its pools. -/
def Pools.Reach (pools : Pools) (S T : ServerName) : Prop := T = S ∨ (T ≠ S ∧ pools S T.val = some T)

/-- Only rows of the two tables have changed, or the profile cache. -/
structure Fleet.Keeps (J : JsonCpp) (f f' : Fleet) : Prop where
  users : f'.database.users = f.database.users
  coherent : f'.redis.Coherent J f.database.users
  route : f'.redis.route = f.redis.route
  proc : f'.proc = f.proc
  sent : f'.sent = f.sent

/-- What the one who is asked to be a friend is sent for a message, if its members can be converted. -/
def addNotification (J : JsonCpp) (users : UserTable) (root : Json) : Except Exn (Bytes × Int) := do
  let uid ← root.getInt "uid"
  let name ← root.getString J "apply_name"
  let alias_name ← root.getString J "alias_name"
  let _ ← root.getInt "touid"
  pure (addFrame J users uid name alias_name)

/-- What the one who has asked is sent. -/
def authNotification (J : JsonCpp) (db : Database) (root : Json) : Except Exn (Bytes × Int) := do
  let fromuid ← root.getInt "fromuid"
  let touid ← root.getInt "touid"
  let alias_name ← root.getString J "alias_name"
  let db := db.applyAll ((FriendRequest.accept fromuid touid alias_name).statements db.tables)
  pure (authFrame J db.users fromuid touid (db.friendAlias fromuid touid))

/-- The notifications of a message. -/
def LogicNode.notifications (J : JsonCpp) (node : LogicNode) (db : Database) : List (Bytes × Int) :=
  let root := (J.parse node.recvNode.text).2
  if node.recvNode.msgId = MsgIds.addFriendReq.id then
    (addNotification J db.users root).toOption.toList
  else if node.recvNode.msgId = MsgIds.authFriendReq.id then
    (authNotification J db root).toOption.toList
  else []

/-- The handler has sent the notifications to the session, and then replied. -/
def Notifies (f : Fleet) (T : ServerName) (s : SessId) (frames : List (Bytes × Int)) (S : ServerName)
    (session : SessId) (f' : Fleet) : Prop :=
  ∃ replies : List (Bytes × Int), f'.sent = f.sent ++ frames.map (outbound T s) ++
    replies.map (outbound S session) ∧
    ∀ x ∈ replies, x.2 = MsgIds.addFriendRsp.id ∨ x.2 = MsgIds.authFriendRsp.id

/-- The user who is notified of a request. -/
def FriendRequest.notified : FriendRequest → Int
  | .add _ touid _ => touid
  | .accept fromuid _ _ => fromuid

section Handlers

variable {J : JsonCpp} {pools : Pools} {S T : ServerName} {f : Fleet} {s session : SessId}
  {msg_data : Bytes}

theorem notifies_nothing (f : Fleet) : Notifies f T s [] S session f :=
  ⟨[], by simp, fun _ h => (nomatch h)⟩

theorem Fleet.Online.keeps {uid : Int} {f' : Fleet} (h : f.Online uid T s) (hk : f.Keeps J f') :
    f'.Online uid T s := by
  constructor
  · exact (congrFun hk.route uid).trans h.route
  · rw [hk.proc, h.session]

/-- Other rows in the two tables. -/
theorem Fleet.Keeps.applyAll {f' : Fleet} (h : f.Keeps J f') (os : List Sql) :
    f.Keeps J { f' with database := f'.database.applyAll os } := by
  refine ⟨?_, h.coherent, h.route, h.proc, h.sent⟩
  rw [applyAll_users, h.users]

/-- Notifying the user who is asked. -/
theorem routeAddFriend_sends {f' : Fleet} (hreach : pools.Reach S T)
    (hJ : J.ReadsBackAll f.database.users) (hk : f.Keeps J f') {uid touid : Int}
    (htext : ∀ user, f.database.users.getUserInfo uid = some user →
      (0 : UInt8) ∉ user.icon ∧ (0 : UInt8) ∉ user.nick)
    (ho : f.Online touid T s) (name alias_name : Bytes) :
    Ends (place J pools S (LogicSystem.routeAddFriend J S uid touid name alias_name).run)
      (Sends f [outbound T s (addFrame J f.database.users uid name alias_name)]) f' := by
  have husers := hk.users
  rw [← husers] at hJ htext ⊢
  have hr := hk.coherent
  rw [← husers] at hr
  unfold Sends
  rw [← hk.sent]
  rcases hreach with rfl | ⟨hne, hpool⟩
  · exact routeAddFriend_here hJ hr (ho.keeps hk)
  · exact routeAddFriend_there hJ hr hne hpool (ho.keeps hk) htext

/-- Notifying the applicant, with the alias that the database has. -/
theorem routeAuthFriend_sends {f' : Fleet} (hreach : pools.Reach S T)
    (hJ : J.ReadsBackAll f.database.users) (hk : f.Keeps J f') {applicant_uid accepter_uid : Int}
    (ho : f.Online applicant_uid T s) :
    Ends (place J pools S (LogicSystem.routeAuthFriend J S applicant_uid accepter_uid
        (f'.database.friendAlias applicant_uid accepter_uid)).run)
      (Sends f [outbound T s (authFrame J f.database.users applicant_uid accepter_uid
        (f'.database.friendAlias applicant_uid accepter_uid))]) f' := by
  have husers := hk.users
  rw [← husers] at hJ ⊢
  have hr := hk.coherent
  rw [← husers] at hr
  unfold Sends
  rw [← hk.sent]
  rcases hreach with rfl | ⟨hne, hpool⟩
  · exact routeAuthFriend_here hJ hr (ho.keeps hk)
  · exact routeAuthFriend_there hJ hr hne hpool (ho.keeps hk) _

/-- The reply after a notification. -/
theorem ends_reply {f' : Fleet} {frame : Bytes × Int} {h : Handler Unit} {msg : Bytes} {msgid : Int}
    (hid : msgid = MsgIds.addFriendRsp.id ∨ msgid = MsgIds.authFriendRsp.id)
    (hh : Ends (place J pools S h.run) (Sends f [outbound T s frame]) f') :
    Ends (place J pools S (h >>= fun _ => ask (.send session msg msgid)).run)
      (fun _ f' => Notifies f T s [frame] S session f') f' := by
  refine ends_bind hh ?_ ?_
  · rintro _ f' ⟨-, hsent⟩
    refine ends_ask_last rfl rfl ⟨[(msg, msgid)], ?_, ?_⟩
    · rw [Fleet.call_send_sent, hsent]
      rfl
    · intro x hx
      rw [List.mem_singleton.mp hx]
      exact hid
  · rintro e f' ⟨⟨_, h⟩, -⟩
    cases h

variable (hreach : pools.Reach S T) (hJ : J.ReadsBackAll f.database.users)
  (hr : f.redis.Coherent J f.database.users)
include hreach hJ hr

theorem ends_addFriendHandler
    (htext : ∀ uid user, f.database.users.getUserInfo uid = some user →
      (0 : UInt8) ∉ user.icon ∧ (0 : UInt8) ∉ user.nick)
    (ho : ∀ q, (addRequest J (J.parse msg_data).2).toOption = some q → f.Online q.notified T s) :
    Ends (place J pools S (LogicSystem.addFriendHandler J S session msg_data).run)
      (fun _ f' => Notifies f T s
        (addNotification J f.database.users (J.parse msg_data).2).toOption.toList S session f') f := by
  unfold LogicSystem.addFriendHandler addNotification
  unfold addRequest at ho
  refine ends_lift ?_ (fun e h => by rw [h]; exact notifies_nothing f)
  intro uid huid
  rw [huid] at ho ⊢
  refine ends_lift ?_ (fun e h => by rw [h]; exact notifies_nothing f)
  intro name hname
  rw [hname] at ho ⊢
  refine ends_lift ?_ (fun e h => by rw [h]; exact notifies_nothing f)
  intro alias_name halias
  rw [halias] at ho ⊢
  refine ends_lift ?_ (fun e h => by rw [h]; exact notifies_nothing f)
  intro touid htouid
  rw [htouid] at ho ⊢
  have hon : f.Online touid T s := ho (.add uid touid alias_name) rfl
  have hkeeps : f.Keeps J f := ⟨rfl, hr, rfl, rfl, rfl⟩
  refine ends_ask rfl (Fleet.call_database S f
    (Database.call_addFriendApply f.database uid touid alias_name)) ?_
  exact ends_reply (Or.inl rfl) (routeAddFriend_sends hreach hJ
    (hkeeps.applyAll [.insertApply uid touid alias_name]) (htext uid) hon name alias_name)

theorem ends_authFriendHandler
    (ho : ∀ q, (acceptRequest J (J.parse msg_data).2).toOption = some q → f.Online q.notified T s) :
    Ends (place J pools S (LogicSystem.authFriendHandler J S session msg_data).run)
      (fun _ f' => Notifies f T s
        (authNotification J f.database (J.parse msg_data).2).toOption.toList S session f') f := by
  unfold LogicSystem.authFriendHandler authNotification
  unfold acceptRequest at ho
  refine ends_lift ?_ (fun e h => by rw [h]; exact notifies_nothing f)
  intro fromuid hfrom
  rw [hfrom] at ho ⊢
  refine ends_lift ?_ (fun e h => by rw [h]; exact notifies_nothing f)
  intro touid hto
  rw [hto] at ho ⊢
  refine ends_lift ?_ (fun e h => by rw [h]; exact notifies_nothing f)
  intro alias_name halias
  rw [halias] at ho ⊢
  have hon : f.Online fromuid T s := ho (.accept fromuid touid alias_name) rfl
  refine ends_bind (LogicSystem.ends_getBaseInfo hJ hr) ?_ ?_
  · rintro info f' ⟨hinfo, hf'⟩
    cases hinfo
    have hkeeps : f.Keeps J f' :=
      ⟨congrArg Database.users hf'.database, hf'.coherent, hf'.route, hf'.proc, hf'.sent⟩
    rw [← hf'.database]
    obtain ⟨_, happly⟩ := call_applyAlias (S := S) (f := f') fromuid touid
    refine ends_ask rfl happly ?_
    refine ends_ask rfl (Fleet.call_database S _
      (Database.call_authFriendApply f'.database fromuid touid).choose_spec) ?_
    refine ends_ask rfl (Fleet.call_database S _
      (Database.call_addFriend _ fromuid touid _ alias_name).choose_spec) ?_
    -- the alias is read from the tables after the statements
    obtain ⟨_, hcall⟩ := call_friendAlias (S := S) fromuid touid
    refine ends_ask rfl hcall ?_
    have hstored := hkeeps.applyAll
      ((FriendRequest.accept fromuid touid alias_name).statements f'.database.tables)
    refine Fleet.Ends.mono (ends_reply (Or.inr rfl)
      (routeAuthFriend_sends hreach hJ hstored hon)) ?_
    intro _ f'' h
    show Notifies f T s [authFrame J (f'.database.applyAll _).users fromuid touid _] S session f''
    rw [applyAll_users, hf'.database]
    rw [hf'.database] at h
    exact h
  · rintro e f' ⟨h, -⟩
    cases h

/-- **What a message sends**, wherever the user who is notified is. -/
theorem ends_dispatch (node : LogicNode)
    (hid : node.recvNode.msgId = MsgIds.addFriendReq.id ∨
      node.recvNode.msgId = MsgIds.authFriendReq.id)
    (htext : ∀ uid user, f.database.users.getUserInfo uid = some user →
      (0 : UInt8) ∉ user.icon ∧ (0 : UInt8) ∉ user.nick)
    (ho : ∀ q, node.friendRequest J = some q → f.Online q.notified T s) :
    Ends (place J pools S (LogicSystem.dispatch J S node).run)
      (fun _ f' => Notifies f T s (node.notifications J f.database) S node.session f') f := by
  rcases hid with hid | hid
  · have hdispatch : LogicSystem.dispatch J S node =
        LogicSystem.addFriendHandler J S node.session node.recvNode.text := by
      unfold LogicSystem.dispatch LogicSystem.callback
      rw [hid]
      rfl
    have hframes : node.notifications J f.database =
        (addNotification J f.database.users (J.parse node.recvNode.text).2).toOption.toList :=
      if_pos hid
    have hrequest : node.friendRequest J = (addRequest J (J.parse node.recvNode.text).2).toOption :=
      if_pos hid
    rw [hrequest] at ho
    rw [hdispatch, hframes]
    exact ends_addFriendHandler hreach hJ hr htext ho
  · have hne : MsgIds.authFriendReq.id ≠ MsgIds.addFriendReq.id := by decide
    have hdispatch : LogicSystem.dispatch J S node =
        LogicSystem.authFriendHandler J S node.session node.recvNode.text := by
      unfold LogicSystem.dispatch LogicSystem.callback
      rw [hid]
      rfl
    have hframes : node.notifications J f.database =
        (authNotification J f.database (J.parse node.recvNode.text).2).toOption.toList := by
      unfold LogicNode.notifications
      rw [hid, if_neg hne, if_pos rfl]
    have hrequest : node.friendRequest J =
        (acceptRequest J (J.parse node.recvNode.text).2).toOption := by
      unfold LogicNode.friendRequest
      rw [hid, if_neg hne, if_pos rfl]
    rw [hrequest] at ho
    rw [hdispatch, hframes]
    exact ends_authFriendHandler hreach hJ hr ho

end Handlers

/-! ## The two ways -/

/-- The worker of the server `S` handles a message. -/
def Fleet.handle (J : JsonCpp) (pools : Pools) (S : ServerName) (node : LogicNode) (f : Fleet) : Fleet :=
  ((place J pools S (LogicSystem.dispatch J S node).run).run Fleet.call f).2

theorem addNotification_length (J : JsonCpp) (users : UserTable) (root : Json) :
    (addNotification J users root).toOption.toList.length =
      (addRequest J root).toOption.toList.length := by
  unfold addNotification addRequest
  rcases root.getInt "uid" with _ | uid
  · rfl
  · rcases root.getString J "apply_name" with _ | name
    · rfl
    · rcases root.getString J "alias_name" with _ | alias_name
      · rfl
      · rcases root.getInt "touid" with _ | touid <;> rfl

theorem authNotification_length (J : JsonCpp) (db : Database) (root : Json) :
    (authNotification J db root).toOption.toList.length =
      (acceptRequest J root).toOption.toList.length := by
  unfold authNotification acceptRequest
  rcases root.getInt "fromuid" with _ | fromuid
  · rfl
  · rcases root.getInt "touid" with _ | touid
    · rfl
    · rcases root.getString J "alias_name" with _ | alias_name <;> rfl

/-- One notification for each request. -/
theorem notifications_length (J : JsonCpp) (node : LogicNode) (db : Database) :
    (node.notifications J db).length = (node.friendRequest J).toList.length := by
  unfold LogicNode.notifications LogicNode.friendRequest
  dsimp only
  split
  · exact addNotification_length ..
  · split
    · exact authNotification_length ..
    · rfl

/-- **The two ways are one.** Whatever the message, the two tables and the users are, and whatever
profiles agreeing with the users the caches hold: the user who is notified gets the same message, if
the request has the members it needs, whether the routing key names the handler's server or a peer. -/
theorem location_transparent {J : JsonCpp} {pools : Pools} {S T : ServerName} {s t : SessId}
    {f g : Fleet} (hdb : g.database = f.database) (hne : T ≠ S) (hpool : pools S T.val = some T)
    (hJ : J.ReadsBackAll f.database.users)
    (htext : ∀ uid user, f.database.users.getUserInfo uid = some user →
      (0 : UInt8) ∉ user.icon ∧ (0 : UInt8) ∉ user.nick)
    (hf : f.redis.Coherent J f.database.users) (hg : g.redis.Coherent J f.database.users)
    (node : LogicNode) (hid : node.recvNode.msgId = MsgIds.addFriendReq.id ∨
      node.recvNode.msgId = MsgIds.authFriendReq.id)
    (hhere : ∀ q, node.friendRequest J = some q → f.Online q.notified S s)
    (hthere : ∀ q, node.friendRequest J = some q → g.Online q.notified T t) :
    ∃ frames, frames.length = (node.friendRequest J).toList.length ∧
      Notifies f S s frames S node.session (f.handle J pools S node) ∧
      Notifies g T t frames S node.session (g.handle J pools S node) := by
  refine ⟨node.notifications J f.database, notifications_length J node f.database, ?_, ?_⟩
  · exact ends_dispatch (Or.inl rfl) hJ hf node hid htext hhere
  · rw [← hdb] at hJ hg htext ⊢
    exact ends_dispatch (Or.inr ⟨hne, hpool⟩) hJ hg node hid htext hthere

/-! ### A friend request -/

/-- The request of the user 7 and the texts of the user's profile. -/
def annApplies : JsonCpp :=
  .ofTable [(applyText, .obj [(lit "alias_name", .str (lit "a")), (lit "apply_name", .str (lit "n")),
      (lit "touid", .int 8), (lit "uid", .int 7)]),
    ((JsonCpp.ofTable []).toStyledString annProfile, annProfile),
    ((JsonCpp.ofTable []).fastWrite annProfile, annProfile)]

def s2 : ServerName := ⟨lit "s2", by decide⟩

/-- The user 8 is on this server, with the session 1. -/
def userAt (S : ServerName) : Fleet where
  redis := Redis.empty.set (ipKey 8) S.val
  database := annDatabase
  proc := update (fun _ => .init) S hasUser
  sent := []

def namesPeer : Pools := fun _ server_ip => if server_ip = s2.val then some s2 else none

theorem userAt_database (S : ServerName) : (userAt S).database = annDatabase := rfl

theorem userAt_coherent (S : ServerName) : (userAt S).redis.Coherent annApplies annTable := by
  have hempty : Redis.empty.Coherent annApplies annTable :=
    ⟨fun _ _ h => (nomatch h), fun _ _ h => (nomatch h)⟩
  exact hempty.set (storesProfile_ipKey 8 S.val)

theorem userAt_online (S : ServerName) : (userAt S).Online 8 S 1 := by
  constructor
  · have hroute := congrFun (Redis.route_set Redis.empty S 8) 8
    rw [update_self] at hroute
    exact hroute
  · show (update (fun _ => Proc.init) S hasUser S).uidToSession 8 = some 1
    rw [update_self]
    rfl

theorem annApplies_readsBack : annApplies.ReadsBackAll annTable := by
  intro uid user hu
  obtain ⟨row, hrow, -, rfl⟩ := UserTable.exists_row hu
  obtain rfl := List.mem_singleton.mp hrow
  exact ⟨rfl, by decide +kernel, rfl, by decide +kernel⟩

theorem annTable_texts (uid : Int) (user : UserInfo) (hu : annTable.getUserInfo uid = some user) :
    (0 : UInt8) ∉ user.icon ∧ (0 : UInt8) ∉ user.nick := by
  obtain ⟨row, hrow, -, rfl⟩ := UserTable.exists_row hu
  obtain rfl := List.mem_singleton.mp hrow
  decide

theorem applies_request : applies.friendRequest annApplies = some (.add 7 8 (lit "a")) := by
  decide +kernel

theorem applies_notified (q : FriendRequest) (h : applies.friendRequest annApplies = some q) :
    q.notified = 8 := by
  rw [applies_request] at h
  cases h
  rfl

/-- The user 7 applies to the user 8. -/
theorem location_request : applies.friendRequest annApplies = some (.add 7 8 (lit "a")) ∧
    ∃ frames, frames.length = (applies.friendRequest annApplies).toList.length ∧
      Notifies (userAt s1) s1 1 frames s1 applies.session
        ((userAt s1).handle annApplies namesPeer s1 applies) ∧
      Notifies (userAt s2) s2 1 frames s1 applies.session
        ((userAt s2).handle annApplies namesPeer s1 applies) :=
  ⟨applies_request, location_transparent (f := userAt s1) (g := userAt s2) (T := s2)
    ((userAt_database s2).trans (userAt_database s1).symm) (by decide) rfl annApplies_readsBack
    annTable_texts (userAt_coherent s1) (userAt_coherent s2) applies (Or.inl rfl)
    (fun q hq => applies_notified q hq ▸ userAt_online s1)
    (fun q hq => applies_notified q hq ▸ userAt_online s2)⟩

end ChatServer
