import ChatServer.LogicSystem

/-!
# The calls that the handlers can make

Which calls a handler can make for a message, whatever the answers to its calls are
(`dispatch_calls`). What the later files say about all handlers at once is read off from here.
-/

namespace ChatServer

open Interaction Prog Handler Bytes

namespace LogicSystem

variable {J : JsonCpp}

/-! ## Profiles -/

/-- The calls that read a user's profile from the database and store it in the cache. -/
inductive CacheCall : Call → Prop where
  | user (uid : Int) : CacheCall (.getUserInfo uid)
  | base (uid_str value : Bytes) : CacheCall (.set (RedisPrefix.userBaseInfo ++ uid_str) value)
  | name (name value : Bytes) : CacheCall (.set (RedisPrefix.userNameInfo ++ name) value)

theorem cacheProfile_calls (uid_str name cache_json : Bytes) :
    (cacheProfile (RedisPrefix.userBaseInfo ++ uid_str) name cache_json).run.Uses CacheCall := by
  refine uses_ask (.base uid_str cache_json) fun _ => ?_
  split
  · exact uses_pure _
  · exact uses_ask (.name name cache_json) fun _ => uses_pure _

theorem getBaseInfo_calls (uid_str : Bytes) (uid : Int) :
    (getBaseInfo J (RedisPrefix.userBaseInfo ++ uid_str) uid).run.Uses CacheCall := by
  refine uses_ask (.user uid) fun db_user => ?_
  cases db_user with
  | none => exact uses_pure _
  | some user => exact uses_bind (cacheProfile_calls _ _ _) fun _ => uses_pure _

/-! ## Login -/

/-- The calls of `loginHandler` before it replies. -/
inductive LoginCall (self : ServerName) (session : SessId) (uid : Int) : Call → Prop where
  | token : LoginCall self session uid (.get (tokenKey uid))
  | cache {c : Call} : CacheCall c → LoginCall self session uid c
  | applyList : LoginCall self session uid (.getApplyList uid 0 10)
  | friendList : LoginCall self session uid (.getFriendList uid)
  | read : LoginCall self session uid (.hGet RedisPrefix.loginCount self.val)
  | count (value : Bytes) : LoginCall self session uid (.hSet RedisPrefix.loginCount self.val value)
  | bind : LoginCall self session uid (.setUserId session uid)
  | route : LoginCall self session uid (.set (ipKey uid) self.val)
  | register : LoginCall self session uid (.setUserSession uid session)

theorem login_calls (self : ServerName) (session : SessId) (uid : Int) (token : Bytes) :
    (login J self session uid token).run.Uses (LoginCall self session uid) := by
  refine uses_ask .token fun token_value => ?_
  cases token_value with
  | none => exact uses_pure _
  | some token_value =>
    dsimp only
    split
    · exact uses_pure _
    · refine uses_bind ((getBaseInfo_calls _ uid).mono fun _ => .cache) fun user_info => ?_
      cases user_info with
      | none => exact uses_pure _
      | some user_info =>
        refine uses_ask .applyList fun apply => uses_ask .friendList fun friends => ?_
        refine uses_bind ?_ fun _ => uses_pure _
        refine uses_ask .read fun rd_res => uses_lift fun count => ?_
        exact uses_ask (.count _) fun _ => uses_ask .bind fun _ => uses_ask .route fun _ =>
          uses_ask_last .register

/-! ## Searching users -/

/-- The calls of `searchUserHandler` before it replies. -/
inductive SearchCall : Call → Prop where
  | get (key : Bytes) : SearchCall (.get key)
  | byName (name : Bytes) : SearchCall (.getUserInfoByName name)
  | cache {c : Call} : CacheCall c → SearchCall c

theorem getUserByUid_calls (uid_str : Bytes) :
    (getUserByUid J uid_str).run.Uses SearchCall := by
  refine uses_ask (.get _) fun info_str => ?_
  cases info_str with
  | some info_str => exact uses_lift_last
  | none =>
    refine uses_lift fun uid => uses_ask (.cache (.user uid)) fun user_info => ?_
    cases user_info with
    | none => exact uses_pure _
    | some user =>
      exact uses_bind ((cacheProfile_calls _ _ _).mono fun _ => .cache) fun _ => uses_pure _

theorem getUserByName_calls (name_str : Bytes) :
    (getUserByName J name_str).run.Uses SearchCall := by
  refine uses_ask (.get _) fun info_str => ?_
  cases info_str with
  | some info_str => exact uses_lift_last
  | none =>
    refine uses_ask (.byName name_str) fun user_info => ?_
    cases user_info with
    | none => exact uses_pure _
    | some user =>
      exact uses_bind ((cacheProfile_calls _ _ _).mono fun _ => .cache) fun _ => uses_pure _

theorem searchUser_calls (msg_data : Bytes) : (searchUser J msg_data).run.Uses SearchCall := by
  unfold searchUser
  dsimp only
  split
  · exact uses_pure _
  · refine uses_lift fun b_uid => ?_
    split
    · exact uses_pure _
    · refine uses_lift fun uid_str => ?_
      split
      · exact getUserByUid_calls uid_str
      · exact getUserByName_calls uid_str

/-! ## Friend requests -/

/-- The calls of `addFriendHandler` before it replies. -/
inductive AddFriendCall (J : JsonCpp) (uid touid : Int) (name alias_name : Bytes) : Call → Prop where
  | apply : AddFriendCall J uid touid name alias_name (.addFriendApply uid touid alias_name)
  | route : AddFriendCall J uid touid name alias_name (.get (ipKey touid))
  | cache {c : Call} : CacheCall c → AddFriendCall J uid touid name alias_name c
  | session : AddFriendCall J uid touid name alias_name (.getSession touid)
  | notify (s : SessId) (apply_info : Option UserInfo) :
      AddFriendCall J uid touid name alias_name
        (.send s (J.toStyledString (addFriendNotify uid name alias_name apply_info))
          MsgIds.notifyAddFriendReq.id)
  | peer (server_ip : Bytes) (apply_info : Option UserInfo) :
      AddFriendCall J uid touid name alias_name
        (.notifyAddFriend server_ip (addFriendReq uid touid name alias_name apply_info))

theorem routeAddFriend_calls (self : ServerName) (uid touid : Int) (name alias_name : Bytes) :
    (routeAddFriend J self uid touid name alias_name).run.Uses
      (AddFriendCall J uid touid name alias_name) := by
  refine uses_ask .route fun to_ip_value => ?_
  cases to_ip_value with
  | none => exact uses_pure _
  | some to_ip_value =>
    refine uses_bind ((getBaseInfo_calls _ uid).mono fun _ => .cache) fun apply_info => ?_
    split
    · refine uses_ask .session fun to_user_session => ?_
      cases to_user_session with
      | none => exact uses_pure _
      | some s => exact uses_ask_last (.notify s apply_info)
    · exact uses_ask (.peer _ _) fun _ => uses_pure _

/-- The calls of `authFriendHandler` before it replies. -/
inductive AuthFriendCall (J : JsonCpp) (applicant_uid accepter_uid : Int) (alias_name : Bytes) :
    Call → Prop where
  | cache {c : Call} : CacheCall c → AuthFriendCall J applicant_uid accepter_uid alias_name c
  | applyAlias : AuthFriendCall J applicant_uid accepter_uid alias_name
      (.getFriendApplyAlias applicant_uid accepter_uid)
  | accept : AuthFriendCall J applicant_uid accepter_uid alias_name
      (.authFriendApply applicant_uid accepter_uid)
  | add (apply_alias : Bytes) : AuthFriendCall J applicant_uid accepter_uid alias_name
      (.addFriend applicant_uid accepter_uid apply_alias alias_name)
  | friendAlias : AuthFriendCall J applicant_uid accepter_uid alias_name
      (.getFriendAlias applicant_uid accepter_uid)
  | route : AuthFriendCall J applicant_uid accepter_uid alias_name (.get (ipKey applicant_uid))
  | session : AuthFriendCall J applicant_uid accepter_uid alias_name (.getSession applicant_uid)
  | notify (s : SessId) (peer_alias : Bytes) (peer_info : Option UserInfo) :
      AuthFriendCall J applicant_uid accepter_uid alias_name
        (.send s
          (J.toStyledString (authFriendNotify applicant_uid accepter_uid peer_alias peer_info))
          MsgIds.notifyAuthFriendReq.id)
  | peer (server_ip : Bytes) : AuthFriendCall J applicant_uid accepter_uid alias_name
      (.notifyAuthFriend server_ip { fromuid := accepter_uid, touid := applicant_uid })

theorem routeAuthFriend_calls (self : ServerName) (applicant_uid accepter_uid : Int)
    (alias_name peer_alias : Bytes) :
    (routeAuthFriend J self applicant_uid accepter_uid peer_alias).run.Uses
      (AuthFriendCall J applicant_uid accepter_uid alias_name) := by
  refine uses_ask .route fun to_ip_value => ?_
  cases to_ip_value with
  | none => exact uses_pure _
  | some to_ip_value =>
    dsimp only
    split
    · refine uses_ask .session fun peer_session => ?_
      cases peer_session with
      | none => exact uses_pure _
      | some s =>
        refine uses_bind ((getBaseInfo_calls _ _).mono fun _ => .cache) fun peer_info => ?_
        exact uses_ask_last (.notify s peer_alias peer_info)
    · exact uses_ask (.peer _) fun _ => uses_pure _

/-! ## Text messages -/

/-- The calls of `chatTextMsgHandler` before it replies. -/
inductive TextChatCall (J : JsonCpp) (fromuid touid : Int) (text_array : Json) : Call → Prop where
  | route : TextChatCall J fromuid touid text_array (.get (ipKey touid))
  | session : TextChatCall J fromuid touid text_array (.getSession touid)
  | deliver (s : SessId) : TextChatCall J fromuid touid text_array
      (.send s (J.toStyledString (textChatReply fromuid touid text_array))
        MsgIds.textChatMsgRsp.id)
  | peer (server_ip : Bytes) (textmsgs : List TextChatData) :
      textChatDatas J text_array = .ok textmsgs →
      TextChatCall J fromuid touid text_array
        (.notifyTextChatMsg server_ip { fromuid := fromuid, touid := touid, textmsgs := textmsgs })

theorem routeTextChatMsg_calls (self : ServerName) (fromuid touid : Int) (text_array : Json) :
    (routeTextChatMsg J self fromuid touid text_array).run.Uses
      (TextChatCall J fromuid touid text_array) := by
  refine uses_ask .route fun to_ip_value => ?_
  cases to_ip_value with
  | none => exact uses_pure _
  | some to_ip_value =>
    dsimp only
    split
    · refine uses_ask .session fun session => ?_
      cases session with
      | none => exact uses_pure _
      | some s => exact uses_ask_last (.deliver s)
    · exact uses_lift_ok fun textmsgs h => uses_ask (.peer _ textmsgs h) fun _ => uses_pure _

/-! ## All handlers -/

/-- The calls that can be made for a message with a given id and the value parsed from its body. -/
inductive HandlerCall (J : JsonCpp) (self : ServerName) (session : SessId) (root : Json) :
    Int → Call → Prop where
  | login {uid : Int} {c : Call} : LoginCall self session uid c →
      HandlerCall J self session root MsgIds.chatLogin.id c
  | loginReply (msg : Bytes) :
      HandlerCall J self session root MsgIds.chatLogin.id (.send session msg MsgIds.chatLoginRsp.id)
  | search {c : Call} : SearchCall c → HandlerCall J self session root MsgIds.searchUserReq.id c
  | searchReply (msg : Bytes) : HandlerCall J self session root MsgIds.searchUserReq.id
      (.send session msg MsgIds.searchUserRsp.id)
  | addFriend {uid touid : Int} {name alias_name : Bytes} {c : Call} :
      root.getInt "uid" = .ok uid → AddFriendCall J uid touid name alias_name c →
      HandlerCall J self session root MsgIds.addFriendReq.id c
  | addFriendReply {uid : Int} (msg : Bytes) : root.getInt "uid" = .ok uid →
      HandlerCall J self session root MsgIds.addFriendReq.id
        (.send session msg MsgIds.addFriendRsp.id)
  | authFriend {applicant_uid accepter_uid : Int} {alias_name : Bytes} {c : Call} :
      root.getInt "fromuid" = .ok applicant_uid → root.getInt "touid" = .ok accepter_uid →
      AuthFriendCall J applicant_uid accepter_uid alias_name c →
      HandlerCall J self session root MsgIds.authFriendReq.id c
  | authFriendReply {accepter_uid : Int} (msg : Bytes) : root.getInt "touid" = .ok accepter_uid →
      HandlerCall J self session root MsgIds.authFriendReq.id
        (.send session msg MsgIds.authFriendRsp.id)
  | textChat {fromuid touid : Int} {text_array : Json} {c : Call} :
      root.getInt "fromuid" = .ok fromuid → TextChatCall J fromuid touid text_array c →
      HandlerCall J self session root MsgIds.textChatMsgReq.id c
  | textChatReply {fromuid touid : Int} {text_array : Json} :
      root.getInt "fromuid" = .ok fromuid →
      HandlerCall J self session root MsgIds.textChatMsgReq.id
        (.send session (J.toStyledString (textChatReply fromuid touid text_array))
          MsgIds.textChatMsgRsp.id)

section Handlers

variable (self : ServerName) (session : SessId) (msg_data : Bytes)

theorem loginHandler_calls : (loginHandler J self session msg_data).run.Uses
    (HandlerCall J self session (J.parse msg_data).2 MsgIds.chatLogin.id) := by
  refine uses_lift fun uid => uses_lift fun token => ?_
  refine uses_bind ((login_calls self session uid token).mono fun _ => .login) fun v => ?_
  exact uses_ask_last (.loginReply _)

theorem searchUserHandler_calls : (searchUserHandler J session msg_data).run.Uses
    (HandlerCall J self session (J.parse msg_data).2 MsgIds.searchUserReq.id) := by
  refine uses_bind ((searchUser_calls msg_data).mono fun _ => .search) fun v => ?_
  exact uses_ask_last (.searchReply _)

theorem addFriendHandler_calls : (addFriendHandler J self session msg_data).run.Uses
    (HandlerCall J self session (J.parse msg_data).2 MsgIds.addFriendReq.id) := by
  refine uses_lift_ok fun uid huid => uses_lift fun name => uses_lift fun alias_name =>
    uses_lift fun touid => ?_
  have hcall : ∀ c, AddFriendCall J uid touid name alias_name c →
      HandlerCall J self session (J.parse msg_data).2 MsgIds.addFriendReq.id c :=
    fun _ => .addFriend huid
  refine uses_ask (hcall _ .apply) fun _ => ?_
  refine uses_bind ((routeAddFriend_calls self uid touid name alias_name).mono hcall) fun _ => ?_
  exact uses_ask_last (.addFriendReply _ huid)

theorem authFriendHandler_calls : (authFriendHandler J self session msg_data).run.Uses
    (HandlerCall J self session (J.parse msg_data).2 MsgIds.authFriendReq.id) := by
  refine uses_lift_ok fun applicant_uid hfrom => uses_lift_ok fun accepter_uid huid =>
    uses_lift fun alias_name => ?_
  have hcall : ∀ c, AuthFriendCall J applicant_uid accepter_uid alias_name c →
      HandlerCall J self session (J.parse msg_data).2 MsgIds.authFriendReq.id c :=
    fun _ => .authFriend hfrom huid
  refine uses_bind ((getBaseInfo_calls _ _).mono fun _ h => hcall _ (.cache h)) fun user_info => ?_
  refine uses_ask (hcall _ .applyAlias) fun apply_alias => uses_ask (hcall _ .accept) fun _ =>
    uses_ask (hcall _ (.add _)) fun _ => uses_ask (hcall _ .friendAlias) fun peer_alias => ?_
  refine uses_bind ((routeAuthFriend_calls self _ _ alias_name peer_alias.2).mono hcall) fun _ => ?_
  exact uses_ask_last (.authFriendReply _ huid)

theorem chatTextMsgHandler_calls : (chatTextMsgHandler J self session msg_data).run.Uses
    (HandlerCall J self session (J.parse msg_data).2 MsgIds.textChatMsgReq.id) := by
  unfold chatTextMsgHandler
  dsimp only
  split
  · exact uses_pure _
  · refine uses_lift_ok fun fromuid hfrom => uses_lift fun touid => uses_lift fun text_array => ?_
    refine uses_bind ((routeTextChatMsg_calls self fromuid touid text_array).mono fun _ =>
      .textChat hfrom) fun _ => ?_
    exact uses_ask_last (.textChatReply hfrom)

end Handlers

/-- **Every call that is made for a message is one of its handler's.** -/
theorem dispatch_calls (J : JsonCpp) (self : ServerName) (node : LogicNode) :
    (dispatch J self node).run.Uses
      (HandlerCall J self node.session (J.parse node.recvNode.text).2 node.recvNode.msgId) := by
  unfold dispatch callback
  generalize node.recvNode.msgId = msg_id
  split
  · exact uses_pure _
  · rename_i handler hcb
    split at hcb
    · rename_i hid
      cases hcb
      exact hid ▸ loginHandler_calls self node.session _
    · split at hcb
      · rename_i hid
        cases hcb
        exact hid ▸ searchUserHandler_calls self node.session _
      · split at hcb
        · rename_i hid
          cases hcb
          exact hid ▸ addFriendHandler_calls self node.session _
        · split at hcb
          · rename_i hid
            cases hcb
            exact hid ▸ authFriendHandler_calls self node.session _
          · split at hcb
            · rename_i hid
              cases hcb
              exact hid ▸ chatTextMsgHandler_calls self node.session _
            · cases hcb

end LogicSystem

/-! ## The I/O thread -/

/-- The calls of the callbacks: on sessions, the login count, `UserMgr`, and the tables of messages and
sessions. -/
def Call.ofSession : Call → Bool
  | .hGet _ _ => true
  | .hSet _ _ _ => true
  | .removeUserSession _ => true
  | .bClose _ => true
  | .setBClose _ => true
  | .getUserId _ => true
  | .setUserId _ _ => true
  | .socketClose _ => true
  | .data _ => true
  | .clearData _ => true
  | .recvNode _ => true
  | .setRecvNode _ _ => true
  | .asyncReadSome _ _ => true
  | .postMsgToQue _ => true
  | .addSession _ => true
  | .clearSession _ => true
  | _ => false

abbrev OfSession {α : Type} (p : Io α) : Prop := p.Uses fun c : Call => c.ofSession = true

namespace CSession

variable (self : ServerName) (s : SessId)

theorem catchStd_calls {h : Handler Unit} (hh : OfSession h.run) : OfSession (catchStd h) :=
  Uses.bind hh fun _ => trivial

theorem unbind_calls (user_uid : Int) : OfSession (unbind self s user_uid).run := by
  unfold unbind
  split
  · refine uses_ask rfl ?_
    intro rd_res
    refine uses_lift ?_
    intro count
    refine uses_ask rfl ?_
    intro _
    refine uses_ask rfl ?_
    intro uid
    refine uses_ask rfl ?_
    intro _
    exact uses_ask_last rfl
  · exact uses_pure _

theorem drop_calls : OfSession (drop self s).run := by
  refine uses_bind ?_ (fun _ => uses_ask_last rfl)
  refine uses_ask rfl ?_
  intro b_close
  split
  · exact uses_pure _
  · refine uses_ask rfl ?_
    intro user_uid
    refine uses_bind (unbind_calls self s user_uid) ?_
    intro _
    refine uses_ask rfl ?_
    intro res
    exact uses_lift fun _ => uses_ask_last rfl

theorem asyncReadFull_calls (max_length : Nat) (handler : ReadHandler) :
    OfSession (asyncReadFull s max_length handler) :=
  ⟨rfl, fun _ => ⟨rfl, fun _ => trivial⟩⟩

theorem acceptHead_calls (data : Bytes) : OfSession (acceptHead s data).run := by
  unfold acceptHead
  split
  · exact uses_ask_last rfl
  · split
    · exact uses_ask_last rfl
    · refine uses_lift ?_
      intro node
      refine uses_ask rfl ?_
      intro _
      exact Uses.bind (asyncReadFull_calls s _ _) fun _ => trivial

theorem acceptBody_calls (bytes_transfered : Nat) :
    OfSession (acceptBody s bytes_transfered).run := by
  refine uses_ask rfl ?_
  intro data
  refine uses_ask rfl ?_
  intro recv_msg_node
  rcases recv_msg_node with _ | node
  · exact uses_pure _
  · refine uses_ask rfl ?_
    intro _
    refine uses_ask rfl ?_
    intro _
    exact Uses.bind (asyncReadFull_calls s _ _) fun _ => trivial

theorem handle_calls (ec : Bool) (bytes_transfered : Nat) (handler : ReadHandler) :
    OfSession (handle self s ec bytes_transfered handler) := by
  rcases handler with _ | total_len
  · refine catchStd_calls ?_
    split
    · exact drop_calls self s
    · split
      · exact drop_calls self s
      · exact uses_ask rfl fun data => acceptHead_calls s data
  · refine catchStd_calls ?_
    split
    · exact drop_calls self s
    · split
      · exact drop_calls self s
      · exact acceptBody_calls s bytes_transfered

theorem readCallback_calls (p : PendingRead) (ec : Bool) (bytes_transfered : Nat) :
    OfSession (readCallback self s p ec bytes_transfered) := by
  unfold readCallback
  split
  · exact handle_calls self s ec _ _
  · split
    · exact handle_calls self s ec _ _
    · exact ⟨rfl, fun _ => trivial⟩

end CSession

theorem handleAccept_calls (s : SessId) : OfSession (handleAccept s) :=
  (CSession.asyncReadFull_calls s _ _).bind fun _ => ⟨rfl, fun _ => trivial⟩

end ChatServer
