import ChatServer.Session

/-!
# The logic worker

`application/LogicSystem.cpp`: the five handlers that the worker thread runs on the messages taken
from its queue.

The deferred reply of a handler is sent when the handler returns. When an exception leaves the
handler there is no reply: `dealMsg` has no `try` block, so nothing on the worker thread catches it
and the process is terminated without unwinding.
-/

namespace ChatServer

open Interaction Prog Decimal Word Handler Bytes

/-! ## Members and replies -/

namespace Json

/-- `root[key].asInt()`. -/
def getInt (root : Json) (key : String) : Except Exn Int := do
  let v ← root.member key
  v.asInt

/-- `root[key].asString()`. -/
def getString (J : JsonCpp) (root : Json) (key : String) : Except Exn Bytes := do
  let v ← root.member key
  v.asString J

/-- A reply that carries only its `error`. -/
def errorReply (code : ErrorCodes) : Json := null.set "error" (.int code.code)

/-- The eight members of a user's profile, as the cache holds them. -/
def setProfile (root : Json) (user_info : UserInfo) : Json :=
  root.set "uid" (.int user_info.uid)
    |>.set "name" (.str user_info.name)
    |>.set "pwd" (.str user_info.pwd)
    |>.set "email" (.str user_info.email)
    |>.set "nick" (.str user_info.nick)
    |>.set "desc" (.str user_info.desc)
    |>.set "sex" (.int user_info.sex)
    |>.set "icon" (.str user_info.icon)

/-- Reading the eight members of a cached profile. -/
def getProfile (J : JsonCpp) (root : Json) : Except Exn UserInfo := do
  let uid ← root.getInt "uid"
  let name ← root.getString J "name"
  let pwd ← root.getString J "pwd"
  let email ← root.getString J "email"
  let nick ← root.getString J "nick"
  let desc ← root.getString J "desc"
  let sex ← root.getInt "sex"
  let icon ← root.getString J "icon"
  pure { uid := uid, name := name, pwd := pwd, email := email, nick := nick, desc := desc,
         sex := sex, icon := icon }

end Json

/-- An element of `apply_list` in a login reply. -/
def applyJson (apply : ApplyInfo) : Json :=
  Json.null.set "name" (.str apply.name)
    |>.set "uid" (.int apply.uid)
    |>.set "icon" (.str apply.icon)
    |>.set "nick" (.str apply.nick)
    |>.set "sex" (.int apply.sex)
    |>.set "status" (.int apply.status)
    |>.set "alias_name" (.str apply.aliasName)

/-- An element of `friend_list` in a login reply. -/
def friendJson (friend_element : UserInfo) : Json :=
  Json.null.set "name" (.str friend_element.name)
    |>.set "uid" (.int friend_element.uid)
    |>.set "icon" (.str friend_element.icon)
    |>.set "nick" (.str friend_element.nick)
    |>.set "sex" (.int friend_element.sex)
    |>.set "desc" (.str friend_element.desc)
    |>.set "alias_name" (.str friend_element.aliasName)

namespace LogicSystem

/-! ## Profiles -/

/-- Store a profile text under the user's uid key and, when the user has a name, under the name
key. -/
def cacheProfile (base_key name cache_json : Bytes) : Handler Unit := do
  let _ ← ask (.set base_key cache_json)
  if name = [] then
    pure ()
  else
    let _ ← ask (.set (RedisPrefix.userNameInfo ++ name) cache_json)
    pure ()

/-- `LogicSystem::getBaseInfo`. -/
def getBaseInfo (J : JsonCpp) (base_key : Bytes) (uid : Int) : Handler (Option UserInfo) := do
  let db_user ← ask (.getUserInfo uid)
  match db_user with
  | none => pure none
  | some db_user =>
    -- a user without a nickname goes by the name
    let user_info := if db_user.nick = [] then { db_user with nick := db_user.name } else db_user
    cacheProfile base_key user_info.name (J.fastWrite (Json.null.setProfile user_info))
    pure (some user_info)

/-- `LogicSystem::getFriendApplyInfo`. The list is read from its beginning, ten entries at most. -/
def getFriendApplyInfo (touid : Int) : Handler (Bool × List ApplyInfo) :=
  ask (.getApplyList touid 0 10)

/-- `LogicSystem::getFriendList`. -/
def getFriendList (uid : Int) : Handler (Bool × List UserInfo) := ask (.getFriendList uid)

/-! ## Login -/

/-- The part of `loginHandler` that counts the login and binds the session to the user. -/
def bindUser (self : ServerName) (session : SessId) (uid : Int) : Handler Unit := do
  -- the count is read and written by two commands, and `_b_close` is not looked at
  let rd_res ← ask (.hGet RedisPrefix.loginCount self.val)
  let count ← readCount rd_res
  let _ ← ask (.hSet RedisPrefix.loginCount self.val (renderInt (toInt (count + 1))))
  let _ ← ask (.setUserId session uid)
  let _ ← ask (.set (ipKey uid) self.val)
  ask (.setUserSession uid session)

/-- The reply to a successful login. -/
def loginReply (uid : Int) (user_info : UserInfo) (b_apply : Bool) (apply_list : List ApplyInfo)
    (friend_list : List UserInfo) : Json :=
  let return_value := (Json.errorReply .success).setProfile { user_info with uid := uid }
  let return_value :=
    if b_apply then
      apply_list.foldl (fun v apply => v.appendTo "apply_list" (applyJson apply)) return_value
    else return_value
  -- the friends are listed whatever `getFriendList` has returned
  friend_list.foldl (fun v element => v.appendTo "friend_list" (friendJson element)) return_value

/-- `loginHandler` after the request has been parsed: the value of the reply. -/
def login (J : JsonCpp) (self : ServerName) (session : SessId) (uid : Int) (token : Bytes) :
    Handler Json := do
  let token_value ← ask (.get (tokenKey uid))
  match token_value with
  | none => pure (Json.errorReply .uidInvalid)
  | some token_value =>
    if token_value ≠ token then
      pure (Json.errorReply .tokenInvalid)
    else
      let user_info ← getBaseInfo J (baseKey uid) uid
      match user_info with
      | none => pure (Json.errorReply .uidInvalid)
      | some user_info =>
        let apply ← getFriendApplyInfo uid
        let friends ← getFriendList uid
        bindUser self session uid
        pure (loginReply uid user_info apply.1 apply.2 friends.2)

/-- `LogicSystem::loginHandler`. -/
def loginHandler (J : JsonCpp) (self : ServerName) (session : SessId) (msg_data : Bytes) :
    Handler Unit := do
  let root := (J.parse msg_data).2
  let uid ← root.getInt "uid"
  let token ← root.getString J "token"
  let return_value ← login J self session uid token
  ask (.send session (J.toStyledString return_value) MsgIds.chatLoginRsp.id)

/-! ## Searching users -/

/-- The reply made of a cached profile. -/
def profileReply (J : JsonCpp) (info_str : Bytes) : Except Exn Json := do
  let user_info ← (J.parse info_str).2.getProfile J
  pure ((Json.errorReply .success).setProfile user_info)

/-- `LogicSystem::getUserByUid`. A user found in the database is cached, and the reply has no
profile. -/
def getUserByUid (J : JsonCpp) (uid_str : Bytes) : Handler Json := do
  let base_key := RedisPrefix.userBaseInfo ++ uid_str
  let info_str ← ask (.get base_key)
  match info_str with
  | some info_str => profileReply J info_str
  | none =>
    -- only a uid that is not cached is converted
    let uid ← stoi uid_str
    let user_info ← ask (.getUserInfo uid)
    match user_info with
    | none => pure (Json.errorReply .uidInvalid)
    | some user_info =>
      cacheProfile base_key user_info.name (J.toStyledString (Json.null.setProfile user_info))
      pure (Json.errorReply .success)

/-- `LogicSystem::getUserByName`. -/
def getUserByName (J : JsonCpp) (name_str : Bytes) : Handler Json := do
  let info_str ← ask (.get (RedisPrefix.userNameInfo ++ name_str))
  match info_str with
  | some info_str => profileReply J info_str
  | none =>
    let user_info ← ask (.getUserInfoByName name_str)
    match user_info with
    | none => pure (Json.errorReply .uidInvalid)
    | some user_info =>
      cacheProfile (baseKey user_info.uid) user_info.name
        (J.toStyledString (Json.null.setProfile user_info))
      pure (Json.errorReply .success)

/-- `searchUserHandler`: the value of the reply. -/
def searchUser (J : JsonCpp) (msg_data : Bytes) : Handler Json := do
  let parsed := J.parse msg_data
  if parsed.1 = false then
    pure (Json.errorReply .errorJson)
  else
    let root := parsed.2
    let b_uid ← root.isMember "uid"
    if b_uid = false then
      pure (Json.errorReply .errorJson)
    else
      let uid_str ← root.getString J "uid"
      -- a number is looked up as a uid, anything else as a name
      if (root.lookup (lit "uid")).isInt then getUserByUid J uid_str else getUserByName J uid_str

/-- `LogicSystem::searchUserHandler`. -/
def searchUserHandler (J : JsonCpp) (session : SessId) (msg_data : Bytes) : Handler Unit := do
  let result ← searchUser J msg_data
  ask (.send session (J.toStyledString result) MsgIds.searchUserRsp.id)

/-! ## Friend requests -/

/-- The notification of a friend request to a user of this server. -/
def addFriendNotify (uid : Int) (name alias_name : Bytes) (apply_info : Option UserInfo) : Json :=
  let info := apply_info.getD {}
  (Json.errorReply .success).set "applyuid" (.int uid)
    |>.set "name" (.str name)
    |>.set "desc" (.str [])
    |>.set "icon" (.str info.icon)
    |>.set "nick" (.str info.nick)
    |>.set "sex" (.int info.sex)
    |>.set "alias_name" (.str alias_name)

/-- The request that carries the notification of a friend request to another server. -/
def addFriendReq (uid touid : Int) (name alias_name : Bytes) (apply_info : Option UserInfo) :
    AddFriendReq :=
  let info := apply_info.getD {}
  { applyuid := uid, name := name, desc := [], touid := touid, icon := cstr info.icon,
    nick := cstr info.nick, sex := info.sex, aliasName := alias_name }

/-- `addFriendHandler` from the lookup of the routing key on. -/
def routeAddFriend (J : JsonCpp) (self : ServerName) (uid touid : Int) (name alias_name : Bytes) :
    Handler Unit := do
  let to_ip_value ← ask (.get (ipKey touid))
  match to_ip_value with
  | none => pure ()
  | some to_ip_value =>
    -- the applicant's profile, for either way
    let apply_info ← getBaseInfo J (baseKey uid) uid
    if to_ip_value = self.val then
      let to_user_session ← ask (.getSession touid)
      match to_user_session with
      | none => pure ()
      | some to_user_session =>
        ask (.send to_user_session
          (J.toStyledString (addFriendNotify uid name alias_name apply_info))
          MsgIds.notifyAddFriendReq.id)
    else
      let _ ← ask (.notifyAddFriend to_ip_value (addFriendReq uid touid name alias_name apply_info))
      pure ()

/-- `LogicSystem::addFriendHandler`. -/
def addFriendHandler (J : JsonCpp) (self : ServerName) (session : SessId) (msg_data : Bytes) :
    Handler Unit := do
  let root := (J.parse msg_data).2
  let uid ← root.getInt "uid"
  let name ← root.getString J "apply_name"
  let alias_name ← root.getString J "alias_name"
  let touid ← root.getInt "touid"
  -- the result is not looked at, and the reply is a success
  let _ ← ask (.addFriendApply uid touid alias_name)
  routeAddFriend J self uid touid name alias_name
  ask (.send session (J.toStyledString (Json.errorReply .success)) MsgIds.addFriendRsp.id)

/-- The reply to the user who accepts a request: the applicant's profile. -/
def authFriendReply (applicant_uid : Int) (alias_name : Bytes) (user_info : Option UserInfo) :
    Json :=
  match user_info with
  | none => Json.errorReply .uidInvalid
  | some user_info =>
    (Json.errorReply .success).set "name" (.str user_info.name)
      |>.set "nick" (.str user_info.nick)
      |>.set "icon" (.str user_info.icon)
      |>.set "sex" (.int user_info.sex)
      |>.set "uid" (.int applicant_uid)
      |>.set "alias_name" (.str alias_name)

/-- The notification to the applicant, when the applicant is on this server. -/
def authFriendNotify (applicant_uid accepter_uid : Int) (applicant_peer_alias : Bytes)
    (peer_info : Option UserInfo) : Json :=
  let notify := (Json.errorReply .success).set "fromuid" (.int accepter_uid)
    |>.set "touid" (.int applicant_uid)
  match peer_info with
  | none => notify.set "error" (.int ErrorCodes.uidInvalid.code)
  | some peer_info =>
    notify.set "name" (.str peer_info.name)
      |>.set "nick" (.str peer_info.nick)
      |>.set "icon" (.str peer_info.icon)
      |>.set "sex" (.int peer_info.sex)
      |>.set "alias_name" (.str applicant_peer_alias)

/-- `authFriendHandler` from the lookup of the routing key on. -/
def routeAuthFriend (J : JsonCpp) (self : ServerName) (applicant_uid accepter_uid : Int)
    (applicant_peer_alias : Bytes) : Handler Unit := do
  let to_ip_value ← ask (.get (ipKey applicant_uid))
  match to_ip_value with
  | none => pure ()
  | some to_ip_value =>
    if to_ip_value = self.val then
      let peer_session ← ask (.getSession applicant_uid)
      match peer_session with
      | none => pure ()
      | some peer_session =>
        let peer_info ← getBaseInfo J (baseKey accepter_uid) accepter_uid
        ask (.send peer_session
          (J.toStyledString
            (authFriendNotify applicant_uid accepter_uid applicant_peer_alias peer_info))
          MsgIds.notifyAuthFriendReq.id)
    else
      let _ ← ask (.notifyAuthFriend to_ip_value { fromuid := accepter_uid, touid := applicant_uid })
      pure ()

/-- `LogicSystem::authFriendHandler`. -/
def authFriendHandler (J : JsonCpp) (self : ServerName) (session : SessId) (msg_data : Bytes) :
    Handler Unit := do
  let root := (J.parse msg_data).2
  let applicant_uid ← root.getInt "fromuid"
  let accepter_uid ← root.getInt "touid"
  let alias_name ← root.getString J "alias_name"
  let user_info ← getBaseInfo J (baseKey applicant_uid) applicant_uid
  let apply_alias ← ask (.getFriendApplyAlias applicant_uid accepter_uid)
  -- neither result is looked at: `addFriend` runs also when nothing was there to accept
  let _ ← ask (.authFriendApply applicant_uid accepter_uid)
  let _ ← ask (.addFriend applicant_uid accepter_uid apply_alias.2 alias_name)
  let peer_alias ← ask (.getFriendAlias applicant_uid accepter_uid)
  routeAuthFriend J self applicant_uid accepter_uid peer_alias.2
  ask (.send session (J.toStyledString (authFriendReply applicant_uid alias_name user_info))
    MsgIds.authFriendRsp.id)

/-! ## Text messages -/

/-- One text of `text_array` as a message for another server. -/
def textChatData (J : JsonCpp) (text_obj : Json) : Except Exn TextChatData := do
  let content ← text_obj.getString J "content"
  let msgid ← text_obj.getString J "msgid"
  pure { msgid := msgid, msgcontent := content }

/-- The texts of `text_array`, in their order. -/
def textChatDatas (J : JsonCpp) (text_array : Json) : Except Exn (List TextChatData) :=
  text_array.children.mapM (textChatData J)

/-- The reply of `chatTextMsgHandler`. -/
def textChatReply (fromuid touid : Int) (text_array : Json) : Json :=
  (Json.errorReply .success).set "fromuid" (.int touid)
    |>.set "touid" (.int fromuid)
    |>.set "text_array" text_array

/-- `chatTextMsgHandler` from the lookup of the routing key on. -/
def routeTextChatMsg (J : JsonCpp) (self : ServerName) (fromuid touid : Int) (text_array : Json) :
    Handler Unit := do
  let to_ip_value ← ask (.get (ipKey touid))
  match to_ip_value with
  | none => pure ()
  | some to_ip_value =>
    if to_ip_value = self.val then
      let session ← ask (.getSession touid)
      match session with
      | none => pure ()
      | some session =>
        -- the recipient is sent the sender's reply
        ask (.send session (J.toStyledString (textChatReply fromuid touid text_array))
          MsgIds.textChatMsgRsp.id)
    else
      -- a text that cannot be converted ends the handler, and nothing is replied
      let textmsgs ← textChatDatas J text_array
      let _ ← ask (.notifyTextChatMsg to_ip_value
        { fromuid := fromuid, touid := touid, textmsgs := textmsgs })
      pure ()

/-- `LogicSystem::chatTextMsgHandler`. -/
def chatTextMsgHandler (J : JsonCpp) (self : ServerName) (session : SessId) (msg_data : Bytes) :
    Handler Unit := do
  let root := (J.parse msg_data).2
  if root.isNull || root.empty then
    pure ()
  else
    let fromuid ← root.getInt "fromuid"
    let touid ← root.getInt "touid"
    let text_array ← root.member "text_array"
    routeTextChatMsg J self fromuid touid text_array
    ask (.send session (J.toStyledString (textChatReply fromuid touid text_array))
      MsgIds.textChatMsgRsp.id)

/-! ## Dispatching -/

/-- `registerCallBacks`: the handlers by message id. -/
def callback (J : JsonCpp) (self : ServerName) (msg_id : Int) :
    Option (SessId → Bytes → Handler Unit) :=
  if msg_id = MsgIds.chatLogin.id then some (loginHandler J self)
  else if msg_id = MsgIds.searchUserReq.id then some (searchUserHandler J)
  else if msg_id = MsgIds.addFriendReq.id then some (addFriendHandler J self)
  else if msg_id = MsgIds.authFriendReq.id then some (authFriendHandler J self)
  else if msg_id = MsgIds.textChatMsgReq.id then some (chatTextMsgHandler J self)
  else none

/-- What `dealMsg` does with the node at the front of its queue. -/
def dispatch (J : JsonCpp) (self : ServerName) (msg_node : LogicNode) : Handler Unit :=
  match callback J self msg_node.recvNode.msgId with
  | none => pure ()
  | some handler => handler msg_node.session msg_node.recvNode.text

end LogicSystem

end ChatServer
