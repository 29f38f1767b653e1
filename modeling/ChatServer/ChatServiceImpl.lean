import ChatServer.LogicSystem

/-!
# The chat service

`application/ChatServiceImpl.cpp`: what a server does when a peer asks it to notify one of its
users. An exception that leaves one of these functions is caught by gRPC.
-/

namespace ChatServer

open Interaction Prog Handler

namespace ChatServiceImpl

/-- `ChatServiceImpl::getBaseInfo`. Unlike the worker's, it looks into the cache first. -/
def getBaseInfo (J : JsonCpp) (base_key : Bytes) (uid : Int) : Handler (Option UserInfo) := do
  let info_str ← ask (.get base_key)
  match info_str with
  | some info_str =>
    let user_info ← (J.parse info_str).2.getProfile J
    pure (some user_info)
  | none =>
    let user_info_data ← ask (.getUserInfo uid)
    match user_info_data with
    | none => pure none
    | some user_info =>
      let _ ← ask (.set base_key (J.toStyledString (Json.null.setProfile user_info)))
      pure (some user_info)

/-- The notification of a friend request that arrives from a peer. -/
def addFriendNotify (request : AddFriendReq) : Json :=
  (Json.errorReply .success).set "applyuid" (.int request.applyuid)
    |>.set "name" (.str request.name)
    |>.set "desc" (.str request.desc)
    |>.set "icon" (.str request.icon)
    |>.set "sex" (.int request.sex)
    |>.set "nick" (.str request.nick)
    |>.set "alias_name" (.str request.aliasName)

/-- `ChatServiceImpl::NotifyAddFriend`. -/
def notifyAddFriend (J : JsonCpp) (request : AddFriendReq) : Handler AddFriendRsp := do
  let reply : AddFriendRsp :=
    { error := ErrorCodes.success.code, applyuid := request.applyuid, touid := request.touid }
  let session ← ask (.getSession request.touid)
  match session with
  | none => pure reply
  | some session =>
    let _ ← ask (.send session (J.toStyledString (addFriendNotify request))
      MsgIds.notifyAddFriendReq.id)
    pure reply

/-- The notification of an accepted request that arrives from a peer. -/
def authFriendNotify (request : AuthFriendReq) (user_info : Option (UserInfo × Bytes)) : Json :=
  let return_value := (Json.errorReply .success).set "fromuid" (.int request.fromuid)
    |>.set "touid" (.int request.touid)
  match user_info with
  -- without a profile the notification goes out with an error code
  | none => return_value.set "error" (.int ErrorCodes.uidInvalid.code)
  | some (user_info, peer_alias) =>
    return_value.set "name" (.str user_info.name)
      |>.set "nick" (.str user_info.nick)
      |>.set "icon" (.str user_info.icon)
      |>.set "sex" (.int user_info.sex)
      |>.set "alias_name" (.str peer_alias)

/-- The accepter's profile and the alias that `NotifyAuthFriend` puts into its notification. -/
def peerInfo (J : JsonCpp) (request : AuthFriendReq) : Handler (Option (UserInfo × Bytes)) := do
  let user_info ← getBaseInfo J (baseKey request.fromuid) request.fromuid
  match user_info with
  | none => pure none
  | some user_info =>
    let peer_alias ← ask (.getFriendAlias request.touid request.fromuid)
    pure (some (user_info, peer_alias.2))

/-- `ChatServiceImpl::NotifyAuthFriend`. -/
def notifyAuthFriend (J : JsonCpp) (request : AuthFriendReq) : Handler AuthFriendRsp := do
  let reply : AuthFriendRsp :=
    { error := ErrorCodes.success.code, fromuid := request.fromuid, touid := request.touid }
  let session ← ask (.getSession request.touid)
  match session with
  | none => pure reply
  | some session =>
    let user_info ← peerInfo J request
    let _ ← ask (.send session (J.toStyledString (authFriendNotify request user_info))
      MsgIds.notifyAuthFriendReq.id)
    pure reply

/-- The `text_array` of a notification, null when there are no texts. -/
def textArray (textmsgs : List TextChatData) : Json :=
  textmsgs.foldl (fun text_array text_data =>
    text_array.append (Json.null.set "msgid" (.str text_data.msgid)
      |>.set "content" (.str text_data.msgcontent))) .null

/-- The notification of texts that arrive from a peer. -/
def textChatNotify (request : TextChatMsgReq) : Json :=
  (Json.errorReply .success).set "fromuid" (.int request.fromuid)
    |>.set "touid" (.int request.touid)
    |>.set "text_array" (textArray request.textmsgs)

/-- `ChatServiceImpl::NotifyTextChatMsg`. -/
def notifyTextChatMsg (J : JsonCpp) (request : TextChatMsgReq) : Handler TextChatMsgRsp := do
  let reply : TextChatMsgRsp := { error := ErrorCodes.success.code }
  let session ← ask (.getSession request.touid)
  match session with
  | none => pure reply
  | some session =>
    let _ ← ask (.send session (J.toStyledString (textChatNotify request))
      MsgIds.notifyTextChatMsgReq.id)
    pure reply

/-- A request of a peer. -/
inductive Request where
  | addFriend (request : AddFriendReq)
  | authFriend (request : AuthFriendReq)
  | textChatMsg (request : TextChatMsgReq)

/-- What a thread of the service does for one request. -/
def serve (J : JsonCpp) : Request → Io Unit
  | .addFriend request => (notifyAddFriend J request).run >>= fun _ => pure ()
  | .authFriend request => (notifyAuthFriend J request).run >>= fun _ => pure ()
  | .textChatMsg request => (notifyTextChatMsg J request).run >>= fun _ => pure ()

end ChatServiceImpl

end ChatServer
