import ChatServer.SendQueue

/-!
# Text messages between two servers

A text message travels from the sender's session to a session of the recipient, on the same server or,
through `ChatGrpcClient` and the chat service, on a peer. `Net` is what the two ways act on: the
sender's server, the peers it knows, and a record of the messages that were given to `send`.

`text_frames` compares the frames that the recipient gets on the two ways, `texts_through_peer_iff`
follows the list of texts through the request to the peer, and `acknowledged_iff` says when the reply to
the sender can be believed.
-/

namespace ChatServer

open Interaction Prog Handler Bytes Decimal

/-! ## The network -/

/-- What becomes of a remote call: whether the peer executes it, and whether the caller's status is ok,
which it is only after the peer has executed the call. -/
structure RpcOutcome where
  executed : Bool
  ok : Bool
  executed_of_ok : ok = true → executed = true

/-- A message that was given to `send`: at which server (none for the sender's own), for which session,
and whether it was accepted into the session's queue. -/
structure SentMsg where
  server : Option Bytes
  session : SessId
  msg : Bytes
  msgid : Int
  accepted : Bool

/-- The sender's server, the peers in `ChatGrpcClient::_pools` by their names, and the messages sent so
far. -/
structure Net where
  world : World
  peers : Bytes → Option Proc
  sent : List SentMsg

/-- A message is given to `send` at a server with this memory. -/
def deliver (server : Option Bytes) (p : Proc) (s : SessId) (msg : Bytes) (msgid : Int) : SentMsg :=
  { server := server, session := s, msg := msg, msgid := msgid
    accepted := decide ((p.sess s).Accepts msg) }

/-- Answer and carry out a call at a server, and record what is sent. -/
def Net.serverCall (server : Option Bytes) (c : Call) (x : World × List SentMsg) :
    c.Resp × World × List SentMsg :=
  let (r, w) := World.interpret World.noAnswer c x.1
  match c with
  | .send s msg msgid => (r, w, x.2 ++ [deliver server x.1.proc s msg msgid])
  | _ => (r, w, x.2)

namespace ChatGrpcClient

/-- `ChatGrpcClient::NotifyTextChatMsg`. -/
def notifyTextChatMsg (J : JsonCpp) (rpc : RpcOutcome) (server_ip : Bytes) (req : TextChatMsgReq)
    (n : Net) : TextChatMsgRsp × Net :=
  let rsp : TextChatMsgRsp := { error := ErrorCodes.success.code }
  let (rsp, n) : TextChatMsgRsp × Net :=
    match n.peers server_ip with
    -- a name that is not in `_pools`: the response says success
    | none => (rsp, n)
    | some peer =>
      let (reply, w, sent) := (ChatServiceImpl.notifyTextChatMsg J req).run.run
        (Net.serverCall (some server_ip)) ({ redis := n.world.redis, proc := peer }, n.sent)
      -- the peer may have executed a call that the caller sees fail
      let n : Net := if rpc.executed then
          { world := { n.world with redis := w.redis }
            peers := Function.update n.peers server_ip (some w.proc)
            sent := sent }
        else n
      match rpc.ok, reply with
      | true, .ok reply => (reply, n)
      | _, _ => ({ rsp with error := ErrorCodes.rpcFailed.code }, n)
  -- the deferred block
  ({ rsp with
    fromuid := req.fromuid, touid := req.touid, textmsgs := rsp.textmsgs ++ req.textmsgs }, n)

end ChatGrpcClient

namespace Net

/-- Answer and carry out a call of the sender's worker. -/
def interpret (J : JsonCpp) (rpc : RpcOutcome) : (c : Call) → Net → c.Resp × Net
  | .notifyTextChatMsg server_ip req, n => ChatGrpcClient.notifyTextChatMsg J rpc server_ip req n
  | c, n =>
    let (r, w, sent) := serverCall none c (n.world, n.sent)
    (r, { n with world := w, sent := sent })

/-- The sender's worker handles a text message. -/
def handle (J : JsonCpp) (self : ServerName) (rpc : RpcOutcome) (session : SessId) (msg_data : Bytes)
    (n : Net) : Except Exn Unit × Net :=
  (LogicSystem.chatTextMsgHandler J self session msg_data).run.run (interpret J rpc) n

end Net

/-- The body is a text message between two users. -/
structure TextRequest (J : JsonCpp) (msg_data : Bytes) (fromuid touid : Int) (text_array : Json) :
    Prop where
  notEmpty : ((J.parse msg_data).2.isNull || (J.parse msg_data).2.empty) = false
  fromuid : (J.parse msg_data).2.getInt "fromuid" = .ok fromuid
  touid : (J.parse msg_data).2.getInt "touid" = .ok touid
  text_array : (J.parse msg_data).2.member "text_array" = .ok text_array

/-! ## What is sent -/

section Sent

variable {J : JsonCpp} {self : ServerName} {rpc : RpcOutcome} {session : SessId} {msg_data : Bytes}
  {fromuid touid : Int} {text_array : Json} {n : Net}

/-- What the recipient is sent at a server with this memory: nothing if the server does not know the
recipient. -/
def recipient (server : Option Bytes) (p : Proc) (touid : Int) (msg : Bytes) (msgid : Int) :
    List SentMsg :=
  (p.uidToSession touid).toList.map fun s => deliver server p s msg msgid

/-- What `chatTextMsgHandler` has sent when it replies, or the exception that keeps it from replying. -/
def routed (J : JsonCpp) (self : ServerName) (rpc : RpcOutcome) (fromuid touid : Int)
    (text_array : Json) (n : Net) : Except Exn (List SentMsg) :=
  match n.world.redis.get (ipKey touid) with
  | none => .ok []
  | some to_ip_value =>
    if to_ip_value = self.val then
      .ok (recipient none n.world.proc touid
        (J.toStyledString (LogicSystem.textChatReply fromuid touid text_array))
        MsgIds.textChatMsgRsp.id)
    else
      match LogicSystem.textChatDatas J text_array with
      | .error e => .error e
      | .ok textmsgs =>
        match n.peers to_ip_value with
        | none => .ok []
        | some peer =>
          if rpc.executed then
            .ok (recipient (some to_ip_value) peer touid
              (J.toStyledString (ChatServiceImpl.textChatNotify
                { fromuid := fromuid, touid := touid, textmsgs := textmsgs }))
              MsgIds.notifyTextChatMsgReq.id)
          else .ok []

/-- The memory of the sender's server when `chatTextMsgHandler` replies: a recipient that it knows may have
the copy in its queue. -/
def copied (J : JsonCpp) (self : ServerName) (fromuid touid : Int) (text_array : Json) (n : Net) : Proc :=
  if n.world.redis.get (ipKey touid) = some self.val then
    match n.world.proc.uidToSession touid with
    | none => n.world.proc
    | some s => n.world.proc.modify s fun x =>
        x.send (J.toStyledString (LogicSystem.textChatReply fromuid touid text_array)) MsgIds.textChatMsgRsp.id
  else n.world.proc

/-- What a peer sends when it is asked to pass on texts. -/
theorem notify_sent (J : JsonCpp) (req : TextChatMsgReq) (server_ip : Bytes) (w : World)
    (sent : List SentMsg) : ((ChatServiceImpl.notifyTextChatMsg J req).run.run (Net.serverCall (some server_ip))
      (w, sent)).2.2 = sent ++ recipient (some server_ip) w.proc req.touid
        (J.toStyledString (ChatServiceImpl.textChatNotify req)) MsgIds.notifyTextChatMsgReq.id := by
  have hget : Net.serverCall (some server_ip) (.getSession req.touid) (w, sent)
      = (w.proc.uidToSession req.touid, w, sent) := rfl
  unfold ChatServiceImpl.notifyTextChatMsg recipient
  dsimp only
  rw [run_ask, hget]
  cases w.proc.uidToSession req.touid with
  | none => exact (List.append_nil sent).symm
  | some s => rfl

/-- What `ChatGrpcClient` gets sent. -/
theorem client_sent (J : JsonCpp) (rpc : RpcOutcome) (n : Net) (req : TextChatMsgReq)
    (server_ip : Bytes) : (ChatGrpcClient.notifyTextChatMsg J rpc server_ip req n).2.sent = n.sent ++
      match n.peers server_ip with
      | none => []
      | some peer =>
        if rpc.executed then
          recipient (some server_ip) peer req.touid
            (J.toStyledString (ChatServiceImpl.textChatNotify req)) MsgIds.notifyTextChatMsgReq.id
        else [] := by
  unfold ChatGrpcClient.notifyTextChatMsg
  cases n.peers server_ip with
  | none => simp
  | some peer =>
    have hsent := notify_sent J req server_ip { redis := n.world.redis, proc := peer } n.sent
    dsimp only
    split
    all_goals
      split
      · exact hsent
      · simp

/-- A call to a peer leaves the caller's memory alone. -/
theorem client_proc (J : JsonCpp) (rpc : RpcOutcome) (n : Net) (req : TextChatMsgReq) (server_ip : Bytes) :
    (ChatGrpcClient.notifyTextChatMsg J rpc server_ip req n).2.world.proc = n.world.proc := by
  unfold ChatGrpcClient.notifyTextChatMsg
  cases n.peers server_ip with
  | none => rfl
  | some peer =>
    dsimp only
    split
    all_goals
      split
      · rfl
      · rfl

/-- **What the handler has sent when it replies.** -/
theorem route_sent (J : JsonCpp) (self : ServerName) (rpc : RpcOutcome) (fromuid touid : Int)
    (text_array : Json) (n : Net) :
    match routed J self rpc fromuid touid text_array n with
    | .error e => ∃ n', (LogicSystem.routeTextChatMsg J self fromuid touid text_array).run.run
        (Net.interpret J rpc) n = (.error e, n')
    | .ok ds => ∃ n', (LogicSystem.routeTextChatMsg J self fromuid touid text_array).run.run
        (Net.interpret J rpc) n = (.ok (), n') ∧ n'.sent = n.sent ++ ds ∧
          n'.world.proc = copied J self fromuid touid text_array n := by
  have hget : Net.interpret J rpc (.get (ipKey touid)) n = (n.world.redis.get (ipKey touid), n) := rfl
  have hsess : Net.interpret J rpc (.getSession touid) n = (n.world.proc.uidToSession touid, n) := rfl
  unfold routed copied LogicSystem.routeTextChatMsg
  rw [run_ask, hget]
  cases n.world.redis.get (ipKey touid) with
  | none => exact ⟨n, rfl, (List.append_nil _).symm, by simp⟩
  | some to_ip_value =>
    dsimp only
    -- the recipient is here, or on another server
    by_cases hip : to_ip_value = self.val
    · rw [if_pos hip, if_pos hip, if_pos (congrArg some hip), run_ask, hsess]
      unfold recipient
      cases n.world.proc.uidToSession touid with
      | none => exact ⟨n, rfl, (List.append_nil _).symm, rfl⟩
      | some s => exact ⟨_, rfl, rfl, rfl⟩
    · have hcopied : ¬ some to_ip_value = some self.val := fun h => hip (Option.some.inj h)
      rw [if_neg hip, if_neg hip, if_neg hcopied]
      cases htexts : LogicSystem.textChatDatas J text_array with
      -- the texts are converted before the call is made
      | error e => exact ⟨n, run_lift_error _ rfl _ _⟩
      | ok textmsgs =>
        have hsent := client_sent J rpc n
          { fromuid := fromuid, touid := touid, textmsgs := textmsgs } to_ip_value
        have hproc := client_proc J rpc n
          { fromuid := fromuid, touid := touid, textmsgs := textmsgs } to_ip_value
        cases hpeer : n.peers to_ip_value with
        | none =>
          rw [hpeer] at hsent
          exact ⟨_, rfl, hsent, hproc⟩
        | some peer =>
          rw [hpeer] at hsent
          dsimp only at hsent ⊢
          by_cases hexec : rpc.executed = true
          · rw [if_pos hexec] at hsent ⊢
            exact ⟨_, rfl, hsent, hproc⟩
          · rw [if_neg hexec] at hsent ⊢
            exact ⟨_, rfl, hsent, hproc⟩

/-- The reply to a text message. -/
def textReply (J : JsonCpp) (session : SessId) (fromuid touid : Int) (text_array : Json)
    (p : Proc) : SentMsg :=
  deliver none p session (J.toStyledString (LogicSystem.textChatReply fromuid touid text_array))
    MsgIds.textChatMsgRsp.id

/-- **What the handler sends**: what the recipient gets, and then the reply. -/
theorem handle_sent (hq : TextRequest J msg_data fromuid touid text_array) (self : ServerName)
    (rpc : RpcOutcome) (session : SessId) (n : Net) :
    match routed J self rpc fromuid touid text_array n with
    | .error e => ∃ n', Net.handle J self rpc session msg_data n = (.error e, n')
    | .ok ds => ∃ n', Net.handle J self rpc session msg_data n = (.ok (), n') ∧
        n'.sent = n.sent ++ ds ++ [textReply J session fromuid touid text_array
          (copied J self fromuid touid text_array n)] := by
  have hroute := route_sent J self rpc fromuid touid text_array n
  unfold Net.handle LogicSystem.chatTextMsgHandler
  dsimp only
  rw [if_neg (Bool.eq_false_iff.mp hq.notEmpty), run_lift_ok _ hq.fromuid, run_lift_ok _ hq.touid,
    run_lift_ok _ hq.text_array]
  cases hrouted : routed J self rpc fromuid touid text_array n with
  | error e =>
    rw [hrouted] at hroute
    obtain ⟨n', hn⟩ := hroute
    exact ⟨n', run_bind_error _ hn⟩
  | ok ds =>
    rw [hrouted] at hroute
    obtain ⟨n', hn, hsent, hproc⟩ := hroute
    refine ⟨_, run_bind_ok _ hn, ?_⟩
    rw [← hsent, ← hproc]
    rfl

end Sent

/-! ## Texts on their way -/

namespace ChatServiceImpl

/-- A text as an element of `text_array`. -/
def textJson (text_data : TextChatData) : Json :=
  .obj [(lit "content", .str text_data.msgcontent), (lit "msgid", .str text_data.msgid)]

theorem textArray_eq {textmsgs : List TextChatData} (h : textmsgs ≠ []) :
    textArray textmsgs = .arr (textmsgs.map textJson) := by
  obtain ⟨text_data, rest, rfl⟩ := List.exists_cons_of_ne_nil h
  have hjson : ∀ t : TextChatData, (Json.null.set "msgid" (.str t.msgid)).set "content"
      (.str t.msgcontent) = textJson t := fun t => rfl
  unfold textArray
  simp only [hjson]
  exact Json.foldl_append textJson [textJson text_data] rest

end ChatServiceImpl

namespace LogicSystem

variable {J : JsonCpp}

theorem textChatData_textJson (t : TextChatData) :
    textChatData J (ChatServiceImpl.textJson t) = .ok t := rfl

theorem textChatDatas_textJson (textmsgs : List TextChatData) :
    textChatDatas J (.arr (textmsgs.map ChatServiceImpl.textJson)) = .ok textmsgs := by
  show (textmsgs.map ChatServiceImpl.textJson).mapM (textChatData J) = .ok textmsgs
  induction textmsgs with
  | nil => rfl
  | cons t textmsgs ih =>
    rw [List.map_cons, List.mapM_cons, textChatData_textJson, ih]
    rfl

/-- A peer passes on the texts that it was sent. -/
theorem textChatDatas_textArray (textmsgs : List TextChatData) :
    textChatDatas J (ChatServiceImpl.textArray textmsgs) = .ok textmsgs := by
  by_cases h : textmsgs = []
  · subst h
    rfl
  · rw [ChatServiceImpl.textArray_eq h, textChatDatas_textJson]

end LogicSystem

/-- The parts of a frame that concern a text message. -/
structure ChatFrame where
  msgid : Int
  error : Json
  fromuid : Json
  touid : Json
  text_array : Json

/-- The frame of a message whose body is the text of `v`. -/
def ChatFrame.of (msgid : Int) (v : Json) : ChatFrame :=
  { msgid := msgid
    error := v.lookup (lit "error")
    fromuid := v.lookup (lit "fromuid")
    touid := v.lookup (lit "touid")
    text_array := v.lookup (lit "text_array") }

theorem chatFrame_notify (msgid : Int) (req : TextChatMsgReq) :
    ChatFrame.of msgid (ChatServiceImpl.textChatNotify req) =
      { msgid := msgid, error := .int ErrorCodes.success.code, fromuid := .int req.fromuid,
        touid := .int req.touid, text_array := ChatServiceImpl.textArray req.textmsgs } := rfl

/-! ## A message -/

/-- The user 7 says "hi" to the user 8. -/
def helloText : Bytes := lit
  "\x7b\"fromuid\":7,\"text_array\":[\x7b\"content\":\"hi\",\"msgid\":\"m\"\x7d],\"touid\":8\x7d"

def helloMsgs : List TextChatData := [{ msgid := lit "m", msgcontent := lit "hi" }]

def helloTexts : JsonCpp :=
  .nested [(helloText, .obj [(lit "fromuid", .int 7),
    (lit "text_array", .arr (helloMsgs.map ChatServiceImpl.textJson)), (lit "touid", .int 8)])]

theorem hello_request :
    TextRequest helloTexts helloText 7 8 (.arr (helloMsgs.map ChatServiceImpl.textJson)) :=
  ⟨by decide +kernel, rfl, rfl, rfl⟩

def here : ServerName := s1

/-- The name of a peer. -/
def there : Bytes := lit "s2"

def RpcOutcome.success : RpcOutcome := { executed := true, ok := true, executed_of_ok := fun _ => rfl }

/-- A server on which the user 8 is bound to the session 1. -/
def hasUser : Proc :=
  { Proc.init with uidToSession := Function.update Proc.init.uidToSession 8 (some 1) }

/-- The user 8 is on the sender's server. -/
def localNet : Net :=
  { world := { redis := Redis.empty.set (ipKey 8) here.val, proc := hasUser }
    peers := fun _ => none
    sent := [] }

/-- The user 8 is on the peer. -/
def remoteNet : Net :=
  { world := { redis := Redis.empty.set (ipKey 8) there, proc := .init }
    peers := Function.update (fun _ => none) there (some hasUser)
    sent := [] }

/-- The user 8 is nowhere. -/
def offlineNet : Net := { world := .init, peers := fun _ => none, sent := [] }

/-! ## The same message on both ways -/

/-- Before the reply, exactly one frame is sent, to the session `s` at the server. -/
def Receives (J : JsonCpp) (self : ServerName) (rpc : RpcOutcome) (session : SessId)
    (msg_data : Bytes) (n : Net) (server : Option Bytes) (s : SessId) (f : ChatFrame) : Prop :=
  ∃ d r : SentMsg, ∃ v : Json,
    (Net.handle J self rpc session msg_data n).2.sent = n.sent ++ [d, r] ∧
    d.server = server ∧ d.session = s ∧ d.msg = J.toStyledString v ∧ f = ChatFrame.of d.msgid v

/-- The recipient is on the sender's server. -/
structure Here (S : ServerName) (n : Net) (touid : Int) (s : SessId) : Prop where
  route : n.world.redis.get (ipKey touid) = some S.val
  session : n.world.proc.uidToSession touid = some s

/-- The recipient is on a peer that the remote call reaches. -/
structure There (S : ServerName) (rpc : RpcOutcome) (n : Net) (touid : Int) (to_ip_value : Bytes)
    (s : SessId) : Prop where
  route : n.world.redis.get (ipKey touid) = some to_ip_value
  other : to_ip_value ≠ S.val
  executed : rpc.executed = true
  session : ∃ peer, n.peers to_ip_value = some peer ∧ peer.uidToSession touid = some s

section Frames

variable {J : JsonCpp} {self : ServerName} {rpc : RpcOutcome} {session s : SessId} {msg_data : Bytes}
  {fromuid touid : Int} {text_array : Json} {n : Net}

theorem Here.sent (h : Here self n touid s) (hq : TextRequest J msg_data fromuid touid text_array)
    (rpc : RpcOutcome) (session : SessId) :
    ∃ r, (Net.handle J self rpc session msg_data n).2.sent = n.sent ++
      [deliver none n.world.proc s
        (J.toStyledString (LogicSystem.textChatReply fromuid touid text_array))
        MsgIds.textChatMsgRsp.id, r] := by
  have hsent := handle_sent hq self rpc session n
  have hrouted : routed J self rpc fromuid touid text_array n
      = .ok [deliver none n.world.proc s
        (J.toStyledString (LogicSystem.textChatReply fromuid touid text_array))
        MsgIds.textChatMsgRsp.id] := by
    unfold routed recipient
    rw [h.route, h.session]
    dsimp only
    rw [if_pos rfl]
    rfl
  rw [hrouted] at hsent
  obtain ⟨n', hn, hsent⟩ := hsent
  refine ⟨textReply J session fromuid touid text_array (copied J self fromuid touid text_array n), ?_⟩
  rw [hn]
  show n'.sent = _
  rw [hsent, List.append_assoc]
  rfl

theorem There.sent {to_ip_value : Bytes} {textmsgs : List TextChatData}
    (h : There self rpc n touid to_ip_value s)
    (hq : TextRequest J msg_data fromuid touid text_array)
    (htexts : LogicSystem.textChatDatas J text_array = .ok textmsgs) (session : SessId) :
    ∃ peer r, (Net.handle J self rpc session msg_data n).2.sent = n.sent ++
      [deliver (some to_ip_value) peer s
        (J.toStyledString (ChatServiceImpl.textChatNotify
          { fromuid := fromuid, touid := touid, textmsgs := textmsgs }))
        MsgIds.notifyTextChatMsgReq.id, r] := by
  obtain ⟨peer, hpeer, hsess⟩ := h.session
  have hsent := handle_sent hq self rpc session n
  have hrouted : routed J self rpc fromuid touid text_array n
      = .ok [deliver (some to_ip_value) peer s
        (J.toStyledString (ChatServiceImpl.textChatNotify
          { fromuid := fromuid, touid := touid, textmsgs := textmsgs }))
        MsgIds.notifyTextChatMsgReq.id] := by
    unfold routed recipient
    rw [h.route]
    dsimp only
    rw [if_neg h.other, htexts]
    dsimp only
    rw [hpeer]
    dsimp only
    rw [if_pos h.executed, hsess]
    rfl
  rw [hrouted] at hsent
  obtain ⟨n', hn, hsent⟩ := hsent
  refine ⟨peer, textReply J session fromuid touid text_array (copied J self fromuid touid text_array n), ?_⟩
  rw [hn]
  show n'.sent = _
  rw [hsent, List.append_assoc]
  rfl

/-- The frame that is received has the message id of what was sent. -/
theorem Receives.msgid {server : Option Bytes} {f : ChatFrame} {d r : SentMsg}
    (h : Receives J self rpc session msg_data n server s f)
    (hsent : (Net.handle J self rpc session msg_data n).2.sent = n.sent ++ [d, r]) :
    f.msgid = d.msgid := by
  obtain ⟨d', r', v, hsent', -, -, -, rfl⟩ := h
  have hone := List.append_cancel_left (hsent'.symm.trans hsent)
  show d'.msgid = d.msgid
  rw [(List.cons.inj hone).1]

/-- **The two ways differ, for every message.** The recipient on the sender's server gets the sender's
reply, with the message id of a reply and the two users exchanged; the recipient on a peer gets a
notification. Only the error code and the texts agree. -/
theorem text_frames {textmsgs : List TextChatData} {rpc' : RpcOutcome} {n' : Net} {s' : SessId}
    {to_ip_value : Bytes} (htexts : textmsgs ≠ [])
    (hq : TextRequest J msg_data fromuid touid (.arr (textmsgs.map ChatServiceImpl.textJson)))
    (hhere : Here self n touid s) (hthere : There self rpc' n' touid to_ip_value s') :
    Receives J self rpc session msg_data n none s
        { msgid := MsgIds.textChatMsgRsp.id, error := .int ErrorCodes.success.code,
          fromuid := .int touid, touid := .int fromuid,
          text_array := .arr (textmsgs.map ChatServiceImpl.textJson) } ∧
      Receives J self rpc' session msg_data n' (some to_ip_value) s'
        { msgid := MsgIds.notifyTextChatMsgReq.id, error := .int ErrorCodes.success.code,
          fromuid := .int fromuid, touid := .int touid,
          text_array := .arr (textmsgs.map ChatServiceImpl.textJson) } ∧
      ∀ f f', Receives J self rpc session msg_data n none s f →
        Receives J self rpc' session msg_data n' (some to_ip_value) s' f' → f ≠ f' := by
  obtain ⟨r, hsent⟩ := hhere.sent hq rpc session
  obtain ⟨peer, r', hsent'⟩ := hthere.sent hq
    (LogicSystem.textChatDatas_textJson textmsgs) session
  refine ⟨⟨_, r, _, hsent, rfl, rfl, rfl, rfl⟩, ⟨_, r', _, hsent', rfl, rfl, rfl, ?_⟩, ?_⟩
  · show _ = ChatFrame.of MsgIds.notifyTextChatMsgReq.id _
    rw [chatFrame_notify, ChatServiceImpl.textArray_eq htexts]
  · intro f f' hf hf' heq
    have hid : f'.msgid = MsgIds.textChatMsgRsp.id := heq ▸ hf.msgid hsent
    have hid' : f'.msgid = MsgIds.notifyTextChatMsgReq.id := hf'.msgid hsent'
    rw [hid] at hid'
    exact absurd hid' (by decide)

theorem hello_here : Here here localNet 8 1 := ⟨by decide +kernel, rfl⟩

theorem hello_there : There here .success remoteNet 8 there 1 :=
  ⟨by decide +kernel, by decide, rfl, hasUser, rfl, rfl⟩

/-- "hi" arrives as message 2012 from the user 8 or as message 2013 from the user 7. -/
theorem text_frames_fails : ¬ ∀ (J : JsonCpp) (self : ServerName) (rpc rpc' : RpcOutcome)
    (session s s' : SessId) (msg_data to_ip_value : Bytes) (fromuid touid : Int)
    (textmsgs : List TextChatData) (n n' : Net) (f f' : ChatFrame), textmsgs ≠ [] →
    TextRequest J msg_data fromuid touid (.arr (textmsgs.map ChatServiceImpl.textJson)) →
    Here self n touid s → There self rpc' n' touid to_ip_value s' →
    Receives J self rpc session msg_data n none s f →
    Receives J self rpc' session msg_data n' (some to_ip_value) s' f' → f = f' := by
  intro h
  obtain ⟨r, hsent⟩ := hello_here.sent hello_request .success 0
  obtain ⟨peer, r', hsent'⟩ := hello_there.sent hello_request
    (LogicSystem.textChatDatas_textJson helloMsgs) 0
  have heq := h _ _ _ _ _ _ _ _ _ _ _ helloMsgs _ _ _ _ (by decide) hello_request hello_here
    hello_there ⟨_, r, _, hsent, rfl, rfl, rfl, rfl⟩ ⟨_, r', _, hsent', rfl, rfl, rfl, rfl⟩
  have hid : MsgIds.textChatMsgRsp.id = MsgIds.notifyTextChatMsgReq.id :=
    congrArg ChatFrame.msgid heq
  exact absurd hid (by decide)

/-- The two frames of "hi". -/
theorem text_frames_hello :
    Receives helloTexts here .success 0 helloText localNet none 1
        { msgid := MsgIds.textChatMsgRsp.id, error := .int ErrorCodes.success.code,
          fromuid := .int 8, touid := .int 7,
          text_array := .arr (helloMsgs.map ChatServiceImpl.textJson) } ∧
      Receives helloTexts here .success 0 helloText remoteNet (some there) 1
        { msgid := MsgIds.notifyTextChatMsgReq.id, error := .int ErrorCodes.success.code,
          fromuid := .int 7, touid := .int 8,
          text_array := .arr (helloMsgs.map ChatServiceImpl.textJson) } ∧
      ∀ f f', Receives helloTexts here .success 0 helloText localNet none 1 f →
        Receives helloTexts here .success 0 helloText remoteNet (some there) 1 f' → f ≠ f' :=
  text_frames (by decide) hello_request hello_here hello_there

end Frames

/-! ## The list of texts through a peer -/

section Texts

variable {J : JsonCpp} {self : ServerName} {session : SessId} {msg_data : Bytes}
  {fromuid touid : Int}

/-- The texts that a peer is given are those of `text_array`. -/
def TextsOf (J : JsonCpp) (text_array : Json) : Call → Prop
  | .notifyTextChatMsg _ req => LogicSystem.textChatDatas J text_array = .ok req.textmsgs
  | _ => True

/-- What is sent is the notification of `req`. -/
def NotificationOf (J : JsonCpp) (req : TextChatMsgReq) : Call → Prop
  | .send _ msg _ => msg = J.toStyledString (ChatServiceImpl.textChatNotify req)
  | _ => True

theorem LogicSystem.chatTextMsgHandler_texts (J : JsonCpp) (self : ServerName) (session : SessId)
    (msg_data : Bytes) : (LogicSystem.chatTextMsgHandler J self session msg_data).run.Uses
      (TextsOf J ((J.parse msg_data).2.lookup (lit "text_array"))) := by
  unfold LogicSystem.chatTextMsgHandler
  dsimp only
  split
  · exact uses_pure _
  · refine uses_lift fun fromuid => uses_lift fun touid => uses_lift_ok fun text_array htext => ?_
    have hmember : text_array = (J.parse msg_data).2.lookup (lit "text_array") := by
      unfold Json.member at htext
      split at htext
      · exact (Except.ok.inj htext).symm
      · exact absurd htext (by simp)
    rw [← hmember]
    refine uses_bind ((LogicSystem.routeTextChatMsg_calls _ _ _ _).mono ?_) fun _ =>
      uses_ask_last trivial
    rintro c (_ | _ | _ | ⟨server_ip, textmsgs, htexts⟩)
    · trivial
    · trivial
    · trivial
    · exact htexts

theorem ChatServiceImpl.notifyTextChatMsg_notification (J : JsonCpp) (req : TextChatMsgReq) :
    (ChatServiceImpl.notifyTextChatMsg J req).run.Uses (NotificationOf J req) := by
  refine uses_ask trivial fun session => ?_
  rcases session with _ | session
  · exact uses_pure _
  · exact uses_ask rfl fun _ => uses_pure _

/-- A list that is rebuilt is the one that was sent unless it is empty: then it is null. -/
theorem ChatServiceImpl.textArray_eq_iff (texts : List TextChatData) :
    textArray texts = .arr (texts.map textJson) ↔ texts ≠ [] := by
  constructor
  · rintro h rfl
    exact absurd h (by simp [textArray])
  · exact textArray_eq

/-- **The list of texts through a peer.** For a message whose `text_array` is the array of a list of
texts, and for every request that the handler makes of a peer and every notification that the peer
sends for the request, whatever the two are answered: the `text_array` of the notification is the
array that was sent exactly when the list is not empty. -/
theorem texts_through_peer_iff {texts : List TextChatData}
    (hbody : (J.parse msg_data).2.lookup (lit "text_array") = .arr (texts.map ChatServiceImpl.textJson))
    {tr : List (Event calls)} {r : Except Exn Unit}
    (hrun : Yields (LogicSystem.chatTextMsgHandler J self session msg_data).run tr r)
    {server_ip : Bytes} {req : TextChatMsgReq} {rsp : TextChatMsgRsp}
    (hreq : ⟨Call.notifyTextChatMsg server_ip req, rsp⟩ ∈ tr)
    {tr' : List (Event calls)} {r' : Except Exn TextChatMsgRsp}
    (hpeer : Yields (ChatServiceImpl.notifyTextChatMsg J req).run tr' r')
    {s : SessId} {msg : Bytes} {msgid : Int} {sent : (Call.send s msg msgid).Resp}
    (hsend : ⟨Call.send s msg msgid, sent⟩ ∈ tr') :
    msg = J.toStyledString (ChatServiceImpl.textChatNotify req) ∧
      ((ChatServiceImpl.textChatNotify req).lookup (lit "text_array")
        = .arr (texts.map ChatServiceImpl.textJson) ↔ texts ≠ []) := by
  refine ⟨hpeer.uses (ChatServiceImpl.notifyTextChatMsg_notification J req) _ hsend, ?_⟩
  have htexts : LogicSystem.textChatDatas J
      ((J.parse msg_data).2.lookup (lit "text_array")) = .ok req.textmsgs :=
    hrun.uses (LogicSystem.chatTextMsgHandler_texts J self session msg_data) _ hreq
  rw [hbody, LogicSystem.textChatDatas_textJson] at htexts
  rw [← ChatServiceImpl.textArray_eq_iff texts, Except.ok.inj htexts]
  exact Iff.rfl

theorem LogicSystem.routeTextChatMsg_yields {texts : List TextChatData} {server_ip : Bytes}
    (hip : server_ip ≠ self.val) (fromuid touid : Int) (rsp : TextChatMsgRsp) :
    Yields (LogicSystem.routeTextChatMsg J self fromuid touid
        (.arr (texts.map ChatServiceImpl.textJson))).run
      [⟨Call.get (ipKey touid), some server_ip⟩,
        ⟨Call.notifyTextChatMsg server_ip
          { fromuid := fromuid, touid := touid, textmsgs := texts }, rsp⟩] (.ok ()) := by
  refine .call ?_
  show Yields (if server_ip = self.val then _ else _ : Handler Unit).run _ _
  rw [if_neg hip, LogicSystem.textChatDatas_textJson]
  exact .call (.ret _)

/-- A run that gives the texts to a peer. -/
theorem TextRequest.yields {texts : List TextChatData}
    (hq : TextRequest J msg_data fromuid touid (.arr (texts.map ChatServiceImpl.textJson)))
    {server_ip : Bytes} (hip : server_ip ≠ self.val) (session : SessId) (rsp : TextChatMsgRsp) :
    Yields (LogicSystem.chatTextMsgHandler J self session msg_data).run
      [⟨Call.get (ipKey touid), some server_ip⟩,
        ⟨Call.notifyTextChatMsg server_ip { fromuid := fromuid, touid := touid, textmsgs := texts },
          rsp⟩,
        ⟨Call.send session (J.toStyledString (LogicSystem.textChatReply fromuid touid
          (.arr (texts.map ChatServiceImpl.textJson)))) MsgIds.textChatMsgRsp.id, ()⟩] (.ok ()) := by
  unfold LogicSystem.chatTextMsgHandler
  dsimp only
  rw [if_neg (Bool.eq_false_iff.mp hq.notEmpty), hq.fromuid, hq.touid, hq.text_array]
  exact yields_bind_ok (LogicSystem.routeTextChatMsg_yields hip fromuid touid rsp)
    (.call (.ret _))

/-- A run of the peer that knows the recipient. -/
theorem ChatServiceImpl.notifyTextChatMsg_yields (J : JsonCpp) (req : TextChatMsgReq) (s : SessId) :
    Yields (ChatServiceImpl.notifyTextChatMsg J req).run
      [⟨Call.getSession req.touid, some s⟩,
        ⟨Call.send s (J.toStyledString (ChatServiceImpl.textChatNotify req))
          MsgIds.notifyTextChatMsgReq.id, ()⟩] (.ok { error := ErrorCodes.success.code }) :=
  .call (.call (.ret _))

theorem there_ne_here : there ≠ here.val := by decide

/-- "hi" arrives as it was sent. -/
theorem texts_through_peer_hello :
    (ChatServiceImpl.textChatNotify { fromuid := 7, touid := 8, textmsgs := helloMsgs }).lookup
      (lit "text_array") = .arr (helloMsgs.map ChatServiceImpl.textJson) :=
  (texts_through_peer_iff (J := helloTexts) rfl
    (hello_request.yields there_ne_here 0 { error := ErrorCodes.success.code })
    (List.mem_cons_of_mem _ List.mem_cons_self)
    (ChatServiceImpl.notifyTextChatMsg_yields helloTexts _ 1)
    (List.mem_cons_of_mem _ List.mem_cons_self)).2.mpr (by decide)

/-- The user 7 sends the user 8 a message without texts. -/
def silentText : Bytes := lit "\x7b\"fromuid\":7,\"text_array\":[],\"touid\":8\x7d"

def silentTexts : JsonCpp :=
  .nested [(silentText, .obj [(lit "fromuid", .int 7), (lit "text_array", .arr []),
    (lit "touid", .int 8)])]

theorem silent_request : TextRequest silentTexts silentText 7 8
    (.arr (([] : List TextChatData).map ChatServiceImpl.textJson)) :=
  ⟨by decide +kernel, rfl, rfl, rfl⟩

/-- The empty array arrives as null. -/
theorem texts_through_peer_fails : ¬ ∀ (J : JsonCpp) (self : ServerName) (session : SessId)
    (msg_data : Bytes) (texts : List TextChatData) (tr : List (Event calls)) (r : Except Exn Unit)
    (server_ip : Bytes) (req : TextChatMsgReq) (rsp : TextChatMsgRsp) (tr' : List (Event calls))
    (r' : Except Exn TextChatMsgRsp) (s : SessId) (msg : Bytes) (msgid : Int)
    (sent : (Call.send s msg msgid).Resp),
    (J.parse msg_data).2.lookup (lit "text_array") = .arr (texts.map ChatServiceImpl.textJson) →
    Yields (LogicSystem.chatTextMsgHandler J self session msg_data).run tr r →
    ⟨Call.notifyTextChatMsg server_ip req, rsp⟩ ∈ tr →
    Yields (ChatServiceImpl.notifyTextChatMsg J req).run tr' r' →
    ⟨Call.send s msg msgid, sent⟩ ∈ tr' →
    msg = J.toStyledString (ChatServiceImpl.textChatNotify req) ∧
      (ChatServiceImpl.textChatNotify req).lookup (lit "text_array")
        = .arr (texts.map ChatServiceImpl.textJson) := by
  intro h
  have hrun := silent_request.yields there_ne_here 0 { error := ErrorCodes.success.code }
  have hnull := (h _ _ _ _ [] _ _ _ _ _ _ _ _ _ _ _ rfl hrun
    (List.mem_cons_of_mem _ List.mem_cons_self)
    (ChatServiceImpl.notifyTextChatMsg_yields silentTexts _ 1)
    (List.mem_cons_of_mem _ List.mem_cons_self)).2
  exact absurd rfl ((ChatServiceImpl.textArray_eq_iff []).mp hnull)

end Texts

/-! ## When the reply can be believed -/

/-- The message is for a session that the user is bound to at that server. -/
def SentMsg.To (d : SentMsg) (n : Net) (uid : Int) : Prop :=
  match d.server with
  | none => n.world.proc.uidToSession uid = some d.session
  | some server => ∃ peer, n.peers server = some peer ∧ peer.uidToSession uid = some d.session

/-- The message has all the texts. -/
def SentMsg.Carries (J : JsonCpp) (d : SentMsg) (text_array : Json) : Prop :=
  ∃ v, d.msg = J.toStyledString v ∧
    LogicSystem.textChatDatas J (v.lookup (lit "text_array")) =
      LogicSystem.textChatDatas J text_array

/-- The message is a reply that the session has accepted and that says that all is well. -/
def SentMsg.Success (J : JsonCpp) (d : SentMsg) (session : SessId) : Prop :=
  d.server = none ∧ d.session = session ∧ d.msgid = MsgIds.textChatMsgRsp.id ∧ d.accepted = true ∧
    ∃ v, d.msg = J.toStyledString v ∧ v.lookup (lit "error") = .int ErrorCodes.success.code

/-- What can keep a text from its recipient: there is no route; it leads to this server, which does not know
the recipient, or whose session refuses the frame; or it leads to a server that is unknown, to which the call
fails, which does not know the recipient, or whose session refuses the frame. -/
inductive Undelivered (J : JsonCpp) (self : ServerName) (rpc : RpcOutcome) (fromuid touid : Int)
    (text_array : Json) (n : Net) : Prop where
  | noRoute : n.world.redis.get (ipKey touid) = none → Undelivered J self rpc fromuid touid text_array n
  | notHere : n.world.redis.get (ipKey touid) = some self.val → n.world.proc.uidToSession touid = none →
      Undelivered J self rpc fromuid touid text_array n
  | refusedHere {s : SessId} : n.world.redis.get (ipKey touid) = some self.val →
      n.world.proc.uidToSession touid = some s →
      ¬ (n.world.proc.sess s).Accepts
        (J.toStyledString (LogicSystem.textChatReply fromuid touid text_array)) →
      Undelivered J self rpc fromuid touid text_array n
  | unknownServer {to_ip_value : Bytes} : n.world.redis.get (ipKey touid) = some to_ip_value →
      to_ip_value ≠ self.val → n.peers to_ip_value = none → Undelivered J self rpc fromuid touid text_array n
  | rpcFailed {to_ip_value : Bytes} : n.world.redis.get (ipKey touid) = some to_ip_value →
      to_ip_value ≠ self.val → rpc.ok = false → Undelivered J self rpc fromuid touid text_array n
  | notThere {to_ip_value : Bytes} {peer : Proc} : n.world.redis.get (ipKey touid) = some to_ip_value →
      to_ip_value ≠ self.val → n.peers to_ip_value = some peer → peer.uidToSession touid = none →
      Undelivered J self rpc fromuid touid text_array n
  | refusedThere {to_ip_value : Bytes} {peer : Proc} {s : SessId} {textmsgs : List TextChatData} :
      n.world.redis.get (ipKey touid) = some to_ip_value → to_ip_value ≠ self.val →
      LogicSystem.textChatDatas J text_array = .ok textmsgs → n.peers to_ip_value = some peer →
      peer.uidToSession touid = some s →
      ¬ (peer.sess s).Accepts (J.toStyledString (ChatServiceImpl.textChatNotify
        { fromuid := fromuid, touid := touid, textmsgs := textmsgs })) →
      Undelivered J self rpc fromuid touid text_array n

/-- A reply that says that all is well comes after a message to the recipient, with all the texts, that
was accepted into the recipient's queue; and if something keeps the texts from the recipient, no such reply
is accepted. -/
structure Acknowledged (J : JsonCpp) (S : ServerName) (rpc : RpcOutcome) (session : SessId)
    (msg_data : Bytes) (n : Net) : Prop where
  believed : ∀ fromuid touid text_array, TextRequest J msg_data fromuid touid text_array →
    ∀ n' ds reply, Net.handle J S rpc session msg_data n = (.ok (), n') →
      n'.sent = n.sent ++ ds ++ [reply] → reply.Success J session →
      ∃ d ∈ ds, d.To n touid ∧ d.accepted = true ∧ d.Carries J text_array
  reported : ∀ fromuid touid text_array, TextRequest J msg_data fromuid touid text_array →
    Undelivered J S rpc fromuid touid text_array n →
    ∀ n' ds reply, Net.handle J S rpc session msg_data n = (.ok (), n') →
      n'.sent = n.sent ++ ds ++ [reply] → ¬ reply.Success J session

/-- The recipient has a route; it leads to this server or to a known peer to which the call succeeds; that
server knows the recipient; and the session has room for the frame. -/
def Deliverable (J : JsonCpp) (self : ServerName) (rpc : RpcOutcome) (fromuid touid : Int)
    (text_array : Json) (n : Net) : Prop :=
  ∃ to_ip_value, n.world.redis.get (ipKey touid) = some to_ip_value ∧
    (to_ip_value = self.val → ∃ s, n.world.proc.uidToSession touid = some s ∧
      (n.world.proc.sess s).Accepts
        (J.toStyledString (LogicSystem.textChatReply fromuid touid text_array))) ∧
    (to_ip_value ≠ self.val → ∀ textmsgs, LogicSystem.textChatDatas J text_array = .ok textmsgs →
      ∃ peer s, n.peers to_ip_value = some peer ∧ rpc.ok = true ∧
        peer.uidToSession touid = some s ∧
        (peer.sess s).Accepts (J.toStyledString (ChatServiceImpl.textChatNotify
          { fromuid := fromuid, touid := touid, textmsgs := textmsgs })))

/-- The sender's session has room for the reply, behind the copy if the sender is the recipient. -/
def ReplyFits (J : JsonCpp) (self : ServerName) (session : SessId) (fromuid touid : Int)
    (text_array : Json) (n : Net) : Prop :=
  ((copied J self fromuid touid text_array n).sess session).Accepts
    (J.toStyledString (LogicSystem.textChatReply fromuid touid text_array))

instance (J : JsonCpp) (self : ServerName) (session : SessId) (fromuid touid : Int) (text_array : Json)
    (n : Net) : Decidable (ReplyFits J self session fromuid touid text_array n) :=
  inferInstanceAs (Decidable (Sess.Accepts _ _))

section Acknowledged

variable {J : JsonCpp} {self : ServerName} {rpc : RpcOutcome} {session : SessId} {msg_data : Bytes}
  {fromuid touid : Int} {text_array : Json} {n : Net}

/-- What is sent to the recipient is for the recipient and has all the texts. -/
theorem routed_to {ds : List SentMsg} {d : SentMsg}
    (h : routed J self rpc fromuid touid text_array n = .ok ds) (hd : d ∈ ds) :
    d.To n touid ∧ d.Carries J text_array := by
  unfold routed at h
  split at h
  · cases h
    cases hd
  · split at h
    · cases h
      obtain ⟨s, hs, rfl⟩ := List.mem_map.mp hd
      exact ⟨Option.mem_toList.mp hs, _, rfl, rfl⟩
    · split at h
      · cases h
      · rename_i textmsgs htexts
        split at h
        · cases h
          cases hd
        · rename_i peer hpeer
          split at h
          · cases h
            obtain ⟨s, hs, rfl⟩ := List.mem_map.mp hd
            refine ⟨⟨peer, hpeer, Option.mem_toList.mp hs⟩, _, rfl, ?_⟩
            rw [htexts]
            exact LogicSystem.textChatDatas_textArray textmsgs
          · cases h
            cases hd

/-- A deliverable message is accepted by a session of the recipient. -/
theorem Deliverable.accepted {ds : List SentMsg} (h : Deliverable J self rpc fromuid touid text_array n)
    (hrouted : routed J self rpc fromuid touid text_array n = .ok ds) : ∃ d ∈ ds, d.accepted = true := by
  obtain ⟨to_ip_value, hroute, hhere, hthere⟩ := h
  unfold routed recipient at hrouted
  rw [hroute] at hrouted
  dsimp only at hrouted
  by_cases hip : to_ip_value = self.val
  · obtain ⟨s, hs, hfits⟩ := hhere hip
    rw [if_pos hip, hs] at hrouted
    cases hrouted
    exact ⟨_, List.mem_singleton_self _, decide_eq_true hfits⟩
  · rw [if_neg hip] at hrouted
    rcases htexts : LogicSystem.textChatDatas J text_array with e | textmsgs
    · rw [htexts] at hrouted
      cases hrouted
    · obtain ⟨peer, s, hpeer, hok, hs, hfits⟩ := hthere hip textmsgs htexts
      rw [htexts, hpeer] at hrouted
      dsimp only at hrouted
      rw [if_pos (rpc.executed_of_ok hok), hs] at hrouted
      cases hrouted
      exact ⟨_, List.mem_singleton_self _, decide_eq_true hfits⟩

/-- Texts that cannot be converted are not sent to a peer, and nothing is replied. -/
theorem deliverable_of_error {e : Exn} (h : routed J self rpc fromuid touid text_array n = .error e) :
    Deliverable J self rpc fromuid touid text_array n := by
  unfold routed at h
  split at h
  · cases h
  · rename_i to_ip_value hroute
    split at h
    · cases h
    · rename_i hip
      split at h
      · rename_i htexts
        refine ⟨to_ip_value, hroute, fun heq => absurd heq hip, ?_⟩
        intro _ textmsgs hok
        rw [htexts] at hok
        cases hok
      · split at h
        · cases h
        · split at h <;> cases h

/-- Once the texts are converted, something keeps them from the recipient exactly if they are not
deliverable. -/
theorem undelivered_iff {ds : List SentMsg} (h : routed J self rpc fromuid touid text_array n = .ok ds) :
    Undelivered J self rpc fromuid touid text_array n ↔
      ¬ Deliverable J self rpc fromuid touid text_array n := by
  constructor
  · rintro hun ⟨to_ip_value, hroute, hhere, hthere⟩
    have hconverted : to_ip_value ≠ self.val →
        ∃ textmsgs, LogicSystem.textChatDatas J text_array = .ok textmsgs := by
      intro hip
      rcases htexts : LogicSystem.textChatDatas J text_array with e | textmsgs
      · simp [routed, hroute, hip, htexts] at h
      · exact ⟨textmsgs, rfl⟩
    cases hun with
    | noRoute hnone => simp [hnone] at hroute
    | notHere hself hnone =>
      obtain rfl := Option.some.inj (hself.symm.trans hroute)
      obtain ⟨s, hs, -⟩ := hhere rfl
      simp [hnone] at hs
    | refusedHere hself hs hfull =>
      obtain rfl := Option.some.inj (hself.symm.trans hroute)
      obtain ⟨t, ht, hfits⟩ := hhere rfl
      obtain rfl := Option.some.inj (hs.symm.trans ht)
      exact hfull hfits
    | unknownServer hip hne hnone =>
      obtain rfl := Option.some.inj (hip.symm.trans hroute)
      obtain ⟨textmsgs, htexts⟩ := hconverted hne
      obtain ⟨peer, -, hpeer, -⟩ := hthere hne textmsgs htexts
      simp [hnone] at hpeer
    | rpcFailed hip hne hfailed =>
      obtain rfl := Option.some.inj (hip.symm.trans hroute)
      obtain ⟨textmsgs, htexts⟩ := hconverted hne
      obtain ⟨-, -, -, hok, -⟩ := hthere hne textmsgs htexts
      simp [hfailed] at hok
    | notThere hip hne hpeer hnone =>
      obtain rfl := Option.some.inj (hip.symm.trans hroute)
      obtain ⟨textmsgs, htexts⟩ := hconverted hne
      obtain ⟨peer', s, hpeer', -, hs, -⟩ := hthere hne textmsgs htexts
      obtain rfl := Option.some.inj (hpeer.symm.trans hpeer')
      simp [hnone] at hs
    | refusedThere hip hne htexts hpeer hs hfull =>
      obtain rfl := Option.some.inj (hip.symm.trans hroute)
      obtain ⟨peer', t, hpeer', -, ht, hfits⟩ := hthere hne _ htexts
      obtain rfl := Option.some.inj (hpeer.symm.trans hpeer')
      obtain rfl := Option.some.inj (hs.symm.trans ht)
      exact hfull hfits
  · intro hnot
    rcases hroute : n.world.redis.get (ipKey touid) with _ | to_ip_value
    · exact .noRoute hroute
    by_cases hip : to_ip_value = self.val
    · subst hip
      rcases hs : n.world.proc.uidToSession touid with _ | s
      · exact .notHere hroute hs
      · refine .refusedHere hroute hs fun hfits => hnot ?_
        exact ⟨_, hroute, fun _ => ⟨s, hs, hfits⟩, fun hne => absurd rfl hne⟩
    · rcases hpeer : n.peers to_ip_value with _ | peer
      · exact .unknownServer hroute hip hpeer
      rcases hok : rpc.ok with _ | _
      · exact .rpcFailed hroute hip hok
      rcases hs : peer.uidToSession touid with _ | s
      · exact .notThere hroute hip hpeer hs
      · by_contra hun
        refine hnot ⟨_, hroute, fun heq => absurd heq hip, fun _ textmsgs htexts => ?_⟩
        refine ⟨peer, s, hpeer, hok, hs, ?_⟩
        by_contra hfull
        exact hun (.refusedThere hroute hip htexts hpeer hs hfull)

/-- What the handler has sent last is the reply. -/
theorem reply_of_handle {n' : Net} {ds : List SentMsg} {reply : SentMsg}
    (hq : TextRequest J msg_data fromuid touid text_array)
    (hn : Net.handle J self rpc session msg_data n = (.ok (), n'))
    (hsent : n'.sent = n.sent ++ ds ++ [reply]) :
    routed J self rpc fromuid touid text_array n = .ok ds ∧
      reply = textReply J session fromuid touid text_array (copied J self fromuid touid text_array n) := by
  have hall := handle_sent hq self rpc session n
  rcases hrouted : routed J self rpc fromuid touid text_array n with e | ds'
  · rw [hrouted] at hall
    obtain ⟨n₁, hn₁⟩ := hall
    rw [hn₁] at hn
    cases hn
  · rw [hrouted] at hall
    obtain ⟨n₁, hn₁, hsent₁⟩ := hall
    rw [hn₁] at hn
    cases hn
    rw [hsent₁, List.append_assoc, List.append_assoc] at hsent
    obtain ⟨hds, hreply⟩ := List.append_inj' (List.append_cancel_left hsent) rfl
    exact ⟨congrArg Except.ok hds, (List.singleton_inj.mp hreply).symm⟩

/-- The reply says that all is well, and it is accepted if there is room for it. -/
theorem textReply_success :
    (textReply J session fromuid touid text_array (copied J self fromuid touid text_array n)).Success J
      session ↔ ReplyFits J self session fromuid touid text_array n := by
  constructor
  · rintro ⟨-, -, -, hacc, -⟩
    exact of_decide_eq_true hacc
  · intro hfits
    exact ⟨rfl, rfl, rfl, decide_eq_true hfits, _, rfl, rfl⟩

/-- **When a reply can be believed.** Whatever the body, the route, `UserMgr`, the peers and the outcome
of the remote call are: the reply means that the message was accepted into a queue of the recipient, and
nothing that keeps it from the recipient is replied to like this, exactly if the message, when it is one
between two users and the sender's session has room for the reply, is deliverable. -/
theorem acknowledged_iff :
    Acknowledged J self rpc session msg_data n ↔
      ∀ fromuid touid text_array, TextRequest J msg_data fromuid touid text_array →
        ReplyFits J self session fromuid touid text_array n →
        Deliverable J self rpc fromuid touid text_array n := by
  constructor
  · intro hack fromuid touid text_array hq hfits
    have hsent := handle_sent hq self rpc session n
    rcases hrouted : routed J self rpc fromuid touid text_array n with e | ds
    · exact deliverable_of_error hrouted
    · rw [hrouted] at hsent
      obtain ⟨n', hn, hsent⟩ := hsent
      by_contra hnot
      -- the reply is a success whatever has happened
      exact hack.reported _ _ _ hq ((undelivered_iff hrouted).mpr hnot) _ _ _ hn hsent
        (textReply_success.mpr hfits)
  · intro hcond
    refine ⟨?_, ?_⟩
    · intro fromuid touid text_array hq n' ds reply hn hsent hsuccess
      obtain ⟨hrouted, rfl⟩ := reply_of_handle hq hn hsent
      have hdel := hcond _ _ _ hq (textReply_success.mp hsuccess)
      obtain ⟨d, hd, hacc⟩ := hdel.accepted hrouted
      obtain ⟨hto, hcarries⟩ := routed_to hrouted hd
      exact ⟨d, hd, hto, hacc, hcarries⟩
    · intro fromuid touid text_array hq hun n' ds reply hn hsent hsuccess
      obtain ⟨hrouted, rfl⟩ := reply_of_handle hq hn hsent
      exact (undelivered_iff hrouted).mp hun (hcond _ _ _ hq (textReply_success.mp hsuccess))

/-- The user 8 has no route, and the user 7 is told that all is well. -/
theorem acknowledged_fails : ¬ ∀ (J : JsonCpp) (self : ServerName) (rpc : RpcOutcome)
    (session : SessId) (msg_data : Bytes) (n : Net), Acknowledged J self rpc session msg_data n := by
  intro h
  have hrouted : routed helloTexts here .success 7 8 (.arr (helloMsgs.map ChatServiceImpl.textJson))
      offlineNet = .ok [] := rfl
  have hsent := handle_sent hello_request here .success 0 offlineNet
  rw [hrouted] at hsent
  obtain ⟨n', hn, hsent⟩ := hsent
  have hfits : ReplyFits helloTexts here 0 7 8 (.arr (helloMsgs.map ChatServiceImpl.textJson)) offlineNet := by
    decide +kernel
  obtain ⟨d, hd, -⟩ := (h _ _ _ _ _ _).believed _ _ _ hello_request n' [] _ hn hsent
    (textReply_success.mpr hfits)
  cases hd

end Acknowledged

end ChatServer
