import ChatServer.Footprint
import ChatServer.SendQueue

/-!
# One reply to each request

What a handler that returns has put into the queue of the session it replies to. The database and Redis
hold anything, and between the calls of the handler other threads do what they like to the queue, as
long as it has room.

The reply is sent when its text is neither empty nor longer than `MAX_LENGTH`; `send` drops it
otherwise, and nobody notices. `one_reply_iff` says for which requests and which data there is exactly
one reply.
-/

namespace ChatServer

open Interaction Prog Handler Bytes Decimal LogicSystem

/-! ## What is accepted -/

/-- A body that `send` takes when the queue has room. -/
def Fits (msg : Bytes) : Prop := 1 ≤ msg.length ∧ msg.length ≤ maxLength

instance (msg : Bytes) : Decidable (Fits msg) := instDecidableAnd

theorem Sess.accepts_iff {x : Sess} {msg : Bytes} (h : x.sendQue.length < maxSendQue) :
    x.Accepts msg ↔ Fits msg := and_iff_right h

/-- The messages for the session `s`, as it is when the call is made, that the call gets accepted. -/
def acceptedFrom (s : SessId) (x : Sess) : Call → List (Bytes × Int)
  | .send t msg msgid => if t = s ∧ x.Accepts msg then [(msg, msgid)] else []
  | _ => []

theorem acceptedFrom_send (s t : SessId) (x : Sess) (msg : Bytes) (msgid : Int) :
    acceptedFrom s x (.send t msg msgid) =
      if t = s ∧ x.Accepts msg then [(msg, msgid)] else [] := rfl

/-- A call of a handler, answered from `content`, while the session `s` has room. What has been
accepted for the session is recorded. -/
def Serving (content : (c : Call) → c.Resp) (s : SessId) (e : Event calls)
    (acc acc' : List (Bytes × Int)) : Prop :=
  e.2 = content e.1 ∧
    ∃ x : Sess, x.sendQue.length < maxSendQue ∧ acc' = acc ++ acceptedFrom s x e.1

/-- How many messages with the id have been accepted. -/
def replies (id : Int) (acc : List (Bytes × Int)) : Nat := acc.countP fun m => m.2 = id

section Executions

variable {content : (c : Call) → c.Resp} {s : SessId} {id : Int} {acc acc' : List (Bytes × Int)}
  {tr : List (Event calls)} {α : Type}

theorem serving_ask {c : Call} {f : c.Resp → Handler α} {a : Except Exn α}
    (h : Exec (Serving content s) (ask c >>= f).run acc tr a acc') :
    ∃ x acc₁ tr', x.sendQue.length < maxSendQue ∧ acc₁ = acc ++ acceptedFrom s x c ∧
      Exec (Serving content s) (f (content c)).run acc₁ tr' a acc' := by
  cases h with
  | call hs hk =>
    obtain ⟨hr, x, hx, hacc⟩ := hs
    dsimp only at hr
    subst hr
    exact ⟨x, _, _, hx, hacc, hk⟩

/-- Calls that send the session `s` nothing with the id. -/
def Call.Silent (s : SessId) (id : Int) : Call → Prop
  | .send t _ msgid => t = s → msgid ≠ id
  | _ => True

theorem replies_silent {c : Call} {x : Sess} (hc : c.Silent s id) :
    replies id (acc ++ acceptedFrom s x c) = replies id acc := by
  have hnone : (acceptedFrom s x c).countP (fun m => m.2 = id) = 0 := by
    cases c with
    | send t msg msgid =>
      rw [acceptedFrom_send]
      split
      · rename_i h
        rw [List.countP_singleton, if_neg]
        simpa using hc h.1
      · rfl
    | _ => rfl
  unfold replies
  rw [List.countP_append, hnone, Nat.add_zero]

theorem serving_ask_silent (id : Int) {c : Call} {f : c.Resp → Handler α} {a : Except Exn α}
    (h : Exec (Serving content s) (ask c >>= f).run acc tr a acc') (hc : c.Silent s id) :
    ∃ acc₁ tr', replies id acc₁ = replies id acc ∧
      Exec (Serving content s) (f (content c)).run acc₁ tr' a acc' := by
  obtain ⟨x, acc₁, tr', -, rfl, h⟩ := serving_ask h
  exact ⟨_, tr', replies_silent hc, h⟩

/-- A program that makes only such calls leaves the number of replies as it is. -/
theorem exec_silent {p : Io α} {a : α} (h : Exec (Serving content s) p acc tr a acc')
    (hp : p.Uses (Call.Silent s id)) : replies id acc' = replies id acc := by
  induction h with
  | ret => rfl
  | call hs _ ih =>
    obtain ⟨-, x, -, rfl⟩ := hs
    rw [ih (hp.2 _), replies_silent hp.1]

/-- Sending a message adds a reply, if the message fits. -/
theorem replies_send {x : Sess} {msg : Bytes} (hx : x.sendQue.length < maxSendQue) :
    replies id (acc ++ acceptedFrom s x (.send s msg id)) =
      replies id acc + if Fits msg then 1 else 0 := by
  unfold replies
  rw [List.countP_append, acceptedFrom_send]
  by_cases h : Fits msg <;> simp [Sess.accepts_iff hx, h]

/-- The last statement of a handler is its reply. -/
theorem exec_reply {msg : Bytes} {r : Except Exn Unit}
    (h : Exec (Serving content s) (ask (.send s msg id)).run acc tr r acc') :
    replies id acc' = replies id acc + if Fits msg then 1 else 0 := by
  cases h with
  | call hs hk =>
    obtain ⟨-, x, hx, rfl⟩ := hs
    obtain ⟨-, rfl⟩ := exec_ret hk
    exact replies_send hx

end Executions

/-! ## What is replied -/

/-- What `getBaseInfo` finds about a user. -/
def baseInfo (content : (c : Call) → c.Resp) (uid : Int) : Option UserInfo :=
  (content (.getUserInfo uid)).map fun db_user =>
    if db_user.nick = [] then { db_user with nick := db_user.name } else db_user

/-- The reply to a login, which depends on the token, the profile, the applications and the friends. -/
def loginAnswer (content : (c : Call) → c.Resp) (uid : Int) (token : Bytes) : Json :=
  match content (.get (tokenKey uid)) with
  | none => Json.errorReply .uidInvalid
  | some token_value =>
    if token_value ≠ token then Json.errorReply .tokenInvalid
    else
      match baseInfo content uid with
      | none => Json.errorReply .uidInvalid
      | some user_info =>
        loginReply uid user_info (content (.getApplyList uid 0 10)).1
          (content (.getApplyList uid 0 10)).2 (content (.getFriendList uid)).2

/-- The reply to a search for a user by uid or by name: the cached profile, or what the database
says. -/
def userAnswer (J : JsonCpp) (cached : Option Bytes) (user_info : Except Exn (Option UserInfo)) :
    Except Exn Json :=
  match cached with
  | some info_str => profileReply J info_str
  | none =>
    match user_info with
    | .error e => .error e
    | .ok none => .ok (Json.errorReply .uidInvalid)
    | .ok (some _) => .ok (Json.errorReply .success)

def searchAnswer (J : JsonCpp) (content : (c : Call) → c.Resp) (msg_data : Bytes) :
    Except Exn Json := do
  let parsed := J.parse msg_data
  if parsed.1 = false then
    pure (Json.errorReply .errorJson)
  else
    let b_uid ← parsed.2.isMember "uid"
    if b_uid = false then
      pure (Json.errorReply .errorJson)
    else
      let uid_str ← parsed.2.getString J "uid"
      if (parsed.2.lookup (lit "uid")).isInt then
        userAnswer J (content (.get (RedisPrefix.userBaseInfo ++ uid_str)))
          ((stoi uid_str).map fun uid => content (.getUserInfo uid))
      else
        userAnswer J (content (.get (RedisPrefix.userNameInfo ++ uid_str)))
          (.ok (content (.getUserInfoByName uid_str)))

/-- The reply to a message. -/
def replyTo (J : JsonCpp) (content : (c : Call) → c.Resp) (node : RecvNode) : Except Exn Json := do
  let root := (J.parse node.text).2
  if node.msgId = MsgIds.chatLogin.id then
    let uid ← root.getInt "uid"
    let token ← root.getString J "token"
    pure (loginAnswer content uid token)
  else if node.msgId = MsgIds.searchUserReq.id then
    searchAnswer J content node.text
  else if node.msgId = MsgIds.addFriendReq.id then
    pure (Json.errorReply .success)
  else if node.msgId = MsgIds.authFriendReq.id then
    let applicant_uid ← root.getInt "fromuid"
    let alias_name ← root.getString J "alias_name"
    pure (authFriendReply applicant_uid alias_name (baseInfo content applicant_uid))
  else
    let fromuid ← root.getInt "fromuid"
    let touid ← root.getInt "touid"
    let text_array ← root.member "text_array"
    pure (textChatReply fromuid touid text_array)

/-- The id of the reply to a message with a handler. -/
def responseId (msg_id : Int) : Option Int :=
  if msg_id = MsgIds.chatLogin.id then some MsgIds.chatLoginRsp.id
  else if msg_id = MsgIds.searchUserReq.id then some MsgIds.searchUserRsp.id
  else if msg_id = MsgIds.addFriendReq.id then some MsgIds.addFriendRsp.id
  else if msg_id = MsgIds.authFriendReq.id then some MsgIds.authFriendRsp.id
  else if msg_id = MsgIds.textChatMsgReq.id then some MsgIds.textChatMsgRsp.id
  else none

/-- A text message whose recipient is bound, on this server, to the session that sends it. -/
def selfAddressed (J : JsonCpp) (self : ServerName) (content : (c : Call) → c.Resp)
    (node : LogicNode) : Bool :=
  decide (node.recvNode.msgId = MsgIds.textChatMsgReq.id) &&
    match (J.parse node.recvNode.text).2.getInt "touid" with
    | .error _ => false
    | .ok touid => decide (content (.get (ipKey touid)) = some self.val) &&
        decide (content (.getSession touid) = some node.session)

section Handlers

variable {J : JsonCpp} {self : ServerName} {content : (c : Call) → c.Resp} {s session : SessId}
  {id : Int} {acc acc' : List (Bytes × Int)} {tr : List (Event calls)}

theorem getBaseInfo_answer {base_key : Bytes} {uid : Int} {info : Option UserInfo}
    (h : Exec (Serving content s) (getBaseInfo J base_key uid).run acc tr (.ok info) acc') :
    info = baseInfo content uid := by
  obtain ⟨x, acc₁, tr₁, -, -, h⟩ := serving_ask h
  unfold baseInfo
  cases hinfo : content (.getUserInfo uid) with
  | none =>
    rw [hinfo] at h
    exact Except.ok.inj (exec_ret h).1
  | some db_user =>
    rw [hinfo] at h
    obtain ⟨_, _, _, _, -, -, h⟩ := exec_bind_ok h
    exact Except.ok.inj (exec_ret h).1

theorem login_answer {uid : Int} {token : Bytes} {v : Json}
    (h : Exec (Serving content s) (login J self session uid token).run acc tr (.ok v) acc') :
    v = loginAnswer content uid token := by
  obtain ⟨x, acc₁, tr₁, -, -, h⟩ := serving_ask h
  unfold loginAnswer
  cases htoken : content (.get (tokenKey uid)) with
  | none =>
    rw [htoken] at h
    exact Except.ok.inj (exec_ret h).1
  | some token_value =>
    rw [htoken] at h
    dsimp only at h ⊢
    split at h
    · rename_i hne
      rw [if_pos hne]
      exact Except.ok.inj (exec_ret h).1
    · rename_i heq
      rw [if_neg heq]
      obtain ⟨info, _, _, _, -, hinfo, h⟩ := exec_bind_ok h
      rw [← getBaseInfo_answer hinfo]
      cases info with
      | none => exact Except.ok.inj (exec_ret h).1
      | some user_info =>
        obtain ⟨_, _, _, -, -, h⟩ := serving_ask h
        obtain ⟨_, _, _, -, -, h⟩ := serving_ask h
        obtain ⟨_, _, _, _, -, -, h⟩ := exec_bind_ok h
        exact Except.ok.inj (exec_ret h).1

theorem profileReply_answer {info_str : Bytes} {v : Json}
    (h : Exec (Serving content s) (liftM (profileReply J info_str) : Handler Json).run acc tr (.ok v)
      acc') : profileReply J info_str = .ok v := by
  cases hp : profileReply J info_str with
  | ok w =>
    rw [hp] at h
    exact (exec_ret h).1.symm
  | error e =>
    rw [hp] at h
    cases (exec_ret h).1

theorem getUserByUid_answer {uid_str : Bytes} {v : Json}
    (h : Exec (Serving content s) (getUserByUid J uid_str).run acc tr (.ok v) acc') :
    userAnswer J (content (.get (RedisPrefix.userBaseInfo ++ uid_str)))
      ((stoi uid_str).map fun uid => content (.getUserInfo uid)) = .ok v := by
  obtain ⟨x, acc₁, tr₁, -, -, h⟩ := serving_ask h
  unfold userAnswer
  cases hget : content (.get (RedisPrefix.userBaseInfo ++ uid_str)) with
  | some info_str =>
    rw [hget] at h
    exact profileReply_answer h
  | none =>
    rw [hget] at h
    obtain ⟨uid, huid, h⟩ := exec_lift h
    obtain ⟨_, _, _, -, -, h⟩ := serving_ask h
    cases huser : content (.getUserInfo uid) with
    | none =>
      rw [huser] at h
      simp only [huid, Except.map, huser]
      exact (exec_ret h).1.symm
    | some user_info =>
      rw [huser] at h
      simp only [huid, Except.map, huser]
      obtain ⟨_, _, _, _, -, -, h⟩ := exec_bind_ok h
      exact (exec_ret h).1.symm

theorem getUserByName_answer {name_str : Bytes} {v : Json}
    (h : Exec (Serving content s) (getUserByName J name_str).run acc tr (.ok v) acc') :
    userAnswer J (content (.get (RedisPrefix.userNameInfo ++ name_str)))
      (.ok (content (.getUserInfoByName name_str))) = .ok v := by
  obtain ⟨x, acc₁, tr₁, -, -, h⟩ := serving_ask h
  unfold userAnswer
  cases hget : content (.get (RedisPrefix.userNameInfo ++ name_str)) with
  | some info_str =>
    rw [hget] at h
    exact profileReply_answer h
  | none =>
    rw [hget] at h
    obtain ⟨_, _, _, -, -, h⟩ := serving_ask h
    cases huser : content (.getUserInfoByName name_str) with
    | none =>
      rw [huser] at h
      exact (exec_ret h).1.symm
    | some user_info =>
      rw [huser] at h
      obtain ⟨_, _, _, _, -, -, h⟩ := exec_bind_ok h
      exact (exec_ret h).1.symm

theorem searchUser_answer {msg_data : Bytes} {v : Json}
    (h : Exec (Serving content s) (searchUser J msg_data).run acc tr (.ok v) acc') :
    searchAnswer J content msg_data = .ok v := by
  unfold searchUser at h
  unfold searchAnswer
  dsimp only at h ⊢
  split at h
  · rename_i hparse
    rw [if_pos hparse]
    exact (exec_ret h).1.symm
  · rename_i hparse
    rw [if_neg hparse]
    obtain ⟨b_uid, huid, h⟩ := exec_lift h
    rw [huid]
    show (if b_uid = false then _ else _) = _
    split at h
    · rename_i hb
      rw [if_pos hb]
      exact (exec_ret h).1.symm
    · rename_i hb
      rw [if_neg hb]
      obtain ⟨uid_str, hstr, h⟩ := exec_lift h
      rw [hstr]
      show (if (Json.lookup (lit "uid") (J.parse msg_data).2).isInt = true then _ else _) = _
      split at h
      · rename_i hint
        rw [if_pos hint]
        exact getUserByUid_answer h
      · rename_i hint
        rw [if_neg hint]
        exact getUserByName_answer h

/-! ### Calls before the reply -/

namespace LogicSystem

theorem CacheCall.silent {c : Call} (h : CacheCall c) : c.Silent s id := by
  cases h <;> trivial

theorem LoginCall.silent {uid : Int} {c : Call} (h : LoginCall self session uid c) :
    c.Silent s id := by
  cases h with
  | cache h => exact h.silent
  | _ => trivial

theorem SearchCall.silent {c : Call} (h : SearchCall c) : c.Silent s id := by
  cases h with
  | cache h => exact h.silent
  | _ => trivial

theorem AddFriendCall.silent {uid touid : Int} {name alias_name : Bytes} {c : Call}
    (h : AddFriendCall J uid touid name alias_name c) : c.Silent s MsgIds.addFriendRsp.id := by
  cases h with
  | cache h => exact h.silent
  | notify => exact fun _ => by decide
  | _ => trivial

theorem AuthFriendCall.silent {applicant_uid accepter_uid : Int} {alias_name : Bytes} {c : Call}
    (h : AuthFriendCall J applicant_uid accepter_uid alias_name c) :
    c.Silent s MsgIds.authFriendRsp.id := by
  cases h with
  | cache h => exact h.silent
  | notify => exact fun _ => by decide
  | _ => trivial

end LogicSystem

/-! ### Each handler -/

/-- How the number of messages with the id grows when the reply is `v`, sent `n` times. -/
def GrowsBy (J : JsonCpp) (id : Int) (v : Json) (n : Nat) (acc acc' : List (Bytes × Int)) : Prop :=
  replies id acc' = replies id acc + if Fits (J.toStyledString v) then n else 0

theorem loginHandler_replies {msg_data : Bytes}
    (h : Exec (Serving content s) (loginHandler J self s msg_data).run acc tr (.ok ()) acc') :
    ∃ uid token, (J.parse msg_data).2.getInt "uid" = .ok uid ∧
      (J.parse msg_data).2.getString J "token" = .ok token ∧
      GrowsBy J MsgIds.chatLoginRsp.id (loginAnswer content uid token) 1 acc acc' := by
  obtain ⟨uid, huid, h⟩ := exec_lift h
  obtain ⟨token, htoken, h⟩ := exec_lift h
  obtain ⟨v, acc₁, _, _, -, hlogin, h⟩ := exec_bind_ok h
  refine ⟨uid, token, huid, htoken, ?_⟩
  rw [GrowsBy, exec_reply h, login_answer hlogin,
    exec_silent hlogin ((login_calls self s uid token).mono fun _ hc => hc.silent)]

theorem searchUserHandler_replies {msg_data : Bytes}
    (h : Exec (Serving content s) (searchUserHandler J s msg_data).run acc tr (.ok ()) acc') :
    ∃ v, searchAnswer J content msg_data = .ok v ∧
      GrowsBy J MsgIds.searchUserRsp.id v 1 acc acc' := by
  obtain ⟨v, acc₁, _, _, -, hsearch, h⟩ := exec_bind_ok h
  refine ⟨v, searchUser_answer hsearch, ?_⟩
  rw [GrowsBy, exec_reply h,
    exec_silent hsearch ((searchUser_calls msg_data).mono fun _ hc => hc.silent)]

theorem addFriendHandler_replies {msg_data : Bytes}
    (h : Exec (Serving content s) (addFriendHandler J self s msg_data).run acc tr (.ok ()) acc') :
    GrowsBy J MsgIds.addFriendRsp.id (Json.errorReply .success) 1 acc acc' := by
  obtain ⟨uid, -, h⟩ := exec_lift h
  obtain ⟨name, -, h⟩ := exec_lift h
  obtain ⟨alias_name, -, h⟩ := exec_lift h
  obtain ⟨touid, -, h⟩ := exec_lift h
  obtain ⟨acc₁, tr₁, hacc, h⟩ := serving_ask_silent MsgIds.addFriendRsp.id h trivial
  obtain ⟨_, acc₂, _, _, -, hroute, h⟩ := exec_bind_ok h
  rw [GrowsBy, exec_reply h, exec_silent hroute
    ((routeAddFriend_calls self uid touid name alias_name).mono fun _ hc => hc.silent), hacc]

theorem authFriendHandler_replies {msg_data : Bytes}
    (h : Exec (Serving content s) (authFriendHandler J self s msg_data).run acc tr (.ok ()) acc') :
    ∃ applicant_uid alias_name, (J.parse msg_data).2.getInt "fromuid" = .ok applicant_uid ∧
      (J.parse msg_data).2.getString J "alias_name" = .ok alias_name ∧
      GrowsBy J MsgIds.authFriendRsp.id
        (authFriendReply applicant_uid alias_name (baseInfo content applicant_uid)) 1 acc acc' := by
  obtain ⟨applicant_uid, hfrom, h⟩ := exec_lift h
  obtain ⟨accepter_uid, -, h⟩ := exec_lift h
  obtain ⟨alias_name, halias, h⟩ := exec_lift h
  obtain ⟨info, acc₁, _, _, -, hinfo, h⟩ := exec_bind_ok h
  obtain ⟨acc₂, _, h₂, h⟩ := serving_ask_silent MsgIds.authFriendRsp.id h trivial
  obtain ⟨acc₃, _, h₃, h⟩ := serving_ask_silent MsgIds.authFriendRsp.id h trivial
  obtain ⟨acc₄, _, h₄, h⟩ := serving_ask_silent MsgIds.authFriendRsp.id h trivial
  obtain ⟨acc₅, _, h₅, h⟩ := serving_ask_silent MsgIds.authFriendRsp.id h trivial
  obtain ⟨_, acc₆, _, _, -, hroute, h⟩ := exec_bind_ok h
  refine ⟨applicant_uid, alias_name, hfrom, halias, ?_⟩
  rw [GrowsBy, exec_reply h, exec_silent hroute
    ((routeAuthFriend_calls self _ accepter_uid alias_name _).mono fun _ hc => hc.silent),
    h₅, h₄, h₃, h₂, exec_silent hinfo ((getBaseInfo_calls _ _).mono fun _ hc => hc.silent),
    getBaseInfo_answer hinfo]

/-- A text message that is delivered to the session that sends it is a message with the id of the
reply. -/
theorem routeTextChatMsg_replies {fromuid touid : Int} {text_array : Json}
    (h : Exec (Serving content s) (routeTextChatMsg J self fromuid touid text_array).run acc tr (.ok ())
      acc') :
    GrowsBy J MsgIds.textChatMsgRsp.id (textChatReply fromuid touid text_array)
      (if content (.get (ipKey touid)) = some self.val ∧ content (.getSession touid) = some s
        then 1 else 0) acc acc' := by
  have hquiet : ∀ {n : Nat}, n = 0 → replies MsgIds.textChatMsgRsp.id acc' =
      replies MsgIds.textChatMsgRsp.id acc → GrowsBy J MsgIds.textChatMsgRsp.id
        (textChatReply fromuid touid text_array) n acc acc' := by
    rintro n rfl hsame
    rw [GrowsBy, hsame, ite_self, Nat.add_zero]
  obtain ⟨acc₁, tr₁, hone, h⟩ := serving_ask_silent MsgIds.textChatMsgRsp.id h trivial
  cases hip : content (.get (ipKey touid)) with
  | none =>
    -- no route: nothing is sent before the reply
    rw [hip] at h
    refine hquiet (if_neg fun h => nomatch h.1) ?_
    rw [(exec_ret h).2, hone]
  | some to_ip_value =>
    rw [hip] at h
    dsimp only at h
    split at h
    · rename_i heq
      obtain ⟨acc₂, tr₂, htwo, h⟩ := serving_ask_silent MsgIds.textChatMsgRsp.id h trivial
      rw [hone] at htwo
      cases hsess : content (.getSession touid) with
      | none =>
        rw [hsess] at h
        refine hquiet (if_neg fun h => nomatch h.2) ?_
        rw [(exec_ret h).2, htwo]
      | some t =>
        rw [hsess] at h
        by_cases hts : t = s
        · -- the sender itself gets the message, with the id of the reply
          subst hts
          rw [if_pos ⟨congrArg some heq, rfl⟩, GrowsBy, exec_reply h, htwo]
        · refine hquiet (if_neg fun h => hts (Option.some.inj h.2)) ?_
          rw [exec_silent h ⟨fun ht => absurd ht hts, fun _ => trivial⟩, htwo]
    · -- another server: the call is silent here
      rename_i hne
      obtain ⟨textmsgs, -, h⟩ := exec_lift h
      obtain ⟨acc₂, tr₂, htwo, h⟩ := serving_ask_silent MsgIds.textChatMsgRsp.id h trivial
      refine hquiet (if_neg fun h => hne (Option.some.inj h.1)) ?_
      rw [(exec_ret h).2, htwo, hone]

theorem chatTextMsgHandler_replies {msg_data : Bytes}
    (hbody : ((J.parse msg_data).2.isNull || (J.parse msg_data).2.empty) = false)
    (h : Exec (Serving content s) (chatTextMsgHandler J self s msg_data).run acc tr (.ok ()) acc') :
    ∃ fromuid touid text_array, (J.parse msg_data).2.getInt "fromuid" = .ok fromuid ∧
      (J.parse msg_data).2.getInt "touid" = .ok touid ∧
      (J.parse msg_data).2.member "text_array" = .ok text_array ∧
      GrowsBy J MsgIds.textChatMsgRsp.id (textChatReply fromuid touid text_array)
        (if content (.get (ipKey touid)) = some self.val ∧ content (.getSession touid) = some s
          then 2 else 1) acc acc' := by
  unfold chatTextMsgHandler at h
  dsimp only at h
  rw [if_neg (Bool.eq_false_iff.mp hbody)] at h
  obtain ⟨fromuid, hfrom, h⟩ := exec_lift h
  obtain ⟨touid, hto, h⟩ := exec_lift h
  obtain ⟨text_array, htexts, h⟩ := exec_lift h
  obtain ⟨_, acc₁, _, _, -, hroute, h⟩ := exec_bind_ok h
  refine ⟨fromuid, touid, text_array, hfrom, hto, htexts, ?_⟩
  rw [GrowsBy, exec_reply h, routeTextChatMsg_replies hroute]
  by_cases hfits : Fits (J.toStyledString (textChatReply fromuid touid text_array))
  · simp only [if_pos hfits]
    split <;> rfl
  · simp only [if_neg hfits, Nat.add_zero]

/-- The messages that have a handler. -/
theorem responseId_cases {msg_id : Int} (h : responseId msg_id = some id) :
    (msg_id = MsgIds.chatLogin.id ∧ id = MsgIds.chatLoginRsp.id) ∨
    (msg_id = MsgIds.searchUserReq.id ∧ id = MsgIds.searchUserRsp.id) ∨
    (msg_id = MsgIds.addFriendReq.id ∧ id = MsgIds.addFriendRsp.id) ∨
    (msg_id = MsgIds.authFriendReq.id ∧ id = MsgIds.authFriendRsp.id) ∨
    (msg_id = MsgIds.textChatMsgReq.id ∧ id = MsgIds.textChatMsgRsp.id) := by
  unfold responseId at h
  split_ifs at h with h₁ h₂ h₃ h₄ h₅
  · exact .inl ⟨h₁, (Option.some.inj h).symm⟩
  · exact .inr (.inl ⟨h₂, (Option.some.inj h).symm⟩)
  · exact .inr (.inr (.inl ⟨h₃, (Option.some.inj h).symm⟩))
  · exact .inr (.inr (.inr (.inl ⟨h₄, (Option.some.inj h).symm⟩)))
  · exact .inr (.inr (.inr (.inr ⟨h₅, (Option.some.inj h).symm⟩)))

theorem selfAddressed_of_ne {node : LogicNode}
    (h : node.recvNode.msgId ≠ MsgIds.textChatMsgReq.id) :
    selfAddressed J self content node = false := by
  rw [selfAddressed, decide_eq_false h, Bool.false_and]

theorem selfAddressed_text {node : LogicNode} {touid : Int}
    (h : node.recvNode.msgId = MsgIds.textChatMsgReq.id)
    (hto : (J.parse node.recvNode.text).2.getInt "touid" = .ok touid) :
    selfAddressed J self content node = true ↔
      content (.get (ipKey touid)) = some self.val ∧
        content (.getSession touid) = some node.session := by
  rw [selfAddressed, hto, decide_eq_true h, Bool.true_and, Bool.and_eq_true, decide_eq_true_eq,
    decide_eq_true_eq]

/-- **What a handler that returns has replied**: the reply once, or twice if a text message is addressed
to the session that sends it, provided that the reply fits. -/
theorem dispatch_replies {node : LogicNode} (hid : responseId node.recvNode.msgId = some id)
    (hbody : node.recvNode.msgId = MsgIds.textChatMsgReq.id →
      ((J.parse node.recvNode.text).2.isNull || (J.parse node.recvNode.text).2.empty) = false)
    (h : Exec (Serving content node.session) (dispatch J self node).run acc tr (.ok ()) acc') :
    ∃ v, replyTo J content node.recvNode = .ok v ∧
      GrowsBy J id v (if selfAddressed J self content node then 2 else 1) acc acc' := by
  unfold dispatch LogicSystem.callback at h
  rcases responseId_cases hid with ⟨hmsg, rfl⟩ | ⟨hmsg, rfl⟩ | ⟨hmsg, rfl⟩ | ⟨hmsg, rfl⟩ | ⟨hmsg, rfl⟩
  · -- loginHandler
    rw [hmsg, if_pos rfl] at h
    obtain ⟨uid, token, huid, htoken, h⟩ := loginHandler_replies h
    rw [selfAddressed_of_ne (by rw [hmsg]; decide), replyTo, hmsg, if_pos rfl, huid, htoken]
    exact ⟨_, rfl, h⟩
  · -- searchUserHandler
    rw [hmsg, if_neg (by decide), if_pos rfl] at h
    obtain ⟨v, hv, h⟩ := searchUserHandler_replies h
    rw [selfAddressed_of_ne (by rw [hmsg]; decide), replyTo, hmsg, if_neg (by decide), if_pos rfl]
    exact ⟨v, hv, h⟩
  · -- addFriendHandler
    rw [hmsg, if_neg (by decide), if_neg (by decide), if_pos rfl] at h
    rw [selfAddressed_of_ne (by rw [hmsg]; decide), replyTo, hmsg, if_neg (by decide),
      if_neg (by decide), if_pos rfl]
    exact ⟨_, rfl, addFriendHandler_replies h⟩
  · -- authFriendHandler
    rw [hmsg, if_neg (by decide), if_neg (by decide), if_neg (by decide), if_pos rfl] at h
    obtain ⟨applicant_uid, alias_name, hfrom, halias, h⟩ := authFriendHandler_replies h
    rw [selfAddressed_of_ne (by rw [hmsg]; decide), replyTo, hmsg, if_neg (by decide),
      if_neg (by decide), if_neg (by decide), if_pos rfl, hfrom, halias]
    exact ⟨_, rfl, h⟩
  · -- chatTextMsgHandler
    rw [hmsg, if_neg (by decide), if_neg (by decide), if_neg (by decide), if_neg (by decide),
      if_pos rfl] at h
    obtain ⟨fromuid, touid, text_array, hfrom, hto, htexts, h⟩ :=
      chatTextMsgHandler_replies (hbody hmsg) h
    rw [replyTo, hmsg, if_neg (by decide), if_neg (by decide), if_neg (by decide),
      if_neg (by decide), hfrom, hto, htexts]
    refine ⟨_, rfl, ?_⟩
    simpa only [selfAddressed_text hmsg hto] using h

/-- **When there is exactly one reply.** For every message that has a handler, every content of the
database and of Redis, and whatever happens to the queue in between as long as it has room: the handler
that returns has got exactly one reply accepted, exactly if the reply fits and the message is no text
message addressed to the session that sends it. -/
theorem one_reply_iff {node : LogicNode} (hid : responseId node.recvNode.msgId = some id)
    (hbody : node.recvNode.msgId = MsgIds.textChatMsgReq.id →
      ((J.parse node.recvNode.text).2.isNull || (J.parse node.recvNode.text).2.empty) = false)
    (h : Exec (Serving content node.session) (dispatch J self node).run [] tr (.ok ()) acc) :
    replies id acc = 1 ↔
      (∃ v, replyTo J content node.recvNode = .ok v ∧ Fits (J.toStyledString v)) ∧
        selfAddressed J self content node = false := by
  obtain ⟨v, hv, hgrow⟩ := dispatch_replies hid hbody h
  have hnone : replies id [] = 0 := rfl
  rw [GrowsBy, hnone, Nat.zero_add] at hgrow
  rw [hgrow]
  constructor
  · intro hone
    by_cases hfits : Fits (J.toStyledString v)
    · refine ⟨⟨v, hv, hfits⟩, ?_⟩
      rw [if_pos hfits] at hone
      by_contra hself
      rw [Bool.not_eq_false] at hself
      rw [if_pos hself] at hone
      omega
    · rw [if_neg hfits] at hone
      omega
  · rintro ⟨⟨v', hv', hfits⟩, hself⟩
    rw [hv] at hv'
    cases hv'
    rw [if_pos hfits, if_neg (Bool.eq_false_iff.mp hself)]

end Handlers

/-! ### A login -/

/-- Calls answered from `content`, on a session with an empty queue. -/
def serve (content : (c : Call) → c.Resp) (s : SessId) (c : Call) (acc : List (Bytes × Int)) :
    c.Resp × List (Bytes × Int) :=
  (content c, acc ++ acceptedFrom s {} c)

theorem serve_serving (content : (c : Call) → c.Resp) (s : SessId) (c : Call)
    (acc : List (Bytes × Int)) :
    Serving content s ⟨c, (serve content s c acc).1⟩ acc (serve content s c acc).2 :=
  ⟨rfl, {}, by decide, rfl⟩

/-- The requests `loginTexts`, with a writer for lists of friends. -/
def loginPages : JsonCpp :=
  .nested [(loginText 7, .obj [(lit "token", .str (lit "t")), (lit "uid", .int 7)])]

/-- A database that knows every user, each with `n` friends, and the token of each. -/
def popular (n : Nat) (c : Call) : c.Resp :=
  match c with
  | .get _ => some (lit "t")
  | .getFriendList _ =>
    (true, (List.range n).map fun i => { uid := 8 + i, name := lit "user" ++ renderInt i })
  | c => knowsUsers c

/-- A login request of the user 7. -/
def loginNode : LogicNode := .received 0 .chatLogin (loginText 7)

/-- What a login of a user with `n` friends gets accepted. -/
def loginRun (n : Nat) : Except Exn Unit × List (Bytes × Int) :=
  (dispatch loginPages s1 loginNode).run.run (serve (popular n) 0) []

/-- A user without friends is answered. -/
theorem one_reply_login : ∃ tr acc,
    Exec (Serving (popular 0) 0) (dispatch loginPages s1 loginNode).run [] tr (.ok ()) acc ∧
      (replies MsgIds.chatLoginRsp.id acc = 1 ↔
        (∃ v, replyTo loginPages (popular 0) loginNode.recvNode = .ok v ∧
          Fits (loginPages.toStyledString v)) ∧
        selfAddressed loginPages s1 (popular 0) loginNode = false) := by
  obtain ⟨tr, htr⟩ := exec_run (serve_serving (popular 0) 0)
    (dispatch loginPages s1 loginNode).run []
  have hret : (loginRun 0).1 = .ok () := by decide +kernel
  rw [show ((dispatch loginPages s1 loginNode).run.run (serve (popular 0) 0) []).1 = .ok () from hret]
    at htr
  exact ⟨tr, _, htr, one_reply_iff (by decide) (by decide) htr⟩

/-- The reply to a user with thirty friends is dropped. -/
theorem one_reply_fails : ¬ ∀ (J : JsonCpp) (self : ServerName) (content : (c : Call) → c.Resp)
    (node : LogicNode) (id : Int) (tr : List (Event calls)) (acc : List (Bytes × Int)),
    responseId node.recvNode.msgId = some id →
    (node.recvNode.msgId = MsgIds.textChatMsgReq.id →
      ((J.parse node.recvNode.text).2.isNull || (J.parse node.recvNode.text).2.empty) = false) →
    Exec (Serving content node.session) (dispatch J self node).run [] tr (.ok ()) acc →
    replies id acc = 1 := by
  intro h
  obtain ⟨tr, htr⟩ := exec_run (serve_serving (popular 30) 0)
    (dispatch loginPages s1 loginNode).run []
  have hret : (loginRun 30).1 = .ok () := by decide +kernel
  rw [show ((dispatch loginPages s1 loginNode).run.run (serve (popular 30) 0) []).1 = .ok () from hret]
    at htr
  have hone := h loginPages s1 (popular 30) loginNode MsgIds.chatLoginRsp.id tr _ (by decide)
    (by decide) htr
  have hnone : replies MsgIds.chatLoginRsp.id (loginRun 30).2 = 0 := by decide +kernel
  exact absurd (hnone.symm.trans hone) (by decide)

end ChatServer
