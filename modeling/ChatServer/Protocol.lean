import ChatServer.Footprint
import ChatServer.World

/-!
# The order of the calls

Two threads of a server act on the bindings of users to sessions: the logic worker in
`loginHandler`, the I/O thread in `close`. Each makes its calls in a fixed order, and the phases of
this file name the points between them. `WorkerPhase.next` and `IoPhase.next` say which call leads
from which phase to which, and every handler is shown to keep to them (`dispatch_conforms`,
`readCallback_conforms`, `handleAccept_conforms`). The threads of the chat service make only calls
that do not concern the bindings (`serve_neutral`).
-/

namespace ChatServer

open Interaction Prog Decimal Word Handler

/-! ## Calls that do not concern the bindings -/

/-- Calls that neither read nor change a binding, the login count or a route, nor start a read, store
a node, post a message or change `CServer::_sessions`. -/
def Call.neutral : Call → Bool
  | .set key _ => !(RedisPrefix.userIpPrefix.isPrefixOf key)
  | .hGet _ _ => false
  | .hSet _ _ _ => false
  | .setUserSession _ _ => false
  | .removeUserSession _ => false
  | .bClose _ => false
  | .setBClose _ => false
  | .getUserId _ => false
  | .setUserId _ _ => false
  | .socketClose _ => false
  | .setRecvNode _ _ => false
  | .asyncReadSome _ _ => false
  | .postMsgToQue _ => false
  | .addSession _ => false
  | .clearSession _ => false
  | _ => true

/-- A program that makes only neutral calls. -/
abbrev Neutral {α : Type} (p : Io α) : Prop := p.Uses fun c : Call => c.neutral = true

/-! ## The login count -/

/-- What `loginHandler` writes back for the count it has read, unless `std::stoi` throws. -/
def bump (rd_res : Bytes) : Option Bytes :=
  match readCount rd_res with
  | .ok count => some (renderInt (toInt (count + 1)))
  | .error _ => none

/-- What `close` writes back for the count it has read, unless `std::stoi` throws. -/
def drop (rd_res : Bytes) : Option Bytes :=
  match readCount rd_res with
  | .ok count => some (renderInt (if count > 0 then count - 1 else count))
  | .error _ => none

theorem readCount_renderInt (n : Int) :
    readCount (renderInt n) = if IsInt n then .ok n else .error .outOfRange := by
  unfold readCount stoi
  rw [if_neg (renderInt_ne_nil _), parseInt_renderInt]

theorem bump_renderInt {n : Int} {value : Bytes} (h : bump (renderInt n) = some value) :
    IsInt n ∧ value = renderInt (toInt (n + 1)) := by
  unfold bump at h
  rw [readCount_renderInt] at h
  by_cases hr : IsInt n
  · rw [if_pos hr] at h
    exact ⟨hr, (Option.some.inj h).symm⟩
  · rw [if_neg hr] at h
    cases h

theorem drop_renderInt {n : Int} {value : Bytes} (hn : 0 < n)
    (h : drop (renderInt n) = some value) : value = renderInt (n - 1) := by
  unfold drop at h
  rw [readCount_renderInt] at h
  by_cases hr : IsInt n
  · rw [if_pos hr] at h
    dsimp only at h
    rw [if_pos hn] at h
    exact (Option.some.inj h).symm
  · rw [if_neg hr] at h
    cases h

/-- A count that is read is an `int`. -/
theorem isInt_of_readCount {rd_res : Bytes} {count : Int} (h : readCount rd_res = .ok count) :
    IsInt count := by
  unfold readCount stoi at h
  split at h
  · obtain rfl := Except.ok.inj h
    exact ⟨by omega, by omega⟩
  · split at h
    · cases h
    · split at h
      · rename_i hint
        obtain rfl := Except.ok.inj h
        exact hint
      · cases h

/-- What `close` writes back for a positive count is one less. -/
theorem readCount_of_drop {rd_res value : Bytes} {count : Int} (hread : readCount rd_res = .ok count)
    (hpos : 0 < count) (h : drop rd_res = some value) : readCount value = .ok (count - 1) := by
  obtain ⟨-, hmax⟩ := isInt_of_readCount hread
  have hint : IsInt (count - 1) := ⟨by omega, by omega⟩
  unfold drop at h
  rw [hread] at h
  dsimp only at h
  rw [if_pos hpos] at h
  rw [← Option.some.inj h, readCount_renderInt, if_pos hint]

/-! ## The worker -/

/-- How far the worker is with the message it handles. -/
inductive WorkerPhase where
  /-- Nothing of the bindings has been touched. -/
  | checking
  /-- `HGET` has answered `rd_res`. -/
  | read (rd_res : Bytes)
  /-- The count is written. -/
  | counted
  /-- `_user_uid` is set. -/
  | bound (uid : Int)
  /-- The route is set. -/
  | routed (uid : Int)
  /-- `UserMgr` is set: the login is complete. -/
  | registered (uid : Int)
  deriving DecidableEq, Repr

namespace WorkerPhase

/-- The phase after a call made on behalf of the session `s`; none if the call is out of order. -/
def next (self : ServerName) (s : SessId) : WorkerPhase → Event calls → Option WorkerPhase
  | .checking, ⟨.hGet key hkey, r⟩ =>
    if key = RedisPrefix.loginCount ∧ hkey = self.val then some (.read r) else none
  | .checking, ⟨c, _⟩ => if c.neutral then some .checking else none
  | .read rd_res, ⟨.hSet key hkey value, _⟩ =>
    if key = RedisPrefix.loginCount ∧ hkey = self.val ∧ bump rd_res = some value then some .counted
    else none
  | .counted, ⟨.setUserId t uid, _⟩ => if t = s then some (.bound uid) else none
  | .bound uid, ⟨.set key value, _⟩ =>
    if key = ipKey uid ∧ value = self.val then some (.routed uid) else none
  | .routed uid, ⟨.setUserSession u t, _⟩ => if u = uid ∧ t = s then some (.registered uid) else none
  | .registered uid, ⟨c, _⟩ => if c.neutral then some (.registered uid) else none
  | _, _ => none

/-- The phases in which a handler ends: it has done nothing or completed a login, or an exception
has left it before or while it read the count. -/
def Ends : Except Exn Unit → WorkerPhase → Prop
  | .ok _, .checking => True
  | .ok _, .registered _ => True
  | .error _, .checking => True
  | .error _, .read rd_res => bump rd_res = none
  | _, _ => False

/-- The phase that the calls made so far amount to. -/
def after (self : ServerName) (s : SessId) (past : List (Event calls)) : WorkerPhase :=
  past.foldl (fun q e => (next self s q e).getD q) .checking

@[simp] theorem after_nil (self : ServerName) (s : SessId) : after self s [] = .checking := rfl

theorem after_snoc {self : ServerName} {s : SessId} {past : List (Event calls)} {e : Event calls}
    {q : WorkerPhase} (h : next self s (after self s past) e = some q) :
    after self s (past ++ [e]) = q := by
  unfold after at h ⊢
  rw [List.foldl_append, List.foldl_cons, List.foldl_nil, h, Option.getD_some]

end WorkerPhase

/-! ## The I/O thread -/

/-- How far the I/O thread is with the handler it runs. -/
inductive IoPhase where
  /-- The handler of the read has neither begun `close` nor looked at a header nor started a read. -/
  | reading (handler : ReadHandler)
  /-- `AsyncReadHead` has found this in `_data`. -/
  | header (data : Bytes)
  /-- A node for the body is stored. -/
  | stored
  /-- `AsyncReadBody` has found no node. -/
  | lost
  /-- The next read is started. -/
  | armed
  /-- The session was taken out of `_sessions` without being closed. -/
  | rejected
  /-- `close` has read `_b_close` as false. -/
  | closing
  /-- `close` has read `_user_uid` as `uid`, which is positive. -/
  | leaving (uid : Int)
  /-- `HGET` has answered `rd_res`. -/
  | read (rd_res : Bytes)
  /-- The count is written. -/
  | counted
  /-- `close` has read `_user_uid` again. -/
  | erasing (uid : Int)
  /-- `UserMgr` has no entry for that uid any more. -/
  | erased
  /-- `_user_uid` is not positive or has been set to zero. -/
  | unbound
  /-- The socket is closed. -/
  | shut
  /-- Closing the socket has thrown. -/
  | failed
  /-- `close` has returned. -/
  | closed
  /-- The session is taken out of `_sessions`. -/
  | released
  deriving DecidableEq, Repr

namespace IoPhase

/-- The phase after a call made by a handler of the session `s`; none if it is out of order. -/
def next (self : ServerName) (s : SessId) : IoPhase → Event calls → Option IoPhase
  | .reading _, ⟨.bClose t, r⟩ => if t = s then some (if r then .closed else .closing) else none
  | .reading .head, ⟨.data t, r⟩ => if t = s then some (.header r) else none
  | .reading (.body n), ⟨.recvNode t, r⟩ =>
    if t = s then some (if r.isSome then .reading (.body n) else .lost) else none
  | .reading (.body n), ⟨.setRecvNode t _, _⟩ => if t = s then some (.reading (.body n)) else none
  | .reading (.body n), ⟨.postMsgToQue msg, _⟩ =>
    if msg.session = s then some (.reading (.body n)) else none
  | .reading h, ⟨.asyncReadSome t p, _⟩ =>
    if t = s ∧ (p.handler = h ∨ p.handler = .head) then some .armed else none
  | .reading h, ⟨c, _⟩ => if c.neutral then some (.reading h) else none
  | .header data, ⟨.clearSession t, _⟩ =>
    if t = s ∧ CSession.Rejected data then some .rejected else none
  | .header data, ⟨.setRecvNode t _, _⟩ =>
    if t = s ∧ ¬ CSession.Rejected data then some .stored else none
  | .stored, ⟨.asyncReadSome t _, _⟩ => if t = s then some .armed else none
  | .stored, ⟨c, _⟩ => if c.neutral then some .stored else none
  | .armed, ⟨.addSession t, _⟩ => if t = s then some .armed else none
  | .closing, ⟨.getUserId t, r⟩ =>
    if t = s then some (if r > 0 then .leaving r else .unbound) else none
  | .leaving _, ⟨.hGet key hkey, r⟩ =>
    if key = RedisPrefix.loginCount ∧ hkey = self.val then some (.read r) else none
  | .read rd_res, ⟨.hSet key hkey value, _⟩ =>
    if key = RedisPrefix.loginCount ∧ hkey = self.val ∧ drop rd_res = some value then some .counted
    else none
  | .counted, ⟨.getUserId t, r⟩ => if t = s then some (.erasing r) else none
  | .erasing uid, ⟨.removeUserSession u, _⟩ => if u = uid then some .erased else none
  | .erased, ⟨.setUserId t uid, _⟩ => if t = s ∧ uid = 0 then some .unbound else none
  | .unbound, ⟨.socketClose t, r⟩ =>
    if t = s then some (if r.isOk then .shut else .failed) else none
  | .shut, ⟨.setBClose t, _⟩ => if t = s then some .closed else none
  | .closed, ⟨.clearSession t, _⟩ => if t = s then some .released else none
  | _, _ => none

/-- The phases in which a handler ends. In `header`, `read` and `failed` an exception was caught;
there, in `lost`, in `rejected` and in `released` no read is started. -/
def Ends : IoPhase → Prop
  | .header data => ¬ CSession.Rejected data ∧ CSession.headMsgLen data < -1
  | .lost => True
  | .armed => True
  | .rejected => True
  | .read rd_res => drop rd_res = none
  | .failed => True
  | .released => True
  | _ => False

/-- The phase that the calls made so far by the handler of a read amount to. -/
def after (self : ServerName) (s : SessId) (handler : ReadHandler) (past : List (Event calls)) :
    IoPhase :=
  past.foldl (fun q e => (next self s q e).getD q) (.reading handler)

@[simp] theorem after_nil (self : ServerName) (s : SessId) (handler : ReadHandler) :
    after self s handler [] = .reading handler := rfl

theorem after_snoc {self : ServerName} {s : SessId} {handler : ReadHandler}
    {past : List (Event calls)} {e : Event calls} {q : IoPhase}
    (h : next self s (after self s handler past) e = some q) :
    after self s handler (past ++ [e]) = q := by
  unfold after at h ⊢
  rw [List.foldl_append, List.foldl_cons, List.foldl_nil, h, Option.getD_some]

end IoPhase

/-! ## Handlers that keep out of the bindings -/

namespace LogicSystem

variable {J : JsonCpp} {self : ServerName} {session : SessId} {root : Json} {msg_id : Int} {c : Call}

theorem CacheCall.neutral (h : CacheCall c) : c.neutral = true := by
  cases h <;> rfl

theorem getBaseInfo_neutral (J : JsonCpp) (uid₁ uid : Int) :
    Neutral (getBaseInfo J (baseKey uid₁) uid).run :=
  (getBaseInfo_calls _ uid).mono fun _ h => h.neutral

/-- Only a login concerns the bindings. -/
theorem HandlerCall.neutral (h : HandlerCall J self session root msg_id c)
    (hid : msg_id ≠ MsgIds.chatLogin.id) : c.neutral = true := by
  cases h with
  | login | loginReply => exact absurd rfl hid
  | search h =>
    cases h with
    | cache h => exact h.neutral
    | get | byName => rfl
  | addFriend _ h =>
    cases h with
    | cache h => exact h.neutral
    | apply | route | session | notify | peer => rfl
  | authFriend _ _ h =>
    cases h with
    | cache h => exact h.neutral
    | applyAlias | accept | add | friendAlias | route | session | notify | peer => rfl
  | textChat _ h => cases h <;> rfl
  | searchReply | addFriendReply | authFriendReply | textChatReply => rfl

end LogicSystem

namespace ChatServiceImpl

theorem getBaseInfo_neutral (J : JsonCpp) (uid₁ uid : Int) :
    Neutral (getBaseInfo J (baseKey uid₁) uid).run := by
  refine uses_ask rfl fun info_str => ?_
  cases info_str with
  | some info_str => exact uses_lift fun _ => uses_pure _
  | none =>
    refine uses_ask rfl fun user_info => ?_
    cases user_info with
    | none => exact uses_pure _
    | some user => exact uses_ask rfl fun _ => uses_pure _

theorem notifyAuthFriend_neutral (J : JsonCpp) (request : AuthFriendReq) :
    Neutral (notifyAuthFriend J request).run := by
  refine uses_ask rfl fun session => ?_
  cases session with
  | none => exact uses_pure _
  | some session =>
    refine uses_bind ?_ fun _ => uses_ask rfl fun _ => uses_pure _
    refine uses_bind (getBaseInfo_neutral J request.fromuid request.fromuid) fun user_info => ?_
    cases user_info with
    | none => exact uses_pure _
    | some user => exact uses_ask rfl fun _ => uses_pure _

/-- The threads of the chat service keep out of the bindings. -/
theorem serve_neutral (J : JsonCpp) (request : Request) : Neutral (serve J request) := by
  cases request with
  | addFriend request =>
    refine Uses.bind (uses_ask rfl fun session => ?_) fun _ => trivial
    cases session with
    | none => exact uses_pure _
    | some _ => exact uses_ask rfl fun _ => uses_pure _
  | authFriend request => exact Uses.bind (notifyAuthFriend_neutral J request) fun _ => trivial
  | textChatMsg request =>
    refine Uses.bind (uses_ask rfl fun session => ?_) fun _ => trivial
    cases session with
    | none => exact uses_pure _
    | some _ => exact uses_ask rfl fun _ => uses_pure _

end ChatServiceImpl

/-! ## The worker keeps to its phases -/

namespace LogicSystem

open WorkerPhase

variable (J : JsonCpp) (self : ServerName) (s : SessId)

theorem next_checking_of_neutral {c : Call} (h : c.neutral = true) (r : c.Resp) :
    next self s .checking ⟨c, r⟩ = some .checking := by
  cases c with
  | hGet => exact Bool.noConfusion h
  | _ => simp only [next, h, ↓reduceIte]

/-- A handler that keeps out of the bindings stays where it starts. -/
theorem conforms_of_neutral {α : Type} {p : Io α} (h : Neutral p) :
    p.Conforms (next self s) (fun _ q => q = .checking) .checking :=
  Uses.conforms h fun _ r hc => next_checking_of_neutral self s hc r

/-- The phases in which `bindUser` may end. -/
def BindEnds (uid : Int) : Except Exn Unit → WorkerPhase → Prop
  | .ok _, .registered u => u = uid
  | .error _, .read rd_res => bump rd_res = none
  | _, _ => False

theorem bindUser_conforms (uid : Int) :
    (bindUser self s uid).run.Conforms (next self s) (BindEnds uid) .checking := by
  refine conforms_ask .read (fun r => by simp [next]) fun rd_res => ?_
  refine conforms_lift (fun count hcount => ?_) (fun e he => by simp [BindEnds, bump, he])
  refine conforms_ask (fun _ => .counted) (fun _ => by simp [next, bump, hcount]) fun _ => ?_
  refine conforms_ask (fun _ => .bound uid) (fun _ => by simp [next]) fun _ => ?_
  refine conforms_ask (fun _ => .routed uid) (fun _ => by simp [next]) fun _ => ?_
  exact conforms_ask_last (fun _ => .registered uid) (fun _ => by simp [next]) fun _ => rfl

/-- The phases in which the checks and the binding of a login may end. -/
def LoginEnds {α : Type} : Except Exn α → WorkerPhase → Prop
  | .ok _, .checking => True
  | .ok _, .registered _ => True
  | .error _, .checking => True
  | .error _, .read rd_res => bump rd_res = none
  | _, _ => False

theorem login_conforms (uid : Int) (token : Bytes) :
    (login J self s uid token).run.Conforms (next self s) LoginEnds .checking := by
  refine conforms_ask (fun _ => .checking) (fun _ => rfl) fun token_value => ?_
  cases token_value with
  | none => trivial
  | some token_value =>
    dsimp only
    split
    · trivial
    · refine conforms_bind (conforms_of_neutral self s (getBaseInfo_neutral J uid uid))
        (fun user_info q hq => ?_) (fun e q hq => by rw [hq]; trivial)
      subst hq
      cases user_info with
      | none => trivial
      | some user_info =>
        refine conforms_ask (fun _ => .checking) (fun _ => rfl) fun apply => ?_
        refine conforms_ask (fun _ => .checking) (fun _ => rfl) fun friends => ?_
        refine conforms_bind (bindUser_conforms self s uid) (fun _ q hq => ?_) (fun e q hq => ?_)
        · cases q <;> first | exact hq.elim | trivial
        · cases q <;> first | exact hq.elim | exact hq

theorem loginHandler_conforms (msg_data : Bytes) :
    (loginHandler J self s msg_data).run.Conforms (next self s) Ends .checking := by
  refine conforms_lift (fun uid _ => ?_) (fun _ _ => trivial)
  refine conforms_lift (fun token _ => ?_) (fun _ _ => trivial)
  refine conforms_bind (login_conforms J self s uid token) (fun _ q hq => ?_) (fun e q hq => ?_)
  · cases q with
    | checking => exact conforms_ask_last (fun _ => .checking) (fun _ => rfl) fun _ => trivial
    | registered u => exact conforms_ask_last (fun _ => .registered u) (fun _ => rfl) fun _ => trivial
    | read | counted | bound | routed => exact hq.elim
  · cases q <;> first | exact hq.elim | exact hq

/-- A message that is no login is handled outside the bindings. -/
theorem dispatch_neutral {node : LogicNode} (h : node.recvNode.msgId ≠ MsgIds.chatLogin.id) :
    Neutral (dispatch J self node).run :=
  (dispatch_calls J self node).mono fun _ hc => hc.neutral h

theorem dispatch_login {node : LogicNode} (h : node.recvNode.msgId = MsgIds.chatLogin.id) :
    dispatch J self node = loginHandler J self node.session node.recvNode.text := by
  unfold dispatch callback
  rw [if_pos h]

/-- **The worker keeps to its phases**, whatever node it takes. -/
theorem dispatch_conforms (node : LogicNode) :
    (dispatch J self node).run.Conforms (next self node.session) Ends .checking := by
  by_cases h : node.recvNode.msgId = MsgIds.chatLogin.id
  · rw [dispatch_login J self h]
    exact loginHandler_conforms J self node.session _
  · have hn := dispatch_neutral J self h
    refine (conforms_of_neutral self node.session hn).mono fun r q hq => ?_
    subst hq
    cases r <;> trivial

end LogicSystem

/-! ## The I/O thread keeps to its phases -/

namespace CSession

open IoPhase

variable (self : ServerName) (s : SessId)

/-- The phases in which the guarded block of `close` may end. -/
def UnbindEnds : Except Exn Unit → IoPhase → Prop
  | .ok _, .unbound => True
  | .error _, .read rd_res => ChatServer.drop rd_res = none
  | _, _ => False

theorem unbind_conforms (user_uid : Int) :
    (unbind self s user_uid).run.Conforms (next self s) UnbindEnds
      (if user_uid > 0 then .leaving user_uid else .unbound) := by
  unfold unbind
  split
  · refine conforms_ask .read (fun r => by simp [next]) fun rd_res => ?_
    refine conforms_lift (fun count hcount => ?_)
      (fun e he => by simp [UnbindEnds, ChatServer.drop, he])
    refine conforms_ask (fun _ => .counted) (fun _ => by simp [next, ChatServer.drop, hcount])
      fun _ => ?_
    refine conforms_ask .erasing (fun r => by simp [next]) fun uid' => ?_
    refine conforms_ask (fun _ => .erased) (fun _ => by simp [next]) fun _ => ?_
    exact conforms_ask_last (fun _ => .unbound) (fun _ => by simp [next]) fun _ => trivial
  · trivial

/-- The phases in which `close` may end. -/
def CloseEnds : Except Exn Unit → IoPhase → Prop
  | .ok _, .closed => True
  | .error _, .read rd_res => ChatServer.drop rd_res = none
  | .error _, .failed => True
  | _, _ => False

theorem close_conforms (h : ReadHandler) :
    (close self s).run.Conforms (next self s) CloseEnds (.reading h) := by
  refine conforms_ask (fun b => if b then .closed else .closing) (fun b => by simp [next])
    fun b => ?_
  cases b with
  | true =>
    show CloseEnds (.ok ()) .closed
    trivial
  | false =>
    refine conforms_ask (fun r => if r > 0 then .leaving r else .unbound) (fun r => by simp [next])
      fun uid => ?_
    refine conforms_bind (unbind_conforms self s uid) (fun _ q hq => ?_) (fun e q hq => ?_)
    · cases q <;> try exact hq.elim
      refine conforms_ask (fun r => if r.isOk then .shut else .failed) (fun r => by simp [next])
        fun res => ?_
      cases res with
      | ok _ =>
        show (ask (.setBClose s)).run.Conforms (next self s) CloseEnds .shut
        exact conforms_ask_last (fun _ => .closed) (fun _ => by simp [next]) fun _ => trivial
      | error _ =>
        show CloseEnds (.error _) .failed
        trivial
    · cases q <;> try exact hq.elim
      exact hq

theorem drop_conforms (h : ReadHandler) :
    (drop self s).run.Conforms (next self s) (fun _ q => Ends q) (.reading h) := by
  refine conforms_bind (close_conforms self s h) (fun _ q hq => ?_) (fun e q hq => ?_)
  · cases q <;> try exact hq.elim
    exact conforms_ask_last (fun _ => .released) (fun _ => by simp [next]) fun _ => trivial
  · cases q <;> first | exact hq | exact hq.elim

/-- A read is started from a phase that allows it. -/
theorem asyncReadFull_conforms {q : IoPhase} {max_length : Nat} {handler : ReadHandler}
    (hclear : ∀ r, next self s q ⟨.clearData s, r⟩ = some q)
    (harm : ∀ p r, p.handler = handler → next self s q ⟨.asyncReadSome s p, r⟩ = some .armed) :
    (asyncReadFull s max_length handler).Conforms (next self s) (fun _ q => q = .armed) q :=
  fun r => ⟨q, hclear r, fun r => ⟨.armed, harm _ r rfl, rfl⟩⟩

theorem acceptHead_conforms (data : Bytes) :
    (acceptHead s data).run.Conforms (next self s) (fun _ q => Ends q) (.header data) := by
  have hreject (h : Rejected data) : (ask (.clearSession s)).run.Conforms (next self s)
      (fun _ q => Ends q) (.header data) :=
    conforms_ask_last (fun _ => .rejected) (fun _ => by simp [next, h]) fun _ => trivial
  unfold acceptHead
  by_cases hid : headMsgId data > maxLength
  · rw [if_pos hid]
    exact hreject (Or.inl hid)
  by_cases hlen : headMsgLen data > maxLength
  · rw [if_neg hid, if_pos hlen]
    exact hreject (Or.inr hlen)
  rw [if_neg hid, if_neg hlen]
  have hacc : ¬ Rejected data := fun h => h.elim hid hlen
  refine conforms_lift (fun node _ => ?_) (fun e he => ⟨hacc, recvNode_new_error_iff.mp ⟨e, he⟩⟩)
  refine conforms_ask (fun _ => .stored) (fun _ => by simp [next, hacc]) fun _ => conforms_liftIo ?_
  refine (asyncReadFull_conforms self s (fun _ => rfl) fun p _ _ => by simp [next]).mono
    fun _ q hq => ?_
  rw [hq]
  trivial

theorem acceptBody_conforms (n : Int) (bytes_transfered : Nat) :
    (acceptBody s bytes_transfered).run.Conforms (next self s) (fun _ q => Ends q)
      (.reading (.body n)) := by
  refine conforms_ask (fun _ => .reading (.body n)) (fun _ => rfl) fun data => ?_
  refine conforms_ask (fun r => if r.isSome then .reading (.body n) else .lost)
    (fun _ => by simp [next]) fun node => ?_
  cases node with
  | none =>
    show Ends .lost
    trivial
  | some node =>
    refine conforms_ask (fun _ => .reading (.body n)) (fun _ => by simp [next]) fun _ => ?_
    refine conforms_ask (fun _ => .reading (.body n)) (fun _ => by simp [next]) fun _ => ?_
    refine conforms_liftIo ((asyncReadFull_conforms self s (fun _ => rfl)
      fun p _ hp => by simp [next, hp]).mono fun _ q hq => ?_)
    rw [hq]
    trivial

theorem handle_conforms (ec : Bool) (bytes_transfered : Nat) (handler : ReadHandler) :
    (handle self s ec bytes_transfered handler).Conforms (next self s) (fun _ q => Ends q)
      (.reading handler) := by
  cases handler with
  | head =>
    refine conforms_catchStd ?_ fun _ _ hq => hq
    cases ec with
    | true => exact drop_conforms self s .head
    | false =>
      rw [if_neg Bool.false_ne_true]
      by_cases hlen : bytes_transfered < headTotalLen
      · rw [if_pos hlen]
        exact drop_conforms self s .head
      rw [if_neg hlen]
      refine conforms_ask (fun r => .header r) (fun _ => by simp [next]) fun data => ?_
      exact acceptHead_conforms self s data
  | body total_len =>
    refine conforms_catchStd ?_ fun _ _ hq => hq
    cases ec with
    | true => exact drop_conforms self s (.body total_len)
    | false =>
      rw [if_neg Bool.false_ne_true]
      by_cases hlen : bytes_transfered < toSizeT total_len
      · rw [if_pos hlen]
        exact drop_conforms self s (.body total_len)
      rw [if_neg hlen]
      exact acceptBody_conforms self s total_len bytes_transfered

/-- **The I/O thread keeps to its phases** when a read completes. -/
theorem readCallback_conforms (p : PendingRead) (ec : Bool) (bytes_transfered : Nat) :
    (readCallback self s p ec bytes_transfered).Conforms (next self s) (fun _ q => Ends q)
      (.reading p.handler) := by
  unfold readCallback
  split
  · exact handle_conforms self s _ _ _
  · split
    · exact handle_conforms self s _ _ _
    · exact fun _ => ⟨.armed, by cases p.handler <;> simp [next], trivial⟩

end CSession

theorem handleAccept_conforms (self : ServerName) (s : SessId) :
    (handleAccept s).Conforms (IoPhase.next self s) (fun _ q => q.Ends) (.reading .head) := by
  refine Conforms.bind (CSession.asyncReadFull_conforms self s (fun _ => rfl)
    fun p _ hp => by simp [IoPhase.next, hp]) fun _ q hq => ?_
  rw [hq]
  exact fun _ => ⟨.armed, by simp [IoPhase.next], trivial⟩

end ChatServer
