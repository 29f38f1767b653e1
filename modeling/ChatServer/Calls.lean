import ChatServer.Json
import ChatServer.MsgNode
import ChatServer.Lib.Program

/-!
# The calls that the server's code makes

The handlers of the server are sequential code between calls on what its threads share: Redis
(`RedisMgr`), the database (`MySqlMgr`), the table of bound users (`UserMgr`), the fields, the send
queue and the socket of a session (`CSession`), the queue of the logic worker (`LogicSystem`), the
table of sessions (`CServer`) and the peers (`ChatGrpcClient`). `Call` lists these calls, each an
indivisible step, and a handler is a program over them.

Code that can raise an exception is a `Handler`; `catchStd` is a `try` block whose
`catch (std::exception &)` only logs.
-/

namespace ChatServer

open Interaction Prog

/-- A session. Sessions are told apart by their `_session_id`. -/
abbrev SessId : Type := Nat

/-- `LogicNode`: a received message and the session it was read from. -/
structure LogicNode where
  session : SessId
  recvNode : RecvNode
  deriving DecidableEq, Repr

/-- A completely received message. -/
def LogicNode.received (session : SessId) (msg_id : MsgIds) (body : Bytes) : LogicNode :=
  { session := session
    recvNode :=
      { curLen := body.length, totalLen := body.length, data := body ++ [0], msgId := msg_id.id } }

/-- The handler that `asyncReadFull` was given: that of `AsyncReadHead`, or that of `AsyncReadBody`
with the `total_len` it captured. -/
inductive ReadHandler where
  | head
  | body (total_len : Int)
  deriving DecidableEq, Repr

/-- An outstanding `async_read_some`: it was given the window `[read_len, total_len)` of `_data`. -/
structure PendingRead where
  readLen : Nat
  totalLen : Nat
  handler : ReadHandler
  deriving DecidableEq, Repr

/-! ## The signature -/

inductive Call where
  -- RedisMgr
  | get (key : Bytes)
  | set (key value : Bytes)
  | hGet (key hkey : Bytes)
  | hSet (key hkey value : Bytes)
  -- MySqlMgr
  | getUserInfo (uid : Int)
  | getUserInfoByName (name : Bytes)
  | addFriendApply (uid touid : Int) (applyAliasName : Bytes)
  | getFriendAlias (selfId friendId : Int)
  | getFriendApplyAlias (fromUid toUid : Int)
  | getApplyList (touid start limit : Int)
  | authFriendApply (uid touid : Int)
  | addFriend (applicantUid accepterUid : Int)
      (aliasApplicantForAccepter aliasAccepterForApplicant : Bytes)
  | getFriendList (uid : Int)
  -- UserMgr
  | getSession (uid : Int)
  | setUserSession (uid : Int) (session : SessId)
  | removeUserSession (uid : Int)
  -- CSession
  | bClose (session : SessId)
  | setBClose (session : SessId)
  | getUserId (session : SessId)
  | setUserId (session : SessId) (userUid : Int)
  | socketClose (session : SessId)
  | send (session : SessId) (msg : Bytes) (msgid : Int)
  | data (session : SessId)
  | clearData (session : SessId)
  | recvNode (session : SessId)
  | setRecvNode (session : SessId) (node : RecvNode)
  | asyncReadSome (session : SessId) (read : PendingRead)
  -- LogicSystem
  | postMsgToQue (msg : LogicNode)
  -- CServer
  | addSession (session : SessId)
  | clearSession (session : SessId)
  -- ChatGrpcClient
  | notifyAddFriend (serverIp : Bytes) (req : AddFriendReq)
  | notifyAuthFriend (serverIp : Bytes) (req : AuthFriendReq)
  | notifyTextChatMsg (serverIp : Bytes) (req : TextChatMsgReq)

/-- What a call returns. A `get` that fails leaves its output argument as it was and is `none`; a
null `shared_ptr` is `none`; a function with a result and an output argument returns both. -/
@[reducible] def Call.Resp : Call → Type
  | .get _ => Option Bytes
  | .set _ _ => Bool
  | .hGet _ _ => Bytes
  | .hSet _ _ _ => Bool
  | .getUserInfo _ => Option UserInfo
  | .getUserInfoByName _ => Option UserInfo
  | .addFriendApply _ _ _ => Bool
  | .getFriendAlias _ _ => Bool × Bytes
  | .getFriendApplyAlias _ _ => Bool × Bytes
  | .getApplyList _ _ _ => Bool × List ApplyInfo
  | .authFriendApply _ _ => Bool
  | .addFriend _ _ _ _ => Bool
  | .getFriendList _ => Bool × List UserInfo
  | .getSession _ => Option SessId
  | .setUserSession _ _ => Unit
  | .removeUserSession _ => Unit
  | .bClose _ => Bool
  | .setBClose _ => Unit
  | .getUserId _ => Int
  | .setUserId _ _ => Unit
  | .socketClose _ => Except Exn Unit
  | .send _ _ _ => Unit
  | .data _ => Bytes
  | .clearData _ => Unit
  | .recvNode _ => Option RecvNode
  | .setRecvNode _ _ => Unit
  | .asyncReadSome _ _ => Unit
  | .postMsgToQue _ => Unit
  | .addSession _ => Unit
  | .clearSession _ => Unit
  | .notifyAddFriend _ _ => AddFriendRsp
  | .notifyAuthFriend _ _ => AuthFriendRsp
  | .notifyTextChatMsg _ _ => TextChatMsgRsp

abbrev calls : Sig := ⟨Call, Call.Resp⟩

/-- A program over the calls of the server. -/
abbrev Io : Type → Type := Prog calls

/-- One call. -/
abbrev Io.ask (c : Call) : Io c.Resp := perform (S := calls) c

/-! ## Exceptions -/

/-- A program that can also end with an exception. -/
abbrev Handler : Type → Type := ExceptT Exn Io

/-- `try { h } catch (std::exception &e) { log }`. -/
def catchStd (h : Handler Unit) : Io Unit := h.run >>= fun _ => pure ()

namespace Handler

variable {α β : Type}

/-- Make a call from code that can raise an exception. -/
abbrev ask (c : Call) : Handler c.Resp := ExceptT.lift (Io.ask c)

/-- Sequencing, for protocols: the second program starts where the first may return, and what is
left after an exception is an end of the whole. -/
theorem conforms_bind {Q : Type} {next : Q → Event calls → Option Q}
    {mid : Except Exn α → Q → Prop} {post : Except Exn β → Q → Prop} {h : Handler α}
    {f : α → Handler β} {q : Q} (hh : h.run.Conforms next mid q)
    (hok : ∀ a q, mid (.ok a) q → (f a).run.Conforms next post q)
    (herr : ∀ e q, mid (.error e) q → post (.error e) q) :
    (h >>= f).run.Conforms next post q := by
  rw [ExceptT.run_bind]
  refine Conforms.bind hh fun r q hq => ?_
  cases r with
  | ok a => exact hok a q hq
  | error e => exact herr e q hq

theorem uses_bind {P : Call → Prop} {h : Handler α} {f : α → Handler β}
    (hh : h.run.Uses P) (hf : ∀ a, (f a).run.Uses P) : (h >>= f).run.Uses P := by
  rw [ExceptT.run_bind]
  refine Uses.bind hh fun r => ?_
  cases r with
  | ok a => exact hf a
  | error e => trivial

variable {Q : Type} {next : Q → Event calls → Option Q} {post : Except Exn β → Q → Prop}
  {P : Call → Prop}

/-! ## Rules for the statements of a handler -/

/-- A call in a protocol: `q' r` is the phase after the answer `r`. -/
theorem conforms_ask {c : Call} {f : c.Resp → Handler β} {q : Q} (q' : c.Resp → Q)
    (hq : ∀ r, next q ⟨c, r⟩ = some (q' r))
    (hf : ∀ r, (f r).run.Conforms next post (q' r)) :
    (ask c >>= f).run.Conforms next post q :=
  fun r => ⟨q' r, hq r, hf r⟩

/-- A handler whose last statement is a call. -/
theorem conforms_ask_last {c : Call} {post : Except Exn c.Resp → Q → Prop} {q : Q}
    (q' : c.Resp → Q) (hq : ∀ r, next q ⟨c, r⟩ = some (q' r)) (hp : ∀ r, post (.ok r) (q' r)) :
    (ask c).run.Conforms next post q :=
  fun r => ⟨q' r, hq r, hp r⟩

/-- A pure computation that can throw, in a protocol. -/
theorem conforms_lift {x : Except Exn α} {f : α → Handler β} {q : Q}
    (hok : ∀ a, x = .ok a → (f a).run.Conforms next post q)
    (herr : ∀ e, x = .error e → post (.error e) q) :
    ((liftM x : Handler α) >>= f).run.Conforms next post q := by
  cases x with
  | ok a => exact hok a rfl
  | error e => exact herr e rfl

/-- A program that cannot throw, as a statement of a handler. -/
theorem conforms_liftIo {x : Io β} {q : Q} (hx : x.Conforms next (fun b q => post (.ok b) q) q) :
    (liftM x : Handler β).run.Conforms next post q := by
  show (x >>= fun b => Prog.ret (Except.ok b)).Conforms next post q
  exact Conforms.bind hx fun b q hq => hq

/-- A `try` block. -/
theorem conforms_catchStd {mid : Except Exn Unit → Q → Prop} {post : Unit → Q → Prop}
    {h : Handler Unit} {q : Q} (hh : h.run.Conforms next mid q)
    (hp : ∀ r q, mid r q → post () q) : (catchStd h).Conforms next post q :=
  Conforms.bind hh hp

theorem uses_ask {c : Call} {f : c.Resp → Handler β} (hc : P c) (hf : ∀ r, (f r).run.Uses P) :
    (ask c >>= f).run.Uses P :=
  ⟨hc, hf⟩

theorem uses_ask_last {c : Call} (hc : P c) : (ask c).run.Uses P := ⟨hc, fun _ => trivial⟩

theorem uses_lift {x : Except Exn α} {f : α → Handler β} (hf : ∀ a, (f a).run.Uses P) :
    ((liftM x : Handler α) >>= f).run.Uses P := by
  cases x with
  | ok a => exact hf a
  | error e => trivial

/-- The same, with the value that was computed. -/
theorem uses_lift_ok {x : Except Exn α} {f : α → Handler β}
    (hf : ∀ a, x = .ok a → (f a).run.Uses P) : ((liftM x : Handler α) >>= f).run.Uses P := by
  cases x with
  | ok a => exact hf a rfl
  | error e => trivial

theorem uses_lift_last {x : Except Exn α} : (liftM x : Handler α).run.Uses P := by
  cases x <;> trivial

theorem uses_pure (a : α) : (pure a : Handler α).run.Uses P := trivial

section Given

variable {A : Event calls → Prop} {P : Call → Prop}

theorem given_ask {c : Call} {f : c.Resp → Handler β} (hc : P c)
    (hf : ∀ r, A ⟨c, r⟩ → (f r).run.UsesGiven A P) : (ask c >>= f).run.UsesGiven A P :=
  ⟨hc, hf⟩

theorem given_bind {h : Handler α} {f : α → Handler β} (hh : h.run.UsesGiven A P)
    (hf : ∀ a, (f a).run.UsesGiven A P) : (h >>= f).run.UsesGiven A P := by
  rw [ExceptT.run_bind]
  refine UsesGiven.bind hh ?_
  intro r
  rcases r with e | a
  · trivial
  · exact hf a

theorem given_lift {x : Except Exn α} {f : α → Handler β}
    (hf : ∀ a, x = .ok a → (f a).run.UsesGiven A P) :
    ((liftM x : Handler α) >>= f).run.UsesGiven A P := by
  rcases x with e | a
  · trivial
  · exact hf a rfl

end Given

/-! ## Rules for conditions on the calls made so far -/

section Heeds

variable {A : Event calls → Prop} {P : List (Event calls) → Call → Prop}
  {post : Except Exn β → List (Event calls) → Prop} {past : List (Event calls)}

theorem heeds_ask {c : Call} {f : c.Resp → Handler β} (hc : P past c)
    (hf : ∀ r, A ⟨c, r⟩ → (f r).run.Heeds A P post (past ++ [⟨c, r⟩])) :
    (ask c >>= f).run.Heeds A P post past :=
  ⟨hc, hf⟩

theorem heeds_ask_last {c : Call} {post : Except Exn c.Resp → List (Event calls) → Prop}
    (hc : P past c) (hp : ∀ r, A ⟨c, r⟩ → post (.ok r) (past ++ [⟨c, r⟩])) :
    (ask c).run.Heeds A P post past :=
  ⟨hc, hp⟩

theorem heeds_lift {x : Except Exn α} {f : α → Handler β}
    (hok : ∀ a, x = .ok a → (f a).run.Heeds A P post past)
    (herr : ∀ e, x = .error e → post (.error e) past) :
    ((liftM x : Handler α) >>= f).run.Heeds A P post past := by
  rcases x with e | a
  · exact herr e rfl
  · exact hok a rfl

/-- Sequencing: the second program starts where the first may return. -/
theorem heeds_bind {mid : Except Exn α → List (Event calls) → Prop} {h : Handler α}
    {f : α → Handler β} (hh : h.run.Heeds A P mid past)
    (hok : ∀ a past, mid (.ok a) past → (f a).run.Heeds A P post past)
    (herr : ∀ e past, mid (.error e) past → post (.error e) past) :
    (h >>= f).run.Heeds A P post past := by
  rw [ExceptT.run_bind]
  refine Heeds.bind hh ?_
  intro r past hr
  rcases r with e | a
  · exact herr e past hr
  · exact hok a past hr

end Heeds

/-! ## Running a handler -/

variable {W : Type} (h : (c : Call) → W → c.Resp × W)

theorem run_ask (c : Call) (f : c.Resp → Handler β) (w : W) :
    (ask c >>= f).run.run h w = (f (h c w).1).run.run h (h c w).2 := rfl

theorem run_lift_ok {x : Except Exn α} {a : α} (hx : x = .ok a) (f : α → Handler β) (w : W) :
    ((liftM x : Handler α) >>= f).run.run h w = (f a).run.run h w := by
  subst hx
  rfl

theorem run_lift_error {x : Except Exn α} {e : Exn} (hx : x = .error e) (f : α → Handler β) (w : W) :
    ((liftM x : Handler α) >>= f).run.run h w = (.error e, w) := by
  subst hx
  rfl

/-- The second program of a sequence runs where the first has returned. -/
theorem run_bind_ok {p : Handler α} {f : α → Handler β} {w w' : W} {a : α}
    (hp : p.run.run h w = (.ok a, w')) : (p >>= f).run.run h w = (f a).run.run h w' := by
  rw [ExceptT.run_bind, Prog.run_bind, hp]

theorem run_bind_error {p : Handler α} {f : α → Handler β} {w w' : W} {e : Exn}
    (hp : p.run.run h w = (.error e, w')) : (p >>= f).run.run h w = (.error e, w') := by
  rw [ExceptT.run_bind, Prog.run_bind, hp]
  rfl

end Handler

/-! ## Executing a handler -/

/-- A computation that can throw, in a handler that returns. -/
theorem exec_lift {α β W : Type} {sem : Event calls → W → W → Prop} {x : Except Exn α}
    {f : α → Handler β} {w w' : W} {tr : List (Event calls)} {b : β}
    (h : Exec sem ((liftM x : Handler α) >>= f).run w tr (.ok b) w') :
    ∃ a, x = .ok a ∧ Exec sem (f a).run w tr (.ok b) w' := by
  cases x with
  | ok a => exact ⟨a, rfl, h⟩
  | error e => cases (exec_ret h).1

/-- A sequence of two handlers that returns. -/
theorem exec_bind_ok {α β W : Type} {sem : Event calls → W → W → Prop} {x : Handler α}
    {f : α → Handler β} {w w' : W} {tr : List (Event calls)} {b : β}
    (h : Exec sem (x >>= f).run w tr (.ok b) w') :
    ∃ a w₁ t₁ t₂, tr = t₁ ++ t₂ ∧ Exec sem x.run w t₁ (.ok a) w₁ ∧
      Exec sem (f a).run w₁ t₂ (.ok b) w' := by
  rw [ExceptT.run_bind] at h
  obtain ⟨r, w₁, t₁, t₂, htr, h₁, h₂⟩ := exec_bind.mp h
  cases r with
  | ok a => exact ⟨a, w₁, t₁, t₂, htr, h₁, h₂⟩
  | error e => cases (exec_ret h₂).1

/-- A handler goes on with what its first part returned. -/
theorem yields_bind_ok {α β : Type} {x : Handler α} {f : α → Handler β} {a : α}
    {t₁ t₂ : List (Event calls)} {r : Except Exn β} (hx : Yields x.run t₁ (.ok a))
    (hf : Yields (f a).run t₂ r) : Yields (x >>= f).run (t₁ ++ t₂) r := by
  rw [ExceptT.run_bind]
  exact yields_bind.mpr ⟨.ok a, t₁, t₂, rfl, hx, hf⟩

theorem exec_catchStd {W : Type} {sem : Event calls → W → W → Prop} {h : Handler Unit} {w w' : W}
    {tr : List (Event calls)} (hx : Exec sem (catchStd h) w tr () w') :
    ∃ r tr', Exec sem h.run w tr' r w' := by
  obtain ⟨r, w₁, t₁, t₂, -, h₁, h₂⟩ := exec_bind.mp hx
  obtain ⟨-, rfl⟩ := exec_ret h₂
  exact ⟨r, t₁, h₁⟩

theorem exec_liftIo {α W : Type} {sem : Event calls → W → W → Prop} {x : Io α}
    {w w' : W} {tr : List (Event calls)} {r : Except Exn α}
    (h : Exec sem (liftM x : Handler α).run w tr r w') :
    ∃ a tr', r = .ok a ∧ Exec sem x w tr' a w' := by
  obtain ⟨a, w₁, t₁, t₂, -, h₁, h₂⟩ := exec_bind.mp h
  obtain ⟨rfl, rfl⟩ := exec_ret h₂
  exact ⟨a, t₁, rfl, h₁⟩

end ChatServer
