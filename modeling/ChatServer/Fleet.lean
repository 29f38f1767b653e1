import ChatServer.Coherence

/-!
# Servers that share Redis and the database

A `Fleet` is what the threads of all servers act on: Redis, the database, the memory of each server, and
a record of what was given to `send`. No command, statement or remote call fails here. A call is made
at a server, and a call of `ChatGrpcClient` is what the peer's chat service does for it: `place` makes of
a server's program one that runs through to the peers.
-/

namespace ChatServer

open Interaction Prog Handler Bytes Function

/-! ## Calls at servers -/

/-- A call made at a server. -/
abbrev located : Sig := ⟨ServerName × Call, fun o => o.2.Resp⟩

abbrev Located : Type → Type := Prog located

/-- A message that was given to `send`, for a session at a server. -/
structure Outbound where
  server : ServerName
  session : SessId
  msg : Bytes
  msgid : Int
  deriving DecidableEq, Repr

structure Fleet where
  redis : Redis
  database : Database
  proc : ServerName → Proc
  sent : List Outbound

/-- What a call gives to `send`. -/
def Call.outbound (S : ServerName) : Call → List Outbound
  | .send s msg msgid => [{ server := S, session := s, msg := msg, msgid := msgid }]
  | _ => []

/-- Answer and carry out a call at a server. -/
def Fleet.call (o : ServerName × Call) (f : Fleet) : o.2.Resp × Fleet :=
  match f.database.call o.2 with
  | some (r, database) => (r, { f with database := database })
  | none =>
    let x := World.interpret World.noAnswer o.2 ⟨f.redis, f.proc o.1⟩
    (x.1, { f with
      redis := x.2.redis
      proc := update f.proc o.1 x.2.proc
      sent := f.sent ++ o.2.outbound o.1 })

/-! ## Remote calls -/

/-- The pools of the servers: the peer that a server reaches under a name. -/
abbrev Pools : Type := ServerName → Bytes → Option ServerName

/-- The calls of a program that stays at a server. -/
def locate {α : Type} (S : ServerName) : Io α → Located α
  | .ret a => .ret a
  | .call c k => .call (S, c) fun r => locate S (k r)

namespace Remote

/-- The functions of `ChatGrpcClient` have this form: the response to a name that is not in `_pools`, the
peer's reply or an error status, and the deferred block. -/
def notify {ρ : Type} (pools : Pools) (S : ServerName) (server_ip : Bytes)
    (serve : Io (Except Exn ρ)) (rsp : ρ) (setError : ρ → ρ) (defer : ρ → ρ) : Located ρ :=
  match pools S server_ip with
  | none => pure (defer rsp)
  | some T => do
    let reply ← locate T serve
    match reply with
    | .ok reply => pure (defer reply)
    | .error _ => pure (defer (setError rsp))

section Members

variable (J : JsonCpp) (pools : Pools) (S : ServerName) (server_ip : Bytes)

/-- `ChatGrpcClient::NotifyAddFriend`. The deferred block sets the error code, too. -/
def notifyAddFriend (req : AddFriendReq) : Located AddFriendRsp :=
  notify pools S server_ip (ChatServiceImpl.notifyAddFriend J req).run {}
    (fun rsp => { rsp with error := ErrorCodes.rpcFailed.code })
    fun rsp => { rsp with
      error := ErrorCodes.success.code, applyuid := req.applyuid, touid := req.touid }

/-- `ChatGrpcClient::NotifyAuthFriend`. -/
def notifyAuthFriend (req : AuthFriendReq) : Located AuthFriendRsp :=
  notify pools S server_ip (ChatServiceImpl.notifyAuthFriend J req).run
    { error := ErrorCodes.success.code }
    (fun rsp => { rsp with error := ErrorCodes.rpcFailed.code })
    fun rsp => { rsp with fromuid := req.fromuid, touid := req.touid }

/-- `ChatGrpcClient::NotifyTextChatMsg`. -/
def notifyTextChatMsg (req : TextChatMsgReq) : Located TextChatMsgRsp :=
  notify pools S server_ip (ChatServiceImpl.notifyTextChatMsg J req).run
    { error := ErrorCodes.success.code }
    (fun rsp => { rsp with error := ErrorCodes.rpcFailed.code })
    fun rsp => { rsp with
      fromuid := req.fromuid, touid := req.touid, textmsgs := rsp.textmsgs ++ req.textmsgs }

end Members

end Remote

/-- How a call of a server is carried out: a call of `ChatGrpcClient` by the peer, any other at the
server. -/
def carry (J : JsonCpp) (pools : Pools) (S : ServerName) : (c : Call) → Located c.Resp
  | .notifyAddFriend server_ip req => Remote.notifyAddFriend J pools S server_ip req
  | .notifyAuthFriend server_ip req => Remote.notifyAuthFriend J pools S server_ip req
  | .notifyTextChatMsg server_ip req => Remote.notifyTextChatMsg J pools S server_ip req
  | c => perform (S := located) (S, c)

/-- A program of a server, with its remote calls. -/
def place {α : Type} (J : JsonCpp) (pools : Pools) (S : ServerName) : Io α → Located α
  | .ret a => .ret a
  | .call c k => carry J pools S c >>= fun r => place J pools S (k r)

section Programs

variable {α β : Type} {J : JsonCpp} {pools : Pools} {S T : ServerName}

theorem place_bind (p : Io α) (f : α → Io β) :
    place J pools S (p >>= f) = (place J pools S p >>= fun a => place J pools S (f a)) := by
  induction p with
  | ret a => rfl
  | call c k ih =>
    show (carry J pools S c >>= fun r => place J pools S (k r >>= f)) = _
    simp only [ih]
    exact (bind_assoc _ _ _).symm

/-- What `ChatGrpcClient` does when the peer is in its pools and replies. -/
theorem notify_of_pool {ρ : Type} {server_ip : Bytes} (h : pools S server_ip = some T)
    (serve : Io (Except Exn ρ)) (rsp : ρ) (setError defer : ρ → ρ) :
    Remote.notify pools S server_ip serve rsp setError defer =
      (locate T serve >>= fun reply => match reply with
        | .ok reply => pure (defer reply)
        | .error _ => pure (defer (setError rsp))) := by
  unfold Remote.notify
  rw [h]

end Programs

/-! ## Conditions on the calls made so far -/

section Heeds

variable {α β : Type} {J : JsonCpp} {pools : Pools} {S : ServerName} {A : Event located → Prop}
  {P : List (Event located) → ServerName × Call → Prop} {past : List (Event located)}
  {post : Except Exn β → List (Event located) → Prop}

theorem heeds_place_bind {h : Handler α} {k : α → Handler β}
    {mid : Except Exn α → List (Event located) → Prop}
    (hh : (place J pools S h.run).Heeds A P mid past)
    (hok : ∀ a past, mid (.ok a) past → (place J pools S (k a).run).Heeds A P post past)
    (herr : ∀ e past, mid (.error e) past → post (.error e) past) :
    (place J pools S (h >>= k).run).Heeds A P post past := by
  rw [ExceptT.run_bind, place_bind]
  refine Heeds.bind hh ?_
  intro r past hr
  rcases r with e | a
  · exact herr e past hr
  · exact hok a past hr

theorem heeds_place_lift {x : Except Exn α} {k : α → Handler β}
    (hok : ∀ a, x = .ok a → (place J pools S (k a).run).Heeds A P post past)
    (herr : ∀ e, x = .error e → post (.error e) past) :
    (place J pools S ((liftM x : Handler α) >>= k).run).Heeds A P post past := by
  rcases x with e | a
  · exact herr e rfl
  · exact hok a rfl

/-- A call that is made at the server itself. -/
theorem heeds_place_ask {c : Call} {k : c.Resp → Handler β}
    (hhere : carry J pools S c = perform (S := located) (S, c)) (hc : P past (S, c))
    (hk : ∀ r, A ⟨(S, c), r⟩ →
      (place J pools S (k r).run).Heeds A P post (past ++ [⟨(S, c), r⟩])) :
    (place J pools S (ask c >>= k).run).Heeds A P post past := by
  show (carry J pools S c >>= fun r => place J pools S (k r).run).Heeds A P post past
  rw [hhere]
  exact ⟨hc, hk⟩

theorem heeds_place_ask_last {c : Call} {post : Except Exn c.Resp → List (Event located) → Prop}
    (hhere : carry J pools S c = perform (S := located) (S, c)) (hc : P past (S, c))
    (hp : ∀ r, A ⟨(S, c), r⟩ → post (.ok r) (past ++ [⟨(S, c), r⟩])) :
    (place J pools S (ask c).run).Heeds A P post past := by
  show (carry J pools S c >>= fun r => place J pools S (Prog.ret (Except.ok r))).Heeds A P post past
  rw [hhere]
  exact ⟨hc, hp⟩

end Heeds

/-! ## Running a program -/

namespace Fleet

/-- The program, run in one piece, ends so. -/
def Ends {α : Type} (p : Located α) (post : α → Fleet → Prop) (f : Fleet) : Prop :=
  post (p.run Fleet.call f).1 (p.run Fleet.call f).2

section Ends

variable {α β : Type} {f : Fleet}

theorem Ends.bind {p : Located α} {k : α → Located β} {mid : α → Fleet → Prop}
    {post : β → Fleet → Prop} (hp : Ends p mid f) (hk : ∀ a f, mid a f → Ends (k a) post f) :
    Ends (p >>= k) post f := by
  unfold Ends
  rw [Prog.run_bind]
  exact hk _ _ hp

theorem Ends.mono {p : Located α} {post post' : α → Fleet → Prop} (hp : Ends p post f)
    (h : ∀ a f, post a f → post' a f) : Ends p post' f := h _ _ hp

variable {J : JsonCpp} {pools : Pools} {S : ServerName} {post : Except Exn β → Fleet → Prop}

/-- Sequencing of handlers. -/
theorem ends_bind {h : Handler α} {k : α → Handler β} {mid : Except Exn α → Fleet → Prop}
    (hh : Ends (place J pools S h.run) mid f)
    (hok : ∀ a f, mid (.ok a) f → Ends (place J pools S (k a).run) post f)
    (herr : ∀ e f, mid (.error e) f → post (.error e) f) :
    Ends (place J pools S (h >>= k).run) post f := by
  rw [ExceptT.run_bind, place_bind]
  refine hh.bind ?_
  intro r f hr
  rcases r with e | a
  · exact herr e f hr
  · exact hok a f hr

theorem ends_lift {x : Except Exn α} {k : α → Handler β}
    (hok : ∀ a, x = .ok a → Ends (place J pools S (k a).run) post f)
    (herr : ∀ e, x = .error e → post (.error e) f) :
    Ends (place J pools S ((liftM x : Handler α) >>= k).run) post f := by
  rcases x with e | a
  · exact herr e rfl
  · exact hok a rfl

/-- A call that is made at the server itself. -/
theorem ends_ask {c : Call} {k : c.Resp → Handler β} {x : c.Resp × Fleet}
    (hhere : carry J pools S c = perform (S := located) (S, c)) (hx : Fleet.call (S, c) f = x)
    (hk : Ends (place J pools S (k x.1).run) post x.2) :
    Ends (place J pools S (ask c >>= k).run) post f := by
  subst hx
  show Ends (carry J pools S c >>= fun r => place J pools S (k r).run) post f
  rw [hhere]
  exact hk

theorem ends_ask_last {c : Call} {x : c.Resp × Fleet} {post : Except Exn c.Resp → Fleet → Prop}
    (hhere : carry J pools S c = perform (S := located) (S, c)) (hx : Fleet.call (S, c) f = x)
    (hp : post (.ok x.1) x.2) : Ends (place J pools S (ask c).run) post f := by
  subst hx
  show Ends (carry J pools S c >>= fun r => place J pools S (Prog.ret (Except.ok r))) post f
  rw [hhere]
  exact hp

end Ends

end Fleet

end ChatServer
