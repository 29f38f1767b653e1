import ChatServer.Fleet

/-!
# What the client wrappers return

`infra/grpc/ChatGrpcClient.cpp`: the response of a wrapper, by what comes of the call and by how the
compiler returns the local `rsp`. A deferred block runs after the return expression, so the caller sees
what it writes only when the local is the caller's own object.
-/

namespace ChatServer

open Interaction Prog Handler Bytes

namespace Wrappers

/-! ## Scopes with deferred blocks -/

/-- How a compiler returns a local variable. -/
inductive Return where
  /-- The variable is the caller's object from the start. -/
  | inPlace
  /-- The caller's object is moved out of the variable, and then the destructors run. -/
  | movedOut
  deriving DecidableEq, Repr

variable {ρ : Type}

/-- `Defer::~Defer`, for each block that a scope has deferred, the last one first. -/
def unwind (defers : List (ρ → ρ)) (rsp : ρ) : ρ :=
  defers.foldl (fun rsp func => func rsp) rsp

/-- `return rsp;` in a scope with these deferred blocks, the last one first: what the caller gets. -/
def Return.leave (mode : Return) (defers : List (ρ → ρ)) (rsp : ρ) : ρ :=
  match mode with
  | .inPlace => unwind defers rsp
  | .movedOut => rsp

/-! ## The wrappers -/

/-- What comes of a wrapper's call. -/
inductive Outcome (ρ : Type) where
  /-- The name is not in `_pools`. -/
  | noPool
  /-- The stub returned, with a status that is OK or not, and left this in the response. -/
  | returned (ok : Bool) (rsp : ρ)
  deriving DecidableEq, Repr

/-- The stub call returned a status that is not OK. -/
def Outcome.Failed : Outcome ρ → Prop
  | .noPool => False
  | .returned ok _ => ok = false

/-- The response when the call is over, which began as `rsp`. -/
def Outcome.left (rsp : ρ) : Outcome ρ → ρ
  | .noPool => rsp
  | .returned _ rsp => rsp

/-- The functions of `ChatGrpcClient` have this form: the initial response, what the error branch and
the deferred block write, and what comes of the call. -/
def wrapper (mode : Return) (rsp : ρ) (setError defer : ρ → ρ) : Outcome ρ → ρ
  | .noPool => mode.leave [defer] rsp
  | .returned ok rsp =>
    -- gives the stub back to its pool
    let defercon := id
    if ok then mode.leave [defercon, defer] rsp else mode.leave [defercon, defer] (setError rsp)

/-- `ChatGrpcClient::NotifyAddFriend`. The deferred block sets the error code, too. -/
def notifyAddFriend (mode : Return) (req : AddFriendReq) : Outcome AddFriendRsp → AddFriendRsp :=
  wrapper mode {} (fun rsp => { rsp with error := ErrorCodes.rpcFailed.code })
    fun rsp => { rsp with
      error := ErrorCodes.success.code, applyuid := req.applyuid, touid := req.touid }

/-- `ChatGrpcClient::NotifyAuthFriend`. -/
def notifyAuthFriend (mode : Return) (req : AuthFriendReq) : Outcome AuthFriendRsp → AuthFriendRsp :=
  wrapper mode { error := ErrorCodes.success.code }
    (fun rsp => { rsp with error := ErrorCodes.rpcFailed.code })
    fun rsp => { rsp with fromuid := req.fromuid, touid := req.touid }

/-- The loop of the deferred block: a new message of the response for each text of the request. -/
def addTextmsgs (textmsgs : List TextChatData) (rsp : TextChatMsgRsp) : TextChatMsgRsp :=
  textmsgs.foldl (fun rsp text_data =>
    let new_msg : TextChatData := { msgid := text_data.msgid, msgcontent := text_data.msgcontent }
    { rsp with textmsgs := rsp.textmsgs ++ [new_msg] }) rsp

/-- `ChatGrpcClient::NotifyTextChatMsg`. -/
def notifyTextChatMsg (mode : Return) (req : TextChatMsgReq) :
    Outcome TextChatMsgRsp → TextChatMsgRsp :=
  wrapper mode { error := ErrorCodes.success.code }
    (fun rsp => { rsp with error := ErrorCodes.rpcFailed.code })
    fun rsp => addTextmsgs req.textmsgs { rsp with fromuid := req.fromuid, touid := req.touid }

/-- The block adds the request's texts to those that the response has already. -/
theorem addTextmsgs_eq (textmsgs : List TextChatData) (rsp : TextChatMsgRsp) :
    addTextmsgs textmsgs rsp = { rsp with textmsgs := rsp.textmsgs ++ textmsgs } := by
  unfold addTextmsgs
  induction textmsgs generalizing rsp with
  | nil => simp
  | cons text_data textmsgs ih => simp [ih]

section Wrapper

variable (rsp : ρ) (setError defer : ρ → ρ)

/-- The response that the return expression reads. -/
def Outcome.atReturn : Outcome ρ → ρ
  | .noPool => rsp
  | .returned ok rsp => if ok then rsp else setError rsp

/-- In place, the deferred block has the last word. -/
theorem wrapper_inPlace (outcome : Outcome ρ) :
    wrapper .inPlace rsp setError defer outcome = defer (outcome.atReturn rsp setError) := by
  rcases outcome with _ | ⟨ok, rsp'⟩
  · rfl
  · rcases ok with _ | _ <;> rfl

/-- Moved out, nobody sees what the deferred block writes. -/
theorem wrapper_movedOut (outcome : Outcome ρ) :
    wrapper .movedOut rsp setError defer outcome = outcome.atReturn rsp setError := by
  rcases outcome with _ | ⟨ok, rsp'⟩
  · rfl
  · rcases ok with _ | _ <;> rfl

theorem Outcome.atReturn_of_failed {outcome : Outcome ρ} (h : outcome.Failed) :
    outcome.atReturn rsp setError = setError (outcome.left rsp) := by
  rcases outcome with _ | ⟨ok, rsp'⟩
  · exact h.elim
  · show (if ok then rsp' else setError rsp') = setError rsp'
    rw [if_neg (by simp [show ok = false from h])]

/-- The error branch writes nothing but the error code. -/
theorem Outcome.atReturn_field {κ : Type} (field : ρ → κ)
    (hset : ∀ rsp, field (setError rsp) = field rsp) (outcome : Outcome ρ) :
    field (outcome.atReturn rsp setError) = field (outcome.left rsp) := by
  rcases outcome with _ | ⟨ok, rsp'⟩
  · rfl
  · rcases ok with _ | _
    · exact hset rsp'
    · rfl

end Wrapper

/-! ## What a wrapper is to report -/

/-- What the caller of a wrapper relies on: the error code of a call that failed, and the request's own
data. -/
structure Reports (outcome : Outcome ρ) (error : ρ → Int) (Echoes : ρ → Prop) (rsp : ρ) : Prop where
  failed : outcome.Failed → error rsp = ErrorCodes.rpcFailed.code
  echoed : Echoes rsp

/-- The response has the two uids of the request. -/
def EchoesAddFriend (req : AddFriendReq) (rsp : AddFriendRsp) : Prop :=
  rsp.applyuid = req.applyuid ∧ rsp.touid = req.touid

/-- The response has the two uids of the request. -/
def EchoesAuthFriend (req : AuthFriendReq) (rsp : AuthFriendRsp) : Prop :=
  rsp.fromuid = req.fromuid ∧ rsp.touid = req.touid

/-- The response has the two uids and the texts of the request, in their order. -/
def EchoesTextChat (req : TextChatMsgReq) (rsp : TextChatMsgRsp) : Prop :=
  rsp.fromuid = req.fromuid ∧ rsp.touid = req.touid ∧ rsp.textmsgs = req.textmsgs

/-- Moved out, a wrapper reports exactly when the call itself left the request's data in the response. -/
theorem reports_movedOut_iff {rsp : ρ} {setError defer : ρ → ρ} (error : ρ → Int)
    (Echoes : ρ → Prop) (hcode : ∀ rsp, error (setError rsp) = ErrorCodes.rpcFailed.code)
    (hset : ∀ rsp, Echoes (setError rsp) ↔ Echoes rsp) (outcome : Outcome ρ) :
    Reports outcome error Echoes (wrapper .movedOut rsp setError defer outcome) ↔
      Echoes (outcome.left rsp) := by
  have hechoes : Echoes (outcome.atReturn rsp setError) ↔ Echoes (outcome.left rsp) := by
    rw [Outcome.atReturn_field rsp setError Echoes fun rsp => propext (hset rsp)]
  rw [wrapper_movedOut]
  constructor
  · intro h
    exact hechoes.mp h.echoed
  · intro h
    refine ⟨fun hfailed => ?_, hechoes.mpr h⟩
    rw [Outcome.atReturn_of_failed rsp setError hfailed]
    exact hcode _

/-- In place, a deferred block that leaves the error code alone reports exactly when it ends with the
request's data. -/
theorem reports_inPlace_iff {rsp : ρ} {setError defer : ρ → ρ} (error : ρ → Int)
    (Echoes : ρ → Prop) (hcode : ∀ rsp, error (setError rsp) = ErrorCodes.rpcFailed.code)
    (hdefer : ∀ rsp, error (defer rsp) = error rsp) (outcome : Outcome ρ) :
    Reports outcome error Echoes (wrapper .inPlace rsp setError defer outcome) ↔
      Echoes (defer (outcome.atReturn rsp setError)) := by
  rw [wrapper_inPlace]
  constructor
  · intro h
    exact h.echoed
  · intro h
    refine ⟨fun hfailed => ?_, h⟩
    rw [hdefer, Outcome.atReturn_of_failed rsp setError hfailed]
    exact hcode _

theorem addFriend_reports_iff (mode : Return) (req : AddFriendReq) (outcome : Outcome AddFriendRsp) :
    Reports outcome AddFriendRsp.error (EchoesAddFriend req) (notifyAddFriend mode req outcome) ↔
      match mode with
      | .inPlace => ¬ outcome.Failed
      | .movedOut => EchoesAddFriend req (outcome.left {}) := by
  rcases mode with _ | _
  · -- the block overwrites the error code, whatever the call returned
    show Reports outcome _ _ (wrapper .inPlace _ _ _ outcome) ↔ ¬ outcome.Failed
    rw [wrapper_inPlace]
    constructor
    · intro h hfailed
      exact absurd (h.failed hfailed) (by simp [ErrorCodes.code])
    · intro h
      exact ⟨fun hfailed => absurd hfailed h, rfl, rfl⟩
  · refine reports_movedOut_iff AddFriendRsp.error (EchoesAddFriend req) ?_ ?_ outcome
    · intro rsp
      rfl
    · intro rsp
      rfl

theorem authFriend_reports_iff (mode : Return) (req : AuthFriendReq) (outcome : Outcome AuthFriendRsp) :
    Reports outcome AuthFriendRsp.error (EchoesAuthFriend req) (notifyAuthFriend mode req outcome) ↔
      match mode with
      | .inPlace => True
      | .movedOut => EchoesAuthFriend req (outcome.left { error := ErrorCodes.success.code }) := by
  rcases mode with _ | _
  · refine (reports_inPlace_iff AuthFriendRsp.error (EchoesAuthFriend req) ?_ ?_ outcome).trans ?_
    · intro rsp
      rfl
    · intro rsp
      rfl
    · exact iff_true_intro ⟨rfl, rfl⟩
  · refine reports_movedOut_iff AuthFriendRsp.error (EchoesAuthFriend req) ?_ ?_ outcome
    · intro rsp
      rfl
    · intro rsp
      rfl

theorem textChatMsg_reports_iff (mode : Return) (req : TextChatMsgReq)
    (outcome : Outcome TextChatMsgRsp) :
    Reports outcome TextChatMsgRsp.error (EchoesTextChat req) (notifyTextChatMsg mode req outcome) ↔
      match mode with
      | .inPlace => (outcome.left { error := ErrorCodes.success.code }).textmsgs = []
      | .movedOut => EchoesTextChat req (outcome.left { error := ErrorCodes.success.code }) := by
  rcases mode with _ | _
  · refine (reports_inPlace_iff TextChatMsgRsp.error (EchoesTextChat req) ?_ ?_ outcome).trans ?_
    · intro rsp
      rfl
    · intro rsp
      simp [addTextmsgs_eq]
    · -- the block adds to the texts that the peer's reply brought
      have htexts := outcome.atReturn_field { error := ErrorCodes.success.code }
        (fun rsp => { rsp with error := ErrorCodes.rpcFailed.code }) TextChatMsgRsp.textmsgs
        fun rsp => rfl
      simp only [EchoesTextChat, addTextmsgs_eq, htexts, true_and]
      exact List.append_left_eq_self
  · refine reports_movedOut_iff TextChatMsgRsp.error (EchoesTextChat req) ?_ ?_ outcome
    · intro rsp
      rfl
    · intro rsp
      rfl

/-- When the wrappers report, however the local is returned: for a friend request, in place, the call
must not have failed; for texts, in place, the reply must bring none of its own; and moved out, the call
itself must have left the request's data in the response. -/
theorem wrappers_report_iff (mode : Return) :
    (∀ req outcome, Reports outcome AddFriendRsp.error (EchoesAddFriend req)
        (notifyAddFriend mode req outcome) ↔
      match mode with
      | .inPlace => ¬ outcome.Failed
      | .movedOut => EchoesAddFriend req (outcome.left {})) ∧
    (∀ req outcome, Reports outcome AuthFriendRsp.error (EchoesAuthFriend req)
        (notifyAuthFriend mode req outcome) ↔
      match mode with
      | .inPlace => True
      | .movedOut => EchoesAuthFriend req (outcome.left { error := ErrorCodes.success.code })) ∧
    (∀ req outcome, Reports outcome TextChatMsgRsp.error (EchoesTextChat req)
        (notifyTextChatMsg mode req outcome) ↔
      match mode with
      | .inPlace => (outcome.left { error := ErrorCodes.success.code }).textmsgs = []
      | .movedOut => EchoesTextChat req (outcome.left { error := ErrorCodes.success.code })) :=
  ⟨addFriend_reports_iff mode, authFriend_reports_iff mode, textChatMsg_reports_iff mode⟩

/-- A friend request from user 1 to user 2 whose stub call fails comes back as a success, in place. When
the peer is not in `_pools`, an accepted request and a text between them come back without their uids,
moved out. -/
theorem wrappers_report_fails :
    ¬ Reports (.returned false {}) AddFriendRsp.error (EchoesAddFriend { applyuid := 1, touid := 2 })
        (notifyAddFriend .inPlace { applyuid := 1, touid := 2 } (.returned false {})) ∧
    ¬ Reports .noPool AuthFriendRsp.error (EchoesAuthFriend { fromuid := 1, touid := 2 })
        (notifyAuthFriend .movedOut { fromuid := 1, touid := 2 } .noPool) ∧
    ¬ Reports .noPool TextChatMsgRsp.error (EchoesTextChat { fromuid := 1, touid := 2 })
        (notifyTextChatMsg .movedOut { fromuid := 1, touid := 2 } .noPool) := by
  refine ⟨fun h => ?_, fun h => ?_, fun h => ?_⟩
  · exact absurd (h.failed rfl) (by decide)
  · exact absurd h.echoed.1 (by decide)
  · exact absurd h.echoed.1 (by decide)

/-! ## The wrappers of a fleet -/

section Fleet

variable (J : JsonCpp) (pools : Pools) (S : ServerName) (server_ip : Bytes)

/-- What the peer's reply is to the stub: an exception is a status that is not OK, and leaves the
response as it was. -/
def Outcome.ofReply (rsp : ρ) : Except Exn ρ → Outcome ρ
  | .ok reply => .returned true reply
  | .error _ => .returned false rsp

/-- The call of a wrapper, carried out by the peer. -/
def call (serve : Io (Except Exn ρ)) (rsp : ρ) : Located (Outcome ρ) :=
  match pools S server_ip with
  | none => pure .noPool
  | some T => do
    let reply ← locate T serve
    pure (.ofReply rsp reply)

/-- The wrappers of a fleet return in place. -/
theorem notify_eq_wrapper (serve : Io (Except Exn ρ)) (rsp : ρ) (setError defer : ρ → ρ) :
    Remote.notify pools S server_ip serve rsp setError defer =
      (call pools S server_ip serve rsp >>= fun outcome =>
        pure (wrapper .inPlace rsp setError defer outcome)) := by
  unfold Remote.notify call
  rcases pools S server_ip with _ | T
  · rfl
  · show (locate T serve >>= _) = (locate T serve >>= _) >>= _
    rw [bind_assoc]
    congr 1
    funext reply
    rcases reply with e | reply <;> rfl

theorem remote_notifyAddFriend (req : AddFriendReq) :
    Remote.notifyAddFriend J pools S server_ip req =
      (call pools S server_ip (ChatServiceImpl.notifyAddFriend J req).run {} >>= fun outcome =>
        pure (notifyAddFriend .inPlace req outcome)) :=
  notify_eq_wrapper pools S server_ip _ _ _ _

theorem remote_notifyAuthFriend (req : AuthFriendReq) :
    Remote.notifyAuthFriend J pools S server_ip req =
      (call pools S server_ip (ChatServiceImpl.notifyAuthFriend J req).run
        { error := ErrorCodes.success.code } >>= fun outcome =>
          pure (notifyAuthFriend .inPlace req outcome)) :=
  notify_eq_wrapper pools S server_ip _ _ _ _

theorem remote_notifyTextChatMsg (req : TextChatMsgReq) :
    Remote.notifyTextChatMsg J pools S server_ip req =
      (call pools S server_ip (ChatServiceImpl.notifyTextChatMsg J req).run
        { error := ErrorCodes.success.code } >>= fun outcome =>
          pure (notifyTextChatMsg .inPlace req outcome)) := by
  unfold notifyTextChatMsg
  simp only [addTextmsgs_eq]
  exact notify_eq_wrapper pools S server_ip _ _ _ _

variable {J} {pools} {S} {server_ip}

/-- A peer's answer to a text has nothing of the request. -/
theorem yields_notifyTextChatMsg {req : TextChatMsgReq} {tr : List (Event calls)}
    {r : Except Exn TextChatMsgRsp} (h : (ChatServiceImpl.notifyTextChatMsg J req).run.Yields tr r) :
    r = .ok { error := ErrorCodes.success.code } := by
  obtain ⟨session, _, -, hsession⟩ := yields_call.mp h
  rcases session with _ | session
  · exact (yields_ret.mp hsession).2
  · obtain ⟨_, _, -, hsent⟩ := yields_call.mp hsession
    exact (yields_ret.mp hsent).2

theorem yields_locate {α : Type} {T : ServerName} {p : Io α} {tr : List (Event located)} {a : α}
    (h : (locate T p).Yields tr a) : ∃ tr, p.Yields tr a := by
  induction p generalizing tr with
  | ret b =>
    obtain ⟨-, rfl⟩ := yields_ret.mp h
    exact ⟨[], .ret _⟩
  | call c k ih =>
    obtain ⟨r, _, -, hk⟩ := yields_call.mp h
    obtain ⟨tr, hk⟩ := ih r hk
    exact ⟨_, .call hk⟩

/-- Between servers of this program the wrapper for texts echoes its request, in place: the answers of
the peers bring no texts. -/
theorem remote_textChatMsg_echoes {req : TextChatMsgReq} {tr : List (Event located)}
    {rsp : TextChatMsgRsp} (h : (Remote.notifyTextChatMsg J pools S server_ip req).Yields tr rsp) :
    EchoesTextChat req rsp := by
  rw [remote_notifyTextChatMsg] at h
  obtain ⟨outcome, tr₁, _, rfl, hcall, h⟩ := yields_bind.mp h
  obtain ⟨-, rfl⟩ := yields_ret.mp h
  refine ((textChatMsg_reports_iff .inPlace req outcome).mpr ?_).echoed
  unfold call at hcall
  rcases hpool : pools S server_ip with _ | T
  · rw [hpool] at hcall
    obtain ⟨-, rfl⟩ := yields_ret.mp hcall
    rfl
  · rw [hpool] at hcall
    obtain ⟨reply, _, _, rfl, hreply, hcall⟩ := yields_bind.mp hcall
    obtain ⟨-, rfl⟩ := yields_ret.mp hcall
    obtain ⟨tr, hreply⟩ := yields_locate hreply
    rw [yields_notifyTextChatMsg hreply]
    rfl

end Fleet

end Wrappers

end ChatServer
