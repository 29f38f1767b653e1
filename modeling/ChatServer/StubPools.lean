import ChatServer.Peers
import ChatServer.Wrappers
import ChatServer.Lib.FixedPool

/-!
# The pools of stubs

`ChatConPool` and `StatusConPool` are the same pool over the stubs of two services. Unlike the pools of
connections they have no thread of their own: stubs are only taken and given back, by the functions of
`ChatGrpcClient` and `StatusGrpcClient`, until the destructor closes the pool. For any number of threads that
run these functions, in any order of their steps, a stub is never lost and never used by two threads, and no
thread waits for nothing (`stubs_shared`).
-/

namespace ChatServer

open Interaction Prog Transition Bytes ConnPool

/-! ## Messages of `StatusService` -/

/-- `message.GetChatServerReq`. -/
structure GetChatServerReq where
  uid : Int := 0
  deriving DecidableEq, Repr

/-- `message.GetChatServerRsp`. -/
structure GetChatServerRsp where
  error : Int := 0
  host : Bytes := []
  port : Bytes := []
  token : Bytes := []
  deriving DecidableEq, Repr

/-- `message.LoginReq`. -/
structure LoginReq where
  uid : Int := 0
  token : Bytes := []
  deriving DecidableEq, Repr

/-- `message.LoginRsp`. -/
structure LoginRsp where
  error : Int := 0
  uid : Int := 0
  token : Bytes := []
  deriving DecidableEq, Repr

/-! ## Calls through stubs -/

/-- The methods of a `ChatService::Stub`. -/
inductive ChatRpc where
  | notifyAddFriend (request : AddFriendReq)
  | notifyAuthFriend (request : AuthFriendReq)
  | notifyTextChatMsg (request : TextChatMsgReq)

/-- Whether the status is OK, and the response. -/
@[reducible] def ChatRpc.Rsp : ChatRpc → Type
  | .notifyAddFriend _ => Bool × AddFriendRsp
  | .notifyAuthFriend _ => Bool × AuthFriendRsp
  | .notifyTextChatMsg _ => Bool × TextChatMsgRsp

/-- The methods of a `StatusService::Stub`. -/
inductive StatusRpc where
  | getChatServer (request : GetChatServerReq)
  | login (request : LoginReq)

/-- Whether the status is OK, and the response. -/
@[reducible] def StatusRpc.Rsp : StatusRpc → Type
  | .getChatServer _ => Bool × GetChatServerRsp
  | .login _ => Bool × LoginRsp

/-- A stub of a pool, by the turn of the constructor's loop that has made it. -/
abbrev Stub : Type := Nat

/-- A program of a thread that uses a pool of stubs. -/
abbrev StubClient {Rpc : Type} (R : Rpc → Type) : Type → Type := Client Stub R

/-- `getConnection()`, a call through the stub, and the deferred `returnConnection`. There is no result when
the pool has given a null pointer: what happens is up to the caller. -/
def throughStub {Rpc : Type} {R : Rpc → Type} (rpc : Rpc) : StubClient R (Option (R rpc)) :=
  withConnection none fun stub => do
    let r ← Client.ask (.query stub rpc)
    pure (some r)

namespace ChatStubs

/-- `_pools.find(server_ip)` and the call: what comes of it, or nothing if a null pointer is used. -/
def outcome {ρ : Type} (pools : Bytes → Option ChatConPool) (server_ip : Bytes) (rpc : ChatRpc)
    (rsp : rpc.Rsp → Bool × ρ) : StubClient ChatRpc.Rsp (Option (Wrappers.Outcome ρ)) :=
  match pools server_ip with
  | none => pure (some .noPool)
  | some _ => do
    let r ← throughStub rpc
    pure (r.map fun r => .returned (rsp r).1 (rsp r).2)

/-- `ChatGrpcClient::NotifyAddFriend`. -/
def notifyAddFriend (mode : Wrappers.Return) (pools : Bytes → Option ChatConPool) (server_ip : Bytes)
    (req : AddFriendReq) : StubClient ChatRpc.Rsp (Option AddFriendRsp) := do
  let r ← outcome pools server_ip (.notifyAddFriend req) id
  pure (r.map (Wrappers.notifyAddFriend mode req))

/-- `ChatGrpcClient::NotifyAuthFriend`. -/
def notifyAuthFriend (mode : Wrappers.Return) (pools : Bytes → Option ChatConPool) (server_ip : Bytes)
    (req : AuthFriendReq) : StubClient ChatRpc.Rsp (Option AuthFriendRsp) := do
  let r ← outcome pools server_ip (.notifyAuthFriend req) id
  pure (r.map (Wrappers.notifyAuthFriend mode req))

/-- `ChatGrpcClient::NotifyTextChatMsg`. -/
def notifyTextChatMsg (mode : Wrappers.Return) (pools : Bytes → Option ChatConPool) (server_ip : Bytes)
    (req : TextChatMsgReq) : StubClient ChatRpc.Rsp (Option TextChatMsgRsp) := do
  let r ← outcome pools server_ip (.notifyTextChatMsg req) id
  pure (r.map (Wrappers.notifyTextChatMsg mode req))

end ChatStubs

namespace StatusGrpcClient

/-- The response of a call, unless its status is not OK. -/
def respond {ρ : Type} (setError : ρ → ρ) (r : Bool × ρ) : ρ := if r.1 then r.2 else setError r.2

/-- `StatusGrpcClient::getChatServer`, which uses the stub without looking whether it is null. -/
def getChatServer (uid : Int) : StubClient StatusRpc.Rsp (Option GetChatServerRsp) := do
  let r ← throughStub (.getChatServer { uid := uid })
  pure (r.map (respond fun reply => { reply with error := ErrorCodes.rpcFailed.code }))

/-- `StatusGrpcClient::login`. -/
def login (uid : Int) (token : Bytes) : StubClient StatusRpc.Rsp LoginRsp := do
  let r ← throughStub (.login { uid := uid, token := token })
  match r with
  | none => pure { error := ErrorCodes.rpcFailed.code }
  | some r => pure (respond (fun reply => { reply with error := ErrorCodes.rpcFailed.code }) r)

end StatusGrpcClient

/-! ## They give back what they take -/

theorem throughStub_balanced {Rpc : Type} {R : Rpc → Type} (rpc : Rpc) :
    Balanced 1 (throughStub (R := R) rpc) :=
  balanced_withConnection fun _ => using_query fun _ => using_pure _ _ _

namespace ChatStubs

variable (mode : Wrappers.Return) (pools : Bytes → Option ChatConPool) (server_ip : Bytes)

theorem outcome_balanced {ρ : Type} (rpc : ChatRpc) (rsp : rpc.Rsp → Bool × ρ) :
    Balanced 1 (outcome pools server_ip rpc rsp) := by
  unfold outcome
  rcases pools server_ip with _ | pool
  · exact balanced_pure _ _
  · exact (throughStub_balanced rpc).bind fun _ => balanced_pure _ _

/-- A function of `ChatGrpcClient`, run for its effect on the pool. -/
inductive Operation : StubClient ChatRpc.Rsp Unit → Prop where
  | addFriend (req : AddFriendReq) :
      Operation (notifyAddFriend mode pools server_ip req >>= fun _ => pure ())
  | authFriend (req : AuthFriendReq) :
      Operation (notifyAuthFriend mode pools server_ip req >>= fun _ => pure ())
  | textChatMsg (req : TextChatMsgReq) :
      Operation (notifyTextChatMsg mode pools server_ip req >>= fun _ => pure ())

theorem operation_balanced {q : StubClient ChatRpc.Rsp Unit}
    (h : Operation mode pools server_ip q) : Balanced 1 q := by
  rcases h with req | req | req
  · exact ((outcome_balanced pools server_ip _ _).bind fun _ => balanced_pure _ _).bind fun _ =>
      balanced_pure _ _
  · exact ((outcome_balanced pools server_ip _ _).bind fun _ => balanced_pure _ _).bind fun _ =>
      balanced_pure _ _
  · exact ((outcome_balanced pools server_ip _ _).bind fun _ => balanced_pure _ _).bind fun _ =>
      balanced_pure _ _

end ChatStubs

namespace StatusGrpcClient

/-- A function of `StatusGrpcClient`, run for its effect on the pool. -/
inductive Operation : StubClient StatusRpc.Rsp Unit → Prop where
  | getChatServer (uid : Int) : Operation (getChatServer uid >>= fun _ => pure ())
  | login (uid : Int) (token : Bytes) : Operation (login uid token >>= fun _ => pure ())

theorem operation_balanced {q : StubClient StatusRpc.Rsp Unit} (h : Operation q) : Balanced 1 q := by
  rcases h with uid | ⟨uid, token⟩
  · exact ((throughStub_balanced _).bind fun _ => balanced_pure _ _).bind fun _ => balanced_pure _ _
  · refine ((throughStub_balanced _).bind fun r => ?_).bind fun _ => balanced_pure _ _
    rcases r with _ | r
    · exact balanced_pure _ _
    · exact balanced_pure _ _

end StatusGrpcClient

/-! ## Runs -/

/-- The threads that use a pool of `ChatGrpcClient`. -/
abbrev ChatStubStep (mode : Wrappers.Return) (pools : Bytes → Option ChatConPool) (server_ip : Bytes) :
    Pool Unit Stub ChatRpc.Rsp → FixedPool.Act Unit Stub ChatRpc.Rsp → Pool Unit Stub ChatRpc.Rsp → Prop :=
  FixedPool.Step fun _ q => ChatStubs.Operation mode pools server_ip q

/-- The threads that use the pool of `StatusGrpcClient`. -/
abbrev StatusStubStep : Pool Unit Stub StatusRpc.Rsp → FixedPool.Act Unit Stub StatusRpc.Rsp →
    Pool Unit Stub StatusRpc.Rsp → Prop :=
  FixedPool.Step fun _ q => StatusGrpcClient.Operation q

/-- A pool of `n` stubs as it has to be: until it is destroyed, every stub is idle or with one thread, and
while a thread sleeps there are no more idle stubs than threads on their way to them, and some thread that is
awake; afterwards no thread sleeps. No stub is ever in two places, and who has ended a function has given
back what it took. -/
structure StubsShared {Rpc : Type} {R : Rpc → Type} (n : Nat) (p : Pool Unit Stub R) : Prop where
  each : p.stopped = false → ∀ stub < n, p.holders stub = 1
  once : ∀ stub, p.holders stub ≤ 1
  awake : p.stopped = false → p.WakeSafe
  attended : p.stopped = false → 0 < n → 0 < sleeping p.callers →
    ∃ x ∈ p.callers, x.status.isAsleep = false ∧ (x.held ≠ [] ∨ x.status.isAwaiting = true)
  drained : p.stopped = true → sleeping p.callers = 0
  ended : ∀ x ∈ p.callers, x.status = .running (.ret ()) → x.held = []

theorem stubsShared_of_run {Rpc : Type} {R : Rpc → Type} {ops : Unit → StubClient R Unit → Prop}
    (hops : ∀ kind q, ops kind q → Balanced 1 q) {n : Nat} {kinds : List Unit}
    {tr : List (FixedPool.Act Unit Stub R × Pool Unit Stub R)} {p : Pool Unit Stub R}
    (h : Run (FixedPool.Step ops) (FixedPool.init (List.range n) kinds) tr p) : StubsShared n p := by
  obtain ⟨hshared, hgives⟩ := FixedPool.shared_of_run hops h
  have hnodup : (List.range n).Nodup := List.nodup_range
  refine ⟨?_, ?_, hshared.awake, ?_, fun hs => (hshared.drained hs).1, fun x hx => (hgives x hx).1⟩
  · intro hrun stub hstub
    rw [hshared.conserved hrun]
    exact List.count_eq_one_of_mem hnodup (List.mem_range.mpr hstub)
  · exact fun stub => (hshared.exclusive stub).trans (List.nodup_iff_count_le_one.mp hnodup stub)
  · intro hrun hn hsleep
    exact FixedPool.attended_of_run hops h hrun (by simp; omega) hsleep

/-- **Stubs are shared without loss.** For any number of threads that run the functions of `ChatGrpcClient`
through one of its pools, and any number that run those of `StatusGrpcClient`, in any order of their steps and
with any outcomes of the calls. -/
theorem stubs_shared {mode : Wrappers.Return} {pools : Bytes → Option ChatConPool} {server_ip : Bytes}
    {n m : Nat} {kinds kinds' : List Unit}
    {tr : List (FixedPool.Act Unit Stub ChatRpc.Rsp × Pool Unit Stub ChatRpc.Rsp)}
    {p : Pool Unit Stub ChatRpc.Rsp}
    {tr' : List (FixedPool.Act Unit Stub StatusRpc.Rsp × Pool Unit Stub StatusRpc.Rsp)}
    {p' : Pool Unit Stub StatusRpc.Rsp}
    (h : Run (ChatStubStep mode pools server_ip) (FixedPool.init (List.range n) kinds) tr p)
    (h' : Run StatusStubStep (FixedPool.init (List.range m) kinds') tr' p') :
    StubsShared n p ∧ StubsShared m p' :=
  ⟨stubsShared_of_run (fun _ _ hq => ChatStubs.operation_balanced mode pools server_ip hq) h,
    stubsShared_of_run (fun _ _ hq => StatusGrpcClient.operation_balanced hq) h'⟩

/-- Every name is known. -/
def anyPool (_ : Bytes) : Option ChatConPool := some { poolSize := 1, host := [], port := [] }

/-- A friend request for another server. -/
def notifies (_ : Unit) : StubClient ChatRpc.Rsp Unit :=
  ChatStubs.notifyAddFriend .inPlace anyPool [] {} >>= fun _ => pure ()

/-- A login at the status server. -/
def logsInAt (_ : Unit) : StubClient StatusRpc.Rsp Unit := StatusGrpcClient.login 7 [] >>= fun _ => pure ()

/-- Two threads begin, and both want a stub. -/
def bothCall {Rpc : Type} {R : Rpc → Type} (f : Unit → StubClient R Unit) :
    List (FixedPool.Move Unit Stub R) := [.call 0 f, .call 1 f, .advance 0, .advance 1]

/-- A call that succeeds. -/
def ChatRpc.succeeds : (rpc : ChatRpc) → rpc.Rsp
  | .notifyAddFriend _ => (true, {})
  | .notifyAuthFriend _ => (true, {})
  | .notifyTextChatMsg _ => (true, {})

/-- A call that succeeds. -/
def StatusRpc.succeeds : (rpc : StatusRpc) → rpc.Rsp
  | .getChatServer _ => (true, {})
  | .login _ => (true, {})

/-- The pool after these moves. -/
theorem bothCall_run {Rpc : Type} {R : Rpc → Type} {ops : Unit → StubClient R Unit → Prop}
    (answer : (rpc : Rpc) → R rpc) {f : Unit → StubClient R Unit} (hf : ∀ kind, ops kind (f kind)) :
    Run (FixedPool.Step ops) (FixedPool.init (List.range 1) [(), ()])
      (follow (FixedPool.move answer) (FixedPool.init (List.range 1) [(), ()]) (bothCall f))
      (final (FixedPool.init (List.range 1) [(), ()])
        (follow (FixedPool.move answer) (FixedPool.init (List.range 1) [(), ()]) (bothCall f))) := by
  refine follow_run ?_ _
  intro m hm p a p' hmove
  refine FixedPool.move_step ?_ hmove
  rintro i g rfl
  obtain ⟨-, rfl⟩ | ⟨-, rfl⟩ : (i = 0 ∧ g = f) ∨ (i = 1 ∧ g = f) := by simpa [bothCall] using hm
  · exact hf
  · exact hf

/-- A thread takes the only stub of each pool, and another one sleeps. -/
theorem stubs_shared_one : ∃ tr p tr' p',
    Run (ChatStubStep .inPlace anyPool []) (FixedPool.init (List.range 1) [(), ()]) tr p ∧
    sleeping p.callers = 1 ∧ Run StatusStubStep (FixedPool.init (List.range 1) [(), ()]) tr' p' ∧
    sleeping p'.callers = 1 ∧ StubsShared 1 p ∧ StubsShared 1 p' := by
  have h : Run (ChatStubStep .inPlace anyPool []) _ _ _ :=
    bothCall_run ChatRpc.succeeds (f := notifies) fun _ => .addFriend {}
  have h' : Run StatusStubStep _ _ _ :=
    bothCall_run StatusRpc.succeeds (f := logsInAt) fun _ => .login 7 []
  exact ⟨_, _, _, _, h, by decide +kernel, h', by decide +kernel, stubs_shared h h'⟩

end ChatServer
