import ChatServer.Cluster

/-!
# The ledger of a server

What the bindings of users to sessions consist of, without the programs and the bytes: the login
count, the routes, `UserMgr`, the state of every session as far as it matters here, and the phases of
the two threads. `Ledger.Step` lists everything that can happen to it, one constructor for each kind
of step, and `ledger_step` shows that every step of a cluster is one of these. The results about
bindings are proved from the constructors.
-/

namespace ChatServer

open Interaction Prog Decimal Function

structure Ledger where
  /-- The stored login count. -/
  count : Bytes
  /-- The stored routes. -/
  route : Int → Option Bytes
  /-- `UserMgr::_uid_to_session`. -/
  map : Int → Option SessId
  /-- `_user_uid`. -/
  uid : SessId → Int
  /-- `_b_close`. -/
  closed : SessId → Bool
  /-- Whether the socket is open. -/
  socket : SessId → Bool
  /-- Whether a node for a body is stored. -/
  stored : SessId → Bool
  /-- The outstanding reads. -/
  reads : SessId → List PendingRead
  /-- The sessions accepted so far. -/
  known : List SessId
  /-- `CServer::_sessions`. -/
  live : List SessId
  /-- The sessions of the messages in the worker's queue. -/
  queue : List SessId
  worker : Option (SessId × WorkerPhase)
  io : Option (SessId × IoPhase)

/-- The ledger of the server `self`. -/
def World.ledger (w : World) (self : ServerName) (worker : Option (SessId × WorkerPhase))
    (io : Option (SessId × IoPhase)) : Ledger where
  count := w.redis.count self
  route := w.redis.route
  map := w.proc.uidToSession
  uid s := (w.proc.sess s).userUid
  closed s := (w.proc.sess s).bClose
  socket s := (w.proc.sess s).socketOpen
  stored s := (w.proc.sess s).recvMsgNode.isSome
  reads s := (w.proc.sess s).reads
  known := w.proc.known
  live := w.proc.sessions
  queue := w.proc.msgQue.map LogicNode.session
  worker := worker
  io := io

/-- The ledger of the server `v`, whose name is `self`. -/
def Server.ledger (v : Server) (redis : Redis) (self : ServerName) : Ledger :=
  World.ledger ⟨redis, v.proc⟩ self (v.workerAt self) (v.ioAt self)

/-- The ledger of the server `S` of a cluster. -/
def Cluster.ledger (c : Cluster) (S : ServerName) : Ledger := (c.server S).ledger c.redis S

/-! ## What calls do to it -/

section Calls

variable (w : World) (self : ServerName) (wk : Option (SessId × WorkerPhase))
  (io : Option (SessId × IoPhase))

theorem ledger_modify (s : SessId) (f : Sess → Sess) :
    (w.modify s f).ledger self wk io =
      { w.ledger self wk io with
        uid := update (w.ledger self wk io).uid s (f (w.proc.sess s)).userUid
        closed := update (w.ledger self wk io).closed s (f (w.proc.sess s)).bClose
        socket := update (w.ledger self wk io).socket s (f (w.proc.sess s)).socketOpen
        stored := update (w.ledger self wk io).stored s (f (w.proc.sess s)).recvMsgNode.isSome
        reads := update (w.ledger self wk io).reads s (f (w.proc.sess s)).reads } := by
  have hfield : ∀ {β : Type} (g : Sess → β), (fun t => g ((w.modify s f).proc.sess t)) =
      update (fun t => g (w.proc.sess t)) s (g (f (w.proc.sess s))) :=
    fun g => comp_update g w.proc.sess s (f (w.proc.sess s))
  unfold World.ledger
  simp only [hfield Sess.userUid, hfield Sess.bClose, hfield Sess.socketOpen, hfield Sess.reads,
    hfield fun x => x.recvMsgNode.isSome]
  rfl

section Same

variable (s : SessId)

theorem update_uid_self : update (w.ledger self wk io).uid s (w.proc.sess s).userUid =
    (w.ledger self wk io).uid := update_eq_self s _

theorem update_closed_self : update (w.ledger self wk io).closed s (w.proc.sess s).bClose =
    (w.ledger self wk io).closed := update_eq_self s _

theorem update_socket_self : update (w.ledger self wk io).socket s (w.proc.sess s).socketOpen =
    (w.ledger self wk io).socket := update_eq_self s _

theorem update_stored_self :
    update (w.ledger self wk io).stored s (w.proc.sess s).recvMsgNode.isSome =
      (w.ledger self wk io).stored := update_eq_self s _

theorem update_reads_self : update (w.ledger self wk io).reads s (w.proc.sess s).reads =
    (w.ledger self wk io).reads := update_eq_self s _

end Same

/-- A change of a session that the ledger does not notice. -/
theorem ledger_modify_of_same {s : SessId} {f : Sess → Sess}
    (hf : ∀ x : Sess, (f x).userUid = x.userUid ∧ (f x).bClose = x.bClose ∧
      (f x).socketOpen = x.socketOpen ∧ (f x).recvMsgNode = x.recvMsgNode ∧
      (f x).reads = x.reads) :
    (w.modify s f).ledger self wk io = w.ledger self wk io := by
  obtain ⟨huid, hclosed, hsocket, hnode, hreads⟩ := hf (w.proc.sess s)
  rw [ledger_modify, huid, hclosed, hsocket, hnode, hreads, update_uid_self, update_closed_self,
    update_socket_self, update_stored_self, update_reads_self]

theorem ledger_setUserId (s : SessId) (uid : Int) :
    (w.apply (.setUserId s uid)).ledger self wk io =
      { w.ledger self wk io with uid := update (w.ledger self wk io).uid s uid } := by
  show (w.modify s _).ledger self wk io = _
  rw [ledger_modify, update_closed_self, update_socket_self, update_stored_self, update_reads_self]

theorem ledger_setBClose (s : SessId) :
    (w.apply (.setBClose s)).ledger self wk io =
      { w.ledger self wk io with closed := update (w.ledger self wk io).closed s true } := by
  show (w.modify s _).ledger self wk io = _
  rw [ledger_modify, update_uid_self, update_socket_self, update_stored_self, update_reads_self]

theorem ledger_socketClose (s : SessId) :
    (w.apply (.socketClose s)).ledger self wk io =
      { w.ledger self wk io with socket := update (w.ledger self wk io).socket s false } := by
  show (w.modify s _).ledger self wk io = _
  rw [ledger_modify, update_uid_self, update_closed_self, update_stored_self, update_reads_self]

theorem ledger_setRecvNode (s : SessId) (node : RecvNode) :
    (w.apply (.setRecvNode s node)).ledger self wk io =
      { w.ledger self wk io with stored := update (w.ledger self wk io).stored s true } := by
  show (w.modify s _).ledger self wk io = _
  rw [ledger_modify, update_uid_self, update_closed_self, update_socket_self, update_reads_self]
  rfl

theorem ledger_asyncReadSome (s : SessId) (p : PendingRead) :
    (w.apply (.asyncReadSome s p)).ledger self wk io =
      { w.ledger self wk io with
        reads := update (w.ledger self wk io).reads s ((w.ledger self wk io).reads s ++ [p]) } := by
  show (w.modify s _).ledger self wk io = _
  rw [ledger_modify, update_uid_self, update_closed_self, update_socket_self, update_stored_self]
  rfl

theorem ledger_postMsgToQue (msg : LogicNode) :
    (w.apply (.postMsgToQue msg)).ledger self wk io =
      { w.ledger self wk io with queue := (w.ledger self wk io).queue ++ [msg.session] } := by
  show Ledger.mk _ _ _ _ _ _ _ _ _ _ ((w.proc.msgQue ++ [msg]).map LogicNode.session) _ _ = _
  rw [List.map_append]
  rfl

/-- A completed read is outstanding no more. -/
theorem ledger_deliver (s : SessId) (p : PendingRead) (bytes : Bytes) :
    (w.modify s fun x => x.deliver p bytes).ledger self wk io =
      { w.ledger self wk io with
        reads := update (w.ledger self wk io).reads s (((w.ledger self wk io).reads s).erase p) } := by
  rw [ledger_modify]
  show Ledger.mk _ _ _ (update _ s (w.proc.sess s).userUid) (update _ s (w.proc.sess s).bClose)
    (update _ s (w.proc.sess s).socketOpen) (update _ s (w.proc.sess s).recvMsgNode.isSome) _ _ _ _
    _ _ = _
  rw [update_uid_self, update_closed_self, update_socket_self, update_stored_self]
  rfl

/-- The ledger does not notice a completed write. -/
theorem ledger_written (s : SessId) (ec : Bool) :
    (w.modify s fun x => { x with writes := x.writes.tail }.handleWrite ec).ledger self wk io =
      w.ledger self wk io := by
  refine ledger_modify_of_same w self wk io fun x => ?_
  obtain ⟨que, writes, hwrite⟩ := x.handleWrite_eq ec
  rw [hwrite]
  exact ⟨rfl, rfl, rfl, rfl, rfl⟩

/-- A new login count, written with `HSET`. -/
theorem ledger_hSet {value : Bytes} (hv : (0 : UInt8) ∉ value) :
    (w.apply (.hSet RedisPrefix.loginCount self.val value)).ledger self wk io =
      { w.ledger self wk io with count := value } := by
  show Ledger.mk ((w.redis.hSet RedisPrefix.loginCount self.val value).count self) _ _ _ _ _ _ _ _ _
    _ _ _ = _
  rw [Redis.count_hSet w.redis self hv]
  rfl

/-- A new route, written with `SET`. -/
theorem ledger_set (uid : Int) :
    (w.apply (.set (ipKey uid) self.val)).ledger self wk io =
      { w.ledger self wk io with
        route := update (w.ledger self wk io).route uid (some self.val) } := by
  show Ledger.mk _ (w.redis.set (ipKey uid) self.val).route _ _ _ _ _ _ _ _ _ _ _ = _
  rw [Redis.route_set]
  rfl

/-- A neutral call leaves the ledger as it is. -/
theorem ledger_neutral {c : Call} (hc : c.neutral = true) :
    (w.apply c).ledger self wk io = w.ledger self wk io := by
  cases c with
  | set key value =>
    have hkey : ¬ RedisPrefix.userIpPrefix <+: key := by
      intro h
      rw [Call.neutral, List.isPrefixOf_iff_prefix.mpr h] at hc
      exact Bool.noConfusion hc
    show Ledger.mk _ (w.redis.set key value).route _ _ _ _ _ _ _ _ _ _ _ = _
    rw [Redis.route_set_of_not_prefix w.redis value hkey]
    rfl
  | send s msg msgid =>
    refine ledger_modify_of_same w self wk io fun x => ?_
    obtain ⟨que, writes, hsend⟩ := x.send_eq msg msgid
    rw [hsend]
    exact ⟨rfl, rfl, rfl, rfl, rfl⟩
  | clearData s => exact ledger_modify_of_same w self wk io fun x => ⟨rfl, rfl, rfl, rfl, rfl⟩
  | hGet | hSet | setUserSession | removeUserSession | bClose | setBClose | getUserId | setUserId
  | socketClose | setRecvNode | asyncReadSome | postMsgToQue | addSession | clearSession =>
    exact Bool.noConfusion hc
  | _ => rfl

end Calls

/-! ## The calls of the worker -/

/-- A call of the worker for the session `s`: the phase and the ledger before it, the call with its
answer, and the phase and the ledger after it. With `lossy`, a Redis command can fail. -/
inductive Ledger.WorkerCall (lossy : Bool) (self : ServerName) (s : SessId) :
    WorkerPhase → Ledger → Event calls → WorkerPhase → Ledger → Prop where
  | neutral {b : Ledger} {q : WorkerPhase} {e : Event calls} :
      e.1.neutral = true → WorkerCall lossy self s q b e q b
  | readCount {b : Ledger} :
      WorkerCall lossy self s .checking b ⟨.hGet RedisPrefix.loginCount self.val, b.count⟩ (.read b.count) b
  | missCount {b : Ledger} :
      lossy = true →
      WorkerCall lossy self s .checking b ⟨.hGet RedisPrefix.loginCount self.val, []⟩ (.read []) b
  | writeCount {b : Ledger} {rd_res value : Bytes} {ok : Bool} :
      bump rd_res = some value →
      WorkerCall lossy self s (.read rd_res) b ⟨.hSet RedisPrefix.loginCount self.val value, ok⟩ .counted
        { b with count := value }
  | loseCount {b : Ledger} {rd_res value : Bytes} :
      lossy = true → bump rd_res = some value →
      WorkerCall lossy self s (.read rd_res) b ⟨.hSet RedisPrefix.loginCount self.val value, false⟩ .counted b
  | bind {b : Ledger} {uid : Int} :
      WorkerCall lossy self s .counted b ⟨.setUserId s uid, ()⟩ (.bound uid)
        { b with uid := update b.uid s uid }
  | route {b : Ledger} {uid : Int} {ok : Bool} :
      WorkerCall lossy self s (.bound uid) b ⟨.set (ipKey uid) self.val, ok⟩ (.routed uid)
        { b with route := update b.route uid (some self.val) }
  | loseRoute {b : Ledger} {uid : Int} :
      lossy = true →
      WorkerCall lossy self s (.bound uid) b ⟨.set (ipKey uid) self.val, false⟩ (.routed uid) b
  | register {b : Ledger} {uid : Int} :
      WorkerCall lossy self s (.routed uid) b ⟨.setUserSession uid s, ()⟩ (.registered uid)
        { b with map := update b.map uid (some s) }

/-- The login count that is written back has no NUL. -/
theorem zero_notMem_of_bump {rd_res value : Bytes} (h : bump rd_res = some value) :
    (0 : UInt8) ∉ value := by
  unfold bump at h
  split at h
  · cases h
    exact zero_notMem_renderInt _
  · cases h

theorem zero_notMem_of_drop {rd_res value : Bytes} (h : drop rd_res = some value) :
    (0 : UInt8) ∉ value := by
  unfold drop at h
  split at h
  · cases h
    exact zero_notMem_renderInt _
  · cases h

theorem ledger_of_sem_neutral {lossy : Bool} {e : Event calls} {w w' : World}
    (hs : World.sem lossy e w w') (he : e.1.neutral = true) (self : ServerName)
    (wk : Option (SessId × WorkerPhase)) (io : Option (SessId × IoPhase)) :
    w'.ledger self wk io = w.ledger self wk io := by
  rcases hs with ⟨rfl, -⟩ | ⟨-, -, rfl | rfl⟩
  · exact ledger_neutral w self wk io he
  · rfl
  · exact ledger_neutral w self wk io he

/-- Reading the login count. -/
theorem sem_hGet {lossy : Bool} {self : ServerName} {r : Bytes} {w w' : World}
    (hs : World.sem lossy ⟨.hGet RedisPrefix.loginCount self.val, r⟩ w w') :
    w' = w ∧ (r = w.redis.count self ∨ (lossy = true ∧ r = [])) := by
  rcases hs with ⟨rfl, hr⟩ | ⟨hl, hr, rfl | rfl⟩
  · exact ⟨rfl, Or.inl (hr _ rfl)⟩
  · exact ⟨rfl, Or.inr ⟨hl, hr⟩⟩
  · exact ⟨rfl, Or.inr ⟨hl, hr⟩⟩

/-- Writing the login count: it is written, or the command has failed and nothing is. -/
theorem sem_hSet {lossy : Bool} {self : ServerName} {value : Bytes} {ok : Bool} {w w' : World}
    (hs : World.sem lossy ⟨.hSet RedisPrefix.loginCount self.val value, ok⟩ w w') :
    w' = w.apply (.hSet RedisPrefix.loginCount self.val value) ∨
      (lossy = true ∧ ok = false ∧ w' = w) := by
  rcases hs with ⟨rfl, -⟩ | ⟨hl, hok, rfl | rfl⟩
  · exact Or.inl rfl
  · exact Or.inr ⟨hl, hok, rfl⟩
  · exact Or.inl rfl

theorem sem_set {lossy : Bool} {key value : Bytes} {ok : Bool} {w w' : World}
    (hs : World.sem lossy ⟨.set key value, ok⟩ w w') :
    w' = w.apply (.set key value) ∨
      (lossy = true ∧ ok = false ∧ w' = w) := by
  rcases hs with ⟨rfl, -⟩ | ⟨hl, hok, rfl | rfl⟩
  · exact Or.inl rfl
  · exact Or.inr ⟨hl, hok, rfl⟩
  · exact Or.inl rfl

/-- The calls that `WorkerPhase.next` admits act on the ledger as `Ledger.WorkerCall` says. -/
theorem workerCall_of_next {lossy : Bool} {self : ServerName} {s : SessId} {q q' : WorkerPhase}
    {e : Event calls} {w w' : World} (hn : WorkerPhase.next self s q e = some q')
    (hs : World.sem lossy e w w') (wk : Option (SessId × WorkerPhase))
    (io : Option (SessId × IoPhase)) :
    Ledger.WorkerCall lossy self s q (w.ledger self wk io) e q' (w'.ledger self wk io) := by
  unfold WorkerPhase.next at hn
  split at hn
  · obtain ⟨⟨rfl, rfl⟩, ⟨⟩⟩ := Option.ite_none_right_eq_some.mp hn
    obtain ⟨rfl, rfl | ⟨hl, rfl⟩⟩ := sem_hGet hs
    · exact .readCount
    · exact .missCount hl
  · obtain ⟨hc, ⟨⟩⟩ := Option.ite_none_right_eq_some.mp hn
    rw [ledger_of_sem_neutral hs hc]
    exact .neutral hc
  · obtain ⟨⟨rfl, rfl, hvalue⟩, ⟨⟩⟩ := Option.ite_none_right_eq_some.mp hn
    rcases sem_hSet hs with rfl | ⟨hl, rfl, rfl⟩
    · rw [ledger_hSet w self wk io (zero_notMem_of_bump hvalue)]
      exact .writeCount hvalue
    · exact .loseCount hl hvalue
  · obtain ⟨rfl, ⟨⟩⟩ := Option.ite_none_right_eq_some.mp hn
    obtain ⟨rfl, -⟩ := World.sem_of_not_failed hs id
    rw [ledger_setUserId]
    exact .bind
  · obtain ⟨⟨rfl, rfl⟩, ⟨⟩⟩ := Option.ite_none_right_eq_some.mp hn
    rcases sem_set hs with rfl | ⟨hl, rfl, rfl⟩
    · rw [ledger_set]
      exact .route
    · exact .loseRoute hl
  · obtain ⟨⟨rfl, rfl⟩, ⟨⟩⟩ := Option.ite_none_right_eq_some.mp hn
    obtain ⟨rfl, -⟩ := World.sem_of_not_failed hs id
    exact .register
  · obtain ⟨hc, ⟨⟩⟩ := Option.ite_none_right_eq_some.mp hn
    rw [ledger_of_sem_neutral hs hc]
    exact .neutral hc
  · cases hn

/-! ## The calls of the I/O thread -/

/-- A call of the I/O thread for the session `s`. -/
inductive Ledger.IoCall (lossy : Bool) (self : ServerName) (s : SessId) :
    IoPhase → Ledger → Event calls → IoPhase → Ledger → Prop where
  | neutral {b : Ledger} {q : IoPhase} {e : Event calls} :
      e.1.neutral = true → IoCall lossy self s q b e q b
  | header {b : Ledger} {data : Bytes} :
      IoCall lossy self s (.reading .head) b ⟨.data s, data⟩ (.header data) b
  | reject {b : Ledger} {data : Bytes} :
      CSession.Rejected data →
      IoCall lossy self s (.header data) b ⟨.clearSession s, ()⟩ .rejected
        { b with live := b.live.filter (· ≠ s) }
  | store {b : Ledger} {data : Bytes} {node : RecvNode} :
      ¬ CSession.Rejected data →
      IoCall lossy self s (.header data) b ⟨.setRecvNode s node, ()⟩ .stored
        { b with stored := update b.stored s true }
  | lost {b : Ledger} {n : Int} :
      b.stored s = false →
      IoCall lossy self s (.reading (.body n)) b ⟨.recvNode s, none⟩ .lost b
  | fill {b : Ledger} {n : Int} {node : RecvNode} :
      IoCall lossy self s (.reading (.body n)) b ⟨.setRecvNode s node, ()⟩ (.reading (.body n))
        { b with stored := update b.stored s true }
  | post {b : Ledger} {n : Int} {msg : LogicNode} :
      msg.session = s →
      IoCall lossy self s (.reading (.body n)) b ⟨.postMsgToQue msg, ()⟩ (.reading (.body n))
        { b with queue := b.queue ++ [msg.session] }
  | arm {b : Ledger} {h : ReadHandler} {p : PendingRead} :
      p.handler = h ∨ p.handler = .head →
      IoCall lossy self s (.reading h) b ⟨.asyncReadSome s p, ()⟩ .armed
        { b with reads := update b.reads s (b.reads s ++ [p]) }
  | armBody {b : Ledger} {p : PendingRead} :
      IoCall lossy self s .stored b ⟨.asyncReadSome s p, ()⟩ .armed
        { b with reads := update b.reads s (b.reads s ++ [p]) }
  | add {b : Ledger} :
      IoCall lossy self s .armed b ⟨.addSession s, ()⟩ .armed { b with live := s :: b.live }
  | seeClosed {b : Ledger} {h : ReadHandler} :
      b.closed s = true → IoCall lossy self s (.reading h) b ⟨.bClose s, true⟩ .closed b
  | beginClose {b : Ledger} {h : ReadHandler} :
      b.closed s = false → IoCall lossy self s (.reading h) b ⟨.bClose s, false⟩ .closing b
  | leave {b : Ledger} :
      0 < b.uid s → IoCall lossy self s .closing b ⟨.getUserId s, b.uid s⟩ (.leaving (b.uid s)) b
  | pass {b : Ledger} :
      b.uid s ≤ 0 → IoCall lossy self s .closing b ⟨.getUserId s, b.uid s⟩ .unbound b
  | readCount {b : Ledger} {uid : Int} :
      IoCall lossy self s (.leaving uid) b ⟨.hGet RedisPrefix.loginCount self.val, b.count⟩ (.read b.count) b
  | missCount {b : Ledger} {uid : Int} :
      lossy = true →
      IoCall lossy self s (.leaving uid) b ⟨.hGet RedisPrefix.loginCount self.val, []⟩ (.read []) b
  | writeCount {b : Ledger} {rd_res value : Bytes} {ok : Bool} :
      drop rd_res = some value →
      IoCall lossy self s (.read rd_res) b ⟨.hSet RedisPrefix.loginCount self.val value, ok⟩ .counted
        { b with count := value }
  | loseCount {b : Ledger} {rd_res value : Bytes} :
      lossy = true → drop rd_res = some value →
      IoCall lossy self s (.read rd_res) b ⟨.hSet RedisPrefix.loginCount self.val value, false⟩ .counted b
  | reread {b : Ledger} :
      IoCall lossy self s .counted b ⟨.getUserId s, b.uid s⟩ (.erasing (b.uid s)) b
  | erase {b : Ledger} {uid : Int} :
      IoCall lossy self s (.erasing uid) b ⟨.removeUserSession uid, ()⟩ .erased
        { b with map := update b.map uid none }
  | unbind {b : Ledger} :
      IoCall lossy self s .erased b ⟨.setUserId s 0, ()⟩ .unbound { b with uid := update b.uid s 0 }
  | shut {b : Ledger} :
      IoCall lossy self s .unbound b ⟨.socketClose s, .ok ()⟩ .shut
        { b with socket := update b.socket s false }
  | fail {b : Ledger} {err : Exn} :
      IoCall lossy self s .unbound b ⟨.socketClose s, .error err⟩ .failed
        { b with socket := update b.socket s false }
  | setClosed {b : Ledger} :
      IoCall lossy self s .shut b ⟨.setBClose s, ()⟩ .closed { b with closed := update b.closed s true }
  | release {b : Ledger} :
      IoCall lossy self s .closed b ⟨.clearSession s, ()⟩ .released
        { b with live := b.live.filter (· ≠ s) }

/-- The calls that `IoPhase.next` admits act on the ledger as `Ledger.IoCall` says. -/
theorem ioCall_of_next {lossy : Bool} {self : ServerName} {s : SessId} {q q' : IoPhase}
    {e : Event calls} {w w' : World} (hn : IoPhase.next self s q e = some q')
    (hs : World.sem lossy e w w') (wk : Option (SessId × WorkerPhase))
    (io : Option (SessId × IoPhase)) :
    Ledger.IoCall lossy self s q (w.ledger self wk io) e q' (w'.ledger self wk io) := by
  unfold IoPhase.next at hn
  split at hn
  -- reading: `close` begins, or what the handler of the read does
  · obtain ⟨rfl, ⟨⟩⟩ := Option.ite_none_right_eq_some.mp hn
    obtain ⟨rfl, hr⟩ := World.sem_of_not_failed hs id
    obtain rfl := hr _ rfl
    cases hb : (w'.proc.sess _).bClose with
    | true => exact .seeClosed hb
    | false => exact .beginClose hb
  · obtain ⟨rfl, ⟨⟩⟩ := Option.ite_none_right_eq_some.mp hn
    obtain ⟨rfl, -⟩ := World.sem_of_not_failed hs id
    exact .header
  · obtain ⟨rfl, ⟨⟩⟩ := Option.ite_none_right_eq_some.mp hn
    obtain ⟨rfl, hr⟩ := World.sem_of_not_failed hs id
    obtain rfl := hr _ rfl
    cases hnode : (w'.proc.sess _).recvMsgNode with
    | none => exact .lost (Option.isSome_eq_false_iff.mpr (Option.isNone_iff_eq_none.mpr hnode))
    | some node => exact .neutral rfl
  · obtain ⟨rfl, ⟨⟩⟩ := Option.ite_none_right_eq_some.mp hn
    obtain ⟨rfl, -⟩ := World.sem_of_not_failed hs id
    rw [ledger_setRecvNode]
    exact .fill
  · obtain ⟨hmsg, ⟨⟩⟩ := Option.ite_none_right_eq_some.mp hn
    obtain ⟨rfl, -⟩ := World.sem_of_not_failed hs id
    rw [ledger_postMsgToQue]
    exact .post hmsg
  · obtain ⟨⟨rfl, hp⟩, ⟨⟩⟩ := Option.ite_none_right_eq_some.mp hn
    obtain ⟨rfl, -⟩ := World.sem_of_not_failed hs id
    rw [ledger_asyncReadSome]
    exact .arm hp
  · obtain ⟨hc, ⟨⟩⟩ := Option.ite_none_right_eq_some.mp hn
    rw [ledger_of_sem_neutral hs hc]
    exact .neutral hc
  -- the header
  · obtain ⟨⟨rfl, hrej⟩, ⟨⟩⟩ := Option.ite_none_right_eq_some.mp hn
    obtain ⟨rfl, -⟩ := World.sem_of_not_failed hs id
    exact .reject hrej
  · obtain ⟨⟨rfl, hacc⟩, ⟨⟩⟩ := Option.ite_none_right_eq_some.mp hn
    obtain ⟨rfl, -⟩ := World.sem_of_not_failed hs id
    rw [ledger_setRecvNode]
    exact .store hacc
  · obtain ⟨rfl, ⟨⟩⟩ := Option.ite_none_right_eq_some.mp hn
    obtain ⟨rfl, -⟩ := World.sem_of_not_failed hs id
    rw [ledger_asyncReadSome]
    exact .armBody
  · obtain ⟨hc, ⟨⟩⟩ := Option.ite_none_right_eq_some.mp hn
    rw [ledger_of_sem_neutral hs hc]
    exact .neutral hc
  · obtain ⟨rfl, ⟨⟩⟩ := Option.ite_none_right_eq_some.mp hn
    obtain ⟨rfl, -⟩ := World.sem_of_not_failed hs id
    exact .add
  -- `close`
  · obtain ⟨rfl, ⟨⟩⟩ := Option.ite_none_right_eq_some.mp hn
    obtain ⟨rfl, hr⟩ := World.sem_of_not_failed hs id
    obtain rfl := hr _ rfl
    split
    · exact .leave ‹_›
    · exact .pass (Int.not_lt.mp ‹_›)
  · obtain ⟨⟨rfl, rfl⟩, ⟨⟩⟩ := Option.ite_none_right_eq_some.mp hn
    obtain ⟨rfl, rfl | ⟨hl, rfl⟩⟩ := sem_hGet hs
    · exact .readCount
    · exact .missCount hl
  · obtain ⟨⟨rfl, rfl, hvalue⟩, ⟨⟩⟩ := Option.ite_none_right_eq_some.mp hn
    rcases sem_hSet hs with rfl | ⟨hl, rfl, rfl⟩
    · rw [ledger_hSet w self wk io (zero_notMem_of_drop hvalue)]
      exact .writeCount hvalue
    · exact .loseCount hl hvalue
  · obtain ⟨rfl, ⟨⟩⟩ := Option.ite_none_right_eq_some.mp hn
    obtain ⟨rfl, hr⟩ := World.sem_of_not_failed hs id
    obtain rfl := hr _ rfl
    exact .reread
  · obtain ⟨rfl, ⟨⟩⟩ := Option.ite_none_right_eq_some.mp hn
    obtain ⟨rfl, -⟩ := World.sem_of_not_failed hs id
    exact .erase
  · obtain ⟨⟨rfl, rfl⟩, ⟨⟩⟩ := Option.ite_none_right_eq_some.mp hn
    obtain ⟨rfl, -⟩ := World.sem_of_not_failed hs id
    rw [ledger_setUserId]
    exact .unbind
  · rename_i res
    obtain ⟨rfl, ⟨⟩⟩ := Option.ite_none_right_eq_some.mp hn
    obtain ⟨rfl, -⟩ := World.sem_of_not_failed hs id
    rw [ledger_socketClose]
    cases res with
    | ok _ => exact .shut
    | error _ => exact .fail
  · obtain ⟨rfl, ⟨⟩⟩ := Option.ite_none_right_eq_some.mp hn
    obtain ⟨rfl, -⟩ := World.sem_of_not_failed hs id
    rw [ledger_setBClose]
    exact .setClosed
  · obtain ⟨rfl, ⟨⟩⟩ := Option.ite_none_right_eq_some.mp hn
    obtain ⟨rfl, -⟩ := World.sem_of_not_failed hs id
    exact .release
  · cases hn

/-! ## The steps of the ledger -/

/-- Steps that the ledger does not notice. -/
def Label.quiet : Label → Bool
  | .written _ _ => true
  | .workerDone (.error _) => true
  | .serve _ => true
  | .rpc _ => true
  | .rpcDone => true
  | _ => false

/-- The steps of the ledger of `self`; a step without a label is another process's. -/
inductive Ledger.Step (lossy : Bool) (self : ServerName) : Ledger → Option Label → Ledger → Prop where
  | accept {b : Ledger} {s : SessId} :
      b.io = none → s ∉ b.known →
      Step lossy self b (some (.accept s))
        { b with
          uid := update b.uid s 0
          closed := update b.closed s false
          socket := update b.socket s true
          stored := update b.stored s false
          reads := update b.reads s []
          known := s :: b.known
          io := some (s, .reading .head) }
  | readSome {b : Ledger} {s : SessId} {p : PendingRead} {ec : Bool} {bytes : Bytes} :
      b.io = none → p ∈ b.reads s →
      Step lossy self b (some (.readSome s p ec bytes))
        { b with
          reads := update b.reads s ((b.reads s).erase p)
          io := some (s, .reading p.handler) }
  | io {b b' : Ledger} {s : SessId} {q q' : IoPhase} {e : Event calls} :
      b.io = some (s, q) → IoCall lossy self s q b e q' b' →
      Step lossy self b (some (.io e)) { b' with io := some (s, q') }
  | ioDone {b : Ledger} {s : SessId} {q : IoPhase} :
      b.io = some (s, q) → q.Ends → Step lossy self b (some .ioDone) { b with io := none }
  | take {b : Ledger} {node : LogicNode} {rest : List SessId} :
      b.worker = none → b.queue = node.session :: rest →
      Step lossy self b (some (.take node)) { b with worker := some (node.session, .checking) }
  | worker {b b' : Ledger} {s : SessId} {q q' : WorkerPhase} {e : Event calls} :
      b.worker = some (s, q) → WorkerCall lossy self s q b e q' b' →
      Step lossy self b (some (.worker e)) { b' with worker := some (s, q') }
  | workerDone {b : Ledger} {s : SessId} {q : WorkerPhase} :
      b.worker = some (s, q) → q.Ends (.ok ()) →
      Step lossy self b (some (.workerDone (.ok ()))) { b with queue := b.queue.tail, worker := none }
  | quiet {b : Ledger} {l : Label} : l.quiet = true → Step lossy self b (some l) b
  | others {b : Ledger} {route : Int → Option Bytes} :
      (∀ u, route u = some self.val → b.route u = some self.val) →
      Step lossy self b none { b with route := route }

/-- The steps that are the server's own. -/
def Cluster.Act.own (S : ServerName) : Cluster.Act → Option Label
  | some (T, l) => if T = S then some l else none
  | none => none

/-! ## Steps of other servers -/

/-- A server writes no login count but its own, and no route but to itself. -/
def Call.OwnWrites (T : ServerName) : Call → Prop
  | .hSet key hkey _ => key = RedisPrefix.loginCount ∧ hkey = T.val
  | .set key value => RedisPrefix.userIpPrefix <+: key → ∃ u, key = ipKey u ∧ value = T.val
  | _ => True

theorem ownWrites_of_neutral (T : ServerName) {c : Call} (hc : c.neutral = true) :
    c.OwnWrites T := by
  cases c with
  | hSet => exact Bool.noConfusion hc
  | set key value =>
    intro h
    rw [Call.neutral, List.isPrefixOf_iff_prefix.mpr h] at hc
    exact Bool.noConfusion hc
  | _ => trivial

theorem Ledger.WorkerCall.ownWrites {lossy : Bool} {T : ServerName} {s : SessId} {q q' : WorkerPhase}
    {b b' : Ledger} {e : Event calls} (h : WorkerCall lossy T s q b e q' b') : e.1.OwnWrites T := by
  cases h with
  | neutral hc => exact ownWrites_of_neutral T hc
  | writeCount _ => exact ⟨rfl, rfl⟩
  | loseCount _ _ => exact ⟨rfl, rfl⟩
  | route => exact fun _ => ⟨_, rfl, rfl⟩
  | loseRoute _ => exact fun _ => ⟨_, rfl, rfl⟩
  | _ => trivial

theorem Ledger.IoCall.ownWrites {lossy : Bool} {T : ServerName} {s : SessId} {q q' : IoPhase}
    {b b' : Ledger} {e : Event calls} (h : IoCall lossy T s q b e q' b') : e.1.OwnWrites T := by
  cases h with
  | neutral hc => exact ownWrites_of_neutral T hc
  | writeCount _ => exact ⟨rfl, rfl⟩
  | loseCount _ _ => exact ⟨rfl, rfl⟩
  | _ => trivial

/-- What a call of another server can do to what the ledger of `S` has of Redis. -/
theorem sem_ownWrites {lossy : Bool} {S T : ServerName} {e : Event calls} {w w' : World}
    (hne : S ≠ T) (he : e.1.OwnWrites T) (hs : World.sem lossy e w w') :
    w'.redis.count S = w.redis.count S ∧
      ∀ u, w'.redis.route u = some S.val → w.redis.route u = some S.val := by
  have happly : (w.apply e.1).redis.count S = w.redis.count S ∧
      ∀ u, (w.apply e.1).redis.route u = some S.val → w.redis.route u = some S.val := by
    rcases e with ⟨c, r⟩
    cases c with
    | hSet key hkey value =>
      obtain ⟨rfl, rfl⟩ := he
      exact ⟨Redis.count_hSet_of_ne w.redis hne value, fun _ h => h⟩
    | set key value =>
      refine ⟨rfl, fun u hu => ?_⟩
      by_cases hkey : RedisPrefix.userIpPrefix <+: key
      · obtain ⟨v, rfl, rfl⟩ := he hkey
        have hroute : (w.redis.set (ipKey v) T.val).route u = some S.val := hu
        rw [Redis.route_set] at hroute
        by_cases huv : u = v
        · subst huv
          rw [update_self] at hroute
          exact absurd (Subtype.ext (Option.some.inj hroute).symm) hne
        · rwa [update_of_ne huv] at hroute
      · have hroute : (w.redis.set key value).route u = some S.val := hu
        rwa [Redis.route_set_of_not_prefix w.redis value hkey] at hroute
    | _ => exact ⟨rfl, fun _ h => h⟩
  rcases hs with ⟨rfl, -⟩ | ⟨-, -, rfl | rfl⟩
  · exact happly
  · exact ⟨rfl, fun _ h => h⟩
  · exact happly

/-! ## Every step is one of these -/

/-- The ledger after a connection is accepted. -/
theorem ledger_accept (r : Redis) (p : Proc) (self : ServerName) (s : SessId)
    (wk : Option (SessId × WorkerPhase)) (io : Option (SessId × IoPhase)) :
    World.ledger ⟨r, p.accept s⟩ self wk io =
      { World.ledger ⟨r, p⟩ self wk io with
        uid := update (World.ledger ⟨r, p⟩ self wk io).uid s 0
        closed := update (World.ledger ⟨r, p⟩ self wk io).closed s false
        socket := update (World.ledger ⟨r, p⟩ self wk io).socket s true
        stored := update (World.ledger ⟨r, p⟩ self wk io).stored s false
        reads := update (World.ledger ⟨r, p⟩ self wk io).reads s []
        known := s :: (World.ledger ⟨r, p⟩ self wk io).known } := by
  have hfield : ∀ {β : Type} (g : Sess → β), (fun t => g ((p.accept s).sess t)) =
      update (fun t => g (p.sess t)) s (g {}) := fun g => comp_update g p.sess s {}
  unfold World.ledger
  simp only [hfield Sess.userUid, hfield Sess.bClose, hfield Sess.socketOpen, hfield Sess.reads,
    hfield fun x => x.recvMsgNode.isSome]
  rfl

theorem Server.Step.ledger {J : JsonCpp} {self : ServerName} {r r' : Redis} {v v' : Server}
    {l : Label} (hs : Server.Step J self (r, v) l (r', v')) (hf : v.Formed self) :
    Ledger.Step true self (v.ledger r self) (some l) (v'.ledger r' self) := by
  cases hs with
  | accept hio hknown =>
    unfold Server.ledger
    rw [ledger_accept]
    exact .accept (by simp [World.ledger, Server.ioAt, hio]) hknown
  | @readSome _ _ s p ec bytes hio hp hc =>
    have hat : v.ioAt self = none := by rw [Server.ioAt, hio, Option.map_none]
    have hdeliver := ledger_deliver ⟨r, v.proc⟩ self (v.workerAt self)
      (some (s, IoPhase.reading p.handler)) s p bytes
    show Ledger.Step true self _ _ (World.ledger (World.modify ⟨r, v.proc⟩ s fun x => x.deliver p bytes)
      self (v.workerAt self) (some (s, .reading p.handler)))
    rw [hdeliver]
    exact .readSome hat hp
  | @io _ _ t e q w ht hp hsem =>
    obtain ⟨q', hnext, -⟩ := (hf.io t ht).step hp
    have hat : v.ioAt self = some (t.session, IoPhase.after self t.session t.handler t.past) := by
      rw [Server.ioAt, ht, Option.map_some]
    have hafter : ({ v with proc := w.proc, io := some { t with past := t.past ++ [e], rest := q } } :
        Server).ioAt self = some (t.session, q') := by
      rw [Server.ioAt, Option.map_some, IoPhase.after_snoc hnext]
    unfold Server.ledger
    rw [hafter]
    exact .io hat (ioCall_of_next hnext hsem _ _)
  | @ioDone _ _ t ht hret =>
    have hends := hf.io _ ht
    rw [hret] at hends
    refine .ioDone (s := t.session) ?_ hends
    show v.ioAt self = _
    rw [Server.ioAt, ht, Option.map_some]
  | @written _ _ s ec hio hwrites =>
    have hsame := ledger_written ⟨r, v.proc⟩ self (v.workerAt self) (v.ioAt self) s ec
    show Ledger.Step true self _ _ (World.ledger (World.modify ⟨r, v.proc⟩ s _) self (v.workerAt self)
      (v.ioAt self))
    rw [hsame]
    exact .quiet rfl
  | @take _ _ node rest hworker hque =>
    refine @Ledger.Step.take true self _ node (rest.map LogicNode.session) ?_ ?_
    · show v.workerAt self = none
      rw [Server.workerAt, hworker, Option.map_none]
    · show v.proc.msgQue.map LogicNode.session = _
      rw [hque, List.map_cons]
  | @worker _ _ t e q w ht hp hsem =>
    obtain ⟨q', hnext, -⟩ := (hf.worker t ht).step hp
    have hat : v.workerAt self = some (t.node.session, WorkerPhase.after self t.node.session t.past) := by
      rw [Server.workerAt, ht, Option.map_some]
    have hafter : ({ v with
        proc := w.proc, worker := some { t with past := t.past ++ [e], rest := q } } :
        Server).workerAt self = some (t.node.session, q') := by
      rw [Server.workerAt, Option.map_some, WorkerPhase.after_snoc hnext]
    unfold Server.ledger
    rw [hafter]
    exact .worker hat (workerCall_of_next hnext hsem _ _)
  | @workerDone _ _ t ht hret =>
    have hends := hf.worker _ ht
    rw [hret] at hends
    have hat : v.workerAt self =
        some (t.node.session, WorkerPhase.after self t.node.session t.past) := by
      rw [Server.workerAt, ht, Option.map_some]
    have htail : v.proc.msgQue.tail.map LogicNode.session =
        (v.proc.msgQue.map LogicNode.session).tail := List.map_tail
    have hdone : ({ v with
        proc := { v.proc with msgQue := v.proc.msgQue.tail }, worker := none } : Server).ledger r self =
        { v.ledger r self with queue := (v.ledger r self).queue.tail, worker := none } := by
      show Ledger.mk _ _ _ _ _ _ _ _ _ _ (v.proc.msgQue.tail.map LogicNode.session) none _ = _
      rw [htail]
      rfl
    rw [hdone]
    exact .workerDone hat hends
  | crash ht hret => exact .quiet rfl
  | serve => exact .quiet rfl
  | @rpc _ _ pre post p q e w hmem hp hsem =>
    have hneutral : Neutral p := hf.rpcs p (by simp [hmem])
    have hsame := ledger_of_sem_neutral hsem (hneutral.step hp).1 self (v.workerAt self)
      (v.ioAt self)
    show Ledger.Step true self _ _ (w.ledger self (v.workerAt self) (v.ioAt self))
    rw [hsame]
    exact .quiet rfl
  | rpcDone hmem => exact .quiet rfl

/-- A step of another server changes of the ledger of `S` at most the routes to other servers. -/
theorem Server.Step.foreign {J : JsonCpp} {S T : ServerName} {r r' : Redis} {v v' : Server}
    {l : Label} (hs : Server.Step J T (r, v) l (r', v')) (hf : v.Formed T) (hne : S ≠ T) :
    r'.count S = r.count S ∧ ∀ u, r'.route u = some S.val → r.route u = some S.val := by
  cases hs with
  | @io _ _ t e q w ht hp hsem =>
    obtain ⟨q', hnext, -⟩ := (hf.io t ht).step hp
    exact sem_ownWrites hne (ioCall_of_next hnext hsem none none).ownWrites hsem
  | @worker _ _ t e q w ht hp hsem =>
    obtain ⟨q', hnext, -⟩ := (hf.worker t ht).step hp
    exact sem_ownWrites hne (workerCall_of_next hnext hsem none none).ownWrites hsem
  | @rpc _ _ pre post p q e w hmem hp hsem =>
    have hneutral : Neutral p := hf.rpcs p (by simp [hmem])
    exact sem_ownWrites hne (ownWrites_of_neutral T (hneutral.step hp).1) hsem
  | accept | readSome | ioDone | written | take | workerDone | crash | serve | rpcDone =>
    exact ⟨rfl, fun _ h => h⟩

/-- **The ledger refines the cluster**: every step of a cluster is a step of the ledger of each of
its servers. -/
theorem ledger_step {J : JsonCpp} {c c' : Cluster} {a : Cluster.Act} (hf : c.Formed)
    (hs : Cluster.Step J c a c') (S : ServerName) :
    Ledger.Step true S (c.ledger S) (a.own S) (c'.ledger S) := by
  cases hs with
  | @server T l r v _ hs =>
    show Ledger.Step true S ((c.server S).ledger c.redis S) (if T = S then some l else none)
      ((update c.server T v S).ledger r S)
    by_cases hT : T = S
    · subst hT
      rw [if_pos rfl, update_self]
      exact hs.ledger (hf T)
    · rw [if_neg hT, update_of_ne (Ne.symm hT)]
      obtain ⟨hcount, hroute⟩ := hs.foreign (hf T) (Ne.symm hT)
      show Ledger.Step true S _ none (Ledger.mk (r.count S) r.route _ _ _ _ _ _ _ _ _ _ _)
      rw [hcount]
      exact .others hroute
  | @others redis hcount hroute =>
    show Ledger.Step true S _ none (Ledger.mk (redis.count S) redis.route _ _ _ _ _ _ _ _ _ _ _)
    rw [hcount S]
    exact .others fun u hu => (hroute u).symm.trans hu

/-! ## Whole executions -/

/-- What every call of the I/O thread keeps, a callback that runs in one piece keeps. -/
theorem exec_ioCalls {α : Type} {lossy : Bool} {self : ServerName} {s : SessId}
    {I : IoPhase → Ledger → Prop}
    (hI : ∀ q b e q' b', Ledger.IoCall lossy self s q b e q' b' → I q b → I q' b')
    {post : α → IoPhase → Prop} {p : Io α} {q : IoPhase} {w w' : World} {tr : List (Event calls)}
    {a : α} (h : Exec (World.sem lossy) p w tr a w')
    (hp : p.Conforms (IoPhase.next self s) post q) (h0 : I q (w.ledger self none none)) :
    ∃ q', post a q' ∧ I q' (w'.ledger self none none) := by
  refine Exec.invariant (I := fun q w => I q (World.ledger w self none none)) ?_ h hp h0
  intro q e q' w w' hn hq hs
  exact hI q _ e q' _ (ioCall_of_next hn hs none none) hq

/-- A program that makes only neutral calls leaves the ledger as it is. -/
theorem exec_neutral {α : Type} {lossy : Bool} {p : Io α} {w w' : World} {tr : List (Event calls)}
    {a : α} (h : Exec (World.sem lossy) p w tr a w') (hp : Neutral p) (self : ServerName) :
    w'.ledger self none none = w.ledger self none none := by
  induction h with
  | ret a w => rfl
  | call hs _ ih => rw [ih (hp.2 _), ledger_of_sem_neutral hs hp.1]

end ChatServer
