import ChatServer.Sequential

/-!
# Servers, thread by thread

Any number of servers share one Redis. Each has a logic worker, an I/O thread and the threads of its
chat service, and a step is one call of one thread, so the threads interleave between their calls.
A Redis command may fail. A task remembers the calls it has made, which is what its phase is read
off (`Server.workerAt`, `Server.ioAt`).

An exception that leaves a handler of the worker terminates the process: a `crashed` server takes no
further step.
-/

namespace ChatServer

open Interaction Prog Bytes Decimal

/-! ## Tasks -/

/-- The message that the worker handles. -/
structure WorkerTask where
  node : LogicNode
  past : List (Event calls)
  rest : Io (Except Exn Unit)

/-- The callback that the I/O thread runs: that of a completed read of the session, or, when the
session was just accepted, `HandleAccept`, which starts the read of a header. -/
structure IoTask where
  session : SessId
  handler : ReadHandler
  past : List (Event calls)
  rest : Io Unit

/-- A server process. -/
structure Server where
  proc : Proc
  worker : Option WorkerTask
  io : Option IoTask
  rpcs : List (Io Unit)
  crashed : Bool

namespace Server

/-- A server that has just started. -/
def init : Server := { proc := .init, worker := none, io := none, rpcs := [], crashed := false }

/-- The session that the worker works for, and how far it is. -/
def workerAt (v : Server) (self : ServerName) : Option (SessId × WorkerPhase) :=
  v.worker.map fun t => (t.node.session, WorkerPhase.after self t.node.session t.past)

/-- The session that the I/O thread works for, and how far it is. -/
def ioAt (v : Server) (self : ServerName) : Option (SessId × IoPhase) :=
  v.io.map fun t => (t.session, IoPhase.after self t.session t.handler t.past)

end Server

/-! ## Steps of a server -/

inductive Label where
  /-- A connection is accepted. -/
  | accept (s : SessId)
  /-- A read of a session completes. -/
  | readSome (s : SessId) (p : PendingRead) (ec : Bool) (bytes : Bytes)
  /-- The I/O thread makes a call. -/
  | io (e : Event calls)
  /-- The I/O thread returns from a callback. -/
  | ioDone
  /-- A write of a session completes. -/
  | written (s : SessId) (ec : Bool)
  /-- The worker takes a message. -/
  | take (node : LogicNode)
  /-- The worker makes a call. -/
  | worker (e : Event calls)
  /-- The handler returns, or an exception leaves it. -/
  | workerDone (exit : Except Exn Unit)
  /-- A request of a peer arrives. -/
  | serve (request : ChatServiceImpl.Request)
  /-- A thread of the chat service makes a call. -/
  | rpc (e : Event calls)
  /-- A thread of the chat service returns. -/
  | rpcDone

/-- The steps of the server `self`, which also change Redis. -/
inductive Server.Step (J : JsonCpp) (self : ServerName) :
    Redis × Server → Label → Redis × Server → Prop where
  | accept {r : Redis} {v : Server} {s : SessId} :
      v.io = none → s ∉ v.proc.known →
      Step J self (r, v) (.accept s)
        (r, { v with
          proc := v.proc.accept s
          io := some { session := s, handler := .head, past := [], rest := handleAccept s } })
  | readSome {r : Redis} {v : Server} {s : SessId} {p : PendingRead} {ec : Bool} {bytes : Bytes} :
      v.io = none → p ∈ (v.proc.sess s).reads → p.Completes ec bytes →
      Step J self (r, v) (.readSome s p ec bytes)
        (r, { v with
          proc := v.proc.modify s fun x => x.deliver p bytes
          io := some
            { session := s, handler := p.handler, past := [],
              rest := CSession.readCallback self s p ec bytes.length } })
  | io {r : Redis} {v : Server} {t : IoTask} {e : Event calls} {q : Io Unit} {w : World} :
      v.io = some t → Prog.Step t.rest e q → World.sem true e ⟨r, v.proc⟩ w →
      Step J self (r, v) (.io e)
        (w.redis, { v with
          proc := w.proc, io := some { t with past := t.past ++ [e], rest := q } })
  | ioDone {r : Redis} {v : Server} {t : IoTask} :
      v.io = some t → t.rest = .ret () →
      Step J self (r, v) .ioDone (r, { v with io := none })
  | written {r : Redis} {v : Server} {s : SessId} {ec : Bool} :
      v.io = none → (v.proc.sess s).writes ≠ [] →
      Step J self (r, v) (.written s ec)
        (r, { v with
          proc := v.proc.modify s fun x => { x with writes := x.writes.tail }.handleWrite ec })
  | take {r : Redis} {v : Server} {node : LogicNode} {rest : List LogicNode} :
      v.worker = none → v.proc.msgQue = node :: rest →
      Step J self (r, v) (.take node)
        (r, { v with
          worker := some { node := node, past := [], rest := (LogicSystem.dispatch J self node).run } })
  | worker {r : Redis} {v : Server} {t : WorkerTask} {e : Event calls} {q : Io (Except Exn Unit)}
      {w : World} :
      v.worker = some t → Prog.Step t.rest e q → World.sem true e ⟨r, v.proc⟩ w →
      Step J self (r, v) (.worker e)
        (w.redis, { v with
          proc := w.proc, worker := some { t with past := t.past ++ [e], rest := q } })
  | workerDone {r : Redis} {v : Server} {t : WorkerTask} :
      v.worker = some t → t.rest = .ret (.ok ()) →
      Step J self (r, v) (.workerDone (.ok ()))
        (r, { v with proc := { v.proc with msgQue := v.proc.msgQue.tail }, worker := none })
  | crash {r : Redis} {v : Server} {t : WorkerTask} {e : Exn} :
      v.worker = some t → t.rest = .ret (.error e) →
      Step J self (r, v) (.workerDone (.error e)) (r, { v with crashed := true })
  | serve {r : Redis} {v : Server} {request : ChatServiceImpl.Request} :
      Step J self (r, v) (.serve request)
        (r, { v with rpcs := ChatServiceImpl.serve J request :: v.rpcs })
  | rpc {r : Redis} {v : Server} {pre post : List (Io Unit)} {p q : Io Unit} {e : Event calls}
      {w : World} :
      v.rpcs = pre ++ p :: post → Prog.Step p e q → World.sem true e ⟨r, v.proc⟩ w →
      Step J self (r, v) (.rpc e)
        (w.redis, { v with proc := w.proc, rpcs := pre ++ q :: post })
  | rpcDone {r : Redis} {v : Server} {pre post : List (Io Unit)} :
      v.rpcs = pre ++ .ret () :: post →
      Step J self (r, v) .rpcDone (r, { v with rpcs := pre ++ post })

/-! ## Several servers -/

structure Cluster where
  redis : Redis
  server : ServerName → Server

namespace Cluster

/-- Servers that have just started. -/
def init (redis : Redis) : Cluster := { redis := redis, server := fun _ => .init }

/-- The label of a step: a server's own, or of another program that uses Redis. -/
abbrev Act : Type := Option (ServerName × Label)

/-- The other programs that use Redis leave the login counts and the routes alone. -/
inductive Step (J : JsonCpp) : Cluster → Act → Cluster → Prop where
  | server {c : Cluster} {S : ServerName} {l : Label} {r : Redis} {v : Server} :
      (c.server S).crashed = false → Server.Step J S (c.redis, c.server S) l (r, v) →
      Step J c (some (S, l)) { redis := r, server := Function.update c.server S v }
  | others {c : Cluster} {redis : Redis} :
      (∀ S, redis.count S = c.redis.count S) → (∀ u, redis.route u = c.redis.route u) →
      Step J c none { c with redis := redis }

section Servers

variable {J : JsonCpp} {redis : Redis} {c c' : Cluster} {a : Act} {S : ServerName}

/-- A step of a cluster is a step of the server `S`, or leaves it as it is. -/
theorem Step.server_cases (h : Step J c a c') (S : ServerName) :
    c'.server S = c.server S ∨
      ∃ l, a = some (S, l) ∧ Server.Step J S (c.redis, c.server S) l (c'.redis, c'.server S) := by
  cases h with
  | @server T l r v _ hs =>
    by_cases hT : S = T
    · subst hT
      refine Or.inr ⟨l, rfl, ?_⟩
      show Server.Step J S (c.redis, c.server S) l (r, Function.update c.server S v S)
      rwa [Function.update_self]
    · exact Or.inl (Function.update_of_ne hT v c.server)
  | others _ _ => exact Or.inl rfl

/-- What every step of a server keeps holds of the server in every run of a cluster. -/
theorem run_server {P : Server → Prop} (h0 : P .init)
    (hstep : ∀ r v l r' v', P v → Server.Step J S (r, v) l (r', v') → P v')
    {tr : List (Act × Cluster)} (h : Transition.Run (Step J) (init redis) tr c) :
    P (c.server S) := by
  refine Transition.Run.invariant (P := fun _ c => P (c.server S)) h0 ?_ h
  intro tr c a c' _ hc hs
  rcases hs.server_cases S with heq | ⟨l, -, hs⟩
  · rwa [heq]
  · exact hstep _ _ _ _ _ hc hs

end Servers

end Cluster

/-! ## Tasks keep to their phases -/

/-- What is left of every task of the server keeps to the phases. -/
structure Server.Formed (v : Server) (S : ServerName) : Prop where
  worker : ∀ t ∈ v.worker, t.rest.Conforms (WorkerPhase.next S t.node.session) WorkerPhase.Ends
    (WorkerPhase.after S t.node.session t.past)
  io : ∀ t ∈ v.io, t.rest.Conforms (IoPhase.next S t.session) (fun _ q => q.Ends)
    (IoPhase.after S t.session t.handler t.past)
  rpcs : ∀ p ∈ v.rpcs, Neutral p

theorem Server.formed_init (self : ServerName) : Server.init.Formed self :=
  ⟨fun _ h => (nomatch h), fun _ h => (nomatch h), fun _ h => (nomatch h)⟩

/-- **A server's tasks keep to their phases** from step to step. -/
theorem Server.Formed.step {J : JsonCpp} {self : ServerName} {r r' : Redis} {v v' : Server}
    {l : Label} (h : v.Formed self) (hs : Server.Step J self (r, v) l (r', v')) :
    v'.Formed self := by
  obtain ⟨hworker, hio, hrpcs⟩ := h
  cases hs with
  | accept _ _ =>
    refine ⟨hworker, ?_, hrpcs⟩
    rintro _ ⟨⟩
    exact handleAccept_conforms self _
  | readSome _ _ _ =>
    refine ⟨hworker, ?_, hrpcs⟩
    rintro _ ⟨⟩
    exact CSession.readCallback_conforms self _ _ _ _
  | io ht hp _ =>
    refine ⟨hworker, ?_, hrpcs⟩
    rintro _ ⟨⟩
    obtain ⟨q, hnext, hq⟩ := (hio _ ht).step hp
    rwa [IoPhase.after_snoc hnext]
  | ioDone _ _ => exact ⟨hworker, fun _ h => (nomatch h), hrpcs⟩
  | written _ _ => exact ⟨hworker, hio, hrpcs⟩
  | take _ _ =>
    refine ⟨?_, hio, hrpcs⟩
    rintro _ ⟨⟩
    exact LogicSystem.dispatch_conforms J self _
  | worker ht hp _ =>
    refine ⟨?_, hio, hrpcs⟩
    rintro _ ⟨⟩
    obtain ⟨q, hnext, hq⟩ := (hworker _ ht).step hp
    rwa [WorkerPhase.after_snoc hnext]
  | workerDone _ _ => exact ⟨fun _ h => (nomatch h), hio, hrpcs⟩
  | crash _ _ => exact ⟨hworker, hio, hrpcs⟩
  | serve => exact ⟨hworker, hio, List.forall_mem_cons.mpr ⟨ChatServiceImpl.serve_neutral J _, hrpcs⟩⟩
  | rpc hmem hp _ =>
    rw [hmem] at hrpcs
    simp only [List.forall_mem_append, List.forall_mem_cons] at hrpcs
    obtain ⟨hpre, hthis, hpost⟩ := hrpcs
    refine ⟨hworker, hio, ?_⟩
    simp only [List.forall_mem_append, List.forall_mem_cons]
    exact ⟨hpre, (hthis.step hp).2, hpost⟩
  | rpcDone hmem =>
    rw [hmem] at hrpcs
    simp only [List.forall_mem_append, List.forall_mem_cons] at hrpcs
    refine ⟨hworker, hio, ?_⟩
    rw [List.forall_mem_append]
    exact ⟨hrpcs.1, hrpcs.2.2⟩

/-- Every server's tasks keep to their phases. -/
def Cluster.Formed (c : Cluster) : Prop := ∀ S, (c.server S).Formed S

theorem Cluster.formed_init (redis : Redis) : (Cluster.init redis).Formed :=
  fun S => Server.formed_init S

theorem Cluster.Formed.step {J : JsonCpp} {c c' : Cluster} {a : Cluster.Act} (h : c.Formed)
    (hs : Cluster.Step J c a c') : c'.Formed := by
  intro T
  rcases hs.server_cases T with heq | ⟨l, -, hs⟩
  · rw [heq]
    exact h T
  · exact (h T).step hs

/-! ## Running a cluster -/

/-- What can happen to a server next: a client connects, bytes or an error arrive on a session, or one
of the two threads gets to run. -/
inductive Move where
  | accept (s : SessId)
  | readSome (s : SessId) (ec : Bool) (bytes : Bytes)
  | io
  | worker

/-- Carry out a move, if it is possible. A thread that gets to run makes its next call or returns, and
an idle worker takes the message at the front of its queue; `ext` answers what is outside the server
and Redis. -/
def Server.move (J : JsonCpp) (self : ServerName) (ext : (c : Call) → c.Resp) (r : Redis)
    (v : Server) : Move → Option (Label × Redis × Server)
  | .accept s =>
    match v.io with
    | some _ => none
    | none =>
      if s ∈ v.proc.known then none
      else some (.accept s, r, { v with
        proc := v.proc.accept s
        io := some { session := s, handler := .head, past := [], rest := handleAccept s } })
  | .readSome s ec bytes =>
    match v.io, (v.proc.sess s).reads with
    | none, p :: _ =>
      if p.Completes ec bytes then
        some (.readSome s p ec bytes, r, { v with
          proc := v.proc.modify s fun x => x.deliver p bytes
          io := some
            { session := s, handler := p.handler, past := [],
              rest := CSession.readCallback self s p ec bytes.length } })
      else none
    | _, _ => none
  | .io =>
    match v.io with
    | none => none
    | some t =>
      match t.rest with
      | .ret () => some (.ioDone, r, { v with io := none })
      | .call o k =>
        match World.interpret ext o ⟨r, v.proc⟩ with
        | (a, w) => some (.io ⟨o, a⟩, w.redis, { v with
            proc := w.proc, io := some { t with past := t.past ++ [⟨o, a⟩], rest := k a } })
  | .worker =>
    match v.worker with
    | none =>
      match v.proc.msgQue with
      | [] => none
      | node :: _ => some (.take node, r, { v with
          worker := some { node := node, past := [], rest := (LogicSystem.dispatch J self node).run } })
    | some t =>
      match t.rest with
      | .ret (.ok ()) => some (.workerDone (.ok ()), r, { v with
          proc := { v.proc with msgQue := v.proc.msgQue.tail }, worker := none })
      | .ret (.error e) => some (.workerDone (.error e), r, { v with crashed := true })
      | .call o k =>
        match World.interpret ext o ⟨r, v.proc⟩ with
        | (a, w) => some (.worker ⟨o, a⟩, w.redis, { v with
            proc := w.proc, worker := some { t with past := t.past ++ [⟨o, a⟩], rest := k a } })

/-- A move that is carried out is a step. -/
theorem Server.move_step {J : JsonCpp} {self : ServerName} {ext : (c : Call) → c.Resp} {r r' : Redis}
    {v v' : Server} {m : Move} {l : Label} (h : v.move J self ext r m = some (l, r', v')) :
    Server.Step J self (r, v) l (r', v') := by
  have hsem : ∀ (o : Call) (w : World), World.sem true ⟨o, (World.interpret ext o w).1⟩ w
      (World.interpret ext o w).2 := World.sem_interpret true ext
  unfold Server.move at h
  split at h
  · split at h
    · cases h
    · rename_i hio
      split at h
      · cases h
      · rename_i hnew
        cases h
        exact .accept hio hnew
  · split at h
    · rename_i p _ hio hreads
      split at h
      · rename_i hc
        cases h
        exact .readSome hio (hreads ▸ List.mem_cons_self) hc
      · cases h
    · cases h
  · split at h
    · cases h
    · rename_i t hio
      split at h
      · rename_i hret
        cases h
        exact .ioDone hio hret
      · rename_i o k hcall
        cases h
        exact .io hio (hcall ▸ .call o k _) (hsem o _)
  · split at h
    · rename_i hworker
      split at h
      · cases h
      · rename_i node rest hque
        cases h
        exact .take hworker hque
    · rename_i t hworker
      split at h
      · rename_i hret
        cases h
        exact .workerDone hworker hret
      · rename_i e hret
        cases h
        exact .crash hworker hret
      · rename_i o k hcall
        cases h
        exact .worker hworker (hcall ▸ .call o k _) (hsem o _)

namespace Cluster

/-- Carry out a move of the server `S`, if it is possible. -/
def move (J : JsonCpp) (ext : (c : Call) → c.Resp) (c : Cluster) (S : ServerName) (m : Move) :
    Option (Act × Cluster) :=
  if (c.server S).crashed then none
  else
    match (c.server S).move J S ext c.redis m with
    | none => none
    | some (l, r, v) =>
      some (some (S, l), { redis := r, server := Function.update c.server S v })

/-- Carry out moves one after another, leaving out those that are not possible: the steps that are
taken. -/
def schedule (J : JsonCpp) (ext : (c : Call) → c.Resp) :
    Cluster → List (ServerName × Move) → List (Act × Cluster)
  | _, [] => []
  | c, (S, m) :: ms =>
    match c.move J ext S m with
    | none => schedule J ext c ms
    | some (a, c') => (a, c') :: schedule J ext c' ms

/-- The steps of a schedule are a run of the cluster. -/
theorem schedule_run (J : JsonCpp) (ext : (c : Call) → c.Resp) (c : Cluster)
    (ms : List (ServerName × Move)) :
    Transition.Run (Cluster.Step J) c (schedule J ext c ms)
      (Transition.final c (schedule J ext c ms)) := by
  induction ms generalizing c with
  | nil => exact .nil
  | cons x ms ih =>
    obtain ⟨S, m⟩ := x
    unfold schedule
    split
    · exact ih c
    · rename_i a c' hmove
      refine .cons ?_ (ih c')
      unfold move at hmove
      split at hmove
      · cases hmove
      · rename_i hlive
        split at hmove
        · cases hmove
        · rename_i l r v hv
          cases hmove
          exact .server (Bool.eq_false_iff.mpr hlive) (Server.move_step hv)

end Cluster

/-! ## Two users -/

/-- A login request, for a user with one digit. -/
def loginText (uid : Int) : Bytes :=
  lit "\x7b\"uid\":" ++ renderInt uid ++ lit ",\"token\":\"t\"\x7d"

/-- The header of a login request: message 2001, 21 bytes. -/
def loginHead : Bytes := [7, 209, 0, 21]

/-- The login requests of the users 7 and 8. -/
def loginTexts : JsonCpp :=
  .ofTable ([7, 8].map fun uid =>
    (loginText uid, .obj [(lit "token", .str (lit "t")), (lit "uid", .int uid)]))

/-- A database that knows every user. -/
def knowsUsers (c : Call) : c.Resp :=
  match c with
  | .getUserInfo uid => some { uid := uid, name := lit "ann" }
  | c => World.noAnswer c

/-- The server `s1` has reset its login count, and the tokens of the users are known. -/
def startRedis : Redis :=
  ((Redis.empty.hSet RedisPrefix.loginCount s1.val (lit "0")).set (tokenKey 7) (lit "t")).set
    (tokenKey 8) (lit "t")

/-- A callback of the I/O thread runs to its end. -/
def callback : List Move := List.replicate 20 .io

/-- The worker handles a message. -/
def handling : List Move := List.replicate 40 .worker

/-- A client connects. -/
def connects (s : SessId) : List Move := .accept s :: callback

/-- A login request arrives and is posted. -/
def requests (s : SessId) (uid : Int) : List Move :=
  .readSome s false loginHead :: callback ++ .readSome s false (loginText uid) :: callback

/-- A login request arrives and is handled. -/
def logsIn (s : SessId) (uid : Int) : List Move := requests s uid ++ handling

/-- The connection breaks, and the session is closed. -/
def disconnects (s : SessId) : List Move := .readSome s true [] :: callback

/-- A run of the server `s1`. -/
def runOf (ms : List Move) : List (Cluster.Act × Cluster) :=
  Cluster.schedule loginTexts knowsUsers (.init startRedis) (ms.map fun m => (s1, m))

/-- The state it leads to. -/
def stateAfter (ms : List Move) : Cluster := Transition.final (.init startRedis) (runOf ms)

theorem runOf_run (ms : List Move) :
    Transition.Run (Cluster.Step loginTexts) (.init startRedis) (runOf ms) (stateAfter ms) :=
  Cluster.schedule_run ..

end ChatServer
