import ChatServer.Fleet
import ChatServer.Cluster

/-!
# Servers that handle what their clients send

The threads of all servers over a `Fleet`, as a function of what happens next: a client connects or sends
bytes, a write of a session completes, or a thread gets to run. A call of a thread may fail; a remote call
is carried out call by call at the peer. A `Service` also records which messages have been written to the
socket of each session.
-/

namespace ChatServer

open Interaction Prog Function

/-- The threads of a server: the message that the worker handles, the callback that the I/O thread runs,
each with what is left to do, and whether an exception has terminated the process. -/
structure Threads where
  worker : Option (LogicNode × Located (Except Exn Unit)) := none
  io : Option (Located Unit) := none
  crashed : Bool := false

structure Service where
  fleet : Fleet
  threads : ServerName → Threads
  received : ServerName → SessId → List SendNode

/-- What can happen next at a server. -/
inductive Turn where
  /-- A client connects. -/
  | accept (s : SessId)
  /-- Bytes or an error arrive on a session. -/
  | readSome (s : SessId) (ec : Bool) (bytes : Bytes)
  /-- A write of a session completes. -/
  | written (s : SessId) (ec : Bool)
  /-- The I/O thread makes its next call, or returns. -/
  | io (fails : Bool)
  /-- The worker takes a message, makes its next call, or returns. -/
  | worker (fails : Bool)

/-- Calls that can fail: commands and statements, and at a peer (`here` is false) all that the chat service
does. -/
def Call.mayFail (here : Bool) : Call → Bool
  | .get _ => true
  | .set _ _ => true
  | .hGet _ _ => true
  | .hSet _ _ _ => true
  | .getUserInfo _ => true
  | .getUserInfoByName _ => true
  | .addFriendApply _ _ _ => true
  | .getFriendAlias _ _ => true
  | .getFriendApplyAlias _ _ => true
  | .getApplyList _ _ _ => true
  | .authFriendApply _ _ => true
  | .addFriend _ _ _ _ => true
  | .getFriendList _ => true
  | .getSession _ => !here
  | .send _ _ _ => !here
  | _ => false

namespace Service

/-- Servers that have just started. -/
def init (redis : Redis) (database : Database) : Service where
  fleet := { redis := redis, database := database, proc := fun _ => .init, sent := [] }
  threads _ := {}
  received _ _ := []

def setProc (c : Service) (S : ServerName) (p : Proc) : Service :=
  { c with fleet := { c.fleet with proc := update c.fleet.proc S p } }

def setThreads (c : Service) (S : ServerName) (t : Threads) : Service :=
  { c with threads := update c.threads S t }

/-- A thread of the server `S` makes a call, which fails if the server it is made at has crashed. -/
def attempt (c : Service) (S : ServerName) (fails : Bool) (o : ServerName × Call) : o.2.Resp × Fleet :=
  if (fails || (c.threads o.1).crashed) && o.2.mayFail (decide (o.1 = S)) then
    (World.noAnswer o.2, c.fleet)
  else Fleet.call o c.fleet

section Turns

variable (J : JsonCpp) (pools : Pools) (c : Service) (S : ServerName)

/-- `HandleAccept` of a new connection. -/
def accept (s : SessId) : Service :=
  let p := c.fleet.proc S
  match (c.threads S).io with
  | some _ => c
  | none =>
    if s ∈ p.known then c
    else (c.setProc S (p.accept s)).setThreads S
      { c.threads S with io := some (locate S (handleAccept s)) }

/-- The first outstanding read of a session completes, and its callback begins. -/
def readSome (s : SessId) (ec : Bool) (bytes : Bytes) : Service :=
  let p := c.fleet.proc S
  match (c.threads S).io, (p.sess s).reads with
  | none, read :: _ =>
    if read.Completes ec bytes then
      (c.setProc S (p.modify s fun x => x.deliver read bytes)).setThreads S
        { c.threads S with io := some (locate S (CSession.readCallback S s read ec bytes.length)) }
    else c
  | _, _ => c

/-- The first outstanding write of a session completes; without an error, its message has been written. -/
def written (s : SessId) (ec : Bool) : Service :=
  let p := c.fleet.proc S
  match (c.threads S).io, (p.sess s).writes with
  | none, node :: _ =>
    { c.setProc S (p.modify s fun x => Sess.handleWrite { x with writes := x.writes.tail } ec) with
      received := if ec then c.received else
        update c.received S (update (c.received S) s (c.received S s ++ [node])) }
  | _, _ => c

/-- The I/O thread gets to run. -/
def runIo (fails : Bool) : Service :=
  match (c.threads S).io with
  | none => c
  | some (.ret ()) => c.setThreads S { c.threads S with io := none }
  | some (.call o k) =>
    let x := c.attempt S fails o
    { c with fleet := x.2 }.setThreads S { c.threads S with io := some (k x.1) }

/-- The worker gets to run. An exception that leaves a handler terminates the process. -/
def runWorker (fails : Bool) : Service :=
  let p := c.fleet.proc S
  match (c.threads S).worker with
  | none =>
    match p.msgQue with
    | [] => c
    | node :: _ => c.setThreads S
      { c.threads S with worker := some (node, place J pools S (LogicSystem.dispatch J S node).run) }
  | some (_, .ret (.ok ())) =>
    (c.setProc S { p with msgQue := p.msgQue.tail }).setThreads S { c.threads S with worker := none }
  | some (_, .ret (.error _)) => c.setThreads S { c.threads S with crashed := true }
  | some (node, .call o k) =>
    let x := c.attempt S fails o
    { c with fleet := x.2 }.setThreads S { c.threads S with worker := some (node, k x.1) }

/-- What happens at a server, unless it has crashed. -/
def turn (t : Turn) : Service :=
  if (c.threads S).crashed then c
  else
    match t with
    | .accept s => c.accept S s
    | .readSome s ec bytes => c.readSome S s ec bytes
    | .written s ec => c.written S s ec
    | .io fails => c.runIo S fails
    | .worker fails => c.runWorker J pools S fails

end Turns

/-- One turn of a server. -/
def Step (J : JsonCpp) (pools : Pools) (c : Service) (l : ServerName × Turn) (c' : Service) : Prop :=
  c' = c.turn J pools l.1 l.2

/-- What the servers do when this happens, turn by turn. -/
def record (J : JsonCpp) (pools : Pools) (c : Service) (ls : List (ServerName × Turn)) :
    List ((ServerName × Turn) × Service) :=
  Transition.follow (fun l c => some (l, c.turn J pools l.1 l.2)) c ls

theorem record_run (J : JsonCpp) (pools : Pools) (c : Service) (ls : List (ServerName × Turn)) :
    Transition.Run (Step J pools) c (record J pools c ls)
      (Transition.final c (record J pools c ls)) := by
  refine Transition.follow_run ?_ c
  intro l _ s l' t h
  cases h
  exact rfl

theorem record_labels (J : JsonCpp) (pools : Pools) (c : Service) (ls : List (ServerName × Turn)) :
    (record J pools c ls).map Prod.fst = ls :=
  Transition.follow_labels (fun _ _ => ⟨_, rfl⟩) c ls

end Service

end ChatServer
