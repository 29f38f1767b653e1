import ChatServer.Protocol
import ChatServer.Lib.Run

/-!
# One server, one handler at a time

The coarse view of a server: each callback of the I/O thread, each message the worker handles and
each request of a peer is one step, and no Redis command fails. `exec_call` is how an execution of a
handler is followed call by call.
-/

namespace ChatServer

open Interaction Prog Handler Word

/-! ## Completing a read -/

/-- `async_read_some` may complete with these bytes: no more than the window it was given and,
without an error, at least one unless the window is empty. -/
def PendingRead.Completes (p : PendingRead) (ec : Bool) (bytes : Bytes) : Prop :=
  bytes.length ≤ p.totalLen - p.readLen ∧ (ec = false → p.readLen < p.totalLen → bytes ≠ [])

/-- What a completed read has done to the session: the bytes are in its window of `_data`. -/
def Sess.deliver (x : Sess) (p : PendingRead) (bytes : Bytes) : Sess :=
  { x with
    reads := x.reads.erase p
    data := x.data.take p.readLen ++ bytes ++ x.data.drop (p.readLen + bytes.length) }

/-- A newly accepted connection. -/
def Proc.accept (p : Proc) (s : SessId) : Proc :=
  { p with known := s :: p.known, sess := Function.update p.sess s {} }

/-! ## Steps -/

/-- A read of the session `s` completes and its callback runs. -/
inductive ReadSome (self : ServerName) (s : SessId) :
    World → PendingRead × Bool × Bytes → World → Prop where
  | step {w w' : World} {p : PendingRead} {ec : Bool} {bytes : Bytes} {tr : List (Event calls)} :
      p ∈ (w.proc.sess s).reads → p.Completes ec bytes →
      Exec (World.sem false) (CSession.readCallback self s p ec bytes.length)
        (w.modify s fun x => x.deliver p bytes) tr () w' →
      ReadSome self s w (p, ec, bytes) w'

inductive SeqLabel where
  /-- A connection is accepted. -/
  | accept (s : SessId)
  /-- A read of a session completes. -/
  | readSome (s : SessId) (p : PendingRead) (ec : Bool) (bytes : Bytes)
  /-- A write of a session completes. -/
  | written (s : SessId) (ec : Bool)
  /-- The worker handles the message at the front of its queue, making these calls. -/
  | handle (node : LogicNode) (tr : List (Event calls))
  /-- A peer's request is served. -/
  | serve (request : ChatServiceImpl.Request)
  /-- Other programs change Redis. -/
  | others (redis : Redis)

/-- The steps of the server `self`. A handler that an exception leaves terminates the process, so it
is no step. The other programs that use Redis leave the login count of `self` alone. -/
inductive SeqStep (J : JsonCpp) (self : ServerName) : World → SeqLabel → World → Prop where
  | accept {w w' : World} {s : SessId} {tr : List (Event calls)} :
      s ∉ w.proc.known →
      Exec (World.sem false) (handleAccept s) { w with proc := w.proc.accept s } tr () w' →
      SeqStep J self w (.accept s) w'
  | readSome {w w' : World} {s : SessId} {p : PendingRead} {ec : Bool} {bytes : Bytes} :
      ReadSome self s w (p, ec, bytes) w' → SeqStep J self w (.readSome s p ec bytes) w'
  | written {w : World} {s : SessId} {ec : Bool} :
      (w.proc.sess s).writes ≠ [] →
      SeqStep J self w (.written s ec)
        (w.modify s fun x => { x with writes := x.writes.tail }.handleWrite ec)
  | handle {w w' : World} {node : LogicNode} {rest : List LogicNode} {tr : List (Event calls)} :
      w.proc.msgQue = node :: rest →
      Exec (World.sem false) (LogicSystem.dispatch J self node).run w tr (.ok ()) w' →
      SeqStep J self w (.handle node tr)
        { w' with proc := { w'.proc with msgQue := w'.proc.msgQue.tail } }
  | serve {w w' : World} {request : ChatServiceImpl.Request} {tr : List (Event calls)} :
      Exec (World.sem false) (ChatServiceImpl.serve J request) w tr () w' →
      SeqStep J self w (.serve request) w'
  | others {w : World} {redis : Redis} :
      redis.count self = w.redis.count self → SeqStep J self w (.others redis) { w with redis }

/-! ## Following an execution -/

/-- A call that does not fail is carried out, and its answer is the one the state determines. -/
theorem exec_call {α : Type} {c : Call} {k : c.Resp → Io α} {w w' : World}
    {tr : List (Event calls)} {a : α}
    (h : Exec (World.sem false) (Prog.call (S := calls) c k) w tr a w') :
    ∃ r tr', tr = ⟨c, r⟩ :: tr' ∧ (∀ r₀, w.answer c = some r₀ → r = r₀) ∧
      Exec (World.sem false) (k r) (w.apply c) tr' a w' := by
  cases h with
  | call hs hk =>
    rcases hs with ⟨rfl, hr⟩ | ⟨hlossy, -⟩
    · exact ⟨_, _, rfl, hr, hk⟩
    · cases hlossy

/-- The same for a statement of a handler. -/
theorem exec_ask {α : Type} {c : Call} {f : c.Resp → Handler α} {w w' : World}
    {tr : List (Event calls)} {a : Except Exn α}
    (h : Exec (World.sem false) (ask c >>= f).run w tr a w') :
    ∃ r tr', tr = ⟨c, r⟩ :: tr' ∧ (∀ r₀, w.answer c = some r₀ → r = r₀) ∧
      Exec (World.sem false) (f r).run (w.apply c) tr' a w' :=
  exec_call h

/-! ## Reading -/

/-- The session after `asyncReadFull`: the buffer is cleared and a read is outstanding. -/
def Sess.startRead (x : Sess) (max_length : Nat) (handler : ReadHandler) : Sess :=
  { x with
    data := List.replicate maxLength 0
    reads := x.reads ++ [{ readLen := 0, totalLen := max_length, handler := handler }] }

namespace CSession

variable {self : ServerName} {s : SessId} {w w' : World} {tr : List (Event calls)}

theorem exec_asyncReadFull {max_length : Nat} {handler : ReadHandler}
    (h : Exec (World.sem false) (asyncReadFull s max_length handler) w tr () w') :
    w' = w.modify s fun x => x.startRead max_length handler := by
  obtain ⟨_, _, -, -, h⟩ := exec_call h
  obtain ⟨_, _, -, -, h⟩ := exec_call h
  obtain ⟨-, rfl⟩ := exec_ret h
  exact World.modify_modify ..

/-- A complete header that is accepted: a node for the body is stored, and its read is started. -/
theorem exec_acceptHead {data : Bytes} {node : RecvNode} {r : Except Exn Unit}
    (hid : headMsgId data ≤ maxLength) (hlen : headMsgLen data ≤ maxLength)
    (hnode : RecvNode.new (headMsgLen data) (headMsgId data) = .ok node)
    (h : Exec (World.sem false) (acceptHead s data).run w tr r w') :
    w' = w.modify s fun x => { x with recvMsgNode := some node }.startRead
      (toSizeT (headMsgLen data)) (.body (headMsgLen data)) := by
  unfold acceptHead at h
  rw [if_neg (by omega), if_neg (by omega), hnode] at h
  obtain ⟨_, _, -, -, h⟩ := exec_ask h
  obtain ⟨_, _, -, h⟩ := exec_liftIo h
  rw [exec_asyncReadFull h]
  exact World.modify_modify ..

/-- The handler of a complete header looks at the header in the buffer. -/
theorem exec_headHandler {bytes_transfered : Nat} (hn : headTotalLen ≤ bytes_transfered)
    (h : Exec (World.sem false) (headHandler self s false bytes_transfered) w tr () w') :
    ∃ r tr', Exec (World.sem false) (acceptHead s (w.proc.sess s).data).run w tr' r w' := by
  obtain ⟨r, tr', h⟩ := exec_catchStd h
  rw [if_neg Bool.false_ne_true, if_neg (by omega)] at h
  obtain ⟨_, tr'', -, hr, h⟩ := exec_ask h
  obtain rfl := hr _ rfl
  exact ⟨r, tr'', h⟩

/-- A complete body: the node is filled and posted, and the read of the next header is started. -/
theorem exec_bodyHandler {bytes_transfered : Nat} {total_len : Int} {node : RecvNode} {body : Bytes}
    (hn : toSizeT total_len ≤ bytes_transfered)
    (hnode : (w.proc.sess s).recvMsgNode = some node)
    (hbody : (w.proc.sess s).data.take bytes_transfered = body)
    (h : Exec (World.sem false) (bodyHandler self s total_len false bytes_transfered) w tr () w') :
    w'.proc.sess s = { w.proc.sess s with recvMsgNode := some (node.fill body) }.startRead
        headTotalLen .head ∧
      w'.proc.msgQue = w.proc.msgQue ++ [{ session := s, recvNode := node.fill body }] := by
  obtain ⟨r, _, h⟩ := exec_catchStd h
  rw [if_neg Bool.false_ne_true, if_neg (by omega)] at h
  obtain ⟨_, _, -, hdata, h⟩ := exec_ask h
  obtain rfl := hdata _ rfl
  obtain ⟨_, _, -, hrecv, h⟩ := exec_ask h
  obtain rfl := hrecv _ rfl
  rw [show (w.apply (.data s)).proc = w.proc from rfl, hnode] at h
  obtain ⟨_, _, -, -, h⟩ := exec_ask h
  obtain ⟨_, _, -, -, h⟩ := exec_ask h
  obtain ⟨_, _, -, h⟩ := exec_liftIo h
  rw [exec_asyncReadFull h, hbody]
  refine ⟨?_, rfl⟩
  rw [World.modify_sess]
  show ((w.modify s fun x => { x with recvMsgNode := some (node.fill body) }).proc.sess s).startRead
    _ _ = _
  rw [World.modify_sess]

/-- A read that leaves its part incomplete is continued. -/
theorem exec_readCallback_more {p : PendingRead} {n : Nat} (hn : p.readLen + n < p.totalLen)
    (h : Exec (World.sem false) (readCallback self s p false n) w tr () w') :
    w' = w.modify s fun x =>
      { x with reads := x.reads ++ [{ p with readLen := p.readLen + n }] } := by
  unfold readCallback at h
  rw [if_neg Bool.false_ne_true, if_neg (by omega)] at h
  obtain ⟨_, _, -, -, h⟩ := exec_call h
  exact (exec_ret h).2

/-- A read that completes its part calls the handler of that part. -/
theorem readCallback_complete {p : PendingRead} {n : Nat} (hn : p.totalLen ≤ p.readLen + n) :
    readCallback self s p false n = handle self s false (p.readLen + n) p.handler := by
  unfold readCallback
  rw [if_neg Bool.false_ne_true, if_pos hn]

end CSession

/-! ## Running a server -/

instance (p : PendingRead) (ec : Bool) (bytes : Bytes) : Decidable (p.Completes ec bytes) :=
  inferInstanceAs (Decidable (_ ∧ _))

/-- A move of the world around a server: a client connects, bytes of it or an error arrive, or the
worker has time for the message at the front of its queue. -/
inductive SeqMove where
  | accept (s : SessId)
  | readSome (s : SessId) (ec : Bool) (bytes : Bytes)
  | handle

/-- Carry out a move; `ext` answers what is outside the server and Redis. -/
def SeqMove.run (J : JsonCpp) (self : ServerName) (ext : (c : Call) → c.Resp) (w : World) :
    SeqMove → Option World
  | .accept s =>
    if s ∈ w.proc.known then none
    else some ((handleAccept s).run (World.interpret ext) { w with proc := w.proc.accept s }).2
  | .readSome s ec bytes =>
    match (w.proc.sess s).reads with
    | [] => none
    | p :: _ =>
      if p.Completes ec bytes then
        some ((CSession.readCallback self s p ec bytes.length).run (World.interpret ext)
          (w.modify s fun x => x.deliver p bytes)).2
      else none
  | .handle =>
    match w.proc.msgQue with
    | [] => none
    | node :: _ =>
      match (LogicSystem.dispatch J self node).run.run (World.interpret ext) w with
      | (.ok (), w') => some { w' with proc := { w'.proc with msgQue := w'.proc.msgQue.tail } }
      | (.error _, _) => none

/-- A move that can be carried out is a step of the server. -/
theorem SeqMove.step {J : JsonCpp} {self : ServerName} {ext : (c : Call) → c.Resp} {w w' : World}
    {m : SeqMove} (h : m.run J self ext w = some w') : ∃ l, SeqStep J self w l w' := by
  have hsem : ∀ (c : Call) (w : World), World.sem false ⟨c, (World.interpret ext c w).1⟩ w
      (World.interpret ext c w).2 := World.sem_interpret false ext
  cases m with
  | accept s =>
    simp only [SeqMove.run] at h
    split at h
    · cases h
    · rename_i hnew
      cases h
      obtain ⟨tr, hexec⟩ := exec_run hsem (handleAccept s) { w with proc := w.proc.accept s }
      exact ⟨_, .accept hnew hexec⟩
  | readSome s ec bytes =>
    simp only [SeqMove.run] at h
    split at h
    · cases h
    · rename_i p rest hreads
      split at h
      · rename_i hc
        cases h
        obtain ⟨tr, hexec⟩ := exec_run hsem (CSession.readCallback self s p ec bytes.length)
          (w.modify s fun x => x.deliver p bytes)
        exact ⟨_, .readSome (.step (hreads ▸ List.mem_cons_self) hc hexec)⟩
      · cases h
  | handle =>
    simp only [SeqMove.run] at h
    split at h
    · cases h
    · rename_i node rest hque
      split at h
      · rename_i w₁ hrun
        cases h
        obtain ⟨tr, hexec⟩ := exec_run hsem (LogicSystem.dispatch J self node).run w
        rw [hrun] at hexec
        exact ⟨_, .handle hque hexec⟩
      · cases h

/-- Carry out moves, one after another. -/
def runMoves (J : JsonCpp) (self : ServerName) (ext : (c : Call) → c.Resp) (w : World)
    (ms : List SeqMove) : Option World :=
  ms.foldlM (fun w m => m.run J self ext w) w

/-- Moves that can be carried out are a run of the server. -/
theorem runMoves_run {J : JsonCpp} {self : ServerName} {ext : (c : Call) → c.Resp} {w₀ w : World}
    {ms : List SeqMove} (h : runMoves J self ext w₀ ms = some w) :
    ∃ tr, Transition.Run (SeqStep J self) w₀ tr w := by
  induction ms using List.reverseRecOn generalizing w with
  | nil =>
    cases h
    exact ⟨[], .nil⟩
  | append_singleton ms m ih =>
    unfold runMoves at h
    rw [List.foldlM_append] at h
    obtain ⟨w₁, h₁, h₂⟩ := Option.bind_eq_some_iff.mp h
    obtain ⟨tr, hrun⟩ := ih h₁
    obtain ⟨w₂, hmove, hret⟩ := Option.bind_eq_some_iff.mp h₂
    cases hret
    obtain ⟨l, hstep⟩ := SeqMove.step hmove
    exact ⟨_, .snoc hrun hstep⟩

end ChatServer
