import ChatServer.Cluster

/-!
# The send queue

`CSession::send` and `handleWrite` feed one socket from a queue. `Link` is a session together with the
bytes on its socket, where an outstanding `async_write` puts its buffer on the wire piece by piece
between the steps of other threads. `Link.serial` is what holds in every run of a link, and
`Cluster.run_link` says that the sessions of a cluster run like that.

A write that fails ends the chain of writes without closing the session: `sending_iff` says exactly in
which runs of a cluster the queue of an open session never gets stuck.
-/

namespace ChatServer

open Interaction Transition Prog Bytes Word

/-! ## Accepting a message -/

/-- The four header bytes and the body of a message. -/
def frame (msg : Bytes) (msgid : Int) : Bytes :=
  hostToNetworkShort msgid ++ hostToNetworkShort msg.length ++ msg

namespace Sess

/-- `send` takes the message: there is room, and the body has at least one and at most `MAX_LENGTH`
bytes. -/
def Accepts (s : Sess) (msg : Bytes) : Prop :=
  s.sendQue.length < maxSendQue ∧ 1 ≤ msg.length ∧ msg.length ≤ maxLength

instance (s : Sess) (msg : Bytes) : Decidable (s.Accepts msg) := instDecidableAnd

/-- A message that is accepted is queued, and its write is started if it is the only one. -/
theorem send_of_accepts {s : Sess} {msg : Bytes} (msgid : Int) (h : s.Accepts msg) :
    ∃ node, SendNode.new msg msgid = .ok node ∧ node.wire = frame msg msgid ∧
      s.send msg msgid = { s with
        sendQue := s.sendQue ++ [node]
        writes := if s.sendQue = [] then s.writes ++ [node] else s.writes } := by
  obtain ⟨hroom, hpos, hmax⟩ := h
  have hlimit : maxLength = 2048 := rfl
  obtain ⟨node, hnode, -, -, hwire⟩ := sendNode_new_wire msgid hmax
  have hlen : toShort (msg.length : Int) = msg.length := toShort_of_range ⟨by omega, by omega⟩
  refine ⟨node, hnode, hwire, ?_⟩
  unfold send sendBody
  rw [if_neg (by omega), if_neg (by omega), hlen, if_neg (by omega), hnode]
  dsimp only
  cases s.sendQue with
  | nil => rfl
  | cons q qs =>
    rw [if_pos (by simp), if_neg (List.cons_ne_nil q qs)]

/-- A message that is not accepted is dropped. -/
theorem send_of_not_accepts {s : Sess} {msg : Bytes} (msgid : Int) (h : ¬ s.Accepts msg) :
    s.send msg msgid = s := by
  unfold send
  split
  · rfl
  · unfold sendBody
    split
    · rfl
    · have hlen : toShort (msg.length : Int) = msg.length :=
        toShort_of_range ⟨by omega, by omega⟩
      have hbad : ¬ (1 ≤ msg.length ∧ msg.length ≤ maxLength) := fun hb => h ⟨by omega, hb⟩
      rw [hlen, if_pos (by omega)]

end Sess

/-! ## A session and its socket -/

/-- A session, how much of the buffer of each outstanding write has been written, the bytes on the
wire, and the frames of the accepted messages in the order in which `send` held `_send_lock`. -/
structure Link where
  sess : Sess
  progress : List Nat
  wire : Bytes
  accepted : List Bytes

namespace Link

/-- A link of a newly accepted connection. -/
def init : Link := { sess := {}, progress := [], wire := [], accepted := [] }

/-- Writes that have just been started have written nothing. -/
def started (progress : List Nat) (x : Sess) : List Nat :=
  progress ++ List.replicate (x.writes.length - progress.length) 0

/-- Some thread calls `CSession::send`. -/
def send (l : Link) (msg : Bytes) (msgid : Int) : Link :=
  { l with
    sess := l.sess.send msg msgid
    progress := started l.progress (l.sess.send msg msgid)
    accepted := if l.sess.Accepts msg then l.accepted ++ [frame msg msgid] else l.accepted }

inductive Label where
  /-- Some thread calls `send`. -/
  | send (msg : Bytes) (msgid : Int)
  /-- The `i`-th outstanding write writes `n` more bytes. -/
  | transfer (i n : Nat)
  /-- The `i`-th outstanding write completes. -/
  | complete (i : Nat) (ec : Bool)
  /-- Anything that does not concern sending. -/
  | other

/-- `send` and `handleWrite` hold `_send_lock` from beginning to end. A write that completes without an
error has written its whole buffer. -/
inductive Step : Link → Label → Link → Prop where
  | send {l : Link} {msg : Bytes} {msgid : Int} :
      Step l (.send msg msgid) (l.send msg msgid)
  | transfer {l : Link} {i n p : Nat} {node : SendNode} :
      l.sess.writes[i]? = some node → l.progress[i]? = some p → p + n ≤ node.wire.length →
      Step l (.transfer i n) { l with
        progress := l.progress.set i (p + n)
        wire := l.wire ++ (node.wire.drop p).take n }
  | complete {l : Link} {i p : Nat} {ec : Bool} {node : SendNode} {x : Sess} :
      l.sess.writes[i]? = some node → l.progress[i]? = some p →
      (ec = false → p = node.wire.length) →
      x = { l.sess with writes := l.sess.writes.eraseIdx i }.handleWrite ec →
      Step l (.complete i ec) { l with
        sess := x, progress := started (l.progress.eraseIdx i) x }
  | other {l : Link} {x : Sess} :
      x.sendQue = l.sess.sendQue → x.writes = l.sess.writes → Step l .other { l with sess := x }

/-- The frames in the queue, one behind the other. -/
def queued (l : Link) : List Bytes := l.sess.sendQue.map SendNode.wire

/-- No write is outstanding; a part of the queue may be on the wire if a write has failed. -/
def Idle (l : Link) (part : Bytes) : Prop :=
  l.sess.writes = [] ∧ l.progress = [] ∧ part <+: l.queued.flatten

/-- The front of the queue is being written. -/
def Busy (l : Link) (part : Bytes) : Prop :=
  ∃ node rest n, l.sess.sendQue = node :: rest ∧ l.sess.writes = [node] ∧ l.progress = [n] ∧
    n ≤ node.wire.length ∧ part = node.wire.take n

/-- The accepted frames are those that are done and those in the queue; the wire holds the ones that are
done and a part of what is queued. -/
structure Inv (l : Link) : Prop where
  bound : l.sess.sendQue.length ≤ maxSendQue
  flow : ∃ done part, l.accepted = done ++ l.queued ∧ l.wire = done.flatten ++ part ∧
    (l.Idle part ∨ l.Busy part)

theorem inv_init : init.Inv :=
  ⟨Nat.zero_le _, [], [], rfl, rfl, Or.inl ⟨rfl, rfl, List.nil_prefix⟩⟩

theorem Busy.part_prefix {l : Link} {part : Bytes} (h : l.Busy part) : part <+: l.queued.flatten := by
  obtain ⟨node, rest, n, hque, -, -, -, rfl⟩ := h
  rw [queued, hque, List.map_cons, List.flatten_cons]
  exact (List.take_prefix _ _).trans (List.prefix_append _ _)

theorem progress_length {l : Link} {part : Bytes} (h : l.Idle part ∨ l.Busy part) :
    l.progress.length = l.sess.writes.length := by
  rcases h with ⟨hw, hp, -⟩ | ⟨node, rest, n, -, hw, hp, -, -⟩
  · rw [hw, hp]
    rfl
  · rw [hw, hp]
    rfl

/-- Queueing a message. -/
theorem Inv.send {l : Link} (h : l.Inv) (msg : Bytes) (msgid : Int) : (l.send msg msgid).Inv := by
  obtain ⟨hbound, done, part, hacc, hwire, hstate⟩ := h
  have hlen := progress_length hstate
  unfold Link.send
  by_cases ha : l.sess.Accepts msg
  · obtain ⟨node, -, hnode, hsend⟩ := Sess.send_of_accepts msgid ha
    rw [hsend, if_pos ha]
    refine ⟨?_, done, part, ?_, hwire, ?_⟩
    · show (l.sess.sendQue ++ [node]).length ≤ maxSendQue
      have hroom := ha.1
      rw [List.length_append, List.length_singleton]
      omega
    · show l.accepted ++ [frame msg msgid] = done ++ (l.sess.sendQue ++ [node]).map SendNode.wire
      rw [hacc, List.map_append, List.map_singleton, hnode, List.append_assoc]
      rfl
    · rcases hstate with ⟨hw, hp, hpart⟩ | ⟨q, rest, n, hque, hw, hp, hn, hpart⟩
      · by_cases hempty : l.sess.sendQue = []
        · -- The queue was empty: the write of the new node is started.
          refine Or.inr ⟨node, [], 0, ?_, ?_, ?_, Nat.zero_le _, ?_⟩
          · show l.sess.sendQue ++ [node] = [node]
            rw [hempty, List.nil_append]
          · show (if l.sess.sendQue = [] then l.sess.writes ++ [node] else l.sess.writes) = [node]
            rw [if_pos hempty, hw, List.nil_append]
          · simp [started, hempty, hw, hp]
          · rw [queued, hempty] at hpart
            simpa using hpart
        · -- A write has failed: the new node is queued behind the others.
          refine Or.inl ⟨?_, ?_, ?_⟩
          · show (if l.sess.sendQue = [] then l.sess.writes ++ [node] else l.sess.writes) = []
            rw [if_neg hempty, hw]
          · simp [started, hempty, hw, hp]
          · show part <+: ((l.sess.sendQue ++ [node]).map SendNode.wire).flatten
            rw [List.map_append, List.flatten_append]
            exact hpart.trans (List.prefix_append _ _)
      · have hne : l.sess.sendQue ≠ [] := hque ▸ List.cons_ne_nil q rest
        refine Or.inr ⟨q, rest ++ [node], n, ?_, ?_, ?_, hn, hpart⟩
        · show l.sess.sendQue ++ [node] = q :: (rest ++ [node])
          rw [hque, List.cons_append]
        · show (if l.sess.sendQue = [] then l.sess.writes ++ [node] else l.sess.writes) = [q]
          rw [if_neg hne, hw]
        · simp [started, hne, hw, hp]
  · have hsame : started l.progress l.sess = l.progress := by simp [started, hlen]
    rw [Sess.send_of_not_accepts msgid ha, if_neg ha, hsame]
    exact ⟨hbound, done, part, hacc, hwire, hstate⟩

/-- Writing more of the front of the queue. -/
theorem Inv.transfer {l : Link} {i n p : Nat} {node : SendNode} (h : l.Inv)
    (hi : l.sess.writes[i]? = some node) (hp : l.progress[i]? = some p)
    (hn : p + n ≤ node.wire.length) :
    Inv { l with
      progress := l.progress.set i (p + n)
      wire := l.wire ++ (node.wire.drop p).take n } := by
  obtain ⟨hbound, done, part, hacc, hwire, ⟨hw, -, -⟩ | ⟨q, rest, m, hque, hw, hpr, hm, rfl⟩⟩ := h
  · rw [hw] at hi
    simp at hi
  · rw [hw] at hi
    rw [hpr] at hp
    obtain rfl : i = 0 := by
      have hlt : i < [q].length := (List.getElem?_eq_some_iff.mp hi).1
      simpa using hlt
    obtain rfl : q = node := by simpa using hi
    obtain rfl : m = p := by simpa using hp
    refine ⟨hbound, done, q.wire.take (m + n), hacc, ?_, Or.inr ⟨q, rest, m + n, hque, hw, ?_, hn, rfl⟩⟩
    · show l.wire ++ (q.wire.drop m).take n = done.flatten ++ q.wire.take (m + n)
      rw [hwire, List.append_assoc, List.take_add]
    · show l.progress.set 0 (m + n) = [m + n]
      rw [hpr]
      rfl

/-- The write of the front of the queue completes. -/
theorem Inv.complete {l : Link} {i p : Nat} {ec : Bool} {node : SendNode} {x : Sess} (h : l.Inv)
    (hi : l.sess.writes[i]? = some node) (hp : l.progress[i]? = some p)
    (hall : ec = false → p = node.wire.length)
    (hx : x = { l.sess with writes := l.sess.writes.eraseIdx i }.handleWrite ec) :
    Inv { l with sess := x, progress := started (l.progress.eraseIdx i) x } := by
  obtain ⟨hbound, done, part, hacc, hwire, ⟨hw, -, -⟩ | ⟨q, rest, m, hque, hw, hpr, hm, rfl⟩⟩ := h
  · rw [hw] at hi
    simp at hi
  · rw [hw] at hi hx
    rw [hpr] at hp
    obtain rfl : i = 0 := by
      have hlt : i < [q].length := (List.getElem?_eq_some_iff.mp hi).1
      simpa using hlt
    obtain rfl : q = node := by simpa using hi
    obtain rfl : m = p := by simpa using hp
    cases ec with
    | true =>
      -- `handleWrite` does nothing about an error: the node stays in the queue, half written.
      subst hx
      refine ⟨hbound, done, q.wire.take m, hacc, hwire, Or.inl ⟨rfl, ?_, ?_⟩⟩
      · simp [started, hpr, Sess.handleWrite]
      · show q.wire.take m <+: l.queued.flatten
        exact Busy.part_prefix ⟨q, rest, m, hque, hw, hpr, hm, rfl⟩
    | false =>
      have hfull := hall rfl
      have hx' : x = { l.sess with sendQue := rest, writes := rest.take 1 } := by
        rw [hx]
        simp [Sess.handleWrite, hque]
      subst hx'
      refine ⟨?_, done ++ [q.wire], [], ?_, ?_, ?_⟩
      · show rest.length ≤ maxSendQue
        rw [hque, List.length_cons] at hbound
        omega
      · show l.accepted = done ++ [q.wire] ++ rest.map SendNode.wire
        rw [hacc, queued, hque, List.map_cons, List.append_assoc, List.singleton_append]
      · rw [hwire, hfull, List.take_length, List.flatten_append, List.append_nil]
        simp
      · cases rest with
        | nil => exact Or.inl ⟨rfl, by simp [started, hpr], List.nil_prefix⟩
        | cons q' rest' => exact Or.inr ⟨q', rest', 0, rfl, rfl, by simp [started, hpr], Nat.zero_le _, rfl⟩

/-- **Every step of a link keeps the invariant.** -/
theorem Inv.step {l l' : Link} {a : Label} (h : l.Inv) (hs : Step l a l') : l'.Inv := by
  cases hs with
  | send => exact h.send _ _
  | transfer hi hp hn => exact h.transfer hi hp hn
  | complete hi hp hall hx => exact h.complete hi hp hall hx
  | other hque hw =>
    obtain ⟨hbound, done, part, hacc, hwire, hstate⟩ := h
    refine ⟨hque ▸ hbound, done, part, ?_, hwire, ?_⟩
    · rw [hacc, queued, queued, hque]
    · simpa only [Idle, Busy, queued, hque, hw] using hstate

theorem run_inv {l₀ l : Link} {tr : List (Label × Link)} (h₀ : l₀.Inv) (h : Run Step l₀ tr l) :
    l.Inv :=
  Run.invariant (P := fun _ l => l.Inv) h₀ (fun _ _ _ _ _ hl hs => hl.step hs) h

/-- A write that is outstanding writes the node at the front of the queue, and it is the only one. -/
theorem one_write {l : Link} {tr : List (Label × Link)} (h : Run Step init tr l) :
    l.sess.writes = [] ∨ ∃ node, l.sess.writes = [node] ∧ l.sess.sendQue.head? = some node := by
  obtain ⟨-, done, part, -, -, ⟨hw, -, -⟩ | ⟨node, rest, n, hque, hw, -, -, -⟩⟩ :=
    run_inv inv_init h
  · exact Or.inl hw
  · exact Or.inr ⟨node, hw, by rw [hque, List.head?_cons]⟩

/-- **One write at a time.** In every run of a link: at most one write is outstanding and its buffer is
that of the front of the queue, the queue holds at most `MAX_SENDQUE` nodes, and the bytes on the wire
are a prefix of the accepted frames in the order of their acceptance. -/
theorem serial {l : Link} {tr : List (Label × Link)} (h : Run Step init tr l) :
    (l.sess.writes = [] ∨ ∃ node, l.sess.writes = [node] ∧ l.sess.sendQue.head? = some node) ∧
      l.sess.sendQue.length ≤ maxSendQue ∧ l.wire <+: l.accepted.flatten := by
  obtain ⟨hbound, done, part, hacc, hwire, hstate⟩ := run_inv inv_init h
  refine ⟨one_write h, hbound, ?_⟩
  have hpart : part <+: l.queued.flatten := by
    rcases hstate with ⟨-, -, hpart⟩ | hbusy
    · exact hpart
    · exact hbusy.part_prefix
  rw [hwire, hacc, List.flatten_append]
  exact (List.prefix_append_right_inj _).mpr hpart

/-- Two messages are accepted, and three bytes of the first are written. -/
theorem serial_two : ∃ tr l, Run Step init tr l ∧ l.sess.sendQue.length = 2 ∧ l.wire.length = 3 ∧
    ((l.sess.writes = [] ∨ ∃ node, l.sess.writes = [node] ∧ l.sess.sendQue.head? = some node) ∧
      l.sess.sendQue.length ≤ maxSendQue ∧ l.wire <+: l.accepted.flatten) := by
  have hsent : Run Step init _ ((init.send (lit "a") 2012).send (lit "b") 2012) :=
    .snoc (.snoc .nil .send) .send
  have hrun := hsent.snoc (.transfer (i := 0) (n := 3) (p := 0) rfl rfl (by decide))
  exact ⟨_, _, hrun, rfl, rfl, serial hrun⟩

end Link

/-! ## The sessions of a cluster -/

/-- What a step of a server can do to what a session has to send, completed writes apart. -/
inductive SendEffect (x : Sess) : Sess → Prop where
  | fresh : SendEffect x {}
  | keep {y : Sess} : y.sendQue = x.sendQue → y.writes = x.writes →
      (x.bClose = true → y.bClose = true) → SendEffect x y
  | send (msg : Bytes) (msgid : Int) : SendEffect x (x.send msg msgid)

theorem SendEffect.same (x : Sess) : SendEffect x x := .keep rfl rfl id

theorem World.modify_effect {w : World} {s t : SessId} {f : Sess → Sess}
    (hf : SendEffect (w.proc.sess s) (f (w.proc.sess s))) :
    SendEffect (w.proc.sess t) ((w.modify s f).proc.sess t) := by
  by_cases hts : t = s
  · subst hts
    rwa [World.modify_sess]
  · rw [World.modify_sess_ne hts]
    exact .same _

theorem World.apply_effect (w : World) (c : Call) (s : SessId) :
    SendEffect (w.proc.sess s) ((w.apply c).proc.sess s) := by
  cases c with
  | send t msg msgid => exact World.modify_effect (.send msg msgid)
  | setBClose t => exact World.modify_effect (.keep rfl rfl fun _ => rfl)
  | setUserId t uid => exact World.modify_effect (.keep rfl rfl id)
  | socketClose t => exact World.modify_effect (.keep rfl rfl id)
  | clearData t => exact World.modify_effect (.keep rfl rfl id)
  | setRecvNode t node => exact World.modify_effect (.keep rfl rfl id)
  | asyncReadSome t read => exact World.modify_effect (.keep rfl rfl id)
  | _ => exact .same _

theorem World.sem_effect {lossy : Bool} {e : Event calls} {w w' : World}
    (h : World.sem lossy e w w') (s : SessId) : SendEffect (w.proc.sess s) (w'.proc.sess s) := by
  rcases h with ⟨rfl, -⟩ | ⟨-, -, rfl | rfl⟩
  · exact World.apply_effect w e.1 s
  · exact .same _
  · exact World.apply_effect w e.1 s

/-- **What a step of a server does to what a session has to send.** -/
theorem Server.Step.effect {J : JsonCpp} {self : ServerName} {r r' : Redis} {v v' : Server} {l : Label}
    (hs : Server.Step J self (r, v) l (r', v')) (s : SessId) :
    (∃ ec, l = .written s ec ∧ (v.proc.sess s).writes ≠ [] ∧
        v'.proc.sess s =
          { v.proc.sess s with writes := (v.proc.sess s).writes.tail }.handleWrite ec) ∨
      SendEffect (v.proc.sess s) (v'.proc.sess s) := by
  cases hs with
  | @accept _ _ t _ _ =>
    refine Or.inr ?_
    show SendEffect _ (Function.update v.proc.sess t {} s)
    by_cases hst : s = t
    · rw [hst, Function.update_self]
      exact .fresh
    · rw [Function.update_of_ne hst]
      exact .same _
  | @readSome _ _ t p _ bytes _ _ _ =>
    refine Or.inr (World.modify_effect (w := ⟨r, v.proc⟩) (f := fun x => x.deliver p bytes) ?_)
    exact .keep rfl rfl id
  | @written _ _ t ec _ hw =>
    by_cases hst : s = t
    · subst hst
      refine Or.inl ⟨ec, rfl, hw, ?_⟩
      show Function.update v.proc.sess s _ s = _
      rw [Function.update_self]
    · refine Or.inr ?_
      show SendEffect _ (Function.update v.proc.sess t _ s)
      rw [Function.update_of_ne hst]
      exact .same _
  | io _ _ hsem => exact Or.inr (World.sem_effect hsem s)
  | worker _ _ hsem => exact Or.inr (World.sem_effect hsem s)
  | rpc _ _ hsem => exact Or.inr (World.sem_effect hsem s)
  | _ => exact Or.inr (.same _)

/-! ### They run like links -/

/-- The session is that of a link after some run. -/
def Sess.Linked (x : Sess) : Prop :=
  ∃ tr l, Run Link.Step Link.init tr l ∧ l.sess = x

theorem SendEffect.linked {x y : Sess} (h : SendEffect x y) (hx : x.Linked) : y.Linked := by
  obtain ⟨tr, l, hr, rfl⟩ := hx
  cases h with
  | fresh => exact ⟨[], Link.init, .nil, rfl⟩
  | keep hque hw _ => exact ⟨_, _, .snoc hr (.other hque hw), rfl⟩
  | send msg msgid => exact ⟨_, _, .snoc hr .send, rfl⟩

/-- When a write completes, it first writes the rest of its buffer, unless it fails. -/
theorem linked_written {x : Sess} (hx : x.Linked) (hw : x.writes ≠ []) (ec : Bool) :
    Sess.Linked ({ x with writes := x.writes.tail }.handleWrite ec) := by
  obtain ⟨tr, l, hr, rfl⟩ := hx
  obtain ⟨-, done, part, -, -, ⟨hnil, -, -⟩ | ⟨node, rest, n, hque, hone, hpr, hn, -⟩⟩ :=
    Link.run_inv Link.inv_init hr
  · exact absurd hnil hw
  · have hi : l.sess.writes[0]? = some node := by rw [hone, List.getElem?_cons_zero]
    have hp : l.progress[0]? = some n := by rw [hpr, List.getElem?_cons_zero]
    have htail : l.sess.writes.tail = l.sess.writes.eraseIdx 0 := (List.eraseIdx_zero ..).symm
    rw [htail]
    have hrest : n + (node.wire.length - n) ≤ node.wire.length := by omega
    have hset : (l.progress.set 0 (n + (node.wire.length - n)))[0]?
        = some (n + (node.wire.length - n)) := by
      rw [hpr]
      rfl
    refine ⟨_, _, .snoc (.snoc hr (.transfer hi hp hrest)) (.complete hi hset ?_ rfl), rfl⟩
    intro _
    omega

/-- **In every run of a cluster every session runs like a link.** -/
theorem Cluster.run_link {J : JsonCpp} {redis : Redis} {tr : List (Cluster.Act × Cluster)} {c : Cluster}
    (h : Run (Cluster.Step J) (Cluster.init redis) tr c) (S : ServerName) (s : SessId) :
    ((c.server S).proc.sess s).Linked := by
  refine Cluster.run_server (P := fun v => (v.proc.sess s).Linked) ⟨[], Link.init, .nil, rfl⟩ ?_ h
  intro r v l r' v' hv hs
  rcases hs.effect s with ⟨ec, -, hw, heq⟩ | heff
  · rw [heq]
    exact linked_written hv hw ec
  · exact heff.linked hv

/-! ## When the queue is never stuck -/

namespace Sess

/-- Something is queued exactly if a write is outstanding. -/
def Sending (x : Sess) : Prop := x.sendQue ≠ [] ↔ x.writes ≠ []

/-- Unless the session is closed, its queue is not stuck. -/
def Flowing (x : Sess) : Prop := x.bClose = false → x.Sending

theorem Sending.send {x : Sess} (h : x.Sending) (msg : Bytes) (msgid : Int) :
    (x.send msg msgid).Sending := by
  by_cases ha : x.Accepts msg
  · obtain ⟨node, -, -, hsend⟩ := send_of_accepts msgid ha
    rw [hsend]
    by_cases hempty : x.sendQue = []
    · simp [Sending, hempty]
    · simpa [Sending, hempty] using h
  · rwa [send_of_not_accepts msgid ha]

theorem send_bClose (x : Sess) (msg : Bytes) (msgid : Int) :
    (x.send msg msgid).bClose = x.bClose := by
  obtain ⟨_, _, heq⟩ := x.send_eq msg msgid
  rw [heq]

/-- A write that completes without an error keeps the queue going. -/
theorem sending_written {x : Sess} (hx : x.Linked) (hw : x.writes ≠ []) :
    Sending ({ x with writes := x.writes.tail }.handleWrite false) := by
  obtain ⟨tr, l, hr, rfl⟩ := hx
  rcases Link.one_write hr with hnil | ⟨node, hone, -⟩
  · exact absurd hnil hw
  · unfold Sending handleWrite
    rw [hone]
    cases l.sess.sendQue.tail <;> simp

/-- A write that fails leaves its node at the front of the queue, and nothing is written any more. -/
theorem not_sending_written {x : Sess} (hx : x.Linked) (hw : x.writes ≠ []) :
    ¬ Sending ({ x with writes := x.writes.tail }.handleWrite true) := by
  obtain ⟨tr, l, hr, rfl⟩ := hx
  rcases Link.one_write hr with hnil | ⟨node, hone, hhead⟩
  · exact absurd hnil hw
  · have hque : l.sess.sendQue ≠ [] := by
      intro hnil
      rw [hnil] at hhead
      cases hhead
    intro hsend
    refine hsend.mp hque ?_
    show l.sess.writes.tail = []
    rw [hone, List.tail_cons]

end Sess

theorem SendEffect.flowing {x y : Sess} (h : SendEffect x y) (hx : x.Flowing) : y.Flowing := by
  intro hopen
  cases h with
  | fresh => exact iff_of_false (fun h => h rfl) (fun h => h rfl)
  | keep hque hw hclose =>
    have hx := hx (Bool.eq_false_iff.mpr fun hx => absurd (hclose hx) (by rw [hopen]; decide))
    unfold Sess.Sending
    rwa [hque, hw]
  | send msg msgid =>
    rw [Sess.send_bClose] at hopen
    exact (hx hopen).send msg msgid

variable {J : JsonCpp} {redis : Redis} {tr : List (Cluster.Act × Cluster)} {c : Cluster}

/-- **When the queue is never stuck.** In a run of a cluster, the queues of all open sessions keep going
throughout exactly if writes fail only on sessions that are closed. -/
theorem sending_iff (h : Run (Cluster.Step J) (Cluster.init redis) tr c) :
    Throughout (Cluster.Step J) (Cluster.init redis)
        (fun _ c => ∀ S s, ((c.server S).proc.sess s).Flowing) tr ↔
      Each (Cluster.Step J) (Cluster.init redis)
        (fun _ c a => ∀ S s, a = some (S, .written s true) →
          ((c.server S).proc.sess s).bClose = true) tr := by
  refine Run.throughout_iff_each ?_ ?_ h
  · intro S s _
    exact iff_of_false (fun h => h rfl) (fun h => h rfl)
  · intro tr c a c' hr hall hs
    have hflow := hall tr c hr (List.prefix_refl _)
    constructor
    · rintro hflow' S s rfl
      cases hs with
      | server _ hs =>
        cases hs with
        | written _ hw =>
          by_contra hopen
          have hx := hflow' S s
          simp only [Proc.modify, Function.update_self] at hx
          exact Sess.not_sending_written (Cluster.run_link hr S s) hw
            (hx (Bool.eq_false_iff.mpr hopen))
    · intro hclosed S s
      rcases hs.server_cases S with heq | ⟨l, rfl, hstep⟩
      · rw [heq]
        exact hflow S s
      · rcases hstep.effect s with ⟨ec, rfl, hw, heq⟩ | heff
        · rw [heq]
          cases ec with
          | true =>
            -- excluded by the condition: the session is closed
            intro hopen
            exact absurd (hclosed S s rfl) (Bool.eq_false_iff.mp hopen)
          | false => exact fun _ => Sess.sending_written (Cluster.run_link hr S s) hw
        · exact heff.flowing (hflow S s)

/-- A write of an open session that fails leaves its queue stuck. -/
theorem failed_write {S : ServerName} {s : SessId}
    (h : Run (Cluster.Step J) (Cluster.init redis) tr c) (hlive : (c.server S).crashed = false)
    (hio : (c.server S).io = none) (hw : ((c.server S).proc.sess s).writes ≠ [])
    (hopen : ((c.server S).proc.sess s).bClose = false) :
    ∃ c', Cluster.Step J c (some (S, .written s true)) c' ∧
      ¬ ((c'.server S).proc.sess s).Flowing := by
  refine ⟨_, .server hlive (.written hio hw), ?_⟩
  intro hflow
  simp only [Proc.modify, Function.update_self] at hflow
  exact Sess.not_sending_written (Cluster.run_link h S s) hw (hflow hopen)

/-- A user has logged in, and the write of the reply fails: the session is open, its queue holds the
reply, and no write is outstanding. -/
theorem sending_fails : ¬ ∀ (J : JsonCpp) (redis : Redis) (tr : List (Cluster.Act × Cluster))
    (c : Cluster), Run (Cluster.Step J) (Cluster.init redis) tr c →
    Throughout (Cluster.Step J) (Cluster.init redis)
      (fun _ c => ∀ S s, ((c.server S).proc.sess s).Flowing) tr := by
  intro h
  let moves := connects 0 ++ logsIn 0 7
  have hlive : ((stateAfter moves).server s1).crashed = false := by decide +kernel
  have hio : ((stateAfter moves).server s1).io.isNone = true := by decide +kernel
  have hw : (((stateAfter moves).server s1).proc.sess 0).writes ≠ [] := by decide +kernel
  have hopen : (((stateAfter moves).server s1).proc.sess 0).bClose = false := by decide +kernel
  obtain ⟨c, hstep, hstuck⟩ :=
    failed_write (runOf_run moves) hlive (Option.isNone_iff_eq_none.mp hio) hw hopen
  have hrun := Run.snoc (runOf_run moves) hstep
  exact hstuck (h _ _ _ _ hrun _ _ hrun (List.prefix_refl _) s1 0)

/-- The reply of a login is on its way. -/
theorem sending_login : ∃ tr c, Run (Cluster.Step loginTexts) (Cluster.init startRedis) tr c ∧
    ((c.server s1).proc.sess 0).writes ≠ [] ∧
    (Throughout (Cluster.Step loginTexts) (Cluster.init startRedis)
        (fun _ c => ∀ S s, ((c.server S).proc.sess s).Flowing) tr ↔
      Each (Cluster.Step loginTexts) (Cluster.init startRedis)
        (fun _ c a => ∀ S s, a = some (S, .written s true) →
          ((c.server S).proc.sess s).bClose = true) tr) := by
  let moves := connects 0 ++ logsIn 0 7
  refine ⟨runOf moves, stateAfter moves, runOf_run moves, ?_, sending_iff (runOf_run moves)⟩
  decide +kernel

end ChatServer
