import ChatServer.Sequential
import ChatServer.Lib.Framing

/-!
# Frames survive the wire

What one side sends with `CSession::send` is what the other side's `CSession` posts to its logic
queue, however the stream is cut (`framing_round_trip`).

The frames are those of `Lib.Framing` with a head of four bytes. A session that reads a stream
follows the byte-wise reader of that library: `Follows` relates the two, and `follows_step` says that
a completed read takes the session to where the reader is after the same bytes.
-/

namespace ChatServer

open Interaction Prog Transition Word CSession Framing

/-! ## Sending -/

theorem send_accepts {x : Sess} {body : Bytes} {id : Int} {node : SendNode}
    (h : (x.send body id).sendQue = x.sendQue ++ [node]) :
    1 ≤ body.length ∧ body.length ≤ maxLength ∧ SendNode.new body id = .ok node := by
  have hsame : x.sendQue ≠ x.sendQue ++ [node] := by
    intro he
    have := congrArg List.length he
    rw [List.length_append, List.length_singleton] at this
    omega
  unfold Sess.send Sess.sendBody at h
  split at h
  · exact absurd h hsame
  split at h
  · exact absurd h hsame
  split at h
  · exact absurd h hsame
  rename_i hlong _ hbound
  have hshort : toShort (body.length : Int) = body.length :=
    toShort_of_range ⟨by omega, by omega⟩
  rw [hshort, not_or] at hbound
  refine ⟨by omega, by omega, ?_⟩
  cases hnew : SendNode.new body id with
  | error e =>
    rw [hnew] at h
    exact absurd h hsame
  | ok node' =>
    rw [hnew] at h
    have hque : x.sendQue ++ [node'] = x.sendQue ++ [node] := by
      dsimp only at h
      split at h
      · exact h
      · exact h
    rw [List.append_cancel_left_eq] at hque
    cases hque
    rfl

/-- A message that `CSession::send` has accepted, with the node it was put into. The message id is
one that the reader lets pass. -/
structure Message where
  body : Bytes
  msgId : Int
  node : SendNode
  isShort : IsShort msgId
  idBound : msgId ≤ maxLength
  sent : ∃ x : Sess, (x.send body msgId).sendQue = x.sendQue ++ [node]

namespace Message

theorem body_pos (m : Message) : 1 ≤ m.body.length := by
  obtain ⟨x, hx⟩ := m.sent
  exact (send_accepts hx).1

theorem body_le (m : Message) : m.body.length ≤ maxLength := by
  obtain ⟨x, hx⟩ := m.sent
  exact (send_accepts hx).2.1

theorem isShort_length (m : Message) : IsShort m.body.length := by
  have hle : m.body.length ≤ 2048 := m.body_le
  exact ⟨by omega, by omega⟩

theorem node_eq (m : Message) : SendNode.new m.body m.msgId = .ok m.node := by
  obtain ⟨x, hx⟩ := m.sent
  exact (send_accepts hx).2.2

theorem node_totalLen (m : Message) : m.node.totalLen = headTotalLen + m.body.length := by
  obtain ⟨node, hnode, htotal, -⟩ := sendNode_new_wire m.msgId m.body_le
  rw [m.node_eq] at hnode
  cases hnode
  exact htotal

theorem node_wire (m : Message) : m.node.wire =
    hostToNetworkShort m.msgId ++ hostToNetworkShort m.body.length ++ m.body := by
  obtain ⟨node, hnode, -, -, hwire⟩ := sendNode_new_wire m.msgId m.body_le
  rw [m.node_eq] at hnode
  cases hnode
  exact hwire

end Message

/-! ## Headers -/

theorem headMsgId_encode {id len : Int} (h : IsShort id) :
    headMsgId (hostToNetworkShort id ++ hostToNetworkShort len) = id := by
  unfold headMsgId
  exact networkToHostShort_hostToNetworkShort h

theorem headMsgLen_encode {id len : Int} (h : IsShort len) :
    headMsgLen (hostToNetworkShort id ++ hostToNetworkShort len) = len := by
  unfold headMsgLen
  exact networkToHostShort_hostToNetworkShort h

theorem getD_take {data : Bytes} {n i : Nat} (h : i < n) :
    (data.take n).getD i 0 = data.getD i 0 := by
  simp [List.getD_eq_getElem?_getD, h]

/-- The header is decoded from the first four bytes of the buffer. -/
theorem headMsgId_take (data : Bytes) : headMsgId (data.take headTotalLen) = headMsgId data := by
  unfold headMsgId
  rw [getD_take (by decide), getD_take (by decide)]

theorem headMsgLen_take (data : Bytes) : headMsgLen (data.take headTotalLen) = headMsgLen data := by
  unfold headMsgLen
  rw [getD_take (by decide), getD_take (by decide)]

/-- The frames of the protocol: four bytes, and as many as `msg_len` says. -/
def layout : Layout UInt8 where
  headLen := headTotalLen
  bodyLen head := (headMsgLen head).toNat
  headLen_pos := by decide

/-- A message as a frame. -/
def Message.frame (m : Message) : Frame layout where
  head := hostToNetworkShort m.msgId ++ hostToNetworkShort m.body.length
  body := m.body
  head_length := rfl
  body_length := by
    show m.body.length
      = (headMsgLen (hostToNetworkShort m.msgId ++ hostToNetworkShort m.body.length)).toNat
    rw [headMsgLen_encode m.isShort_length, Int.toNat_natCast]

theorem Message.frame_encode (m : Message) : m.frame.encode = m.node.wire := by
  rw [m.node_wire]
  rfl

theorem Message.headMsgId_frame (m : Message) : headMsgId m.frame.head = m.msgId :=
  headMsgId_encode m.isShort

theorem Message.headMsgLen_frame (m : Message) : headMsgLen m.frame.head = m.body.length :=
  headMsgLen_encode m.isShort_length

/-- A header that the reader accepts and that announces a body. -/
structure GoodHead (head : Bytes) : Prop where
  msgId : headMsgId head ≤ maxLength
  pos : 0 < headMsgLen head
  le : headMsgLen head ≤ maxLength

theorem Message.goodHead (m : Message) : GoodHead m.frame.head := by
  have hpos := m.body_pos
  have hle := m.body_le
  refine ⟨?_, ?_, ?_⟩
  · rw [m.headMsgId_frame]
    exact m.idBound
  · rw [m.headMsgLen_frame]
    omega
  · rw [m.headMsgLen_frame]
    omega

theorem toSizeT_headMsgLen {head : Bytes} (h : GoodHead head) :
    toSizeT (headMsgLen head) = (headMsgLen head).toNat := by
  have hle : headMsgLen head ≤ 2048 := h.le
  have hpos := h.pos
  exact toSizeT_of_nonneg (by omega) (by omega)

/-! ## One part in the buffer -/

/-- The session is reading a part of `n` bytes: `got` of it stands at the beginning of the buffer,
and one read is outstanding, for the rest. -/
structure Buffered (got : Bytes) (n : Nat) (handler : ReadHandler) (x : Sess) : Prop where
  data_length : x.data.length = maxLength
  lt : got.length < n
  le : n ≤ maxLength
  take : x.data.take got.length = got
  reads : x.reads = [{ readLen := got.length, totalLen := n, handler := handler }]

namespace Buffered

variable {got : Bytes} {n : Nat} {handler : ReadHandler} {x : Sess} {p : PendingRead}

theorem start (hreads : x.reads = []) (hpos : 0 < n) (hle : n ≤ maxLength) :
    Buffered [] n handler (x.startRead n handler) := by
  refine ⟨List.length_replicate, hpos, hle, rfl, ?_⟩
  show x.reads ++ _ = _
  rw [hreads]
  rfl

theorem eq_of_mem (h : Buffered got n handler x) (hp : p ∈ x.reads) :
    p = { readLen := got.length, totalLen := n, handler := handler } := by
  rw [h.reads, List.mem_singleton] at hp
  exact hp

/-- After a delivery the buffer begins with all that has been read of the part. -/
theorem deliver_take (h : Buffered got n handler x) (hp : p ∈ x.reads) (bytes : Bytes) :
    (x.deliver p bytes).data.take (got.length + bytes.length) = got ++ bytes := by
  obtain rfl := h.eq_of_mem hp
  show (x.data.take got.length ++ bytes ++ x.data.drop (got.length + bytes.length)).take
    (got.length + bytes.length) = got ++ bytes
  rw [h.take]
  exact List.take_left' (by rw [List.length_append])

theorem deliver_reads (h : Buffered got n handler x) (hp : p ∈ x.reads) (bytes : Bytes) :
    (x.deliver p bytes).reads = [] := by
  obtain rfl := h.eq_of_mem hp
  show x.reads.erase _ = []
  rw [h.reads, List.erase_cons_head]

/-- A delivery that leaves the part incomplete. -/
theorem more {self : ServerName} {s : SessId} {w w' : World} {bytes : Bytes}
    (h : Buffered got n handler (w.proc.sess s)) (hs : ReadSome self s w (p, false, bytes) w')
    (hlt : got.length + bytes.length < n) :
    Buffered (got ++ bytes) n handler (w'.proc.sess s) ∧
      (w'.proc.sess s).recvMsgNode = (w.proc.sess s).recvMsgNode ∧
      w'.proc.msgQue = w.proc.msgQue := by
  obtain ⟨hp, -, hexec⟩ := hs
  have htake := h.deliver_take hp bytes
  have hreads := h.deliver_reads hp bytes
  obtain rfl := h.eq_of_mem hp
  rw [exec_readCallback_more hlt hexec]
  have hlen : (got ++ bytes).length = got.length + bytes.length := List.length_append
  have hle := h.le
  have hdata := h.data_length
  refine ⟨⟨?_, by omega, hle, ?_, ?_⟩, ?_, rfl⟩
  · rw [World.modify_sess, World.modify_sess]
    show ((w.proc.sess s).data.take got.length ++ bytes
      ++ (w.proc.sess s).data.drop (got.length + bytes.length)).length = maxLength
    simp only [List.length_append, List.length_take, List.length_drop]
    omega
  · rw [World.modify_sess, World.modify_sess, hlen]
    exact htake
  · rw [World.modify_sess, World.modify_sess, hlen]
    show ((w.proc.sess s).deliver _ bytes).reads ++ _ = _
    rw [hreads]
    rfl
  · rw [World.modify_sess, World.modify_sess]
    rfl

end Buffered

/-! ## The session follows the reader -/

/-- The session reads the same part as the reader and has as much of it in its buffer. -/
def Reading : FramePart UInt8 → Sess → Prop
  | .head got, x => Buffered got headTotalLen .head x
  | .body head got, x =>
    GoodHead head ∧ Buffered got (headMsgLen head).toNat (.body (headMsgLen head)) x ∧
      ∃ node, x.recvMsgNode = some node ∧
        RecvNode.new (headMsgLen head) (headMsgId head) = .ok node

/-- What stands in a logic queue: session, message id and text of each node. -/
def posted (que : List LogicNode) : List (SessId × Int × Bytes) :=
  que.map fun n => (n.session, n.recvNode.msgId, n.recvNode.text)

/-- The session `s` is where the reader is, and the frames the reader has got were posted behind
`before`. -/
structure Follows (s : SessId) (before : List (SessId × Int × Bytes)) (r : Reader UInt8)
    (w : World) : Prop where
  reading : Reading r.part (w.proc.sess s)
  posted_eq : posted w.proc.msgQue = before ++ r.out.map fun f => (s, headMsgId f.1, f.2)

section Step

variable {self : ServerName} {s : SessId} {before : List (SessId × Int × Bytes)} {w w' : World}
  {p : PendingRead} {bytes : Bytes} {out : List (Bytes × Bytes)}

/-- The last bytes of a header: its node is stored and the read of the body is started. -/
theorem follows_head_complete {got : Bytes} (h : Follows s before ⟨out, .head got⟩ w)
    (hs : ReadSome self s w (p, false, bytes) w')
    (hlen : got.length + bytes.length = headTotalLen) (hgood : GoodHead (got ++ bytes)) :
    Follows s before ⟨out, .body (got ++ bytes) []⟩ w' := by
  obtain ⟨hbuf, hposted⟩ := h
  have hbuf : Buffered got headTotalLen .head (w.proc.sess s) := hbuf
  obtain ⟨hp, -, hexec⟩ := hs
  have htake := hbuf.deliver_take hp bytes
  have hreads := hbuf.deliver_reads hp bytes
  obtain rfl := hbuf.eq_of_mem hp
  rw [readCallback_complete (Nat.le_of_eq hlen.symm)] at hexec
  obtain ⟨r, tr', hexec⟩ := exec_headHandler (Nat.le_of_eq hlen.symm) hexec
  rw [World.modify_sess] at hexec
  generalize hx : (w.proc.sess s).deliver _ bytes = x at htake hreads hexec
  -- The header in the buffer is the one the reader has completed.
  rw [hlen] at htake
  have hid : headMsgId x.data = headMsgId (got ++ bytes) := by rw [← headMsgId_take, htake]
  have hmsgLen : headMsgLen x.data = headMsgLen (got ++ bytes) := by rw [← headMsgLen_take, htake]
  have hpos := hgood.pos
  obtain ⟨node, hnode⟩ := recvNode_new_of_nonneg (headMsgId (got ++ bytes))
    (show 0 ≤ headMsgLen (got ++ bytes) by omega)
  have hexec := exec_acceptHead (by rw [hid]; exact hgood.msgId) (by rw [hmsgLen]; exact hgood.le)
    (by rw [hid, hmsgLen]; exact hnode) hexec
  rw [hmsgLen, toSizeT_headMsgLen hgood] at hexec
  subst hexec
  refine ⟨⟨hgood, ?_, node, ?_, hnode⟩, hposted⟩
  · rw [World.modify_sess, World.modify_sess, hx]
    have hle : headMsgLen (got ++ bytes) ≤ 2048 := hgood.le
    exact Buffered.start hreads (by omega) (by show _ ≤ 2048; omega)
  · rw [World.modify_sess, World.modify_sess]
    rfl

/-- The last bytes of a body: the frame is posted and the read of the next header is started. -/
theorem follows_body_complete {head got : Bytes} (h : Follows s before ⟨out, .body head got⟩ w)
    (hs : ReadSome self s w (p, false, bytes) w')
    (hlen : got.length + bytes.length = (headMsgLen head).toNat) :
    Follows s before ⟨out ++ [(head, got ++ bytes)], .head []⟩ w' := by
  obtain ⟨⟨hgood, hbuf, node, hrecv, hnode⟩, hposted⟩ := h
  obtain ⟨hp, -, hexec⟩ := hs
  have htake := hbuf.deliver_take hp bytes
  have hreads := hbuf.deliver_reads hp bytes
  obtain rfl := hbuf.eq_of_mem hp
  rw [readCallback_complete (Nat.le_of_eq hlen.symm)] at hexec
  obtain ⟨hcur, htotal, -, hid⟩ := recvNode_new_ok hnode
  have hpos := hgood.pos
  have hle : headMsgLen head ≤ 2048 := hgood.le
  -- The node is filled with what the reader has got of the body.
  have htext : (node.fill (got ++ bytes)).text = got ++ bytes := by
    refine text_fill hcur ?_ ?_
    · rw [htotal, List.length_append]
      omega
    · rw [List.length_append]
      omega
  have hsize : toSizeT (headMsgLen head) ≤ got.length + bytes.length := by
    rw [toSizeT_headMsgLen hgood, hlen]
  have hsame := World.modify_sess w s fun x => x.deliver
    { readLen := got.length, totalLen := (headMsgLen head).toNat,
      handler := .body (headMsgLen head) } bytes
  obtain ⟨hsess, hque⟩ := exec_bodyHandler hsize ((congrArg Sess.recvMsgNode hsame).trans hrecv)
    ((congrArg (fun x : Sess => x.data.take _) hsame).trans htake) hexec
  refine ⟨?_, ?_⟩
  · show Buffered [] headTotalLen .head (w'.proc.sess s)
    rw [hsess, World.modify_sess]
    exact Buffered.start hreads (by decide) (by decide)
  · rw [hque, World.modify_msgQue]
    show posted (w.proc.msgQue ++ [_]) = _
    unfold posted at hposted ⊢
    rw [List.map_append, hposted, List.map_append, List.append_assoc]
    show before ++ (_ ++ [(s, node.msgId, (node.fill (got ++ bytes)).text)]) = _
    rw [htext, hid]
    rfl

/-- **A completed read takes the session to where the reader is after the same bytes**, if the
header it may complete is a good one. -/
theorem follows_step {r : Reader UInt8} (h : Follows s before r w)
    (hs : ReadSome self s w (p, false, bytes) w')
    (hgood : ∀ got, r.part = .head got → got.length + bytes.length = headTotalLen →
      GoodHead (got ++ bytes)) :
    Follows s before (feeds layout r bytes) w' := by
  obtain ⟨out, part⟩ := r
  have hcompletes : p ∈ (w.proc.sess s).reads ∧ p.Completes false bytes := by
    obtain ⟨hp, hc, -⟩ := hs
    exact ⟨hp, hc⟩
  obtain ⟨hp, hle, hne⟩ := hcompletes
  cases part with
  | head got =>
    have hbuf : Buffered got headTotalLen .head (w.proc.sess s) := h.reading
    obtain rfl := hbuf.eq_of_mem hp
    have hlt := hbuf.lt
    have hle : bytes.length ≤ headTotalLen - got.length := hle
    rcases Nat.lt_or_ge (got.length + bytes.length) headTotalLen with hmore | hfull
    · obtain ⟨hbuf', -, hque⟩ := hbuf.more hs hmore
      rw [feeds_head_lt out got hmore]
      exact ⟨hbuf', by rw [hque]; exact h.posted_eq⟩
    · have hlen : got.length + bytes.length = headTotalLen := by omega
      have hg := hgood got rfl hlen
      have hpos := hg.pos
      rw [feeds_head_eq out got (hne rfl hlt) hlen (by show (headMsgLen _).toNat ≠ 0; omega)]
      exact follows_head_complete h hs hlen hg
  | body head got =>
    obtain ⟨hg, hbuf, hnode⟩ := h.reading
    obtain rfl := hbuf.eq_of_mem hp
    have hlt := hbuf.lt
    have hle : bytes.length ≤ (headMsgLen head).toNat - got.length := hle
    rcases Nat.lt_or_ge (got.length + bytes.length) (headMsgLen head).toNat with hmore | hfull
    · obtain ⟨hbuf', hrecv, hque⟩ := hbuf.more hs hmore
      rw [feeds_body_lt out got hmore]
      refine ⟨⟨hg, hbuf', ?_⟩, by rw [hque]; exact h.posted_eq⟩
      rw [hrecv]
      exact hnode
    · have hlen : got.length + bytes.length = (headMsgLen head).toNat := by omega
      rw [feeds_body_eq out got (hne rfl hlt) hlen]
      exact follows_body_complete h hs hlen

end Step

/-! ## The round trip -/

/-- Reads of the session `s` that complete without an error. -/
def Delivery (self : ServerName) (s : SessId) (w : World) (l : PendingRead × Bytes) (w' : World) :
    Prop := ReadSome self s w (l.1, false, l.2) w'

/-- The bytes delivered in a run. -/
def received (rs : List ((PendingRead × Bytes) × World)) : Bytes := rs.flatMap fun l => l.1.2

theorem received_snoc (rs : List ((PendingRead × Bytes) × World)) (l : PendingRead × Bytes)
    (w : World) : received (rs ++ [(l, w)]) = received rs ++ l.2 := by
  simp [received]

/-- The frames of a list of messages. -/
def frames (msgs : List Message) : List (Frame layout) := msgs.map Message.frame

theorem encode_frames (msgs : List Message) :
    encode (frames msgs) = msgs.flatMap fun m => m.node.wire := by
  induction msgs with
  | nil => rfl
  | cons m msgs ih =>
    show m.frame.encode ++ encode (frames msgs) = m.node.wire ++ _
    rw [ih, m.frame_encode]
    rfl

/-- While a session reads a stream of frames, it follows the reader. -/
theorem follows_run {self : ServerName} {s : SessId} {w w₀ w₁ : World} {tr : List (Event calls)}
    (hreads : (w.proc.sess s).reads = [])
    (hstart : Exec (World.sem false) (CSession.start s) w tr () w₀) {msgs : List Message}
    {rs : List ((PendingRead × Bytes) × World)} (hrun : Run (Delivery self s) w₀ rs w₁)
    (hpre : received rs <+: encode (frames msgs)) :
    Follows s (posted w.proc.msgQue) (feeds layout Reader.start (received rs)) w₁ := by
  have hfirst : Follows s (posted w.proc.msgQue) Reader.start w₀ := by
    rw [exec_asyncReadFull hstart]
    refine ⟨?_, (List.append_nil _).symm⟩
    show Buffered [] headTotalLen .head _
    rw [World.modify_sess]
    exact Buffered.start hreads (by decide) (by decide)
  revert hpre
  refine Run.invariant (P := fun rs w₁ => received rs <+: encode (frames msgs) →
    Follows s (posted w.proc.msgQue) (feeds layout Reader.start (received rs)) w₁)
    (fun _ => hfirst) ?_ hrun
  intro rs w₁ l w₂ _ ih hs hpre
  rw [received_snoc] at hpre
  have hbefore := ih ((List.prefix_append _ _).trans hpre)
  rw [received_snoc, feeds_append]
  refine follows_step hbefore hs fun got hpart hlen => ?_
  -- A header is only completed by the header of one of the messages.
  have hne : l.2 ≠ [] := by
    intro hnil
    have hbuf : Buffered got headTotalLen .head (w₁.proc.sess s) := by
      have hr := hbefore.reading
      rw [hpart] at hr
      exact hr
    have hlt := hbuf.lt
    rw [hnil, List.length_nil] at hlen
    omega
  obtain ⟨f, hf, hhead⟩ := head_mem_of_prefix [] hpre hpart hne hlen
  obtain ⟨m, -, rfl⟩ := List.mem_map.mp hf
  rw [← hhead]
  exact m.goodHead

/-- **Framing round trip.** A session that has been started reads the frames of `msgs` and then an
incomplete frame, in chunks of any size: it posts the messages in their order, each once and with
its bytes, and nothing else; a read for the rest is outstanding; and no frame length overflows. -/
theorem framing_round_trip (self : ServerName) (s : SessId) (w w₀ w₁ : World)
    (tr : List (Event calls)) (hreads : (w.proc.sess s).reads = [])
    (hstart : Exec (World.sem false) (CSession.start s) w tr () w₀)
    (msgs : List Message) (last : Message) (tail : Bytes) (htail : tail <+: last.node.wire)
    (hne : tail ≠ last.node.wire) (rs : List ((PendingRead × Bytes) × World))
    (hrun : Run (Delivery self s) w₀ rs w₁)
    (hbytes : received rs = msgs.flatMap (fun m => m.node.wire) ++ tail) :
    posted w₁.proc.msgQue
        = posted w.proc.msgQue ++ msgs.map (fun m => (s, m.msgId, m.body)) ∧
      (∃ p, (w₁.proc.sess s).reads = [p] ∧ p.readLen < p.totalLen) ∧
      ∀ m ∈ last :: msgs, m.node.totalLen = headTotalLen + m.body.length := by
  have hstream : received rs = encode (frames msgs) ++ tail := by rw [encode_frames, hbytes]
  have hpre : received rs <+: encode (frames (msgs ++ [last])) := by
    rw [hstream, encode_frames, encode_frames, List.flatMap_append]
    refine (List.prefix_append_right_inj _).mpr ?_
    rw [List.flatMap_singleton]
    exact htail
  have hfollows := follows_run hreads hstart hrun hpre
  rw [hstream, feeds_append, Reader.start, feeds_encode] at hfollows
  refine ⟨?_, ?_, fun m _ => m.node_totalLen⟩
  · rw [hfollows.posted_eq]
    rw [← last.frame_encode] at htail hne
    rw [feeds_incomplete _ last.frame htail hne, List.nil_append, frames, List.map_map, List.map_map]
    congr 1
    refine List.map_congr_left fun m _ => ?_
    show (s, headMsgId m.frame.head, m.body) = _
    rw [m.headMsgId_frame]
  · generalize feeds layout _ tail = r at hfollows
    obtain ⟨out, part⟩ := r
    cases part with
    | head got =>
      have hbuf : Buffered got headTotalLen .head (w₁.proc.sess s) := hfollows.reading
      exact ⟨_, hbuf.reads, hbuf.lt⟩
    | body head got =>
      obtain ⟨-, hbuf, -⟩ := hfollows.reading
      exact ⟨_, hbuf.reads, hbuf.lt⟩

/-! ## Running the reader -/

/-- Start the session `s`. -/
def runStart (s : SessId) (w : World) : World :=
  ((CSession.start s).run (World.interpret World.noAnswer) w).2

/-- Complete the outstanding read of `s` with these bytes and run its callback. -/
def runDelivery (self : ServerName) (s : SessId) (w : World) (bytes : Bytes) : World :=
  match (w.proc.sess s).reads with
  | [] => w
  | p :: _ =>
    ((readCallback self s p false bytes.length).run (World.interpret World.noAnswer)
      (w.modify s fun x => x.deliver p bytes)).2

theorem exec_runStart (s : SessId) (w : World) :
    ∃ tr, Exec (World.sem false) (CSession.start s) w tr () (runStart s w) :=
  exec_run (World.sem_interpret false World.noAnswer) (CSession.start s) w

theorem delivery_runDelivery (self : ServerName) {s : SessId} {w : World} {bytes : Bytes}
    {p : PendingRead} (h : (w.proc.sess s).reads = [p]) (hc : p.Completes false bytes) :
    Delivery self s w (p, bytes) (runDelivery self s w bytes) := by
  obtain ⟨tr, htr⟩ := exec_run (World.sem_interpret false World.noAnswer)
    (readCallback self s p false bytes.length) (w.modify s fun x => x.deliver p bytes)
  unfold runDelivery
  rw [h]
  exact .step (by rw [h]; exact List.mem_singleton_self p) hc htr

/-- The message 2001 with a body of one byte. -/
def oneByte : Message where
  body := [104]
  msgId := 2001
  node := { curLen := 5, totalLen := 5, data := [7, 209, 0, 1, 104, 0], msgId := 2001 }
  isShort := by decide
  idBound := by decide
  sent := ⟨{}, by decide +kernel⟩

/-- One message whose header arrives in two pieces, and the first byte of another. -/
theorem framing_round_trip_one :
    let w₀ := runStart 0 World.init
    let w₁ := runDelivery ⟨[], by decide⟩ 0 w₀ [7, 209]
    let w₂ := runDelivery ⟨[], by decide⟩ 0 w₁ [0, 1]
    let w₃ := runDelivery ⟨[], by decide⟩ 0 w₂ [104]
    let w₄ := runDelivery ⟨[], by decide⟩ 0 w₃ [7]
    posted w₄.proc.msgQue = [(0, 2001, [104])] := by
  intro w₀ w₁ w₂ w₃ w₄
  obtain ⟨tr, hstart⟩ := exec_runStart 0 World.init
  have h₁ : Delivery ⟨[], by decide⟩ 0 w₀ (⟨0, 4, .head⟩, [7, 209]) w₁ :=
    delivery_runDelivery _ (by decide +kernel) ⟨by decide, fun _ _ => by decide⟩
  have h₂ : Delivery ⟨[], by decide⟩ 0 w₁ (⟨2, 4, .head⟩, [0, 1]) w₂ :=
    delivery_runDelivery _ (by decide +kernel) ⟨by decide, fun _ _ => by decide⟩
  have h₃ : Delivery ⟨[], by decide⟩ 0 w₂ (⟨0, 1, .body 1⟩, [104]) w₃ :=
    delivery_runDelivery _ (by decide +kernel) ⟨by decide, fun _ _ => by decide⟩
  have h₄ : Delivery ⟨[], by decide⟩ 0 w₃ (⟨0, 4, .head⟩, [7]) w₄ :=
    delivery_runDelivery _ (by decide +kernel) ⟨by decide, fun _ _ => by decide⟩
  exact (framing_round_trip ⟨[], by decide⟩ 0 World.init w₀ w₄ tr rfl hstart [oneByte] oneByte [7]
    (by decide) (by decide) _ ((((Run.nil.snoc h₁).snoc h₂).snoc h₃).snoc h₄) rfl).1

end ChatServer
