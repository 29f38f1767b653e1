import ChatServer.Domain

/-!
# Message nodes

`net/MsgNode.cpp`: the buffers that carry one frame, received (`RecvNode`) or to be sent
(`SendNode`). Lengths are kept as the `short` values of the source. A node's `data` is the array
that `new char[total_len + 1]` allocates, so its length is the allocation size.
-/

namespace ChatServer

open Word

/-- A write of one byte at a signed index. Outside the array it is undefined behaviour, and here it
leaves the array as it is; `InBounds` says when it is inside. -/
def poke (data : Bytes) (i : Int) (c : UInt8) : Bytes :=
  if i < 0 then data else data.set i.toNat c

/-- The index lies inside the array. -/
def InBounds (data : Bytes) (i : Int) : Prop := 0 ≤ i ∧ i < data.length

@[simp] theorem poke_length (data : Bytes) (i : Int) (c : UInt8) :
    (poke data i c).length = data.length := by
  unfold poke
  split <;> simp

/-- `memcpy(dst, src, src.length)`. Copying more than `dst` holds is undefined behaviour. -/
def memcpy (dst src : Bytes) : Bytes := src ++ dst.drop src.length

/-- `MsgNode`. -/
structure MsgNode where
  curLen : Int
  totalLen : Int
  data : Bytes
  deriving DecidableEq, Repr

/-- `MsgNode::MsgNode`. The size `total_len + 1` is an `int`; a negative one makes the
new-expression throw. -/
def MsgNode.new (total_len : Int) : Except Exn MsgNode :=
  if total_len + 1 < 0 then .error .badArrayNewLength
  else .ok
    { curLen := 0
      totalLen := total_len
      data := poke (List.replicate (total_len + 1).toNat 0) total_len 0 }

/-- `RecvNode`. -/
structure RecvNode extends MsgNode where
  msgId : Int
  deriving DecidableEq, Repr

/-- `RecvNode::RecvNode`. -/
def RecvNode.new (body_len msg_id : Int) : Except Exn RecvNode :=
  match MsgNode.new body_len with
  | .error e => .error e
  | .ok node => .ok { node with msgId := msg_id }

/-- What `AsyncReadBody` does to the node: copy the body, advance `_cur_len`, put a NUL behind the
body. -/
def RecvNode.fill (node : RecvNode) (body : Bytes) : RecvNode :=
  let data := memcpy node.data body
  { node with
    curLen := toShort (body.length + node.curLen)
    data := poke data node.totalLen 0 }

/-- The message text that `dealMsg` passes on: `std::string(getData(), getCurLen())`. -/
def RecvNode.text (node : RecvNode) : Bytes := node.data.take node.curLen.toNat

/-- `SendNode`. -/
structure SendNode extends MsgNode where
  msgId : Int
  deriving DecidableEq, Repr

/-- `SendNode::SendNode`: message id, body length and body, the two header fields in network byte
order. -/
def SendNode.new (body : Bytes) (msg_id : Int) : Except Exn SendNode :=
  let body_len : Int := body.length
  match MsgNode.new (toShort (headTotalLen + body_len)) with
  | .error e => .error e
  | .ok node =>
    let head := hostToNetworkShort msg_id ++ hostToNetworkShort body_len
    .ok
      { curLen := node.totalLen
        totalLen := node.totalLen
        data := memcpy node.data (head ++ body)
        msgId := msg_id }

/-- The bytes that `async_write` puts on the wire: the first `getTotalLen()` bytes of the node. -/
def SendNode.wire (node : SendNode) : Bytes := node.data.take node.totalLen.toNat

/-! ## Allocation -/

theorem msgNode_new_of_nonneg {n : Int} (h : 0 ≤ n) :
    ∃ node, MsgNode.new n = .ok node ∧ node.curLen = 0 ∧ node.totalLen = n ∧
      node.data.length = n.toNat + 1 := by
  refine ⟨_, if_neg (by omega), rfl, rfl, ?_⟩
  simp only [poke_length, List.length_replicate]
  omega

/-- The allocation size of a node that could be made is `total_len + 1`. -/
theorem msgNode_new_ok {n : Int} {node : MsgNode} (h : MsgNode.new n = .ok node) :
    node.curLen = 0 ∧ node.totalLen = n ∧ (node.data.length : Int) = n + 1 := by
  unfold MsgNode.new at h
  split at h
  · cases h
  · cases h
    refine ⟨rfl, rfl, ?_⟩
    simp only [poke_length, List.length_replicate]
    omega

theorem recvNode_new_ok {n id : Int} {node : RecvNode} (h : RecvNode.new n id = .ok node) :
    node.curLen = 0 ∧ node.totalLen = n ∧ (node.data.length : Int) = n + 1 ∧
      node.msgId = id := by
  unfold RecvNode.new at h
  split at h
  · cases h
  · rename_i m hm
    cases h
    obtain ⟨hc, ht, hd⟩ := msgNode_new_ok hm
    exact ⟨hc, ht, hd, rfl⟩

theorem recvNode_new_of_nonneg {n : Int} (id : Int) (h : 0 ≤ n) :
    ∃ node, RecvNode.new n id = .ok node := by
  obtain ⟨m, hm, _⟩ := msgNode_new_of_nonneg h
  exact ⟨{ m with msgId := id }, by simp [RecvNode.new, hm]⟩

theorem recvNode_new_error_iff {n id : Int} :
    (∃ e, RecvNode.new n id = .error e) ↔ n < -1 := by
  constructor
  · rintro ⟨e, h⟩
    unfold RecvNode.new MsgNode.new at h
    by_contra hn
    rw [if_neg (by omega)] at h
    cases h
  · intro h
    refine ⟨.badArrayNewLength, ?_⟩
    unfold RecvNode.new MsgNode.new
    rw [if_pos (by omega)]

/-! ## What a filled node and a send node hold -/

/-- A body that fills its node comes out of it again. -/
theorem text_fill {node : RecvNode} {body : Bytes} (hc : node.curLen = 0)
    (ht : node.totalLen = body.length) (hlen : (body.length : Int) ≤ 32767) :
    (node.fill body).text = body := by
  have hcur : toShort ((body.length : Int) + node.curLen) = body.length := by
    rw [hc, Int.add_zero]
    exact toShort_of_range ⟨by omega, hlen⟩
  simp only [RecvNode.text, RecvNode.fill, hcur, poke, ht, Int.toNat_natCast]
  rw [if_neg (by omega), List.take_set_of_le (by omega), memcpy, List.take_left]

/-- **The frame of a message.** The send node of a body of at most 2048 bytes exists, its length
does not overflow `short`, and its bytes on the wire are the four header bytes and the body. -/
theorem sendNode_new_wire {body : Bytes} (id : Int) (h : body.length ≤ maxLength) :
    ∃ node, SendNode.new body id = .ok node ∧
      node.totalLen = headTotalLen + body.length ∧ node.msgId = id ∧
      node.wire = hostToNetworkShort id ++ hostToNetworkShort body.length ++ body := by
  have hmax : maxLength = 2048 := rfl
  have hhead : (headTotalLen : Int) = 4 := rfl
  have hshort : toShort (headTotalLen + (body.length : Int)) = headTotalLen + body.length :=
    toShort_of_range ⟨by omega, by omega⟩
  obtain ⟨m, hm, -, ht, -⟩ :=
    msgNode_new_of_nonneg (show (0 : Int) ≤ headTotalLen + body.length by omega)
  refine ⟨{ curLen := m.totalLen
            totalLen := m.totalLen
            data := memcpy m.data
              ((hostToNetworkShort id ++ hostToNetworkShort body.length) ++ body)
            msgId := id }, ?_, ht, rfl, ?_⟩
  · unfold SendNode.new
    dsimp only
    rw [hshort]
    generalize MsgNode.new (headTotalLen + body.length) = r at hm ⊢
    subst hm
    rfl
  · have hlen : (headTotalLen + (body.length : Int)).toNat
        = (hostToNetworkShort id ++ hostToNetworkShort body.length ++ body).length := by
      simp only [List.length_append, hostToNetworkShort_length]
      omega
    simp only [SendNode.wire, ht, hlen, memcpy, List.take_left]

end ChatServer
