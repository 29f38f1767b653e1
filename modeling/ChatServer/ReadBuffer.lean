import ChatServer.Sequential

/-!
# The receive buffer

Whether the reads that follow a header stay inside `_data` and inside the node allocated for the
body. `AsyncReadHead` checks `msg_len` against its upper bound only. `headSafe_iff` says which
headers are safe: those it rejects and those whose `msg_len` is not negative.
-/

namespace ChatServer

open Interaction Prog Transition Word CSession

/-- The window handed to `async_read_some` lies inside `_data`. -/
def PendingRead.InBuffer (p : PendingRead) : Prop :=
  p.readLen ≤ p.totalLen ∧ p.totalLen ≤ maxLength

/-- The copy of `n` bytes into the stored node fits, and so does the NUL behind the body. -/
def CopyFits (x : Sess) (n : Nat) : Prop :=
  ∃ node, x.recvMsgNode = some node ∧ n ≤ node.data.length ∧ InBounds node.data node.totalLen

/-- A read that leaves a body incomplete. -/
inductive PartialRead (self : ServerName) (s : SessId) :
    World → PendingRead × Bytes → World → Prop where
  | step {w w' : World} {p : PendingRead} {bytes : Bytes} :
      p.readLen + bytes.length < p.totalLen → ReadSome self s w (p, false, bytes) w' →
      PartialRead self s w (p, bytes) w'

/-- The calls forget the session, which is how a header is rejected. -/
def Rejects (s : SessId) (tr : List (Event calls)) : Prop := (⟨.clearSession s, ()⟩ : Event calls) ∈ tr

/-- The calls store the node for a body. -/
def Stores (s : SessId) (tr : List (Event calls)) (node : RecvNode) : Prop :=
  (⟨.setRecvNode s node, ()⟩ : Event calls) ∈ tr

/-- The memory that is used after the header in the buffer of `s`: unless the handler rejects it, a node
that the handler has allocated for the body has `msg_len + 1` bytes, which is at least one, with the index
of the NUL among them; and after any number of partial reads the next window lies inside `_data`, and the
copy of the completed body inside the node. -/
def MemorySafe (self : ServerName) (s : SessId) (w : World) : Prop :=
  ∀ tr w₁, Exec (World.sem false) (headHandler self s false headTotalLen) w tr () w₁ → ¬ Rejects s tr →
    (∀ node, Stores s tr node → (node.data.length : Int) = headMsgLen (w.proc.sess s).data + 1 ∧
      1 ≤ node.data.length ∧ InBounds node.data node.totalLen) ∧
    ∀ rs w₂, Run (PartialRead self s) w₁ rs w₂ →
    ∀ p ∈ (w₂.proc.sess s).reads, p.InBuffer ∧
      ∀ bytes, p.Completes false bytes → p.totalLen ≤ p.readLen + bytes.length →
        CopyFits (w₂.proc.sess s) (p.readLen + bytes.length)

/-- The header in the buffer of `s` is safe: unless the handler rejects it, it does allocate a node for the
body, and the memory that is used is safe. -/
def HeadSafe (self : ServerName) (s : SessId) (w : World) : Prop :=
  MemorySafe self s w ∧
    ∀ tr w₁, Exec (World.sem false) (headHandler self s false headTotalLen) w tr () w₁ → ¬ Rejects s tr →
      ∃ node, Stores s tr node

/-- **What the handler does with a complete header**: it rejects it; or the allocation throws, and nothing
else is done; or a node is stored and the read of the body is started. -/
theorem headHandler_cases {self : ServerName} {s : SessId} {w w₁ : World} {tr : List (Event calls)}
    (h : Exec (World.sem false) (headHandler self s false headTotalLen) w tr () w₁) :
    (Rejected (w.proc.sess s).data ∧ Rejects s tr) ∨
      (¬ Rejected (w.proc.sess s).data ∧ headMsgLen (w.proc.sess s).data < -1 ∧
        tr = [⟨.data s, (w.proc.sess s).data⟩] ∧ w₁ = w) ∨
      ∃ node, ¬ Rejected (w.proc.sess s).data ∧
        RecvNode.new (headMsgLen (w.proc.sess s).data) (headMsgId (w.proc.sess s).data) = .ok node ∧
        (∃ read, tr = [⟨.data s, (w.proc.sess s).data⟩, ⟨.setRecvNode s node, ()⟩, ⟨.clearData s, ()⟩,
          ⟨.asyncReadSome s read, ()⟩]) ∧
        w₁ = w.modify s fun x => { x with recvMsgNode := some node }.startRead
          (toSizeT (headMsgLen (w.proc.sess s).data)) (.body (headMsgLen (w.proc.sess s).data)) := by
  obtain ⟨r, w₂, t₁, t₂, rfl, hbody, hret⟩ := exec_bind.mp h
  cases hret
  rw [if_neg Bool.false_ne_true, if_neg (Nat.lt_irrefl _)] at hbody
  obtain ⟨data, t₁, rfl, hdata, haccept⟩ := exec_ask hbody
  obtain rfl := hdata _ rfl
  unfold acceptHead at haccept
  split_ifs at haccept with hid hlen
  · obtain ⟨⟨⟩, t₁, rfl, -, -⟩ := exec_call haccept
    exact Or.inl ⟨Or.inl hid, by simp [Rejects]⟩
  · obtain ⟨⟨⟩, t₁, rfl, -, -⟩ := exec_call haccept
    exact Or.inl ⟨Or.inr hlen, by simp [Rejects]⟩
  · have hrej : ¬ Rejected (w.proc.sess s).data := fun h => h.elim hid hlen
    rcases hnode : RecvNode.new (headMsgLen (w.proc.sess s).data) (headMsgId (w.proc.sess s).data)
      with e | node
    · -- the allocation throws
      rw [hnode] at haccept
      cases haccept
      exact Or.inr (Or.inl ⟨hrej, recvNode_new_error_iff.mp ⟨e, hnode⟩, rfl, rfl⟩)
    · rw [hnode] at haccept
      obtain ⟨⟨⟩, t₁, rfl, -, hread⟩ := exec_ask haccept
      obtain ⟨⟨⟩, w₃, t₁, t₂, rfl, hread, hret⟩ := exec_bind.mp hread
      cases hret
      obtain ⟨⟨⟩, t₁, rfl, -, hread⟩ := exec_call hread
      obtain ⟨⟨⟩, t₁, rfl, -, hret⟩ := exec_call hread
      cases hret
      refine Or.inr (Or.inr ⟨node, hrej, rfl, ⟨_, rfl⟩, ?_⟩)
      exact (World.modify_modify ..).trans (World.modify_modify ..)

/-- While the body of length `len` is read: a node of that length is stored, and one read is
outstanding, for the rest of the body. -/
structure BodyPending (len : Nat) (x : Sess) : Prop where
  node : ∃ node, x.recvMsgNode = some node ∧ node.totalLen = len ∧ node.data.length = len + 1
  reads : ∃ k ≤ len, x.reads = [{ readLen := k, totalLen := len, handler := .body len }]

theorem BodyPending.inBuffer {len : Nat} {x : Sess} (h : BodyPending len x) (hlen : len ≤ maxLength)
    {p : PendingRead} (hp : p ∈ x.reads) : p.InBuffer := by
  obtain ⟨k, hk, hreads⟩ := h.reads
  rw [hreads, List.mem_singleton] at hp
  subst hp
  exact ⟨hk, hlen⟩

/-- A completed read brings no more than the rest of the body, which the node has room for. -/
theorem BodyPending.copyFits {len : Nat} {x : Sess} (h : BodyPending len x) {p : PendingRead}
    (hp : p ∈ x.reads) {bytes : Bytes} (hc : p.Completes false bytes) :
    CopyFits x (p.readLen + bytes.length) := by
  obtain ⟨node, hnode, htotal, hdata⟩ := h.node
  obtain ⟨k, hk, hreads⟩ := h.reads
  rw [hreads, List.mem_singleton] at hp
  subst hp
  have hbytes : bytes.length ≤ len - k := hc.1
  refine ⟨node, hnode, ?_, ?_, ?_⟩
  · show k + bytes.length ≤ node.data.length
    omega
  · omega
  · omega

/-- A partial read leaves the rest of the body to be read. -/
theorem BodyPending.step {self : ServerName} {s : SessId} {len : Nat} {w w' : World}
    {l : PendingRead × Bytes} (h : BodyPending len (w.proc.sess s))
    (hs : PartialRead self s w l w') : BodyPending len (w'.proc.sess s) := by
  obtain ⟨hlt, hread⟩ := hs
  obtain ⟨hp, hc, hexec⟩ := hread
  obtain ⟨k, hk, hreads⟩ := h.reads
  rw [exec_readCallback_more hlt hexec]
  rw [hreads, List.mem_singleton] at hp
  subst hp
  refine ⟨?_, ⟨_, Nat.le_of_lt hlt, ?_⟩⟩
  · rw [World.modify_modify, World.modify_sess]
    exact h.node
  · rw [World.modify_modify, World.modify_sess]
    show (w.proc.sess s).reads.erase _ ++ _ = _
    rw [hreads, List.erase_cons_head, List.nil_append]

/-- The state after an accepted header whose length is not negative. -/
theorem bodyPending_of_stored {s : SessId} {w : World} {node : RecvNode}
    (hreads : (w.proc.sess s).reads = []) (hrej : ¬ Rejected (w.proc.sess s).data)
    (hlen : 0 ≤ headMsgLen (w.proc.sess s).data)
    (hnode : RecvNode.new (headMsgLen (w.proc.sess s).data) (headMsgId (w.proc.sess s).data) = .ok node) :
    BodyPending (headMsgLen (w.proc.sess s).data).toNat
      ((w.modify s fun x => { x with recvMsgNode := some node }.startRead
        (toSizeT (headMsgLen (w.proc.sess s).data)) (.body (headMsgLen (w.proc.sess s).data))).proc.sess
        s) := by
  obtain ⟨-, htotal, hdata, -⟩ := recvNode_new_ok hnode
  rw [World.modify_sess]
  have hsize : toSizeT (headMsgLen (w.proc.sess s).data)
      = (headMsgLen (w.proc.sess s).data).toNat := by
    have hbound : (maxLength : Int) < 18446744073709551616 := by decide
    unfold Rejected at hrej
    exact toSizeT_of_nonneg hlen (by omega)
  refine ⟨⟨node, rfl, by omega, by omega⟩, ⟨0, Nat.zero_le _, ?_⟩⟩
  show (w.proc.sess s).reads ++ _ = _
  rw [hreads, List.nil_append, hsize, Int.toNat_of_nonneg hlen]

/-- A session without an outstanding read gets none by partial reads. -/
theorem reads_of_none {self : ServerName} {s : SessId} {w w' : World}
    {rs : List ((PendingRead × Bytes) × World)} (hreads : (w.proc.sess s).reads = [])
    (h : Run (PartialRead self s) w rs w') : (w'.proc.sess s).reads = [] := by
  refine Run.invariant (P := fun _ w => (w.proc.sess s).reads = []) hreads ?_ h
  rintro _ w₁ _ _ _ hnone ⟨-, hmem, -, -⟩
  rw [hnone] at hmem
  cases hmem

/-- The checks let every negative length pass. -/
theorem not_rejected_of_neg {data : Bytes} (hid : headMsgId data ≤ maxLength) (hlen : headMsgLen data < 0) :
    ¬ Rejected data := by
  have hmax : (0 : Int) ≤ maxLength := by decide
  unfold Rejected
  omega

/-- The handler runs on every header. -/
theorem exists_headHandler (self : ServerName) (s : SessId) (w : World) :
    ∃ tr w₁, Exec (World.sem false) (headHandler self s false headTotalLen) w tr () w₁ := by
  obtain ⟨tr, h⟩ := exec_run (World.sem_interpret false World.noAnswer)
    (headHandler self s false headTotalLen) w
  exact ⟨tr, _, h⟩

section Iff

variable (self : ServerName) (s : SessId) (w : World)

/-- **The headers whose memory is safe** are those that are rejected and those whose `msg_len` is not -1. -/
theorem memorySafe_iff (hreads : (w.proc.sess s).reads = []) :
    MemorySafe self s w ↔
      headMsgId (w.proc.sess s).data > maxLength ∨ headMsgLen (w.proc.sess s).data ≠ -1 := by
  constructor
  · intro hsafe
    by_contra hcond
    push Not at hcond
    obtain ⟨hid, hlen⟩ := hcond
    obtain ⟨tr, w₁, h⟩ := exists_headHandler self s w
    rcases headHandler_cases h with ⟨hrej, -⟩ | ⟨-, hneg, -⟩ | ⟨node, -, hnode, ⟨read, rfl⟩, -⟩
    · exact not_rejected_of_neg hid (by omega) hrej
    · omega
    · -- the node has no byte
      obtain ⟨-, -, hdata, -⟩ := recvNode_new_ok hnode
      obtain ⟨-, hone, -⟩ := (hsafe _ _ h (by simp [Rejects])).1 node (by simp [Stores])
      omega
  · intro hcond tr w₁ h hstays
    rcases headHandler_cases h with ⟨-, hrej⟩ | ⟨-, -, rfl, rfl⟩ | ⟨node, hrej, hnode, ⟨read, rfl⟩, rfl⟩
    · exact absurd hrej hstays
    · -- nothing is allocated, and nothing is read
      refine ⟨by simp [Stores], ?_⟩
      intro rs w₂ hrun p hp
      rw [reads_of_none hreads hrun] at hp
      cases hp
    · obtain ⟨-, htotal, hdata, -⟩ := recvNode_new_ok hnode
      have hlen : 0 ≤ headMsgLen (w.proc.sess s).data := by
        have hne := hcond.resolve_left fun hid => hrej (Or.inl hid)
        omega
      refine ⟨?_, ?_⟩
      · intro stored hstored
        obtain rfl : stored = node := by simpa [Stores] using hstored
        exact ⟨hdata, by omega, by omega, by omega⟩
      · intro rs w₂ hrun p hp
        have hpending : BodyPending (headMsgLen (w.proc.sess s).data).toNat (w₂.proc.sess s) := by
          refine Run.invariant (P := fun _ w => BodyPending _ (w.proc.sess s))
            (bodyPending_of_stored hreads hrej hlen hnode) ?_ hrun
          intro _ _ _ _ _ hb hs
          exact hb.step hs
        have hmax : (headMsgLen (w.proc.sess s).data).toNat ≤ maxLength := by
          unfold Rejected at hrej
          omega
        exact ⟨hpending.inBuffer hmax hp, fun bytes hc _ => hpending.copyFits hp hc⟩

/-- **The headers that are safe** are those that are rejected for their `msg_id` and those whose `msg_len`
is not negative. Of the others, those with `msg_len` -1 are given a node without a byte and a window far
outside `_data`; for a smaller `msg_len` the allocation throws, and no memory is touched. -/
theorem headSafe_iff (hreads : (w.proc.sess s).reads = []) :
    (HeadSafe self s w ↔
      headMsgId (w.proc.sess s).data > maxLength ∨ 0 ≤ headMsgLen (w.proc.sess s).data) ∧
    (MemorySafe self s w ↔
      headMsgId (w.proc.sess s).data > maxLength ∨ headMsgLen (w.proc.sess s).data ≠ -1) := by
  have hmemory := memorySafe_iff self s w hreads
  refine ⟨?_, hmemory⟩
  constructor
  · rintro ⟨hsafe, hstored⟩
    rcases hmemory.mp hsafe with hid | hne
    · exact Or.inl hid
    by_contra hcond
    push Not at hcond
    obtain ⟨hid, hlen⟩ := hcond
    obtain ⟨tr, w₁, h⟩ := exists_headHandler self s w
    rcases headHandler_cases h with ⟨hrej, -⟩ | ⟨-, -, rfl, -⟩ | ⟨node, -, hnode, -, -⟩
    · exact not_rejected_of_neg hid hlen hrej
    · obtain ⟨node, hnode⟩ := hstored _ _ h (by simp [Rejects])
      simp [Stores] at hnode
    · have hdata := (recvNode_new_ok hnode).2.2.1
      omega
  · intro hcond
    refine ⟨hmemory.mpr (hcond.imp_right fun hlen => by omega), ?_⟩
    intro tr w₁ h hstays
    rcases headHandler_cases h with ⟨-, hrej⟩ | ⟨hrej, hneg, -⟩ | ⟨node, -, -, ⟨read, rfl⟩, -⟩
    · exact absurd hrej hstays
    · have hlen := hcond.resolve_left fun hid => hrej (Or.inl hid)
      omega
    · exact ⟨node, by simp [Stores]⟩

end Iff

/-- A server in which the session 0 has just read these bytes. -/
def readWorld (data : Bytes) : World := World.init.modify 0 fun x => { x with data := data }

/-- The header of a body of two bytes is safe. -/
theorem headSafe_two : HeadSafe ⟨[], by decide⟩ 0 (readWorld [7, 209, 0, 2]) := by
  refine (headSafe_iff ⟨[], by decide⟩ 0 (readWorld [7, 209, 0, 2]) rfl).1.mpr (Or.inr ?_)
  unfold headMsgLen
  decide

/-- The handler accepts a header with `msg_len` -1, and the node that it stores has no byte. -/
theorem headSafe_fails : ¬ ∀ (self : ServerName) (s : SessId) (w : World),
    (w.proc.sess s).reads = [] → HeadSafe self s w := by
  intro h
  let w := readWorld [7, 209, 255, 255]
  obtain ⟨tr, hexec⟩ := exec_run (World.sem_interpret false World.noAnswer)
    (headHandler ⟨[], by decide⟩ 0 false headTotalLen) w
  obtain ⟨hrej, hlen, hid⟩ : ¬ Rejected (w.proc.sess 0).data ∧ headMsgLen (w.proc.sess 0).data = -1 ∧
      headMsgId (w.proc.sess 0).data = 2001 := by decide +kernel
  rcases headHandler_cases hexec with ⟨hr, -⟩ | ⟨-, hneg, -⟩ | ⟨node, -, hnode, ⟨read, rfl⟩, -⟩
  · exact hrej hr
  · omega
  · obtain ⟨-, hone, -⟩ := ((h _ 0 w rfl).1 _ _ hexec (by simp [Rejects])).1 node (by simp [Stores])
    rw [hlen, hid] at hnode
    cases hnode
    exact absurd hone (by decide)

end ChatServer
