import ChatServer.Handling
import ChatServer.ReadFrames
import ChatServer.Replies
import ChatServer.Lib.Answers

/-!
# What a client has sent is what is handled

`ReadFrames` follows one session whose callbacks run in one piece. Here the session is one of many on a
server of a cluster, and the threads interleave call by call. What the callbacks of a session read and
write of it, its `view`, is touched by no other thread (`Server.Apart`), so a callback in progress is
described by the weakest precondition of what is left of it (`Server.Streams`).

As long as a client sends well-formed frames, the messages that its session posts are the frames it has
sent so far (`stream_posted`).
-/

namespace ChatServer

open Interaction Transition Prog Handler CSession Framing Word LogicSystem

/-! ## What concerns the reading of a session -/

/-- The session whose reading the call concerns. -/
def Call.about : Call → Option SessId
  | .bClose s => some s
  | .setBClose s => some s
  | .data s => some s
  | .clearData s => some s
  | .recvNode s => some s
  | .setRecvNode s _ => some s
  | .asyncReadSome s _ => some s
  | .postMsgToQue msg => some msg.session
  | _ => none

/-- The session and the id of a message that the call sends. -/
def Call.sends : Call → Option (SessId × Int)
  | .send s _ msgid => some (s, msgid)
  | _ => none

/-- The call sends nothing and concerns the reading of no session but `s`. -/
structure Call.OnlyAbout (s : SessId) (c : Call) : Prop where
  about : ∀ t, c.about = some t → t = s
  sends : c.sends = none

theorem onlyAbout_of_none {s : SessId} {c : Call} (h : c.about = none) (hsends : c.sends = none) :
    c.OnlyAbout s :=
  ⟨by simp [h], hsends⟩

theorem onlyAbout_of_some {s : SessId} {c : Call} (h : c.about = some s) (hsends : c.sends = none) :
    c.OnlyAbout s := by
  refine ⟨?_, hsends⟩
  intro t ht
  exact Option.some.inj (ht.symm.trans h)

/-- A program that leaves the reading of all sessions alone. -/
abbrev Aside {α : Type} (p : Io α) : Prop := p.Uses fun c : Call => c.about = none

/-- A program that sends nothing and concerns the reading of no session but `s`. -/
abbrev Confined {α : Type} (s : SessId) (p : Io α) : Prop := p.Uses (Call.OnlyAbout s)

namespace LogicSystem

variable {J : JsonCpp} {self : ServerName} {session : SessId} {root : Json} {msg_id : Int} {c : Call}

theorem CacheCall.about (h : CacheCall c) : c.about = none := by
  cases h <;> rfl

theorem HandlerCall.about (h : HandlerCall J self session root msg_id c) : c.about = none := by
  cases h with
  | login h =>
    cases h with
    | cache h => exact h.about
    | _ => rfl
  | search h =>
    cases h with
    | cache h => exact h.about
    | _ => rfl
  | addFriend _ h =>
    cases h with
    | cache h => exact h.about
    | _ => rfl
  | authFriend _ _ h =>
    cases h with
    | cache h => exact h.about
    | _ => rfl
  | textChat _ h => cases h <;> rfl
  | _ => rfl

/-- The worker leaves the reading of the sessions alone. -/
theorem dispatch_aside (J : JsonCpp) (self : ServerName) (node : LogicNode) :
    Aside (dispatch J self node).run :=
  (dispatch_calls J self node).mono fun _ h => h.about

end LogicSystem

namespace ChatServiceImpl

variable (J : JsonCpp)

/-- Collecting what `NotifyAuthFriend` tells leaves the sessions alone. -/
theorem peerInfo_quiet (request : AuthFriendReq) :
    (peerInfo J request).run.Uses fun c : Call => c.about = none ∧ c.sends = none := by
  have hquiet : ∀ {c : Call}, c.about = none → c.sends = none → c.about = none ∧ c.sends = none :=
    fun h hsends => ⟨h, hsends⟩
  have hbase : (getBaseInfo J (baseKey request.fromuid) request.fromuid).run.Uses
      fun c : Call => c.about = none ∧ c.sends = none := by
    refine uses_ask (hquiet rfl rfl) fun info_str => ?_
    rcases info_str with _ | info_str
    · refine uses_ask (hquiet rfl rfl) fun user_info => ?_
      rcases user_info with _ | user
      · exact uses_pure _
      · exact uses_ask (hquiet rfl rfl) fun _ => uses_pure _
    · exact uses_lift fun _ => uses_pure _
  refine uses_bind hbase fun user_info => ?_
  rcases user_info with _ | user
  · exact uses_pure _
  · exact uses_ask (hquiet rfl rfl) fun _ => uses_pure _

/-- The threads of the chat service leave the reading of the sessions alone. -/
theorem serve_aside (request : Request) : Aside (serve J request) := by
  rcases request with request | request | request
  · refine Uses.bind (uses_ask rfl fun session => ?_) fun _ => trivial
    rcases session with _ | session
    · exact uses_pure _
    · exact uses_ask rfl fun _ => uses_pure _
  · refine Uses.bind (uses_ask rfl fun session => ?_) fun _ => trivial
    rcases session with _ | session
    · exact uses_pure _
    · refine uses_bind ((peerInfo_quiet J request).mono fun _ h => h.1) fun _ => ?_
      exact uses_ask rfl fun _ => uses_pure _
  · refine Uses.bind (uses_ask rfl fun session => ?_) fun _ => trivial
    rcases session with _ | session
    · exact uses_pure _
    · exact uses_ask rfl fun _ => uses_pure _

end ChatServiceImpl

namespace CSession

variable (self : ServerName) (s : SessId)

theorem close_confined : Confined s (close self s).run := by
  have hnone : ∀ {c : Call}, c.about = none → c.sends = none → c.OnlyAbout s := onlyAbout_of_none
  refine uses_ask (onlyAbout_of_some rfl rfl) fun b_close => ?_
  split
  · exact uses_pure _
  · refine uses_ask (hnone rfl rfl) fun user_uid => uses_bind ?_ fun _ => ?_
    · unfold unbind
      split
      · refine uses_ask (hnone rfl rfl) fun rd_res => uses_lift fun count => ?_
        exact uses_ask (hnone rfl rfl) fun _ => uses_ask (hnone rfl rfl) fun uid =>
          uses_ask (hnone rfl rfl) fun _ => uses_ask_last (hnone rfl rfl)
      · exact uses_pure _
    · exact uses_ask (hnone rfl rfl) fun res => uses_lift fun _ => uses_ask_last (onlyAbout_of_some rfl rfl)

theorem drop_confined : Confined s (drop self s).run :=
  uses_bind (close_confined self s) fun _ => uses_ask_last (onlyAbout_of_none rfl rfl)

theorem asyncReadFull_confined (max_length : Nat) (handler : ReadHandler) :
    Confined s (asyncReadFull s max_length handler) :=
  ⟨onlyAbout_of_some rfl rfl, fun _ => ⟨onlyAbout_of_some rfl rfl, fun _ => trivial⟩⟩

theorem uses_liftIo {α : Type} {P : Call → Prop} {x : Io α} (hx : x.Uses P) :
    (liftM x : Handler α).run.Uses P :=
  Uses.bind hx fun _ => trivial

/-- A callback of a session leaves the reading of the others alone. -/
theorem readCallback_confined (p : PendingRead) (ec : Bool) (n : Nat) :
    Confined s (readCallback self s p ec n) := by
  have hhandle : ∀ n, Confined s (handle self s ec n p.handler) := by
    intro n
    rcases p.handler with _ | total_len
    · refine Uses.bind ?_ fun _ => trivial
      split_ifs
      · exact drop_confined self s
      · exact drop_confined self s
      · refine uses_ask (onlyAbout_of_some rfl rfl) fun data => ?_
        unfold acceptHead
        split_ifs
        · exact uses_ask_last (onlyAbout_of_none rfl rfl)
        · exact uses_ask_last (onlyAbout_of_none rfl rfl)
        · refine uses_lift fun node => uses_ask (onlyAbout_of_some rfl rfl) fun _ => ?_
          exact uses_liftIo (asyncReadFull_confined s _ _)
    · refine Uses.bind ?_ fun _ => trivial
      split_ifs
      · exact drop_confined self s
      · exact drop_confined self s
      · refine uses_ask (onlyAbout_of_some rfl rfl) fun data =>
          uses_ask (onlyAbout_of_some rfl rfl) fun node => ?_
        rcases node with _ | node
        · exact uses_pure _
        · refine uses_ask (onlyAbout_of_some rfl rfl) fun _ => uses_ask (onlyAbout_of_some rfl rfl) fun _ => ?_
          exact uses_liftIo (asyncReadFull_confined s _ _)
  unfold readCallback
  split_ifs
  · exact hhandle _
  · exact hhandle _
  · exact ⟨onlyAbout_of_some rfl rfl, fun _ => trivial⟩

theorem handleAccept_confined : Confined s (handleAccept s) :=
  Uses.bind (asyncReadFull_confined s _ _) fun _ => ⟨onlyAbout_of_none rfl rfl, fun _ => trivial⟩

end CSession

/-- Only the callback of a session concerns its reading. -/
structure Server.Apart (v : Server) : Prop where
  worker : ∀ t ∈ v.worker, Aside t.rest
  io : ∀ t ∈ v.io, Confined t.session t.rest
  rpcs : ∀ p ∈ v.rpcs, Aside p

theorem Server.apart_init : Server.init.Apart :=
  ⟨fun _ h => (nomatch h), fun _ h => (nomatch h), fun _ h => (nomatch h)⟩

theorem Server.Apart.step {J : JsonCpp} {self : ServerName} {r r' : Redis} {v v' : Server} {l : Label}
    (h : v.Apart) (hs : Server.Step J self (r, v) l (r', v')) : v'.Apart := by
  obtain ⟨hworker, hio, hrpcs⟩ := h
  cases hs with
  | accept _ _ =>
    refine ⟨hworker, ?_, hrpcs⟩
    rintro _ ⟨⟩
    exact handleAccept_confined _
  | readSome _ _ _ =>
    refine ⟨hworker, ?_, hrpcs⟩
    rintro _ ⟨⟩
    exact readCallback_confined self _ _ _ _
  | io ht hp _ =>
    refine ⟨hworker, ?_, hrpcs⟩
    rintro _ ⟨⟩
    exact ((hio _ ht).step hp).2
  | ioDone _ _ => exact ⟨hworker, fun _ h => (nomatch h), hrpcs⟩
  | written _ _ => exact ⟨hworker, hio, hrpcs⟩
  | take _ _ =>
    refine ⟨?_, hio, hrpcs⟩
    rintro _ ⟨⟩
    exact dispatch_aside J self _
  | worker ht hp _ =>
    refine ⟨?_, hio, hrpcs⟩
    rintro _ ⟨⟩
    exact ((hworker _ ht).step hp).2
  | workerDone _ _ => exact ⟨fun _ h => (nomatch h), hio, hrpcs⟩
  | crash _ _ => exact ⟨hworker, hio, hrpcs⟩
  | serve => exact ⟨hworker, hio, List.forall_mem_cons.mpr ⟨ChatServiceImpl.serve_aside J _, hrpcs⟩⟩
  | rpc hmem hp _ =>
    rw [hmem] at hrpcs
    simp only [List.forall_mem_append, List.forall_mem_cons] at hrpcs
    obtain ⟨hpre, hthis, hpost⟩ := hrpcs
    refine ⟨hworker, hio, ?_⟩
    simp only [List.forall_mem_append, List.forall_mem_cons]
    exact ⟨hpre, (hthis.step hp).2, hpost⟩
  | rpcDone hmem =>
    rw [hmem] at hrpcs
    simp only [List.forall_mem_append, List.forall_mem_cons] at hrpcs
    refine ⟨hworker, hio, ?_⟩
    rw [List.forall_mem_append]
    exact ⟨hrpcs.1, hrpcs.2.2⟩

/-! ## The view of a session that its callbacks have -/

/-- What the callbacks of a session read and write of it. -/
def Sess.view (x : Sess) : Sess :=
  { data := x.data, recvMsgNode := x.recvMsgNode, reads := x.reads, bClose := x.bClose }

/-- The view of a session, and the messages it has posted. -/
abbrev ReadState : Type := Sess × List LogicNode

/-- What the calls about the session `s` do to its view and its messages. -/
def readAnswers (s : SessId) (c : Call) (w : ReadState) : Option (c.Resp × ReadState) :=
  match c with
  | .bClose t => if t = s then some (w.1.bClose, w) else none
  | .setBClose t => if t = s then some ((), { w.1 with bClose := true }, w.2) else none
  | .data t => if t = s then some (w.1.data, w) else none
  | .clearData t => if t = s then some ((), { w.1 with data := List.replicate maxLength 0 }, w.2) else none
  | .recvNode t => if t = s then some (w.1.recvMsgNode, w) else none
  | .setRecvNode t node => if t = s then some ((), { w.1 with recvMsgNode := some node }, w.2) else none
  | .asyncReadSome t read =>
    if t = s then some ((), { w.1 with reads := w.1.reads ++ [read] }, w.2) else none
  | .postMsgToQue msg => if msg.session = s then some ((), w.1, w.2 ++ [msg]) else none
  | _ => none

theorem readAnswers_of_about {s : SessId} {c : Call} (h : c.about ≠ some s) (w : ReadState) :
    readAnswers s c w = none := by
  rcases c <;> first
    | rfl
    | exact if_neg fun he => h (congrArg some he)

section View

variable {w w' : World} {s : SessId}

theorem view_modify {t : SessId} {f : Sess → Sess} (hf : ∀ x, (f x).view = x.view) :
    ((w.modify t f).proc.sess s).view = (w.proc.sess s).view := by
  by_cases h : s = t
  · subst h
    rw [World.modify_sess, hf]
  · rw [World.modify_sess_ne h]

/-- A call that is not about the session leaves its view alone. -/
theorem view_apply {c : Call} (h : c.about ≠ some s) :
    ((w.apply c).proc.sess s).view = (w.proc.sess s).view := by
  have hother : ∀ {t : SessId} (f : Sess → Sess), t ≠ s →
      ((w.modify t f).proc.sess s).view = (w.proc.sess s).view := by
    intro t f ht
    rw [World.modify_sess_ne (Ne.symm ht)]
  cases c with
  | setBClose t | clearData t => exact hother _ fun he => h (congrArg some he)
  | setRecvNode t _ | asyncReadSome t _ => exact hother _ fun he => h (congrArg some he)
  | setUserId t uid => exact view_modify (f := fun x => { x with userUid := uid }) fun _ => rfl
  | socketClose t => exact view_modify (f := fun x => { x with socketOpen := false }) fun _ => rfl
  | send t msg msgid =>
    refine view_modify (f := fun x => x.send msg msgid) fun x => ?_
    obtain ⟨que, writes, hx⟩ := x.send_eq msg msgid
    rw [hx]
    rfl
  | _ => rfl

theorem view_sem {lossy : Bool} {e : Event calls} (hs : World.sem lossy e w w') (h : e.1.about ≠ some s) :
    (w'.proc.sess s).view = (w.proc.sess s).view := by
  rcases hs with ⟨rfl, -⟩ | ⟨-, -, rfl | rfl⟩
  · exact view_apply h
  · rfl
  · exact view_apply h

/-- The messages of the session among those that a call posts. -/
def Call.postsFor (s : SessId) (c : Call) : List LogicNode :=
  c.posts.toList.filter fun node => node.session = s

theorem postsFor_of_about {c : Call} (h : c.about ≠ some s) : c.postsFor s = [] := by
  rcases c <;> first
    | rfl
    | exact List.filter_eq_nil_iff.mpr fun node hnode he => h (by
        rw [show node = _ from List.mem_singleton.mp hnode] at he
        exact congrArg some (by simpa using he))

/-- **A call about the session acts on its view.** -/
theorem answered_sem {e : Event calls} (hs : World.sem true e w w') (ps : List LogicNode) :
    Answered (readAnswers s) e ((w.proc.sess s).view, ps)
      ((w'.proc.sess s).view, ps ++ e.1.postsFor s) := by
  by_cases h : e.1.about = some s
  · -- such a call cannot fail, and its answer is that of the state
    obtain ⟨c, r⟩ := e
    have hc : w' = w.apply c ∧ ∀ a, w.answer c = some a → r = a := by
      refine World.sem_of_not_failed hs ?_
      rcases c <;> first | exact not_false | cases h
    obtain ⟨rfl, hr⟩ := hc
    cases c with
    | bClose t | data t | recvNode t =>
      obtain rfl : t = s := Option.some.inj h
      obtain rfl := hr _ rfl
      simp [Answered, readAnswers, Call.postsFor, Call.posts, World.apply, Sess.view]
    | setBClose t | clearData t | setRecvNode t node | asyncReadSome t read =>
      obtain rfl : t = s := Option.some.inj h
      simp [Answered, readAnswers, Call.postsFor, Call.posts, World.apply, Sess.view]
    | postMsgToQue msg =>
      obtain rfl : msg.session = s := Option.some.inj h
      simp [Answered, readAnswers, Call.postsFor, Call.posts, World.apply]
    | _ => cases h
  · unfold Answered
    rw [readAnswers_of_about h, view_sem hs h, postsFor_of_about h, List.append_nil]

end View

/-! ## A callback by itself -/

/-- The session is where the reader is, is not closed, and has posted the frames the reader has got. -/
structure AtReader (s : SessId) (r : Reader UInt8) (w : ReadState) : Prop where
  reading : Reading r.part w.1
  posted_eq : posted w.2 = r.out.map fun f => (s, headMsgId f.1, f.2)
  bClose : w.1.bClose = false

section Callbacks

variable {self : ServerName} {s : SessId} {w : ReadState} {α : Type}

theorem wp_ask {β : Type} {post : Except Exn β → ReadState → Prop} {c : Call} {f : c.Resp → Handler β}
    {a : c.Resp} {w' : ReadState} (h : readAnswers s c w = some (a, w'))
    (hf : (f a).run.Wp (readAnswers s) post w') : (ask c >>= f).run.Wp (readAnswers s) post w :=
  wp_answered h hf

theorem wp_liftIo {post : Except Exn α → ReadState → Prop} {x : Io α}
    (hx : x.Wp (readAnswers s) (fun a => post (.ok a)) w) :
    (liftM x : Handler α).run.Wp (readAnswers s) post w :=
  Wp.bind hx fun _ _ h => h

/-- A `try` block. -/
theorem wp_catchStd {post : ReadState → Prop} {h : Handler Unit}
    (hh : h.run.Wp (readAnswers s) (fun _ => post) w) :
    (catchStd h).Wp (readAnswers s) (fun _ => post) w :=
  Wp.bind hh fun _ _ h => h

theorem wp_asyncReadFull {Q : ReadState → Prop} {n : Nat} {handler : ReadHandler}
    (h : Q (w.1.startRead n handler, w.2)) :
    (asyncReadFull s n handler).Wp (readAnswers s) (fun _ => Q) w :=
  wp_answered (if_pos rfl) (wp_answered (if_pos rfl) h)

/-- A session that was just accepted waits for a header. -/
theorem wp_handleAccept : (handleAccept s).Wp (readAnswers s)
    (fun _ w => AtReader s Reader.start w) (({} : Sess).view, []) := by
  refine Wp.bind (wp_asyncReadFull (Q := AtReader s Reader.start) ?_) fun _ w h => ?_
  · exact ⟨Buffered.start rfl (by decide) (by decide), rfl, rfl⟩
  · exact wp_other rfl fun _ => h

variable {x : Sess} {ps : List LogicNode} {p : PendingRead} {bytes : Bytes} {out : List (Bytes × Bytes)}

/-- A read that leaves a part incomplete. -/
theorem wp_more {got : Bytes} {n : Nat} {handler : ReadHandler} {post : ReadState → Prop}
    (hbuf : Buffered got n handler x) (hp : p ∈ x.reads) (hlt : got.length + bytes.length < n)
    (h : ∀ y, Buffered (got ++ bytes) n handler y → y.recvMsgNode = x.recvMsgNode →
      y.bClose = x.bClose → post (y, ps)) :
    (readCallback self s p false bytes.length).Wp (readAnswers s) (fun _ => post)
      (x.deliver p bytes, ps) := by
  have htake := hbuf.deliver_take hp bytes
  have hreads := hbuf.deliver_reads hp bytes
  obtain rfl := hbuf.eq_of_mem hp
  have hlen : (got ++ bytes).length = got.length + bytes.length := List.length_append
  unfold readCallback
  rw [if_neg Bool.false_ne_true, if_neg (Nat.not_le.mpr hlt)]
  refine wp_answered (if_pos rfl) (h _ ⟨?_, ?_, hbuf.le, ?_, ?_⟩ rfl rfl)
  · show (x.data.take got.length ++ bytes ++ x.data.drop (got.length + bytes.length)).length = maxLength
    have hle := hbuf.le
    have hdata := hbuf.data_length
    simp only [List.length_append, List.length_take, List.length_drop]
    omega
  · omega
  · rw [hlen]
    exact htake
  · rw [hlen]
    show (x.deliver _ bytes).reads ++ _ = _
    rw [hreads]
    rfl

/-- The last bytes of a header. -/
theorem wp_head_complete {got : Bytes} (h : AtReader s ⟨out, .head got⟩ (x, ps)) (hp : p ∈ x.reads)
    (hlen : got.length + bytes.length = headTotalLen) (hgood : GoodHead (got ++ bytes)) :
    (readCallback self s p false bytes.length).Wp (readAnswers s)
      (fun _ => AtReader s ⟨out, .body (got ++ bytes) []⟩) (x.deliver p bytes, ps) := by
  have hbuf : Buffered got headTotalLen .head x := h.reading
  have htake := hbuf.deliver_take hp bytes
  have hreads := hbuf.deliver_reads hp bytes
  rw [hlen] at htake
  have hid : headMsgId (x.deliver p bytes).data = headMsgId (got ++ bytes) := by
    rw [← headMsgId_take, htake]
  have hmsgLen : headMsgLen (x.deliver p bytes).data = headMsgLen (got ++ bytes) := by
    rw [← headMsgLen_take, htake]
  obtain rfl := hbuf.eq_of_mem hp
  have hpos := hgood.pos
  have hle : headMsgLen (got ++ bytes) ≤ 2048 := hgood.le
  have hmsgId := hgood.msgId
  obtain ⟨node, hnode⟩ := recvNode_new_of_nonneg (headMsgId (got ++ bytes))
    (show 0 ≤ headMsgLen (got ++ bytes) by omega)
  rw [readCallback_complete (Nat.le_of_eq hlen.symm)]
  refine wp_catchStd ?_
  rw [if_neg Bool.false_ne_true, if_neg (Nat.not_lt.mpr (Nat.le_of_eq hlen.symm))]
  refine wp_ask (if_pos rfl) ?_
  dsimp only
  unfold acceptHead
  rw [hid, hmsgLen, if_neg (Int.not_lt.mpr hmsgId), if_neg (Int.not_lt.mpr hgood.le), hnode]
  refine wp_ask (if_pos rfl) (wp_liftIo (wp_asyncReadFull ?_))
  rw [toSizeT_headMsgLen hgood]
  refine ⟨⟨hgood, Buffered.start hreads (by omega) ?_, node, rfl, hnode⟩, h.posted_eq, h.bClose⟩
  show _ ≤ 2048
  omega

/-- The last bytes of a body. -/
theorem wp_body_complete {head got : Bytes} (h : AtReader s ⟨out, .body head got⟩ (x, ps))
    (hp : p ∈ x.reads) (hlen : got.length + bytes.length = (headMsgLen head).toNat) :
    (readCallback self s p false bytes.length).Wp (readAnswers s)
      (fun _ => AtReader s ⟨out ++ [(head, got ++ bytes)], .head []⟩) (x.deliver p bytes, ps) := by
  obtain ⟨hgood, hbuf, node, hrecv, hnode⟩ := h.reading
  have hrecv : x.recvMsgNode = some node := hrecv
  have htake := hbuf.deliver_take hp bytes
  have hreads := hbuf.deliver_reads hp bytes
  obtain rfl := hbuf.eq_of_mem hp
  obtain ⟨hcur, htotal, -, hid⟩ := recvNode_new_ok hnode
  have hpos := hgood.pos
  have hle : headMsgLen head ≤ 2048 := hgood.le
  have htext : (node.fill (got ++ bytes)).text = got ++ bytes := by
    refine text_fill hcur ?_ ?_
    · rw [htotal, List.length_append]
      omega
    · rw [List.length_append]
      omega
  have hsize : ¬ got.length + bytes.length < toSizeT (headMsgLen head) := by
    rw [toSizeT_headMsgLen hgood, hlen]
    exact Nat.lt_irrefl _
  rw [readCallback_complete (Nat.le_of_eq hlen.symm)]
  refine wp_catchStd ?_
  rw [if_neg Bool.false_ne_true, if_neg hsize]
  have hask : ∀ y : Sess, y.recvMsgNode = x.recvMsgNode →
      readAnswers s (.recvNode s) (y, ps) = some (some node, (y, ps)) := by
    intro y hy
    show (if s = s then some (y.recvMsgNode, (y, ps)) else none) = _
    rw [if_pos rfl, hy, hrecv]
  refine wp_ask (if_pos rfl) (wp_ask (hask _ rfl) ?_)
  refine wp_ask (if_pos rfl) (wp_ask (if_pos rfl) (wp_liftIo (wp_asyncReadFull ?_)))
  refine ⟨Buffered.start hreads (by decide) (by decide), ?_, h.bClose⟩
  have hposted : posted ps = out.map fun f => (s, headMsgId f.1, f.2) := h.posted_eq
  show posted (ps ++ [_]) = _
  unfold posted at hposted ⊢
  rw [List.map_append, hposted, List.map_append]
  show _ ++ [(s, node.msgId, (node.fill ((x.deliver _ bytes).data.take _)).text)] = _
  rw [htake, htext, hid]
  rfl

/-- **A completed read takes the session to where the reader is after the same bytes**, if nobody else
touches its view while the callback runs and the header it may complete is a good one. -/
theorem wp_readCallback {r : Reader UInt8} (h : AtReader s r (x, ps)) (hp : p ∈ x.reads)
    (hc : p.Completes false bytes)
    (hgood : ∀ got, r.part = .head got → got.length + bytes.length = headTotalLen → bytes ≠ [] →
      GoodHead (got ++ bytes)) :
    (readCallback self s p false bytes.length).Wp (readAnswers s)
      (fun _ => AtReader s (feeds layout r bytes)) (x.deliver p bytes, ps) := by
  obtain ⟨out, part⟩ := r
  obtain ⟨hle, hne⟩ := hc
  rcases part with got | ⟨head, got⟩
  · have hbuf : Buffered got headTotalLen .head x := h.reading
    obtain rfl := hbuf.eq_of_mem hp
    have hlt := hbuf.lt
    have hle : bytes.length ≤ headTotalLen - got.length := hle
    rcases Nat.lt_or_ge (got.length + bytes.length) headTotalLen with hmore | hfull
    · rw [feeds_head_lt out got hmore]
      refine wp_more hbuf hp hmore ?_
      intro y hy _ hclose
      exact ⟨hy, h.posted_eq, hclose.trans h.bClose⟩
    · have hlen : got.length + bytes.length = headTotalLen := by omega
      have hg := hgood got rfl hlen (hne rfl hlt)
      have hpos := hg.pos
      rw [feeds_head_eq out got (hne rfl hlt) hlen (by show (headMsgLen _).toNat ≠ 0; omega)]
      exact wp_head_complete h hp hlen hg
  · obtain ⟨hg, hbuf, hnode⟩ := h.reading
    have hnode : ∃ node, x.recvMsgNode = some node ∧
        RecvNode.new (headMsgLen head) (headMsgId head) = .ok node := hnode
    obtain rfl := hbuf.eq_of_mem hp
    have hlt := hbuf.lt
    have hle : bytes.length ≤ (headMsgLen head).toNat - got.length := hle
    rcases Nat.lt_or_ge (got.length + bytes.length) (headMsgLen head).toNat with hmore | hfull
    · rw [feeds_body_lt out got hmore]
      refine wp_more hbuf hp hmore ?_
      intro y hy hrecv hclose
      refine ⟨⟨hg, hy, ?_⟩, h.posted_eq, hclose.trans h.bClose⟩
      show ∃ node, y.recvMsgNode = some node ∧ _
      rw [hrecv]
      exact hnode
    · have hlen : got.length + bytes.length = (headMsgLen head).toNat := by omega
      rw [feeds_body_eq out got (hne rfl hlt) hlen]
      exact wp_body_complete h hp hlen

end Callbacks

/-! ## A session among others -/

theorem known_sem {lossy : Bool} {e : Event calls} {w w' : World} (hs : World.sem lossy e w w') :
    w'.proc.known = w.proc.known := by
  have happly : ∀ c : Call, (w.apply c).proc.known = w.proc.known := by
    intro c
    rcases c <;> rfl
  rcases hs with ⟨rfl, -⟩ | ⟨-, -, rfl | rfl⟩
  · exact happly e.1
  · rfl
  · exact happly e.1

/-- What is left of the callback of the session, if the I/O thread runs one. -/
def Server.callbackOf (v : Server) (s : SessId) : Option (Io Unit) :=
  (v.io.filter fun t => t.session = s).map IoTask.rest

theorem callbackOf_none {v : Server} {s : SessId} (h : ∀ t ∈ v.io, t.session ≠ s) :
    v.callbackOf s = none := by
  unfold Server.callbackOf
  rcases hio : v.io with _ | t
  · rfl
  · simp [h t hio]

theorem callbackOf_some {v : Server} {s : SessId} {t : IoTask} (h : v.io = some t) (ht : t.session = s) :
    v.callbackOf s = some t.rest := by
  simp [Server.callbackOf, h, ht]

/-- Between its callbacks the session is where the reader is. In the middle of one, what is left of the
callback leads there. -/
structure Server.Streams (v : Server) (s : SessId) (r : Reader UInt8) (ps : List LogicNode) : Prop where
  fresh : s ∉ v.proc.known → r = Reader.start ∧ ps = [] ∧ (v.proc.sess s).reads = [] ∧ v.callbackOf s = none
  idle : s ∈ v.proc.known → v.callbackOf s = none → AtReader s r ((v.proc.sess s).view, ps)
  busy : ∀ p, v.callbackOf s = some p →
    p.Wp (readAnswers s) (fun _ => AtReader s r) ((v.proc.sess s).view, ps)

/-- A callback of the session in progress. -/
theorem streams_busy {v : Server} {s : SessId} {r : Reader UInt8} {ps : List LogicNode} {t : IoTask}
    (hio : v.io = some t) (ht : t.session = s) (hknown : s ∈ v.proc.known)
    (hwp : t.rest.Wp (readAnswers s) (fun _ => AtReader s r) ((v.proc.sess s).view, ps)) :
    v.Streams s r ps := by
  have hcall := callbackOf_some hio ht
  refine ⟨fun hn => absurd hknown hn, ?_, ?_⟩
  · intro _ hnone
    rw [hcall] at hnone
    cases hnone
  · intro p hp
    rw [hcall] at hp
    exact Option.some.inj hp ▸ hwp

theorem Server.streams_init (s : SessId) : Server.init.Streams s Reader.start [] :=
  ⟨fun _ => ⟨rfl, rfl, rfl, rfl⟩, fun h => (nomatch h), fun _ h => (nomatch h)⟩

/-- The bytes that a step delivers to the session. -/
def Label.delivers (s : SessId) : Label → Option Bytes
  | .readSome t _ _ bytes => if t = s then some bytes else none
  | _ => none

/-- The messages that a step posts for the session. -/
def Label.postsFor (s : SessId) : Label → List LogicNode
  | .io e => e.1.postsFor s
  | _ => []

section Steps

variable {J : JsonCpp} {self : ServerName} {rd rd' : Redis} {v v' : Server} {l : Label} {s : SessId}
  {r : Reader UInt8} {ps : List LogicNode}

/-- Steps of others. -/
theorem Server.Streams.keep (h : v.Streams s r ps) (hview : (v'.proc.sess s).view = (v.proc.sess s).view)
    (hknown : s ∈ v'.proc.known ↔ s ∈ v.proc.known) (hcallback : v'.callbackOf s = v.callbackOf s) :
    v'.Streams s r ps := by
  refine ⟨?_, ?_, ?_⟩
  · intro hnew
    obtain ⟨hr, hps, hreads, hnone⟩ := h.fresh fun hs => hnew (hknown.mpr hs)
    have hsame : (v'.proc.sess s).view.reads = (v.proc.sess s).view.reads := by rw [hview]
    exact ⟨hr, hps, hsame.trans hreads, hcallback.trans hnone⟩
  · intro hs hnone
    rw [hview]
    exact h.idle (hknown.mp hs) (hcallback ▸ hnone)
  · intro p hp
    rw [hview]
    exact h.busy p (hcallback ▸ hp)

/-- **A step delivers bytes to the reader of the session, or leads its callback on, or is of others.** -/
theorem Server.Streams.step (h : v.Streams s r ps) (ha : v.Apart)
    (hs : Server.Step J self (rd, v) l (rd', v')) (hok : ∀ p bytes, l ≠ .readSome s p true bytes)
    (hgood : ∀ bytes, l.delivers s = some bytes → ∀ got, r.part = .head got →
      got.length + bytes.length = headTotalLen → bytes ≠ [] → GoodHead (got ++ bytes)) :
    v'.Streams s (feeds layout r ((l.delivers s).getD [])) (ps ++ l.postsFor s) := by
  have hother : ∀ {e : Event calls} {w : World}, World.sem true e ⟨rd, v.proc⟩ w → e.1.about ≠ some s →
      (w.proc.sess s).view = (v.proc.sess s).view ∧ (s ∈ w.proc.known ↔ s ∈ v.proc.known) := by
    intro e w hsem he
    exact ⟨view_sem hsem he, by rw [known_sem hsem]⟩
  -- steps that neither deliver to the session nor post for it
  have hquiet : ∀ {l : Label} {v' : Server}, l.delivers s = none → l.postsFor s = [] →
      v'.Streams s r ps → v'.Streams s (feeds layout r ((l.delivers s).getD [])) (ps ++ l.postsFor s) := by
    intro l v' hdel hposts h'
    rw [hdel, hposts, List.append_nil]
    exact h'
  have hidle : v.io = none → v.callbackOf s = none := by
    intro hio
    exact callbackOf_none (by simp [hio])
  cases hs with
  | @accept _ _ t hio hnew =>
    refine hquiet rfl rfl ?_
    by_cases ht : t = s
    · subst ht
      obtain ⟨rfl, rfl, -, -⟩ := h.fresh hnew
      have hview : ((v.proc.accept t).sess t).view = ({} : Sess).view := by simp [Proc.accept]
      refine streams_busy rfl rfl List.mem_cons_self ?_
      rw [hview]
      exact wp_handleAccept
    · refine h.keep ?_ ?_ ?_
      · simp [Proc.accept, Function.update_of_ne (Ne.symm ht)]
      · simp [Proc.accept, Ne.symm ht]
      · rw [hidle hio]
        refine callbackOf_none ?_
        rintro _ ⟨⟩
        exact ht
  | @readSome _ _ t p ec bytes hio hmem hc =>
    by_cases ht : t = s
    · subst ht
      have hec : ec = false := by
        rcases ec
        · rfl
        · exact absurd rfl (hok p bytes)
      subst hec
      have hdel : (Label.readSome t p false bytes).delivers t = some bytes := if_pos rfl
      have hknown : t ∈ v.proc.known := by
        by_contra hn
        obtain ⟨-, -, hreads, -⟩ := h.fresh hn
        rw [hreads] at hmem
        cases hmem
      have hat := h.idle hknown (hidle hio)
      have hview : ((v.proc.modify t fun x => x.deliver p bytes).sess t).view =
          (v.proc.sess t).view.deliver p bytes := by
        simp [Proc.modify, Sess.view, Sess.deliver]
      rw [hdel, show (Label.readSome t p false bytes).postsFor t = [] from rfl, List.append_nil]
      refine streams_busy rfl rfl hknown ?_
      rw [hview]
      exact wp_readCallback hat hmem hc (hgood bytes hdel)
    · refine hquiet (if_neg ht) rfl (h.keep ?_ Iff.rfl ?_)
      · simp [Proc.modify, Function.update_of_ne (Ne.symm ht)]
      · rw [hidle hio]
        refine callbackOf_none ?_
        rintro _ ⟨⟩
        exact ht
  | @io _ _ t e q w hio hp hsem =>
    by_cases ht : t.session = s
    · -- the callback of the session makes a call
      have hcall := callbackOf_some hio ht
      have hwp := (h.busy _ hcall).step hp (answered_sem hsem ps)
      have hknown : s ∈ v.proc.known := by
        by_contra hn
        obtain ⟨-, -, -, hnone⟩ := h.fresh hn
        rw [hcall] at hnone
        cases hnone
      refine streams_busy rfl ht ?_ hwp
      show s ∈ w.proc.known
      rwa [known_sem hsem]
    · have he : e.1.about ≠ some s := fun he => ht (((ha.io t hio).step hp).1.about s he).symm
      obtain ⟨hview, hknown⟩ := hother hsem he
      refine hquiet rfl (postsFor_of_about he) (h.keep hview hknown ?_)
      rw [callbackOf_none (v := v) (by simp [hio, ht])]
      refine callbackOf_none ?_
      rintro _ ⟨⟩
      exact ht
  | @ioDone _ _ t hio hret =>
    refine hquiet rfl rfl ?_
    by_cases ht : t.session = s
    · have hcall := callbackOf_some hio ht
      rw [hret] at hcall
      have hat : AtReader s r ((v.proc.sess s).view, ps) := h.busy _ hcall
      refine ⟨?_, fun _ _ => hat, ?_⟩
      · intro hn
        obtain ⟨-, -, -, hnone⟩ := h.fresh hn
        rw [hcall] at hnone
        cases hnone
      · intro p hp
        cases hp
    · refine h.keep rfl Iff.rfl ?_
      rw [callbackOf_none (v := v) (by simp [hio, ht])]
      rfl
  | @written _ _ t ec hio _ =>
    refine hquiet rfl rfl (h.keep ?_ Iff.rfl rfl)
    refine view_modify (w := ⟨rd, v.proc⟩)
      (f := fun x => Sess.handleWrite { x with writes := x.writes.tail } ec) fun x => ?_
    obtain ⟨que, writes, hx⟩ := x.handleWrite_eq ec
    rw [hx]
    rfl
  | @worker _ _ t e q w ht hp hsem =>
    have he : e.1.about ≠ some s := by
      rw [((ha.worker t ht).step hp).1]
      simp
    obtain ⟨hview, hknown⟩ := hother hsem he
    exact hquiet rfl rfl (h.keep hview hknown rfl)
  | @rpc _ _ pre post p q e w hmem hp hsem =>
    have he : e.1.about ≠ some s := by
      rw [((ha.rpcs p (by simp [hmem])).step hp).1]
      simp
    obtain ⟨hview, hknown⟩ := hother hsem he
    exact hquiet rfl rfl (h.keep hview hknown rfl)
  | take _ _ => exact hquiet rfl rfl (h.keep rfl Iff.rfl rfl)
  | workerDone _ _ => exact hquiet rfl rfl (h.keep rfl Iff.rfl rfl)
  | crash _ _ => exact hquiet rfl rfl (h.keep rfl Iff.rfl rfl)
  | serve => exact hquiet rfl rfl (h.keep rfl Iff.rfl rfl)
  | rpcDone _ => exact hquiet rfl rfl (h.keep rfl Iff.rfl rfl)

end Steps

/-! ## Runs -/

/-- While a callback runs, what the session has posted is a beginning of what it will have posted, and
the session is open. -/
theorem AtReader.of_wp {s : SessId} {r : Reader UInt8} {p : Io Unit} {w : ReadState}
    (h : p.Wp (readAnswers s) (fun _ => AtReader s r) w) :
    posted w.2 <+: r.out.map (fun f => (s, headMsgId f.1, f.2)) ∧ w.1.bClose = false := by
  have hgrows : ∀ (c : Call) (w : ReadState) (x : c.Resp × ReadState), readAnswers s c w = some x →
      w.2 <+: x.2.2 ∧ (x.2.1.bClose = false → w.1.bClose = false) := by
    intro c w x hx
    rcases c <;> simp only [readAnswers, reduceCtorEq, Option.ite_none_right_eq_some,
      Option.some.injEq] at hx
    all_goals
      obtain ⟨-, rfl⟩ := hx
      simp
  induction p generalizing w with
  | ret a => exact ⟨h.posted_eq ▸ List.prefix_refl _, h.bClose⟩
  | call o k ih =>
    unfold Wp at h
    rcases hanswer : readAnswers s o w with _ | x
    · simp only [hanswer] at h
      exact ih _ (h (World.noAnswer o))
    · simp only [hanswer] at h
      obtain ⟨hposted, hclose⟩ := ih _ h
      obtain ⟨hpre, hkeep⟩ := hgrows o w x hanswer
      exact ⟨(hpre.map _).trans hposted, hkeep hclose⟩

namespace Cluster

variable {J : JsonCpp} {redis : Redis} {S : ServerName} {s : SessId} {tr : List (Act × Cluster)}
  {c c' : Cluster}

/-- The bytes that a step delivers to the session `s` of the server `S`. -/
def delivers (S : ServerName) (s : SessId) : Act → Option Bytes
  | none => none
  | some (T, l) => if T = S then l.delivers s else none

/-- The bytes that have arrived on the session. -/
def received (S : ServerName) (s : SessId) (tr : List (Act × Cluster)) : Bytes :=
  (watched (delivers S s) tr).flatten

/-- A read of the session reports an error. -/
def breaks (S : ServerName) (s : SessId) : Act → Bool
  | some (T, .readSome t _ ec _) => decide (T = S) && decide (t = s) && ec
  | _ => false

/-- No read of the session has reported an error. -/
def Unbroken (S : ServerName) (s : SessId) (tr : List (Act × Cluster)) : Prop :=
  ∀ x ∈ tr, breaks S s x.1 = false

instance (S : ServerName) (s : SessId) (tr : List (Act × Cluster)) : Decidable (Unbroken S s tr) :=
  inferInstanceAs (Decidable (∀ x ∈ tr, breaks S s x.1 = false))

/-- The messages that the session has posted. -/
def postedBy (S : ServerName) (s : SessId) (tr : List (Act × Cluster)) : List LogicNode :=
  (posted S tr).filter fun node => node.session = s

theorem received_snoc (a : Act) : received S s (tr ++ [(a, c')]) =
    received S s tr ++ (delivers S s a).getD [] := by
  unfold received
  rw [watched_snoc, List.flatten_append]
  rcases delivers S s a <;> simp

theorem postedBy_snoc_own (l : Label) : postedBy S s (tr ++ [(some (S, l), c')]) =
    postedBy S s tr ++ l.postsFor s := by
  unfold postedBy posted
  rw [watched_snoc, workerStep_own, List.filterMap_append, List.filter_append]
  congr 1
  cases l with
  | io e =>
    show _ = e.1.postsFor s
    unfold Call.postsFor
    rcases hposts : e.1.posts with _ | msg <;> simp [Label.workerStep, hposts, Worker.Label.posts]
  | workerDone exit => rcases exit with e | ⟨⟨⟩⟩ <;> rfl
  | _ => rfl

theorem snoc_of_ne (s : SessId) (tr : List (Act × Cluster)) (c' : Cluster) {a : Act}
    (h : ∀ l, a ≠ some (S, l)) :
    delivers S s a = none ∧ postedBy S s (tr ++ [(a, c')]) = postedBy S s tr := by
  constructor
  · rcases a with _ | ⟨T, l⟩
    · rfl
    · exact if_neg fun hT => h l (by rw [hT])
  · unfold postedBy posted
    rw [watched_snoc, workerStep_of_ne h]
    simp

theorem apart_of_run (h : Run (Step J) (.init redis) tr c) (S : ServerName) : (c.server S).Apart :=
  run_server Server.apart_init (fun _ _ _ _ _ h hs => h.step hs) h

/-- **The session follows the reader**, in every run in which its client sends well-formed frames. -/
theorem streams_of_run (h : Run (Step J) (.init redis) tr c) (msgs : List Message)
    (hok : Unbroken S s tr) (hbytes : received S s tr <+: encode (frames msgs)) :
    (c.server S).Streams s (feeds layout Reader.start (received S s tr)) (postedBy S s tr) := by
  induction h with
  | nil => exact Server.streams_init s
  | @snoc tr c c' a hr hs ih =>
    rw [received_snoc] at hbytes
    have hok' : Unbroken S s tr := fun x hx => hok x (List.mem_append_left _ hx)
    have hi := ih hok' ((List.prefix_append _ _).trans hbytes)
    rw [received_snoc]
    rcases hs.own_cases S with ⟨heq, hne⟩ | ⟨l, rfl, hv⟩
    · obtain ⟨hdel, hposted⟩ := snoc_of_ne s tr c' hne
      rw [hdel, hposted, heq]
      simpa using hi
    · have hdel : delivers S s (some (S, l)) = l.delivers s := if_pos rfl
      rw [hdel] at hbytes
      rw [hdel, postedBy_snoc_own, feeds_append]
      refine hi.step (apart_of_run hr S) hv ?_ ?_
      · rintro p bytes rfl
        have := hok (some (S, .readSome s p true bytes), c') (by simp)
        simp [breaks] at this
      · -- a header is only completed by the header of one of the messages
        intro bytes hl got hpart hlen hne
        rw [hl, Option.getD_some] at hbytes
        obtain ⟨f, hf, hhead⟩ := head_mem_of_prefix [] hbytes hpart hne hlen
        obtain ⟨m, -, rfl⟩ := List.mem_map.mp hf
        rw [← hhead]
        exact m.goodHead

/-- The frames that arrived are `msgs` and then an incomplete one. -/
structure Arrived (S : ServerName) (s : SessId) (tr : List (Act × Cluster)) (msgs : List Message) :
    Prop where
  unbroken : Unbroken S s tr
  bytes : ∃ (last : Message) (tail : Bytes), tail <+: last.node.wire ∧ tail ≠ last.node.wire ∧
    received S s tr = msgs.flatMap (fun m => m.node.wire) ++ tail

/-- The reader gets the messages out of what has arrived. -/
theorem Arrived.reader {msgs : List Message} (ha : Arrived S s tr msgs) :
    (feeds layout Reader.start (received S s tr)).out.map (fun f => (s, headMsgId f.1, f.2)) =
        msgs.map (fun m => (s, m.msgId, m.body)) ∧
      ∃ msgs', received S s tr <+: encode (frames msgs') := by
  obtain ⟨last, tail, htail, hne, hbytes⟩ := ha.bytes
  rw [hbytes, ← encode_frames]
  constructor
  · rw [← last.frame_encode] at htail hne
    rw [feeds_append, Reader.start, feeds_encode, feeds_incomplete _ last.frame htail hne,
      List.nil_append, frames, List.map_map, List.map_map]
    refine List.map_congr_left fun m _ => ?_
    show (s, headMsgId m.frame.head, m.body) = _
    rw [m.headMsgId_frame]
  · refine ⟨msgs ++ [last], ?_⟩
    rw [encode_frames, encode_frames, List.flatMap_append]
    refine (List.prefix_append_right_inj _).mpr ?_
    rw [List.flatMap_singleton]
    exact htail

/-- What the session has posted is the beginning of what the reader has got. -/
theorem posted_of_streams {r : Reader UInt8} (h : (c.server S).Streams s r (postedBy S s tr)) :
    ChatServer.posted (postedBy S s tr) <+: r.out.map (fun f => (s, headMsgId f.1, f.2)) ∧
      ((c.server S).callbackOf s = none →
        ChatServer.posted (postedBy S s tr) = r.out.map (fun f => (s, headMsgId f.1, f.2))) ∧
      (s ∈ (c.server S).proc.known → ((c.server S).proc.sess s).bClose = false) := by
  rcases hcall : (c.server S).callbackOf s with _ | p
  · by_cases hknown : s ∈ (c.server S).proc.known
    · have hat := h.idle hknown hcall
      exact ⟨hat.posted_eq ▸ List.prefix_refl _, fun _ => hat.posted_eq, fun _ => hat.bClose⟩
    · obtain ⟨rfl, hnil, -, -⟩ := h.fresh hknown
      rw [hnil]
      exact ⟨List.nil_prefix, fun _ => rfl, fun hk => absurd hk hknown⟩
  · obtain ⟨hpre, hclose⟩ := AtReader.of_wp (h.busy p hcall)
    exact ⟨hpre, by simp, fun _ => hclose⟩

/-- **What a session posts is what its client has sent.** In every run, whatever other sessions and
threads do: as long as well-formed frames arrive on a session, in pieces of any size, the messages it has
posted are the first of those that have arrived, each once and in their order; between its callbacks they
are all of them; and the session is open. -/
theorem stream_posted (h : Run (Step J) (.init redis) tr c) {msgs : List Message}
    (ha : Arrived S s tr msgs) :
    ChatServer.posted (postedBy S s tr) <+: msgs.map (fun m => (s, m.msgId, m.body)) ∧
      ((c.server S).callbackOf s = none →
        ChatServer.posted (postedBy S s tr) = msgs.map (fun m => (s, m.msgId, m.body))) ∧
      (s ∈ (c.server S).proc.known → ((c.server S).proc.sess s).bClose = false) := by
  obtain ⟨hout, msgs', hbytes⟩ := ha.reader
  rw [← hout]
  exact posted_of_streams (streams_of_run h msgs' ha.unbroken hbytes)

/-- The login request of the user 7, as a client sends it. -/
def loginMessage : Message where
  body := loginText 7
  msgId := 2001
  node := { curLen := 25, totalLen := 25, data := loginHead ++ loginText 7 ++ [0], msgId := 2001 }
  isShort := oneByte.isShort
  idBound := oneByte.idBound
  sent := ⟨{}, by decide +kernel⟩

theorem arrived_login : Arrived s1 0 (runOf (connects 0 ++ logsIn 0 7)) [loginMessage] := by
  refine ⟨by decide +kernel, loginMessage, [], List.nil_prefix, ?_, ?_⟩ <;> decide +kernel

/-- The login request has arrived and is posted. -/
theorem stream_posted_login : ∃ c, Run (Step loginTexts) (.init startRedis)
    (runOf (connects 0 ++ logsIn 0 7)) c ∧ (c.server s1).callbackOf 0 = none ∧
    ChatServer.posted (postedBy s1 0 (runOf (connects 0 ++ logsIn 0 7))) = [(0, 2001, loginText 7)] := by
  have hidle : ((stateAfter (connects 0 ++ logsIn 0 7)).server s1).callbackOf 0 = none := by
    have hnone : ((stateAfter (connects 0 ++ logsIn 0 7)).server s1).io.isNone = true := by decide +kernel
    refine callbackOf_none ?_
    rw [Option.isNone_iff_eq_none.mp hnone]
    simp
  exact ⟨_, runOf_run _, hidle, (stream_posted (runOf_run _) arrived_login).2.1 hidle⟩

end Cluster

end ChatServer
