import ChatServer.Addressees

/-!
# Requests and their replies

What `Streams` and `Handling` say together: the frames that a client has sent are handled in the order in
which they were sent, each once, and the last call of each handler is the reply (`served_in_order`). No other
thread and no other handler sends anything under the id of a reply but that of a text message, which is also
the id of a notification. So the client is sent the replies to its other requests in the order of these
requests, one to each (`answers_in_order`).
-/

namespace ChatServer

open Interaction Transition Prog Handler LogicSystem

/-! ## The reply of a handler -/

/-- An id under which users are notified. -/
def IsNotice (id : Int) : Prop :=
  id = MsgIds.notifyAddFriendReq.id ∨ id = MsgIds.notifyAuthFriendReq.id ∨
    id = MsgIds.notifyTextChatMsgReq.id ∨ id = MsgIds.textChatMsgRsp.id

instance (id : Int) : Decidable (IsNotice id) := inferInstanceAs (Decidable (_ ∨ _ ∨ _ ∨ _))

theorem ChatServiceImpl.Request.notice_isNotice (request : ChatServiceImpl.Request) :
    IsNotice request.notice := by
  rcases request with _ | _ | _
  · exact Or.inl rfl
  · exact Or.inr (Or.inl rfl)
  · exact Or.inr (Or.inr (Or.inl rfl))

/-- A message that the call sends is a notification. -/
def Call.Notifies (c : Call) : Prop := ∀ s id, c.sends = some (s, id) → IsNotice id

theorem notifies_of_none {c : Call} (h : c.sends = none) : c.Notifies := by
  simp [Call.Notifies, h]

theorem notifies_send {s : SessId} {id : Int} (h : IsNotice id) (msg : Bytes) :
    (Call.send s msg id).Notifies := by
  intro s' id' hs
  obtain ⟨-, rfl⟩ : s = s' ∧ id = id' := by simpa [Call.sends] using hs
  exact h

namespace LogicSystem

variable {J : JsonCpp} {c : Call}

theorem AddFriendCall.notifies {uid touid : Int} {name alias_name : Bytes}
    (h : AddFriendCall J uid touid name alias_name c) : c.Notifies := by
  cases h with
  | cache h => exact notifies_of_none h.inward.sends
  | notify s info => exact notifies_send (Or.inl rfl) _
  | _ => exact notifies_of_none rfl

theorem AuthFriendCall.notifies {applicant_uid accepter_uid : Int} {alias_name : Bytes}
    (h : AuthFriendCall J applicant_uid accepter_uid alias_name c) : c.Notifies := by
  cases h with
  | cache h => exact notifies_of_none h.inward.sends
  | notify s peer_alias peer_info => exact notifies_send (Or.inr (Or.inl rfl)) _
  | _ => exact notifies_of_none rfl

theorem TextChatCall.notifies {fromuid touid : Int} {text_array : Json}
    (h : TextChatCall J fromuid touid text_array c) : c.Notifies := by
  cases h with
  | deliver s => exact notifies_send (Or.inr (Or.inr (Or.inr rfl))) _
  | _ => exact notifies_of_none rfl

end LogicSystem

/-- A handler that returns has made this call last, with some text, and has sent only notifications
before. -/
def RepliesOnce (session : SessId) (id : Int) (h : Handler Unit) : Prop :=
  ∀ tr, Yields h.run tr (.ok ()) → ∃ msg before, tr = before ++ [⟨.send session msg id, ()⟩] ∧
    ∀ e ∈ before, e.1.Notifies

section Replies

variable {α : Type} {session : SessId} {id : Int}

theorem repliesOnce_send (msg : Bytes) : RepliesOnce session id (ask (.send session msg id)) := by
  intro tr h
  obtain ⟨r, tr', rfl, hret⟩ := yields_call.mp h
  obtain ⟨rfl, -⟩ := yields_ret.mp hret
  exact ⟨msg, [], rfl, by simp⟩

theorem repliesOnce_bind {p : Handler α} {f : α → Handler Unit} (hp : p.run.Uses Call.Notifies)
    (hf : ∀ a, RepliesOnce session id (f a)) : RepliesOnce session id (p >>= f) := by
  intro tr h
  rw [ExceptT.run_bind] at h
  obtain ⟨r, t₁, t₂, rfl, hyields, h⟩ := yields_bind.mp h
  rcases r with e | a
  · cases (yields_ret.mp h).2
  · obtain ⟨msg, before, rfl, hbefore⟩ := hf a t₂ h
    refine ⟨msg, t₁ ++ before, by simp, ?_⟩
    intro e he
    rcases List.mem_append.mp he with he | he
    · exact hyields.uses hp e he
    · exact hbefore e he

theorem repliesOnce_ask {c : Call} {f : c.Resp → Handler Unit} (hc : c.sends = none)
    (hf : ∀ r, RepliesOnce session id (f r)) : RepliesOnce session id (ask c >>= f) :=
  repliesOnce_bind (uses_ask_last (notifies_of_none hc)) hf

theorem repliesOnce_lift {x : Except Exn α} {f : α → Handler Unit}
    (hf : ∀ a, RepliesOnce session id (f a)) : RepliesOnce session id ((liftM x : Handler α) >>= f) :=
  repliesOnce_bind uses_lift_last hf

/-- The message is answered when its handler returns: it has a handler, and is not a text message
without a body. -/
def Answerable (J : JsonCpp) (node : RecvNode) (id : Int) : Prop :=
  responseId node.msgId = some id ∧ (node.msgId = MsgIds.textChatMsgReq.id →
    ((J.parse node.text).2.isNull || (J.parse node.text).2.empty) = false)

/-- **A handler that returns has replied with its last call**, and has not replied before. -/
theorem dispatch_repliesOnce {J : JsonCpp} {self : ServerName} {node : LogicNode}
    (h : Answerable J node.recvNode id) : RepliesOnce node.session id (dispatch J self node) := by
  obtain ⟨hid, htext⟩ := h
  unfold responseId at hid
  unfold dispatch LogicSystem.callback
  split_ifs at hid ⊢ with hlogin hsearch hadd hauth hchat
  · obtain rfl := Option.some.inj hid
    refine repliesOnce_lift fun uid => repliesOnce_lift fun token => repliesOnce_bind ?_ fun v =>
      repliesOnce_send _
    exact (login_calls self _ uid token).mono fun _ h => notifies_of_none h.inward.sends
  · obtain rfl := Option.some.inj hid
    refine repliesOnce_bind ?_ fun v => repliesOnce_send _
    exact (searchUser_calls _).mono fun _ h => notifies_of_none h.inward.sends
  · obtain rfl := Option.some.inj hid
    refine repliesOnce_lift fun uid => repliesOnce_lift fun name => repliesOnce_lift fun alias_name =>
      repliesOnce_lift fun touid => repliesOnce_ask rfl fun _ => repliesOnce_bind ?_ fun _ =>
      repliesOnce_send _
    exact (routeAddFriend_calls self uid touid name alias_name).mono fun _ h => h.notifies
  · obtain rfl := Option.some.inj hid
    refine repliesOnce_lift fun applicant_uid => repliesOnce_lift fun accepter_uid =>
      repliesOnce_lift fun alias_name => repliesOnce_bind ?_ fun user_info => repliesOnce_ask rfl fun _ =>
      repliesOnce_ask rfl fun _ => repliesOnce_ask rfl fun _ => repliesOnce_ask rfl fun peer_alias =>
      repliesOnce_bind ?_ fun _ => repliesOnce_send _
    · exact (getBaseInfo_silent J applicant_uid).mono fun _ h => notifies_of_none h.sends
    · exact (routeAuthFriend_calls self _ _ alias_name peer_alias.2).mono fun _ h => h.notifies
  · obtain rfl := Option.some.inj hid
    dsimp only
    unfold chatTextMsgHandler
    dsimp only
    rw [if_neg (by rw [htext hchat]; exact Bool.false_ne_true)]
    refine repliesOnce_lift fun fromuid => repliesOnce_lift fun touid => repliesOnce_lift fun text_array =>
      repliesOnce_bind ?_ fun _ => repliesOnce_send _
    exact (routeTextChatMsg_calls self fromuid touid text_array).mono fun _ h => h.notifies

end Replies

namespace Cluster

variable {J : JsonCpp} {redis : Redis} {S : ServerName} {s : SessId} {tr : List (Act × Cluster)}
  {c : Cluster}

/-- The frames that are handled are the first of those that have arrived. -/
theorem taken_of_handled (h : Run (Step J) (.init redis) tr c)
    {done : List (LogicNode × List (Event calls))} (hdone : Handled J S tr (c.server S) done)
    {msgs : List Message} (ha : Arrived S s tr msgs) : ∃ k,
      (done.filter fun x => x.1.session = s).map (fun x => (x.1.recvNode.msgId, x.1.recvNode.text)) =
        (msgs.take k).map (fun m => (m.msgId, m.body)) ∧
      ((c.server S).callbackOf s = none → (∀ node ∈ (c.server S).proc.msgQue, node.session ≠ s) →
        msgs.take k = msgs) := by
  obtain ⟨hout, msgs', hbytes⟩ := ha.reader
  obtain ⟨hpre, hall, -⟩ := posted_of_streams (streams_of_run h msgs' ha.unbroken hbytes)
  have hsplit : postedBy S s tr = (done.filter fun x => x.1.session = s).map Prod.fst ++
      (c.server S).proc.msgQue.filter (fun node => node.session = s) := by
    unfold postedBy
    rw [hdone.order, List.filter_append, List.filter_map]
    rfl
  rw [hout, hsplit, ChatServer.posted, List.map_append] at hpre hall
  -- the handled messages are the beginning of what was posted, and that of what has arrived
  have htake : (done.filter fun x => x.1.session = s).map
      (fun x => (x.1.session, x.1.recvNode.msgId, x.1.recvNode.text)) =
      (msgs.take (done.filter fun x => x.1.session = s).length).map fun m => (s, m.msgId, m.body) := by
    have := List.prefix_iff_eq_take.mp ((List.prefix_append _ _).trans hpre)
    rw [List.length_map, List.length_map, ← List.map_take, List.map_map] at this
    exact this
  refine ⟨(done.filter fun x => x.1.session = s).length, ?_, ?_⟩
  · have := congrArg (List.map Prod.snd) htake
    rw [List.map_map, List.map_map] at this
    exact this
  · intro hcall hque
    have hwaits : (c.server S).proc.msgQue.filter (fun node => node.session = s) = [] :=
      List.filter_eq_nil_iff.mpr fun node hnode => by simpa using hque node hnode
    have hlen := congrArg List.length (hall hcall)
    rw [hwaits] at hlen
    simp only [List.map_nil, List.append_nil, List.length_map] at hlen
    rw [hlen, List.take_length]

theorem taken_of_run (h : Run (Step J) (.init redis) tr c) {msgs : List Message}
    (ha : Arrived S s tr msgs) : ∃ done k, Handled J S tr (c.server S) done ∧
      (done.filter fun x => x.1.session = s).map (fun x => (x.1.recvNode.msgId, x.1.recvNode.text)) =
        (msgs.take k).map (fun m => (m.msgId, m.body)) ∧
      ((c.server S).callbackOf s = none → (∀ node ∈ (c.server S).proc.msgQue, node.session ≠ s) →
        msgs.take k = msgs) := by
  obtain ⟨wtr, w, hr, ⟨-, ht⟩, hw⟩ := tracked_of_run h S
  have hdone := handled_of_tracks ht hr hw
  obtain ⟨k, htake, hall⟩ := taken_of_handled h hdone ha
  exact ⟨_, k, hdone, htake, hall⟩

/-- **Requests are served in the order in which they were sent.** In every run, whatever other sessions
and threads do: of the frames that have arrived on a session, in pieces of any size, the server has handled
the first `k`, each once, in their order and by a whole run of its handler; it has handled all of them when
neither a callback of the session is running nor a message of it waits; and the last call for each one that
has an answer was the reply to the session. -/
theorem served_in_order (h : Run (Step J) (.init redis) tr c) {msgs : List Message}
    (ha : Arrived S s tr msgs) : ∃ done k, Handled J S tr (c.server S) done ∧
      (done.filter fun x => x.1.session = s).map (fun x => (x.1.recvNode.msgId, x.1.recvNode.text)) =
        (msgs.take k).map (fun m => (m.msgId, m.body)) ∧
      ((c.server S).callbackOf s = none → (∀ node ∈ (c.server S).proc.msgQue, node.session ≠ s) →
        msgs.take k = msgs) ∧
      ∀ x ∈ done, ∀ id, Answerable J x.1.recvNode id →
        ∃ msg, x.2.getLast? = some ⟨.send x.1.session msg id, ()⟩ := by
  obtain ⟨done, k, hdone, htake, hall⟩ := taken_of_run h ha
  refine ⟨done, k, hdone, htake, hall, ?_⟩
  intro x hx id hid
  obtain ⟨msg, before, htr, -⟩ := dispatch_repliesOnce hid x.2 (hdone.whole x hx)
  exact ⟨msg, by rw [htr]; simp⟩

/-- The login request has arrived and is served. -/
theorem served_in_order_login : ∃ done k,
    Handled loginTexts s1 (runOf (connects 0 ++ logsIn 0 7))
      ((stateAfter (connects 0 ++ logsIn 0 7)).server s1) done ∧
    (done.filter fun x => x.1.session = 0).map (fun x => (x.1.recvNode.msgId, x.1.recvNode.text)) =
      ([loginMessage].take k).map (fun m => (m.msgId, m.body)) := by
  obtain ⟨done, k, hdone, htake, -⟩ := served_in_order (runOf_run _) arrived_login
  exact ⟨done, k, hdone, htake⟩

/-! ## All replies of a kind -/

end Cluster

/-- The message that the call sends to the session. -/
def Call.sendTo (s : SessId) : Call → Option (Bytes × Int)
  | .send t msg id => if t = s then some (msg, id) else none
  | _ => none

theorem sends_of_sendTo {s : SessId} {c : Call} {m : Bytes × Int} (h : c.sendTo s = some m) :
    c.sends = some (s, m.2) ∧ c = .send s m.1 m.2 := by
  rcases c <;> simp only [Call.sendTo, reduceCtorEq, Option.ite_none_right_eq_some, Option.some.injEq] at h
  obtain ⟨rfl, rfl⟩ := h
  exact ⟨rfl, rfl⟩

theorem addressee_notice {J : JsonCpp} {node : RecvNode} {u : Except Exn Int} {id : Int}
    (h : addressee J node = some (u, id)) : IsNotice id := by
  unfold addressee at h
  dsimp only at h
  split_ifs at h <;> simp only [Option.some.injEq, Prod.mk.injEq] at h
  · exact Or.inl h.2.symm
  · exact Or.inr (Or.inl h.2.symm)
  · exact Or.inr (Or.inr (Or.inr h.2.symm))

namespace LogicSystem

/-- A handler sends replies to its own session, and notifications. -/
theorem dispatch_sends (J : JsonCpp) (S : ServerName) (node : LogicNode) :
    (dispatch J S node).run.Uses fun c : Call => ∀ s id, c.sends = some (s, id) →
      (s = node.session ∧ responseId node.recvNode.msgId = some id) ∨ IsNotice id := by
  refine (dispatch_directs J S node).uses ?_
  rintro past c h s id hs
  refine (h.sends s id hs).imp_right ?_
  rintro ⟨u, hu, -⟩
  exact addressee_notice hu

end LogicSystem

/-- The messages with the id that the calls send to the session. -/
def sendsOf (s : SessId) (id : Int) (es : List (Event calls)) : List (Bytes × Int) :=
  (es.filterMap fun e => e.1.sendTo s).filter fun m => m.2 = id

theorem sendsOf_append (s : SessId) (id : Int) (es es' : List (Event calls)) :
    sendsOf s id (es ++ es') = sendsOf s id es ++ sendsOf s id es' := by
  simp [sendsOf]

theorem sendsOf_eq_nil {s : SessId} {id : Int} {es : List (Event calls)}
    (h : ∀ e ∈ es, e.1.sends ≠ some (s, id)) : sendsOf s id es = [] := by
  refine List.filter_eq_nil_iff.mpr ?_
  intro m hm
  obtain ⟨e, he, hsend⟩ := List.mem_filterMap.mp hm
  have := h e he
  rw [(sends_of_sendTo hsend).1] at this
  simpa using this

/-- The message is the last call for the handled one. -/
def Answers (s : SessId) (x : LogicNode × List (Event calls)) (m : Bytes × Int) : Prop :=
  x.2.getLast? = some ⟨.send s m.1 m.2, ()⟩

/-- **One reply for each request** among the messages handled. -/
theorem answers_of_whole {J : JsonCpp} {S : ServerName} {s : SessId} {id : Int} (hid : ¬ IsNotice id)
    {done : List (LogicNode × List (Event calls))}
    (hdone : ∀ x ∈ done, Yields (dispatch J S x.1).run x.2 (.ok ())) :
    List.Forall₂ (Answers s)
      (done.filter fun x => x.1.session = s ∧ responseId x.1.recvNode.msgId = some id)
      (sendsOf s id (done.flatMap Prod.snd)) := by
  induction done with
  | nil => exact .nil
  | cons x done ih =>
    have hx := hdone x List.mem_cons_self
    have htail := ih fun y hy => hdone y (List.mem_cons_of_mem x hy)
    rw [List.flatMap_cons, sendsOf_append]
    by_cases hask : x.1.session = s ∧ responseId x.1.recvNode.msgId = some id
    · -- the reply is sent last, and what is sent before has another id
      obtain ⟨rfl, hresp⟩ := hask
      have hanswer : Answerable J x.1.recvNode id := by
        refine ⟨hresp, ?_⟩
        intro htext
        rw [htext] at hresp
        cases hresp
        exact absurd (by decide) hid
      obtain ⟨msg, before, hcalls, hbefore⟩ := dispatch_repliesOnce hanswer x.2 hx
      have hone : sendsOf x.1.session id x.2 = [(msg, id)] := by
        rw [hcalls, sendsOf_append, sendsOf_eq_nil]
        · simp [sendsOf, Call.sendTo]
        · intro e he hsend
          exact hid (hbefore e he _ _ hsend)
      rw [hone, List.filter_cons_of_pos (by simp [hresp])]
      refine .cons ?_ htail
      show x.2.getLast? = some ⟨.send x.1.session msg id, ()⟩
      rw [hcalls]
      simp
    · have hnone : sendsOf s id x.2 = [] := by
        refine sendsOf_eq_nil ?_
        intro e he hsend
        rcases hx.uses (dispatch_sends J S x.1) e he s id hsend with ⟨rfl, hresp⟩ | hnotice
        · exact hask ⟨rfl, hresp⟩
        · exact hid hnotice
      rw [hnone, List.filter_cons_of_neg (by simpa using hask)]
      exact htail

namespace Cluster

variable {J : JsonCpp} {redis : Redis} {S : ServerName} {s : SessId} {tr : List (Act × Cluster)}
  {c : Cluster} {id : Int}

/-- The call that a step of the server makes. -/
def callOf (S : ServerName) : Act → Option (Event calls)
  | none => none
  | some (T, l) => if T = S then l.call else none

/-- The messages with the id that the server has sent to the session. -/
def sent (S : ServerName) (s : SessId) (id : Int) (tr : List (Act × Cluster)) : List (Bytes × Int) :=
  sendsOf s id (watched (callOf S) tr)

theorem callOf_of_ne {a : Act} (h : ∀ l, a ≠ some (S, l)) : callOf S a = none := by
  rcases a with _ | ⟨T, l⟩
  · rfl
  · exact if_neg fun hT => h l (by rw [hT])

/-- What is sent under another id than those of the service's notifications, the worker sends. -/
theorem sent_eq_worker (h : Run (Step J) (.init redis) tr c)
    (hid : ∀ request : ChatServiceImpl.Request, request.notice ≠ id) (S : ServerName) (s : SessId) :
    sent S s id tr = sendsOf s id (workerCalls S tr) := by
  induction h with
  | nil => rfl
  | @snoc tr c c' a hr hs ih =>
    unfold sent workerCalls at *
    rw [watched_snoc, watched_snoc, List.filterMap_append, sendsOf_append, sendsOf_append, ih]
    congr 1
    rcases hs.own_cases S with ⟨-, hne⟩ | ⟨l, rfl, hv⟩
    · rw [callOf_of_ne hne, workerStep_of_ne hne]
      rfl
    · rw [workerStep_own, show callOf S (some (S, l)) = l.call from if_pos rfl]
      have hdirected := directed_of_run hr S
      have hapart := apart_of_run hr S
      generalize c.server S = v at hv hdirected hapart
      generalize c'.redis = r' at hv
      generalize c'.server S = v' at hv
      cases hv with
      | @io _ _ t e _ _ ht hstep _ =>
        -- a callback sends nothing
        have hnone := ((hapart.io _ ht).step hstep).1.sends
        have hcalls : sendsOf s id (Option.toList (Label.io e).call) = [] := by
          refine sendsOf_eq_nil ?_
          simp [Label.call, hnone]
        rw [hcalls]
        rcases hposts : e.1.posts with _ | msg <;> simp [Label.workerStep, hposts, Worker.Label.event, sendsOf]
      | @rpc _ _ before after p _ e _ hmem hstep _ =>
        -- a thread of the service sends notifications
        have hcalls : sendsOf s id (Option.toList (Label.rpc e).call) = [] := by
          refine sendsOf_eq_nil ?_
          simp only [Label.call, Option.toList_some, List.mem_singleton, forall_eq]
          intro hsend
          obtain ⟨request, past, -, -, hheeds⟩ := hdirected.rpcs p (by simp [hmem])
          obtain ⟨msg, he⟩ := send_of_sends hsend
          obtain ⟨rfl, -, -⟩ := (hheeds.step hstep).1 s msg id he
          exact hid request rfl
        rw [hcalls]
        rfl
      | workerDone _ _ => rfl
      | _ => rfl

/-- **Each request has its reply.** In every run, whatever other sessions and threads do: the server has
handled the first `k` of the frames that have arrived on a session, and the messages that it has sent to the
session under the id of a reply, other than that to a text message, are the last calls of the handlers of
those frames that this reply answers, in the order of the frames, one for each; and then what the handler at
work has sent. -/
theorem answers_in_order (h : Run (Step J) (.init redis) tr c) {msgs : List Message}
    (ha : Arrived S s tr msgs) (hid : ¬ IsNotice id) : ∃ done k, Handled J S tr (c.server S) done ∧
      (done.filter fun x => x.1.session = s).map (fun x => (x.1.recvNode.msgId, x.1.recvNode.text)) =
        (msgs.take k).map (fun m => (m.msgId, m.body)) ∧
      ((c.server S).callbackOf s = none → (∀ node ∈ (c.server S).proc.msgQue, node.session ≠ s) →
        msgs.take k = msgs) ∧
      ∃ replies, List.Forall₂ (Answers s)
          (done.filter fun x => x.1.session = s ∧ responseId x.1.recvNode.msgId = some id) replies ∧
        replies.length = (msgs.take k).countP (fun m => responseId m.msgId = some id) ∧
        sent S s id tr = replies ++ sendsOf s id ((c.server S).worker.elim [] WorkerTask.past) := by
  obtain ⟨done, k, hdone, htake, hall⟩ := taken_of_run h ha
  have hpairs := answers_of_whole (s := s) hid hdone.whole
  refine ⟨done, k, hdone, htake, hall, _, hpairs, ?_, ?_⟩
  · rw [← hpairs.length_eq, ← List.countP_eq_length_filter]
    have hcount := congrArg (List.countP fun x => responseId x.1 = some id) htake
    rw [List.countP_map, List.countP_map, List.countP_filter] at hcount
    refine Eq.trans ?_ hcount
    refine List.countP_congr fun x _ => ?_
    simp [and_comm]
  · have hnotice : ∀ request : ChatServiceImpl.Request, request.notice ≠ id := by
      rintro request rfl
      exact hid request.notice_isNotice
    rw [sent_eq_worker h hnotice, hdone.made, sendsOf_append]

end Cluster

end ChatServer
