import ChatServer.Outgoing

/-!
# The order of text messages

A text message is answered like any other request, but a recipient on the same server is sent a copy of the
reply, under the id of the reply. So what clients read under this id is not a matter of one session alone.
`textsTo` says what one handled message sends to a session; the server's worker handles the messages of all
sessions one after the other, and only it sends under this id (`texts_sent_by_worker`). Hence there is one
order, that in which the messages are handled, in which every client of the server reads the texts that are
for it, and it keeps the order in which each sender has sent them (`texts_in_order`).
-/

namespace ChatServer

open Interaction Transition Prog Handler LogicSystem

/-! ## What one message sends -/

/-- The users and the texts of a text message. -/
def textRequest (J : JsonCpp) (node : RecvNode) : Option (Int × Int × Json) :=
  let root := (J.parse node.text).2
  if node.msgId = MsgIds.textChatMsgReq.id ∧ (root.isNull || root.empty) = false then
    match root.getInt "fromuid", root.getInt "touid", root.member "text_array" with
    | .ok fromuid, .ok touid, .ok text_array => some (fromuid, touid, text_array)
    | _, _, _ => none
  else none

/-- `UserMgr` is asked for the user and has the session. -/
def foundAt (uid : Int) (s : SessId) : Event calls → Bool
  | ⟨.getSession u, session⟩ => decide (u = uid) && decide (session = some s)
  | _ => false

/-- The message that replies to a text message. -/
def textMessage (J : JsonCpp) (fromuid touid : Int) (text_array : Json) : Bytes × Int :=
  (J.toStyledString (textChatReply fromuid touid text_array), MsgIds.textChatMsgRsp.id)

/-- What a handled message has sent to the session under the id of a text message's reply: the copy, if the
recipient was found there, and the reply, if it is the sender's session. -/
def textsTo (J : JsonCpp) (s : SessId) (x : LogicNode × List (Event calls)) : List (Bytes × Int) :=
  match textRequest J x.1.recvNode with
  | none => []
  | some (fromuid, touid, text_array) =>
    (if x.2.any (foundAt touid s) then [textMessage J fromuid touid text_array] else []) ++
      if x.1.session = s then [textMessage J fromuid touid text_array] else []

section Handlers

variable {J : JsonCpp} {self : ServerName} {s : SessId} {fromuid touid : Int} {text_array : Json}
  {tr : List (Event calls)}

/-- A handler that returns has got past what could have thrown. -/
theorem yields_lift_ok {α β : Type} {x : Except Exn α} {f : α → Handler β} {b : β}
    (h : Yields ((liftM x : Handler α) >>= f).run tr (.ok b)) :
    ∃ a, x = .ok a ∧ Yields (f a).run tr (.ok b) := by
  rcases x with e | a
  · cases (yields_ret.mp h).2
  · exact ⟨a, rfl, h⟩

/-- A handler that returns has got past its first part. -/
theorem yields_bind_split {α β : Type} {x : Handler α} {f : α → Handler β} {b : β}
    (h : Yields (x >>= f).run tr (.ok b)) :
    ∃ a t₁ t₂, tr = t₁ ++ t₂ ∧ Yields x.run t₁ (.ok a) ∧ Yields (f a).run t₂ (.ok b) := by
  rw [ExceptT.run_bind] at h
  obtain ⟨r, t₁, t₂, rfl, hx, hf⟩ := yields_bind.mp h
  rcases r with e | a
  · cases (yields_ret.mp hf).2
  · exact ⟨a, t₁, t₂, rfl, hx, hf⟩

/-- The recipient's copy. -/
theorem routeTextChatMsg_texts
    (h : Yields (routeTextChatMsg J self fromuid touid text_array).run tr (.ok ())) :
    sendsOf s MsgIds.textChatMsgRsp.id tr =
      if tr.any (foundAt touid s) then [textMessage J fromuid touid text_array] else [] := by
  obtain ⟨to_ip_value, tr, rfl, hroute⟩ := yields_call.mp h
  rcases to_ip_value with _ | to_ip_value
  · obtain ⟨rfl, -⟩ := yields_ret.mp hroute
    simp [sendsOf, Call.sendTo, foundAt]
  replace hroute : Yields (if to_ip_value = self.val then _ else _ : Handler Unit).run tr (.ok ()) := hroute
  split_ifs at hroute with hself
  · obtain ⟨session, tr, rfl, hlookup⟩ := yields_call.mp hroute
    rcases session with _ | session
    · obtain ⟨rfl, -⟩ := yields_ret.mp hlookup
      simp [sendsOf, Call.sendTo, foundAt]
    · obtain ⟨⟨⟩, tr, rfl, hsend⟩ := yields_call.mp hlookup
      obtain ⟨rfl, -⟩ := yields_ret.mp hsend
      by_cases hs : session = s <;> simp [sendsOf, Call.sendTo, foundAt, textMessage, hs]
  · obtain ⟨textmsgs, -, hpeer⟩ := yields_lift_ok hroute
    obtain ⟨rsp, tr, rfl, hend⟩ := yields_call.mp hpeer
    obtain ⟨rfl, -⟩ := yields_ret.mp hend
    simp [sendsOf, Call.sendTo, foundAt]

/-- Other messages send nothing under this id. -/
theorem dispatch_no_texts {node : LogicNode} (hne : node.recvNode.msgId ≠ MsgIds.textChatMsgReq.id)
    (h : Yields (dispatch J self node).run tr (.ok ())) : sendsOf s MsgIds.textChatMsgRsp.id tr = [] := by
  refine sendsOf_eq_nil ?_
  intro e he hsend
  have huses : (dispatch J self node).run.Uses fun c : Call => ∃ past, Addressed J self node past c :=
    (dispatch_directs J self node).uses fun past c hc => ⟨past, hc⟩
  obtain ⟨past, haddressed⟩ := h.uses huses e he
  rcases haddressed.sends s _ hsend with ⟨-, hid⟩ | ⟨u, hu, -⟩
  · unfold responseId at hid
    split_ifs at hid <;> cases hid
  · unfold addressee at hu
    dsimp only at hu
    split_ifs at hu <;> simp [MsgIds.id] at hu

/-- **What a handled message has sent** under the id of a text message's reply. -/
theorem dispatch_texts {node : LogicNode} (h : Yields (dispatch J self node).run tr (.ok ())) :
    sendsOf s MsgIds.textChatMsgRsp.id tr = textsTo J s (node, tr) := by
  by_cases htext : node.recvNode.msgId = MsgIds.textChatMsgReq.id
  · have hcall : dispatch J self node =
        chatTextMsgHandler J self node.session node.recvNode.text := by
      simp [dispatch, LogicSystem.callback, htext, MsgIds.id]
    rw [hcall] at h
    unfold chatTextMsgHandler at h
    dsimp only at h
    split_ifs at h with hempty
    · obtain ⟨rfl, -⟩ := yields_ret.mp h
      simp [textsTo, textRequest, hempty, sendsOf]
    · obtain ⟨fromuid, hfrom, h₁⟩ := yields_lift_ok h
      obtain ⟨touid, hto, h₂⟩ := yields_lift_ok h₁
      obtain ⟨text_array, harray, h₃⟩ := yields_lift_ok h₂
      obtain ⟨⟨⟩, before, last, rfl, hroute, hreply⟩ := yields_bind_split h₃
      obtain ⟨⟨⟩, last, rfl, hend⟩ := yields_call.mp hreply
      obtain ⟨rfl, -⟩ := yields_ret.mp hend
      have hrequest : textRequest J node.recvNode = some (fromuid, touid, text_array) := by
        simp [textRequest, htext, hempty, hfrom, hto, harray]
      rw [sendsOf_append, routeTextChatMsg_texts hroute]
      simp only [textsTo, hrequest, List.any_append, List.any_cons, List.any_nil, foundAt, Bool.or_false]
      congr 1
      by_cases hs : node.session = s <;> simp [sendsOf, Call.sendTo, textMessage, hs]
  · rw [dispatch_no_texts htext h]
    simp [textsTo, textRequest, htext]

end Handlers

theorem sendsOf_flatMap {α : Type} (s : SessId) (id : Int) (f : α → List (Event calls)) (xs : List α) :
    sendsOf s id (xs.flatMap f) = xs.flatMap fun x => sendsOf s id (f x) := by
  simp [sendsOf, List.filterMap_flatMap, List.filter_flatMap]

/-! ## One order for all clients -/

namespace Cluster

variable {J : JsonCpp} {redis : Redis} {S : ServerName} {tr : List (Act × Cluster)} {c : Cluster}

/-- What a session was sent under the id of a text message's reply is what the handled messages have sent to
it, one after the other, and then what the handler at work has sent. -/
theorem texts_sent_by_worker (h : Run (Step J) (.init redis) tr c)
    {done : List (LogicNode × List (Event calls))} (hdone : Handled J S tr (c.server S) done) (s : SessId) :
    sent S s MsgIds.textChatMsgRsp.id tr = done.flatMap (textsTo J s) ++
      sendsOf s MsgIds.textChatMsgRsp.id ((c.server S).worker.elim [] WorkerTask.past) := by
  have hid : ∀ request : ChatServiceImpl.Request, request.notice ≠ MsgIds.textChatMsgRsp.id := by
    intro request
    cases request <;> simp [ChatServiceImpl.Request.notice, MsgIds.id]
  rw [sent_eq_worker h hid, hdone.made, sendsOf_append, sendsOf_flatMap]
  congr 1
  refine List.flatMap_congr fun x hx => ?_
  exact dispatch_texts (hdone.whole x hx)

/-- **Texts are read in one order.** In every run, whatever the threads do: there is one order in which the
server has handled the messages of all its sessions. Those of one session are handled in the order in which
they have arrived, each once. And the messages that a client decodes under the id of a text message's reply,
out of the bytes that it has got, are in this order the replies to its own text messages and the copies of the
texts for which `UserMgr` was found to have its session, at most one reply and one copy for a message; they
are all of these once nothing to the client is on its way, if no message to it was refused. -/
theorem texts_in_order (h : Run (Step J) (.init redis) tr c) (S : ServerName) :
    ∃ done, Handled J S tr (c.server S) done ∧
      (∀ s msgs, Arrived S s tr msgs → ∃ k,
        (done.filter fun x => x.1.session = s).map (fun x => (x.1.recvNode.msgId, x.1.recvNode.text)) =
          (msgs.take k).map (fun m => (m.msgId, m.body)) ∧
        ((c.server S).callbackOf s = none → (∀ node ∈ (c.server S).proc.msgQue, node.session ≠ s) →
          msgs.take k = msgs)) ∧
      ∀ s bytes, Heard S s redis tr c bytes →
        (decodedAs MsgIds.textChatMsgRsp.id bytes).Sublist (done.flatMap (textsTo J s) ++
          sendsOf s MsgIds.textChatMsgRsp.id ((c.server S).worker.elim [] WorkerTask.past)) ∧
        (Unrefused J S s redis tr → ((c.server S).proc.sess s).sendQue = [] →
          ((completed S s redis tr).map SendNode.wire).flatten <+: bytes →
          decodedAs MsgIds.textChatMsgRsp.id bytes = done.flatMap (textsTo J s) ++
            sendsOf s MsgIds.textChatMsgRsp.id ((c.server S).worker.elim [] WorkerTask.past)) := by
  obtain ⟨wtr, w, hr, ⟨-, ht⟩, hw⟩ := tracked_of_run h S
  have hdone := handled_of_tracks ht hr hw
  refine ⟨w.finished, hdone, fun s msgs ha => taken_of_handled h hdone ha, ?_⟩
  intro s bytes hb
  have hsent := texts_sent_by_worker h hdone s
  rw [← hsent]
  exact decodedAs_of_sent h hb _

/-- The user 7 logs in on one session, and another session of the server sends the user a text. -/
def textsHere : List (ServerName × Move) :=
  (connects 0 ++ logsIn 0 7 ++ connects 1 ++ .readSome 1 false chatHead :: callback ++
    .readSome 1 false chatText :: callback ++ handling).map fun m => (s1, m)

/-- The user 7 reads the text, once the reply to the login is written. -/
theorem texts_in_order_here : ∃ tr c bytes, Run (Step chatTexts) (.init startRedis) tr c ∧
    (decodedAs MsgIds.textChatMsgRsp.id bytes).length = 1 ∧ ∃ done, Handled chatTexts s1 tr (c.server s1) done ∧
      (decodedAs MsgIds.textChatMsgRsp.id bytes).Sublist (done.flatMap (textsTo chatTexts 0) ++
        sendsOf 0 MsgIds.textChatMsgRsp.id ((c.server s1).worker.elim [] WorkerTask.past)) := by
  let tr := schedule chatTexts knowsUsers (.init startRedis) textsHere
  let c := final (.init startRedis) tr
  let c' := c.written s1 0
  obtain ⟨hlive, hio, hwrites⟩ : (c.server s1).crashed = false ∧ (c.server s1).io.isNone = true ∧
      ((c.server s1).proc.sess 0).writes ≠ [] := by decide +kernel
  have h : Run (Step chatTexts) (.init startRedis) (tr ++ [(some (s1, .written 0 false), c')]) c' :=
    (schedule_run chatTexts knowsUsers _ textsHere).snoc (step_written hlive hio hwrites)
  let bytes := ((completed s1 0 startRedis (tr ++ [(some (s1, .written 0 false), c')]) ++
    ((c'.server s1).proc.sess 0).sendQue.take 1).map SendNode.wire).flatten
  have hlen : (decodedAs MsgIds.textChatMsgRsp.id bytes).length = 1 := by decide +kernel
  obtain ⟨done, hdone, -, hread⟩ := texts_in_order h s1
  exact ⟨_, c', bytes, h, hlen, done, hdone, (hread 0 bytes (List.prefix_refl _)).1⟩

end Cluster

end ChatServer
