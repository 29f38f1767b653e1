import ChatServer.Binding

/-!
# In whose name a handler acts

Friend requests, acceptances and texts are made in the name of a user. The handlers take that user
from the body of the message and never look at the user that the session is bound to
(`acts_in_name`), so a client that has not logged in can act for anybody (`acts_unbound`).
-/

namespace ChatServer

open Interaction Transition Prog Handler Bytes Decimal

/-! ## The user that is named and the user that is acted for -/

/-- The messages that act in the name of a user. -/
def ActsInName (msg_id : Int) : Prop :=
  msg_id = MsgIds.addFriendReq.id ∨ msg_id = MsgIds.authFriendReq.id ∨
    msg_id = MsgIds.textChatMsgReq.id

/-- The user in whose name a message asks to act, as its body says: `uid` of a friend request,
`touid` of an acceptance, `fromuid` of a text message. -/
def namedUser (J : JsonCpp) (node : RecvNode) : Except Exn Int :=
  let root := (J.parse node.text).2
  if node.msgId = MsgIds.addFriendReq.id then root.getInt "uid"
  else if node.msgId = MsgIds.authFriendReq.id then root.getInt "touid"
  else root.getInt "fromuid"

/-- The user in whose name a call stores an application, stores friends or passes on texts. -/
def Call.actor : Call → Option Int
  | .addFriendApply uid _ _ => some uid
  | .authFriendApply _ touid => some touid
  | .addFriend _ accepterUid _ _ => some accepterUid
  | .notifyTextChatMsg _ req => some req.fromuid
  | _ => none

/-- The call acts in no name but that of `u`: the texts that it delivers are from `u`, and it does
not ask what a session is bound to. -/
def Call.InName (J : JsonCpp) (u : Int) : Call → Prop
  | .send _ msg msgid => msgid = MsgIds.textChatMsgRsp.id →
    ∃ touid text_array,
      msg = J.toStyledString (LogicSystem.textChatReply u touid text_array)
  | .getUserId _ => False
  | .bClose _ => False
  | c => ∀ v, c.actor = some v → v = u

/-! ## The handlers -/

namespace LogicSystem

variable {J : JsonCpp} {u : Int} {c : Call}

theorem CacheCall.inName (h : CacheCall c) : c.InName J u := by
  cases h <;> exact fun _ h => nomatch h

theorem AddFriendCall.inName {touid : Int} {name alias_name : Bytes}
    (h : AddFriendCall J u touid name alias_name c) : c.InName J u := by
  cases h with
  | apply => exact fun v hv => (Option.some.inj hv).symm
  | cache h => exact h.inName
  | notify => exact fun h => absurd h (by decide)
  | route | session | peer => exact fun _ h => nomatch h

theorem AuthFriendCall.inName {applicant_uid : Int} {alias_name : Bytes}
    (h : AuthFriendCall J applicant_uid u alias_name c) : c.InName J u := by
  cases h with
  | accept => exact fun v hv => (Option.some.inj hv).symm
  | add => exact fun v hv => (Option.some.inj hv).symm
  | cache h => exact h.inName
  | notify => exact fun h => absurd h (by decide)
  | applyAlias | friendAlias | route | session | peer => exact fun _ h => nomatch h

theorem TextChatCall.inName {touid : Int} {text_array : Json}
    (h : TextChatCall J u touid text_array c) : c.InName J u := by
  cases h with
  | deliver => exact fun _ => ⟨touid, text_array, rfl⟩
  | peer => exact fun v hv => (Option.some.inj hv).symm
  | route | session => exact fun _ h => nomatch h

/-- **Every call made for such a message acts in the name of the user named in its body.** -/
theorem HandlerCall.inName {self : ServerName} {session : SessId} {node : RecvNode}
    (h : HandlerCall J self session (J.parse node.text).2 node.msgId c) (hid : ActsInName node.msgId) :
    ∃ u, namedUser J node = .ok u ∧ c.InName J u := by
  unfold namedUser
  generalize hm : node.msgId = msg_id at h hid
  cases h with
  | login | loginReply | search | searchReply => exact absurd hid (by unfold ActsInName; decide)
  | addFriend huid h => exact ⟨_, huid, h.inName⟩
  | addFriendReply _ huid => exact ⟨_, huid, fun h => absurd h (by decide)⟩
  | authFriend _ huid h => exact ⟨_, huid, h.inName⟩
  | authFriendReply _ huid => exact ⟨_, huid, fun h => absurd h (by decide)⟩
  | textChat huid h => exact ⟨_, huid, h.inName⟩
  | textChatReply huid => exact ⟨_, huid, fun _ => ⟨_, _, rfl⟩⟩

theorem dispatch_inName (self : ServerName) {node : LogicNode} (h : ActsInName node.recvNode.msgId) :
    (dispatch J self node).run.Uses fun c : Call =>
      ∃ u, namedUser J node.recvNode = .ok u ∧ c.InName J u :=
  (dispatch_calls J self node).mono fun _ hc => hc.inName h

end LogicSystem

/-! ## Runs -/

section Runs

variable {J : JsonCpp} {redis : Redis} {tr : List (Cluster.Act × Cluster)} {c : Cluster}

/-- What is left of the worker's task acts in the name of the user named in its message. -/
def Server.InName (J : JsonCpp) (v : Server) : Prop :=
  ∀ t ∈ v.worker, ActsInName t.node.recvNode.msgId →
    t.rest.Uses fun c : Call => ∃ u, namedUser J t.node.recvNode = .ok u ∧ c.InName J u

theorem Server.InName.step {self : ServerName} {r r' : Redis} {v v' : Server} {l : Label}
    (h : v.InName J) (hs : Server.Step J self (r, v) l (r', v')) : v'.InName J := by
  cases hs with
  | take _ _ =>
    rintro _ ⟨⟩ hid
    exact LogicSystem.dispatch_inName self hid
  | worker ht hp _ =>
    rintro _ ⟨⟩ hid
    exact ((h _ ht hid).step hp).2
  | workerDone _ _ => exact fun _ h => nomatch h
  | _ => exact h

theorem Cluster.run_inName (S : ServerName)
    (h : Run (Cluster.Step J) (Cluster.init redis) tr c) : (c.server S).InName J :=
  Cluster.run_server (fun _ h => nomatch h) (fun _ _ _ _ _ hv hs => hv.step hs) h

/-- **In whose name the handlers act.** In a run of a cluster, every call that the worker of `S` makes
for a friend request, an acceptance or a text message acts in no name but that of the user whom the
body of the message names, and none asks which user the session is bound to. -/
theorem acts_in_name (S : ServerName) (h : Run (Cluster.Step J) (Cluster.init redis) tr c) :
    Each (Cluster.Step J) (Cluster.init redis)
      (fun _ c a => ∀ t e, (c.server S).worker = some t → a.own S = some (.worker e) →
        ActsInName t.node.recvNode.msgId →
        ∃ u, namedUser J t.node.recvNode = .ok u ∧ e.1.InName J u) tr := by
  refine Run.each_of_each (C := fun _ _ _ => True) ?_ h fun _ _ _ _ _ _ => trivial
  intro tr c a c' hr _ _ hs t e ht ha hid
  cases hs with
  | @server T l r v hlive hs =>
    obtain ⟨rfl, hl⟩ := Option.ite_none_right_eq_some.mp ha
    cases hl
    cases hs with
    | worker ht' hp _ =>
      cases ht.symm.trans ht'
      exact ((Cluster.run_inName T hr t ht hid).step hp).1
  | others _ _ => cases ha

/-- The call acts in the name of the user that the session of the message is bound to. -/
def actsBound (S : ServerName) (c : Cluster) (a : Cluster.Act) : Bool :=
  match (c.server S).worker, a.own S with
  | some t, some (.worker e) => ∀ v ∈ e.1.actor, (c.ledger S).uid t.node.session = v
  | _, _ => true

/-- A friend request in the name of the user 7. -/
def forgedText : Bytes :=
  lit "\x7b\"alias_name\":\"a\",\"apply_name\":\"n\",\"touid\":8,\"uid\":7\x7d"

/-- Its header: message 2005, 53 bytes. -/
def forgedHead : Bytes := [7, 213, 0, 53]

def forgedTexts : JsonCpp :=
  .ofTable [(forgedText, .obj [(lit "alias_name", .str (lit "a")), (lit "apply_name", .str (lit "n")),
    (lit "touid", .int 8), (lit "uid", .int 7)])]

/-- A client connects and, without logging in, sends the request. -/
def forgedRun : List (Cluster.Act × Cluster) :=
  Cluster.schedule forgedTexts knowsUsers (.init startRedis)
    ((connects 0 ++ .readSome 0 false forgedHead :: callback ++
      .readSome 0 false forgedText :: callback ++ handling).map fun m => (s1, m))

theorem forgedRun_run : Run (Cluster.Step forgedTexts) (.init startRedis) forgedRun
    (final (.init startRedis) forgedRun) := Cluster.schedule_run ..

/-- The session is bound to nobody, and an application of the user 7 is stored. -/
theorem acts_unbound : ¬ ∀ (J : JsonCpp) (redis : Redis) (S : ServerName)
    (tr : List (Cluster.Act × Cluster)) (c : Cluster),
    Run (Cluster.Step J) (Cluster.init redis) tr c →
    Each (Cluster.Step J) (Cluster.init redis) (fun _ c a => actsBound S c a = true) tr := by
  intro h
  have hbound := forgedRun_run.each_iff_along.mp (h _ _ s1 _ _ forgedRun_run)
  exact absurd hbound (by decide +kernel)

/-- The request of the user 7. -/
theorem acts_forged : ∃ tr c, Run (Cluster.Step forgedTexts) (Cluster.init startRedis) tr c ∧
    Each (Cluster.Step forgedTexts) (Cluster.init startRedis)
      (fun _ c a => ∀ t e, (c.server s1).worker = some t → a.own s1 = some (.worker e) →
        ActsInName t.node.recvNode.msgId →
        ∃ u, namedUser forgedTexts t.node.recvNode = .ok u ∧ e.1.InName forgedTexts u) tr :=
  ⟨forgedRun, final _ forgedRun, forgedRun_run, acts_in_name s1 forgedRun_run⟩

end Runs

end ChatServer
