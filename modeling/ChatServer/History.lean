import ChatServer.Coherence
import ChatServer.Friends
import ChatServer.Lib.Answers

/-!
# The friendship tables after any history

`tables_tell` describes the rows of `friend` and `friend_apply`, and the friends that a user is shown,
after any sequence of messages, by the friend requests and acceptances among them. No statement fails
and the tables begin empty; everything but the database may answer anything.
-/

namespace ChatServer

open Interaction Transition Prog Handler Bytes Function

/-! ## Requests and acceptances -/

/-- A friend request or its acceptance, as the handler reads it. -/
inductive FriendRequest where
  | add (uid touid : Int) (alias_name : Bytes)
  | accept (fromuid touid : Int) (alias_name : Bytes)
  deriving DecidableEq, Repr

/-- What `addFriendHandler` reads. -/
def addRequest (J : JsonCpp) (root : Json) : Except Exn FriendRequest := do
  let uid ← root.getInt "uid"
  let _ ← root.getString J "apply_name"
  let alias_name ← root.getString J "alias_name"
  let touid ← root.getInt "touid"
  pure (.add uid touid alias_name)

/-- What `authFriendHandler` reads. -/
def acceptRequest (J : JsonCpp) (root : Json) : Except Exn FriendRequest := do
  let fromuid ← root.getInt "fromuid"
  let touid ← root.getInt "touid"
  let alias_name ← root.getString J "alias_name"
  pure (.accept fromuid touid alias_name)

/-- The request that a message is, unless its members cannot be converted. -/
def LogicNode.friendRequest (J : JsonCpp) (node : LogicNode) : Option FriendRequest :=
  let root := (J.parse node.recvNode.text).2
  if node.recvNode.msgId = MsgIds.addFriendReq.id then (addRequest J root).toOption
  else if node.recvNode.msgId = MsgIds.authFriendReq.id then (acceptRequest J root).toOption
  else none

/-- The statements that change the tables for a request. -/
def FriendRequest.statements (db : Db) : FriendRequest → List Sql
  | .add uid touid alias_name => [.insertApply uid touid alias_name]
  | .accept fromuid touid alias_name =>
    let apply_alias := ((db.friendApply (fromuid, touid)).map ApplyRow.aliasName).getD []
    [.updateApply fromuid touid, .insertFriend fromuid touid apply_alias,
      .insertFriend touid fromuid alias_name]

/-- The tables after a request. -/
def Db.carryOut (db : Db) (q : FriendRequest) : Db := (q.statements db).foldl Db.apply db

/-- The database after statements on the two tables. -/
def Database.applyAll (db : Database) (os : List Sql) : Database :=
  os.foldl (fun db o => db.apply (.table o)) db

/-! ## What a message does -/

section Calls

/-- Functions of `MySqlMgr` that change a table. -/
def Call.writesTables : Call → Bool
  | .addFriendApply _ _ _ => true
  | .authFriendApply _ _ => true
  | .addFriend _ _ _ _ => true
  | _ => false

theorem Database.call_keeps (c : Call) (db : Database) (x : c.Resp × Database)
    (hc : c.writesTables = false) (h : db.call c = some x) : x.2 = db := by
  cases c with
  | addFriendApply _ _ _ | authFriendApply _ _ | addFriend _ _ _ _ => cases hc
  | getUserInfo uid => cases h; rfl
  | getUserInfoByName name => cases h; rfl
  | getApplyList touid start limit => cases h; rfl
  | getFriendList uid =>
    rw [Database.call_getFriendList] at h
    cases h
    rfl
  | getFriendApplyAlias from_uid to_uid =>
    rw [Database.call_getFriendApplyAlias] at h
    cases h
    rfl
  | getFriendAlias self_id friend_id =>
    rw [Database.call_getFriendAlias] at h
    cases h
    rfl
  | _ => cases h

variable {α β : Type} {post : Except Exn β → Database → Prop} {db : Database}

/-- A handler that writes no table. -/
theorem wp_keeps {p : Io α} (hp : p.Uses fun c : Call => c.writesTables = false) (db : Database) :
    p.Wp (fun c db => Database.call c db) (fun _ db' => db' = db) db :=
  hp.wp (fun c db x hc h => Database.call_keeps c db x hc h) db

theorem wp_lift {x : Except Exn α} {f : α → Handler β}
    (hok : ∀ a, x = .ok a → (f a).run.Wp (fun c db => Database.call c db) post db)
    (herr : ∀ e, x = .error e → post (.error e) db) :
    ((liftM x : Handler α) >>= f).run.Wp (fun c db => Database.call c db) post db := by
  rcases x with e | a
  · exact herr e rfl
  · exact hok a rfl

theorem wp_bind {mid : Except Exn α → Database → Prop} {h : Handler α} {f : α → Handler β}
    (hh : h.run.Wp (fun c db => Database.call c db) mid db)
    (hok : ∀ a db, mid (.ok a) db → (f a).run.Wp (fun c db => Database.call c db) post db)
    (herr : ∀ e db, mid (.error e) db → post (.error e) db) :
    (h >>= f).run.Wp (fun c db => Database.call c db) post db := by
  rw [ExceptT.run_bind]
  refine hh.bind ?_
  intro r db hr
  rcases r with e | a
  · exact herr e db hr
  · exact hok a db hr

end Calls

namespace LogicSystem

variable {J : JsonCpp} {self : ServerName}

/-- Looking for the one to notify, and notifying, writes no table. -/
theorem routeAddFriend_keeps (uid touid : Int) (name alias_name : Bytes) (session : SessId)
    (msg : Bytes) (msgid : Int) :
    (routeAddFriend J self uid touid name alias_name >>= fun _ =>
      ask (.send session msg msgid)).run.Uses fun c : Call => c.writesTables = false := by
  refine uses_bind (uses_ask rfl ?_) fun _ => uses_ask_last rfl
  intro to_ip_value
  rcases to_ip_value with _ | to_ip_value
  · exact uses_pure _
  · refine uses_bind ((getBaseInfo_calls _ uid).mono ?_) ?_
    · rintro _ (_ | _ | _) <;> rfl
    · intro apply_info
      split
      · refine uses_ask rfl ?_
        intro to_user_session
        rcases to_user_session with _ | s
        · exact uses_pure _
        · exact uses_ask_last rfl
      · exact uses_ask rfl fun _ => uses_pure _

theorem routeAuthFriend_keeps (applicant_uid accepter_uid : Int) (peer_alias : Bytes)
    (session : SessId) (msg : Bytes) (msgid : Int) :
    (routeAuthFriend J self applicant_uid accepter_uid peer_alias >>= fun _ =>
      ask (.send session msg msgid)).run.Uses fun c : Call => c.writesTables = false := by
  refine uses_bind (uses_ask rfl ?_) fun _ => uses_ask_last rfl
  intro to_ip_value
  rcases to_ip_value with _ | to_ip_value
  · exact uses_pure _
  · dsimp only
    split
    · refine uses_ask rfl ?_
      intro peer_session
      rcases peer_session with _ | s
      · exact uses_pure _
      · refine uses_bind ((getBaseInfo_calls _ accepter_uid).mono ?_) fun _ => uses_ask_last rfl
        rintro _ (_ | _ | _) <;> rfl
    · exact uses_ask rfl fun _ => uses_pure _

/-- A message of another kind writes no table. -/
theorem HandlerCall.keeps {session : SessId} {root : Json} {msg_id : Int} {c : Call}
    (h : HandlerCall J self session root msg_id c) (hadd : msg_id ≠ MsgIds.addFriendReq.id)
    (hauth : msg_id ≠ MsgIds.authFriendReq.id) : c.writesTables = false := by
  rcases h with h | _ | h | _ | ⟨_, _⟩ | _ | ⟨_, _, _⟩ | _ | ⟨_, h⟩ | _
  · rcases h with _ | h | _ | _ | _ | _ | _ | _ | _
    on_goal 2 => rcases h with _ | _ | _
    all_goals rfl
  · rfl
  · rcases h with _ | _ | h
    on_goal 3 => rcases h with _ | _ | _
    all_goals rfl
  · rfl
  · exact absurd rfl hadd
  · exact absurd rfl hadd
  · exact absurd rfl hauth
  · exact absurd rfl hauth
  · rcases h with _ | _ | _ | _ <;> rfl
  · rfl

/-! ### The two handlers -/

/-- The tables after the statements for the request, if there is one. -/
def carriesOut (db : Database) (q : Option FriendRequest) (_ : Except Exn Unit) (db' : Database) :
    Prop :=
  db' = db.applyAll ((q.map (FriendRequest.statements db.tables)).getD [])

/-- A handler that returns and writes no table. -/
def readsAndReturns {α : Type} (db : Database) (r : Except Exn α) (db' : Database) : Prop :=
  (∃ a, r = .ok a) ∧ db' = db

theorem cacheProfile_wp (db : Database) (base_key name cache_json : Bytes) :
    (cacheProfile base_key name cache_json).run.Wp (fun c db => Database.call c db)
      (readsAndReturns db) db := by
  refine wp_other rfl ?_
  intro _
  show (if name = [] then (pure () : Handler Unit) else _).run.Wp _ _ _
  split
  · exact ⟨⟨(), rfl⟩, rfl⟩
  · refine wp_other rfl ?_
    intro _
    exact ⟨⟨(), rfl⟩, rfl⟩

theorem getBaseInfo_wp (db : Database) (base_key : Bytes) (uid : Int) :
    (getBaseInfo J base_key uid).run.Wp (fun c db => Database.call c db) (readsAndReturns db) db := by
  refine wp_answered (Database.call_getUserInfo db uid) ?_
  rcases db.users.getUserInfo uid with _ | user
  · exact ⟨⟨none, rfl⟩, rfl⟩
  · refine wp_bind (cacheProfile_wp db _ _ _) ?_ ?_
    · rintro _ _ ⟨-, rfl⟩
      exact ⟨⟨_, rfl⟩, rfl⟩
    · rintro e _ ⟨⟨_, h⟩, -⟩
      cases h

theorem addFriendHandler_wp (db : Database) (session : SessId) (msg_data : Bytes) :
    (addFriendHandler J self session msg_data).run.Wp (fun c db => Database.call c db)
      (carriesOut db (addRequest J (J.parse msg_data).2).toOption) db := by
  unfold addFriendHandler addRequest
  refine wp_lift ?_ (fun e h => by rw [h]; rfl)
  intro uid huid
  rw [huid]
  refine wp_lift ?_ (fun e h => by rw [h]; rfl)
  intro name hname
  rw [hname]
  refine wp_lift ?_ (fun e h => by rw [h]; rfl)
  intro alias_name halias
  rw [halias]
  refine wp_lift ?_ (fun e h => by rw [h]; rfl)
  intro touid htouid
  rw [htouid]
  -- the application is stored, and what is left reads the database only
  refine wp_answered (Database.call_addFriendApply db uid touid alias_name) ?_
  refine (wp_keeps (routeAddFriend_keeps uid touid name alias_name session _ _) _).mono ?_
  intro _ _ h
  exact h

theorem authFriendHandler_wp (db : Database) (session : SessId) (msg_data : Bytes) :
    (authFriendHandler J self session msg_data).run.Wp (fun c db => Database.call c db)
      (carriesOut db (acceptRequest J (J.parse msg_data).2).toOption) db := by
  unfold authFriendHandler acceptRequest
  refine wp_lift ?_ (fun e h => by rw [h]; rfl)
  intro fromuid hfrom
  rw [hfrom]
  refine wp_lift ?_ (fun e h => by rw [h]; rfl)
  intro touid hto
  rw [hto]
  refine wp_lift ?_ (fun e h => by rw [h]; rfl)
  intro alias_name halias
  rw [halias]
  refine wp_bind (getBaseInfo_wp db (baseKey fromuid) fromuid) ?_ ?_
  · rintro info db ⟨-, rfl⟩
    refine wp_answered (Database.call_getFriendApplyAlias db fromuid touid) ?_
    refine wp_answered (Database.call_authFriendApply db fromuid touid).choose_spec ?_
    refine wp_answered (Database.call_addFriend _ fromuid touid _ alias_name).choose_spec ?_
    refine wp_answered (Database.call_getFriendAlias _ fromuid touid) ?_
    refine (wp_keeps (routeAuthFriend_keeps fromuid touid _ session _ _) _).mono ?_
    rintro _ _ rfl
    show _ = db.applyAll [.updateApply fromuid touid, .insertFriend fromuid touid _,
      .insertFriend touid fromuid alias_name]
    rcases db.tables.friendApply (fromuid, touid) with _ | row <;> rfl
  · rintro e _ ⟨⟨_, h⟩, -⟩
    cases h

/-- **What a message does to the database.** -/
theorem dispatch_wp (db : Database) (node : LogicNode) :
    (dispatch J self node).run.Wp (fun c db => Database.call c db)
      (carriesOut db (node.friendRequest J)) db := by
  by_cases hadd : node.recvNode.msgId = MsgIds.addFriendReq.id
  · have hdispatch : dispatch J self node =
        addFriendHandler J self node.session node.recvNode.text := by
      unfold dispatch callback
      rw [hadd]
      rfl
    have hrequest : node.friendRequest J =
        (addRequest J (J.parse node.recvNode.text).2).toOption := if_pos hadd
    rw [hdispatch, hrequest]
    exact addFriendHandler_wp db node.session node.recvNode.text
  · by_cases hauth : node.recvNode.msgId = MsgIds.authFriendReq.id
    · have hdispatch : dispatch J self node =
          authFriendHandler J self node.session node.recvNode.text := by
        unfold dispatch callback
        rw [hauth]
        rfl
      have hrequest : node.friendRequest J =
          (acceptRequest J (J.parse node.recvNode.text).2).toOption := by
        unfold LogicNode.friendRequest
        rw [if_neg hadd, if_pos hauth]
      rw [hdispatch, hrequest]
      exact authFriendHandler_wp db node.session node.recvNode.text
    · have hrequest : node.friendRequest J = none := by
        unfold LogicNode.friendRequest
        rw [if_neg hadd, if_neg hauth]
      rw [hrequest]
      exact wp_keeps ((dispatch_calls J self node).mono fun _ h => h.keeps hadd hauth) db

end LogicSystem

/-! ## Runs -/

/-- A worker handles a message. The calls on the database are carried out; nothing is assumed about
the server, the session, or what Redis, the sessions and the peers answer. -/
inductive HistoryStep (J : JsonCpp) : Database → LogicNode → Database → Prop where
  | handle {self : ServerName} {node : LogicNode} {db db' : Database} {tr : List (Event calls)}
      {r : Except Exn Unit} :
      Exec (Answered fun c db => Database.call c db) (LogicSystem.dispatch J self node).run db tr r db' →
      HistoryStep J db node db'

/-- The requests and acceptances among the messages of a run, in their order. -/
def friendRequests (J : JsonCpp) (tr : List (LogicNode × Database)) : List FriendRequest :=
  tr.filterMap fun x => x.1.friendRequest J

/-! ## What a history tells -/

namespace FriendRequest

/-- An acceptance between the two users, whoever has accepted. -/
def Between (x y : Int) : FriendRequest → Prop
  | .add _ _ _ => False
  | .accept fromuid touid _ => (fromuid = x ∧ touid = y) ∨ (fromuid = y ∧ touid = x)

/-- The alias that the request gives, if it is one of `x` to `y`. -/
def appliedAlias (x y : Int) : FriendRequest → Option Bytes
  | .add uid touid alias_name => if uid = x ∧ touid = y then some alias_name else none
  | .accept _ _ _ => none

/-- The alias of the last request of `x` to `y`. -/
def lastAlias (history : List FriendRequest) (x y : Int) : Option Bytes :=
  (history.filterMap (appliedAlias x y)).getLast?

/-- The alias that `x` has for `y` by an acceptance after the history `before`: the applicant's own, or
the accepter's. -/
def aliasFor (before : List FriendRequest) (x y : Int) : FriendRequest → Bytes
  | .add _ _ _ => []
  | .accept fromuid _ alias_name =>
    if x = fromuid then (lastAlias before x y).getD [] else alias_name

/-- The application of `x` to `y` was made and then accepted. -/
def Granted (history : List FriendRequest) (x y : Int) : Prop :=
  ∃ before alias_name after, history = before ++ .accept x y alias_name :: after ∧
    ∃ apply_alias, .add x y apply_alias ∈ before

end FriendRequest

open FriendRequest

/-- The rows of the two tables, by the requests and acceptances that have been handled. -/
structure Db.Tells (history : List FriendRequest) (db : Db) : Prop where
  friend : ∀ x y, (db.friend (x, y)).isSome ↔ ∃ q ∈ history, q.Between x y
  /-- The alias is fixed by the first acceptance between the two. -/
  friendAlias : ∀ x y before q after, history = before ++ q :: after → q.Between x y →
    (∀ p ∈ before, ¬ p.Between x y) → db.friend (x, y) = some (q.aliasFor before x y)
  friendApply : ∀ x y, (db.friendApply (x, y)).isSome ↔ ∃ alias_name, .add x y alias_name ∈ history
  applyAlias : ∀ x y, (db.friendApply (x, y)).map ApplyRow.aliasName = lastAlias history x y
  status : ∀ x y row, db.friendApply (x, y) = some row →
    (row.status = 1 ↔ Granted history x y)

section Tables

variable {db : Db} {q : FriendRequest} {history : List FriendRequest} {x y : Int}

/-! ### One more request -/

theorem lastAlias_snoc : lastAlias (history ++ [q]) x y =
    (q.appliedAlias x y).or (lastAlias history x y) := by
  unfold lastAlias
  rw [List.filterMap_append, List.getLast?_append]
  rcases happly : q.appliedAlias x y with _ | alias_name
  · simp [happly]
  · simp [happly]

theorem granted_snoc : Granted (history ++ [q]) x y ↔ Granted history x y ∨
    ((∃ alias_name, q = .accept x y alias_name) ∧ ∃ alias_name, .add x y alias_name ∈ history) := by
  constructor
  · rintro ⟨before, alias_name, after, hsplit, hadd⟩
    rcases List.eq_nil_or_concat after with rfl | ⟨after, last, rfl⟩
    · obtain ⟨rfl, hq⟩ := List.append_inj' hsplit rfl
      simp only [List.cons.injEq, and_true] at hq
      exact Or.inr ⟨⟨alias_name, hq⟩, hadd⟩
    · rw [List.concat_eq_append, ← List.cons_append, ← List.append_assoc] at hsplit
      obtain ⟨rfl, -⟩ := List.append_inj' hsplit rfl
      exact Or.inl ⟨before, alias_name, after, rfl, hadd⟩
  · rintro (⟨before, alias_name, after, rfl, hadd⟩ | ⟨⟨alias_name, rfl⟩, hadd⟩)
    · exact ⟨before, alias_name, after ++ [q], by simp, hadd⟩
    · exact ⟨history, alias_name, [], rfl, hadd⟩

/-- The row that an acceptance inserts, unless it is there. -/
def FriendRequest.newAlias (db : Db) (x : Int) : FriendRequest → Bytes
  | .add _ _ _ => []
  | .accept fromuid touid alias_name =>
    if x = fromuid then ((db.friendApply (fromuid, touid)).map ApplyRow.aliasName).getD []
    else alias_name

theorem carryOut_friend (h : q.Between x y) :
    (db.carryOut q).friend (x, y) = some ((db.friend (x, y)).getD (q.newAlias db x)) := by
  rcases q with _ | ⟨fromuid, touid, alias_name⟩
  · exact h.elim
  · by_cases hself : fromuid = touid
    · subst hself
      obtain ⟨rfl, rfl⟩ | ⟨rfl, rfl⟩ := h <;>
        simp [Db.carryOut, statements, Db.apply, newAlias]
    · have hne : (fromuid, touid) ≠ (touid, fromuid) := fun h => hself (Prod.mk.inj h).1
      obtain ⟨rfl, rfl⟩ | ⟨rfl, rfl⟩ := h
      · simp [Db.carryOut, statements, Db.apply, newAlias, update_of_ne hne]
      · simp [Db.carryOut, statements, Db.apply, newAlias, Ne.symm hself]

theorem carryOut_friend_of_not (h : ¬ q.Between x y) :
    (db.carryOut q).friend (x, y) = db.friend (x, y) := by
  rcases q with _ | ⟨fromuid, touid, alias_name⟩
  · rfl
  · simp only [Between, not_or] at h
    have h₁ : (x, y) ≠ (fromuid, touid) := fun he => h.1 ⟨(Prod.mk.inj he).1.symm, (Prod.mk.inj he).2.symm⟩
    have h₂ : (x, y) ≠ (touid, fromuid) := fun he => h.2 ⟨(Prod.mk.inj he).2.symm, (Prod.mk.inj he).1.symm⟩
    simp [Db.carryOut, statements, Db.apply, update_of_ne h₁, update_of_ne h₂]

/-- What a request does to the row of `friend_apply` is done to its own row only. -/
theorem carryOut_friendApply : (db.carryOut q).friendApply (x, y) =
    match q with
    | .add uid touid alias_name =>
      if uid = x ∧ touid = y then
        some { status := ((db.friendApply (x, y)).map ApplyRow.status).getD 0, aliasName := alias_name }
      else db.friendApply (x, y)
    | .accept fromuid touid _ =>
      if fromuid = x ∧ touid = y then
        (db.friendApply (x, y)).map fun row => { row with status := 1 }
      else db.friendApply (x, y) := by
  rcases q with ⟨uid, touid, alias_name⟩ | ⟨uid, touid, alias_name⟩
  all_goals
    by_cases hk : uid = x ∧ touid = y
    · obtain ⟨rfl, rfl⟩ := hk
      rcases hrow : db.friendApply (uid, touid) with _ | row <;>
        simp [Db.carryOut, statements, Db.apply, hrow]
    · have hne : (x, y) ≠ (uid, touid) := fun he => hk ⟨(Prod.mk.inj he).1.symm, (Prod.mk.inj he).2.symm⟩
      simp [Db.carryOut, statements, Db.apply, update_of_ne hne, hk]

theorem newAlias_eq (h : db.Tells history) (hq : q.Between x y) :
    q.newAlias db x = q.aliasFor history x y := by
  rcases q with _ | ⟨fromuid, touid, alias_name⟩
  · exact hq.elim
  · dsimp only [newAlias, aliasFor]
    split
    · rename_i hx
      have hkey : (fromuid, touid) = (x, y) := by
        obtain ⟨rfl, rfl⟩ | ⟨rfl, rfl⟩ := hq
        · rfl
        · rw [hx]
      rw [hkey, h.applyAlias]
    · rfl

/-- One more request makes the history one longer. -/
theorem Db.Tells.snoc (h : db.Tells history) (q : FriendRequest) :
    (db.carryOut q).Tells (history ++ [q]) where
  friend x y := by
    by_cases hq : q.Between x y
    · simp [carryOut_friend hq, hq]
    · simp [carryOut_friend_of_not hq, h.friend, hq, or_and_right, exists_or]
  friendAlias x y before p after hsplit hp hfirst := by
    rcases List.eq_nil_or_concat after with rfl | ⟨after, last, rfl⟩
    · -- the request is the first acceptance between the two
      obtain ⟨rfl, hlast⟩ := List.append_inj' hsplit rfl
      simp only [List.cons.injEq, and_true] at hlast
      subst hlast
      have hnone : db.friend (x, y) = none := by
        have hno : ¬ (db.friend (x, y)).isSome := by
          rw [h.friend]
          rintro ⟨p, hp, hb⟩
          exact hfirst p hp hb
        simpa using hno
      rw [carryOut_friend hp, hnone, newAlias_eq h hp]
      rfl
    · rw [List.concat_eq_append, ← List.cons_append, ← List.append_assoc] at hsplit
      obtain ⟨rfl, -⟩ := List.append_inj' hsplit rfl
      have hrow := h.friendAlias x y before p after rfl hp hfirst
      by_cases hq : q.Between x y
      · rw [carryOut_friend hq, hrow]
        rfl
      · rw [carryOut_friend_of_not hq, hrow]
  friendApply x y := by
    rw [carryOut_friendApply]
    rcases q with ⟨uid, touid, alias_name⟩ | ⟨fromuid, touid, alias_name⟩
    · dsimp only
      split
      · rename_i hk
        obtain ⟨rfl, rfl⟩ := hk
        simp
      · rename_i hk
        have hother : ∀ a, FriendRequest.add x y a ≠ .add uid touid alias_name := by
          intro a he
          cases he
          exact hk ⟨rfl, rfl⟩
        simp [h.friendApply, hother]
    · dsimp only
      split
      · simp [h.friendApply]
      · simp [h.friendApply]
  applyAlias x y := by
    rw [lastAlias_snoc, ← h.applyAlias, carryOut_friendApply]
    rcases q with ⟨uid, touid, alias_name⟩ | ⟨fromuid, touid, alias_name⟩
    · dsimp only [appliedAlias]
      split <;> simp
    · dsimp only [appliedAlias]
      split
      · rw [Option.map_map]
        rfl
      · rfl
  status x y row hrow := by
    rw [granted_snoc, ← h.friendApply]
    rw [carryOut_friendApply] at hrow
    rcases q with ⟨uid, touid, alias_name⟩ | ⟨fromuid, touid, alias_name⟩
    · have hkeep : row.status = ((db.friendApply (x, y)).map ApplyRow.status).getD 0 := by
        dsimp only at hrow
        split at hrow
        · cases hrow
          rfl
        · rw [hrow]
          rfl
      rw [hkeep]
      rcases hold : db.friendApply (x, y) with _ | old
      · -- nothing that was never applied for has been accepted
        have hnone : ¬ Granted history x y := by
          rintro ⟨before, _, after, rfl, alias_name, hadd⟩
          have := (h.friendApply x y).mpr ⟨alias_name, List.mem_append_left _ hadd⟩
          simp [hold] at this
        simp [hnone]
      · simp [h.status x y old hold]
    · by_cases hk : fromuid = x ∧ touid = y
      · obtain ⟨rfl, rfl⟩ := hk
        simp only [and_self, if_true] at hrow
        obtain ⟨old, hold, rfl⟩ := Option.map_eq_some_iff.mp hrow
        simp [hold]
      · have hother : ∀ a, FriendRequest.accept fromuid touid alias_name ≠ .accept x y a := by
          intro a he
          cases he
          exact hk ⟨rfl, rfl⟩
        simp only [hk, if_false] at hrow
        simp [h.status x y row hrow, hother]

theorem tells_nil : Db.empty.Tells [] where
  friend x y := by simp [Db.empty]
  friendAlias x y before q after hsplit := by simp at hsplit
  friendApply x y := by simp [Db.empty]
  applyAlias x y := rfl
  status x y row hrow := nomatch hrow

end Tables

/-- The friends that a user is shown: the rows of `friend` whose user exists, each once. -/
structure Database.ListsFriends (db : Database) (uid : Int) (list : List UserInfo) : Prop where
  call : db.call (.getFriendList uid) = some ((true, list), db)
  nodup : (list.map UserInfo.uid).Nodup
  mem : ∀ info, info ∈ list ↔ ∃ friend_id alias_name base,
    db.tables.friend (uid, friend_id) = some alias_name ∧
      db.users.getUserInfo friend_id = some base ∧ info = { base with aliasName := alias_name }

section Lists

variable {db : Database}

@[simp] theorem applyAll_tables (os : List Sql) :
    (db.applyAll os).tables = os.foldl Db.apply db.tables := by
  unfold Database.applyAll
  induction os generalizing db with
  | nil => rfl
  | cons o os ih => rw [List.foldl_cons, ih, Database.apply_tables, List.foldl_cons]

@[simp] theorem applyAll_users (os : List Sql) : (db.applyAll os).users = db.users := by
  unfold Database.applyAll
  induction os generalizing db with
  | nil => rfl
  | cons o os ih => rw [List.foldl_cons, ih, Database.apply_users]

/-- A row is inserted once. -/
theorem friends_nodup (o : Sql) (h : db.friends.Nodup) : (db.apply (.table o)).friends.Nodup := by
  rcases o with _ | _ | _ | _ | ⟨self_id, friend_id, alias_name⟩ | _
  on_goal 5 =>
    show (if (db.tables.friend (self_id, friend_id)).isSome then db.friends
      else db.friends ++ [(self_id, friend_id)]).Nodup
    split
    · exact h
    · rename_i hnew
      rw [db.befriended] at hnew
      exact List.nodup_append_comm.mp (List.nodup_cons.mpr ⟨hnew, h⟩)
  all_goals exact h

theorem applyAll_nodup (os : List Sql) (h : db.friends.Nodup) : (db.applyAll os).friends.Nodup := by
  unfold Database.applyAll
  induction os generalizing db with
  | nil => exact h
  | cons o os ih => exact ih (friends_nodup o h)

theorem map_filterMap_sublist {α β γ : Type} {f : α → Option β} {g : β → γ} {h : α → γ}
    (hf : ∀ a b, f a = some b → g b = h a) (l : List α) :
    ((l.filterMap f).map g).Sublist (l.map h) := by
  induction l with
  | nil => exact .slnil
  | cons a l ih =>
    rcases hfa : f a with _ | b
    · rw [List.filterMap_cons_none hfa]
      exact ih.cons _
    · rw [List.filterMap_cons_some hfa, List.map_cons, hf a b hfa]
      exact ih.cons_cons _

theorem mem_friendRows {uid : Int} {row : Int × Bytes} :
    row ∈ db.friendRows uid ↔ db.tables.friend (uid, row.1) = some row.2 := by
  simp only [Database.friendRows, List.mem_filterMap, List.mem_filter, decide_eq_true_eq,
    Option.map_eq_some_iff]
  constructor
  · rintro ⟨⟨self_id, friend_id⟩, ⟨-, rfl⟩, alias_name, hrow, rfl⟩
    exact hrow
  · intro hrow
    have hmem : (uid, row.1) ∈ db.friends := (db.befriended _).mp (by simp [hrow])
    exact ⟨(uid, row.1), ⟨hmem, rfl⟩, row.2, hrow, rfl⟩

theorem friendRows_nodup (h : db.friends.Nodup) (uid : Int) :
    ((db.friendRows uid).map Prod.fst).Nodup := by
  have hsub : ((db.friendRows uid).map Prod.fst).Sublist
      ((db.friends.filter fun k => k.1 = uid).map Prod.snd) := by
    refine map_filterMap_sublist ?_ _
    intro k row hrow
    obtain ⟨alias_name, -, rfl⟩ := Option.map_eq_some_iff.mp hrow
    rfl
  refine hsub.nodup ?_
  -- the keys of one user differ in the friend
  refine (h.filter _).map_on ?_
  intro k hk j hj hkj
  have hk₁ : k.1 = uid := by simpa using (List.mem_filter.mp hk).2
  have hj₁ : j.1 = uid := by simpa using (List.mem_filter.mp hj).2
  exact Prod.ext (hk₁.trans hj₁.symm) hkj

/-- **What a user is shown.** -/
theorem listsFriends (h : db.friends.Nodup) (uid : Int) : ∃ list, db.ListsFriends uid list := by
  refine ⟨_, Database.call_getFriendList db uid, ?_, ?_⟩
  · refine (map_filterMap_sublist ?_ _).nodup (friendRows_nodup h uid)
    intro row info hinfo
    obtain ⟨base, hbase, rfl⟩ := Option.map_eq_some_iff.mp hinfo
    exact (UserTable.getUserInfo_uid hbase).1
  · intro info
    simp only [List.mem_filterMap, mem_friendRows, Option.map_eq_some_iff, Prod.exists]
    constructor
    · rintro ⟨friend_id, alias_name, hrow, base, hbase, rfl⟩
      exact ⟨friend_id, alias_name, base, hrow, hbase, rfl⟩
    · rintro ⟨friend_id, alias_name, base, hrow, hbase, rfl⟩
      exact ⟨friend_id, alias_name, hrow, base, hbase, rfl⟩

end Lists

/-! ## Any history -/

section Runs

variable {J : JsonCpp} {db₀ db db' : Database} {node : LogicNode}
  {tr : List (LogicNode × Database)}

/-- A message carries out its request, if it is one. -/
theorem HistoryStep.carries (h : HistoryStep J db node db') :
    db' = db.applyAll (((node.friendRequest J).map (FriendRequest.statements db.tables)).getD []) := by
  rcases h with ⟨hexec⟩
  exact hexec.wp (LogicSystem.dispatch_wp db node)

theorem friendRequests_snoc (node : LogicNode) (db : Database) :
    friendRequests J (tr ++ [(node, db)]) = friendRequests J tr ++ (node.friendRequest J).toList := by
  unfold friendRequests
  rw [List.filterMap_append]
  rcases hq : node.friendRequest J with _ | q
  · simp [hq]
  · simp [hq]

theorem HistoryStep.tells (h : HistoryStep J db node db') (ht : db.tables.Tells (friendRequests J tr)) :
    db'.tables.Tells (friendRequests J (tr ++ [(node, db')])) := by
  rw [friendRequests_snoc, h.carries, applyAll_tables]
  rcases node.friendRequest J with _ | q
  · simpa using ht
  · exact ht.snoc q

/-- **The friendship tables after any history.** From empty tables, whatever messages are handled: the
rows of `friend` and `friend_apply` are those that the requests and acceptances tell, and every user is
shown the rows of `friend` whose user exists. -/
theorem tables_tell (h : Run (HistoryStep J) db₀ tr db) (h0 : db₀.tables = Db.empty) :
    db.tables.Tells (friendRequests J tr) ∧ db.users = db₀.users ∧
      ∀ uid, ∃ list, db.ListsFriends uid list := by
  have hrun : db.tables.Tells (friendRequests J tr) ∧ db.users = db₀.users ∧ db.friends.Nodup := by
    refine h.invariant (P := fun tr db =>
      db.tables.Tells (friendRequests J tr) ∧ db.users = db₀.users ∧ db.friends.Nodup) ⟨?_, rfl, ?_⟩ ?_
    · rw [h0]
      exact tells_nil
    · have hnil : db₀.friends = [] := by
        refine List.eq_nil_iff_forall_not_mem.mpr ?_
        intro k hk
        have hsome := (db₀.befriended k).mpr hk
        rw [h0] at hsome
        cases hsome
      simp [hnil]
    · intro tr db node db' _ ⟨htells, husers, hnodup⟩ hs
      refine ⟨hs.tells htells, ?_, ?_⟩
      · rw [hs.carries, applyAll_users, husers]
      · rw [hs.carries]
        exact applyAll_nodup _ hnodup
  exact ⟨hrun.1, hrun.2.1, listsFriends hrun.2.2⟩

/-! ### Handling messages -/

/-- The database after a message, with everything else answering as an empty Redis does. -/
def Database.handled (J : JsonCpp) (self : ServerName) (node : LogicNode) (db : Database) : Database :=
  ((LogicSystem.dispatch J self node).run.run
    (respond (fun c db => Database.call c db) World.noAnswer) db).2

theorem Database.handled_step (J : JsonCpp) (self : ServerName) (node : LogicNode) (db : Database) :
    HistoryStep J db node (db.handled J self node) := by
  obtain ⟨tr, htr⟩ := exec_run (answered_respond World.noAnswer) (LogicSystem.dispatch J self node).run db
  exact .handle htr

/-- The user 7 is in the database, and nobody has applied for anything. -/
def annDatabase : Database where
  users := annTable
  tables := Db.empty
  applications := []
  friends := []
  applied := Db.applied_empty
  befriended := Db.befriended_empty

/-- The users 7 and 8. -/
def pairTable : UserTable where
  rows := [annRow, { annRow with uid := 8, name := lit "bob" }]
  uids := by decide
  names := by decide
  valid := by
    intro row hrow
    rcases List.mem_cons.mp hrow with rfl | hrow
    · exact ⟨by decide, by decide, by decide, by decide⟩
    · obtain rfl := List.mem_singleton.mp hrow
      exact ⟨by decide, by decide, by decide, by decide⟩

def pairDatabase : Database := { annDatabase with users := pairTable }

/-- The user 7 applies, and the user 8 accepts. -/
def requestRun : List (LogicNode × Database) :=
  follow (fun node db => some (node, Database.handled friendTexts s1 node db))
    annDatabase [applies, accepts]

theorem requestRun_run :
    Run (HistoryStep friendTexts) annDatabase requestRun (final annDatabase requestRun) := by
  refine follow_run ?_ annDatabase
  rintro node - db _ _ ⟨⟩
  exact Database.handled_step ..

theorem tables_tell_request :
    friendRequests friendTexts requestRun = [.add 7 8 (lit "a"), .accept 7 8 (lit "a")] ∧
    (final annDatabase requestRun).tables.Tells (friendRequests friendTexts requestRun) ∧
    (final annDatabase requestRun).users = annTable ∧
    ∀ uid, ∃ list, (final annDatabase requestRun).ListsFriends uid list :=
  ⟨by decide +kernel, tables_tell requestRun_run rfl⟩

end Runs

end ChatServer
