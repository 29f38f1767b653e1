import ChatServer.History

/-!
# Database calls that fail

The functions of `MySqlDao` when the pool has no connection for them or a statement throws. What a
function returns tells its caller, who does not always look: the replies to a friend request and to its
acceptance do not depend on it (`friend_replies_iff`), and the list of friends leaves out a friend whose
profile could not be read (`friendList_complete_iff`).
-/

namespace ChatServer

open Interaction Prog Handler Bytes Function ConnPool LogicSystem

/-! ## Failing functions -/

/-- What a statement returns when it throws. -/
def Statement.failure : (q : Statement) → q.Resp
  | .table o => Sql.failure o
  | .selectUser _ => none
  | .selectUserByName _ => none
  | .selectApplyList _ _ _ => none
  | .selectFriends _ => none

namespace Database

/-- Execute a function of `MySqlDao`. Its requests for a connection and its statements are numbered in
the order in which they are made, and `fails` says which of them fail. -/
def attempt (fails : Nat → Bool) :
    (o : Op Conn Statement) → Nat × Database → Op.Resp Statement.Resp o × (Nat × Database)
  | .getConnection, x => (if fails x.1 then none else some 0, (x.1 + 1, x.2))
  | .returnConnection _, x => ((), x)
  | .query _ q, x =>
    if fails x.1 then (q.failure, (x.1 + 1, x.2)) else (x.2.answer q, (x.1 + 1, x.2.apply q))

/-- The call of a handler on the database, when the function fails so. -/
def callFailing (fails : Nat → Bool) (c : Call) (db : Database) : Option (c.Resp × Database) :=
  (MySqlDao.connected c).map fun p =>
    ((p.run (attempt fails) (0, db)).1, (p.run (attempt fails) (0, db)).2.2)

/-- The calls of a handler on the database are numbered, too, and `fails` says how each of them fails;
`ext` answers the other calls. -/
def serve (fails : Nat → Nat → Bool) (ext : (c : Call) → c.Resp) (c : Call) (x : Nat × Database) :
    c.Resp × (Nat × Database) :=
  match x.2.callFailing (fails x.1) c with
  | none => (ext c, x)
  | some y => (y.1, (x.1 + 1, y.2))

/-- A function gets its connection, and its first statement is executed. -/
def Executed (fails : Nat → Bool) : Prop := fails 0 = false ∧ fails 1 = false

instance (fails : Nat → Bool) : Decidable (Executed fails) := instDecidableAnd

section Functions

variable {α : Type} (fails : Nat → Bool) (db : Database)

/-- Execute a statement on the two tables. -/
def executeFailing (o : Sql) (x : Nat × Database) : o.Resp × (Nat × Database) :=
  if fails x.1 then (Sql.failure o, (x.1 + 1, x.2))
  else (x.2.tables.answer o, (x.1 + 1, x.2.apply (.table o)))

theorem run_onConnection_failing (con : Conn) (p : Dao α) (x : Nat × Database) :
    (MySqlDao.onConnection con p).run (attempt fails) x = p.run (executeFailing fails) x := by
  induction p generalizing x with
  | ret a => rfl
  | call o k ih =>
    have hquery : attempt fails (.query con (.table o)) x = executeFailing fails o x := rfl
    show ((MySqlDao.onConnection con (k (attempt fails (.query con (.table o)) x).1)).run
      (attempt fails)) (attempt fails (.query con (.table o)) x).2 = _
    rw [hquery]
    exact ih _ _

theorem attempt_getConnection (x : Nat × Database) :
    attempt fails .getConnection x = (if fails x.1 then none else some 0, (x.1 + 1, x.2)) := rfl

theorem executeFailing_throws {o : Sql} {x : Nat × Database} (h : fails x.1 = true) :
    executeFailing fails o x = (Sql.failure o, (x.1 + 1, x.2)) := if_pos h

theorem executeFailing_works {o : Sql} {x : Nat × Database} (h : fails x.1 = false) :
    executeFailing fails o x = (x.2.tables.answer o, (x.1 + 1, x.2.apply (.table o))) :=
  if_neg (Bool.eq_false_iff.mp h)

/-- The beginning of a function on the two tables. -/
theorem run_pooled_failing (k : Bool → Dao α) :
    (MySqlDao.pooled (Dao.ask .getConnection >>= k)).run (attempt fails) (0, db) =
      (match (attempt fails .getConnection (0, db)).1 with
        | none => MySqlDao.withoutConnection (k false)
        | some con => MySqlDao.onConnection con (k true) >>= fun a =>
            SqlClient.ask (.returnConnection con) >>= fun _ => pure a).run (attempt fails) (1, db) := rfl

/-- A function on the two tables does nothing without a connection. -/
theorem callFailing_without {c : Call} {k : Bool → Dao c.Resp}
    (h : MySqlDao.connected c = some (MySqlDao.pooled (Dao.ask .getConnection >>= k)))
    (hcon : fails 0 = true) : ∃ r, db.callFailing fails c = some (r, db) := by
  unfold callFailing
  obtain ⟨a, ha⟩ := MySqlDao.withoutConnection_eq (k false)
  rw [h, Option.map_some, run_pooled_failing, attempt_getConnection, if_pos hcon]
  dsimp only
  rw [ha]
  exact ⟨a, rfl⟩

/-- Otherwise it makes its statements. -/
theorem callFailing_with {c : Call} {k : Bool → Dao c.Resp}
    (h : MySqlDao.connected c = some (MySqlDao.pooled (Dao.ask .getConnection >>= k)))
    (hcon : fails 0 = false) :
    ∃ r, db.callFailing fails c = some (r, ((k true).run (executeFailing fails) (1, db)).2.2) := by
  unfold callFailing
  rw [h, Option.map_some, run_pooled_failing, attempt_getConnection, if_neg (Bool.eq_false_iff.mp hcon)]
  dsimp only
  rw [Prog.run_bind, run_onConnection_failing]
  exact ⟨_, rfl⟩

theorem run_ask_failing (o : Sql) (f : o.Resp → Dao α) (x : Nat × Database) :
    (Dao.ask o >>= f).run (executeFailing fails) x =
      (f (executeFailing fails o x).1).run (executeFailing fails) (executeFailing fails o x).2 := rfl

/-- A function that makes one statement. -/
theorem callFailing_statement {c : Call} {a : c.Resp} {o : Sql} {f : o.Resp → Dao c.Resp}
    (h : MySqlDao.connected c = some (MySqlDao.pooled (Dao.ask .getConnection >>= fun con =>
      if con = false then pure a else Dao.ask o >>= f))) (hf : ∀ r, ∃ b, f r = .ret b) :
    ∃ r, db.callFailing fails c =
      some (r, if Executed fails then db.apply (.table o) else db) := by
  by_cases hcon : fails 0 = true
  · rw [if_neg fun hex => Bool.eq_false_iff.mp hex.1 hcon]
    exact callFailing_without fails db h hcon
  · have hcon : fails 0 = false := Bool.eq_false_iff.mpr hcon
    obtain ⟨r, hr⟩ := callFailing_with fails db h hcon
    refine ⟨r, hr.trans ?_⟩
    obtain ⟨b, hb⟩ := hf (executeFailing fails o (1, db)).1
    rw [if_neg (show ¬ true = false by decide), run_ask_failing, hb, run_ret]
    by_cases hthrows : fails 1 = true
    · rw [executeFailing_throws fails hthrows, if_neg fun hex => Bool.eq_false_iff.mp hex.2 hthrows]
    · have hworks : fails 1 = false := Bool.eq_false_iff.mpr hthrows
      rw [executeFailing_works fails hworks, if_pos ⟨hcon, hworks⟩]

theorem callFailing_addFriendApply (uid touid : Int) (alias_name : Bytes) :
    ∃ r, db.callFailing fails (.addFriendApply uid touid alias_name) =
      some (r, if Executed fails then db.apply (.table (.insertApply uid touid alias_name)) else db) := by
  refine callFailing_statement fails db (c := .addFriendApply uid touid alias_name) rfl ?_
  rintro (_ | n) <;> exact ⟨_, rfl⟩

theorem callFailing_getFriendApplyAlias (from_uid to_uid : Int) :
    ∃ r, db.callFailing fails (.getFriendApplyAlias from_uid to_uid) = some (r, db) := by
  obtain ⟨r, hr⟩ := callFailing_statement fails db (c := .getFriendApplyAlias from_uid to_uid) rfl
    (by rintro (_ | _ | alias_name) <;> exact ⟨_, rfl⟩)
  have hreads : db.apply (.table (.selectApplyAlias from_uid to_uid)) = db := rfl
  exact ⟨r, hr.trans (by rw [hreads, ite_self])⟩

theorem callFailing_getFriendAlias (self_id friend_id : Int) :
    ∃ r, db.callFailing fails (.getFriendAlias self_id friend_id) = some (r, db) := by
  obtain ⟨r, hr⟩ := callFailing_statement fails db (c := .getFriendAlias self_id friend_id) rfl
    (by rintro (_ | _ | alias_name) <;> exact ⟨_, rfl⟩)
  have hreads : db.apply (.table (.selectFriendAlias self_id friend_id)) = db := rfl
  exact ⟨r, hr.trans (by rw [hreads, ite_self])⟩

theorem callFailing_authFriendApply (uid touid : Int) :
    ∃ r, db.callFailing fails (.authFriendApply uid touid) =
      some (r, if Executed fails then db.apply (.table (.updateApply uid touid)) else db) := by
  refine callFailing_statement fails db (c := .authFriendApply uid touid) rfl ?_
  rintro (_ | n) <;> exact ⟨_, rfl⟩

/-- `addFriend` makes its second statement unless the first has thrown. -/
theorem callFailing_addFriend (applicant_uid accepter_uid : Int) (alias₁ alias₂ : Bytes) :
    ∃ r, db.callFailing fails (.addFriend applicant_uid accepter_uid alias₁ alias₂) = some (r,
      if Executed fails then
        if fails 2 then db.apply (.table (.insertFriend applicant_uid accepter_uid alias₁))
        else (db.apply (.table (.insertFriend applicant_uid accepter_uid alias₁))).apply
          (.table (.insertFriend accepter_uid applicant_uid alias₂))
      else db) := by
  by_cases hcon : fails 0 = true
  · rw [if_neg fun hex => Bool.eq_false_iff.mp hex.1 hcon]
    exact callFailing_without fails db (c := .addFriend applicant_uid accepter_uid alias₁ alias₂) rfl hcon
  · have hcon : fails 0 = false := Bool.eq_false_iff.mpr hcon
    obtain ⟨r, hr⟩ := callFailing_with fails db
      (c := .addFriend applicant_uid accepter_uid alias₁ alias₂) rfl hcon
    refine ⟨r, hr.trans ?_⟩
    rw [if_neg (show ¬ true = false by decide), run_ask_failing]
    by_cases hthrows : fails 1 = true
    · rw [executeFailing_throws fails hthrows, if_neg fun hex => Bool.eq_false_iff.mp hex.2 hthrows]
      rfl
    · have hworks : fails 1 = false := Bool.eq_false_iff.mpr hthrows
      rw [executeFailing_works fails hworks, if_pos ⟨hcon, hworks⟩]
      show some (r, ((Dao.ask _ >>= _).run (executeFailing fails) (2, db.apply _)).2.2) = _
      rw [run_ask_failing]
      by_cases hsecond : fails 2 = true
      · rw [executeFailing_throws fails hsecond, if_pos hsecond]
        rfl
      · rw [executeFailing_works fails (Bool.eq_false_iff.mpr hsecond), if_neg hsecond]
        rfl

theorem run_operation (o : Op Conn Statement) (f : Op.Resp Statement.Resp o → SqlClient α)
    (x : Nat × Database) : (Client.ask o >>= f : SqlClient α).run (attempt fails) x =
      (f (attempt fails o x).1).run (attempt fails) (attempt fails o x).2 := rfl

/-- A function that takes a connection for its body. -/
theorem run_withConnection_failing (fallback : α) (body : Conn → SqlClient α) (x : Nat × Database) :
    (withConnection fallback body).run (attempt fails) x =
      if fails x.1 then (fallback, (x.1 + 1, x.2)) else (body 0).run (attempt fails) (x.1 + 1, x.2) := by
  unfold withConnection
  rw [run_operation, attempt_getConnection]
  by_cases hcon : fails x.1 = true
  · rw [if_pos hcon, if_pos hcon]
    rfl
  · rw [if_neg hcon, if_neg hcon]
    dsimp only
    rw [Prog.run_bind]
    rfl

/-- A query in a body. -/
theorem run_query_failing (con : Conn) (q : Statement) (f : q.Resp → SqlClient α) (x : Nat × Database) :
    (SqlClient.ask (.query con q) >>= f).run (attempt fails) x =
      if fails x.1 then (f q.failure).run (attempt fails) (x.1 + 1, x.2)
      else (f (x.2.answer q)).run (attempt fails) (x.1 + 1, x.2.apply q) := by
  have hquery : attempt fails (.query con q) x =
      if fails x.1 then (q.failure, (x.1 + 1, x.2)) else (x.2.answer q, (x.1 + 1, x.2.apply q)) := rfl
  rw [run_operation, hquery]
  split <;> rfl

/-- `getUserInfo`, after the requests and statements that were made before. -/
theorem run_getUserInfo_failing (uid : Int) (x : Nat × Database) :
    (MySqlDao.getUserInfo uid).run (attempt fails) x =
      if fails x.1 then (none, (x.1 + 1, x.2))
      else if fails (x.1 + 1) then (none, (x.1 + 2, x.2))
      else (x.2.users.getUserInfo uid, (x.1 + 2, x.2)) := by
  unfold MySqlDao.getUserInfo
  rw [run_withConnection_failing, run_query_failing]
  rfl

theorem callFailing_getUserInfo (uid : Int) :
    db.callFailing fails (.getUserInfo uid) =
      some (if Executed fails then db.users.getUserInfo uid else none, db) := by
  have hcall : db.callFailing fails (.getUserInfo uid) =
      some (((MySqlDao.getUserInfo uid).run (attempt fails) (0, db)).1,
        ((MySqlDao.getUserInfo uid).run (attempt fails) (0, db)).2.2) := rfl
  rw [hcall, run_getUserInfo_failing]
  by_cases hcon : fails 0 = true
  · rw [if_pos hcon, if_neg fun hex => Bool.eq_false_iff.mp hex.1 hcon]
  · rw [if_neg hcon]
    by_cases hthrows : fails 1 = true
    · rw [if_pos hthrows, if_neg fun hex => Bool.eq_false_iff.mp hex.2 hthrows]
    · rw [if_neg hthrows, if_pos ⟨Bool.eq_false_iff.mpr hcon, Bool.eq_false_iff.mpr hthrows⟩]

end Functions

end Database

/-- The database after `authFriendHandler`, whose third call sets the status of the application and whose
fourth inserts the two friendships. -/
def Database.accept (fails : Nat → Nat → Bool) (db : Database) (applicant_uid accepter_uid : Int)
    (apply_alias alias_name : Bytes) : Database :=
  let db := if Executed (fails 2) then db.apply (.table (.updateApply applicant_uid accepter_uid)) else db
  if Executed (fails 3) then
    if fails 3 2 then db.apply (.table (.insertFriend applicant_uid accepter_uid apply_alias))
    else (db.apply (.table (.insertFriend applicant_uid accepter_uid apply_alias))).apply
      (.table (.insertFriend accepter_uid applicant_uid alias_name))
  else db

/-! ## The handlers up to their replies -/

namespace LogicSystem

variable (J : JsonCpp) (self : ServerName)

/-- `addFriendHandler` between reading the request and replying, with the reply. -/
def requestFriend (uid touid : Int) (name alias_name : Bytes) : Handler Json := do
  let _ ← ask (.addFriendApply uid touid alias_name)
  routeAddFriend J self uid touid name alias_name
  pure (Json.errorReply .success)

theorem addFriendHandler_eq (session : SessId) (msg_data : Bytes) :
    addFriendHandler J self session msg_data = (do
      let root := (J.parse msg_data).2
      let uid ← root.getInt "uid"
      let name ← root.getString J "apply_name"
      let alias_name ← root.getString J "alias_name"
      let touid ← root.getInt "touid"
      let reply ← requestFriend J self uid touid name alias_name
      ask (.send session (J.toStyledString reply) MsgIds.addFriendRsp.id)) := by
  unfold addFriendHandler requestFriend
  simp only [LawfulMonad.bind_assoc, LawfulMonad.pure_bind]

/-- `authFriendHandler` between reading the request and replying, with the reply. -/
def acceptFriend (applicant_uid accepter_uid : Int) (alias_name : Bytes) : Handler Json := do
  let user_info ← getBaseInfo J (baseKey applicant_uid) applicant_uid
  let apply_alias ← ask (.getFriendApplyAlias applicant_uid accepter_uid)
  let _ ← ask (.authFriendApply applicant_uid accepter_uid)
  let _ ← ask (.addFriend applicant_uid accepter_uid apply_alias.2 alias_name)
  let peer_alias ← ask (.getFriendAlias applicant_uid accepter_uid)
  routeAuthFriend J self applicant_uid accepter_uid peer_alias.2
  pure (authFriendReply applicant_uid alias_name user_info)

theorem authFriendHandler_eq (session : SessId) (msg_data : Bytes) :
    authFriendHandler J self session msg_data = (do
      let root := (J.parse msg_data).2
      let applicant_uid ← root.getInt "fromuid"
      let accepter_uid ← root.getInt "touid"
      let alias_name ← root.getString J "alias_name"
      let reply ← acceptFriend J self applicant_uid accepter_uid alias_name
      ask (.send session (J.toStyledString reply) MsgIds.authFriendRsp.id)) := by
  unfold authFriendHandler acceptFriend
  simp only [LawfulMonad.bind_assoc, LawfulMonad.pure_bind]

end LogicSystem

section Runs

variable {J : JsonCpp} {self : ServerName} (fails : Nat → Nat → Bool) (ext : (c : Call) → c.Resp)
  (x : Nat × Database)

theorem serve_database {c : Call} {y : c.Resp × Database} (h : x.2.callFailing (fails x.1) c = some y) :
    Database.serve fails ext c x = (y.1, (x.1 + 1, y.2)) := by
  unfold Database.serve
  rw [h]

/-- A call on the database in a handler. -/
theorem serve_ask {α : Type} {c : Call} {f : c.Resp → Handler α} {n : Nat}
    {db db' : Database} {r : c.Resp}
    (h : db.callFailing (fails n) c = some (r, db')) :
    (ask c >>= f).run.run (Database.serve fails ext) (n, db) =
      (f r).run.run (Database.serve fails ext) (n + 1, db') := by
  rw [run_ask, serve_database fails ext (n, db) h]

theorem serve_other {c : Call} (h : MySqlDao.connected c = none) :
    Database.serve fails ext c x = (ext c, x) := by
  unfold Database.serve Database.callFailing
  rw [h]
  rfl

theorem serve_cacheProfile (base_key name cache_json : Bytes) :
    (cacheProfile base_key name cache_json).run.run (Database.serve fails ext) x = (.ok (), x) := by
  unfold cacheProfile
  rw [run_ask, serve_other fails ext x rfl]
  split <;> rfl

/-- `getBaseInfo` finds a user who is there, if the lookup does not fail. -/
theorem serve_getBaseInfo (J : JsonCpp) (uid : Int) :
    ∃ user_info, (getBaseInfo J (baseKey uid) uid).run.run (Database.serve fails ext) x =
        (.ok user_info, (x.1 + 1, x.2)) ∧
      (user_info.isSome ↔ Database.Executed (fails x.1) ∧ (x.2.users.getUserInfo uid).isSome) := by
  unfold getBaseInfo
  rw [run_ask, serve_database fails ext x (x.2.callFailing_getUserInfo (fails x.1) uid)]
  dsimp only
  by_cases hexecuted : Database.Executed (fails x.1)
  · rw [if_pos hexecuted]
    rcases x.2.users.getUserInfo uid with _ | user
    · exact ⟨none, rfl, by simp⟩
    · dsimp only
      rw [run_bind_ok _ (serve_cacheProfile fails ext _ _ _ _)]
      exact ⟨_, rfl, by simp [hexecuted]⟩
  · rw [if_neg hexecuted]
    exact ⟨none, rfl, by simp [hexecuted]⟩

theorem serve_routeAddFriend (J : JsonCpp) (self : ServerName) (uid touid : Int) (name alias_name : Bytes) :
    ∃ n, (routeAddFriend J self uid touid name alias_name).run.run (Database.serve fails ext) x =
      (.ok (), (n, x.2)) := by
  unfold routeAddFriend
  rw [run_ask, serve_other fails ext x rfl]
  dsimp only
  rcases ext (.get (ipKey touid)) with _ | to_ip_value
  · exact ⟨_, rfl⟩
  · obtain ⟨apply_info, hbase, -⟩ := serve_getBaseInfo fails ext x J uid
    dsimp only
    rw [run_bind_ok _ hbase]
    split
    · rw [run_ask, serve_other fails ext _ rfl]
      dsimp only
      rcases ext (.getSession touid) with _ | s
      · exact ⟨_, rfl⟩
      · exact ⟨_, rfl⟩
    · exact ⟨_, rfl⟩

theorem serve_routeAuthFriend (J : JsonCpp) (self : ServerName) (applicant_uid accepter_uid : Int)
    (peer_alias : Bytes) :
    ∃ n, (routeAuthFriend J self applicant_uid accepter_uid peer_alias).run.run
      (Database.serve fails ext) x = (.ok (), (n, x.2)) := by
  unfold routeAuthFriend
  rw [run_ask, serve_other fails ext x rfl]
  dsimp only
  rcases ext (.get (ipKey applicant_uid)) with _ | to_ip_value
  · exact ⟨_, rfl⟩
  · dsimp only
    split
    · rw [run_ask, serve_other fails ext _ rfl]
      dsimp only
      rcases ext (.getSession applicant_uid) with _ | s
      · exact ⟨_, rfl⟩
      · obtain ⟨peer_info, hbase, -⟩ := serve_getBaseInfo fails ext x J accepter_uid
        dsimp only
        rw [run_bind_ok _ hbase]
        exact ⟨_, rfl⟩
    · exact ⟨_, rfl⟩

/-- **What `addFriendHandler` does**: it replies with a success, and the application is stored unless its
statement fails. -/
theorem serve_requestFriend (J : JsonCpp) (self : ServerName) (uid touid : Int) (name alias_name : Bytes)
    (db : Database) :
    ∃ n, (requestFriend J self uid touid name alias_name).run.run (Database.serve fails ext) (0, db) =
      (.ok (Json.errorReply .success), (n,
        if Database.Executed (fails 0) then db.apply (.table (.insertApply uid touid alias_name))
        else db)) := by
  obtain ⟨r, hr⟩ := db.callFailing_addFriendApply (fails 0) uid touid alias_name
  unfold requestFriend
  rw [run_ask, serve_database fails ext (0, db) hr]
  obtain ⟨n, hroute⟩ := serve_routeAddFriend fails ext (0 + 1,
    if Database.Executed (fails 0) then db.apply (.table (.insertApply uid touid alias_name)) else db)
    J self uid touid name alias_name
  rw [run_bind_ok _ hroute]
  exact ⟨n, rfl⟩

/-- **What `authFriendHandler` does**: its reply tells of a success if the applicant was found; the status
of the application and the friendships are set as far as the statements for them do not fail. -/
theorem serve_acceptFriend (J : JsonCpp) (self : ServerName) (applicant_uid accepter_uid : Int)
    (alias_name : Bytes) (db : Database) :
    ∃ user_info apply_alias n,
      (acceptFriend J self applicant_uid accepter_uid alias_name).run.run (Database.serve fails ext) (0, db) =
        (.ok (authFriendReply applicant_uid alias_name user_info),
          (n, db.accept fails applicant_uid accepter_uid apply_alias alias_name)) ∧
      (user_info.isSome ↔ Database.Executed (fails 0) ∧ (db.users.getUserInfo applicant_uid).isSome) := by
  obtain ⟨user_info, hbase, hfound⟩ := serve_getBaseInfo fails ext (0, db) J applicant_uid
  obtain ⟨apply_alias, halias⟩ := db.callFailing_getFriendApplyAlias (fails 1) applicant_uid accepter_uid
  obtain ⟨r, haccept⟩ := db.callFailing_authFriendApply (fails 2) applicant_uid accepter_uid
  obtain ⟨r', hadd⟩ := Database.callFailing_addFriend (fails 3)
    (if Database.Executed (fails 2) then db.apply (.table (.updateApply applicant_uid accepter_uid)) else db)
    applicant_uid accepter_uid apply_alias.2 alias_name
  obtain ⟨peer_alias, hpeer⟩ := Database.callFailing_getFriendAlias (fails 4)
    (db.accept fails applicant_uid accepter_uid apply_alias.2 alias_name) applicant_uid accepter_uid
  obtain ⟨n, hroute⟩ := serve_routeAuthFriend fails ext
    (5, db.accept fails applicant_uid accepter_uid apply_alias.2 alias_name) J self applicant_uid
    accepter_uid peer_alias.2
  refine ⟨user_info, apply_alias.2, n, ?_, hfound⟩
  unfold acceptFriend
  rw [run_bind_ok _ hbase]
  refine (serve_ask fails ext halias).trans ?_
  refine (serve_ask fails ext haccept).trans ?_
  refine (serve_ask fails ext hadd).trans ?_
  refine (serve_ask fails ext hpeer).trans ?_
  rw [run_bind_ok _ hroute]
  rfl

end Runs

/-! ## What the tables hold afterwards -/

/-- The application has been accepted, if there is one. -/
def Db.Settled (db : Db) (k : Int × Int) : Prop := ∀ row, db.friendApply k = some row → row.status = 1

section Tables

variable (fails : Nat → Nat → Bool) (db : Database) (x y : Int) (apply_alias alias_name : Bytes)

theorem settled_updateApply (db : Db) (k : Int × Int) : (db.apply (.updateApply k.1 k.2)).Settled k := by
  intro row hrow
  have hupdated : update db.friendApply k ((db.friendApply k).map fun row => { row with status := 1 }) k =
      some row := hrow
  rw [update_self] at hupdated
  obtain ⟨old, -, rfl⟩ := Option.map_eq_some_iff.mp hupdated
  rfl

/-- Accepting an application again changes nothing. -/
theorem apply_updateApply_of_settled {db : Db} {k : Int × Int} (h : db.Settled k) :
    db.apply (.updateApply k.1 k.2) = db := by
  have hrow : (db.friendApply k).map (fun row => { row with status := 1 }) = db.friendApply k := by
    rcases hfound : db.friendApply k with _ | row
    · rfl
    · have hstatus : row.status = 1 := h row hfound
      rw [Option.map_some, ← hstatus]
  show { db with friendApply := update db.friendApply k _ } = db
  rw [hrow, update_eq_self]

/-- Inserting a friendship that is there changes nothing. -/
theorem apply_insertFriend_of_isSome {db : Db} {k : Int × Int} (alias_name : Bytes)
    (h : (db.friend k).isSome) : db.apply (.insertFriend k.1 k.2 alias_name) = db := by
  obtain ⟨row, hrow⟩ := Option.isSome_iff_exists.mp h
  show { db with friend := update db.friend k (some ((db.friend k).getD alias_name)) } = db
  rw [hrow, Option.getD_some, ← hrow, update_eq_self]

theorem friend_insertFriend (db : Db) (k j : Int × Int) (alias_name : Bytes) :
    ((db.apply (.insertFriend k.1 k.2 alias_name)).friend j).isSome ↔ (db.friend j).isSome ∨ j = k := by
  show (update db.friend k (some _) j).isSome ↔ _
  by_cases hj : j = k
  · subst hj
    simp
  · simp [hj]

/-- The tables after an acceptance. -/
theorem accept_tables : (db.accept fails x y apply_alias alias_name).tables =
    let tables := if Database.Executed (fails 2) then db.tables.apply (.updateApply x y) else db.tables
    if Database.Executed (fails 3) then
      if fails 3 2 then tables.apply (.insertFriend x y apply_alias)
      else (tables.apply (.insertFriend x y apply_alias)).apply (.insertFriend y x alias_name)
    else tables := by
  unfold Database.accept
  split_ifs <;> simp only [Database.apply_tables]

theorem accept_friendApply : (db.accept fails x y apply_alias alias_name).tables.friendApply =
    if Database.Executed (fails 2) then (db.tables.apply (.updateApply x y)).friendApply
    else db.tables.friendApply := by
  rw [accept_tables]
  split_ifs <;> rfl

theorem accept_settled : (db.accept fails x y apply_alias alias_name).tables.Settled (x, y) ↔
    Database.Executed (fails 2) ∨ db.tables.Settled (x, y) := by
  unfold Db.Settled
  rw [accept_friendApply]
  by_cases hupdate : Database.Executed (fails 2)
  · rw [if_pos hupdate]
    exact iff_of_true (settled_updateApply db.tables (x, y)) (Or.inl hupdate)
  · rw [if_neg hupdate, or_iff_right hupdate]

theorem accept_friend (k : Int × Int) :
    ((db.accept fails x y apply_alias alias_name).tables.friend k).isSome ↔
      (db.tables.friend k).isSome ∨ Database.Executed (fails 3) ∧
        (k = (x, y) ∨ fails 3 2 = false ∧ k = (y, x)) := by
  -- setting a status does not touch the friendships
  have hstatus : ((if Database.Executed (fails 2) then db.tables.apply (.updateApply x y)
      else db.tables).friend k).isSome ↔ (db.tables.friend k).isSome := by
    split <;> rfl
  rw [accept_tables, ← hstatus]
  dsimp only
  by_cases hexecuted : Database.Executed (fails 3)
  · rw [if_pos hexecuted]
    by_cases hsecond : fails 3 2 = true
    · rw [if_pos hsecond, friend_insertFriend _ (x, y)]
      simp [hexecuted, hsecond]
    · rw [if_neg hsecond, friend_insertFriend _ (y, x), friend_insertFriend _ (x, y)]
      simp [hexecuted, hsecond, or_assoc]
  · rw [if_neg hexecuted]
    simp [hexecuted]

/-- When an acceptance leaves the tables as they are. -/
theorem accept_tables_eq_iff : (db.accept fails x y apply_alias alias_name).tables = db.tables ↔
    (Database.Executed (fails 3) → (db.tables.friend (x, y)).isSome) ∧
    (Database.Executed (fails 3) → fails 3 2 = false → (db.tables.friend (y, x)).isSome) ∧
    (Database.Executed (fails 2) → db.tables.Settled (x, y)) := by
  constructor
  · intro h
    have hfriend := accept_friend fails db x y apply_alias alias_name
    have hsettled := accept_settled fails db x y apply_alias alias_name
    rw [h] at hfriend hsettled
    refine ⟨?_, ?_, ?_⟩
    · intro hexecuted
      exact (hfriend (x, y)).mpr (Or.inr ⟨hexecuted, Or.inl rfl⟩)
    · intro hexecuted hsecond
      exact (hfriend (y, x)).mpr (Or.inr ⟨hexecuted, Or.inr ⟨hsecond, rfl⟩⟩)
    · intro hexecuted
      exact hsettled.mpr (Or.inl hexecuted)
  · rintro ⟨hfirst, hsecond, hsettled⟩
    have hupdate : (if Database.Executed (fails 2) then db.tables.apply (.updateApply x y) else db.tables) =
        db.tables := by
      split
      · exact apply_updateApply_of_settled (k := (x, y)) (hsettled ‹_›)
      · rfl
    rw [accept_tables, hupdate]
    dsimp only
    by_cases hexecuted : Database.Executed (fails 3)
    · have hinsert := apply_insertFriend_of_isSome apply_alias (hfirst hexecuted)
      rw [if_pos hexecuted, hinsert]
      split
      · rfl
      · rename_i hfails
        exact apply_insertFriend_of_isSome alias_name (hsecond hexecuted (Bool.eq_false_iff.mpr hfails))
    · rw [if_neg hexecuted]

end Tables

/-! ## Replies that tell the truth -/

/-- What a request asks for is in the tables. -/
def FriendRequest.Done (db : Db) : FriendRequest → Prop
  | .add uid touid alias_name =>
    ∃ row, db.friendApply (uid, touid) = some row ∧ row.aliasName = alias_name
  | .accept fromuid touid _ =>
    (db.friend (fromuid, touid)).isSome ∧ (db.friend (touid, fromuid)).isSome ∧
      db.Settled (fromuid, touid)

/-- The two friend handlers up to their replies. -/
def friendAnswer (J : JsonCpp) (self : ServerName) (node : RecvNode) : Handler Json := do
  let root := (J.parse node.text).2
  if node.msgId = MsgIds.addFriendReq.id then
    let uid ← root.getInt "uid"
    let name ← root.getString J "apply_name"
    let alias_name ← root.getString J "alias_name"
    let touid ← root.getInt "touid"
    requestFriend J self uid touid name alias_name
  else
    let applicant_uid ← root.getInt "fromuid"
    let accepter_uid ← root.getInt "touid"
    let alias_name ← root.getString J "alias_name"
    acceptFriend J self applicant_uid accepter_uid alias_name

/-- The id of the reply. -/
def friendAnswerId (node : RecvNode) : MsgIds :=
  if node.msgId = MsgIds.addFriendReq.id then .addFriendRsp else .authFriendRsp

/-- The request is answered: with a success if what it asks for is in the tables afterwards, and with an
error if they are as before. -/
def Truthful (J : JsonCpp) (self : ServerName) (fails : Nat → Nat → Bool) (ext : (c : Call) → c.Resp)
    (db : Database) (node : LogicNode) : Prop :=
  ∀ q, node.friendRequest J = some q → ∃ reply x,
    (friendAnswer J self node.recvNode).run.run (Database.serve fails ext) (0, db) = (.ok reply, x) ∧
    (dispatch J self node).run.run (Database.serve fails ext) (0, db) =
      (ask (.send node.session (J.toStyledString reply) (friendAnswerId node.recvNode).id)).run.run
        (Database.serve fails ext) x ∧
    (reply.lookup (lit "error") = .int ErrorCodes.success.code → q.Done x.2.tables) ∧
    (reply.lookup (lit "error") ≠ .int ErrorCodes.success.code → x.2.tables = db.tables)

/-- What has to be executed, or not to be, for the reply to tell the truth. -/
def FriendRequest.Told (fails : Nat → Nat → Bool) (db : Database) : FriendRequest → Prop
  | .add uid touid alias_name =>
    Database.Executed (fails 0) ∨
      ∃ row, db.tables.friendApply (uid, touid) = some row ∧ row.aliasName = alias_name
  | .accept fromuid touid _ =>
    if Database.Executed (fails 0) ∧ (db.users.getUserInfo fromuid).isSome then
      ((db.tables.friend (fromuid, touid)).isSome ∨ Database.Executed (fails 3)) ∧
      ((db.tables.friend (touid, fromuid)).isSome ∨
        Database.Executed (fails 3) ∧ (touid = fromuid ∨ fails 3 2 = false)) ∧
      (Database.Executed (fails 2) ∨ db.tables.Settled (fromuid, touid))
    else
      (Database.Executed (fails 3) → (db.tables.friend (fromuid, touid)).isSome) ∧
      (Database.Executed (fails 3) → fails 3 2 = false → (db.tables.friend (touid, fromuid)).isSome) ∧
      (Database.Executed (fails 2) → db.tables.Settled (fromuid, touid))

section Replies

variable {J : JsonCpp} {self : ServerName} {fails : Nat → Nat → Bool} {ext : (c : Call) → c.Resp}
  {db : Database} {node : LogicNode}

theorem of_addRequest {root : Json} {q : FriendRequest} (h : addRequest J root = .ok q) :
    ∃ uid name alias_name touid, root.getInt "uid" = .ok uid ∧
      root.getString J "apply_name" = .ok name ∧ root.getString J "alias_name" = .ok alias_name ∧
      root.getInt "touid" = .ok touid ∧ q = .add uid touid alias_name := by
  unfold addRequest at h
  rcases huid : root.getInt "uid" with e | uid <;> rw [huid] at h
  · cases h
  rcases hname : root.getString J "apply_name" with e | name <;> rw [hname] at h
  · cases h
  rcases halias : root.getString J "alias_name" with e | alias_name <;> rw [halias] at h
  · cases h
  rcases htouid : root.getInt "touid" with e | touid <;> rw [htouid] at h
  · cases h
  · cases h
    exact ⟨uid, name, alias_name, touid, rfl, rfl, rfl, rfl, rfl⟩

theorem of_acceptRequest {root : Json} {q : FriendRequest} (h : acceptRequest J root = .ok q) :
    ∃ fromuid touid alias_name, root.getInt "fromuid" = .ok fromuid ∧ root.getInt "touid" = .ok touid ∧
      root.getString J "alias_name" = .ok alias_name ∧ q = .accept fromuid touid alias_name := by
  unfold acceptRequest at h
  rcases hfrom : root.getInt "fromuid" with e | fromuid <;> rw [hfrom] at h
  · cases h
  rcases hto : root.getInt "touid" with e | touid <;> rw [hto] at h
  · cases h
  rcases halias : root.getString J "alias_name" with e | alias_name <;> rw [halias] at h
  · cases h
  · cases h
    exact ⟨fromuid, touid, alias_name, rfl, rfl, rfl, rfl⟩

/-- A friend request is what its handler makes of the message. -/
theorem friendAnswer_add (self : ServerName) {q : FriendRequest}
    (hid : node.recvNode.msgId = MsgIds.addFriendReq.id)
    (hq : node.friendRequest J = some q) :
    ∃ uid name alias_name touid, q = .add uid touid alias_name ∧
      friendAnswer J self node.recvNode = requestFriend J self uid touid name alias_name := by
  unfold LogicNode.friendRequest at hq
  dsimp only at hq
  rw [if_pos hid] at hq
  rcases hadd : addRequest J (J.parse node.recvNode.text).2 with e | q' <;> rw [hadd] at hq
  · cases hq
  · cases hq
    obtain ⟨uid, name, alias_name, touid, huid, hname, halias, htouid, rfl⟩ := of_addRequest hadd
    refine ⟨uid, name, alias_name, touid, rfl, ?_⟩
    unfold friendAnswer
    dsimp only
    rw [if_pos hid, huid, hname, halias, htouid]
    rfl

theorem friendAnswer_accept (self : ServerName) {q : FriendRequest}
    (hid : node.recvNode.msgId ≠ MsgIds.addFriendReq.id)
    (hq : node.friendRequest J = some q) :
    node.recvNode.msgId = MsgIds.authFriendReq.id ∧
    ∃ fromuid touid alias_name, q = .accept fromuid touid alias_name ∧
      friendAnswer J self node.recvNode = acceptFriend J self fromuid touid alias_name := by
  unfold LogicNode.friendRequest at hq
  dsimp only at hq
  rw [if_neg hid] at hq
  by_cases hauth : node.recvNode.msgId = MsgIds.authFriendReq.id
  · rw [if_pos hauth] at hq
    rcases haccept : acceptRequest J (J.parse node.recvNode.text).2 with e | q' <;> rw [haccept] at hq
    · cases hq
    · cases hq
      obtain ⟨fromuid, touid, alias_name, hfrom, hto, halias, rfl⟩ := of_acceptRequest haccept
      refine ⟨hauth, fromuid, touid, alias_name, rfl, ?_⟩
      unfold friendAnswer
      dsimp only
      rw [if_neg hid, hfrom, hto, halias]
      rfl
  · rw [if_neg hauth] at hq
    cases hq

/-- The worker sends what the handler answers. -/
theorem dispatch_friend {q : FriendRequest} (hq : node.friendRequest J = some q) :
    dispatch J self node = (friendAnswer J self node.recvNode >>= fun reply =>
      ask (.send node.session (J.toStyledString reply) (friendAnswerId node.recvNode).id)) := by
  unfold friendAnswerId
  by_cases hid : node.recvNode.msgId = MsgIds.addFriendReq.id
  · have hdispatch : dispatch J self node =
        addFriendHandler J self node.session node.recvNode.text := by
      unfold dispatch LogicSystem.callback
      rw [hid]
      rfl
    rw [hdispatch, addFriendHandler_eq, if_pos hid]
    unfold friendAnswer
    dsimp only
    rw [if_pos hid]
    simp only [LawfulMonad.bind_assoc]
  · obtain ⟨hauth, -⟩ := friendAnswer_accept self hid hq
    have hdispatch : dispatch J self node =
        authFriendHandler J self node.session node.recvNode.text := by
      unfold dispatch LogicSystem.callback
      rw [hauth]
      rfl
    rw [hdispatch, authFriendHandler_eq, if_neg hid]
    unfold friendAnswer
    dsimp only
    rw [if_neg hid]
    simp only [LawfulMonad.bind_assoc]

theorem authFriendReply_error (applicant_uid : Int) (alias_name : Bytes) (user_info : Option UserInfo) :
    (authFriendReply applicant_uid alias_name user_info).lookup (lit "error") =
        .int ErrorCodes.success.code ↔ user_info.isSome := by
  rcases user_info with _ | user
  · refine iff_of_false ?_ (by simp)
    intro h
    cases h
  · exact iff_of_true rfl rfl

/-- A handler has one outcome. -/
theorem exists_outcome_iff {α W : Type} {a : α} {w : W} {P : α → W → Prop} :
    (∃ b v, (Except.ok (ε := Exn) a, w) = (.ok b, v) ∧ P b v) ↔ P a w := by
  constructor
  · rintro ⟨b, v, h, hp⟩
    cases h
    exact hp
  · intro hp
    exact ⟨a, w, rfl, hp⟩

theorem done_insertApply (db : Database) (uid touid : Int) (alias_name : Bytes) :
    (FriendRequest.add uid touid alias_name).Done
      (db.apply (.table (.insertApply uid touid alias_name))).tables := by
  rw [Database.apply_tables]
  refine ⟨_, update_self .., ?_⟩
  rcases db.tables.friendApply (uid, touid) with _ | row <;> rfl

/-- When the reply to a friend request tells the truth. -/
theorem told_add_iff (uid touid : Int) (alias_name : Bytes) :
    ((FriendRequest.add uid touid alias_name).Done
      (if Database.Executed (fails 0) then db.apply (.table (.insertApply uid touid alias_name))
        else db).tables) ↔ (FriendRequest.add uid touid alias_name).Told fails db := by
  unfold FriendRequest.Told
  by_cases hexecuted : Database.Executed (fails 0)
  · rw [if_pos hexecuted]
    exact iff_of_true (done_insertApply db uid touid alias_name) (Or.inl hexecuted)
  · rw [if_neg hexecuted]
    exact (or_iff_right hexecuted).symm

/-- When the reply to an acceptance tells the truth. -/
theorem told_accept_iff {x y : Int} {apply_alias alias_name : Bytes} {user_info : Option UserInfo}
    (hfound : user_info.isSome ↔ Database.Executed (fails 0) ∧ (db.users.getUserInfo x).isSome) :
    ((authFriendReply x alias_name user_info).lookup (lit "error") = .int ErrorCodes.success.code →
        (FriendRequest.accept x y alias_name).Done (db.accept fails x y apply_alias alias_name).tables) ∧
      ((authFriendReply x alias_name user_info).lookup (lit "error") ≠ .int ErrorCodes.success.code →
        (db.accept fails x y apply_alias alias_name).tables = db.tables) ↔
      (FriendRequest.accept x y alias_name).Told fails db := by
  unfold FriendRequest.Told FriendRequest.Done
  simp only [ne_eq, authFriendReply_error, hfound]
  by_cases hsuccess : Database.Executed (fails 0) ∧ (db.users.getUserInfo x).isSome
  · rw [if_pos hsuccess, accept_friend, accept_friend, accept_settled]
    -- the second friendship is the first one when the two users are one
    have hsame : (y, x) = (x, y) ∨ fails 3 2 = false ∧ (y, x) = (y, x) ↔
        y = x ∨ fails 3 2 = false := by
      simp only [Prod.mk.injEq, and_true]
      refine or_congr_left ?_
      exact ⟨fun h => h.1, fun h => ⟨h, h.symm⟩⟩
    have hfirst : (x, y) = (x, y) ∨ fails 3 2 = false ∧ (x, y) = (y, x) ↔ True := by simp
    rw [hsame, hfirst, and_true]
    constructor
    · intro h
      exact h.1 hsuccess
    · intro h
      exact ⟨fun _ => h, fun hne => absurd hsuccess hne⟩
  · rw [if_neg hsuccess, accept_tables_eq_iff]
    constructor
    · intro h
      exact h.2 hsuccess
    · intro h
      exact ⟨fun hs => absurd hs hsuccess, fun _ => h⟩

/-- When the reply that is computed tells the truth. -/
theorem told_iff (self : ServerName) (ext : (c : Call) → c.Resp) {q : FriendRequest}
    (hq : node.friendRequest J = some q) :
    (∃ reply x,
      (friendAnswer J self node.recvNode).run.run (Database.serve fails ext) (0, db) = (.ok reply, x) ∧
      (reply.lookup (lit "error") = .int ErrorCodes.success.code → q.Done x.2.tables) ∧
      (reply.lookup (lit "error") ≠ .int ErrorCodes.success.code → x.2.tables = db.tables)) ↔
      q.Told fails db := by
  by_cases hid : node.recvNode.msgId = MsgIds.addFriendReq.id
  · obtain ⟨uid, name, alias_name, touid, rfl, hanswer⟩ := friendAnswer_add self hid hq
    obtain ⟨n, hrun⟩ := serve_requestFriend fails ext J self uid touid name alias_name db
    rw [hanswer, hrun, exists_outcome_iff, ← told_add_iff]
    exact ⟨fun h => h.1 rfl, fun h => ⟨fun _ => h, fun hne => absurd rfl hne⟩⟩
  · obtain ⟨-, x, y, alias_name, rfl, hanswer⟩ := friendAnswer_accept self hid hq
    obtain ⟨user_info, apply_alias, n, hrun, hfound⟩ :=
      serve_acceptFriend fails ext J self x y alias_name db
    rw [hanswer, hrun, exists_outcome_iff, ← told_accept_iff hfound]

end Replies

/-- **When the replies to friend requests and acceptances tell the truth**: exactly if the statements whose
effect a success stands for are executed or were not needed, and those behind an error are not, or change
nothing. -/
theorem friend_replies_iff (J : JsonCpp) (self : ServerName) (fails : Nat → Nat → Bool)
    (ext : (c : Call) → c.Resp) (db : Database) (node : LogicNode) :
    Truthful J self fails ext db node ↔ ∀ q, node.friendRequest J = some q → q.Told fails db := by
  unfold Truthful
  constructor
  · intro h q hq
    obtain ⟨reply, x, hrun, -, htruth⟩ := h q hq
    exact (told_iff self ext hq).mp ⟨reply, x, hrun, htruth⟩
  · intro h q hq
    obtain ⟨reply, x, hrun, htruth⟩ := (told_iff self ext hq).mpr (h q hq)
    refine ⟨reply, x, hrun, ?_, htruth⟩
    rw [dispatch_friend hq, run_bind_ok _ hrun]

/-- A database without users. -/
def noUsers : Database where
  users := { rows := [], uids := List.nodup_nil, names := List.nodup_nil, valid := fun _ h => nomatch h }
  tables := Db.empty
  applications := []
  friends := []
  applied := Db.applied_empty
  befriended := Db.befriended_empty

/-- User 8 accepts the application of user 7, who does not exist: the reply is an error, and the two are
friends. -/
theorem friend_replies_fail : ¬ ∀ (J : JsonCpp) (self : ServerName) (fails : Nat → Nat → Bool)
    (ext : (c : Call) → c.Resp) (db : Database) (node : LogicNode), Truthful J self fails ext db node := by
  intro h
  have hrequest : accepts.friendRequest friendTexts = some (.accept 7 8 (lit "a")) := by decide +kernel
  obtain ⟨reply, x, hrun, -, htruth⟩ :=
    h friendTexts s1 (fun _ _ => false) World.noAnswer noUsers accepts _ hrequest
  have htold := (told_iff s1 World.noAnswer hrequest).mp ⟨reply, x, hrun, htruth⟩
  unfold FriendRequest.Told at htold
  dsimp only at htold
  rw [if_neg fun hsuccess => Bool.false_ne_true hsuccess.2] at htold
  cases htold.1 ⟨rfl, rfl⟩

/-! ## The list of friends -/

section Keeping

variable {α β : Type} (g : α → Option β)

theorem length_filterMap_kept_le (xs : List (α × Bool)) :
    (xs.filterMap fun x => if x.2 then g x.1 else none).length ≤ (xs.filterMap fun x => g x.1).length := by
  induction xs with
  | nil => exact Nat.le_refl 0
  | cons x xs ih =>
    rcases x with ⟨a, kept⟩
    rcases hg : g a with _ | b <;> rcases kept with _ | _ <;> simp [hg] <;> omega

/-- Leaving elements out of a list changes what is made of it only if something is made of them. -/
theorem filterMap_kept_iff (xs : List (α × Bool)) :
    (xs.filterMap fun x => if x.2 then g x.1 else none) = (xs.filterMap fun x => g x.1) ↔
      ∀ x ∈ xs, (g x.1).isSome → x.2 = true := by
  induction xs with
  | nil => simp
  | cons x xs ih =>
    rcases x with ⟨a, kept⟩
    rcases hg : g a with _ | b
    · rcases kept with _ | _ <;> simp [hg, ih]
    · rcases kept with _ | _
      · -- the element is left out, and the list gets shorter
        refine iff_of_false ?_ ?_
        · intro h
          have hlength := congrArg List.length h
          have hle := length_filterMap_kept_le g xs
          simp only [List.filterMap_cons, hg, Bool.false_eq_true, if_false, List.length_cons] at hlength
          omega
        · intro h
          cases h (a, false) List.mem_cons_self (by simp [hg])
      · simp [hg, ih]

end Keeping

/-- The rows of `friend` with, for each, whether its lookup of the user works; `k` requests and statements
were made before. -/
def lookups (fails : Nat → Bool) : Nat → List (Int × Bytes) → List ((Int × Bytes) × Bool)
  | _, [] => []
  | k, row :: rows =>
    -- a lookup without a connection makes no statement
    if fails k then (row, false) :: lookups fails (k + 1) rows
    else (row, !fails (k + 1)) :: lookups fails (k + 2) rows

theorem lookups_rows (fails : Nat → Bool) (k : Nat) (rows : List (Int × Bytes)) :
    (lookups fails k rows).map Prod.fst = rows := by
  induction rows generalizing k with
  | nil => rfl
  | cons row rows ih =>
    unfold lookups
    split <;> rw [List.map_cons, ih]

namespace Database

/-- The entry of a friend in the list: the profile with the alias of the row. -/
def friendEntry (db : Database) (row : Int × Bytes) : Option UserInfo :=
  (db.users.getUserInfo row.1).map fun base => { base with aliasName := row.2 }

theorem run_mergeFriends_failing (fails : Nat → Bool) (rows : List (Int × Bytes)) (list : List UserInfo)
    (k : Nat) (db : Database) :
    ∃ n, (MySqlDao.mergeFriends list rows).run (attempt fails) (k, db) =
      (list ++ (lookups fails k rows).filterMap (fun x => if x.2 then db.friendEntry x.1 else none),
        (n, db)) := by
  induction rows generalizing list k with
  | nil => exact ⟨k, by simp [MySqlDao.mergeFriends, lookups]⟩
  | cons row rows ih =>
    rw [MySqlDao.mergeFriends, Prog.run_bind, run_getUserInfo_failing]
    unfold lookups
    by_cases hcon : fails k = true
    · rw [if_pos hcon, if_pos hcon]
      obtain ⟨n, hn⟩ := ih list (k + 1)
      exact ⟨n, by simpa using hn⟩
    · rw [if_neg hcon, if_neg hcon]
      by_cases hthrows : fails (k + 1) = true
      · rw [if_pos hthrows]
        obtain ⟨n, hn⟩ := ih list (k + 2)
        exact ⟨n, by simpa [hthrows] using hn⟩
      · rw [if_neg hthrows]
        dsimp only
        rcases huser : db.users.getUserInfo row.1 with _ | base
        · obtain ⟨n, hn⟩ := ih list (k + 2)
          exact ⟨n, by simpa [hthrows, friendEntry, huser] using hn⟩
        · obtain ⟨n, hn⟩ := ih (list ++ [{ base with aliasName := row.2 }]) (k + 2)
          exact ⟨n, by simpa [hthrows, friendEntry, huser] using hn⟩

/-- **What `getFriendList` returns when lookups fail.** -/
theorem run_getFriendList_failing (fails : Nat → Bool) (uid : Int) (list : List UserInfo) (db : Database) :
    ∃ n, (MySqlDao.getFriendList uid list).run (attempt fails) (0, db) =
      if Executed fails then
        ((true, list ++ (lookups fails 2 (db.friendRows uid)).filterMap
          fun x => if x.2 then db.friendEntry x.1 else none), (n, db))
      else ((false, list), (n, db)) := by
  unfold MySqlDao.getFriendList
  rw [run_withConnection_failing, run_query_failing]
  by_cases hcon : fails 0 = true
  · refine ⟨1, ?_⟩
    rw [if_pos hcon, if_neg fun hex => Bool.eq_false_iff.mp hex.1 hcon]
  · rw [if_neg hcon]
    by_cases hthrows : fails 1 = true
    · refine ⟨2, ?_⟩
      rw [if_pos hthrows, if_neg fun hex => Bool.eq_false_iff.mp hex.2 hthrows]
      rfl
    · obtain ⟨n, hn⟩ := run_mergeFriends_failing fails (db.friendRows uid) list 2 db
      refine ⟨n, ?_⟩
      rw [if_neg hthrows, if_pos ⟨Bool.eq_false_iff.mpr hcon, Bool.eq_false_iff.mpr hthrows⟩]
      show (MySqlDao.mergeFriends list (db.friendRows uid) >>= fun list => pure (true, list) :
        SqlClient _).run (attempt fails) (2, db) = _
      rw [Prog.run_bind, hn]
      rfl

end Database

/-- If `getFriendList` returns true, it has added one entry for each friend who exists, in the order of
the rows. -/
def FriendsComplete (fails : Nat → Bool) (db : Database) (uid : Int) (list : List UserInfo) : Prop :=
  ∀ list' x, (MySqlDao.getFriendList uid list).run (Database.attempt fails) (0, db) = ((true, list'), x) →
    list' = list ++ (db.friendRows uid).filterMap db.friendEntry

/-- No lookup of a friend who exists fails, if the friends are read. -/
def FriendsFound (fails : Nat → Bool) (db : Database) (uid : Int) : Prop :=
  Database.Executed fails → ∀ x ∈ lookups fails 2 (db.friendRows uid),
    (db.users.getUserInfo x.1.1).isSome → x.2 = true

/-- **When the list of friends is complete**: exactly if no lookup of a friend who exists fails. -/
theorem friendList_complete_iff (fails : Nat → Bool) (db : Database) (uid : Int) (list : List UserInfo) :
    FriendsComplete fails db uid list ↔ FriendsFound fails db uid := by
  obtain ⟨n, hrun⟩ := db.run_getFriendList_failing fails uid list
  unfold FriendsComplete FriendsFound
  rw [hrun]
  by_cases hexecuted : Database.Executed fails
  · rw [if_pos hexecuted]
    have hentry : ∀ x : (Int × Bytes) × Bool,
        (db.users.getUserInfo x.1.1).isSome = (db.friendEntry x.1).isSome := by
      intro x
      unfold Database.friendEntry
      rw [Option.isSome_map]
    have hkept := filterMap_kept_iff db.friendEntry (lookups fails 2 (db.friendRows uid))
    have hrows : ((lookups fails 2 (db.friendRows uid)).filterMap fun x => db.friendEntry x.1) =
        (db.friendRows uid).filterMap db.friendEntry := by
      calc ((lookups fails 2 (db.friendRows uid)).filterMap fun x => db.friendEntry x.1)
          = ((lookups fails 2 (db.friendRows uid)).map Prod.fst).filterMap db.friendEntry :=
            (List.filterMap_map (f := Prod.fst) (g := db.friendEntry)).symm
        _ = (db.friendRows uid).filterMap db.friendEntry := by rw [lookups_rows]
    rw [hrows] at hkept
    simp only [hentry]
    constructor
    · intro h _
      exact hkept.mp (List.append_cancel_left (h _ _ rfl))
    · intro h list' x hreturn
      cases hreturn
      rw [hkept.mpr (h hexecuted)]
  · rw [if_neg hexecuted]
    refine iff_of_true ?_ fun h => absurd h hexecuted
    intro list' x hreturn
    cases hreturn

/-- User 7 is a friend of user 8. -/
def annFriend : Database := annDatabase.apply (.table (.insertFriend 8 7 (lit "b")))

/-- There is no connection for the lookup of user 7, and the list of user 8 is empty. -/
theorem friendList_incomplete : ¬ ∀ (fails : Nat → Bool) (db : Database) (uid : Int)
    (list : List UserInfo), FriendsComplete fails db uid list := by
  intro h
  have hrun : ((MySqlDao.getFriendList 8 []).run (Database.attempt fun k => k = 2) (0, annFriend)).1 =
      (true, []) := by decide +kernel
  have hall := h (fun k => k = 2) annFriend 8 [] [] _ (Prod.ext hrun rfl)
  have hentry : ((annFriend.friendRows 8).filterMap annFriend.friendEntry).length = 1 := by decide +kernel
  rw [← List.nil_append (List.filterMap _ _), ← hall] at hentry
  cases hentry

end ChatServer
