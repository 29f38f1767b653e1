import ChatServer.Connections

/-!
# The database as a whole

The table `user`, which nothing here writes, next to the two tables of `MySqlDao`, and what the
functions of `MySqlDao` return when no statement fails (`Database.run`): each is executed statement by
statement on a connection of the pool.
-/

namespace ChatServer

open Interaction Prog Bytes Function ConnPool Word

/-! ## Users -/

/-- A row as the schema has it: `uid` and `sex` are `INT`, and the name is not empty. -/
structure UserRow.Valid (row : UserRow) : Prop where
  uid : IsInt row.uid
  sex : IsInt row.sex
  name : row.name ≠ []
  noNul : (0 : UInt8) ∉ row.name

/-- The table `user`: uids and names are unique. -/
structure UserTable where
  rows : List UserRow
  uids : (rows.map UserRow.uid).Nodup
  names : (rows.map UserRow.name).Nodup
  valid : ∀ row ∈ rows, row.Valid

namespace UserTable

/-- What `MySqlDao::getUserInfo(int)` returns. -/
def getUserInfo (users : UserTable) (uid : Int) : Option UserInfo :=
  (users.rows.find? fun row => row.uid = uid).map UserRow.info

/-- What `MySqlDao::getUserInfo(std::string)` returns. -/
def getUserInfoByName (users : UserTable) (name : Bytes) : Option UserInfo :=
  (users.rows.find? fun row => row.name = name).map UserRow.info

variable {users : UserTable} {uid : Int} {user : UserInfo} {row : UserRow}

theorem exists_row (h : users.getUserInfo uid = some user) :
    ∃ row ∈ users.rows, row.uid = uid ∧ row.info = user := by
  obtain ⟨row, hrow, rfl⟩ := Option.map_eq_some_iff.mp h
  exact ⟨row, List.mem_of_find?_eq_some hrow, by simpa using List.find?_some hrow, rfl⟩

/-- A row is found by a column without duplicates. -/
theorem find_column {α : Type} [DecidableEq α] {f : UserRow → α} {rows : List UserRow}
    (hf : (rows.map f).Nodup) (h : row ∈ rows) : rows.find? (fun x => f x = f row) = some row := by
  rcases hfind : rows.find? fun x => f x = f row with _ | found
  · have := List.find?_eq_none.mp hfind row h
    simp at this
  · have hmem := List.mem_of_find?_eq_some hfind
    have hsame : f found = f row := by simpa using List.find?_some hfind
    rw [List.inj_on_of_nodup_map hf hmem h hsame]

theorem getUserInfo_of_mem (h : row ∈ users.rows) : users.getUserInfo row.uid = some row.info := by
  unfold getUserInfo
  rw [find_column users.uids h, Option.map_some]

theorem getUserInfoByName_of_mem (h : row ∈ users.rows) :
    users.getUserInfoByName row.name = some row.info := by
  unfold getUserInfoByName
  rw [find_column users.names h, Option.map_some]

theorem getUserInfo_uid (h : users.getUserInfo uid = some user) : user.uid = uid ∧ IsInt uid := by
  obtain ⟨row, hrow, rfl, rfl⟩ := exists_row h
  exact ⟨rfl, (users.valid row hrow).uid⟩

/-- A user found by name is found by uid, too. -/
theorem getUserInfo_of_byName {name : Bytes} (h : users.getUserInfoByName name = some user) :
    users.getUserInfo user.uid = some user := by
  obtain ⟨row, hrow, rfl⟩ := Option.map_eq_some_iff.mp h
  exact getUserInfo_of_mem (List.mem_of_find?_eq_some hrow)

/-- A user has a name, a nickname and no other data than the columns. -/
structure Named (user : UserInfo) : Prop where
  name : user.name ≠ []
  noNul : (0 : UInt8) ∉ user.name
  nick : user.nick ≠ []
  sex : IsInt user.sex
  back : user.back = []
  aliasName : user.aliasName = []

theorem named (h : users.getUserInfo uid = some user) : Named user := by
  obtain ⟨row, hrow, -, rfl⟩ := exists_row h
  obtain ⟨-, hsex, hname, hnul⟩ := users.valid row hrow
  refine ⟨hname, hnul, ?_, hsex, rfl, rfl⟩
  unfold UserRow.info
  dsimp only
  split
  · exact hname
  · assumption

end UserTable

/-! ## All tables -/

/-- The key of a row of `friend_apply`, with its `id`. -/
structure Application where
  id : Int
  fromUid : Int
  toUid : Int
  deriving DecidableEq, Repr

def Application.key (a : Application) : Int × Int := (a.fromUid, a.toUid)

/-- The tables. `applications` are the rows of `friend_apply` in the order of their ids, which begin at
one, and `friends` the rows of `friend` in the order in which a scan finds them. -/
structure Database where
  users : UserTable
  tables : Db
  applications : List Application
  friends : List (Int × Int)
  nextId : Int := 1
  applied : ∀ k, (tables.friendApply k).isSome = true ↔ k ∈ applications.map Application.key
  befriended : ∀ k, (tables.friend k).isSome = true ↔ k ∈ friends

/-! Without rows. -/

theorem Db.applied_empty (k : Int × Int) : (Db.empty.friendApply k).isSome = true ↔
    k ∈ ([] : List Application).map Application.key := by
  simp [Db.empty]

theorem Db.befriended_empty (k : Int × Int) :
    (Db.empty.friend k).isSome = true ↔ k ∈ ([] : List (Int × Int)) := by
  simp [Db.empty]

namespace Database

/-- The rows that `getApplyList` selects. -/
def applyRows (db : Database) (to_uid start limit : Int) : List ApplyResult :=
  let rows := db.applications.filter fun a => a.toUid = to_uid ∧ start < a.id
  (rows.filterMap fun a => do
    let row ← db.tables.friendApply a.key
    let user ← db.users.rows.find? fun user => user.uid = a.fromUid
    some
      { fromUid := a.fromUid, status := row.status, aliasName := row.aliasName, name := user.name,
        nick := user.nick, sex := user.sex }).take limit.toNat

/-- The rows that `getFriendList` selects. -/
def friendRows (db : Database) (self_id : Int) : List (Int × Bytes) :=
  (db.friends.filter fun k => k.1 = self_id).filterMap fun k =>
    (db.tables.friend k).map fun alias_name => (k.2, alias_name)

/-- What a statement returns. -/
def answer (db : Database) : (q : Statement) → q.Resp
  | .table o => db.tables.answer o
  | .selectUser uid => some (db.users.rows.find? fun row => row.uid = uid)
  | .selectUserByName name => some (db.users.rows.find? fun row => row.name = name)
  | .selectApplyList to_uid id limit => some { rows := db.applyRows to_uid id limit }
  | .selectFriends self_id => some { rows := db.friendRows self_id }

/-- The keys of a table in which a row is inserted unless it is there. -/
theorem mem_insert {α : Type} {f : Int × Int → Option α} {keys : List (Int × Int)} (k : Int × Int)
    (a : α) (h : ∀ j, (f j).isSome = true ↔ j ∈ keys) (j : Int × Int) :
    (update f k (some a) j).isSome = true ↔ j ∈ if (f k).isSome then keys else keys ++ [k] := by
  by_cases hj : j = k
  · subst hj
    split
    · rename_i hsome
      simpa using (h j).mp hsome
    · simp
  · rw [update_of_ne hj, h]
    split
    · rfl
    · simp [hj]

/-- What a statement does. -/
def apply (db : Database) : Statement → Database
  | .table (.insertApply from_uid to_uid alias_name) =>
    let row := match db.tables.friendApply (from_uid, to_uid) with
      | none => { aliasName := alias_name }
      | some row => { row with aliasName := alias_name }
    { db with
      tables := { db.tables with
        friendApply := update db.tables.friendApply (from_uid, to_uid) (some row) }
      applications :=
        if (db.tables.friendApply (from_uid, to_uid)).isSome then db.applications
        else db.applications ++ [{ id := db.nextId, fromUid := from_uid, toUid := to_uid }]
      nextId := db.nextId + 1
      applied := by
        intro k
        rw [mem_insert _ _ db.applied k]
        split <;> simp [Application.key] }
  | .table (.updateApply from_uid to_uid) =>
    { db with
      tables := db.tables.apply (.updateApply from_uid to_uid)
      applied := by
        intro k
        rw [← db.applied k]
        by_cases hk : k = (from_uid, to_uid)
        · subst hk
          simp [Db.apply]
        · simp [Db.apply, update_of_ne hk] }
  | .table (.insertFriend self_id friend_id alias_name) =>
    { db with
      tables := db.tables.apply (.insertFriend self_id friend_id alias_name)
      friends :=
        if (db.tables.friend (self_id, friend_id)).isSome then db.friends
        else db.friends ++ [(self_id, friend_id)]
      befriended := mem_insert _ _ db.befriended }
  | _ => db

/-- A statement does to the two tables what it does. -/
theorem apply_tables (db : Database) (o : Sql) :
    (db.apply (.table o)).tables = db.tables.apply o := by
  cases o <;> rfl

@[simp] theorem apply_users (db : Database) (q : Statement) : (db.apply q).users = db.users := by
  unfold apply
  split <;> rfl

/-! ## Functions -/

/-- The pool has connections, and no statement fails. -/
def interpret : (o : Op Conn Statement) → Database → Op.Resp Statement.Resp o × Database
  | .getConnection, db => (some 0, db)
  | .returnConnection _, db => ((), db)
  | .query _ q, db => (db.answer q, db.apply q)

/-- A call of a handler on the database. -/
def call (c : Call) (db : Database) : Option (c.Resp × Database) :=
  (MySqlDao.connected c).map fun p => p.run interpret db

variable (db : Database)

@[simp] theorem call_getUserInfo (uid : Int) :
    db.call (.getUserInfo uid) = some (db.users.getUserInfo uid, db) := rfl

@[simp] theorem call_getUserInfoByName (name : Bytes) :
    db.call (.getUserInfoByName name) = some (db.users.getUserInfoByName name, db) := rfl

@[simp] theorem call_getApplyList (touid start limit : Int) :
    db.call (.getApplyList touid start limit) =
      some ((true, (db.applyRows touid start limit).map ApplyResult.info), db) := rfl

theorem run_mergeFriends (rows : List (Int × Bytes)) (list : List UserInfo) :
    (MySqlDao.mergeFriends list rows).run interpret db =
      (list ++ rows.filterMap fun row => (db.users.getUserInfo row.1).map fun base =>
        { base with aliasName := row.2 }, db) := by
  induction rows generalizing list with
  | nil => simp [MySqlDao.mergeFriends]
  | cons row rows ih =>
    have huser : (MySqlDao.getUserInfo row.1).run interpret db =
        (db.users.getUserInfo row.1, db) := rfl
    rw [MySqlDao.mergeFriends, Prog.run_bind, huser]
    rcases hbase : db.users.getUserInfo row.1 with _ | base
    · simp [ih, hbase]
    · simp [ih, hbase]

/-- **What `getFriendList` returns**: the rows whose user exists, each with its alias. -/
theorem call_getFriendList (uid : Int) :
    db.call (.getFriendList uid) = some ((true, (db.friendRows uid).filterMap fun row =>
      (db.users.getUserInfo row.1).map fun base => { base with aliasName := row.2 }), db) := by
  have hrun : db.call (.getFriendList uid) = some
      (((MySqlDao.mergeFriends [] (db.friendRows uid) >>= fun list => pure (true, list)) >>= fun a =>
        SqlClient.ask (.returnConnection 0) >>= fun _ => pure a).run interpret db) := rfl
  rw [hrun, bind_assoc, Prog.run_bind, run_mergeFriends]
  rfl

/-- A statement on the two tables. -/
def execute (o : Sql) (db : Database) : o.Resp × Database :=
  (db.tables.answer o, db.apply (.table o))

theorem run_onConnection {α : Type} (con : Conn) (p : Dao α) :
    (MySqlDao.onConnection con p).run interpret db = p.run execute db := by
  induction p generalizing db with
  | ret a => rfl
  | call o k ih => exact ih (db.tables.answer o) (db.apply (.table o))

/-- A function on the two tables executes its statements. -/
theorem run_pooled {α : Type} (k : Bool → Dao α) :
    (MySqlDao.pooled (Dao.ask .getConnection >>= k)).run interpret db = (k true).run execute db := by
  have hrun : (MySqlDao.pooled (Dao.ask .getConnection >>= k)).run interpret db =
      (MySqlDao.onConnection 0 (k true) >>= fun a =>
        SqlClient.ask (.returnConnection 0) >>= fun _ => pure a).run interpret db := rfl
  rw [hrun, Prog.run_bind, run_onConnection]
  rfl

theorem call_of_run {c : Call} {k : Bool → Dao c.Resp}
    (h : MySqlDao.connected c = some (MySqlDao.pooled (Dao.ask .getConnection >>= k))) :
    db.call c = some ((k true).run execute db) := by
  unfold call
  rw [h, Option.map_some, run_pooled]

theorem run_ask {α : Type} (o : Sql) (f : o.Resp → Dao α) :
    (Dao.ask o >>= f).run execute db =
      (f (db.tables.answer o)).run execute (db.apply (.table o)) := rfl

theorem call_addFriendApply (uid touid : Int) (alias_name : Bytes) :
    db.call (.addFriendApply uid touid alias_name) =
      some (true, db.apply (.table (.insertApply uid touid alias_name))) := by
  rw [call_of_run db rfl, if_neg (by decide), run_ask]
  rcases hrow : db.tables.friendApply (uid, touid) with _ | row
  · simp [Db.answer, hrow]
  · by_cases halias : row.aliasName = alias_name
    · simp [Db.answer, hrow, halias]
    · simp [Db.answer, hrow, halias]

theorem call_getFriendApplyAlias (from_uid to_uid : Int) :
    db.call (.getFriendApplyAlias from_uid to_uid) =
      some (match db.tables.friendApply (from_uid, to_uid) with
        | some row => (true, row.aliasName)
        | none => (false, []), db) := by
  rw [call_of_run db rfl, if_neg (by decide), run_ask]
  rcases hrow : db.tables.friendApply (from_uid, to_uid) with _ | row
  · simp [Db.answer, hrow, apply]
  · simp [Db.answer, hrow, apply]

theorem call_getFriendAlias (self_id friend_id : Int) :
    db.call (.getFriendAlias self_id friend_id) =
      some (match db.tables.friend (self_id, friend_id) with
        | some out_alias => (true, out_alias)
        | none => (false, []), db) := by
  rw [call_of_run db rfl, if_neg (by decide), run_ask]
  rcases halias : db.tables.friend (self_id, friend_id) with _ | out_alias
  · simp [Db.answer, halias, apply]
  · simp [Db.answer, halias, apply]

theorem call_authFriendApply (uid touid : Int) :
    ∃ r, db.call (.authFriendApply uid touid) =
      some (r, db.apply (.table (.updateApply uid touid))) := by
  rw [call_of_run db rfl, if_neg (by decide), run_ask]
  rcases hrow : db.tables.friendApply (uid, touid) with _ | row
  · exact ⟨false, by simp [Db.answer, hrow]⟩
  · exact ⟨_, by simp [Db.answer, hrow]; rfl⟩

theorem call_addFriend (applicant_uid accepter_uid : Int) (alias₁ alias₂ : Bytes) :
    ∃ r, db.call (.addFriend applicant_uid accepter_uid alias₁ alias₂) =
      some (r, (db.apply (.table (.insertFriend applicant_uid accepter_uid alias₁))).apply
        (.table (.insertFriend accepter_uid applicant_uid alias₂))) := by
  rw [call_of_run db rfl]
  exact ⟨_, rfl⟩

end Database

end ChatServer
