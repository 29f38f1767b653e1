import ChatServer.Calls
import ChatServer.World

/-!
# Applications and friendships in the database

The two tables that friend requests and acceptances write, and the functions of
`infra/mysql/MySqlDao.cpp` that do it, statement by statement. A connection may be unavailable and a
statement may throw; each statement that is executed takes effect at once, and there is no transaction
around several of them.
-/

namespace ChatServer

open Interaction Prog Bytes Function

/-! ## Statements -/

/-- The SQL statements of the functions below, and asking the pool for a connection. -/
inductive Sql where
  | getConnection
  /-- `INSERT INTO friend_apply (from_uid,to_uid,alias_name) .. ON DUPLICATE KEY UPDATE alias_name`. -/
  | insertApply (from_uid to_uid : Int) (alias_name : Bytes)
  /-- `SELECT alias_name FROM friend_apply WHERE from_uid = ? AND to_uid = ? LIMIT 1`. -/
  | selectApplyAlias (from_uid to_uid : Int)
  /-- `UPDATE friend_apply SET status = 1 WHERE from_uid = ? AND to_uid = ?`. -/
  | updateApply (from_uid to_uid : Int)
  /-- `INSERT IGNORE INTO friend(self_id,friend_id,alias_name)`. -/
  | insertFriend (self_id friend_id : Int) (alias_name : Bytes)
  /-- `SELECT alias_name FROM friend WHERE self_id = ? AND friend_id = ? LIMIT 1`. -/
  | selectFriendAlias (self_id friend_id : Int)

/-- What a statement returns: the rows affected, or the alias of the first row found; none when it
throws. -/
@[reducible] def Sql.Resp : Sql → Type
  | .getConnection => Bool
  | .insertApply _ _ _ => Option Int
  | .selectApplyAlias _ _ => Option (Option Bytes)
  | .updateApply _ _ => Option Int
  | .insertFriend _ _ _ => Option Int
  | .selectFriendAlias _ _ => Option (Option Bytes)

abbrev sql : Sig := ⟨Sql, Sql.Resp⟩

/-- A function of `MySqlDao`. -/
abbrev Dao : Type → Type := Prog sql

abbrev Dao.ask (o : Sql) : Dao o.Resp := perform (S := sql) o

/-! ## The tables -/

/-- A row of `friend_apply`. -/
structure ApplyRow where
  status : Int := 0
  aliasName : Bytes
  deriving DecidableEq, Repr

/-- The tables `friend_apply`, by `from_uid` and `to_uid`, and `friend`, by `self_id` and
`friend_id`. -/
structure Db where
  friendApply : Int × Int → Option ApplyRow
  friend : Int × Int → Option Bytes

namespace Db

def empty : Db := { friendApply := fun _ => none, friend := fun _ => none }

/-- What a statement does to the tables. -/
def apply (db : Db) : Sql → Db
  | .insertApply from_uid to_uid alias_name =>
    let row := match db.friendApply (from_uid, to_uid) with
      | none => { aliasName := alias_name }
      | some row => { row with aliasName := alias_name }
    { db with friendApply := update db.friendApply (from_uid, to_uid) (some row) }
  | .updateApply from_uid to_uid =>
    let row := (db.friendApply (from_uid, to_uid)).map fun row => { row with status := 1 }
    { db with friendApply := update db.friendApply (from_uid, to_uid) row }
  | .insertFriend self_id friend_id alias_name =>
    let row := (db.friend (self_id, friend_id)).getD alias_name
    { db with friend := update db.friend (self_id, friend_id) (some row) }
  | _ => db

/-- What a statement that is executed returns. An update counts the rows that it changes. -/
def answer (db : Db) : (o : Sql) → o.Resp
  | .getConnection => true
  | .insertApply from_uid to_uid alias_name =>
    match db.friendApply (from_uid, to_uid) with
    | none => some 1
    | some row => some (if row.aliasName = alias_name then 0 else 2)
  | .selectApplyAlias from_uid to_uid =>
    some ((db.friendApply (from_uid, to_uid)).map ApplyRow.aliasName)
  | .updateApply from_uid to_uid =>
    match db.friendApply (from_uid, to_uid) with
    | none => some 0
    | some row => some (if row.status = 1 then 0 else 1)
  | .insertFriend self_id friend_id _ => some (if (db.friend (self_id, friend_id)).isSome then 0 else 1)
  | .selectFriendAlias self_id friend_id => some (db.friend (self_id, friend_id))

end Db

/-- No connection is available, or the statement throws. -/
def Sql.Failed : Event sql → Prop
  | ⟨.getConnection, r⟩ => r = false
  | ⟨.insertApply _ _ _, r⟩ => r = none
  | ⟨.selectApplyAlias _ _, r⟩ => r = none
  | ⟨.updateApply _ _, r⟩ => r = none
  | ⟨.insertFriend _ _ _, r⟩ => r = none
  | ⟨.selectFriendAlias _ _, r⟩ => r = none

/-- A statement is executed, or it fails and changes nothing. -/
def Sql.sem (e : Event sql) (db db' : Db) : Prop :=
  (db' = db.apply e.1 ∧ e.2 = db.answer e.1) ∨ (Sql.Failed e ∧ db' = db)

/-! ## `MySqlDao` -/

namespace MySqlDao

/-- `MySqlDao::addFriendApply`. -/
def addFriendApply (uid touid : Int) (apply_alias_name : Bytes) : Dao Bool := do
  let con ← Dao.ask .getConnection
  if con = false then
    pure false
  else
    let row_affected ← Dao.ask (.insertApply uid touid apply_alias_name)
    match row_affected with
    | none => pure false
    | some row_affected => pure (!decide (row_affected < 0))

/-- `MySqlDao::getFriendApplyAlias`. -/
def getFriendApplyAlias (from_uid to_uid : Int) : Dao (Bool × Bytes) := do
  let con ← Dao.ask .getConnection
  if con = false then
    pure (false, [])
  else
    let res ← Dao.ask (.selectApplyAlias from_uid to_uid)
    match res with
    | some (some out_alias) => pure (true, out_alias)
    | _ => pure (false, [])

/-- `MySqlDao::getFriendAlias`. -/
def getFriendAlias (self_id friend_id : Int) : Dao (Bool × Bytes) := do
  let con ← Dao.ask .getConnection
  if con = false then
    pure (false, [])
  else
    let res ← Dao.ask (.selectFriendAlias self_id friend_id)
    match res with
    | some (some out_alias) => pure (true, out_alias)
    | _ => pure (false, [])

/-- `MySqlDao::authFriendApply`. -/
def authFriendApply (uid touid : Int) : Dao Bool := do
  let con ← Dao.ask .getConnection
  if con = false then
    pure false
  else
    let row_affected ← Dao.ask (.updateApply uid touid)
    match row_affected with
    | none => pure false
    | some row_affected => pure (decide (row_affected > 0))

/-- `MySqlDao::addFriend`. When the first insertion throws, the second is not tried. -/
def addFriend (applicant_uid accepter_uid : Int)
    (alias_applicant_for_accepter alias_accepter_for_applicant : Bytes) : Dao Bool := do
  let con ← Dao.ask .getConnection
  if con = false then
    pure false
  else
    let row_affected ← Dao.ask
      (.insertFriend applicant_uid accepter_uid alias_applicant_for_accepter)
    match row_affected with
    | none => pure false
    | some row_affected =>
      let row_affected2 ← Dao.ask
        (.insertFriend accepter_uid applicant_uid alias_accepter_for_applicant)
      match row_affected2 with
      | none => pure false
      | some row_affected2 => pure (decide (row_affected > 0 ∨ row_affected2 > 0))

/-- The functions that a handler's calls on the two tables run. The other calls do not write them. -/
def run : (c : Call) → Option (Dao c.Resp)
  | .addFriendApply uid touid applyAliasName => some (addFriendApply uid touid applyAliasName)
  | .getFriendApplyAlias fromUid toUid => some (getFriendApplyAlias fromUid toUid)
  | .getFriendAlias selfId friendId => some (getFriendAlias selfId friendId)
  | .authFriendApply uid touid => some (authFriendApply uid touid)
  | .addFriend applicantUid accepterUid aliasApplicantForAccepter aliasAccepterForApplicant =>
    some (addFriend applicantUid accepterUid aliasApplicantForAccepter aliasAccepterForApplicant)
  | _ => none

end MySqlDao

/-- A call of a handler: what it does to the tables, and the statements that it adds to the log. A call
that does not concern the tables may answer anything. -/
def Db.sem (e : Event calls) (x y : Db × List (Event sql)) : Prop :=
  match MySqlDao.run e.1 with
  | none => y = x
  | some p => ∃ t, Exec Sql.sem p x.1 t e.2 y.1 ∧ y.2 = x.2 ++ t

/-! ## Executing statements -/

/-- What a statement returns when it fails. -/
def Sql.failure : (o : Sql) → o.Resp
  | .getConnection => false
  | .insertApply _ _ _ => none
  | .selectApplyAlias _ _ => none
  | .updateApply _ _ => none
  | .insertFriend _ _ _ => none
  | .selectFriendAlias _ _ => none

/-- Execute and record a statement, unless it is one of those that fail. -/
def Sql.interpret (fails : Sql → Bool) (o : Sql) (x : Db × List (Event sql)) :
    o.Resp × Db × List (Event sql) :=
  if fails o then (Sql.failure o, x.1, x.2 ++ [⟨o, Sql.failure o⟩])
  else (x.1.answer o, x.1.apply o, x.2 ++ [⟨o, x.1.answer o⟩])

theorem Sql.sem_interpret (fails : Sql → Bool) (o : Sql) (x : Db × List (Event sql)) :
    Sql.sem ⟨o, (Sql.interpret fails o x).1⟩ x.1 (Sql.interpret fails o x).2.1 ∧
      (Sql.interpret fails o x).2.2 = x.2 ++ [⟨o, (Sql.interpret fails o x).1⟩] := by
  unfold Sql.interpret
  split
  · refine ⟨Or.inr ⟨?_, rfl⟩, rfl⟩
    cases o <;> rfl
  · exact ⟨Or.inl ⟨rfl, rfl⟩, rfl⟩

theorem Sql.exec_interpret {α : Type} (fails : Sql → Bool) (p : Dao α) (x : Db × List (Event sql)) :
    ∃ t, Exec Sql.sem p x.1 t (p.run (Sql.interpret fails) x).1 (p.run (Sql.interpret fails) x).2.1 ∧
      (p.run (Sql.interpret fails) x).2.2 = x.2 ++ t := by
  induction p generalizing x with
  | ret a => exact ⟨[], .ret a x.1, (List.append_nil _).symm⟩
  | call o k ih =>
    obtain ⟨hsem, hlog⟩ := Sql.sem_interpret fails o x
    obtain ⟨t, ht, hx⟩ := ih (Sql.interpret fails o x).1 (Sql.interpret fails o x).2
    refine ⟨_ :: t, .call hsem ht, ?_⟩
    rw [run_call, hx, hlog, List.append_assoc, List.singleton_append]

/-- Answer a call on the tables by executing its statements, and any other as an empty Redis does. -/
def Db.interpret (fails : Sql → Bool) (c : Call) (x : Db × List (Event sql)) :
    c.Resp × Db × List (Event sql) :=
  match MySqlDao.run c with
  | none => (World.noAnswer c, x)
  | some p => p.run (Sql.interpret fails) x

theorem Db.sem_interpret (fails : Sql → Bool) (c : Call) (x : Db × List (Event sql)) :
    Db.sem ⟨c, (Db.interpret fails c x).1⟩ x (Db.interpret fails c x).2 := by
  unfold Db.sem Db.interpret
  dsimp only
  cases MySqlDao.run c with
  | none => rfl
  | some p => exact Sql.exec_interpret fails p x


end ChatServer
