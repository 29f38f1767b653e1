import ChatServer.MySqlDao
import ChatServer.Lib.ConnPool

/-!
# The operations of the database and of Redis, with their connections

Every function of `infra/mysql/MySqlDao.cpp` and of `infra/redis/RedisMgr.cpp` as a program that takes
a connection from its pool, uses it and gives it back: the first by a `Defer`, the second by hand
before each return. A statement may throw, and a command may have no reply or an unexpected one.

Whatever happens, each of them gives back what it has taken (`MySqlDao.connected_balanced`,
`RedisMgr.operation_balanced`).
-/

namespace ChatServer

open Interaction Prog Bytes ConnPool

/-- A connection: a `SqlConnection` or a `redisContext`. -/
abbrev Conn : Type := Nat

/-! ## Statements -/

/-- A row of `user`. -/
structure UserRow where
  uid : Int
  name : Bytes
  nick : Bytes
  desc : Bytes
  sex : Int
  icon : Bytes
  email : Bytes
  pwd : Bytes
  deriving DecidableEq, Repr

/-- What `getUserInfo` makes of a row. -/
def UserRow.info (res : UserRow) : UserInfo where
  uid := res.uid
  pwd := res.pwd
  email := res.email
  name := res.name
  nick := if res.nick = [] then res.name else res.nick
  desc := res.desc
  sex := res.sex
  icon := res.icon

/-- A row of the join of `friend_apply` and `user` that `getApplyList` reads. -/
structure ApplyResult where
  fromUid : Int
  status : Int
  aliasName : Bytes
  name : Bytes
  nick : Bytes
  sex : Int
  deriving DecidableEq, Repr

/-- What `getApplyList` makes of a row. -/
def ApplyResult.info (res : ApplyResult) : ApplyInfo where
  uid := res.fromUid
  name := res.name
  desc := []
  icon := []
  nick := if res.nick = [] then res.name else res.nick
  sex := res.sex
  status := res.status
  aliasName := res.aliasName

/-- The rows that a loop over a `ResultSet` reads, and whether reading on throws after them. -/
structure ResultSet (α : Type) where
  rows : List α
  broken : Bool := false

/-- The statements of `MySqlDao`. -/
inductive Statement where
  /-- A statement on one of the two tables that friend requests write. -/
  | table (o : Sql)
  /-- `SELECT uid, name, nick, desc, sex, icon, email, pwd FROM user WHERE uid = ?`. -/
  | selectUser (uid : Int)
  /-- `SELECT uid, name, nick, desc, sex, icon, email, pwd FROM user WHERE name = ?`. -/
  | selectUserByName (name : Bytes)
  /-- `SELECT .. FROM friend_apply AS apply JOIN user ON apply.from_uid = user.uid
  WHERE apply.to_uid = ? AND apply.id > ? ORDER BY apply.id ASC LIMIT ?`. -/
  | selectApplyList (to_uid id limit : Int)
  /-- `SELECT * FROM friend WHERE self_id = ?`. -/
  | selectFriends (self_id : Int)

/-- None when the statement throws; a query by `uid` or `name` yields its first row. -/
@[reducible] def Statement.Resp : Statement → Type
  | .table o => o.Resp
  | .selectUser _ => Option (Option UserRow)
  | .selectUserByName _ => Option (Option UserRow)
  | .selectApplyList _ _ _ => Option (ResultSet ApplyResult)
  | .selectFriends _ => Option (ResultSet (Int × Bytes))

/-- A function of `MySqlDao` with its connection. -/
abbrev SqlClient : Type → Type := Client Conn Statement.Resp

abbrev SqlClient.ask (o : Op Conn Statement) : SqlClient (Op.Resp Statement.Resp o) := Client.ask o

namespace MySqlDao

/-! ## `MySqlDao` -/

variable {α : Type}

/-- The statements of a function, made on a connection. -/
def onConnection (con : Conn) : Dao α → SqlClient α
  | .ret a => .ret a
  | .call o k => .call (.query con (.table o)) fun r => onConnection con (k r)

/-- What a function does when there is no connection. -/
def withoutConnection : Dao α → SqlClient α
  | .ret a => .ret a
  | .call o k => withoutConnection (k (Sql.failure o))

/-- A function on the two tables: it takes a connection, and its `Defer` gives it back. -/
def pooled : Dao α → SqlClient α
  | .call .getConnection k => do
    let con ← SqlClient.ask .getConnection
    match con with
    | none => withoutConnection (k false)
    | some con =>
      let a ← onConnection con (k true)
      let _ ← SqlClient.ask (.returnConnection con)
      pure a
  | p => withoutConnection p

/-- `MySqlDao::getUserInfo(int)`. -/
def getUserInfo (uid : Int) : SqlClient (Option UserInfo) :=
  withConnection none fun con => do
    let res ← SqlClient.ask (.query con (.selectUser uid))
    match res with
    | none => pure none
    | some row => pure (row.map UserRow.info)

/-- `MySqlDao::getUserInfo(std::string)`. -/
def getUserInfoByName (name : Bytes) : SqlClient (Option UserInfo) :=
  withConnection none fun con => do
    let res ← SqlClient.ask (.query con (.selectUserByName name))
    match res with
    | none => pure none
    | some row => pure (row.map UserRow.info)

/-- `MySqlDao::getApplyList`. The rows before an exception stay in the list. -/
def getApplyList (touid start limit : Int) : SqlClient (Bool × List ApplyInfo) :=
  withConnection (false, []) fun con => do
    let res ← SqlClient.ask (.query con (.selectApplyList touid start limit))
    match res with
    | none => pure (false, [])
    | some res => pure (!res.broken, res.rows.map ApplyResult.info)

/-- The loop of `getFriendList`. It holds a connection, and `getUserInfo` takes another one. -/
def mergeFriends (list : List UserInfo) : List (Int × Bytes) → SqlClient (List UserInfo)
  | [] => pure list
  | (friend_id, row_alias) :: rows => do
    let base ← getUserInfo friend_id
    match base with
    | none => mergeFriends list rows
    | some base => mergeFriends (list ++ [{ base with aliasName := row_alias }]) rows

/-- `MySqlDao::getFriendList`. -/
def getFriendList (uid : Int) (list : List UserInfo) : SqlClient (Bool × List UserInfo) :=
  withConnection (false, list) fun con => do
    let res ← SqlClient.ask (.query con (.selectFriends uid))
    match res with
    | none => pure (false, list)
    | some res =>
      let list ← mergeFriends list res.rows
      pure (!res.broken, list)

/-- The functions that a handler's calls of `MySqlMgr` run. -/
def connected : (c : Call) → Option (SqlClient c.Resp)
  | .getUserInfo uid => some (getUserInfo uid)
  | .getUserInfoByName name => some (getUserInfoByName name)
  | .getApplyList touid start limit => some (getApplyList touid start limit)
  | .getFriendList uid => some (getFriendList uid [])
  | c => (run c).map pooled

/-- A function of `MySqlDao` as what a thread runs. -/
def Operation (q : SqlClient Unit) : Prop := ∃ c, ∃ p ∈ connected c, q = (p >>= fun _ => pure ())

/-! ## Giving back -/

theorem withoutConnection_eq (p : Dao α) : ∃ a, withoutConnection p = .ret a := by
  induction p with
  | ret a => exact ⟨a, rfl⟩
  | call o k ih => exact ih (Sql.failure o)

theorem onConnection_using (con : Conn) (p : Dao α) : Using con 0 (onConnection con p) := by
  induction p with
  | ret a => exact using_pure con 0 a
  | call o k ih => exact using_query ih

theorem balanced_withoutConnection (p : Dao α) : Balanced 1 (withoutConnection p) := by
  obtain ⟨a, ha⟩ := withoutConnection_eq p
  rw [ha]
  exact balanced_pure 1 a

theorem pooled_balanced (p : Dao α) : Balanced 1 (pooled p) := by
  unfold pooled
  split
  · refine Balanced.get (balanced_withoutConnection _) ?_
    intro con
    refine (onConnection_using con _).gives ?_
    intro a
    exact gives_return (balanced_pure 1 a)
  · exact balanced_withoutConnection _

theorem getUserInfo_balanced (uid : Int) : Balanced 1 (getUserInfo uid) := by
  refine balanced_withConnection ?_
  intro con
  refine using_query ?_
  intro res
  rcases res with _ | row <;> exact using_pure con _ _

theorem getUserInfoByName_balanced (name : Bytes) : Balanced 1 (getUserInfoByName name) := by
  refine balanced_withConnection ?_
  intro con
  refine using_query ?_
  intro res
  rcases res with _ | row <;> exact using_pure con _ _

theorem getApplyList_balanced (touid start limit : Int) :
    Balanced 1 (getApplyList touid start limit) := by
  refine balanced_withConnection ?_
  intro con
  refine using_query ?_
  intro res
  rcases res with _ | res <;> exact using_pure con _ _

theorem mergeFriends_using (con : Conn) (list : List UserInfo) (rows : List (Int × Bytes)) :
    Using con 1 (mergeFriends list rows) := by
  induction rows generalizing list with
  | nil => exact using_pure con 1 list
  | cons row rows ih =>
    refine ((getUserInfo_balanced row.1).using con).bind ?_
    intro base
    rcases base with _ | base
    · exact ih list
    · exact ih _

theorem getFriendList_balanced (uid : Int) (list : List UserInfo) :
    Balanced 2 (getFriendList uid list) := by
  refine balanced_withConnection ?_
  intro con
  refine using_query ?_
  intro res
  rcases res with _ | res
  · exact using_pure con _ _
  · refine (mergeFriends_using con list res.rows).bind ?_
    intro list
    exact using_pure con _ _

/-- **Every function of `MySqlDao` gives back the connections that it takes.** -/
theorem connected_balanced (c : Call) : ∀ p ∈ connected c, Balanced 2 p := by
  unfold connected
  intro p hp
  split at hp
  · cases hp
    exact (getUserInfo_balanced _).mono (by omega)
  · cases hp
    exact (getUserInfoByName_balanced _).mono (by omega)
  · cases hp
    exact (getApplyList_balanced _ _ _).mono (by omega)
  · cases hp
    exact getFriendList_balanced _ _
  · obtain ⟨q, -, rfl⟩ := Option.map_eq_some_iff.mp hp
    exact (pooled_balanced q).mono (by omega)

theorem operation_balanced {q : SqlClient Unit} (h : Operation q) : Balanced 2 q := by
  obtain ⟨c, p, hp, rfl⟩ := h
  exact (connected_balanced c p hp).bind fun _ => balanced_pure _ ()

end MySqlDao

/-! ## `RedisMgr` -/

/-- `redisReply`. -/
inductive Reply where
  | string (str : Bytes)
  | status (str : Bytes)
  | error (str : Bytes)
  | integer (n : Int)
  | nil
  | array
  deriving DecidableEq, Repr

/-- `reply->str`, read as a C string. The field is null in the replies without a text. -/
def Reply.str : Reply → Bytes
  | .string str => cstr str
  | .status str => cstr str
  | .error str => cstr str
  | _ => []

/-- A command, given by its arguments; none is a null reply. -/
abbrev RedisClient : Type → Type := Client Conn fun _ : List Bytes => Option Reply

abbrev RedisClient.ask (o : Op Conn (List Bytes)) :
    RedisClient (Op.Resp (fun _ => Option Reply) o) :=
  Client.ask o

namespace RedisMgr

/-- `RedisMgr::get`. -/
def get (key : Bytes) : RedisClient (Option Bytes) := do
  let connect ← RedisClient.ask .getConnection
  match connect with
  | none => pure none
  | some connect =>
    let reply ← RedisClient.ask (.query connect [lit "GET", cstr key])
    match reply with
    | none =>
      let _ ← RedisClient.ask (.returnConnection connect)
      pure none
    | some (.string str) =>
      let _ ← RedisClient.ask (.returnConnection connect)
      pure (some (cstr str))
    | some _ =>
      let _ ← RedisClient.ask (.returnConnection connect)
      pure none

/-- `RedisMgr::set`. -/
def set (key value : Bytes) : RedisClient Bool := do
  let connect ← RedisClient.ask .getConnection
  match connect with
  | none => pure false
  | some connect =>
    let reply ← RedisClient.ask (.query connect [lit "SET", cstr key, cstr value])
    match reply with
    | none =>
      let _ ← RedisClient.ask (.returnConnection connect)
      pure false
    | some (.status str) =>
      let _ ← RedisClient.ask (.returnConnection connect)
      pure (decide (cstr str = lit "OK" ∨ cstr str = lit "ok"))
    | some _ =>
      let _ ← RedisClient.ask (.returnConnection connect)
      pure false

/-- `RedisMgr::hSet(const char *, const char *, const char *, size_t)`. -/
def hSet (key hkey hvalue : Bytes) : RedisClient Bool := do
  let connect ← RedisClient.ask .getConnection
  match connect with
  | none => pure false
  | some connect =>
    let reply ← RedisClient.ask (.query connect [lit "HSET", cstr key, cstr hkey, hvalue])
    match reply with
    | some (.integer _) =>
      let _ ← RedisClient.ask (.returnConnection connect)
      pure true
    | _ =>
      let _ ← RedisClient.ask (.returnConnection connect)
      pure false

/-- `RedisMgr::hGet`. -/
def hGet (key hkey : Bytes) : RedisClient Bytes := do
  let connect ← RedisClient.ask .getConnection
  match connect with
  | none => pure []
  | some connect =>
    let reply ← RedisClient.ask (.query connect [lit "HGET", key, hkey])
    match reply with
    | none =>
      let _ ← RedisClient.ask (.returnConnection connect)
      pure []
    | some .nil =>
      let _ ← RedisClient.ask (.returnConnection connect)
      pure []
    | some (.error _) =>
      let _ ← RedisClient.ask (.returnConnection connect)
      pure []
    | some reply =>
      let _ ← RedisClient.ask (.returnConnection connect)
      pure reply.str

/-- `RedisMgr::hDel`. Here a `Defer` gives the connection back. -/
def hDel (key filed : Bytes) : RedisClient Bool :=
  withConnection false fun connect => do
    let reply ← RedisClient.ask (.query connect [lit "HDEL", cstr key, cstr filed])
    match reply with
    | some (.integer n) => pure (decide (n > 0))
    | _ => pure false

/-- The operations of `RedisMgr`. -/
inductive Operation where
  | get (key : Bytes)
  | set (key value : Bytes)
  | hSet (key hkey hvalue : Bytes)
  | hGet (key hkey : Bytes)
  | hDel (key filed : Bytes)

/-- What a thread runs for an operation. -/
def Operation.run : Operation → RedisClient Unit
  | .get key => RedisMgr.get key >>= fun _ => pure ()
  | .set key value => RedisMgr.set key value >>= fun _ => pure ()
  | .hSet key hkey hvalue => RedisMgr.hSet key hkey hvalue >>= fun _ => pure ()
  | .hGet key hkey => RedisMgr.hGet key hkey >>= fun _ => pure ()
  | .hDel key filed => RedisMgr.hDel key filed >>= fun _ => pure ()

variable {α : Type}

/-- Giving a connection back at the end. -/
theorem gives_last (connect : Conn) (a : α) :
    Gives connect 0 (RedisClient.ask (.returnConnection connect) >>= fun _ => pure a) :=
  gives_return (balanced_pure 1 a)

/-- One command on a connection that is taken for it. -/
def single (fallback : α) (argv : List Bytes) (result : Option Reply → α) : RedisClient α := do
  let connect ← RedisClient.ask .getConnection
  match connect with
  | none => pure fallback
  | some connect =>
    let reply ← RedisClient.ask (.query connect argv)
    let _ ← RedisClient.ask (.returnConnection connect)
    pure (result reply)

theorem eq_single {fallback : α} {argv : List Bytes} {result : Option Reply → α}
    {f : Conn → Option Reply → RedisClient α}
    (hf : ∀ connect reply, f connect reply =
      (RedisClient.ask (.returnConnection connect) >>= fun _ => pure (result reply))) :
    (RedisClient.ask .getConnection >>= fun connect =>
      match connect with
      | none => pure fallback
      | some connect => RedisClient.ask (.query connect argv) >>= f connect)
      = single fallback argv result := by
  obtain rfl : f = fun connect reply => _ := funext fun connect => funext fun reply => hf connect reply
  rfl

section Operations

variable (key hkey value : Bytes)

theorem get_eq_single : get key = single none [lit "GET", cstr key] fun
    | some (.string str) => some (cstr str)
    | _ => none := by
  refine eq_single ?_
  intro connect reply
  rcases reply with _ | _ | _ | _ | _ | _ | _ <;> rfl

theorem set_eq_single : set key value = single false [lit "SET", cstr key, cstr value] fun
    | some (.status str) => decide (cstr str = lit "OK" ∨ cstr str = lit "ok")
    | _ => false := by
  refine eq_single ?_
  intro connect reply
  rcases reply with _ | _ | _ | _ | _ | _ | _ <;> rfl

theorem hSet_eq_single : hSet key hkey value =
    single false [lit "HSET", cstr key, cstr hkey, value] fun
      | some (.integer _) => true
      | _ => false := by
  refine eq_single ?_
  intro connect reply
  rcases reply with _ | _ | _ | _ | _ | _ | _ <;> rfl

theorem hGet_eq_single : hGet key hkey = single [] [lit "HGET", key, hkey] fun
    | none => []
    | some .nil => []
    | some (.error _) => []
    | some reply => reply.str := by
  refine eq_single ?_
  intro connect reply
  rcases reply with _ | _ | _ | _ | _ | _ | _ <;> rfl

end Operations

theorem single_balanced (fallback : α) (argv : List Bytes) (result : Option Reply → α) :
    Balanced 1 (single fallback argv result) := by
  refine Balanced.get (balanced_pure 1 fallback) ?_
  intro connect
  refine gives_query ?_
  intro reply
  exact gives_last connect _

theorem get_balanced (key : Bytes) : Balanced 1 (get key) := by
  rw [get_eq_single]
  exact single_balanced _ _ _

theorem set_balanced (key value : Bytes) : Balanced 1 (set key value) := by
  rw [set_eq_single]
  exact single_balanced _ _ _

theorem hSet_balanced (key hkey hvalue : Bytes) : Balanced 1 (hSet key hkey hvalue) := by
  rw [hSet_eq_single]
  exact single_balanced _ _ _

theorem hGet_balanced (key hkey : Bytes) : Balanced 1 (hGet key hkey) := by
  rw [hGet_eq_single]
  exact single_balanced _ _ _

theorem hDel_balanced (key filed : Bytes) : Balanced 1 (hDel key filed) := by
  refine balanced_withConnection ?_
  intro connect
  refine using_query ?_
  intro reply
  rcases reply with _ | _ | _ | _ | _ | _ | _ <;> exact using_pure connect _ _

/-- **Every operation of `RedisMgr` gives back the connection that it takes.** -/
theorem operation_balanced (o : Operation) : Balanced 1 o.run := by
  rcases o with key | ⟨key, value⟩ | ⟨key, hkey, hvalue⟩ | ⟨key, hkey⟩ | ⟨key, filed⟩
  · exact (get_balanced key).bind fun _ => balanced_pure _ ()
  · exact (set_balanced key value).bind fun _ => balanced_pure _ ()
  · exact (hSet_balanced key hkey hvalue).bind fun _ => balanced_pure _ ()
  · exact (hGet_balanced key hkey).bind fun _ => balanced_pure _ ()
  · exact (hDel_balanced key filed).bind fun _ => balanced_pure _ ()

end RedisMgr

end ChatServer
