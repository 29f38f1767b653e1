import ChatServer.Location

/-!
# Two worlds that differ in one password

Two databases that agree but for the password of one user, next to two Redis in which that user's cached
profiles differ in the same way, and the sessions of servers of which some may have been sent different
messages. What a call does in the one world it does in the other (`Variation.call`), and it is answered
alike.
-/

namespace ChatServer

open Interaction Prog Handler Bytes Function Fleet

/-! ## Users -/

/-- Equal but for the password. -/
def UserInfo.Agrees (u u' : UserInfo) : Prop := u' = { u with pwd := u'.pwd }

/-- The same row, or rows of the user `v` with other passwords. -/
def UserRow.Agrees (v : Int) (row row' : UserRow) : Prop :=
  row' = row ∨ (row.uid = v ∧ row' = { row with pwd := row'.pwd })

theorem UserInfo.Agrees.refl (u : UserInfo) : u.Agrees u := rfl

/-- The columns of a row but for the password. -/
theorem UserRow.Agrees.columns {v : Int} {row row' : UserRow} (h : row.Agrees v row') :
    row'.uid = row.uid ∧ row'.name = row.name ∧ row'.nick = row.nick ∧ row'.sex = row.sex := by
  rcases h with rfl | ⟨-, heq⟩
  · exact ⟨rfl, rfl, rfl, rfl⟩
  · rw [heq]
    exact ⟨rfl, rfl, rfl, rfl⟩

theorem UserRow.Agrees.info {v : Int} {row row' : UserRow} (h : row.Agrees v row') :
    row.info.Agrees row'.info ∧ (row'.info = row.info ∨ row.info.uid = v) := by
  rcases h with rfl | ⟨huid, heq⟩
  · exact ⟨rfl, Or.inl rfl⟩
  · rw [heq]
    exact ⟨rfl, Or.inr huid⟩

/-- What is made of related values is related. -/
theorem rel_map {α β γ δ : Type} {R : α → β → Prop} {R' : γ → δ → Prop} {f : α → γ} {g : β → δ}
    {a : Option α} {b : Option β} (h : Option.Rel R a b)
    (hf : ∀ x y, a = some x → b = some y → R x y → R' (f x) (g y)) :
    Option.Rel R' (a.map f) (b.map g) := by
  rcases h with h | _
  · exact .some (hf _ _ rfl rfl h)
  · exact .none

/-- Looking for a row finds rows that agree. -/
theorem find_agrees {v : Int} {q : UserRow → Bool} (hq : ∀ row row', row.Agrees v row' → q row' = q row)
    {rows rows' : List UserRow} (h : List.Forall₂ (UserRow.Agrees v) rows rows') :
    Option.Rel (UserRow.Agrees v) (rows.find? q) (rows'.find? q) := by
  induction h with
  | nil => exact .none
  | @cons row row' rows rows' hrow _ ih =>
    rw [List.find?_cons, List.find?_cons, hq row row' hrow]
    split
    · exact .some hrow
    · exact ih

/-- A key under which profiles are cached. -/
def ProfileKey (key : Bytes) : Prop :=
  RedisPrefix.userBaseInfo <+: key ∨ RedisPrefix.userNameInfo <+: key

theorem ProfileKey.of_cstr {key : Bytes} (h : ProfileKey (cstr key)) : ProfileKey key :=
  h.imp (fun h => h.trans <| cstr_prefix key) fun h => h.trans <| cstr_prefix key

theorem ProfileKey.cstr {key : Bytes} (h : ProfileKey key) : ProfileKey (Bytes.cstr key) := by
  rcases h with ⟨k, rfl⟩ | ⟨k, rfl⟩
  · left
    rw [cstr_append (by decide)]
    exact List.prefix_append _ _
  · right
    rw [cstr_append (by decide)]
    exact List.prefix_append _ _

/-- Two tables `user` that differ at most in the password of one user. The library reads back the
profiles of both. -/
structure Variation (J : JsonCpp) where
  user : Int
  users : UserTable
  users' : UserTable
  rows : List.Forall₂ (UserRow.Agrees user) users.rows users'.rows
  readsBack : J.ReadsBackAll users
  readsBack' : J.ReadsBackAll users'

namespace Variation

variable {J : JsonCpp} (V : Variation J)

/-- What the two tables have of one user. -/
structure Twins (u u' : UserInfo) : Prop where
  exists_uid : ∃ uid, V.users.getUserInfo uid = some u ∧ V.users'.getUserInfo uid = some u'
  agrees : u.Agrees u'
  same : u' = u ∨ u.uid = V.user

theorem find_uid (uid : Int) : Option.Rel (UserRow.Agrees V.user)
    (V.users.rows.find? fun row => row.uid = uid) (V.users'.rows.find? fun row => row.uid = uid) :=
  find_agrees (fun row row' h => by rw [h.columns.1]) V.rows

/-- Rows that agree are twins. -/
theorem twins_of_agrees {row row' : UserRow} (hmem : row ∈ V.users.rows) (hmem' : row' ∈ V.users'.rows)
    (h : row.Agrees V.user row') : V.Twins row.info row'.info := by
  have hsome := UserTable.getUserInfo_of_mem hmem
  have hsome' := UserTable.getUserInfo_of_mem hmem'
  rw [h.columns.1] at hsome'
  exact ⟨⟨row.uid, hsome, hsome'⟩, h.info.1, h.info.2⟩

/-- What a lookup finds in the two tables. -/
theorem getUserInfo_twins (uid : Int) :
    Option.Rel (fun u u' => u.uid = uid ∧ V.Twins u u') (V.users.getUserInfo uid)
      (V.users'.getUserInfo uid) := by
  refine rel_map (V.find_uid uid) ?_
  intro row row' hrow hrow' h
  refine ⟨?_, V.twins_of_agrees (List.mem_of_find?_eq_some hrow) (List.mem_of_find?_eq_some hrow') h⟩
  have huid : row.uid = uid := by simpa using List.find?_some hrow
  exact huid

theorem getUserInfoByName_twins (name : Bytes) :
    Option.Rel V.Twins (V.users.getUserInfoByName name) (V.users'.getUserInfoByName name) := by
  refine rel_map (find_agrees (fun row row' h => by rw [h.columns.2.1]) V.rows) ?_
  intro row row' hrow hrow' h
  exact V.twins_of_agrees (List.mem_of_find?_eq_some hrow) (List.mem_of_find?_eq_some hrow') h

/-! ## Cached texts -/

/-- Texts that are read as profiles of the user with other passwords. -/
def TwinText (x x' : Bytes) : Prop :=
  ∃ u u', cachedProfile J x = .ok u ∧ cachedProfile J x' = .ok u' ∧ u.Agrees u' ∧ u.uid = V.user

/-- The text of a profile in the two worlds. -/
theorem twinText_of_twins {u u' : UserInfo} (h : V.Twins u u') (write : Json → Bytes)
    (hw : ∀ uid user, V.users.getUserInfo uid = some user →
      cachedProfile J (cstr (write (Json.null.setProfile user))) = .ok user)
    (hw' : ∀ uid user, V.users'.getUserInfo uid = some user →
      cachedProfile J (cstr (write (Json.null.setProfile user))) = .ok user) :
    write (Json.null.setProfile u') = write (Json.null.setProfile u) ∨
      V.TwinText (cstr (write (Json.null.setProfile u))) (cstr (write (Json.null.setProfile u'))) := by
  obtain ⟨uid, hu, hu'⟩ := h.exists_uid
  rcases h.same with rfl | huid
  · exact Or.inl rfl
  · exact Or.inr ⟨u, u', hw uid u hu, hw' uid u' hu', h.agrees, huid⟩

/-! ## Redis -/

/-- What the two Redis answer for a key. -/
def Found (key : Bytes) (a a' : Option Bytes) : Prop :=
  a' = a ∨ (ProfileKey key ∧ ∃ x x', a = some x ∧ a' = some x' ∧ V.TwinText x x')

/-- The same but for cached profiles of the user. -/
structure RedisTwins (r r' : Redis) : Prop where
  hash : r'.hash = r.hash
  str : ∀ key, V.Found key ((r.str key).map cstr) ((r'.str key).map cstr)

section Redis

variable {V} {r r' : Redis}

theorem RedisTwins.get (h : V.RedisTwins r r') (key : Bytes) :
    V.Found key (r.get key) (r'.get key) :=
  (h.str (cstr key)).imp_right fun hfound => ⟨hfound.1.of_cstr, hfound.2⟩

theorem RedisTwins.set (h : V.RedisTwins r r') {key value value' : Bytes}
    (hvalue : V.Found key (some (cstr value)) (some (cstr value'))) :
    V.RedisTwins (r.set key value) (r'.set key value') := by
  refine ⟨h.hash, ?_⟩
  intro k
  by_cases hk : k = cstr key
  · subst hk
    simp only [Redis.set, update_self, Option.map_some, cstr_cstr]
    exact hvalue.imp_right fun hfound => ⟨hfound.1.cstr, hfound.2⟩
  · simp only [Redis.set, update_of_ne hk]
    exact h.str k

theorem RedisTwins.hSet (h : V.RedisTwins r r') (key hkey value : Bytes) :
    V.RedisTwins (r.hSet key hkey value) (r'.hSet key hkey value) := by
  refine ⟨?_, h.str⟩
  unfold Redis.hSet
  rw [h.hash]

end Redis

end Variation

/-! ## Sessions -/

/-- Equal but for what is queued and written. -/
def Sess.Agrees (x x' : Sess) : Prop := x' = { x with sendQue := x'.sendQue, writes := x'.writes }

/-- What the handlers look at. -/
theorem Sess.Agrees.fields {x x' : Sess} (h : x.Agrees x') : x'.bClose = x.bClose ∧
    x'.userUid = x.userUid ∧ x'.data = x.data ∧ x'.recvMsgNode = x.recvMsgNode ∧ x'.reads = x.reads := by
  unfold Sess.Agrees at h
  rw [h]
  exact ⟨rfl, rfl, rfl, rfl, rfl⟩

/-- The memory of a server in the two worlds; the sessions in `T` may have been sent other messages. -/
structure ProcTwins (T : SessId → Prop) (p p' : Proc) : Prop where
  known : p'.known = p.known
  sessions : p'.sessions = p.sessions
  uidToSession : p'.uidToSession = p.uidToSession
  msgQue : p'.msgQue = p.msgQue
  agrees : ∀ s, (p.sess s).Agrees (p'.sess s)
  same : ∀ s, ¬ T s → p'.sess s = p.sess s

section Procs

variable {T : SessId → Prop} {p p' : Proc}

/-- Changing a session in the two worlds. -/
theorem ProcTwins.modify (h : ProcTwins T p p') {s : SessId} {f g : Sess → Sess}
    (hagrees : ∀ x x', x.Agrees x' → (f x).Agrees (g x')) (hsame : ¬ T s → f = g) :
    ProcTwins T (p.modify s f) (p'.modify s g) := by
  refine ⟨h.known, h.sessions, h.uidToSession, h.msgQue, ?_, ?_⟩
  · intro t
    by_cases ht : t = s
    · subst ht
      simpa [Proc.modify] using hagrees _ _ (h.agrees t)
    · simpa [Proc.modify, update_of_ne ht] using h.agrees t
  · intro t hT
    by_cases ht : t = s
    · subst ht
      simp [Proc.modify, hsame hT, h.same t hT]
    · simpa [Proc.modify, update_of_ne ht] using h.same t hT

/-- Changing what else a session has. -/
theorem ProcTwins.modify_same (h : ProcTwins T p p') (s : SessId) (f : Sess → Sess)
    (hf : ∀ (x : Sess) que writes, f { x with sendQue := que, writes := writes } =
      { f x with sendQue := que, writes := writes }) :
    ProcTwins T (p.modify s f) (p'.modify s f) := by
  refine h.modify ?_ fun _ => rfl
  intro x x' hx
  unfold Sess.Agrees at hx ⊢
  rw [hx, hf]

/-- The two are sent messages, the same or not. -/
theorem Sess.Agrees.send {x x' : Sess} (h : x.Agrees x') (msg msg' : Bytes) (msgid : Int) :
    (x.send msg msgid).Agrees (x'.send msg' msgid) := by
  obtain ⟨que, writes, hx⟩ := x.send_eq msg msgid
  obtain ⟨que', writes', hx'⟩ := x'.send_eq msg' msgid
  unfold Sess.Agrees at h ⊢
  rw [hx, hx', h]

theorem ProcTwins.send (h : ProcTwins T p p') {s : SessId} {msg msg' : Bytes} (msgid : Int)
    (hs : ¬ T s → msg' = msg) :
    ProcTwins T (p.modify s fun x => x.send msg msgid) (p'.modify s fun x => x.send msg' msgid) := by
  refine h.modify (fun x x' hx => hx.send msg msg' msgid) ?_
  intro hT
  rw [hs hT]

/-- **A call on the memory of a server does the same in the two worlds.** -/
theorem ProcTwins.apply {w w' : World} (h : ProcTwins T w.proc w'.proc) (c : Call) :
    ProcTwins T (w.apply c).proc (w'.apply c).proc := by
  cases c with
  | setUserSession uid s =>
    refine ⟨h.known, h.sessions, ?_, h.msgQue, h.agrees, h.same⟩
    simp [World.apply, h.uidToSession]
  | removeUserSession uid =>
    refine ⟨h.known, h.sessions, ?_, h.msgQue, h.agrees, h.same⟩
    simp [World.apply, h.uidToSession]
  | postMsgToQue msg =>
    refine ⟨h.known, h.sessions, h.uidToSession, ?_, h.agrees, h.same⟩
    simp [World.apply, h.msgQue]
  | addSession s =>
    refine ⟨h.known, ?_, h.uidToSession, h.msgQue, h.agrees, h.same⟩
    simp [World.apply, h.sessions]
  | clearSession s =>
    refine ⟨h.known, ?_, h.uidToSession, h.msgQue, h.agrees, h.same⟩
    simp [World.apply, h.sessions]
  | send s msg msgid => exact h.send msgid fun _ => rfl
  | setBClose s => exact h.modify_same s (fun x => { x with bClose := true }) fun _ _ _ => rfl
  | setUserId s uid => exact h.modify_same s (fun x => { x with userUid := uid }) fun _ _ _ => rfl
  | socketClose s => exact h.modify_same s (fun x => { x with socketOpen := false }) fun _ _ _ => rfl
  | clearData s =>
    exact h.modify_same s (fun x => { x with data := List.replicate maxLength 0 }) fun _ _ _ => rfl
  | setRecvNode s node =>
    exact h.modify_same s (fun x => { x with recvMsgNode := some node }) fun _ _ _ => rfl
  | asyncReadSome s read =>
    exact h.modify_same s (fun x => { x with reads := x.reads ++ [read] }) fun _ _ _ => rfl
  | _ => exact h

end Procs

/-! ## The database -/

namespace Variation

variable {J : JsonCpp} (V : Variation J)

/-- The two tables `user`, and the same rows in the other tables. -/
structure DatabaseTwins (db db' : Database) : Prop where
  users : db.users = V.users
  users' : db'.users = V.users'
  tables : db'.tables = db.tables
  applications : db'.applications = db.applications
  friends : db'.friends = db.friends
  nextId : db'.nextId = db.nextId

/-- What is answered in the two worlds. After a session was entered into `UserMgr` for the user, it is one
of `T`. -/
def Answers (T : ServerName → SessId → Prop) : (o : ServerName × Call) → o.2.Resp → o.2.Resp → Prop
  | (_, .get key), a, a' => V.Found key a a'
  | (_, .getUserInfo uid), a, a' => Option.Rel (fun u u' => u.uid = uid ∧ V.Twins u u') a a'
  | (_, .getUserInfoByName _), a, a' => Option.Rel V.Twins a a'
  | (_, .getFriendList _), a, a' => a'.1 = a.1 ∧ List.Forall₂ UserInfo.Agrees a.2 a'.2
  | (S, .setUserSession uid s), _, _ => uid = V.user → T S s
  | _, a, a' => a' = a

section Database

variable {V} {db db' : Database}

theorem DatabaseTwins.apply (h : V.DatabaseTwins db db') (o : Sql) :
    V.DatabaseTwins (db.apply (.table o)) (db'.apply (.table o)) := by
  refine ⟨(Database.apply_users db _).trans h.users, (Database.apply_users db' _).trans h.users', ?_, ?_,
    ?_, ?_⟩
  · rw [Database.apply_tables, Database.apply_tables, h.tables]
  all_goals
    rcases o with _ | _ | _ | _ | _ | _ <;>
      simp [Database.apply, h.tables, h.applications, h.friends, h.nextId]

/-- Statements on the other tables do the same. -/
theorem DatabaseTwins.run (h : V.DatabaseTwins db db') {α : Type} (p : Dao α) :
    (p.run Database.execute db').1 = (p.run Database.execute db).1 ∧
      V.DatabaseTwins (p.run Database.execute db).2 (p.run Database.execute db').2 := by
  induction p generalizing db db' with
  | ret a => exact ⟨rfl, h⟩
  | call o k ih =>
    have hanswer : (Database.execute o db').1 = (Database.execute o db).1 := by
      unfold Database.execute
      rw [h.tables]
    rw [Prog.run_call, Prog.run_call, hanswer]
    exact ih _ (h.apply o)

/-- The applications to a user are listed without passwords. -/
theorem DatabaseTwins.applyRows (h : V.DatabaseTwins db db') (to_uid start limit : Int) :
    db'.applyRows to_uid start limit = db.applyRows to_uid start limit := by
  unfold Database.applyRows
  rw [h.applications, h.tables, h.users, h.users']
  dsimp only
  congr 1
  refine List.filterMap_congr ?_
  intro a _
  rcases db.tables.friendApply a.key with _ | row
  · rfl
  · have hfind := V.find_uid a.fromUid
    generalize (V.users.rows.find? fun user => user.uid = a.fromUid) = found at hfind ⊢
    generalize (V.users'.rows.find? fun user => user.uid = a.fromUid) = found' at hfind ⊢
    rcases hfind with hagrees | _
    · obtain ⟨-, hname, hnick, hsex⟩ := hagrees.columns
      simp [hname, hnick, hsex]
    · rfl

theorem DatabaseTwins.friendRows (h : V.DatabaseTwins db db') (self_id : Int) :
    db'.friendRows self_id = db.friendRows self_id := by
  unfold Database.friendRows
  rw [h.friends, h.tables]

/-- The friends of a user, with the alias of each. -/
theorem friends_agree (rows : List (Int × Bytes)) : List.Forall₂ UserInfo.Agrees
    (rows.filterMap fun row => (V.users.getUserInfo row.1).map fun base =>
      { base with aliasName := row.2 })
    (rows.filterMap fun row => (V.users'.getUserInfo row.1).map fun base =>
      { base with aliasName := row.2 }) := by
  induction rows with
  | nil => exact .nil
  | cons row rows ih =>
    rw [List.filterMap_cons, List.filterMap_cons]
    have htwins := V.getUserInfo_twins row.1
    generalize V.users.getUserInfo row.1 = found at htwins ⊢
    generalize V.users'.getUserInfo row.1 = found' at htwins ⊢
    rcases htwins with ⟨-, htwins⟩ | _
    · refine .cons ?_ ih
      have hagrees := htwins.agrees
      unfold UserInfo.Agrees at hagrees ⊢
      rw [hagrees]
    · exact ih

/-- **A call on the database in the two worlds.** -/
theorem DatabaseTwins.call (h : V.DatabaseTwins db db') (T : ServerName → SessId → Prop) (S : ServerName)
    {c : Call} {x : c.Resp × Database} (hx : db.call c = some x) :
    ∃ x', db'.call c = some x' ∧ V.Answers T (S, c) x.1 x'.1 ∧ V.DatabaseTwins x.2 x'.2 := by
  cases c with
  | getUserInfo uid =>
    rw [Database.call_getUserInfo] at hx
    cases hx
    refine ⟨_, Database.call_getUserInfo db' uid, ?_, h⟩
    rw [h.users, h.users']
    exact V.getUserInfo_twins uid
  | getUserInfoByName name =>
    rw [Database.call_getUserInfoByName] at hx
    cases hx
    refine ⟨_, Database.call_getUserInfoByName db' name, ?_, h⟩
    rw [h.users, h.users']
    exact V.getUserInfoByName_twins name
  | getApplyList to_uid start limit =>
    rw [Database.call_getApplyList] at hx
    cases hx
    refine ⟨_, Database.call_getApplyList db' to_uid start limit, ?_, h⟩
    rw [h.applyRows]
    rfl
  | getFriendList uid =>
    rw [Database.call_getFriendList] at hx
    cases hx
    refine ⟨_, Database.call_getFriendList db' uid, ⟨rfl, ?_⟩, h⟩
    rw [h.friendRows, h.users, h.users']
    exact friends_agree _
  | addFriendApply _ _ _ | getFriendAlias _ _ | getFriendApplyAlias _ _ | authFriendApply _ _
  | addFriend _ _ _ _ =>
    rw [Database.call_of_run db rfl] at hx
    cases hx
    obtain ⟨hanswer, htwins⟩ := h.run _
    exact ⟨_, Database.call_of_run db' rfl, hanswer, htwins⟩
  | _ => cases hx

end Database

/-! ## Calls -/

/-- What the servers act on, in the two worlds. -/
structure FleetTwins (T : ServerName → SessId → Prop) (f f' : Fleet) : Prop where
  redis : V.RedisTwins f.redis f'.redis
  database : V.DatabaseTwins f.database f'.database
  proc : ∀ S, ProcTwins (T S) (f.proc S) (f'.proc S)

section Calls

variable {V} {T : ServerName → SessId → Prop} {f f' : Fleet}

/-- The answers of a failing call are the same. -/
theorem answers_noAnswer (o : ServerName × Call)
    (hbind : ∀ uid s, o.2 = .setUserSession uid s → uid = V.user → T o.1 s) :
    V.Answers T o (World.noAnswer o.2) (World.noAnswer o.2) := by
  obtain ⟨S, c⟩ := o
  cases c with
  | get key => exact Or.inl rfl
  | getUserInfo uid => exact .none
  | getUserInfoByName name => exact .none
  | getFriendList uid => exact ⟨rfl, .nil⟩
  | setUserSession uid s => exact hbind uid s rfl
  | _ => rfl

/-- What Redis and the memory of a server answer. -/
theorem answers_interpret {S : ServerName} {w w' : World} (hr : V.RedisTwins w.redis w'.redis)
    (hp : ProcTwins (T S) w.proc w'.proc) (c : Call)
    (hbind : ∀ uid s, c = .setUserSession uid s → uid = V.user → T S s) :
    V.Answers T (S, c) (World.interpret World.noAnswer c w).1
      (World.interpret World.noAnswer c w').1 := by
  cases c with
  | get key => exact hr.get key
  | hGet key hkey =>
    show w'.redis.hGet key hkey = w.redis.hGet key hkey
    unfold Redis.hGet
    rw [hr.hash]
  | getSession uid => exact congrFun hp.uidToSession uid
  | bClose s => exact (hp.agrees s).fields.1
  | getUserId s => exact (hp.agrees s).fields.2.1
  | data s => exact (hp.agrees s).fields.2.2.1
  | recvNode s => exact (hp.agrees s).fields.2.2.2.1
  | set _ _ | hSet _ _ _ => rfl
  | _ => exact answers_noAnswer (S, _) hbind

theorem redisTwins_apply {w w' : World} (h : V.RedisTwins w.redis w'.redis) (c : Call) :
    V.RedisTwins (w.apply c).redis (w'.apply c).redis := by
  cases c with
  | set key value => exact h.set (Or.inl rfl)
  | hSet key hkey value => exact h.hSet key hkey value
  | _ => exact h

theorem FleetTwins.update (h : V.FleetTwins T f f') (S : ServerName) {redis redis' : Redis}
    {proc proc' : Proc} (sent sent' : List Outbound) (hr : V.RedisTwins redis redis')
    (hp : ProcTwins (T S) proc proc') :
    V.FleetTwins T { f with redis := redis, proc := update f.proc S proc, sent := sent }
      { f' with redis := redis', proc := update f'.proc S proc', sent := sent' } := by
  refine ⟨hr, h.database, ?_⟩
  intro S'
  by_cases hS : S' = S
  · subst hS
    simpa using hp
  · simpa [update_of_ne hS] using h.proc S'

/-- **The same call in the two worlds.** -/
theorem FleetTwins.call (h : V.FleetTwins T f f') (o : ServerName × Call)
    (hbind : ∀ uid s, o.2 = .setUserSession uid s → uid = V.user → T o.1 s) :
    V.Answers T o (Fleet.call o f).1 (Fleet.call o f').1 ∧
      V.FleetTwins T (Fleet.call o f).2 (Fleet.call o f').2 := by
  obtain ⟨S, c⟩ := o
  rcases hdb : f.database.call c with _ | x
  · have hdb' : f'.database.call c = none := by
      unfold Database.call at hdb ⊢
      rw [Option.map_eq_none_iff] at hdb ⊢
      exact hdb
    have hcall : ∀ g : Fleet, g.database.call c = none → Fleet.call (S, c) g =
        ((World.interpret World.noAnswer c ⟨g.redis, g.proc S⟩).1, { g with
          redis := (World.apply ⟨g.redis, g.proc S⟩ c).redis
          proc := Function.update g.proc S (World.apply ⟨g.redis, g.proc S⟩ c).proc
          sent := g.sent ++ c.outbound S }) := by
      intro g hg
      unfold Fleet.call
      rw [hg]
      rfl
    rw [hcall f hdb, hcall f' hdb']
    exact ⟨answers_interpret h.redis (h.proc S) c hbind,
      h.update S _ _ (redisTwins_apply h.redis c) ((h.proc S).apply c)⟩
  · obtain ⟨x', hdb', hanswers, htwins⟩ := h.database.call T S hdb
    rw [Fleet.call_database S f hdb, Fleet.call_database S f' hdb']
    exact ⟨hanswers, h.redis, htwins, h.proc⟩

/-- Storing texts of a profile. -/
theorem FleetTwins.set (h : V.FleetTwins T f f') (S : ServerName) {key value value' : Bytes}
    (hvalue : V.Found key (some (cstr value)) (some (cstr value'))) :
    V.FleetTwins T (Fleet.call (S, .set key value) f).2 (Fleet.call (S, .set key value') f').2 := by
  rw [Fleet.call_set, Fleet.call_set]
  exact ⟨h.redis.set hvalue, h.database, h.proc⟩

/-- Sending messages that may differ if the session is one of `T`. -/
theorem FleetTwins.send (h : V.FleetTwins T f f') {S : ServerName} {s : SessId} {msg msg' : Bytes}
    (msgid : Int) (hs : ¬ T S s → msg' = msg) :
    V.FleetTwins T (Fleet.call (S, .send s msg msgid) f).2 (Fleet.call (S, .send s msg' msgid) f').2 :=
  h.update S _ _ h.redis ((h.proc S).send msgid hs)

end Calls

end Variation

end ChatServer
