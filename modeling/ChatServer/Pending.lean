import ChatServer.Faults
import ChatServer.LoginRace
import ChatServer.Replies

/-!
# Pending applications at login

The `apply_list` of the reply to a login shows the first ten rows of `friend_apply` to the user, those
that were accepted among them. So it shows every pending application exactly if all of them are among
these rows (`pending_listed_iff`).
-/

namespace ChatServer

open Interaction Prog Handler Bytes Decimal Function LogicSystem Word

/-! ## Applications to a user -/

namespace Database

/-- The tables as the schema and the clients leave them: a row of `friend_apply` for each pair of users, and
applicants who exist. -/
structure Sound (db : Database) : Prop where
  keys : (db.applications.map Application.key).Nodup
  applicants : ∀ a ∈ db.applications, (db.users.getUserInfo a.fromUid).isSome

/-- The rows of `friend_apply` to the user, in the order of their ids. -/
def applicationsTo (db : Database) (v : Int) : List Application :=
  db.applications.filter fun a => a.toUid = v ∧ 0 < a.id

/-- The application waits for the answer of the user. -/
structure Pending (db : Database) (v : Int) (a : Application) : Prop where
  mem : a ∈ db.applications
  toUid : a.toUid = v
  status : ∃ row, db.tables.friendApply a.key = some row ∧ row.status = 0

/-- Every application that waits for the user is among the first ten to the user. -/
def PendingFirst (db : Database) (v : Int) : Prop :=
  ∀ a, db.Pending v a → a ∈ (db.applicationsTo v).take 10

/-- What `getApplyList` selects for an application. -/
def applyResult (db : Database) (a : Application) : Option ApplyResult := do
  let row ← db.tables.friendApply a.key
  let user ← db.users.rows.find? fun user => user.uid = a.fromUid
  some
    { fromUid := a.fromUid, status := row.status, aliasName := row.aliasName, name := user.name,
      nick := user.nick, sex := user.sex }

variable {db : Database} {a b : Application} {v : Int} {res : ApplyResult}

/-- The data of an application, in what is selected for it. -/
theorem of_applyResult (h : db.applyResult a = some res) : ∃ row user,
    db.tables.friendApply a.key = some row ∧ db.users.getUserInfo a.fromUid = some user ∧
    res.info = { uid := a.fromUid, name := user.name, desc := [], icon := [], nick := user.nick,
                 sex := user.sex, status := row.status, aliasName := row.aliasName } := by
  unfold applyResult at h
  rcases hrow : db.tables.friendApply a.key with _ | row
  · simp [hrow] at h
  · rcases huser : db.users.rows.find? fun user => user.uid = a.fromUid with _ | user
    · simp [hrow, huser] at h
    · simp only [hrow, huser, Option.bind_eq_bind, Option.bind_some, Option.some.injEq] at h
      subst h
      exact ⟨row, user.info, rfl, by rw [UserTable.getUserInfo, huser, Option.map_some], rfl⟩

theorem Sound.applyResult_isSome (h : db.Sound) (ha : a ∈ db.applications) :
    (db.applyResult a).isSome := by
  have hrow : (db.tables.friendApply a.key).isSome :=
    (db.applied a.key).mpr (List.mem_map_of_mem ha)
  have huser := h.applicants a ha
  obtain ⟨row, hrow⟩ := Option.isSome_iff_exists.mp hrow
  unfold UserTable.getUserInfo at huser
  rw [Option.isSome_map] at huser
  obtain ⟨user, huser⟩ := Option.isSome_iff_exists.mp huser
  simp [applyResult, hrow, huser]

/-- An application to the user is determined by the applicant. -/
theorem Sound.eq_of_fromUid (h : db.Sound) (ha : a ∈ db.applications) (hb : b ∈ db.applications)
    (hto : a.toUid = b.toUid) (hfrom : a.fromUid = b.fromUid) : a = b := by
  refine List.inj_on_of_nodup_map h.keys ha hb ?_
  unfold Application.key
  rw [hto, hfrom]

/-- The first ten applications to the user are from different applicants. -/
theorem Sound.fromUid_nodup (h : db.Sound) (v : Int) :
    (((db.applicationsTo v).take 10).map Application.fromUid).Nodup := by
  have hnodup : db.applications.Nodup := h.keys.of_map _
  refine List.Nodup.map_on ?_ ((hnodup.filter _).take)
  intro a ha b hb hfrom
  obtain ⟨hma, hpa⟩ := List.mem_filter.mp (List.mem_of_mem_take ha)
  obtain ⟨hmb, hpb⟩ := List.mem_filter.mp (List.mem_of_mem_take hb)
  simp only [decide_eq_true_eq] at hpa hpb
  exact h.eq_of_fromUid hma hmb (hpa.1.trans hpb.1.symm) hfrom

/-- Selecting all elements of a list, as many as there is room for. -/
theorem take_filterMap {α β : Type} {f : α → Option β} {xs : List α} (h : ∀ x ∈ xs, (f x).isSome)
    (n : Nat) : (xs.filterMap f).take n = (xs.take n).filterMap f := by
  induction xs generalizing n with
  | nil => simp
  | cons x xs ih =>
    obtain ⟨y, hy⟩ := Option.isSome_iff_exists.mp (h x List.mem_cons_self)
    rcases n with _ | n
    · simp
    · have hrest : ∀ z ∈ xs, (f z).isSome := fun z hz => h z (List.mem_cons_of_mem x hz)
      simp [hy, ih hrest]

/-- What the login selects. -/
theorem Sound.applyRows (h : db.Sound) (v : Int) :
    db.applyRows v 0 10 = ((db.applicationsTo v).take 10).filterMap db.applyResult := by
  refine take_filterMap ?_ 10
  intro a ha
  exact h.applyResult_isSome (List.mem_of_mem_filter ha)

end Database

/-! ## The list of the reply -/

/-- The entry shows the application: the applicant and the alias of the row. -/
structure ShowsApplication (entry : Json) (a : Application) (row : ApplyRow) (user : UserInfo) : Prop where
  uid : entry.lookup (lit "uid") = .int a.fromUid
  name : entry.lookup (lit "name") = .str user.name
  nick : entry.lookup (lit "nick") = .str user.nick
  sex : entry.lookup (lit "sex") = .int user.sex
  aliasName : entry.lookup (lit "alias_name") = .str row.aliasName

/-- The entries of the list of applications in a reply. -/
def applyEntries (reply : Json) : List Json := (reply.lookup (lit "apply_list")).children

/-- The reply has exactly one entry for every application that waits for the user. -/
def ListsPending (db : Database) (v : Int) (reply : Json) : Prop :=
  ∀ a row user, db.Pending v a → db.tables.friendApply a.key = some row →
    db.users.getUserInfo a.fromUid = some user →
    ∃ before entry after, applyEntries reply = before ++ entry :: after ∧
      ShowsApplication entry a row user ∧
      ∀ e ∈ before ++ after, e.lookup (lit "uid") ≠ .int a.fromUid

section Entries

variable {db : Database} {a : Application} {v : Int} {res : ApplyResult} {reply : Json}

theorem applyEntries_loginReply (v : Int) (user_info : UserInfo) (list : List ApplyInfo)
    (friend_list : List UserInfo) :
    applyEntries (loginReply v user_info true list friend_list) = list.map applyJson := by
  unfold applyEntries
  by_cases hlist : list = []
  · subst hlist
    unfold loginReply
    dsimp only
    rw [Json.lookup_foldl_appendTo_of_ne _ _ _ (by decide), if_pos rfl, List.foldl_nil]
    have hnull : ((Json.errorReply .success).setProfile { user_info with uid := v }).lookup
        (lit "apply_list") = .null := by
      unfold Json.setProfile Json.errorReply
      simp only [Json.lookup_set]
      iterate 9 rw [if_neg (by decide)]
      rfl
    rw [hnull]
    rfl
  · rw [loginReply_lookup v user_info hlist friend_list]
    rfl

theorem showsApplication {row : ApplyRow} {user : UserInfo} (h : db.applyResult a = some res)
    (hrow : db.tables.friendApply a.key = some row) (huser : db.users.getUserInfo a.fromUid = some user) :
    ShowsApplication (applyJson res.info) a row user := by
  obtain ⟨row', user', hrow', huser', hinfo⟩ := Database.of_applyResult h
  obtain rfl : row = row' := Option.some.inj (hrow.symm.trans hrow')
  obtain rfl : user = user' := Option.some.inj (huser.symm.trans huser')
  rw [hinfo]
  exact ⟨rfl, rfl, rfl, rfl, rfl⟩

/-- The entry for an application. -/
def Database.applyEntry (db : Database) (a : Application) : Option Json :=
  (db.applyResult a).map fun res => applyJson res.info

theorem applyEntry_uid {entry : Json} (h : db.applyEntry a = some entry) :
    entry.lookup (lit "uid") = .int a.fromUid := by
  obtain ⟨res, hres, rfl⟩ := Option.map_eq_some_iff.mp h
  obtain ⟨row, user, -, -, hinfo⟩ := Database.of_applyResult hres
  rw [applyJson_uid, hinfo]

/-- When a list of the first ten applications has all that wait for the user. -/
theorem listsPending_iff (hs : db.Sound)
    (hentries : applyEntries reply = ((db.applyRows v 0 10).map ApplyResult.info).map applyJson) :
    ListsPending db v reply ↔ db.PendingFirst v := by
  have hfirst : applyEntries reply = ((db.applicationsTo v).take 10).filterMap db.applyEntry := by
    rw [hentries, hs.applyRows, List.map_map, List.map_filterMap]
    rfl
  unfold ListsPending Database.PendingFirst
  rw [hfirst]
  constructor
  · intro h a ha
    obtain ⟨row, hrow, -⟩ := ha.status
    obtain ⟨user, huser⟩ := Option.isSome_iff_exists.mp (hs.applicants a ha.mem)
    obtain ⟨before, entry, after, hsplit, hshows, -⟩ := h a row user ha hrow huser
    have hentry : entry ∈ ((db.applicationsTo v).take 10).filterMap db.applyEntry := by simp [hsplit]
    obtain ⟨b, hb, hbentry⟩ := List.mem_filterMap.mp hentry
    have huid : a.fromUid = b.fromUid := Json.int.inj (hshows.uid.symm.trans (applyEntry_uid hbentry))
    obtain ⟨hbmem, hbto⟩ := List.mem_filter.mp (List.mem_of_mem_take hb)
    simp only [decide_eq_true_eq] at hbto
    rw [hs.eq_of_fromUid ha.mem hbmem (ha.toUid.trans hbto.1.symm) huid]
    exact hb
  · intro h a row user ha hrow huser
    obtain ⟨before, after, hsplit⟩ := List.append_of_mem (h a ha)
    obtain ⟨res, hres⟩ := Option.isSome_iff_exists.mp (hs.applyResult_isSome ha.mem)
    have hentry : db.applyEntry a = some (applyJson res.info) := by simp [Database.applyEntry, hres]
    have hnodup := hs.fromUid_nodup v
    rw [hsplit] at hnodup ⊢
    refine ⟨before.filterMap db.applyEntry, applyJson res.info, after.filterMap db.applyEntry, ?_,
      showsApplication hres hrow huser, ?_⟩
    · simp [hentry]
    · -- the other entries are those of other applicants
      intro e he hsame
      rw [← List.filterMap_append] at he
      obtain ⟨b, hb, hbentry⟩ := List.mem_filterMap.mp he
      have huid : b.fromUid = a.fromUid := Json.int.inj ((applyEntry_uid hbentry).symm.trans hsame)
      rw [List.map_append, List.map_cons, List.nodup_middle, List.nodup_cons, ← List.map_append] at hnodup
      exact hnodup.1 (huid ▸ List.mem_map_of_mem hb)

end Entries

/-! ## The login -/

/-- The worker handles a login frame of the user `v`, and the reply tells of a success. No call on the
database fails; nothing is assumed about the answers of Redis and the sessions. -/
structure LoginAnswered (J : JsonCpp) (S : ServerName) (node : LogicNode) (db : Database) (v : Int)
    (reply : Json) : Prop where
  frame : node.recvNode.msgId = MsgIds.chatLogin.id
  uid : (J.parse node.recvNode.text).2.getInt "uid" = .ok v
  answered : ∃ token tr db', (J.parse node.recvNode.text).2.getString J "token" = .ok token ∧
    Exec (Answered fun c db => Database.call c db) (login J S node.session v token).run db tr
      (.ok reply) db'
  success : reply.lookup (lit "error") = .int ErrorCodes.success.code

section Login

variable {J : JsonCpp} {S : ServerName} {node : LogicNode} {db : Database} {v : Int} {reply : Json}

/-- The reply is what the worker sends. -/
theorem LoginAnswered.sent (h : LoginAnswered J S node db v reply) : ∃ tr db',
    Exec (Answered fun c db => Database.call c db) (dispatch J S node).run db
      (tr ++ [⟨.send node.session (J.toStyledString reply) MsgIds.chatLoginRsp.id, ()⟩]) (.ok ())
      db' := by
  obtain ⟨token, tr, db', htoken, hlogin⟩ := h.answered
  refine ⟨tr, db', ?_⟩
  rw [dispatch_login J S h.frame]
  unfold loginHandler
  dsimp only
  rw [h.uid, htoken]
  show Exec _ (login J S node.session v token >>= fun _ => _ : Handler Unit).run _ _ _ _
  rw [ExceptT.run_bind]
  exact exec_bind.mpr ⟨_, _, _, _, rfl, hlogin, .call rfl (.ret _ _)⟩

/-- A call that is not one on the database. -/
theorem wp_ask_other {β : Type} {post : Except Exn β → Database → Prop} {c : Call}
    {f : c.Resp → Handler β} (h : MySqlDao.connected c = none)
    (hf : ∀ r, (f r).run.Wp (fun c db => Database.call c db) post db) :
    (ask c >>= f).run.Wp (fun c db => Database.call c db) post db := by
  refine wp_other ?_ hf
  unfold Database.call
  rw [h]
  rfl

/-- Counting and binding writes no table. -/
theorem bindUser_keeps (S : ServerName) (session : SessId) (uid : Int) :
    (bindUser S session uid).run.Uses fun c : Call => c.writesTables = false := by
  refine uses_ask rfl ?_
  intro rd_res
  refine uses_lift ?_
  intro count
  refine uses_ask rfl fun _ => uses_ask rfl fun _ => uses_ask rfl fun _ => uses_ask_last rfl

/-- If the reply is one to a successful login, it is made of the applications and the friends that the
database has. -/
def repliesRows (db : Database) (v : Int) (r : Except Exn Json) (_ : Database) : Prop :=
  ∀ reply, r = .ok reply → reply.lookup (lit "error") = .int ErrorCodes.success.code →
    ∃ user_info friend_list, reply = loginReply v user_info true
      ((db.applyRows v 0 10).map ApplyResult.info) friend_list

theorem repliesRows_error {code : ErrorCodes} (h : code ≠ .success) (db db' : Database) (v : Int) :
    repliesRows db v (.ok (Json.errorReply code)) db' := by
  rintro reply ⟨⟩ hsuccess
  have hcode : code.code = ErrorCodes.success.code := Json.int.inj hsuccess
  cases code with
  | success => exact absurd rfl h
  | _ => exact absurd hcode (by decide)

theorem login_wp (db : Database) (session : SessId) (token : Bytes) :
    (login J S session v token).run.Wp (fun c db => Database.call c db) (repliesRows db v) db := by
  refine wp_ask_other rfl ?_
  intro token_value
  rcases token_value with _ | token_value
  · exact repliesRows_error (by decide) db db v
  · dsimp only
    split
    · exact repliesRows_error (by decide) db db v
    · refine wp_bind (getBaseInfo_wp db (baseKey v) v) ?_ ?_
      · rintro user_info db' ⟨-, rfl⟩
        rcases user_info with _ | user_info
        · exact repliesRows_error (by decide) db' db' v
        · refine wp_answered (Database.call_getApplyList db' v 0 10) ?_
          refine wp_answered (Database.call_getFriendList db' v) ?_
          refine wp_bind (wp_keeps (bindUser_keeps S session v) db') ?_ ?_
          · rintro _ _ - reply ⟨⟩ -
            exact ⟨_, _, rfl⟩
          · rintro e _ - reply ⟨⟩
      · rintro e _ - reply ⟨⟩

/-- The reply has the entries of the applications that were selected. -/
theorem LoginAnswered.entries (h : LoginAnswered J S node db v reply) :
    applyEntries reply = ((db.applyRows v 0 10).map ApplyResult.info).map applyJson := by
  obtain ⟨token, tr, db', -, hlogin⟩ := h.answered
  obtain ⟨user_info, friend_list, rfl⟩ := hlogin.wp (login_wp db node.session token) reply rfl h.success
  exact applyEntries_loginReply v user_info _ friend_list

/-- **When the pending applications reach their addressee at login**: exactly if they are among the first
ten rows of `friend_apply` to the user. -/
theorem pending_listed_iff (hs : db.Sound) (h : LoginAnswered J S node db v reply) :
    ListsPending db v reply ↔ db.PendingFirst v :=
  listsPending_iff hs h.entries

/-! ### Logging in -/

/-- Redis has the token of every user, and nobody has logged in. -/
def knowsToken (c : Call) : c.Resp :=
  match c with
  | .get _ => some (lit "t")
  | c => World.noAnswer c

/-- The database answers its calls, and the others are answered so. -/
def answersLogin : (c : Call) → Database → c.Resp × Database :=
  respond (S := calls) (fun c db => Database.call c db) knowsToken

theorem answersLogin_get (key : Bytes) : answersLogin (.get key) db = (some (lit "t"), db) := rfl

theorem answersLogin_database {c : Call} {x : c.Resp × Database} (h : db.call c = some x) :
    answersLogin c db = x := by
  unfold answersLogin respond
  dsimp only
  rw [h]
  rfl

theorem run_cacheProfile_answersLogin (base_key name cache_json : Bytes) :
    (cacheProfile base_key name cache_json).run.run answersLogin db = (.ok (), db) := by
  unfold cacheProfile
  rw [run_ask]
  split <;> rfl

theorem run_getBaseInfo_answersLogin {user : UserInfo} (huser : db.users.getUserInfo v = some user) :
    ∃ user_info, (getBaseInfo J (baseKey v) v).run.run answersLogin db = (.ok (some user_info), db) := by
  unfold getBaseInfo
  rw [run_ask, answersLogin_database (Database.call_getUserInfo db v), huser]
  dsimp only
  rw [run_bind_ok _ (run_cacheProfile_answersLogin _ _ _)]
  exact ⟨_, rfl⟩

theorem run_bindUser_answersLogin (session : SessId) :
    (bindUser S session v).run.run answersLogin db = (.ok (), db) := by
  unfold bindUser
  rw [run_ask]
  have hcount : readCount (answersLogin (.hGet RedisPrefix.loginCount S.val) db).1 = .ok 0 := rfl
  rw [run_lift_ok answersLogin hcount]
  rfl

/-- A user who is in the database can log in. -/
theorem exists_loginAnswered (db : Database) (h : (db.users.getUserInfo 7).isSome) :
    ∃ reply, LoginAnswered loginTexts s1 loginNode db 7 reply := by
  obtain ⟨user, huser⟩ := Option.isSome_iff_exists.mp h
  obtain ⟨user_info, hbase⟩ := run_getBaseInfo_answersLogin (J := loginTexts) huser
  have hlogin : ∃ list friends, (login loginTexts s1 0 7 (lit "t")).run.run answersLogin db =
      (.ok (loginReply 7 user_info true list friends), db) := by
    unfold login
    rw [run_ask, answersLogin_get]
    dsimp only
    rw [if_neg (not_not.mpr rfl), run_bind_ok _ hbase]
    dsimp only
    unfold getFriendApplyInfo LogicSystem.getFriendList
    rw [run_ask, answersLogin_database (Database.call_getApplyList db 7 0 10), run_ask,
      answersLogin_database (Database.call_getFriendList db 7),
      run_bind_ok _ (run_bindUser_answersLogin 0)]
    exact ⟨_, _, rfl⟩
  obtain ⟨list, friends, hlogin⟩ := hlogin
  obtain ⟨tr, hexec⟩ : ∃ tr, Exec (Answered fun c db => Database.call c db)
      (login loginTexts s1 0 7 (lit "t")).run db tr
      ((login loginTexts s1 0 7 (lit "t")).run.run answersLogin db).1
      ((login loginTexts s1 0 7 (lit "t")).run.run answersLogin db).2 :=
    exec_run (S := calls) (answered_respond knowsToken) _ db
  rw [hlogin] at hexec
  exact ⟨_, rfl, rfl, ⟨lit "t", tr, _, rfl, hexec⟩, loginReply_error ..⟩

/-! ### Eleven applications -/

/-- The users 7 to 18. -/
def crowd : UserTable where
  rows := (List.range 12).map fun n : Nat => { annRow with uid := 7 + (n : Int), name := renderInt n }
  uids := by decide
  names := by decide +kernel
  valid := by
    intro row hrow
    obtain ⟨n, hn, rfl⟩ := List.mem_map.mp hrow
    have hlt := List.mem_range.mp hn
    refine ⟨?_, show IsInt 0 by decide, renderInt_ne_nil n, zero_notMem_renderInt n⟩
    show IsInt (7 + (n : Int))
    unfold IsInt
    omega

/-- The tables after these statements. -/
def crowdDatabase (os : List Sql) : Database :=
  Database.applyAll
    { users := crowd, tables := Db.empty, applications := [], friends := [],
      applied := Db.applied_empty, befriended := Db.befriended_empty } os

/-- Eleven users apply to the user 7, who accepts ten of them. -/
def elevenApplications : List Sql :=
  ((List.range 11).map fun n : Nat => Sql.insertApply (8 + (n : Int)) 7 (lit "a")) ++
    (List.range 10).map fun n : Nat => Sql.updateApply (8 + (n : Int)) 7

/-- The user 18 is the one who still waits, and is not in the list. -/
theorem pending_unlisted : ¬ ∀ (J : JsonCpp) (S : ServerName) (node : LogicNode) (db : Database) (v : Int)
    (reply : Json), db.Sound → LoginAnswered J S node db v reply → ListsPending db v reply := by
  intro h
  have hsound : (crowdDatabase elevenApplications).Sound := ⟨by decide +kernel, by decide +kernel⟩
  obtain ⟨reply, hreply⟩ := exists_loginAnswered (crowdDatabase elevenApplications) (by decide +kernel)
  have hfirst := (listsPending_iff hsound hreply.entries).mp (h _ _ _ _ _ _ hsound hreply)
  have hwaits : (crowdDatabase elevenApplications).Pending 7 { id := 11, fromUid := 18, toUid := 7 } :=
    ⟨by decide +kernel, rfl, _, rfl, by decide +kernel⟩
  have hlast : ({ id := 11, fromUid := 18, toUid := 7 } : Application) ∉
      ((crowdDatabase elevenApplications).applicationsTo 7).take 10 := by decide +kernel
  exact hlast (hfirst _ hwaits)

/-- The user 8 has applied to the user 7. -/
def oneApplication : Database := crowdDatabase [.insertApply 8 7 (lit "a")]

theorem pending_listed_one : ∃ reply, LoginAnswered loginTexts s1 loginNode oneApplication 7 reply ∧
    oneApplication.Pending 7 { id := 1, fromUid := 8, toUid := 7 } ∧ ListsPending oneApplication 7 reply := by
  have hsound : oneApplication.Sound := ⟨by decide +kernel, by decide +kernel⟩
  obtain ⟨reply, hreply⟩ := exists_loginAnswered oneApplication (by decide +kernel)
  refine ⟨reply, hreply, ⟨by decide +kernel, rfl, _, rfl, by decide +kernel⟩, ?_⟩
  refine (pending_listed_iff hsound hreply).mpr ?_
  intro a ha
  have hone : oneApplication.applications = [{ id := 1, fromUid := 8, toUid := 7 }] := by decide +kernel
  have hmem := ha.mem
  rw [hone] at hmem
  obtain rfl := List.mem_singleton.mp hmem
  decide +kernel

end Login

end ChatServer
