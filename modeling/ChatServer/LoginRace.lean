import ChatServer.Location

/-!
# A login and friend requests at the same time

A user logs in on one server while other servers handle friend requests to that user. The login first
reads the applications that there are and then publishes where the user is; a friend request first stores
its application and then looks for the user. `never_missed` says in which runs each application reaches
the user, in the reply to the login or by a notification.
-/

namespace ChatServer

open Interaction Transition Prog Handler Bytes Decimal Function Fleet

/-! ## Rows -/

section Rows

variable {k : Int × Int}

/-- Rows of `friend_apply` are there to stay, and come from applications only. -/
theorem friendApply_apply (db : Db) (o : Sql) (k : Int × Int) :
    ((db.apply o).friendApply k).isSome ↔
      (db.friendApply k).isSome ∨ ∃ alias_name, o = .insertApply k.1 k.2 alias_name := by
  rcases o with _ | ⟨from_uid, to_uid, al⟩ | _ | ⟨from_uid, to_uid⟩ | _ | _
  on_goal 2 =>
    by_cases hk : k = (from_uid, to_uid)
    · subst hk
      simp [Db.apply]
    · have hne : ∀ a, Sql.insertApply from_uid to_uid al ≠ .insertApply k.1 k.2 a := by
        intro a he
        cases he
        exact hk rfl
      simp [Db.apply, update_of_ne hk, hne]
  on_goal 3 =>
    by_cases hk : k = (from_uid, to_uid)
    · subst hk
      simp [Db.apply]
    · simp [Db.apply, update_of_ne hk]
  all_goals simp [Db.apply]

theorem friendApply_applyAll (db : Database) (os : List Sql) :
    ((db.applyAll os).tables.friendApply k).isSome ↔
      (db.tables.friendApply k).isSome ∨ ∃ alias_name, .insertApply k.1 k.2 alias_name ∈ os := by
  rw [applyAll_tables]
  generalize db.tables = tables
  induction os generalizing tables with
  | nil => simp
  | cons o os ih =>
    rw [List.foldl_cons, ih, friendApply_apply]
    simp only [List.mem_cons, exists_or, or_assoc]
    constructor
    · rintro (h | ⟨al, rfl⟩ | h)
      · exact Or.inl h
      · exact Or.inr (Or.inl ⟨al, rfl⟩)
      · exact Or.inr (Or.inr h)
    · rintro (h | ⟨al, rfl⟩ | h)
      · exact Or.inl h
      · exact Or.inr (Or.inl ⟨al, rfl⟩)
      · exact Or.inr (Or.inr h)

/-- The ids of `friend_apply` begin at one. -/
structure Database.Numbered (db : Database) : Prop where
  ids : ∀ a ∈ db.applications, 0 < a.id
  next : 0 < db.nextId

/-- A statement stores new applications behind the old ones. -/
theorem applications_apply (db : Database) (o : Sql) : db.applications <+: (db.apply (.table o)).applications ∧
    (db.Numbered → (db.apply (.table o)).Numbered) := by
  rcases o with _ | ⟨from_uid, to_uid, al⟩ | _ | _ | _ | _
  on_goal 2 =>
    have happ : (db.apply (.table (.insertApply from_uid to_uid al))).applications =
      if (db.tables.friendApply (from_uid, to_uid)).isSome then db.applications
      else db.applications ++ [{ id := db.nextId, fromUid := from_uid, toUid := to_uid }] := rfl
    have hnext : (db.apply (.table (.insertApply from_uid to_uid al))).nextId = db.nextId + 1 := rfl
    rw [happ]
    refine ⟨?_, ?_⟩
    · split
      · exact List.prefix_refl _
      · exact List.prefix_append _ _
    · rintro ⟨hids, hpos⟩
      refine ⟨?_, by omega⟩
      rw [happ]
      intro a ha
      split at ha
      · exact hids a ha
      · rcases List.mem_append.mp ha with ha | ha
        · exact hids a ha
        · rw [List.mem_singleton.mp ha]
          exact hpos
  all_goals exact ⟨List.prefix_refl _, fun h => ⟨h.ids, h.next⟩⟩

theorem applications_applyAll (db : Database) (os : List Sql) :
    db.applications <+: (db.applyAll os).applications ∧ (db.Numbered → (db.applyAll os).Numbered) := by
  unfold Database.applyAll
  induction os generalizing db with
  | nil => exact ⟨List.prefix_refl _, fun h => h⟩
  | cons o os ih =>
    obtain ⟨hpre, hnum⟩ := applications_apply db o
    obtain ⟨hpre', hnum'⟩ := ih (db.apply (.table o))
    exact ⟨hpre.trans hpre', fun h => hnum' (hnum h)⟩

/-- Fewer applications to the user than a list can hold. -/
def Database.Few (db : Database) (v : Int) : Prop :=
  (db.applications.filter fun a => a.toUid = v).length < 10

/-- A list of all applications to the user has every applicant that exists. -/
theorem mem_applyRows {db : Database} {uid v : Int} (hnum : db.Numbered) (hfew : db.Few v)
    (hrow : (db.tables.friendApply (uid, v)).isSome) (huser : (db.users.getUserInfo uid).isSome) :
    uid ∈ ((db.applyRows v 0 10).map ApplyResult.info).map ApplyInfo.uid := by
  obtain ⟨a, ha, hkey⟩ := List.mem_map.mp ((db.applied (uid, v)).mp hrow)
  obtain ⟨rfl, rfl⟩ : a.fromUid = uid ∧ a.toUid = v := by simpa [Application.key] using hkey
  obtain ⟨row, hrow⟩ := Option.isSome_iff_exists.mp hrow
  obtain ⟨user, huser⟩ := Option.isSome_iff_exists.mp huser
  obtain ⟨found, hfound, -⟩ := Option.map_eq_some_iff.mp huser
  have hlength : (db.applications.filter fun b => b.toUid = a.toUid ∧ 0 < b.id).length ≤
      (10 : Int).toNat := by
    have hsub : (db.applications.filter fun b => b.toUid = a.toUid ∧ 0 < b.id).length ≤
        (db.applications.filter fun b => b.toUid = a.toUid).length := by
      refine (List.monotone_filter_right _ ?_).length_le
      intro b hb
      simp only [decide_eq_true_eq] at hb ⊢
      exact hb.1
    unfold Database.Few at hfew
    omega
  have hmem : a ∈ db.applications.filter fun b => b.toUid = a.toUid ∧ 0 < b.id := by
    simp [ha, hnum.ids a ha]
  unfold Database.applyRows
  dsimp only
  rw [List.take_of_length_le ((List.length_filterMap_le _ _).trans hlength), List.map_map,
    List.mem_map]
  refine ⟨{ fromUid := a.fromUid, status := row.status, aliasName := row.aliasName, name := found.name,
            nick := found.nick, sex := found.sex }, List.mem_filterMap.mpr ⟨a, hmem, ?_⟩, rfl⟩
  simp [Application.key, hrow, hfound]

/-- The applicant of a call that stores an application. -/
def Call.applicant : Call → Option (Int × Int)
  | .addFriendApply uid touid _ => some (uid, touid)
  | _ => none

/-- A call on the database executes statements. -/
theorem Database.call_applyAll {db : Database} {c : Call} {x : c.Resp × Database} (h : db.call c = some x) :
    ∃ os, x.2 = db.applyAll os ∧
      ∀ uid touid al, .insertApply uid touid al ∈ os → c.applicant = some (uid, touid) := by
  by_cases hw : c.writesTables = false
  · exact ⟨[], Database.call_keeps c db x hw h, fun _ _ _ h => (nomatch h)⟩
  · cases c with
    | addFriendApply uid touid al =>
      rw [Database.call_addFriendApply] at h
      cases h
      refine ⟨[.insertApply uid touid al], rfl, ?_⟩
      intro u w a ha
      cases List.mem_singleton.mp ha
      rfl
    | authFriendApply uid touid =>
      obtain ⟨r, hr⟩ := Database.call_authFriendApply db uid touid
      rw [hr] at h
      cases h
      exact ⟨[.updateApply uid touid], rfl, by simp⟩
    | addFriend applicant accepter alias₁ alias₂ =>
      obtain ⟨r, hr⟩ := Database.call_addFriend db applicant accepter alias₁ alias₂
      rw [hr] at h
      cases h
      exact ⟨[.insertFriend applicant accepter alias₁, .insertFriend accepter applicant alias₂], rfl,
        by simp⟩
    | _ => exact absurd rfl hw

end Rows

/-! ## What every call keeps -/

/-- Nothing that was stored or sent is lost. -/
structure Fleet.Grows (f f' : Fleet) : Prop where
  rows : ∀ k, (f.database.tables.friendApply k).isSome → (f'.database.tables.friendApply k).isSome
  applications : f.database.applications <+: f'.database.applications
  numbered : f.database.Numbered → f'.database.Numbered
  users : f'.database.users = f.database.users
  sent : f.sent <+: f'.sent

theorem Fleet.Grows.refl (f : Fleet) : f.Grows f :=
  ⟨fun _ h => h, List.prefix_refl _, fun h => h, rfl, List.prefix_refl _⟩

theorem Fleet.Grows.trans {f g h : Fleet} (hfg : f.Grows g) (hgh : g.Grows h) : f.Grows h :=
  ⟨fun k hk => hgh.rows k (hfg.rows k hk), hfg.applications.trans hgh.applications,
    fun hn => hgh.numbered (hfg.numbered hn), hgh.users.trans hfg.users, hfg.sent.trans hgh.sent⟩

theorem Fleet.call_grows (o : ServerName × Call) (f : Fleet) : f.Grows (Fleet.call o f).2 := by
  rcases hdb : f.database.call o.2 with _ | x
  · have hcall : (Fleet.call o f).2.database = f.database := by
      unfold Fleet.call
      rw [hdb]
    have hsent : f.sent <+: (Fleet.call o f).2.sent := by
      unfold Fleet.call
      rw [hdb]
      exact List.prefix_append _ _
    refine ⟨?_, ?_, ?_, ?_, hsent⟩ <;> rw [hcall]
    · exact fun _ h => h
    · exact fun h => h
  · obtain ⟨os, hos, -⟩ := Database.call_applyAll hdb
    rw [Fleet.call_database o.1 f hdb, hos]
    refine ⟨fun k hk => ?_, (applications_applyAll _ os).1, (applications_applyAll _ os).2,
      applyAll_users os, List.prefix_refl _⟩
    exact (friendApply_applyAll _ os).mpr (Or.inl hk)

/-- A new row is the application of the call. -/
theorem Fleet.call_row {o : ServerName × Call} {f : Fleet} {uid touid : Int}
    (h : ((Fleet.call o f).2.database.tables.friendApply (uid, touid)).isSome) :
    (f.database.tables.friendApply (uid, touid)).isSome ∨ o.2.applicant = some (uid, touid) := by
  rcases hdb : f.database.call o.2 with _ | x
  · unfold Fleet.call at h
    rw [hdb] at h
    exact Or.inl h
  · obtain ⟨os, hos, happ⟩ := Database.call_applyAll hdb
    rw [Fleet.call_database o.1 f hdb, hos] at h
    rcases (friendApply_applyAll _ os).mp h with h | ⟨al, hal⟩
    · exact Or.inl h
    · exact Or.inr (happ uid touid al hal)

/-! ## The two programs -/

/-- A program of a server in the middle: the calls made, with their answers, and what is left to do. -/
structure FleetTask where
  past : List (Event located)
  rest : Located (Except Exn Unit)

namespace FleetTask

/-- The worker of the server `S` takes a message. -/
def start (J : JsonCpp) (pools : Pools) (S : ServerName) (node : LogicNode) : FleetTask where
  past := []
  rest := place J pools S (LogicSystem.dispatch J S node).run

/-- The program has returned. -/
def done (t : FleetTask) : Bool :=
  match t.rest with
  | .ret (.ok _) => true
  | _ => false

theorem done_iff {t : FleetTask} : t.done = true ↔ t.rest = .ret (.ok ()) := by
  unfold done
  split
  · rename_i h
    simp [h]
  · rename_i h
    simp only [Bool.false_eq_true, false_iff]
    exact fun hrest => h () hrest

/-- Make the next call. -/
def call (t : FleetTask) (f : Fleet) : Option (FleetTask × Fleet) :=
  match t.rest with
  | .ret _ => none
  | .call o k =>
    let x := Fleet.call o f
    some ({ past := t.past ++ [⟨o, x.1⟩], rest := k x.1 }, x.2)

theorem call_eq {t t' : FleetTask} {f f' : Fleet} (h : t.call f = some (t', f')) :
    ∃ o k, t.rest = .call o k ∧ f' = (Fleet.call o f).2 ∧
      t' = { past := t.past ++ [⟨o, (Fleet.call o f).1⟩], rest := k (Fleet.call o f).1 } := by
  obtain ⟨past, rest⟩ := t
  unfold call at h
  rcases rest with a | ⟨o, k⟩
  · cases h
  · cases h
    exact ⟨o, k, rfl, rfl, rfl⟩

end FleetTask

/-- The list of applications that a call reads. -/
def Call.applyList : (c : Call) → c.Resp → Option (List ApplyInfo)
  | .getApplyList _ _ _, r => some r.2
  | _, _ => none

/-- The list of applications that was read first. -/
def applyListOf (past : List (Event located)) : Option (List ApplyInfo) :=
  past.findSome? fun e => e.1.2.applyList e.2

/-- What the program has given to `send` is in the record. -/
def FleetTask.Recorded (t : FleetTask) (f : Fleet) : Prop :=
  ∀ e ∈ t.past, ∀ d ∈ e.1.2.outbound e.1.1, d ∈ f.sent

section Programs

variable {J : JsonCpp} {pools : Pools} {S B : ServerName} {s : SessId} {v uid : Int}
  {past : List (Event located)}

theorem applyListOf_append_of_some {list : List ApplyInfo} (h : applyListOf past = some list)
    (es : List (Event located)) : applyListOf (past ++ es) = some list := by
  unfold applyListOf at h ⊢
  rw [List.findSome?_append, h]
  rfl

theorem applyListOf_append_of_none {es : List (Event located)} (h : applyListOf past = none)
    (hes : ∀ e ∈ es, e.1.2.applyList e.2 = none) : applyListOf (past ++ es) = none := by
  unfold applyListOf at h ⊢
  rw [List.findSome?_append, h, List.findSome?_eq_none_iff.mpr hes]
  rfl

/-! ### The login -/

/-- A call of the login: it stores no application, and reads the user's list from its beginning. -/
def LoginAsks (v : Int) (c : Call) : Prop :=
  c.applicant = none ∧ ∀ to_uid start limit, c = .getApplyList to_uid start limit →
    to_uid = v ∧ start = 0 ∧ limit = 10

/-- The database finds the list. -/
def Call.Listed : (c : Call) → c.Resp → Prop
  | .getApplyList _ _ _, r => r.1 = true
  | _, _ => True

theorem LogicSystem.LoginCall.asks {c : Call} (h : LogicSystem.LoginCall B s v c) : LoginAsks v c := by
  rcases h with _ | h | _ | _ | _ | _ | _ | _ | _
  on_goal 2 => rcases h with _ | _ | _
  all_goals refine ⟨rfl, ?_⟩
  all_goals
    rintro to_uid start limit ⟨⟩
    try exact ⟨rfl, rfl, rfl⟩

theorem LogicSystem.CacheCall.applyList {c : Call} (h : LogicSystem.CacheCall c) (r : c.Resp) :
    c.applyList r = none := by
  rcases h with _ | _ | _ <;> rfl

/-- A list with elements is in the reply. -/
theorem loginReply_lookup (v : Int) (user_info : UserInfo) {list : List ApplyInfo} (h : list ≠ [])
    (friend_list : List UserInfo) :
    (LogicSystem.loginReply v user_info true list friend_list).lookup (lit "apply_list") =
      .arr (list.map applyJson) := by
  unfold LogicSystem.loginReply
  dsimp only
  rw [Json.lookup_foldl_appendTo_of_ne _ _ _ (by decide), if_pos rfl]
  refine Json.lookup_foldl_appendTo _ h ?_
  unfold Json.setProfile Json.errorReply
  simp only [Json.lookup_set]
  iterate 9 rw [if_neg (by decide)]
  rfl

theorem applyJson_uid (apply : ApplyInfo) :
    (applyJson apply).lookup (lit "uid") = .int apply.uid := by
  unfold applyJson
  simp only [Json.lookup_set]
  iterate 5 rw [if_neg (by decide)]
  rw [if_pos trivial]

/-- The reply that the login sends lists the applications it has read. -/
def RepliesList (J : JsonCpp) (B : ServerName) (s : SessId) (past : List (Event located)) : Prop :=
  ∀ list, applyListOf past = some list → list ≠ [] → ∃ y : Json,
    y.lookup (lit "apply_list") = .arr (list.map applyJson) ∧
    (⟨(B, .send s (J.toStyledString y) MsgIds.chatLoginRsp.id), ()⟩ : Event located) ∈ past

/-- The condition on the login. -/
abbrev LoginHeeds {α : Type} (v : Int) (p : Located α) (post : α → List (Event located) → Prop)
    (past : List (Event located)) : Prop :=
  p.Heeds (fun e : Event located => e.1.2.Listed e.2)
    (fun _ (o : ServerName × Call) => LoginAsks v o.2) post past

theorem LogicSystem.bindUser_heeds {list : List ApplyInfo} (h : applyListOf past = some list) :
    LoginHeeds v (place J pools B (LogicSystem.bindUser B s v).run)
      (fun _ past' => applyListOf past' = some list) past := by
  refine heeds_place_ask rfl (LogicSystem.LoginCall.asks (B := B) (s := s) .read) ?_
  intro rd_res _
  have h₁ := applyListOf_append_of_some h [⟨(B, .hGet RedisPrefix.loginCount B.val), rd_res⟩]
  refine heeds_place_lift ?_ (fun _ _ => h₁)
  intro count _
  refine heeds_place_ask rfl (LogicSystem.LoginCall.asks (B := B) (s := s) (.count _)) ?_
  intro _ _
  refine heeds_place_ask rfl (LogicSystem.LoginCall.asks (B := B) (s := s) .bind) ?_
  intro _ _
  refine heeds_place_ask rfl (LogicSystem.LoginCall.asks (B := B) (s := s) .route) ?_
  intro _ _
  refine heeds_place_ask_last (c := .setUserSession v s) rfl
    (LogicSystem.LoginCall.asks (B := B) (s := s) .register) ?_
  intro _ _
  simpa using applyListOf_append_of_some h₁ _

theorem LogicSystem.login_heeds {token : Bytes} (h : applyListOf past = none) :
    LoginHeeds v (place J pools B (LogicSystem.login J B s v token).run)
      (fun r past' => ∀ y, r = .ok y → ∀ list, applyListOf past' = some list → list ≠ [] →
        y.lookup (lit "apply_list") = .arr (list.map applyJson)) past := by
  -- where no list is read, there is nothing to show
  have hnone : ∀ {past' : List (Event located)} {r : Except Exn Json}, applyListOf past' = none →
      ∀ y, r = .ok y → ∀ list, applyListOf past' = some list → list ≠ [] →
        y.lookup (lit "apply_list") = .arr (list.map applyJson) := by
    intro past' r h y _ list hlist
    rw [h] at hlist
    cases hlist
  refine heeds_place_ask rfl (LogicSystem.LoginCall.asks (B := B) (s := s) .token) ?_
  intro token_value _
  have h₁ : applyListOf (past ++ [⟨(B, .get (tokenKey v)), token_value⟩]) = none :=
    applyListOf_append_of_none h (by simp [Call.applyList])
  rcases token_value with _ | token_value
  · exact hnone h₁
  · dsimp only
    split
    · exact hnone h₁
    · have hcache : (place J pools B (LogicSystem.getBaseInfo J (baseKey v) v).run).Uses
          fun o : ServerName × Call => LogicSystem.CacheCall o.2 :=
        uses_place ((LogicSystem.getBaseInfo_calls _ v).mono fun c hc =>
          ⟨by rcases hc with _ | _ | _ <;> rfl, hc⟩)
      refine heeds_place_bind (hcache.heeds_append
        (fun _ _ hc => LogicSystem.LoginCall.asks (B := B) (s := s) (.cache hc)) _) ?_ ?_
      · rintro user_info _ ⟨es, rfl, hes⟩
        have h₂ := applyListOf_append_of_none h₁ fun e he => (hes e he).applyList e.2
        rcases user_info with _ | user_info
        · exact hnone h₂
        · refine heeds_place_ask rfl (LogicSystem.LoginCall.asks (B := B) (s := s) .applyList) ?_
          rintro ⟨b_apply, list⟩ hlisted
          obtain rfl : b_apply = true := hlisted
          have h₃ : applyListOf (past ++ [⟨(B, .get (tokenKey v)), some token_value⟩] ++ es ++
              [⟨(B, .getApplyList v 0 10), (true, list)⟩]) = some list := by
            unfold applyListOf at h₂ ⊢
            rw [List.findSome?_append, h₂]
            rfl
          refine heeds_place_ask rfl (LogicSystem.LoginCall.asks (B := B) (s := s) .friendList) ?_
          intro friends _
          refine heeds_place_bind (LogicSystem.bindUser_heeds (applyListOf_append_of_some h₃ _)) ?_ ?_
          · rintro _ past' hpast y ⟨⟩ list' hlist' hne
            rw [hpast] at hlist'
            cases hlist'
            exact loginReply_lookup v user_info hne friends.2
          · rintro e past' _ y ⟨⟩
      · rintro e _ _ y ⟨⟩

/-- **The login.** -/
theorem LogicSystem.login_dispatch_heeds {node : LogicNode}
    (hid : node.recvNode.msgId = MsgIds.chatLogin.id)
    (hv : (J.parse node.recvNode.text).2.getInt "uid" = .ok v) :
    LoginHeeds v (place J pools B (LogicSystem.dispatch J B node).run)
      (fun r past => r = .ok () → RepliesList J B node.session past) [] := by
  rw [dispatch_login J B hid]
  refine heeds_place_lift ?_ (fun e _ h => by cases h)
  intro uid huid
  obtain rfl : v = uid := Except.ok.inj (hv.symm.trans huid)
  refine heeds_place_lift ?_ (fun e _ h => by cases h)
  intro token _
  refine heeds_place_bind (LogicSystem.login_heeds rfl) ?_ (fun e _ _ h => by cases h)
  intro y past hy
  refine heeds_place_ask_last
    (c := .send node.session (J.toStyledString y) MsgIds.chatLoginRsp.id) rfl ⟨rfl, by simp⟩ ?_
  intro _ _ _ list hlist hne
  have hsame : applyListOf past = some list := by
    rcases hp : applyListOf past with _ | list'
    · rw [applyListOf_append_of_none hp (by simp [Call.applyList])] at hlist
      cases hlist
    · rw [applyListOf_append_of_some hp] at hlist
      exact hlist
  exact ⟨y, hy y rfl list hsame hne, by simp⟩

/-! ### A friend request -/

/-- A call of a friend request: the first one stores the application, no other does. -/
def RequestAsks (k : Int × Int) (past : List (Event located)) (c : Call) : Prop :=
  c.applicant = if past = [] then some k else none

/-- A lookup on the way to the user finds the session `s` of the server `B`. -/
structure Routed (B : ServerName) (s : SessId) (v : Int) (e : Event located) : Prop where
  route : ∀ S r, e = ⟨(S, .get (ipKey v)), r⟩ → r = some B.val
  session : ∀ r, e = ⟨(B, .getSession v), r⟩ → r = some s

/-- Unless a lookup has gone astray, the user is notified of the application. -/
def NotifiesUser (J : JsonCpp) (B : ServerName) (s : SessId) (v uid : Int)
    (past : List (Event located)) : Prop :=
  (∀ e ∈ past, Routed B s v e) → ∃ x : Json, x.lookup (lit "applyuid") = .int uid ∧
    (⟨(B, .send s (J.toStyledString x) MsgIds.notifyAddFriendReq.id), ()⟩ : Event located) ∈ past

/-- The condition on a friend request. -/
abbrev RequestHeeds {α : Type} (k : Int × Int) (p : Located α)
    (post : α → List (Event located) → Prop) (past : List (Event located)) : Prop :=
  p.Heeds (fun _ => True) (fun past (o : ServerName × Call) => RequestAsks k past o.2) post past

theorem NotifiesUser.append (h : NotifiesUser J B s v uid past) (es : List (Event located)) :
    NotifiesUser J B s v uid (past ++ es) := by
  intro hrouted
  obtain ⟨x, hx, hmem⟩ := h fun e he => hrouted e (List.mem_append_left _ he)
  exact ⟨x, hx, List.mem_append_left _ hmem⟩

theorem notifiesUser_of_not_routed {e : Event located} (he : e ∈ past) (h : ¬ Routed B s v e) :
    NotifiesUser J B s v uid past := fun hrouted => absurd (hrouted e he) h

/-- Calls after the first that store nothing. -/
theorem RequestAsks.of_none {k : Int × Int} {c : Call} (hpast : past ≠ []) (h : c.applicant = none) :
    RequestAsks k past c := by
  unfold RequestAsks
  rw [if_neg hpast, h]

theorem addFriendNotify_applyuid (request : AddFriendReq) :
    (ChatServiceImpl.addFriendNotify request).lookup (lit "applyuid") = .int request.applyuid := by
  unfold ChatServiceImpl.addFriendNotify
  simp only [Json.lookup_set]
  iterate 6 rw [if_neg (by decide)]
  rw [if_pos trivial]

/-- Storing no application. -/
theorem heeds_of_stores_nothing {α : Type} {k : Int × Int} {p : Located α} (hpast : past ≠ [])
    (hp : p.Uses fun o : ServerName × Call => o.2.applicant = none) :
    RequestHeeds k p (fun _ past' => past <+: past') past := by
  induction p generalizing past with
  | ret a => exact List.prefix_refl _
  | call o k ih =>
    refine ⟨.of_none hpast hp.1, ?_⟩
    intro r _
    refine (ih r (by simp) (hp.2 r)).mono ?_
    intro _ past' hpre
    exact (List.prefix_append _ _).trans hpre

theorem getBaseInfo_stores_nothing (uid : Int) :
    (place J pools S (LogicSystem.getBaseInfo J (baseKey uid) uid).run).Uses
      fun o : ServerName × Call => o.2.applicant = none := by
  refine uses_place ((LogicSystem.getBaseInfo_calls _ uid).mono ?_)
  rintro c (_ | _ | _) <;> exact ⟨rfl, rfl⟩

/-- What the chat service of the user's server does. -/
theorem notifyAddFriend_heeds {k : Int × Int} (request : AddFriendReq) (hpast : past ≠ []) :
    RequestHeeds k (place J pools B (ChatServiceImpl.notifyAddFriend J request).run)
      (fun _ past' => NotifiesUser J B s request.touid request.applyuid past') past := by
  refine heeds_place_ask rfl (.of_none hpast rfl) ?_
  intro session _
  by_cases hs : session = some s
  · subst hs
    refine heeds_place_ask rfl (.of_none (by simp) rfl) ?_
    intro _ _ _
    exact ⟨_, addFriendNotify_applyuid request, by simp⟩
  · have hastray : NotifiesUser J B s request.touid request.applyuid
        (past ++ [⟨(B, .getSession request.touid), session⟩]) :=
      notifiesUser_of_not_routed (by simp) fun h => hs (h.session session rfl)
    rcases session with _ | t
    · exact hastray
    · refine heeds_place_ask rfl (.of_none (by simp) rfl) ?_
      intro _ _
      exact hastray.append _

theorem routeAddFriend_stores_nothing (uid touid : Int) (name alias_name : Bytes) :
    (place J pools S (LogicSystem.routeAddFriend J S uid touid name alias_name).run).Uses
      fun o : ServerName × Call => o.2.applicant = none := by
  refine ⟨rfl, ?_⟩
  intro to_ip_value
  rcases to_ip_value with _ | to_ip_value
  · trivial
  · show (place J pools S (LogicSystem.getBaseInfo J (baseKey uid) uid >>= _).run).Uses _
    rw [ExceptT.run_bind, place_bind]
    refine (getBaseInfo_stores_nothing uid).bind ?_
    intro apply_info
    rcases apply_info with e | apply_info
    · trivial
    · dsimp only
      split
      · refine ⟨rfl, ?_⟩
        intro to_user_session
        rcases to_user_session with _ | t
        · trivial
        · exact ⟨rfl, fun _ => trivial⟩
      · refine Uses.bind (p := Remote.notifyAddFriend J pools S to_ip_value _) ?_ fun _ => trivial
        unfold Remote.notifyAddFriend Remote.notify
        split
        · trivial
        · rw [locate_eq_place J pools _ (ChatServiceImpl.notifyAddFriend_local _)]
          refine Uses.bind ⟨rfl, ?_⟩ ?_
          · intro session
            rcases session with _ | t
            · trivial
            · exact ⟨rfl, fun _ => trivial⟩
          · intro reply
            rcases reply with e | reply <;> trivial

/-- Looking for the user. -/
theorem routeAddFriend_heeds {k : Int × Int} {name alias_name : Bytes} (hpast : past ≠ []) (hne : S ≠ B)
    (hpool : pools S B.val = some B) :
    RequestHeeds k (place J pools S (LogicSystem.routeAddFriend J S uid v name alias_name).run)
      (fun r past' => r = .ok () → NotifiesUser J B s v uid past') past := by
  refine heeds_place_ask rfl (.of_none hpast rfl) ?_
  intro to_ip_value _
  by_cases hip : to_ip_value = some B.val
  · subst hip
    dsimp only
    refine heeds_place_bind (heeds_of_stores_nothing (by simp) (getBaseInfo_stores_nothing uid)) ?_
      (fun e _ _ h => by cases h)
    intro apply_info past' hpre
    have hpast' : past' ≠ [] := by
      rintro rfl
      simp at hpre
    rw [if_neg fun h => hne (Subtype.ext h.symm)]
    show RequestHeeds k (Remote.notifyAddFriend J pools S B.val _ >>= fun _ =>
      place J pools S (Prog.ret (Except.ok ()))) _ past'
    unfold Remote.notifyAddFriend
    rw [notify_of_pool hpool, bind_assoc,
      locate_eq_place J pools B (ChatServiceImpl.notifyAddFriend_local _)]
    refine (notifyAddFriend_heeds (s := s) _ hpast').bind ?_
    intro reply past'' hnotified
    rcases reply with e | reply <;> exact fun _ => hnotified
  · have hstores : (place J pools S (LogicSystem.routeAddFriend J S uid v name alias_name).run).Uses
        fun o : ServerName × Call => o.2.applicant = none :=
      routeAddFriend_stores_nothing uid v name alias_name
    refine (heeds_of_stores_nothing (by simp) (hstores.2 to_ip_value)).mono ?_
    intro _ past' hpre _
    exact notifiesUser_of_not_routed (hpre.subset (by simp)) fun h => hip (h.route S _ rfl)

/-- An acceptance is no request to be a friend. -/
theorem acceptRequest_ne_add (J : JsonCpp) (root : Json) (uid touid : Int) (alias_name : Bytes) :
    (acceptRequest J root).toOption ≠ some (.add uid touid alias_name) := by
  unfold acceptRequest
  rcases root.getInt "fromuid" with _ | fromuid
  · exact fun h => nomatch h
  · rcases root.getInt "touid" with _ | touid
    · exact fun h => nomatch h
    · rcases root.getString J "alias_name" with _ | alias_name <;> exact fun h => nomatch h

theorem dispatch_of_add {node : LogicNode} {alias_name : Bytes}
    (hq : node.friendRequest J = some (.add uid v alias_name)) :
    LogicSystem.dispatch J S node =
        LogicSystem.addFriendHandler J S node.session node.recvNode.text ∧
      (addRequest J (J.parse node.recvNode.text).2).toOption = some (.add uid v alias_name) := by
  unfold LogicNode.friendRequest at hq
  dsimp only at hq
  split at hq
  · rename_i hid
    refine ⟨?_, hq⟩
    unfold LogicSystem.dispatch LogicSystem.callback
    rw [hid]
    rfl
  · split at hq
    · exact (acceptRequest_ne_add J _ uid v alias_name hq).elim
    · cases hq

/-- **A friend request.** -/
theorem request_dispatch_heeds {node : LogicNode} {alias_name : Bytes} (hne : S ≠ B)
    (hpool : pools S B.val = some B) (hq : node.friendRequest J = some (.add uid v alias_name)) :
    RequestHeeds (uid, v) (place J pools S (LogicSystem.dispatch J S node).run)
      (fun r past => r = .ok () → NotifiesUser J B s v uid past) [] := by
  obtain ⟨hdispatch, hrequest⟩ := dispatch_of_add (S := S) hq
  rw [hdispatch]
  unfold addRequest at hrequest
  refine heeds_place_lift ?_ (fun e _ h => by cases h)
  intro uid' huid
  rw [huid] at hrequest
  refine heeds_place_lift ?_ (fun e _ h => by cases h)
  intro name hname
  rw [hname] at hrequest
  refine heeds_place_lift ?_ (fun e _ h => by cases h)
  intro alias_name' halias
  rw [halias] at hrequest
  refine heeds_place_lift ?_ (fun e _ h => by cases h)
  intro touid htouid
  rw [htouid] at hrequest
  have hsame : some (FriendRequest.add uid' touid alias_name') = some (.add uid v alias_name) := hrequest
  cases hsame
  -- the application is stored before anything else
  refine heeds_place_ask rfl rfl ?_
  intro _ _
  refine heeds_place_bind (routeAddFriend_heeds (s := s) (by simp) hne hpool).extended ?_
    (fun e _ _ h => by cases h)
  rintro _ past ⟨hnotified, hpre⟩
  have hpast : past ≠ [] := by
    rintro rfl
    simp at hpre
  refine heeds_place_ask_last (c := .send node.session _ MsgIds.addFriendRsp.id) rfl
    (.of_none hpast rfl) ?_
  intro _ _ _
  exact (hnotified rfl).append _

end Programs

/-! ## The race -/

/-- The login of a user at the server `home`, and friend requests to the user, each at another server
whose pools reach `home`. -/
structure RaceMessages (J : JsonCpp) (pools : Pools) (ι : Type) where
  home : ServerName
  user : Int
  login : LogicNode
  server : ι → ServerName
  request : ι → LogicNode
  applicant : ι → Int
  aliasName : ι → Bytes
  isLogin : login.recvNode.msgId = MsgIds.chatLogin.id
  loginUid : (J.parse login.recvNode.text).2.getInt "uid" = .ok user
  away : ∀ i, server i ≠ home
  reach : ∀ i, pools (server i) home.val = some home
  isRequest : ∀ i, (request i).friendRequest J = some (.add (applicant i) user (aliasName i))

/-- Several programs over one fleet, in the middle. -/
structure Race (ι : Type) where
  fleet : Fleet
  login : FleetTask
  requests : ι → FleetTask

namespace Race

variable {ι : Type} [DecidableEq ι]

/-- The workers take the messages; what has been sent before does not count. -/
def start {J : JsonCpp} {pools : Pools} (m : RaceMessages J pools ι) (f : Fleet) : Race ι where
  fleet := { f with sent := [] }
  login := .start J pools m.home m.login
  requests i := .start J pools (m.server i) (m.request i)

/-- The login, or one of the requests, makes its next call. -/
def move (l : Option ι) (r : Race ι) : Option (Race ι) :=
  match l with
  | none => (r.login.call r.fleet).map fun x => { r with fleet := x.2, login := x.1 }
  | some i => ((r.requests i).call r.fleet).map fun x =>
    { r with fleet := x.2, requests := update r.requests i x.1 }

/-- One call of one of the programs. -/
def Step (r : Race ι) (l : Option ι) (r' : Race ι) : Prop := r.move l = some r'

section Condition

variable {J : JsonCpp} {pools : Pools} (m : RaceMessages J pools ι)

/-- The login has read its list, and the user is not in it. -/
def Late (r : Race ι) (uid : Int) : Prop :=
  ∃ list, applyListOf r.login.past = some list ∧ uid ∉ list.map ApplyInfo.uid

/-- A lookup on the way to the user will find the user's server and new session. -/
structure Published (f : Fleet) (o : ServerName × Call) : Prop where
  route : o.2 = .get (ipKey m.user) → f.redis.get (ipKey m.user) = some m.home.val
  session : o = (m.home, .getSession m.user) →
    (f.proc m.home).uidToSession m.user = some m.login.session

/-- No request whose application the login has missed looks for the user before the login has
published where the user is. -/
def Timely (r : Race ι) (l : Option ι) : Prop :=
  ∀ i, l = some i → r.Late (m.applicant i) →
    ∀ o k, (r.requests i).rest = .call o k → Published m r.fleet o

/-- All have returned, and the login has come to its list. -/
structure Finished (r : Race ι) : Prop where
  login : r.login.rest = .ret (.ok ())
  requests : ∀ i, (r.requests i).rest = .ret (.ok ())
  list : (applyListOf r.login.past).isSome

/-- The reply to the login lists the applicant. -/
def InReply (r : Race ι) (uid : Int) : Prop :=
  ∃ (y : Json) (elems : List Json),
    outbound m.home m.login.session (J.toStyledString y, MsgIds.chatLoginRsp.id) ∈ r.fleet.sent ∧
    y.lookup (lit "apply_list") = .arr elems ∧ ∃ e ∈ elems, e.lookup (lit "uid") = .int uid

/-- The user's new session was notified of the applicant. -/
def Notified (r : Race ι) (uid : Int) : Prop :=
  ∃ x : Json,
    outbound m.home m.login.session (J.toStyledString x, MsgIds.notifyAddFriendReq.id) ∈ r.fleet.sent ∧
    x.lookup (lit "applyuid") = .int uid

end Condition

end Race

/-! ## What one call keeps -/

section Calls

variable {f : Fleet} {v : Int}

/-- A call that stores an application has stored it. -/
theorem Fleet.call_stores {o : ServerName × Call} {k : Int × Int} (h : o.2.applicant = some k) :
    ((Fleet.call o f).2.database.tables.friendApply k).isSome := by
  obtain ⟨S, c⟩ := o
  cases c with
  | addFriendApply uid touid al =>
    cases h
    rw [Fleet.call_database S f (Database.call_addFriendApply f.database uid touid al)]
    dsimp only
    rw [Database.apply_tables, friendApply_apply]
    exact Or.inr ⟨al, rfl⟩
  | _ => cases h

/-- A list that the login reads. -/
theorem Fleet.call_applyList {o : ServerName × Call} {list : List ApplyInfo} (ha : LoginAsks v o.2)
    (h : o.2.applyList (Fleet.call o f).1 = some list) :
    list = (f.database.applyRows v 0 10).map ApplyResult.info := by
  obtain ⟨S, c⟩ := o
  cases c with
  | getApplyList to_uid start limit =>
    obtain ⟨rfl, rfl, rfl⟩ := ha.2 to_uid start limit rfl
    rw [Fleet.call_database S f (Database.call_getApplyList f.database to_uid 0 10)] at h
    cases h
    rfl
  | _ => cases h

theorem Fleet.call_listed (o : ServerName × Call) (f : Fleet) : o.2.Listed (Fleet.call o f).1 := by
  obtain ⟨S, c⟩ := o
  cases c with
  | getApplyList to_uid start limit =>
    rw [Fleet.call_database S f (Database.call_getApplyList f.database to_uid start limit)]
    rfl
  | _ => trivial

/-- What is given to `send` is recorded. -/
theorem Fleet.call_outbound {o : ServerName × Call} {d : Outbound} (h : d ∈ o.2.outbound o.1) :
    d ∈ (Fleet.call o f).2.sent := by
  obtain ⟨S, c⟩ := o
  cases c with
  | send t msg msgid =>
    rw [Fleet.call_send_sent]
    exact List.mem_append_right _ h
  | _ => cases h

theorem Database.Few.of_grows {f' : Fleet} (h : f'.database.Few v) (hg : f.Grows f') :
    f.database.Few v := by
  obtain ⟨rest, hrest⟩ := hg.applications
  unfold Database.Few at h ⊢
  rw [← hrest, List.filter_append, List.length_append] at h
  omega

end Calls

/-! ## The invariant -/

theorem FleetTask.Recorded.grows {t : FleetTask} {f f' : Fleet} (h : t.Recorded f) (hg : f.Grows f') :
    t.Recorded f' := fun e he d hd => hg.sent.subset (h e he d hd)

theorem FleetTask.Recorded.call {t t' : FleetTask} {f f' : Fleet} (h : t.Recorded f)
    (hc : t.call f = some (t', f')) : t'.Recorded f' := by
  obtain ⟨o, k, -, rfl, rfl⟩ := FleetTask.call_eq hc
  intro e he d hd
  rcases List.mem_append.mp he with he | he
  · exact h.grows (Fleet.call_grows o f) e he d hd
  · obtain rfl := List.mem_singleton.mp he
    exact Fleet.call_outbound hd

namespace Race

variable {ι : Type} {J : JsonCpp} {pools : Pools} (m : RaceMessages J pools ι) {r r' : Race ι}

/-- What holds in every state of a timely race. -/
structure Inv (r : Race ι) : Prop where
  login : LoginHeeds m.user r.login.rest
    (fun x past => x = .ok () → RepliesList J m.home m.login.session past) r.login.past
  requests : ∀ i, RequestHeeds (m.applicant i, m.user) (r.requests i).rest
    (fun x past => x = .ok () → NotifiesUser J m.home m.login.session m.user (m.applicant i) past)
    (r.requests i).past
  loginSent : r.login.Recorded r.fleet
  requestsSent : ∀ i, (r.requests i).Recorded r.fleet
  numbered : r.fleet.database.Numbered
  /-- A request has stored its application by its first call. -/
  stored : ∀ i, (r.requests i).past ≠ [] →
    (r.fleet.database.tables.friendApply (m.applicant i, m.user)).isSome
  /-- What the login has missed, a request of the race has stored. -/
  missed : r.fleet.database.Few m.user → ∀ uid, (r.fleet.database.users.getUserInfo uid).isSome →
    r.Late uid → (r.fleet.database.tables.friendApply (uid, m.user)).isSome → ∃ i, m.applicant i = uid
  routed : r.fleet.database.Few m.user → ∀ i,
    (r.fleet.database.users.getUserInfo (m.applicant i)).isSome → r.Late (m.applicant i) →
    ∀ e ∈ (r.requests i).past, Routed m.home m.login.session m.user e

theorem inv_start (f : Fleet) (hnum : f.database.Numbered) : Inv m (start m f) where
  login := LogicSystem.login_dispatch_heeds m.isLogin m.loginUid
  requests i := request_dispatch_heeds (m.away i) (m.reach i) (m.isRequest i)
  loginSent _ he := nomatch he
  requestsSent _ _ he := nomatch he
  numbered := hnum
  stored i h := absurd rfl h
  missed := by
    rintro - uid - ⟨list, hlist, -⟩
    cases hlist
  routed := by
    rintro - i - ⟨list, hlist, -⟩
    cases hlist

/-- The login makes a call. -/
theorem Inv.login_call {t : FleetTask} {f : Fleet} (h : Inv m r) (hc : r.login.call r.fleet = some (t, f)) :
    Inv m { r with fleet := f, login := t } := by
  have hsent := h.loginSent.call hc
  obtain ⟨o, k, hcall, rfl, rfl⟩ := FleetTask.call_eq hc
  have hgrows := Fleet.call_grows o r.fleet
  have hlogin := h.login
  rw [hcall] at hlogin
  obtain ⟨hasks, hrest⟩ := hlogin
  -- a list that is new is read from the database as it is, any other is the one read before
  have hlate : ∀ uid, Late { r with
        fleet := (Fleet.call o r.fleet).2
        login := { past := r.login.past ++ [⟨o, (Fleet.call o r.fleet).1⟩]
                   rest := k (Fleet.call o r.fleet).1 } } uid →
      r.Late uid ∨ uid ∉ ((r.fleet.database.applyRows m.user 0 10).map ApplyResult.info).map
        ApplyInfo.uid := by
    rintro uid ⟨list, hlist, huid⟩
    dsimp only at hlist
    rcases hold : applyListOf r.login.past with _ | old
    · right
      unfold applyListOf at hold hlist
      rw [List.findSome?_append, hold] at hlist
      have hread : o.2.applyList (Fleet.call o r.fleet).1 = some list := by simpa using hlist
      rwa [← Fleet.call_applyList hasks hread]
    · left
      rw [applyListOf_append_of_some hold] at hlist
      exact ⟨old, hold, by rwa [Option.some.inj hlist]⟩
  refine ⟨?_, h.requests, hsent, fun i => (h.requestsSent i).grows hgrows,
    hgrows.numbered h.numbered, fun i hi => hgrows.rows _ (h.stored i hi), ?_, ?_⟩
  · exact hrest _ (Fleet.call_listed o r.fleet)
  · intro hfew uid huser huid hrow
    have hfew' := hfew.of_grows hgrows
    rw [hgrows.users] at huser
    have hrow' := (Fleet.call_row hrow).resolve_right (by simp [hasks.1])
    rcases hlate uid huid with hold | hnew
    · exact h.missed hfew' uid huser hold hrow'
    · exact absurd (mem_applyRows h.numbered hfew' hrow' huser) hnew
  · intro hfew i huser hi e he
    have hfew' := hfew.of_grows hgrows
    rw [hgrows.users] at huser
    rcases hlate _ hi with hold | hnew
    · exact h.routed hfew' i huser hold e he
    · exact absurd (mem_applyRows h.numbered hfew' (h.stored i (List.ne_nil_of_mem he)) huser) hnew

theorem Published.routed {m : RaceMessages J pools ι} {f : Fleet} {o : ServerName × Call}
    (h : Published m f o) : Routed m.home m.login.session m.user ⟨o, (Fleet.call o f).1⟩ := by
  refine ⟨?_, ?_⟩
  · intro S x he
    obtain rfl : o = (S, .get (ipKey m.user)) := congrArg Sigma.fst he
    cases he
    rw [Fleet.call_get]
    exact h.route rfl
  · intro x he
    obtain rfl : o = (m.home, .getSession m.user) := congrArg Sigma.fst he
    cases he
    rw [Fleet.call_getSession]
    exact h.session rfl

variable [DecidableEq ι]

/-- A request makes a call. -/
theorem Inv.request_call {i : ι} {t : FleetTask} {f : Fleet} (h : Inv m r)
    (htimely : Timely m r (some i)) (hc : (r.requests i).call r.fleet = some (t, f)) :
    Inv m { r with fleet := f, requests := update r.requests i t } := by
  have hsent := (h.requestsSent i).call hc
  obtain ⟨o, k, hcall, rfl, rfl⟩ := FleetTask.call_eq hc
  have hgrows := Fleet.call_grows o r.fleet
  have hrequest := h.requests i
  rw [hcall] at hrequest
  obtain ⟨hasks, hrest⟩ := hrequest
  refine ⟨h.login, ?_, h.loginSent.grows hgrows, ?_, hgrows.numbered h.numbered, ?_, ?_, ?_⟩
  · intro j
    by_cases hj : j = i
    · subst hj
      dsimp only
      rw [update_self]
      exact hrest _ trivial
    · dsimp only
      rw [update_of_ne hj]
      exact h.requests j
  · intro j
    by_cases hj : j = i
    · subst hj
      dsimp only
      rwa [update_self]
    · dsimp only
      rw [update_of_ne hj]
      exact (h.requestsSent j).grows hgrows
  · intro j hj
    by_cases hji : j = i
    · subst hji
      by_cases hfirst : (r.requests j).past = []
      · unfold RequestAsks at hasks
        rw [if_pos hfirst] at hasks
        exact Fleet.call_stores hasks
      · exact hgrows.rows _ (h.stored j hfirst)
    · dsimp only at hj
      rw [update_of_ne hji] at hj
      exact hgrows.rows _ (h.stored j hj)
  · intro hfew uid huser huid hrow
    rw [hgrows.users] at huser
    rcases Fleet.call_row hrow with hold | hnew
    · exact h.missed (hfew.of_grows hgrows) uid huser huid hold
    · unfold RequestAsks at hasks
      rw [hasks] at hnew
      split at hnew
      · cases hnew
        exact ⟨i, rfl⟩
      · cases hnew
  · intro hfew j huser hj e he
    rw [hgrows.users] at huser
    have hold := h.routed (hfew.of_grows hgrows) j huser hj
    by_cases hji : j = i
    · subst hji
      dsimp only at he
      rw [update_self] at he
      rcases List.mem_append.mp he with he | he
      · exact hold e he
      · obtain rfl := List.mem_singleton.mp he
        exact (htimely j rfl hj o k hcall).routed
    · dsimp only at he
      rw [update_of_ne hji] at he
      exact hold e he

variable {m}

theorem Inv.step {l : Option ι} (h : Inv m r) (htimely : Timely m r l) (hs : Step r l r') :
    Inv m r' := by
  unfold Step move at hs
  rcases l with _ | i
  · obtain ⟨⟨t, f⟩, hcall, rfl⟩ := Option.map_eq_some_iff.mp hs
    exact h.login_call m hcall
  · obtain ⟨⟨t, f⟩, hcall, rfl⟩ := Option.map_eq_some_iff.mp hs
    exact h.request_call m htimely hcall

omit [DecidableEq ι] in
/-- At the end, each applicant is in the reply or was announced. -/
theorem Inv.reached (h : Inv m r) (hdone : r.Finished) (hfew : r.fleet.database.Few m.user) {uid : Int}
    (huser : (r.fleet.database.users.getUserInfo uid).isSome)
    (hrow : (r.fleet.database.tables.friendApply (uid, m.user)).isSome) :
    InReply m r uid ∨ Notified m r uid := by
  obtain ⟨list, hlist⟩ := Option.isSome_iff_exists.mp hdone.list
  have hreply : RepliesList J m.home m.login.session r.login.past := by
    have hlogin := h.login
    rw [hdone.login] at hlogin
    exact hlogin rfl
  by_cases huid : uid ∈ list.map ApplyInfo.uid
  · left
    obtain ⟨apply, happly, rfl⟩ := List.mem_map.mp huid
    obtain ⟨y, hy, hmem⟩ := hreply list hlist (List.ne_nil_of_mem happly)
    refine ⟨y, list.map applyJson, ?_, hy, applyJson apply, List.mem_map_of_mem happly,
      applyJson_uid apply⟩
    exact h.loginSent _ hmem _ (List.mem_singleton_self _)
  · right
    obtain ⟨i, rfl⟩ := h.missed hfew uid huser ⟨list, hlist, huid⟩ hrow
    have hrequest := h.requests i
    rw [hdone.requests i] at hrequest
    obtain ⟨x, hx, hmem⟩ := hrequest rfl (h.routed hfew i huser ⟨list, hlist, huid⟩)
    exact ⟨x, h.requestsSent i _ hmem _ (List.mem_singleton_self _), hx⟩

/-- **No friend request is missed**, in a run in which no request that comes too late for the list of the
login looks for the user before the login has set the routing key and entered the session into `UserMgr`.
When all have finished, each applicant to the user is in the list of the login's reply or was announced to
the new session, if the applicant exists and the applications to the user are fewer than ten. -/
theorem never_missed {f : Fleet} {tr : List (Option ι × Race ι)}
    (h : Run Step (start m f) tr r) (hnum : f.database.Numbered)
    (htimely : Each Step (start m f) (fun _ r l => Timely m r l) tr) (hdone : r.Finished)
    (hfew : r.fleet.database.Few m.user) {uid : Int}
    (huser : (r.fleet.database.users.getUserInfo uid).isSome)
    (hrow : (r.fleet.database.tables.friendApply (uid, m.user)).isSome) :
    InReply m r uid ∨ Notified m r uid := by
  have hinv : Inv m r := by
    refine h.invariant_of_each (P := fun _ r => Inv m r) (inv_start m f hnum) ?_ htimely
    intro tr r l r' _ hi hc hs
    exact hi.step hc hs
  exact hinv.reached hdone hfew huser hrow

/-! ### Two orders -/

/-- The calls of the programs in a given order, as far as they are possible. -/
def calls (r : Race ι) (order : List (Option ι)) : List (Option ι × Race ι) :=
  follow (fun l r => (r.move l).map fun r' => (l, r')) r order

theorem calls_run (r : Race ι) (order : List (Option ι)) :
    Run Step r (r.calls order) (final r (r.calls order)) := by
  refine follow_run ?_ r
  intro l _ r l' r' h
  obtain ⟨_, hmove, heq⟩ := Option.map_eq_some_iff.mp h
  cases heq
  exact hmove

end Race

/-- The user 8 logs in, and the user 7 applies to the user 8. -/
def raceTexts : JsonCpp :=
  .nested [(loginText 8, .obj [(lit "token", .str (lit "t")), (lit "uid", .int 8)]),
    (applyText, .obj [(lit "alias_name", .str (lit "a")), (lit "apply_name", .str (lit "n")),
      (lit "touid", .int 8), (lit "uid", .int 7)])]

def raceMessages : RaceMessages raceTexts (fun _ _ => some s1) Unit where
  home := s1
  user := 8
  login := .received 1 .chatLogin (loginText 8)
  server _ := s2
  request _ := applies
  applicant _ := 7
  aliasName _ := lit "a"
  isLogin := rfl
  loginUid := by decide +kernel
  away _ := by decide
  reach _ := rfl
  isRequest _ := by decide +kernel

/-- The tokens are in Redis, and nobody has applied for anything. -/
def raceStart : Race Unit :=
  .start raceMessages
    { redis := startRedis, database := pairDatabase, proc := fun _ => .init,
      sent := [] }

/-- The request is handled after the login. -/
def lateCalls : List (Option Unit × Race Unit) :=
  raceStart.calls (List.replicate 12 none ++ List.replicate 9 (some ()))

/-- The request is handled when the login has read its list, and has not yet set the routing key. -/
def crossingCalls : List (Option Unit × Race Unit) :=
  raceStart.calls (List.replicate 5 none ++ List.replicate 3 (some ()) ++ List.replicate 7 none)

theorem annDatabase_numbered : annDatabase.Numbered := ⟨fun _ h => (nomatch h), by decide⟩

/-- A state of the example is settled when both programs are over and the application is stored. -/
theorem race_settled {r : Race Unit}
    (h : r.login.done = true ∧ (r.requests ()).done = true ∧
      (applyListOf r.login.past).isSome = true ∧
      (r.fleet.database.applications.filter fun a => a.toUid = 8).length < 10 ∧
      (r.fleet.database.users.getUserInfo 7).isSome = true ∧
      (r.fleet.database.tables.friendApply (7, 8)).isSome = true) :
    r.Finished ∧ r.fleet.database.Few 8 ∧ (r.fleet.database.users.getUserInfo 7).isSome = true ∧
      (r.fleet.database.tables.friendApply (7, 8)).isSome = true := by
  obtain ⟨hlogin, hrequest, hlist, hfew, huser, hrow⟩ := h
  refine ⟨⟨FleetTask.done_iff.mp hlogin, ?_, hlist⟩, hfew, huser, hrow⟩
  rintro ⟨⟩
  exact FleetTask.done_iff.mp hrequest

/-- The application that comes too late for the list finds the user. -/
theorem never_missed_late : (final raceStart lateCalls).Late 7 ∧
    ((final raceStart lateCalls).InReply raceMessages 7 ∨
      (final raceStart lateCalls).Notified raceMessages 7) := by
  have hrun := Race.calls_run raceStart (List.replicate 12 none ++ List.replicate 9 (some ()))
  have hpublished : Each Race.Step raceStart (fun _ r l => l.isSome = true →
      r.fleet.redis.get (ipKey 8) = some s1.val ∧ (r.fleet.proc s1).uidToSession 8 = some 1)
      lateCalls := hrun.each_iff_along.mpr (by decide +kernel)
  have hlist : applyListOf (final raceStart lateCalls).login.past = some [] := by decide +kernel
  obtain ⟨hdone, hfew, huser, hrow⟩ :=
    race_settled (r := final raceStart lateCalls) (by decide +kernel)
  refine ⟨⟨[], hlist, by simp⟩, Race.never_missed hrun
    ⟨annDatabase_numbered.ids, annDatabase_numbered.next⟩ ?_ hdone hfew huser hrow⟩
  rintro pre r l r' hr hp i rfl - o k -
  obtain ⟨hroute, hsession⟩ := hpublished pre r _ r' hr hp rfl
  exact ⟨fun _ => hroute, fun _ => hsession⟩

/-- The application is stored after the login has read its list, and the user is looked for before the
login has set the routing key. -/
theorem never_missed_fails : ¬ ∀ (J : JsonCpp) (pools : Pools) (ι : Type) (_ : DecidableEq ι)
    (m : RaceMessages J pools ι) (f : Fleet) (tr : List (Option ι × Race ι)) (r : Race ι),
    Run Race.Step (.start m f) tr r → f.database.Numbered → r.Finished → r.fleet.database.Few m.user →
    ∀ uid, (r.fleet.database.users.getUserInfo uid).isSome →
      (r.fleet.database.tables.friendApply (uid, m.user)).isSome →
      r.InReply m uid ∨ r.Notified m uid := by
  intro h
  have hrun := Race.calls_run raceStart
    (List.replicate 5 none ++ List.replicate 3 (some ()) ++ List.replicate 7 none)
  have hsent : ∀ d ∈ (final raceStart crossingCalls).fleet.sent,
      d.msgid ≠ MsgIds.notifyAddFriendReq.id ∧
        ¬ (JsonCpp.quote (lit "apply_list")) <:+: d.msg := by decide +kernel
  obtain ⟨hdone, hfew, huser, hrow⟩ :=
    race_settled (r := final raceStart crossingCalls) (by decide +kernel)
  rcases h _ _ Unit _ raceMessages _ _ _ hrun
    ⟨annDatabase_numbered.ids, annDatabase_numbered.next⟩ hdone hfew 7 huser hrow with
    ⟨y, elems, hmem, hlist, -⟩ | ⟨x, hmem, -⟩
  · refine (hsent _ hmem).2 ?_
    have hne : y.lookup (lit "apply_list") ≠ .null := by simp [hlist]
    exact (JsonCpp.quote_infix_styledText 0 hne).trans List.infix_append_left
  · exact (hsent _ hmem).1 rfl

end ChatServer
