import ChatServer.SqlFaults
import ChatServer.Location

/-!
# The alias that an acceptance shows

The reply to the user who accepts shows the alias of the request, the notification of the applicant the
one that is read from `friend` after the insertions. `INSERT IGNORE` keeps an older row, so the reply
shows the alias that the list of friends gives only if there was none, or one with the same alias
(`aliases_shown_iff`).
-/

namespace ChatServer

open Interaction Transition Prog Handler Bytes Function LogicSystem

/-! ## What a user is shown -/

namespace Database

/-- What `getFriendList` lists (`call_getFriendList`). -/
def friendList (db : Database) (uid : Int) : List UserInfo := (db.friendRows uid).filterMap db.friendEntry

/-- The alias is the one that the list of the user's friends gives for another user, who is listed if the
database knows the user. -/
structure GivesAlias (db : Database) (uid friend_id : Int) (alias_name : Json) : Prop where
  agrees : ∀ info ∈ db.friendList uid, info.uid = friend_id → alias_name = .str info.aliasName
  listed : (db.users.getUserInfo friend_id).isSome → ∃ info ∈ db.friendList uid, info.uid = friend_id

variable {db : Database} {uid friend_id : Int} {kept : Bytes} {alias_name : Json}

/-- The alias in the list is that of the row of `friend`. -/
theorem givesAlias_iff (h : db.tables.friend (uid, friend_id) = some kept) :
    db.GivesAlias uid friend_id alias_name ↔
      ((db.users.getUserInfo friend_id).isSome → alias_name = .str kept) := by
  have hentry : ∀ info, info ∈ db.friendList uid ∧ info.uid = friend_id ↔
      ∃ base, db.users.getUserInfo friend_id = some base ∧ { base with aliasName := kept } = info := by
    intro info
    unfold friendList friendEntry
    simp only [List.mem_filterMap, mem_friendRows, Option.map_eq_some_iff]
    constructor
    · rintro ⟨⟨⟨key, found⟩, hrow, base, hbase, rfl⟩, huid⟩
      obtain rfl : key = friend_id := (UserTable.getUserInfo_uid hbase).1.symm.trans huid
      obtain rfl : kept = found := Option.some.inj (h.symm.trans hrow)
      exact ⟨base, hbase, rfl⟩
    · rintro ⟨base, hbase, rfl⟩
      exact ⟨⟨(friend_id, kept), h, base, hbase, rfl⟩, (UserTable.getUserInfo_uid hbase).1⟩
  constructor
  · rintro ⟨hagrees, hlisted⟩ hsome
    obtain ⟨info, hinfo, huid⟩ := hlisted hsome
    obtain ⟨base, -, rfl⟩ := (hentry info).mp ⟨hinfo, huid⟩
    exact hagrees _ hinfo huid
  · intro hkept
    refine ⟨?_, ?_⟩
    · intro info hinfo huid
      obtain ⟨base, hbase, rfl⟩ := (hentry info).mp ⟨hinfo, huid⟩
      exact hkept (by rw [hbase]; rfl)
    · intro hsome
      obtain ⟨base, hbase⟩ := Option.isSome_iff_exists.mp hsome
      obtain ⟨hinfo, huid⟩ := (hentry _).mpr ⟨base, hbase, rfl⟩
      exact ⟨_, hinfo, huid⟩

end Database

/-! ## The database and what is sent -/

/-- The calls on the database are carried out, and what is given to `send` is recorded. -/
def Database.sending (o : ServerName × Call) (x : Database × List Outbound) :
    Option (o.2.Resp × (Database × List Outbound)) :=
  match x.1.call o.2 with
  | some y => some (y.1, (y.2, x.2))
  | none =>
    match o with
    | (T, .send s msg msgid) =>
      some ((), (x.1, x.2 ++ [{ server := T, session := s, msg := msg, msgid := msgid }]))
    | _ => none

section Wp

variable {α β : Type} {J : JsonCpp} {pools : Pools} {S : ServerName}
  {post : Except Exn β → Database × List Outbound → Prop} {db : Database} {sent : List Outbound}
  {x : Database × List Outbound}

theorem wp_place_bind {h : Handler α} {k : α → Handler β}
    {mid : Except Exn α → Database × List Outbound → Prop}
    (hh : (place J pools S h.run).Wp Database.sending mid x)
    (hok : ∀ a x, mid (.ok a) x → (place J pools S (k a).run).Wp Database.sending post x)
    (herr : ∀ e x, mid (.error e) x → post (.error e) x) :
    (place J pools S (h >>= k).run).Wp Database.sending post x := by
  rw [ExceptT.run_bind, place_bind]
  refine Wp.bind hh ?_
  intro r x hr
  rcases r with e | a
  · exact herr e x hr
  · exact hok a x hr

theorem wp_place_lift {e : Except Exn α} {k : α → Handler β}
    (hok : ∀ a, e = .ok a → (place J pools S (k a).run).Wp Database.sending post x)
    (herr : ∀ e', e = .error e' → post (.error e') x) :
    (place J pools S ((liftM e : Handler α) >>= k).run).Wp Database.sending post x := by
  rcases e with e' | a
  · exact herr e' rfl
  · exact hok a rfl

/-- A call that is made at the server itself. -/
theorem wp_place_here {c : Call} {k : c.Resp → Handler β}
    (hhere : carry J pools S c = perform (S := located) (S, c))
    (h : (Prog.call (S := located) (S, c) fun r => place J pools S (k r).run).Wp Database.sending post x) :
    (place J pools S (ask c >>= k).run).Wp Database.sending post x := by
  show (carry J pools S c >>= fun r => place J pools S (k r).run).Wp Database.sending post x
  rw [hhere]
  exact h

/-- A call on the database. -/
theorem wp_place_database {c : Call} {k : c.Resp → Handler β} {y : c.Resp × Database}
    (hhere : carry J pools S c = perform (S := located) (S, c)) (hy : db.call c = some y)
    (hk : (place J pools S (k y.1).run).Wp Database.sending post (y.2, sent)) :
    (place J pools S (ask c >>= k).run).Wp Database.sending post (db, sent) := by
  have hanswer : Database.sending (S, c) (db, sent) = some (y.1, (y.2, sent)) := by
    unfold Database.sending
    dsimp only
    rw [hy]
  exact wp_place_here hhere (wp_answered hanswer hk)

/-- A call that is not on the database, and sends nothing. -/
theorem wp_place_other {c : Call} {k : c.Resp → Handler β}
    (hhere : carry J pools S c = perform (S := located) (S, c)) (hother : Database.sending (S, c) x = none)
    (hk : ∀ r, (place J pools S (k r).run).Wp Database.sending post x) :
    (place J pools S (ask c >>= k).run).Wp Database.sending post x :=
  wp_place_here hhere (wp_other hother hk)

/-- Sending. -/
theorem wp_place_send {s : SessId} {msg : Bytes} {msgid : Int} {k : Unit → Handler β}
    (hk : (place J pools S (k ()).run).Wp Database.sending post
      (db, sent ++ [{ server := S, session := s, msg := msg, msgid := msgid }])) :
    (place J pools S (ask (.send s msg msgid) >>= k).run).Wp Database.sending post (db, sent) :=
  wp_place_here rfl (wp_answered (r := ()) rfl hk)

/-- A remote call leaves what the peer does, if the peer is in the pool. -/
theorem wp_notify {ρ : Type} {server_ip : Bytes} {serve : Handler ρ} {rsp : ρ} {setError defer : ρ → ρ}
    {Q : Database × List Outbound → Prop} (hlocal : serve.run.Uses fun c : Call => c.isLocal = true)
    (hx : Q x) (hserve : ∀ T, (place J pools T serve.run).Wp Database.sending (fun _ x' => Q x') x) :
    (Remote.notify pools S server_ip serve.run rsp setError defer).Wp Database.sending
      (fun _ x' => Q x') x := by
  unfold Remote.notify
  rcases pools S server_ip with _ | T
  · exact hx
  · dsimp only
    rw [locate_eq_place J pools T hlocal]
    refine Wp.bind (hserve T) ?_
    rintro (e | reply) x' hx'
    · exact hx'
    · exact hx'

end Wp

/-! ## The notification -/

/-- The alias of a notification, if it tells of a success. -/
def TellsAlias (J : JsonCpp) (alias_name : Bytes) (d : Outbound) : Prop :=
  ∃ notify, d.msg = J.toStyledString notify ∧
    (notify.lookup (lit "error") = .int ErrorCodes.success.code →
      notify.lookup (lit "alias_name") = .str alias_name)

/-- Nothing is changed, and every notification has the alias. -/
def Notified (J : JsonCpp) (alias_name : Bytes) (db : Database) (x : Database × List Outbound) : Prop :=
  x.1 = db ∧ ∀ d ∈ x.2, TellsAlias J alias_name d

section Handlers

variable {J : JsonCpp} {pools : Pools} {S T : ServerName} {db : Database} {sent : List Outbound}

theorem wp_cacheProfile (base_key name cache_json : Bytes) (x : Database × List Outbound) :
    (place J pools S (cacheProfile base_key name cache_json).run).Wp Database.sending
      (fun r x' => r = .ok () ∧ x' = x) x := by
  unfold cacheProfile
  refine wp_place_other rfl rfl ?_
  intro _
  split
  · exact ⟨rfl, rfl⟩
  · refine wp_place_other rfl rfl ?_
    intro _
    exact ⟨rfl, rfl⟩

/-- The worker finds a user whom the database knows. -/
theorem wp_getBaseInfo (uid : Int) (sent : List Outbound) :
    (place J pools S (getBaseInfo J (baseKey uid) uid).run).Wp Database.sending
      (fun r x => x = (db, sent) ∧ ∃ user_info, r = .ok user_info ∧
        user_info.isSome = (db.users.getUserInfo uid).isSome) (db, sent) := by
  unfold getBaseInfo
  refine wp_place_database rfl (Database.call_getUserInfo db uid) ?_
  rcases db.users.getUserInfo uid with _ | user
  · exact ⟨rfl, none, rfl, rfl⟩
  · dsimp only
    have hcache : ∀ name text, (place J pools S (cacheProfile (baseKey uid) name text).run).Wp
        Database.sending (fun r x' => r = .ok () ∧ x' = (db, sent)) (db, sent) := by
      intro name text
      exact wp_cacheProfile (baseKey uid) name text (db, sent)
    refine wp_place_bind (hcache _ _) ?_ ?_
    · rintro _ x ⟨-, rfl⟩
      exact ⟨rfl, _, rfl, rfl⟩
    · rintro e x ⟨h, -⟩
      cases h

/-- The chat service may find a profile in the cache. -/
theorem wp_peer_getBaseInfo (uid : Int) (sent : List Outbound) :
    (place J pools T (ChatServiceImpl.getBaseInfo J (baseKey uid) uid).run).Wp Database.sending
      (fun _ x => x = (db, sent)) (db, sent) := by
  unfold ChatServiceImpl.getBaseInfo
  refine wp_place_other rfl rfl ?_
  intro info_str
  rcases info_str with _ | info_str
  · refine wp_place_database rfl (Database.call_getUserInfo db uid) ?_
    rcases db.users.getUserInfo uid with _ | user
    · rfl
    · refine wp_place_other rfl rfl ?_
      intro _
      rfl
  · refine wp_place_lift ?_ ?_
    · intro user_info _
      rfl
    · intro e _
      rfl

theorem tellsAlias_authFriendNotify {d : Outbound} {applicant_uid accepter_uid : Int} {alias_name : Bytes}
    {peer_info : Option UserInfo} (h : d.msg = J.toStyledString
      (authFriendNotify applicant_uid accepter_uid alias_name peer_info)) : TellsAlias J alias_name d := by
  refine ⟨_, h, ?_⟩
  rcases peer_info with _ | peer_info
  · rintro ⟨⟩
  · intro _
    rfl

theorem tellsAlias_peer {d : Outbound} {request : AuthFriendReq} {alias_name : Bytes}
    {user_info : Option (UserInfo × Bytes)} (hinfo : ∀ y ∈ user_info, y.2 = alias_name)
    (h : d.msg = J.toStyledString (ChatServiceImpl.authFriendNotify request user_info)) :
    TellsAlias J alias_name d := by
  refine ⟨_, h, ?_⟩
  rcases user_info with _ | ⟨user_info, peer_alias⟩
  · rintro ⟨⟩
  · intro _
    obtain rfl : peer_alias = alias_name := hinfo _ rfl
    rfl

/-- The alias of a row that is there. -/
theorem call_getFriendAlias_of_row {uid friend_id : Int} {kept : Bytes}
    (h : db.tables.friend (uid, friend_id) = some kept) :
    db.call (.getFriendAlias uid friend_id) = some ((true, kept), db) := by
  rw [Database.call_getFriendAlias, h]

/-- The chat service of a peer reads the alias itself. -/
theorem wp_notifyAuthFriend {applicant_uid accepter_uid : Int} {kept : Bytes}
    (hkept : db.tables.friend (applicant_uid, accepter_uid) = some kept) :
    (place J pools T (ChatServiceImpl.notifyAuthFriend J
      { fromuid := accepter_uid, touid := applicant_uid }).run).Wp Database.sending
      (fun _ x => Notified J kept db x) (db, []) := by
  refine wp_place_other rfl rfl ?_
  intro session
  rcases session with _ | session
  · exact ⟨rfl, by simp⟩
  have hinfo : (place J pools T (ChatServiceImpl.peerInfo J
      { fromuid := accepter_uid, touid := applicant_uid }).run).Wp Database.sending
      (fun r x => x = (db, []) ∧ ∀ user_info, r = .ok user_info → ∀ y ∈ user_info, y.2 = kept)
      (db, []) := by
    refine wp_place_bind (wp_peer_getBaseInfo accepter_uid []) ?_ ?_
    · rintro user_info _ rfl
      rcases user_info with _ | user_info
      · exact ⟨rfl, by simp⟩
      · refine wp_place_database rfl (call_getFriendAlias_of_row hkept) ⟨rfl, ?_⟩
        rintro _ ⟨⟩ y ⟨⟩
        rfl
    · rintro e _ rfl
      exact ⟨rfl, by simp⟩
  refine wp_place_bind hinfo ?_ ?_
  · rintro user_info _ ⟨rfl, hy⟩
    refine wp_place_send ⟨rfl, ?_⟩
    intro d hd
    obtain rfl := List.mem_singleton.mp hd
    exact tellsAlias_peer (hy user_info rfl) rfl
  · rintro e _ ⟨rfl, -⟩
    exact ⟨rfl, by simp⟩

/-- The notification, on this server or on the applicant's. -/
theorem wp_routeAuthFriend {applicant_uid accepter_uid : Int} {kept : Bytes}
    (hkept : db.tables.friend (applicant_uid, accepter_uid) = some kept) :
    (place J pools S (routeAuthFriend J S applicant_uid accepter_uid kept).run).Wp Database.sending
      (fun r x => r = .ok () ∧ Notified J kept db x) (db, []) := by
  unfold routeAuthFriend
  refine wp_place_other rfl rfl ?_
  intro to_ip_value
  rcases to_ip_value with _ | to_ip_value
  · exact ⟨rfl, rfl, by simp⟩
  dsimp only
  split
  · refine wp_place_other rfl rfl ?_
    intro peer_session
    rcases peer_session with _ | peer_session
    · exact ⟨rfl, rfl, by simp⟩
    · refine wp_place_bind (wp_getBaseInfo accepter_uid []) ?_ ?_
      · rintro peer_info _ ⟨rfl, -⟩
        refine wp_answered (r := ()) rfl ⟨rfl, rfl, ?_⟩
        intro d hd
        obtain rfl := List.mem_singleton.mp hd
        exact tellsAlias_authFriendNotify rfl
      · rintro e _ ⟨-, _, h, -⟩
        cases h
  · show (Remote.notifyAuthFriend J pools S to_ip_value _ >>= fun _ =>
      place J pools S (Prog.ret (Except.ok ()))).Wp Database.sending _ _
    refine Wp.bind (wp_notify (Q := Notified J kept db) (ChatServiceImpl.notifyAuthFriend_local _)
      ⟨rfl, by simp⟩ fun T => wp_notifyAuthFriend hkept) ?_
    intro _ x hx
    exact ⟨rfl, hx⟩

/-- The database after an acceptance. -/
def Database.accepted (db : Database) (applicant_uid accepter_uid : Int) (alias_name : Bytes) : Database :=
  db.applyAll ((FriendRequest.accept applicant_uid accepter_uid alias_name).statements db.tables)

/-- The rows of `friend` between the two after an acceptance: an older row stays. -/
theorem accepted_friend (db : Database) (alias_name : Bytes) {applicant_uid accepter_uid x y : Int}
    (h : (FriendRequest.accept applicant_uid accepter_uid alias_name).Between x y) :
    (db.accepted applicant_uid accepter_uid alias_name).tables.friend (x, y) =
      some ((db.tables.friend (x, y)).getD
        ((FriendRequest.accept applicant_uid accepter_uid alias_name).newAlias db.tables x)) := by
  unfold Database.accepted
  rw [applyAll_tables]
  exact carryOut_friend h

theorem call_applyAlias_database (db : Database) (from_uid to_uid : Int) : ∃ found,
    db.call (.getFriendApplyAlias from_uid to_uid) = some ((found,
      ((db.tables.friendApply (from_uid, to_uid)).map ApplyRow.aliasName).getD []), db) := by
  rw [Database.call_getFriendApplyAlias]
  rcases db.tables.friendApply (from_uid, to_uid) with _ | row
  · exact ⟨false, rfl⟩
  · exact ⟨true, rfl⟩

/-- **What an acceptance replies, stores and sends.** -/
theorem wp_acceptFriend (applicant_uid accepter_uid : Int) (alias_name : Bytes) :
    (place J pools S (acceptFriend J S applicant_uid accepter_uid alias_name).run).Wp Database.sending
      (fun r x => ∃ user_info kept, r = .ok (authFriendReply applicant_uid alias_name user_info) ∧
        user_info.isSome = (db.users.getUserInfo applicant_uid).isSome ∧
        (db.accepted applicant_uid accepter_uid alias_name).tables.friend (applicant_uid, accepter_uid) =
          some kept ∧
        Notified J kept (db.accepted applicant_uid accepter_uid alias_name) x) (db, []) := by
  unfold acceptFriend
  refine wp_place_bind (wp_getBaseInfo applicant_uid []) ?_ ?_
  · rintro user_info _ ⟨rfl, _, ⟨⟩, hfound⟩
    obtain ⟨found, happly⟩ := call_applyAlias_database db applicant_uid accepter_uid
    refine wp_place_database rfl happly ?_
    refine wp_place_database rfl
      (Database.call_authFriendApply db applicant_uid accepter_uid).choose_spec ?_
    refine wp_place_database rfl
      (Database.call_addFriend _ applicant_uid accepter_uid _ alias_name).choose_spec ?_
    show (place J pools S (ask (.getFriendAlias applicant_uid accepter_uid) >>= _).run).Wp
      Database.sending _ (db.accepted applicant_uid accepter_uid alias_name, [])
    have hbetween : (FriendRequest.accept applicant_uid accepter_uid alias_name).Between
        applicant_uid accepter_uid := Or.inl ⟨rfl, rfl⟩
    have hkept := accepted_friend db alias_name hbetween
    refine wp_place_database rfl (call_getFriendAlias_of_row hkept) ?_
    refine wp_place_bind (wp_routeAuthFriend hkept) ?_ ?_
    · rintro _ x ⟨-, hx⟩
      exact ⟨user_info, _, rfl, hfound, hkept, hx⟩
    · rintro e _ ⟨h, -⟩
      cases h
  · rintro e _ ⟨-, _, h, -⟩
    cases h

end Handlers

/-! ## When the alias that is shown is the one that is kept -/

/-- The acceptance that a message is, if it is one, shows the aliases that are kept: the reply, if it tells
of a success, and the notification, if it has one, have the aliases that the lists of friends give
afterwards. No call on the database fails; nothing is assumed about the other answers, at this server or at
a peer. What is replied is sent (`dispatch_friend`). -/
def ShowsKeptAlias (J : JsonCpp) (pools : Pools) (S : ServerName) (db : Database) (node : LogicNode) : Prop :=
  ∀ applicant_uid accepter_uid alias_name,
    node.friendRequest J = some (.accept applicant_uid accepter_uid alias_name) →
    ∀ tr reply db' sent,
      Exec (Answered Database.sending) (place J pools S (friendAnswer J S node.recvNode).run) (db, []) tr
        (.ok reply) (db', sent) →
      reply.lookup (lit "error") = .int ErrorCodes.success.code →
      db'.GivesAlias accepter_uid applicant_uid (reply.lookup (lit "alias_name")) ∧
      ∀ d ∈ sent, d.msgid = MsgIds.notifyAuthFriendReq.id → ∃ notify,
        d.msg = J.toStyledString notify ∧
        (notify.lookup (lit "error") = .int ErrorCodes.success.code →
          db'.GivesAlias applicant_uid accepter_uid (notify.lookup (lit "alias_name")))

/-- The accepter has no row for the applicant yet, or one with this alias. An application to oneself is
accepted with its own alias. -/
def Database.FreeAlias (db : Database) (applicant_uid accepter_uid : Int) (alias_name : Bytes) : Prop :=
  match db.tables.friend (accepter_uid, applicant_uid) with
  | some kept => kept = alias_name
  | none => accepter_uid = applicant_uid →
    ((db.tables.friendApply (applicant_uid, accepter_uid)).map ApplyRow.aliasName).getD [] = alias_name

section Shown

variable {J : JsonCpp} {pools : Pools} {S : ServerName} {db : Database} {node : LogicNode}
  {applicant_uid accepter_uid : Int} {alias_name : Bytes}

theorem freeAlias_iff : db.FreeAlias applicant_uid accepter_uid alias_name ↔
    (db.tables.friend (accepter_uid, applicant_uid)).getD
      ((FriendRequest.accept applicant_uid accepter_uid alias_name).newAlias db.tables accepter_uid) =
        alias_name := by
  unfold Database.FreeAlias FriendRequest.newAlias
  rcases db.tables.friend (accepter_uid, applicant_uid) with _ | kept
  · by_cases hself : accepter_uid = applicant_uid
    · simp [hself]
    · simp [hself]
  · simp

theorem authFriendReply_alias (applicant_uid : Int) (alias_name : Bytes) (user_info : UserInfo) :
    (authFriendReply applicant_uid alias_name (some user_info)).lookup (lit "alias_name") =
      .str alias_name := rfl

/-- The reply shows the alias that the accepter's list gives. -/
theorem givesAlias_reply_iff (h : (db.users.getUserInfo applicant_uid).isSome) :
    (db.accepted applicant_uid accepter_uid alias_name).GivesAlias accepter_uid applicant_uid
      (.str alias_name) ↔ db.FreeAlias applicant_uid accepter_uid alias_name := by
  have hbetween : (FriendRequest.accept applicant_uid accepter_uid alias_name).Between
      accepter_uid applicant_uid := Or.inr ⟨rfl, rfl⟩
  rw [Database.givesAlias_iff (accepted_friend db alias_name hbetween), freeAlias_iff]
  have husers : (db.accepted applicant_uid accepter_uid alias_name).users = db.users := applyAll_users _
  rw [husers]
  constructor
  · intro hshown
    exact (Json.str.inj (hshown h)).symm
  · intro hkept _
    rw [hkept]

/-- The execution of an acceptance that is answered with a success. -/
theorem exec_accept (hq : node.friendRequest J = some (.accept applicant_uid accepter_uid alias_name))
    {tr : List (Event located)} {r : Except Exn Json} {db' : Database} {sent : List Outbound}
    (h : Exec (Answered Database.sending) (place J pools S (friendAnswer J S node.recvNode).run) (db, []) tr
      r (db', sent)) :
    db' = db.accepted applicant_uid accepter_uid alias_name ∧
    ∃ user_info kept, r = .ok (authFriendReply applicant_uid alias_name user_info) ∧
      user_info.isSome = (db.users.getUserInfo applicant_uid).isSome ∧
      db'.tables.friend (applicant_uid, accepter_uid) = some kept ∧
      ∀ d ∈ sent, TellsAlias J kept d := by
  have hid : node.recvNode.msgId ≠ MsgIds.addFriendReq.id := by
    intro hid
    obtain ⟨_, _, _, _, hadd, -⟩ := friendAnswer_add S hid hq
    cases hadd
  obtain ⟨-, _, _, _, hsame, hanswer⟩ := friendAnswer_accept S hid hq
  obtain ⟨rfl, rfl, rfl⟩ := FriendRequest.accept.inj hsame
  rw [hanswer] at h
  obtain ⟨user_info, kept, hr, hfound, hkept, rfl, hsent⟩ := h.wp (wp_acceptFriend ..)
  exact ⟨rfl, user_info, kept, hr, hfound, hkept, hsent⟩

/-- Nothing outside the database answers. -/
theorem exists_exec (pools : Pools) (node : LogicNode) (db : Database) : ∃ tr r x,
    Exec (Answered Database.sending) (place J pools S (friendAnswer J S node.recvNode).run) (db, []) tr r
      x := by
  have hanswered : ∀ (o : ServerName × Call) x, Answered (S := located) Database.sending
      ⟨o, (respond (S := located) Database.sending (fun o => World.noAnswer o.2) o x).1⟩ x
      (respond (S := located) Database.sending (fun o => World.noAnswer o.2) o x).2 :=
    answered_respond (S := located) (fun o : ServerName × Call => World.noAnswer o.2)
  obtain ⟨tr, hexec⟩ := exec_run (S := located) hanswered
    (place J pools S (friendAnswer J S node.recvNode).run) (db, [])
  exact ⟨tr, _, _, hexec⟩

/-- An acceptance that shows the alias that is kept finds no other one. -/
theorem ShowsKeptAlias.freeAlias (h : ShowsKeptAlias J pools S db node)
    (hq : node.friendRequest J = some (.accept applicant_uid accepter_uid alias_name))
    (huser : (db.users.getUserInfo applicant_uid).isSome) :
    db.FreeAlias applicant_uid accepter_uid alias_name := by
  obtain ⟨tr, r, ⟨db', sent⟩, hexec⟩ := exists_exec (J := J) (S := S) pools node db
  obtain ⟨rfl, user_info, kept, rfl, hfound, -, -⟩ := exec_accept hq hexec
  rw [huser] at hfound
  obtain ⟨user, rfl⟩ := Option.isSome_iff_exists.mp hfound
  obtain ⟨hreply, -⟩ := h _ _ _ hq tr _ _ sent hexec ((authFriendReply_error ..).mpr rfl)
  rw [authFriendReply_alias] at hreply
  exact (givesAlias_reply_iff huser).mp hreply

/-- **When an acceptance shows the alias that is kept**: exactly if the accepter has no other alias for the
applicant already. -/
theorem aliases_shown_iff (J : JsonCpp) (pools : Pools) (S : ServerName) (db : Database) (node : LogicNode) :
    ShowsKeptAlias J pools S db node ↔ ∀ applicant_uid accepter_uid alias_name,
      node.friendRequest J = some (.accept applicant_uid accepter_uid alias_name) →
      (db.users.getUserInfo applicant_uid).isSome → db.FreeAlias applicant_uid accepter_uid alias_name := by
  constructor
  · intro h applicant_uid accepter_uid alias_name hq huser
    exact h.freeAlias hq huser
  · intro h applicant_uid accepter_uid alias_name hq tr reply db' sent hexec hsuccess
    obtain ⟨rfl, user_info, kept, hr, hfound, hkept, hsent⟩ := exec_accept hq hexec
    obtain rfl := Except.ok.inj hr
    have hsome := (authFriendReply_error applicant_uid alias_name user_info).mp hsuccess
    obtain ⟨user, rfl⟩ := Option.isSome_iff_exists.mp hsome
    have huser := hfound.symm.trans hsome
    refine ⟨?_, ?_⟩
    · rw [authFriendReply_alias]
      exact (givesAlias_reply_iff huser).mpr (h _ _ _ hq huser)
    · -- the alias of the notification was read after the insertions
      intro d hd _
      obtain ⟨notify, hmsg, halias⟩ := hsent d hd
      refine ⟨notify, hmsg, ?_⟩
      intro hnotified
      rw [halias hnotified]
      exact (Database.givesAlias_iff hkept).mpr fun _ => rfl

end Shown

/-! ### Accepting twice -/

/-- The user 8 accepts again, with another alias. -/
def renameText : Bytes := lit "\x7b\"alias_name\":\"b\",\"fromuid\":7,\"touid\":8\x7d"

def renames : LogicNode := .received 1 .authFriendReq renameText

def renameTexts : JsonCpp :=
  .ofTable
    [(applyText, .obj [(lit "alias_name", .str (lit "a")), (lit "apply_name", .str (lit "n")),
      (lit "touid", .int 8), (lit "uid", .int 7)]),
     (acceptText, .obj [(lit "alias_name", .str (lit "a")), (lit "fromuid", .int 7), (lit "touid", .int 8)]),
     (renameText, .obj [(lit "alias_name", .str (lit "b")), (lit "fromuid", .int 7), (lit "touid", .int 8)])]

/-- The user 7 applies, and the user 8 accepts. -/
def befriendingRun : List (LogicNode × Database) :=
  follow (fun node db => some (node, Database.handled renameTexts s1 node db)) pairDatabase
    [applies, accepts]

/-- The second acceptance is answered with its own alias, and the first one stays. -/
theorem aliases_shown_fails : ¬ ∀ (J : JsonCpp) (pools : Pools) (S : ServerName) (db₀ db : Database)
    (tr : List (LogicNode × Database)) (node : LogicNode), Run (HistoryStep J) db₀ tr db →
    db₀.tables = Db.empty → ShowsKeptAlias J pools S db node := by
  intro h
  have hrun : Run (HistoryStep renameTexts) pairDatabase befriendingRun
      (final pairDatabase befriendingRun) := by
    refine follow_run ?_ _
    rintro node - db _ _ ⟨⟩
    exact Database.handled_step ..
  have hq : renames.friendRequest renameTexts = some (FriendRequest.accept 7 8 (lit "b")) := by
    decide +kernel
  have huser : ((final pairDatabase befriendingRun).users.getUserInfo 7).isSome := by decide +kernel
  have hkept : (final pairDatabase befriendingRun).tables.friend (8, 7) = some (lit "a") := by
    decide +kernel
  have hfree := (h renameTexts (fun _ _ => none) s1 _ _ _ renames hrun rfl).freeAlias hq huser
  unfold Database.FreeAlias at hfree
  rw [hkept] at hfree
  exact absurd hfree (by decide)

end ChatServer
