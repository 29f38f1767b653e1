import ChatServer.Cluster
import ChatServer.Database

/-!
# The profile cache agrees with the database

Profiles are kept in Redis under `ubaseinfo_<k>`, where `k` may be a text that a client has sent, and
under `unameinfo_<n>`. Four functions store them, in two styles of JSON, and three read them. In every
run, on any number of servers, what is stored is what the table `user` has (`cache_coherent`); so it
makes no difference that `LogicSystem::getBaseInfo` asks the database first and
`ChatServiceImpl::getBaseInfo` the cache.
-/

namespace ChatServer

open Interaction Transition Prog Handler Bytes Function Decimal Word

/-! ## Cached profiles -/

/-- What the library has to do with a value: both writers write it as a text without NUL bytes that the
reader reads back. -/
structure JsonCpp.ReadsBack (J : JsonCpp) (v : Json) : Prop where
  styled : J.parse (J.toStyledString v) = (true, v)
  styledText : (0 : UInt8) ∉ J.toStyledString v
  fast : J.parse (J.fastWrite v) = (true, v)
  fastText : (0 : UInt8) ∉ J.fastWrite v

/-- The library reads back the profiles of all users. -/
def JsonCpp.ReadsBackAll (J : JsonCpp) (users : UserTable) : Prop :=
  ∀ uid user, users.getUserInfo uid = some user → J.ReadsBack (Json.null.setProfile user)

/-- What the readers make of a cached text. -/
def cachedProfile (J : JsonCpp) (info_str : Bytes) : Except Exn UserInfo :=
  (J.parse info_str).2.getProfile J

/-- A profile is read as it was stored. -/
theorem getProfile_setProfile (J : JsonCpp) {user : UserInfo} (huid : IsInt user.uid)
    (hsex : IsInt user.sex) (hback : user.back = []) (halias : user.aliasName = []) :
    (Json.null.setProfile user).getProfile J = .ok user := by
  have hu : (Json.null.setProfile user).getInt "uid" = .ok user.uid := if_pos huid
  have hs : (Json.null.setProfile user).getInt "sex" = .ok user.sex := if_pos hsex
  have hname : (Json.null.setProfile user).getString J "name" = .ok user.name := rfl
  have hpwd : (Json.null.setProfile user).getString J "pwd" = .ok user.pwd := rfl
  have hemail : (Json.null.setProfile user).getString J "email" = .ok user.email := rfl
  have hnick : (Json.null.setProfile user).getString J "nick" = .ok user.nick := rfl
  have hdesc : (Json.null.setProfile user).getString J "desc" = .ok user.desc := rfl
  have hicon : (Json.null.setProfile user).getString J "icon" = .ok user.icon := rfl
  unfold Json.getProfile
  rw [hu, hs, hname, hpwd, hemail, hnick, hdesc, hicon]
  obtain ⟨name, pwd, uid, email, nick, desc, sex, icon, back, aliasName⟩ := user
  dsimp only at hback halias
  subst hback halias
  rfl

section Texts

variable {J : JsonCpp} {users : UserTable} {uid : Int} {user : UserInfo}

theorem cachedProfile_of_parse (hu : users.getUserInfo uid = some user) {text : Bytes}
    (hparse : J.parse text = (true, Json.null.setProfile user)) (hnul : (0 : UInt8) ∉ text) :
    cachedProfile J (cstr text) = .ok user := by
  have hnamed := UserTable.named hu
  obtain ⟨rfl, hint⟩ := UserTable.getUserInfo_uid hu
  unfold cachedProfile
  rw [cstr_eq_self hnul, hparse]
  exact getProfile_setProfile J hint hnamed.sex hnamed.back hnamed.aliasName

theorem cachedProfile_fastWrite (hJ : J.ReadsBackAll users) (hu : users.getUserInfo uid = some user) :
    cachedProfile J (cstr (J.fastWrite (Json.null.setProfile user))) = .ok user :=
  cachedProfile_of_parse hu (hJ uid user hu).fast (hJ uid user hu).fastText

theorem cachedProfile_styled (hJ : J.ReadsBackAll users) (hu : users.getUserInfo uid = some user) :
    cachedProfile J (cstr (J.toStyledString (Json.null.setProfile user))) = .ok user :=
  cachedProfile_of_parse hu (hJ uid user hu).styled (hJ uid user hu).styledText

end Texts

/-! ## The invariant -/

/-- The cached profiles are those of the table. -/
structure Redis.Coherent (J : JsonCpp) (users : UserTable) (r : Redis) : Prop where
  base : ∀ k v, r.str (RedisPrefix.userBaseInfo ++ k) = some v →
    ∃ uid user, stoi k = .ok uid ∧ users.getUserInfo uid = some user ∧
      cachedProfile J (cstr v) = .ok user
  name : ∀ n v, r.str (RedisPrefix.userNameInfo ++ n) = some v →
    ∃ user, users.getUserInfoByName n = some user ∧ cachedProfile J (cstr v) = .ok user

/-- The values that may be stored under a key. -/
inductive StoresProfile (J : JsonCpp) (users : UserTable) : Bytes → Bytes → Prop where
  | base {k value : Bytes} {uid : Int} {user : UserInfo} : (0 : UInt8) ∉ k → stoi k = .ok uid →
      users.getUserInfo uid = some user → cachedProfile J (cstr value) = .ok user →
      StoresProfile J users (RedisPrefix.userBaseInfo ++ k) value
  | name {value : Bytes} {uid : Int} {user : UserInfo} :
      users.getUserInfo uid = some user → cachedProfile J (cstr value) = .ok user →
      StoresProfile J users (RedisPrefix.userNameInfo ++ user.name) value
  | other {key value : Bytes} : ¬ RedisPrefix.userBaseInfo <+: cstr key →
      ¬ RedisPrefix.userNameInfo <+: cstr key → StoresProfile J users key value

theorem userBaseInfo_ne_userNameInfo (a b : Bytes) :
    RedisPrefix.userBaseInfo ++ a ≠ RedisPrefix.userNameInfo ++ b := by
  intro h
  have hsecond : some (98 : UInt8) = some 110 := congrArg (fun x : Bytes => x[1]?) h
  exact absurd hsecond (by decide)

theorem cstr_userBaseInfo {k : Bytes} (h : (0 : UInt8) ∉ k) :
    cstr (RedisPrefix.userBaseInfo ++ k) = RedisPrefix.userBaseInfo ++ k := by
  refine cstr_eq_self ?_
  have hp : (0 : UInt8) ∉ RedisPrefix.userBaseInfo := by decide
  simp [hp, h]

theorem cstr_userNameInfo {n : Bytes} (h : (0 : UInt8) ∉ n) :
    cstr (RedisPrefix.userNameInfo ++ n) = RedisPrefix.userNameInfo ++ n := by
  refine cstr_eq_self ?_
  have hp : (0 : UInt8) ∉ RedisPrefix.userNameInfo := by decide
  simp [hp, h]

section Keys

variable {J : JsonCpp} {users : UserTable} {r : Redis} {key value : Bytes}

/-- The entries of the two kinds after one of them is stored. -/
theorem Redis.Coherent.set (h : r.Coherent J users) (hs : StoresProfile J users key value) :
    (r.set key value).Coherent J users := by
  constructor
  · intro k v hv
    by_cases hk : RedisPrefix.userBaseInfo ++ k = cstr key
    · simp only [Redis.set, hk, update_self, Option.some.injEq] at hv
      subst hv
      rw [cstr_cstr]
      cases hs with
      | @base k' _ uid user hnul hstoi hu hcached =>
        rw [cstr_userBaseInfo hnul, List.append_cancel_left_eq] at hk
        subst hk
        exact ⟨uid, user, hstoi, hu, hcached⟩
      | name hu hcached =>
        rw [cstr_userNameInfo (UserTable.named hu).noNul] at hk
        exact absurd hk (userBaseInfo_ne_userNameInfo _ _)
      | other hbase _ => exact absurd (hk ▸ List.prefix_append _ _) hbase
    · simp only [Redis.set, update_of_ne hk] at hv
      exact h.base k v hv
  · intro n v hv
    by_cases hn : RedisPrefix.userNameInfo ++ n = cstr key
    · simp only [Redis.set, hn, update_self, Option.some.injEq] at hv
      subst hv
      rw [cstr_cstr]
      cases hs with
      | base hnul hstoi hu hcached =>
        rw [cstr_userBaseInfo hnul] at hn
        exact absurd hn.symm (userBaseInfo_ne_userNameInfo _ _)
      | @name _ uid user hu hcached =>
        rw [cstr_userNameInfo (UserTable.named hu).noNul, List.append_cancel_left_eq] at hn
        subst hn
        obtain ⟨row, hrow, -, rfl⟩ := UserTable.exists_row hu
        exact ⟨_, UserTable.getUserInfoByName_of_mem hrow, hcached⟩
      | other _ hname => exact absurd (hn ▸ List.prefix_append _ _) hname
    · simp only [Redis.set, update_of_ne hn] at hv
      exact h.name n v hv

/-- Coherence is about the entries of the two kinds only. -/
theorem Redis.Coherent.congr {r' : Redis} (h : r.Coherent J users)
    (hsame : ∀ key, RedisPrefix.userBaseInfo <+: key ∨ RedisPrefix.userNameInfo <+: key →
      r'.str key = r.str key) : r'.Coherent J users := by
  constructor
  · intro k v hv
    rw [hsame _ (Or.inl (List.prefix_append _ _))] at hv
    exact h.base k v hv
  · intro n v hv
    rw [hsame _ (Or.inr (List.prefix_append _ _))] at hv
    exact h.name n v hv

/-- What is cached under the key of a uid is the user's profile. -/
theorem Redis.Coherent.base_uid {uid : Int} {v : Bytes} (h : r.Coherent J users)
    (hv : r.str (baseKey uid) = some v) :
    ∃ user, users.getUserInfo uid = some user ∧ cachedProfile J (cstr v) = .ok user := by
  obtain ⟨k, user, hk, hu, hcached⟩ := h.base (renderInt uid) v hv
  have huid : k = uid := by
    by_cases hint : IsInt uid
    · rw [stoi_renderInt hint] at hk
      exact (Except.ok.inj hk).symm
    · simp [stoi, hint] at hk
  exact ⟨user, huid ▸ hu, hcached⟩

theorem storesProfile_ipKey (uid : Int) (value : Bytes) : StoresProfile J users (ipKey uid) value := by
  have hkey : cstr (ipKey uid) = ipKey uid := cstr_eq_self (zero_notMem_ipKey uid)
  refine .other ?_ ?_
  · intro h
    have hprefix := List.isPrefixOf_iff_prefix.mpr (hkey ▸ h)
    exact Bool.noConfusion ((show false = _ from rfl).trans hprefix)
  · intro h
    have hprefix := List.isPrefixOf_iff_prefix.mpr (hkey ▸ h)
    exact Bool.noConfusion ((show false = _ from rfl).trans hprefix)

end Keys

/-! ## Programs -/

/-- A lookup of a user is answered from the table; a lookup by name may find any user. -/
def UserTable.Answers (users : UserTable) : Event calls → Prop
  | ⟨.getUserInfo uid, r⟩ => r = users.getUserInfo uid
  | ⟨.getUserInfoByName _, r⟩ => ∀ user, r = some user → users.getUserInfo user.uid = some user
  | _ => True

/-- What the call may store. -/
def Call.Stores (J : JsonCpp) (users : UserTable) : Call → Prop
  | .set key value => StoresProfile J users key value
  | _ => True

/-- With lookups answered from the table, the program stores no other profiles. -/
abbrev Tidy {α : Type} (J : JsonCpp) (users : UserTable) (p : Io α) : Prop :=
  p.UsesGiven users.Answers fun c : Call => c.Stores J users

/-- A call that stores no string. -/
def Call.setsNothing : Call → Bool
  | .set _ _ => false
  | _ => true

/-- A program that stores no string. -/
abbrev SetsNothing {α : Type} (p : Io α) : Prop := p.Uses fun c : Call => c.setsNothing = true

theorem Call.ofSession.setsNothing {c : Call} (h : c.ofSession = true) : c.setsNothing = true := by
  cases c with
  | set _ _ => cases h
  | _ => rfl

theorem SetsNothing.tidy {α : Type} {p : Io α} (h : SetsNothing p) (J : JsonCpp) (users : UserTable) :
    Tidy J users p := by
  refine (h.mono ?_).given users.Answers
  intro c hc
  cases c with
  | set _ _ => cases hc
  | _ => trivial

/-! ### The worker -/

namespace LogicSystem

variable {J : JsonCpp} {users : UserTable}

theorem cacheProfile_tidy {k value : Bytes} {uid : Int} {user : UserInfo} (hnul : (0 : UInt8) ∉ k)
    (hstoi : stoi k = .ok uid) (hu : users.getUserInfo uid = some user)
    (hcached : cachedProfile J (cstr value) = .ok user) :
    Tidy J users (cacheProfile (RedisPrefix.userBaseInfo ++ k) user.name value).run := by
  refine given_ask (.base hnul hstoi hu hcached) ?_
  intro _ _
  split
  · trivial
  · refine given_ask (.name hu hcached) ?_
    intro _ _
    trivial

/-- A uid that is searched for is sent as a number, so that its text has no NUL. -/
theorem zero_notMem_asString {v : Json} {uid_str : Bytes} (h : v.isInt = true)
    (hs : v.asString J = .ok uid_str) : (0 : UInt8) ∉ uid_str := by
  cases v with
  | int n =>
    cases hs
    exact zero_notMem_renderInt n
  | real q =>
    have hq : q.den = 1 ∧ IsInt q.num := by simpa [Json.isInt] using h
    simp only [Json.asString, hq, and_self, if_true] at hs
    cases hs
    have hdot : (0 : UInt8) ∉ lit ".0" := by decide
    simp [zero_notMem_renderInt, hdot]
  | null | bool | str | arr | obj => simp [Json.isInt] at h

variable (hJ : J.ReadsBackAll users)
include hJ

theorem getBaseInfo_tidy (uid : Int) : Tidy J users (getBaseInfo J (baseKey uid) uid).run := by
  refine given_ask trivial ?_
  intro db_user hr
  have hanswer : db_user = users.getUserInfo uid := hr
  rcases hu : users.getUserInfo uid with _ | user
  · rw [hanswer, hu]
    trivial
  · rw [hanswer, hu]
    dsimp only
    -- the nickname is set already
    rw [if_neg (UserTable.named hu).nick]
    refine given_bind ?_ (fun _ => trivial)
    exact cacheProfile_tidy (zero_notMem_renderInt uid)
      (stoi_renderInt (UserTable.getUserInfo_uid hu).2) hu (cachedProfile_fastWrite hJ hu)

theorem login_tidy (self : ServerName) (session : SessId) (uid : Int) (token : Bytes) :
    Tidy J users (login J self session uid token).run := by
  refine given_ask trivial ?_
  intro token_value _
  rcases token_value with _ | token_value
  · trivial
  · dsimp only
    split
    · trivial
    · refine given_bind (getBaseInfo_tidy hJ uid) ?_
      intro user_info
      rcases user_info with _ | user_info
      · trivial
      · refine given_ask trivial ?_
        intro apply _
        refine given_ask trivial ?_
        intro friends _
        refine given_bind ?_ (fun _ => trivial)
        refine given_ask trivial ?_
        intro rd_res _
        refine given_lift ?_
        intro count _
        refine given_ask trivial ?_
        intro _ _
        refine given_ask trivial ?_
        intro _ _
        refine given_ask (storesProfile_ipKey uid self.val) ?_
        intro _ _
        exact ⟨trivial, fun _ _ => trivial⟩

theorem getUserByUid_tidy {uid_str : Bytes} (hnul : (0 : UInt8) ∉ uid_str) :
    Tidy J users (getUserByUid J uid_str).run := by
  refine given_ask trivial ?_
  intro info_str _
  rcases info_str with _ | info_str
  · refine given_lift ?_
    intro uid hstoi
    refine given_ask trivial ?_
    intro user_info hr
    have hanswer : user_info = users.getUserInfo uid := hr
    rcases hu : users.getUserInfo uid with _ | user
    · rw [hanswer, hu]
      trivial
    · rw [hanswer, hu]
      exact given_bind (cacheProfile_tidy hnul hstoi hu (cachedProfile_styled hJ hu))
        (fun _ => trivial)
  · exact (uses_lift_last).given _

theorem getUserByName_tidy (name_str : Bytes) : Tidy J users (getUserByName J name_str).run := by
  refine given_ask trivial ?_
  intro info_str _
  rcases info_str with _ | info_str
  · refine given_ask trivial ?_
    intro user_info hr
    rcases user_info with _ | user
    · trivial
    · have hu : users.getUserInfo user.uid = some user := hr user rfl
      refine given_bind ?_ (fun _ => trivial)
      exact cacheProfile_tidy (zero_notMem_renderInt _)
        (stoi_renderInt (UserTable.getUserInfo_uid hu).2) hu (cachedProfile_styled hJ hu)
  · exact (uses_lift_last).given _

theorem searchUser_tidy (msg_data : Bytes) : Tidy J users (searchUser J msg_data).run := by
  unfold searchUser
  dsimp only
  split
  · trivial
  · refine given_lift ?_
    intro b_uid _
    split
    · trivial
    · refine given_lift ?_
      intro uid_str huid
      split
      · rename_i hint
        refine getUserByUid_tidy hJ (zero_notMem_asString (J := J) hint ?_)
        unfold Json.getString Json.member at huid
        split at huid
        · exact huid
        · cases huid
      · exact getUserByName_tidy hJ uid_str

theorem routeAddFriend_tidy (self : ServerName) (uid touid : Int) (name alias_name : Bytes) :
    Tidy J users (routeAddFriend J self uid touid name alias_name).run := by
  refine given_ask trivial ?_
  intro to_ip_value _
  rcases to_ip_value with _ | to_ip_value
  · trivial
  · refine given_bind (getBaseInfo_tidy hJ uid) ?_
    intro apply_info
    split
    · refine given_ask trivial ?_
      intro to_user_session _
      rcases to_user_session with _ | to_user_session
      · trivial
      · exact ⟨trivial, fun _ _ => trivial⟩
    · exact given_ask trivial fun _ _ => trivial

theorem routeAuthFriend_tidy (self : ServerName) (applicant_uid accepter_uid : Int)
    (applicant_peer_alias : Bytes) :
    Tidy J users (routeAuthFriend J self applicant_uid accepter_uid applicant_peer_alias).run := by
  refine given_ask trivial ?_
  intro to_ip_value _
  rcases to_ip_value with _ | to_ip_value
  · trivial
  · dsimp only
    split
    · refine given_ask trivial ?_
      intro peer_session _
      rcases peer_session with _ | peer_session
      · trivial
      · refine given_bind (getBaseInfo_tidy hJ accepter_uid) ?_
        intro peer_info
        exact ⟨trivial, fun _ _ => trivial⟩
    · exact given_ask trivial fun _ _ => trivial

section Handlers

variable (self : ServerName) (session : SessId) (msg_data : Bytes)

theorem loginHandler_tidy : Tidy J users (loginHandler J self session msg_data).run := by
  refine given_lift ?_
  intro uid _
  refine given_lift ?_
  intro token _
  refine given_bind (login_tidy hJ self session uid token) ?_
  intro v
  exact ⟨trivial, fun _ _ => trivial⟩

theorem searchUserHandler_tidy : Tidy J users (searchUserHandler J session msg_data).run := by
  refine given_bind (searchUser_tidy hJ msg_data) ?_
  intro v
  exact ⟨trivial, fun _ _ => trivial⟩

theorem addFriendHandler_tidy : Tidy J users (addFriendHandler J self session msg_data).run := by
  refine given_lift ?_
  intro uid _
  refine given_lift ?_
  intro name _
  refine given_lift ?_
  intro alias_name _
  refine given_lift ?_
  intro touid _
  refine given_ask trivial ?_
  intro _ _
  refine given_bind (routeAddFriend_tidy hJ self uid touid name alias_name) ?_
  intro _
  exact ⟨trivial, fun _ _ => trivial⟩

theorem authFriendHandler_tidy : Tidy J users (authFriendHandler J self session msg_data).run := by
  refine given_lift ?_
  intro applicant_uid _
  refine given_lift ?_
  intro accepter_uid _
  refine given_lift ?_
  intro alias_name _
  refine given_bind (getBaseInfo_tidy hJ applicant_uid) ?_
  intro user_info
  refine given_ask trivial ?_
  intro apply_alias _
  refine given_ask trivial ?_
  intro _ _
  refine given_ask trivial ?_
  intro _ _
  refine given_ask trivial ?_
  intro peer_alias _
  refine given_bind (routeAuthFriend_tidy hJ self applicant_uid accepter_uid peer_alias.2) ?_
  intro _
  exact ⟨trivial, fun _ _ => trivial⟩

end Handlers

omit hJ in
theorem chatTextMsgHandler_setsNothing (self : ServerName) (session : SessId) (msg_data : Bytes) :
    SetsNothing (chatTextMsgHandler J self session msg_data).run := by
  refine (chatTextMsgHandler_calls self session msg_data).mono ?_
  intro c hc
  generalize hid : MsgIds.textChatMsgReq.id = msg_id at hc
  cases hc with
  | textChat _ hc => cases hc <;> rfl
  | textChatReply _ => rfl
  | _ => cases hid

/-- **Whatever message the worker handles, it stores no other profiles.** -/
theorem dispatch_tidy (self : ServerName) (node : LogicNode) :
    Tidy J users (dispatch J self node).run := by
  unfold dispatch callback
  split
  · trivial
  · rename_i handler hcb
    split at hcb
    · cases hcb
      exact loginHandler_tidy hJ self node.session _
    · split at hcb
      · cases hcb
        exact searchUserHandler_tidy hJ node.session _
      · split at hcb
        · cases hcb
          exact addFriendHandler_tidy hJ self node.session _
        · split at hcb
          · cases hcb
            exact authFriendHandler_tidy hJ self node.session _
          · split at hcb
            · cases hcb
              exact (chatTextMsgHandler_setsNothing self node.session _).tidy J users
            · cases hcb

end LogicSystem

/-! ### The chat service -/

namespace ChatServiceImpl

variable {J : JsonCpp} {users : UserTable}

theorem notifyAddFriend_setsNothing (request : AddFriendReq) :
    SetsNothing (notifyAddFriend J request).run := by
  refine uses_ask rfl ?_
  intro session
  rcases session with _ | session
  · exact uses_pure _
  · exact uses_ask rfl fun _ => uses_pure _

theorem notifyTextChatMsg_setsNothing (request : TextChatMsgReq) :
    SetsNothing (notifyTextChatMsg J request).run := by
  refine uses_ask rfl ?_
  intro session
  rcases session with _ | session
  · exact uses_pure _
  · exact uses_ask rfl fun _ => uses_pure _

variable (hJ : J.ReadsBackAll users)
include hJ

theorem getBaseInfo_tidy (uid : Int) : Tidy J users (getBaseInfo J (baseKey uid) uid).run := by
  refine given_ask trivial ?_
  intro info_str _
  rcases info_str with _ | info_str
  · refine given_ask trivial ?_
    intro user_info hr
    have hanswer : user_info = users.getUserInfo uid := hr
    rcases hu : users.getUserInfo uid with _ | user
    · rw [hanswer, hu]
      trivial
    · rw [hanswer, hu]
      refine given_ask ?_ (fun _ _ => trivial)
      exact .base (zero_notMem_renderInt uid) (stoi_renderInt (UserTable.getUserInfo_uid hu).2) hu
        (cachedProfile_styled hJ hu)
  · exact given_lift fun _ _ => trivial

theorem notifyAuthFriend_tidy (request : AuthFriendReq) :
    Tidy J users (notifyAuthFriend J request).run := by
  refine given_ask trivial ?_
  intro session _
  rcases session with _ | session
  · trivial
  · refine given_bind ?_ (fun _ => given_ask trivial fun _ _ => trivial)
    refine given_bind (getBaseInfo_tidy hJ request.fromuid) ?_
    intro user_info
    rcases user_info with _ | user_info
    · trivial
    · exact given_ask trivial fun _ _ => trivial

theorem serve_tidy (request : Request) : Tidy J users (serve J request) := by
  rcases request with request | request | request
  · exact ((notifyAddFriend_setsNothing request).tidy J users).bind fun _ => trivial
  · exact (notifyAuthFriend_tidy hJ request).bind fun _ => trivial
  · exact ((notifyTextChatMsg_setsNothing request).tidy J users).bind fun _ => trivial

end ChatServiceImpl

/-! ## Servers -/

section Servers

variable {J : JsonCpp} {users : UserTable} {self : ServerName} {r r' : Redis} {v v' : Server}
  {l : Label}

/-- What is left of the server's tasks stores no other profiles. -/
structure Server.Tidy (J : JsonCpp) (users : UserTable) (v : Server) : Prop where
  worker : ∀ t ∈ v.worker, ChatServer.Tidy J users t.rest
  io : ∀ t ∈ v.io, SetsNothing t.rest
  rpcs : ∀ p ∈ v.rpcs, ChatServer.Tidy J users p

/-- The call that a step makes. -/
def Label.call : Label → Option (Event calls)
  | .io e => some e
  | .worker e => some e
  | .rpc e => some e
  | _ => none

theorem Server.Tidy.step (hJ : J.ReadsBackAll users) (h : v.Tidy J users)
    (hs : Server.Step J self (r, v) l (r', v')) (ha : ∀ e ∈ l.call, users.Answers e) :
    v'.Tidy J users := by
  obtain ⟨hworker, hio, hrpcs⟩ := h
  cases hs with
  | accept _ _ =>
    refine ⟨hworker, ?_, hrpcs⟩
    rintro _ ⟨⟩
    exact (handleAccept_calls _).mono fun _ => Call.ofSession.setsNothing
  | readSome _ _ _ =>
    refine ⟨hworker, ?_, hrpcs⟩
    rintro _ ⟨⟩
    exact (CSession.readCallback_calls self _ _ _ _).mono fun _ => Call.ofSession.setsNothing
  | io ht hp _ =>
    refine ⟨hworker, ?_, hrpcs⟩
    rintro _ ⟨⟩
    exact ((hio _ ht).step hp).2
  | ioDone _ _ => exact ⟨hworker, fun _ h => (nomatch h), hrpcs⟩
  | take _ _ =>
    refine ⟨?_, hio, hrpcs⟩
    rintro _ ⟨⟩
    exact LogicSystem.dispatch_tidy hJ self _
  | worker ht hp _ =>
    refine ⟨?_, hio, hrpcs⟩
    rintro _ ⟨⟩
    exact ((hworker _ ht).step hp).2 (ha _ rfl)
  | workerDone _ _ => exact ⟨fun _ h => (nomatch h), hio, hrpcs⟩
  | written _ _ | crash _ _ => exact ⟨hworker, hio, hrpcs⟩
  | serve => exact ⟨hworker, hio, List.forall_mem_cons.mpr ⟨ChatServiceImpl.serve_tidy hJ _, hrpcs⟩⟩
  | rpc hmem hp _ =>
    refine ⟨hworker, hio, ?_⟩
    rw [hmem] at hrpcs
    simp only [List.forall_mem_append, List.forall_mem_cons] at hrpcs ⊢
    exact ⟨hrpcs.1, (hrpcs.2.1.step hp).2 (ha _ rfl), hrpcs.2.2⟩
  | rpcDone hmem =>
    refine ⟨hworker, hio, ?_⟩
    rw [hmem] at hrpcs
    simp only [List.forall_mem_append, List.forall_mem_cons] at hrpcs ⊢
    exact ⟨hrpcs.1, hrpcs.2.2⟩

/-- **A call leaves the cache coherent**, whether it is carried out or fails. -/
theorem Redis.Coherent.sem {lossy : Bool} {e : Event calls} {w w' : World}
    (h : w.redis.Coherent J users) (he : e.1.Stores J users) (hs : World.sem lossy e w w') :
    w'.redis.Coherent J users := by
  obtain ⟨c, a⟩ := e
  have happly : (w.apply c).redis.Coherent J users := by
    cases c with
    | set key value => exact h.set he
    | hSet _ _ _ => exact ⟨h.base, h.name⟩
    | _ => exact h
  rcases hs with ⟨rfl, -⟩ | ⟨-, -, rfl | rfl⟩
  · exact happly
  · exact h
  · exact happly

theorem Server.Tidy.coherent (h : v.Tidy J users) (hr : r.Coherent J users)
    (hs : Server.Step J self (r, v) l (r', v')) : r'.Coherent J users := by
  cases hs with
  | @worker _ _ t e q w ht hp hsem =>
    exact Redis.Coherent.sem (w := ⟨r, v.proc⟩) hr ((h.worker t ht).step hp).1 hsem
  | @io _ _ t e q w ht hp hsem =>
    exact Redis.Coherent.sem (w := ⟨r, v.proc⟩) hr (((h.io t ht).tidy J users).step hp).1 hsem
  | @rpc _ _ pre post p q e w hmem hp hsem =>
    exact Redis.Coherent.sem (w := ⟨r, v.proc⟩) hr ((h.rpcs p (by simp [hmem])).step hp).1 hsem
  | _ => exact hr

end Servers

/-! ## Runs -/

/-- A step of a cluster over a fixed table of users. The other programs that use Redis leave the
profile cache alone. -/
structure Cluster.FixedStep (J : JsonCpp) (users : UserTable) (c : Cluster) (a : Cluster.Act)
    (c' : Cluster) : Prop where
  step : Cluster.Step J c a c'
  answers : ∀ S l, a = some (S, l) → ∀ e ∈ l.call, users.Answers e
  others : a = none → ∀ key, RedisPrefix.userBaseInfo <+: key ∨ RedisPrefix.userNameInfo <+: key →
    c'.redis.str key = c.redis.str key

section Runs

variable {J : JsonCpp} {users : UserTable} {redis : Redis} {tr : List (Cluster.Act × Cluster)}
  {c c' : Cluster} {a : Cluster.Act}

theorem Cluster.FixedStep.keeps (hJ : J.ReadsBackAll users) (hs : Cluster.FixedStep J users c a c')
    (h : c.redis.Coherent J users ∧ ∀ S, (c.server S).Tidy J users) :
    c'.redis.Coherent J users ∧ ∀ S, (c'.server S).Tidy J users := by
  obtain ⟨hr, htidy⟩ := h
  obtain ⟨hstep, hanswers, hothers⟩ := hs
  constructor
  · cases hstep with
    | @server S l r v hlive hs => exact (htidy S).coherent hr hs
    | others _ _ => exact hr.congr (hothers rfl)
  · intro S
    rcases hstep.server_cases S with heq | ⟨l, rfl, hv⟩
    · rw [heq]
      exact htidy S
    · exact (htidy S).step hJ hv (hanswers S l rfl)

theorem coherent_of_run (hJ : J.ReadsBackAll users) (hstart : redis.Coherent J users)
    (h : Run (Cluster.FixedStep J users) (.init redis) tr c) : c.redis.Coherent J users := by
  have hkeeps : c.redis.Coherent J users ∧ ∀ S, (c.server S).Tidy J users := by
    refine Run.invariant (P := fun _ c => c.redis.Coherent J users ∧ ∀ S, (c.server S).Tidy J users)
      ?_ ?_ h
    · exact ⟨hstart, fun S => ⟨fun _ h => (nomatch h), fun _ h => (nomatch h), fun _ h => (nomatch h)⟩⟩
    · intro tr c a c' _ hi hs
      exact hs.keeps hJ hi
  exact hkeeps.1

section Lookups

variable {ext : (c : Call) → c.Resp} {w : World} {uid : Int}

/-- The worker's `getBaseInfo`, which asks the database first. -/
theorem LogicSystem.run_getBaseInfo (hext : ext (.getUserInfo uid) = users.getUserInfo uid) :
    ((LogicSystem.getBaseInfo J (baseKey uid) uid).run.run (World.interpret ext) w).1 =
      .ok (users.getUserInfo uid) := by
  unfold LogicSystem.getBaseInfo
  rw [run_ask]
  have hanswer : (World.interpret ext (.getUserInfo uid) w).1 = users.getUserInfo uid := hext
  rcases hu : users.getUserInfo uid with _ | user
  · rw [hanswer, hu]
    rfl
  · rw [hanswer, hu]
    dsimp only
    rw [if_neg (UserTable.named hu).nick]
    unfold LogicSystem.cacheProfile
    rw [if_neg (UserTable.named hu).name]
    rfl

/-- The chat service's `getBaseInfo`, which looks into the cache first. -/
theorem ChatServiceImpl.run_getBaseInfo (hr : w.redis.Coherent J users)
    (hext : ext (.getUserInfo uid) = users.getUserInfo uid) :
    ((ChatServiceImpl.getBaseInfo J (baseKey uid) uid).run.run (World.interpret ext) w).1 =
      .ok (users.getUserInfo uid) := by
  have hkey : cstr (baseKey uid) = baseKey uid := cstr_userBaseInfo (zero_notMem_renderInt uid)
  have hget : (World.interpret ext (.get (baseKey uid)) w).1 = (w.redis.str (baseKey uid)).map cstr := by
    show w.redis.get (baseKey uid) = _
    rw [Redis.get, hkey]
  unfold ChatServiceImpl.getBaseInfo
  rw [run_ask, hget]
  rcases hstr : w.redis.str (baseKey uid) with _ | v
  · have hanswer : (World.interpret ext (.getUserInfo uid) w).1 = users.getUserInfo uid := hext
    rw [Option.map_none]
    dsimp only
    rw [run_ask]
    have hworld : (World.interpret ext (.get (baseKey uid)) w).2 = w := rfl
    rw [hworld, hanswer]
    rcases users.getUserInfo uid with _ | user
    · rfl
    · rfl
  · obtain ⟨user, hu, hcached⟩ := hr.base_uid hstr
    unfold cachedProfile at hcached
    rw [Option.map_some, hu]
    dsimp only
    rw [run_lift_ok _ hcached]
    rfl

end Lookups

/-- **The cache agrees with the database.** From a coherent cache, in every run over a fixed table of
users, with any clients, messages and requests, on any servers: each cached profile is that of the user
whom its key names, and the two functions `getBaseInfo` return the same for every uid. -/
theorem cache_coherent (hJ : J.ReadsBackAll users) (hstart : redis.Coherent J users)
    (h : Run (Cluster.FixedStep J users) (.init redis) tr c) :
    c.redis.Coherent J users ∧
      ∀ (S : ServerName) (ext : (c : Call) → c.Resp) (uid : Int),
        ext (.getUserInfo uid) = users.getUserInfo uid →
        ((LogicSystem.getBaseInfo J (baseKey uid) uid).run.run (World.interpret ext)
          ⟨c.redis, (c.server S).proc⟩).1 = .ok (users.getUserInfo uid) ∧
        ((ChatServiceImpl.getBaseInfo J (baseKey uid) uid).run.run (World.interpret ext)
          ⟨c.redis, (c.server S).proc⟩).1 = .ok (users.getUserInfo uid) := by
  have hr := coherent_of_run hJ hstart h
  refine ⟨hr, ?_⟩
  intro S ext uid hext
  exact ⟨LogicSystem.run_getBaseInfo hext, ChatServiceImpl.run_getBaseInfo hr hext⟩

/-! ### A login -/

/-- The user 7. -/
def annRow : UserRow :=
  { uid := 7, name := lit "ann", nick := [], desc := [], sex := 0, icon := [], email := [], pwd := [] }

def annTable : UserTable where
  rows := [annRow]
  uids := by decide
  names := by decide
  valid := by
    intro row hrow
    obtain rfl := List.mem_singleton.mp hrow
    exact ⟨by decide, by decide, by decide, by decide⟩

/-- The profile of the user 7. -/
def annProfile : Json := Json.null.setProfile annRow.info

/-- The login request of the user 7, and the user's profile. -/
def annTexts : JsonCpp :=
  .ofTable [(loginText 7, .obj [(lit "token", .str (lit "t")), (lit "uid", .int 7)]),
    ((JsonCpp.ofTable []).toStyledString annProfile, annProfile),
    ((JsonCpp.ofTable []).fastWrite annProfile, annProfile)]

/-- A database that knows the user 7. -/
def knowsAnn (c : Call) : c.Resp :=
  match c with
  | .getUserInfo uid => annTable.getUserInfo uid
  | c => World.noAnswer c

theorem annTexts_readsBack : annTexts.ReadsBackAll annTable := by
  intro uid user hu
  obtain ⟨row, hrow, -, rfl⟩ := UserTable.exists_row hu
  obtain rfl := List.mem_singleton.mp hrow
  exact ⟨rfl, by decide +kernel, rfl, by decide +kernel⟩

theorem storesProfile_token (uid : Int) (value : Bytes) :
    StoresProfile annTexts annTable (tokenKey uid) value := by
  refine .other ?_ ?_
  · intro h
    have hprefix := List.isPrefixOf_iff_prefix.mpr (h.trans <| cstr_prefix _)
    exact Bool.noConfusion ((show false = _ from rfl).trans hprefix)
  · intro h
    have hprefix := List.isPrefixOf_iff_prefix.mpr (h.trans <| cstr_prefix _)
    exact Bool.noConfusion ((show false = _ from rfl).trans hprefix)

theorem startRedis_coherent : startRedis.Coherent annTexts annTable := by
  have hempty : (Redis.empty.hSet RedisPrefix.loginCount s1.val (lit "0")).Coherent annTexts
      annTable := ⟨fun _ _ h => (nomatch h), fun _ _ h => (nomatch h)⟩
  exact (hempty.set (storesProfile_token 7 _)).set (storesProfile_token 8 _)

/-- The lookup is answered from the table, and no other program steps. -/
def answersAnn : Cluster.Act → Bool
  | some (_, l) =>
    match l.call with
    | some ⟨.getUserInfo uid, r⟩ => r = annTable.getUserInfo uid
    | some ⟨.getUserInfoByName _, _⟩ => false
    | _ => true
  | none => false

theorem fixedStep_of_answersAnn (c : Cluster) (a : Cluster.Act) (c' : Cluster)
    (hs : Cluster.Step J c a c') (ha : answersAnn a = true) :
    Cluster.FixedStep J annTable c a c' := by
  refine ⟨hs, ?_, ?_⟩
  · rintro S l rfl ⟨o, r⟩ he
    unfold answersAnn at ha
    dsimp only at ha
    rw [Option.mem_def.mp he] at ha
    cases o with
    | getUserInfo uid => simpa [UserTable.Answers] using ha
    | getUserInfoByName name => cases ha
    | _ => trivial
  · rintro rfl
    cases ha

/-- The user 7 logs in, and the profile is cached. -/
theorem cache_login : ∃ tr c, Run (Cluster.FixedStep annTexts annTable) (.init startRedis) tr c ∧
    (c.redis.str (baseKey 7)).isSome = true ∧ c.redis.Coherent annTexts annTable ∧
    ∀ (S : ServerName) (ext : (c : Call) → c.Resp) (uid : Int),
      ext (.getUserInfo uid) = annTable.getUserInfo uid →
      ((LogicSystem.getBaseInfo annTexts (baseKey uid) uid).run.run (World.interpret ext)
        ⟨c.redis, (c.server S).proc⟩).1 = .ok (annTable.getUserInfo uid) ∧
      ((ChatServiceImpl.getBaseInfo annTexts (baseKey uid) uid).run.run (World.interpret ext)
        ⟨c.redis, (c.server S).proc⟩).1 = .ok (annTable.getUserInfo uid) := by
  let moves := (connects 0 ++ logsIn 0 7).map fun m => (s1, m)
  let tr := Cluster.schedule annTexts knowsAnn (.init startRedis) moves
  have hrun : Run (Cluster.Step annTexts) (.init startRedis) tr (final (.init startRedis) tr) :=
    Cluster.schedule_run ..
  have hanswers : Each (Cluster.Step annTexts) (.init startRedis) (fun _ _ a => answersAnn a = true) tr :=
    hrun.each_iff_along.mpr (by decide +kernel)
  have hfixed := hrun.restrict (C := fun _ a => answersAnn a = true) fixedStep_of_answersAnn hanswers
  exact ⟨tr, _, hfixed, by decide +kernel,
    cache_coherent annTexts_readsBack startRedis_coherent hfixed⟩

end Runs

end ChatServer
