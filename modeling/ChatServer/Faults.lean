import ChatServer.LoginCount

/-!
# Redis commands that fail

`RedisMgr` reports a failure with the value that also stands for a missing key, and its callers go on
with that value. `World.attempt` runs the handlers when some commands fail; a command that fails may
have been carried out, when it is its answer that is lost.

A login has four effects that nothing ties together (`login_all_or_nothing_iff`), and the login count
that a login or a close writes is computed from an answer that may be missing (`count_lawful_iff`).
-/

namespace ChatServer

open Interaction Prog Transition Handler Bytes Decimal Word Function

/-! ## Outcomes -/

/-- What becomes of a Redis command. -/
inductive Outcome where
  | works
  /-- It fails and has no effect. -/
  | refused
  /-- It is carried out, and its caller is told that it failed. -/
  | unanswered
  deriving DecidableEq, Repr

/-- The commands of `RedisMgr`. -/
def Call.isCommand : Call → Bool
  | .get _ | .set _ _ | .hGet _ _ | .hSet _ _ _ => true
  | _ => false

/-- Answer a call and carry it out when the commands have these outcomes. -/
def World.attempt (outcome : Call → Outcome) (ext : (c : Call) → c.Resp) (c : Call) (w : World) :
    c.Resp × World :=
  if c.isCommand then
    match outcome c with
    | .works => World.interpret ext c w
    | .refused => (World.noAnswer c, w)
    | .unanswered => (World.noAnswer c, w.apply c)
  else World.interpret ext c w

/-- The command that reads the login count. -/
abbrev Call.readsCount (S : ServerName) : Call := .hGet RedisPrefix.loginCount S.val

/-- The command that writes the login count. -/
abbrev Call.writesCount (S : ServerName) (count : Int) : Call :=
  .hSet RedisPrefix.loginCount S.val (renderInt count)

/-- The answer to the command that reads the login count. -/
def World.countAnswer (w : World) (outcome : Call → Outcome) (S : ServerName) : Bytes :=
  if outcome (.readsCount S) = .works then w.redis.count S else []

/-- The stored login count after the command that writes it. -/
def countAfter (outcome : Call → Outcome) (S : ServerName) (stored : Bytes) (count : Int) : Bytes :=
  if outcome (.writesCount S count) = .refused then stored else renderInt count

section Attempts

variable {J : JsonCpp} {S : ServerName} {s : SessId} {uid : Int} {outcome : Call → Outcome}
  {ext : (c : Call) → c.Resp} {w : World}

theorem World.failed_noAnswer {c : Call} (h : c.isCommand = true) :
    World.Failed ⟨c, World.noAnswer c⟩ := by
  cases c with
  | get | set | hGet | hSet => rfl
  | _ => exact Bool.noConfusion h

/-- These are behaviours of a Redis whose commands can fail. -/
theorem World.sem_attempt (outcome : Call → Outcome) (ext : (c : Call) → c.Resp) (c : Call)
    (w : World) :
    World.sem true ⟨c, (World.attempt outcome ext c w).1⟩ w (World.attempt outcome ext c w).2 := by
  unfold World.attempt
  split
  · rename_i hc
    rcases outcome c
    · exact World.sem_interpret true ext c w
    · exact Or.inr ⟨rfl, World.failed_noAnswer hc, Or.inl rfl⟩
    · exact Or.inr ⟨rfl, World.failed_noAnswer hc, Or.inr rfl⟩
  · exact World.sem_interpret true ext c w

/-- A program that makes only neutral calls leaves the ledger as it is. -/
theorem run_neutral {α : Type} {p : Io α} (hp : Neutral p) (S : ServerName)
    (outcome : Call → Outcome) (ext : (c : Call) → c.Resp) (w : World) :
    (p.run (World.attempt outcome ext) w).2.ledger S none none = w.ledger S none none := by
  obtain ⟨tr, hexec⟩ := exec_run (World.sem_attempt outcome ext) p w
  exact exec_neutral hexec hp S

theorem attempt_command {c : Call} (hc : c.isCommand = true) :
    World.attempt outcome ext c w =
      (if outcome c = .works then (w.answer c).getD (ext c) else World.noAnswer c,
        if outcome c = .refused then w else w.apply c) := by
  unfold World.attempt
  rw [if_pos hc]
  rcases outcome c <;> rfl

theorem attempt_readsCount :
    World.attempt outcome ext (.readsCount S) w = (w.countAnswer outcome S, w) := by
  rw [attempt_command rfl]
  refine Prod.ext rfl ?_
  show (if _ then w else w) = w
  rw [ite_self]

theorem attempt_writesCount (count : Int) :
    (World.attempt outcome ext (.writesCount S count) w).2.ledger S none none =
      { w.ledger S none none with count := countAfter outcome S (w.ledger S none none).count count } := by
  rw [attempt_command rfl]
  unfold countAfter
  dsimp only
  split
  · rfl
  · exact ledger_hSet w S none none (zero_notMem_renderInt count)

theorem attempt_setRoute :
    (World.attempt outcome ext (.set (ipKey uid) S.val) w).2.ledger S none none =
      { w.ledger S none none with
        route := if outcome (.set (ipKey uid) S.val) = .refused then (w.ledger S none none).route
          else update (w.ledger S none none).route uid (some S.val) } := by
  rw [attempt_command rfl]
  dsimp only
  split
  · rfl
  · exact ledger_set w S none none uid

theorem attempt_setUserId :
    (World.attempt outcome ext (.setUserId s uid) w).2.ledger S none none =
      { w.ledger S none none with uid := update (w.ledger S none none).uid s uid } :=
  ledger_setUserId w S none none s uid

theorem attempt_setUserSession :
    (World.attempt outcome ext (.setUserSession uid s) w).2.ledger S none none =
      { w.ledger S none none with map := update (w.ledger S none none).map uid (some s) } := rfl

/-- A count that is read is an `int`. -/
theorem readCount_isInt {rd_res : Bytes} {n : Int} (h : readCount rd_res = .ok n) : IsInt n := by
  unfold readCount stoi at h
  split at h
  · obtain rfl := Except.ok.inj h
    decide
  · split at h
    · cases h
    · split at h
      · rename_i hn
        obtain rfl := Except.ok.inj h
        exact hn
      · cases h

/-! ## Logging in -/

/-- The commands and the database let a login as `uid` with this token pass. -/
def Admitted (outcome : Call → Outcome) (ext : (c : Call) → c.Resp) (w : World) (uid : Int)
    (token : Bytes) : Prop :=
  outcome (.get (tokenKey uid)) = .works ∧ w.redis.get (tokenKey uid) = some token ∧
    (ext (.getUserInfo uid)).isSome

/-- The ledger after a login that read the count `n`. -/
def Ledger.attempted (b : Ledger) (outcome : Call → Outcome) (S : ServerName) (s : SessId)
    (uid n : Int) : Ledger :=
  { b with
    count := countAfter outcome S b.count (toInt (n + 1))
    uid := update b.uid s uid
    route := if outcome (.set (ipKey uid) S.val) = .refused then b.route
      else update b.route uid (some S.val)
    map := update b.map uid (some s) }

theorem run_bindUser_ok (ext : (c : Call) → c.Resp) (s : SessId) (uid : Int) {n : Int}
    (hn : readCount (w.countAnswer outcome S) = .ok n) :
    ∃ w', (LogicSystem.bindUser S s uid).run.run (World.attempt outcome ext) w = (.ok (), w') ∧
      w'.ledger S none none = (w.ledger S none none).attempted outcome S s uid n := by
  unfold LogicSystem.bindUser
  rw [run_ask, attempt_readsCount, run_lift_ok _ hn, run_ask, run_ask, run_ask]
  refine ⟨_, rfl, ?_⟩
  rw [attempt_setUserSession, attempt_setRoute, attempt_setUserId, attempt_writesCount]
  rfl

theorem run_bindUser_error (ext : (c : Call) → c.Resp) (s : SessId) (uid : Int) {e : Exn}
    (he : readCount (w.countAnswer outcome S) = .error e) :
    (LogicSystem.bindUser S s uid).run.run (World.attempt outcome ext) w = (.error e, w) := by
  unfold LogicSystem.bindUser
  rw [run_ask, attempt_readsCount, run_lift_error _ he]

theorem run_cacheProfile (base_key name cache_json : Bytes) (outcome : Call → Outcome)
    (ext : (c : Call) → c.Resp) (w : World) :
    ∃ w', (LogicSystem.cacheProfile base_key name cache_json).run.run (World.attempt outcome ext) w =
      (.ok (), w') := by
  unfold LogicSystem.cacheProfile
  rw [run_ask]
  split
  · exact ⟨_, rfl⟩
  · exact ⟨_, rfl⟩

/-- `getBaseInfo` stores a profile of the database, which does not concern the bindings. -/
theorem run_getBaseInfo (J : JsonCpp) (S : ServerName) (uid : Int) (outcome : Call → Outcome)
    (ext : (c : Call) → c.Resp) (w : World) :
    ∃ user_info w', (LogicSystem.getBaseInfo J (baseKey uid) uid).run.run (World.attempt outcome ext) w =
        (.ok user_info, w') ∧ user_info.isSome = (ext (.getUserInfo uid)).isSome ∧
      w'.ledger S none none = w.ledger S none none := by
  have hreturns : ∃ user_info w', (LogicSystem.getBaseInfo J (baseKey uid) uid).run.run
      (World.attempt outcome ext) w = (.ok user_info, w') ∧
      user_info.isSome = (ext (.getUserInfo uid)).isSome := by
    unfold LogicSystem.getBaseInfo
    have hanswer : World.attempt outcome ext (.getUserInfo uid) w = (ext (.getUserInfo uid), w) := rfl
    rw [run_ask, hanswer]
    dsimp only
    rcases ext (.getUserInfo uid) with _ | user
    · exact ⟨none, w, rfl, rfl⟩
    · obtain ⟨w', hcache⟩ := run_cacheProfile (baseKey uid) _ _ outcome ext w
      dsimp only
      rw [run_bind_ok _ hcache]
      exact ⟨_, w', rfl, rfl⟩
  obtain ⟨user_info, w', hrun, hsome⟩ := hreturns
  have hsame := run_neutral (LogicSystem.getBaseInfo_neutral J uid uid) S outcome ext w
  rw [hrun] at hsame
  exact ⟨user_info, w', hrun, hsome, hsame⟩

theorem attempt_get (key : Bytes) :
    World.attempt outcome ext (.get key) w =
      (if outcome (.get key) = .works then w.redis.get key else none, w) := by
  rw [attempt_command rfl]
  refine Prod.ext rfl ?_
  show (if _ then w else w) = w
  rw [ite_self]

theorem countAnswer_of_ledger {w w' : World} (h : w'.ledger S none none = w.ledger S none none) :
    w'.countAnswer outcome S = w.countAnswer outcome S := by
  have hcount : w'.redis.count S = w.redis.count S := congrArg Ledger.count h
  unfold World.countAnswer
  rw [hcount]

theorem loginReply_error (user_info : UserInfo) (b_apply : Bool) (apply_list : List ApplyInfo)
    (friend_list : List UserInfo) :
    (LogicSystem.loginReply uid user_info b_apply apply_list friend_list).lookup (lit "error") =
      .int ErrorCodes.success.code := by
  have happly : lit "error" ≠ lit "apply_list" := by decide
  have hfriend : lit "error" ≠ lit "friend_list" := by decide
  unfold LogicSystem.loginReply
  dsimp only
  rw [Json.lookup_foldl_appendTo_of_ne _ _ _ hfriend]
  split
  · rw [Json.lookup_foldl_appendTo_of_ne _ _ _ happly]
    rfl
  · rfl

/-- A login that is not admitted is answered with an error and changes nothing. -/
theorem run_login_rejected (J : JsonCpp) {token : Bytes} (h : ¬ Admitted outcome ext w uid token) :
    ∃ code w', code ≠ ErrorCodes.success ∧
      (LogicSystem.login J S s uid token).run.run (World.attempt outcome ext) w =
        (.ok (Json.errorReply code), w') ∧
      w'.ledger S none none = w.ledger S none none := by
  unfold LogicSystem.login
  rw [run_ask, attempt_get]
  by_cases hworks : outcome (.get (tokenKey uid)) = .works
  · rw [if_pos hworks]
    dsimp only
    rcases hget : w.redis.get (tokenKey uid) with _ | token_value
    · exact ⟨.uidInvalid, w, by decide, rfl, rfl⟩
    · dsimp only
      by_cases htoken : token_value = token
      · -- the token is right, so it is the database that does not know the user
        obtain ⟨user_info, w', hbase, hsome, hsame⟩ := run_getBaseInfo J S uid outcome ext w
        rw [if_neg (not_not.mpr htoken), run_bind_ok _ hbase]
        rcases user_info with _ | user_info
        · exact ⟨.uidInvalid, w', by decide, rfl, hsame⟩
        · exact absurd ⟨hworks, htoken ▸ hget, hsome.symm⟩ h
      · rw [if_pos htoken]
        exact ⟨.tokenInvalid, w, by decide, rfl, rfl⟩
  · rw [if_neg hworks]
    exact ⟨.uidInvalid, w, by decide, rfl, rfl⟩

/-- A login that is admitted comes to its last part, with a reply that tells of a success. -/
theorem run_login_admitted (J : JsonCpp) (s : SessId) {token : Bytes} (h : Admitted outcome ext w uid token) :
    ∃ reply w', reply.lookup (lit "error") = .int ErrorCodes.success.code ∧
      w'.ledger S none none = w.ledger S none none ∧
      (LogicSystem.login J S s uid token).run.run (World.attempt outcome ext) w =
        (LogicSystem.bindUser S s uid >>= fun _ => pure reply : Handler Json).run.run
          (World.attempt outcome ext) w' := by
  obtain ⟨hworks, hget, huser⟩ := h
  obtain ⟨user_info, w', hbase, hsome, hsame⟩ := run_getBaseInfo J S uid outcome ext w
  unfold LogicSystem.login
  rw [run_ask, attempt_get, if_pos hworks, hget]
  dsimp only
  rw [if_neg (not_not.mpr rfl), run_bind_ok _ hbase]
  rcases user_info with _ | user_info
  · rw [huser] at hsome
    cases hsome
  · exact ⟨_, w', loginReply_error .., hsame, rfl⟩

theorem run_login_ok (J : JsonCpp) (s : SessId) {token : Bytes} {n : Int}
    (h : Admitted outcome ext w uid token) (hn : readCount (w.countAnswer outcome S) = .ok n) :
    ∃ reply w', reply.lookup (lit "error") = .int ErrorCodes.success.code ∧
      (LogicSystem.login J S s uid token).run.run (World.attempt outcome ext) w = (.ok reply, w') ∧
      w'.ledger S none none = (w.ledger S none none).attempted outcome S s uid n := by
  obtain ⟨reply, w₁, hreply, hsame, hrun⟩ := run_login_admitted J (S := S) s h
  rw [← countAnswer_of_ledger hsame] at hn
  obtain ⟨w', hbind, hw'⟩ := run_bindUser_ok ext s uid hn
  rw [run_bind_ok _ hbind] at hrun
  rw [hsame] at hw'
  exact ⟨reply, w', hreply, hrun, hw'⟩

theorem run_login_error (J : JsonCpp) (s : SessId) {token : Bytes} {e : Exn}
    (h : Admitted outcome ext w uid token) (he : readCount (w.countAnswer outcome S) = .error e) :
    ∃ w', (LogicSystem.login J S s uid token).run.run (World.attempt outcome ext) w = (.error e, w') ∧
      w'.ledger S none none = w.ledger S none none := by
  obtain ⟨reply, w₁, -, hsame, hrun⟩ := run_login_admitted J (S := S) s h
  rw [← countAnswer_of_ledger hsame] at he
  have hbind := run_bindUser_error ext s uid he
  rw [run_bind_error _ hbind] at hrun
  exact ⟨w₁, hrun, hsame⟩

end Attempts

section AllOrNothing

variable (J : JsonCpp) (S : ServerName) (s : SessId) (msg_data : Bytes) (outcome : Call → Outcome)
  (ext : (c : Call) → c.Resp) (w : World)

/-- The effects of a login of the session as `uid`. -/
structure LoggedIn (uid : Int) (w' : World) : Prop where
  count : ∃ n, readCount (w.redis.count S) = .ok n ∧ readCount (w'.redis.count S) = .ok (n + 1)
  route : w'.redis.route uid = some S.val
  userUid : (w'.proc.sess s).userUid = uid
  map : w'.proc.uidToSession uid = some s

/-- What a login of the session as `uid` is to change is as before. -/
structure Untouched (uid : Int) (w' : World) : Prop where
  count : w'.redis.count S = w.redis.count S
  route : w'.redis.route uid = w.redis.route uid
  userUid : (w'.proc.sess s).userUid = (w.proc.sess s).userUid
  map : w'.proc.uidToSession uid = w.proc.uidToSession uid

/-- The login frame is answered: with a success and all effects of the login, or with an error and
none. -/
def AllOrNothing : Prop :=
  ∃ uid token reply w₁ w',
    (J.parse msg_data).2.getInt "uid" = .ok uid ∧ (J.parse msg_data).2.getString J "token" = .ok token ∧
    (LogicSystem.login J S s uid token).run.run (World.attempt outcome ext) w = (.ok reply, w₁) ∧
    w' = w₁.apply (.send s (J.toStyledString reply) MsgIds.chatLoginRsp.id) ∧
    (LogicSystem.loginHandler J S s msg_data).run.run (World.attempt outcome ext) w = (.ok (), w') ∧
    (reply.lookup (lit "error") = .int ErrorCodes.success.code ∧ LoggedIn S s w uid w' ∨
      reply.lookup (lit "error") ≠ .int ErrorCodes.success.code ∧ Untouched S s w uid w')

/-- The login count is read and can be incremented, and what the login writes is written. -/
def Carried (uid : Int) : Prop :=
  ∃ n, readCount (w.redis.count S) = .ok n ∧ n < 2147483647 ∧
    (outcome (.readsCount S) = .works ∨ n = 0) ∧
    outcome (.writesCount S (n + 1)) ≠ .refused ∧
    (outcome (.set (ipKey uid) S.val) ≠ .refused ∨ w.redis.route uid = some S.val)

/-- The frame has a uid and a token, and if the login is admitted it is carried through. -/
def CarriedThrough : Prop :=
  ∃ uid token,
    (J.parse msg_data).2.getInt "uid" = .ok uid ∧ (J.parse msg_data).2.getString J "token" = .ok token ∧
    (Admitted outcome ext w uid token → Carried S outcome w uid)

end AllOrNothing

section AllOrNothing

variable {J : JsonCpp} {S : ServerName} {s : SessId} {uid : Int} {msg_data : Bytes}
  {outcome : Call → Outcome} {ext : (c : Call) → c.Resp} {w w' : World}

theorem readCount_renderInt_of_isInt {n : Int} (hn : IsInt n) : readCount (renderInt n) = .ok n := by
  rw [readCount_renderInt, if_pos hn]

/-- When the count goes up by one. -/
theorem count_raised_iff (outcome : Call → Outcome) (S : ServerName) (w : World) :
    (∃ m, readCount (w.countAnswer outcome S) = .ok m ∧ ∃ n, readCount (w.redis.count S) = .ok n ∧
        readCount (countAfter outcome S (w.redis.count S) (toInt (m + 1))) = .ok (n + 1)) ↔
      ∃ n, readCount (w.redis.count S) = .ok n ∧ n < 2147483647 ∧
        (outcome (.readsCount S) = .works ∨ n = 0) ∧ outcome (.writesCount S (n + 1)) ≠ .refused := by
  constructor
  · rintro ⟨m, hm, n, hn, hafter⟩
    have hint := readCount_isInt hn
    have hmint := readCount_isInt hm
    unfold countAfter at hafter
    split at hafter
    · -- nothing was written
      rw [hn] at hafter
      have := Except.ok.inj hafter
      omega
    · rename_i hwritten
      have htoInt : IsInt (toInt (m + 1)) := by
        unfold IsInt toInt
        omega
      rw [readCount_renderInt_of_isInt htoInt] at hafter
      have hsum : toInt (m + 1) = n + 1 := Except.ok.inj hafter
      rw [hsum] at hwritten htoInt
      refine ⟨n, hn, ?_, ?_, hwritten⟩
      · unfold IsInt at htoInt
        omega
      · unfold World.countAnswer at hm
        split at hm
        · exact Or.inl ‹_›
        · obtain rfl : 0 = m := Except.ok.inj hm
          have hone : toInt (0 + 1) = 1 := by decide
          rw [hone] at hsum
          exact Or.inr (by omega)
  · rintro ⟨n, hn, hmax, hread, hwritten⟩
    have hint := readCount_isInt hn
    have hsum : toInt (n + 1) = n + 1 := by
      unfold toInt IsInt at *
      omega
    refine ⟨n, ?_, n, hn, ?_⟩
    · unfold World.countAnswer
      split
      · exact hn
      · rename_i hfails
        obtain rfl := hread.resolve_left hfails
        rfl
    · unfold countAfter
      rw [hsum, if_neg hwritten]
      refine readCount_renderInt_of_isInt ?_
      unfold IsInt at *
      omega

/-- What an admitted login leaves behind, as far as all effects are there. -/
theorem loggedIn_iff {m : Int}
    (h : w'.ledger S none none = (w.ledger S none none).attempted outcome S s uid m) :
    LoggedIn S s w uid w' ↔
      (∃ n, readCount (w.redis.count S) = .ok n ∧
        readCount (countAfter outcome S (w.redis.count S) (toInt (m + 1))) = .ok (n + 1)) ∧
      (outcome (.set (ipKey uid) S.val) ≠ .refused ∨ w.redis.route uid = some S.val) := by
  have hcount : w'.redis.count S = countAfter outcome S (w.redis.count S) (toInt (m + 1)) :=
    congrArg Ledger.count h
  have hroute : w'.redis.route = if outcome (.set (ipKey uid) S.val) = .refused then w.redis.route
      else update w.redis.route uid (some S.val) := congrArg Ledger.route h
  have huid : (w'.proc.sess s).userUid = uid :=
    (congrFun (congrArg Ledger.uid h) s).trans (update_self ..)
  have hmap : w'.proc.uidToSession uid = some s :=
    (congrFun (congrArg Ledger.map h) uid).trans (update_self ..)
  rw [← hcount]
  constructor
  · intro hin
    refine ⟨hin.count, ?_⟩
    by_cases hrefused : outcome (.set (ipKey uid) S.val) = .refused
    · have hkept := hin.route
      rw [hroute, if_pos hrefused] at hkept
      exact Or.inr hkept
    · exact Or.inl hrefused
  · rintro ⟨hraised, hset⟩
    refine ⟨hraised, ?_, huid, hmap⟩
    rw [hroute]
    split
    · rename_i hrefused
      exact hset.resolve_left (not_not.mpr hrefused)
    · exact update_self ..

theorem untouched_of_ledger (h : w'.ledger S none none = w.ledger S none none) : Untouched S s w uid w' :=
  ⟨congrArg Ledger.count h, congrFun (congrArg Ledger.route h) uid, congrFun (congrArg Ledger.uid h) s,
    congrFun (congrArg Ledger.map h) uid⟩

/-- Replying is of no concern to the bindings. -/
theorem ledger_send (w : World) (S : ServerName) (s : SessId) (msg : Bytes) (msgid : Int) :
    (w.apply (.send s msg msgid)).ledger S none none = w.ledger S none none :=
  ledger_neutral w S none none rfl

/-- The handler of a frame with a uid and a token. -/
theorem run_loginHandler (S : ServerName) (s : SessId) (outcome : Call → Outcome)
    (ext : (c : Call) → c.Resp) (w : World) {token : Bytes}
    (huid : (J.parse msg_data).2.getInt "uid" = .ok uid)
    (htoken : (J.parse msg_data).2.getString J "token" = .ok token) :
    (LogicSystem.loginHandler J S s msg_data).run.run (World.attempt outcome ext) w =
      (LogicSystem.login J S s uid token >>= fun reply =>
        ask (.send s (J.toStyledString reply) MsgIds.chatLoginRsp.id) : Handler Unit).run.run
          (World.attempt outcome ext) w := by
  unfold LogicSystem.loginHandler
  rw [run_lift_ok _ huid, run_lift_ok _ htoken]

end AllOrNothing

/-- **When a login is all or nothing**: exactly if its frame has a uid and a token and, when the checks
let it pass, the count is read and can go up by one, and the count and the route are written. -/
theorem login_allOrNothing_iff (J : JsonCpp) (S : ServerName) (s : SessId) (msg_data : Bytes)
    (outcome : Call → Outcome) (ext : (c : Call) → c.Resp) (w : World) :
    AllOrNothing J S s msg_data outcome ext w ↔ CarriedThrough J S msg_data outcome ext w := by
  constructor
  · rintro ⟨uid, token, reply, w₁, w', huid, htoken, hlogin, rfl, -, heffect⟩
    refine ⟨uid, token, huid, htoken, ?_⟩
    intro hadmitted
    rcases hcount : readCount (w.countAnswer outcome S) with e | m
    · -- the conversion of the count throws, and there is no reply
      obtain ⟨w₂, herror, -⟩ := run_login_error J s hadmitted hcount
      rw [herror] at hlogin
      cases hlogin
    · obtain ⟨reply', w₂, hsuccess, hok, hledger⟩ := run_login_ok J s hadmitted hcount
      rw [hok] at hlogin
      obtain ⟨hreply, rfl⟩ := Prod.mk.inj hlogin
      obtain rfl := Except.ok.inj hreply
      rcases heffect with ⟨-, hin⟩ | ⟨herror, -⟩
      · have hsent := (ledger_send w₂ S s (J.toStyledString reply') MsgIds.chatLoginRsp.id).trans hledger
        obtain ⟨hraised, hroute⟩ := (loggedIn_iff hsent).mp hin
        obtain ⟨n, hn, hmax, hread, hwritten⟩ :=
          (count_raised_iff outcome S w).mp ⟨m, hcount, hraised⟩
        exact ⟨n, hn, hmax, hread, hwritten, hroute⟩
      · exact absurd hsuccess herror
  · rintro ⟨uid, token, huid, htoken, hcarried⟩
    have hhandler := run_loginHandler S s outcome ext w huid htoken
    by_cases hadmitted : Admitted outcome ext w uid token
    · obtain ⟨n, hn, hmax, hread, hwritten, hroute⟩ := hcarried hadmitted
      obtain ⟨m, hcount, hraised⟩ := (count_raised_iff outcome S w).mpr ⟨n, hn, hmax, hread, hwritten⟩
      obtain ⟨reply, w₁, hsuccess, hlogin, hledger⟩ := run_login_ok J s hadmitted hcount
      rw [run_bind_ok _ hlogin] at hhandler
      have hsent := (ledger_send w₁ S s (J.toStyledString reply) MsgIds.chatLoginRsp.id).trans hledger
      exact ⟨uid, token, reply, w₁, _, huid, htoken, hlogin, rfl, hhandler,
        Or.inl ⟨hsuccess, (loggedIn_iff hsent).mpr ⟨hraised, hroute⟩⟩⟩
    · obtain ⟨code, w₁, hcode, hlogin, hledger⟩ := run_login_rejected (S := S) (s := s) J hadmitted
      rw [run_bind_ok _ hlogin] at hhandler
      have hsent := (ledger_send w₁ S s (J.toStyledString (Json.errorReply code))
        MsgIds.chatLoginRsp.id).trans hledger
      refine ⟨uid, token, Json.errorReply code, w₁, _, huid, htoken, hlogin, rfl, hhandler,
        Or.inr ⟨?_, untouched_of_ledger hsent⟩⟩
      show Json.int code.code ≠ _
      intro herror
      have hzero : code.code = 0 := Json.int.inj herror
      cases code with
      | success => exact hcode rfl
      | _ => exact absurd hzero (by decide)

/-- Redis answers every command but the one that writes the login count. -/
def refusesCount : Call → Outcome
  | .hSet _ _ _ => .refused
  | _ => .works

/-- What a login of user 7 leaves then. -/
def uncounted : World :=
  ((LogicSystem.loginHandler loginTexts s1 0 (loginText 7)).run.run
    (World.attempt refusesCount knowsUsers) startWorld).2

/-- The write of the login count fails: user 7 is told of a success and bound, and not counted. -/
theorem login_allOrNothing_fails : ¬ ∀ (J : JsonCpp) (S : ServerName) (s : SessId) (msg_data : Bytes)
    (outcome : Call → Outcome) (ext : (c : Call) → c.Resp) (w : World),
    AllOrNothing J S s msg_data outcome ext w := by
  intro h
  obtain ⟨uid, token, reply, w₁, w', huid, -, -, -, hrun, heffect⟩ :=
    h loginTexts s1 0 (loginText 7) refusesCount knowsUsers startWorld
  have hseven : (loginTexts.parse (loginText 7)).2.getInt "uid" = .ok 7 := by rfl
  obtain rfl : 7 = uid := Except.ok.inj (hseven.symm.trans huid)
  obtain rfl : uncounted = w' := congrArg Prod.snd hrun
  rcases heffect with ⟨-, hin⟩ | ⟨-, hout⟩
  · obtain ⟨n, hbefore, hafter⟩ := hin.count
    have hzero : readCount (startWorld.redis.count s1) = .ok 0 := by decide +kernel
    have hkept : readCount (uncounted.redis.count s1) = .ok 0 := by decide +kernel
    have hn : 0 = n := Except.ok.inj (hzero.symm.trans hbefore)
    have hn' : 0 = n + 1 := Except.ok.inj (hkept.symm.trans hafter)
    omega
  · have hbound : uncounted.proc.uidToSession 7 = some 0 := by decide +kernel
    cases hbound.symm.trans hout.map

/-! ## The login count over logins and closes -/

/-- A login frame of a session is handled, or a session is closed, with these outcomes of the commands
and these answers from outside. -/
inductive Leg where
  | login (s : SessId) (msg_data : Bytes) (outcome : Call → Outcome) (ext : (c : Call) → c.Resp)
  | close (s : SessId) (outcome : Call → Outcome) (ext : (c : Call) → c.Resp)

namespace Leg

/-- What it leaves behind. -/
def after (J : JsonCpp) (S : ServerName) (w : World) : Leg → World
  | .login s msg_data outcome ext =>
    ((LogicSystem.loginHandler J S s msg_data).run.run (World.attempt outcome ext) w).2
  | .close s outcome ext => ((CSession.close S s).run.run (World.attempt outcome ext) w).2

/-- Logins and closes run one after another. -/
def Step (J : JsonCpp) (S : ServerName) (w : World) (l : Leg) (w' : World) : Prop := w' = l.after J S w

/-- By how much it is to change the login count. -/
def change : Leg → Int
  | .login _ _ _ _ => 1
  | .close _ _ _ => -1

/-- A session that is closed is logged in. -/
def Suits (w : World) : Leg → Prop
  | .login _ _ _ _ => True
  | .close s _ _ => (w.proc.sess s).bClose = false ∧ 0 < (w.proc.sess s).userUid

end Leg

/-- The stored count has changed by `d` or not at all. -/
def Moved (stored stored' : Bytes) (d : Int) : Prop :=
  stored' = stored ∨
    ∃ c, readCount stored = .ok c ∧ (readCount stored' = .ok c ∨ readCount stored' = .ok (c + d))

/-- The login count is written only as it was read, apart from values for which a missing count makes
no difference. -/
def CountKept (outcome : Call → Outcome) (S : ServerName) (stored : Bytes) (blind : Int) : Prop :=
  outcome (.readsCount S) ≠ .works → outcome (.writesCount S blind) ≠ .refused →
    readCount stored = .ok 0 ∨ readCount stored = .ok 1

/-- The condition on a login or a close. -/
def Leg.Keeps (J : JsonCpp) (S : ServerName) (w : World) : Leg → Prop
  | .login _ msg_data outcome ext => ∀ uid token,
    (J.parse msg_data).2.getInt "uid" = .ok uid → (J.parse msg_data).2.getString J "token" = .ok token →
    Admitted outcome ext w uid token →
      CountKept outcome S (w.redis.count S) 1 ∧
        -- the greatest count cannot go up
        (outcome (.readsCount S) = .works → readCount (w.redis.count S) = .ok 2147483647 →
          outcome (.writesCount S (-2147483648)) = .refused)
  | .close s outcome _ => (w.proc.sess s).bClose = false → 0 < (w.proc.sess s).userUid →
    CountKept outcome S (w.redis.count S) 0

section Counting

variable {J : JsonCpp} {S : ServerName} {s : SessId} {outcome : Call → Outcome}
  {ext : (c : Call) → c.Resp} {w : World}

/-- A value that is written is one that may be written. -/
theorem moved_iff {stored : Bytes} {v d : Int} (hv : IsInt v) :
    Moved stored (countAfter outcome S stored v) d ↔
      (outcome (.writesCount S v) ≠ .refused →
        readCount stored = .ok v ∨ readCount stored = .ok (v - d)) := by
  unfold countAfter
  constructor
  · intro hmoved hwritten
    rw [if_neg hwritten] at hmoved
    rcases hmoved with hsame | ⟨c, hc, hkept | hchanged⟩
    · rw [← hsame]
      exact Or.inl (readCount_renderInt_of_isInt hv)
    · rw [readCount_renderInt_of_isInt hv] at hkept
      exact Or.inl (hc.trans hkept.symm)
    · rw [readCount_renderInt_of_isInt hv] at hchanged
      obtain rfl : v = c + d := Except.ok.inj hchanged
      rw [show c + d - d = c by omega]
      exact Or.inr hc
  · intro h
    split
    · exact Or.inl rfl
    · rename_i hwritten
      rcases h hwritten with hread | hread
      · exact Or.inr ⟨v, hread, Or.inl (readCount_renderInt_of_isInt hv)⟩
      · refine Or.inr ⟨v - d, hread, Or.inr ?_⟩
        rw [show v - d + d = v by omega]
        exact readCount_renderInt_of_isInt hv

/-- When the count that a login writes is one that it may write. -/
theorem moved_login_iff {m : Int} (hm : readCount (w.countAnswer outcome S) = .ok m) :
    Moved (w.redis.count S) (countAfter outcome S (w.redis.count S) (toInt (m + 1))) 1 ↔
      CountKept outcome S (w.redis.count S) 1 ∧
        (outcome (.readsCount S) = .works → readCount (w.redis.count S) = .ok 2147483647 →
          outcome (.writesCount S (-2147483648)) = .refused) := by
  have hint := readCount_isInt hm
  have htoInt : IsInt (toInt (m + 1)) := by
    unfold IsInt toInt
    omega
  rw [moved_iff htoInt]
  unfold World.countAnswer at hm
  unfold CountKept
  by_cases hworks : outcome (.readsCount S) = .works
  · rw [if_pos hworks] at hm
    rw [hm]
    constructor
    · intro h
      refine ⟨fun hfails => absurd hworks hfails, ?_⟩
      intro _ hmax
      obtain rfl : m = 2147483647 := Except.ok.inj hmax
      by_contra hwritten
      have hwrap : toInt (2147483647 + 1) = -2147483648 := by decide
      rw [hwrap] at h
      rcases h hwritten with hread | hread
      · cases hread
      · cases hread
    · rintro ⟨-, h⟩ hwritten
      refine Or.inr (congrArg Except.ok ?_)
      by_cases hmax : m = 2147483647
      · subst hmax
        exact absurd (h hworks rfl) hwritten
      · unfold toInt
        unfold IsInt at hint
        omega
  · rw [if_neg hworks] at hm
    obtain rfl : 0 = m := Except.ok.inj hm
    have hone : toInt (0 + 1) = 1 := by decide
    rw [hone]
    constructor
    · intro h
      exact ⟨fun _ hwritten => (h hwritten).symm, fun h => absurd h hworks⟩
    · rintro ⟨h, -⟩ hwritten
      exact (h hworks hwritten).symm

/-- When the count that a close writes is one that it may write. -/
theorem moved_close_iff {m : Int} (hm : readCount (w.countAnswer outcome S) = .ok m) :
    Moved (w.redis.count S)
        (countAfter outcome S (w.redis.count S) (if m > 0 then m - 1 else m)) (-1) ↔
      CountKept outcome S (w.redis.count S) 0 := by
  have hint := readCount_isInt hm
  have hfloor : IsInt (if m > 0 then m - 1 else m) := by
    unfold IsInt at *
    split <;> omega
  rw [moved_iff hfloor]
  unfold World.countAnswer at hm
  unfold CountKept
  by_cases hworks : outcome (.readsCount S) = .works
  · rw [if_pos hworks] at hm
    rw [hm]
    constructor
    · intro _ hfails
      exact absurd hworks hfails
    · intro _ _
      split
      · exact Or.inr (congrArg Except.ok (by omega))
      · exact Or.inl rfl
  · rw [if_neg hworks] at hm
    obtain rfl : 0 = m := Except.ok.inj hm
    rw [if_neg (by decide)]
    constructor
    · intro h _ hwritten
      exact h hwritten
    · intro h hwritten
      exact h hworks hwritten

/-- A call that writes nothing to Redis. -/
def Call.leavesRedis : Call → Bool
  | .set _ _ | .hSet _ _ _ => false
  | _ => true

theorem attempt_redis {c : Call} (hc : c.leavesRedis = true) :
    (World.attempt outcome ext c w).2.redis = w.redis := by
  have happly : (w.apply c).redis = w.redis := by
    cases c with
    | set | hSet => exact Bool.noConfusion hc
    | _ => rfl
  by_cases hcommand : c.isCommand = true
  · rw [attempt_command hcommand]
    dsimp only
    split
    · rfl
    · exact happly
  · unfold World.attempt
    rw [if_neg hcommand]
    exact happly

theorem run_redis {α : Type} {p : Io α} (hp : p.Uses fun c : Call => c.leavesRedis = true) (w : World) :
    (p.run (World.attempt outcome ext) w).2.redis = w.redis := by
  induction p generalizing w with
  | ret a => rfl
  | call c k ih => exact (ih _ (hp.2 _) _).trans (attempt_redis hp.1)

/-- What comes after a program may write nothing to Redis. -/
theorem run_bind_redis {α β : Type} {p : Handler α} {f : α → Handler β}
    (hf : ∀ a, (f a).run.Uses fun c : Call => c.leavesRedis = true) (w : World) :
    ((p >>= f).run.run (World.attempt outcome ext) w).2.redis =
      (p.run.run (World.attempt outcome ext) w).2.redis := by
  rcases hp : p.run.run (World.attempt outcome ext) w with ⟨e | a, w'⟩
  · rw [run_bind_error _ hp, hp]
  · rw [run_bind_ok _ hp, hp]
    exact run_redis (hf a) w'

theorem run_unbind_count (hpos : 0 < (w.proc.sess s).userUid) :
    ((CSession.unbind S s (w.proc.sess s).userUid).run.run (World.attempt outcome ext) w).2.redis.count S =
      match readCount (w.countAnswer outcome S) with
      | .ok m => countAfter outcome S (w.redis.count S) (if m > 0 then m - 1 else m)
      | .error _ => w.redis.count S := by
  unfold CSession.unbind
  rw [if_pos hpos, run_ask, attempt_readsCount]
  rcases readCount (w.countAnswer outcome S) with e | m
  · rw [run_lift_error _ rfl]
  · rw [run_lift_ok _ rfl]
    dsimp only
    rw [run_ask, run_redis]
    · exact congrArg Ledger.count (attempt_writesCount (if m > 0 then m - 1 else m))
    · exact uses_ask rfl fun _ => uses_ask rfl fun _ => uses_ask_last rfl

/-- The login count after `close`. -/
theorem run_close_count :
    ((CSession.close S s).run.run (World.attempt outcome ext) w).2.redis.count S =
      if (w.proc.sess s).bClose = false ∧ 0 < (w.proc.sess s).userUid then
        match readCount (w.countAnswer outcome S) with
        | .ok m => countAfter outcome S (w.redis.count S) (if m > 0 then m - 1 else m)
        | .error _ => w.redis.count S
      else w.redis.count S := by
  have hask : World.attempt outcome ext (.bClose s) w = ((w.proc.sess s).bClose, w) := rfl
  unfold CSession.close
  rw [run_ask, hask]
  rcases hclose : (w.proc.sess s).bClose with _ | _
  · have huid : World.attempt outcome ext (.getUserId s) w = ((w.proc.sess s).userUid, w) := rfl
    rw [if_neg Bool.false_ne_true, run_ask, huid, run_bind_redis]
    · by_cases hpos : 0 < (w.proc.sess s).userUid
      · rw [if_pos ⟨rfl, hpos⟩]
        exact run_unbind_count hpos
      · rw [if_neg fun h => hpos h.2]
        unfold CSession.unbind
        rw [if_neg hpos]
        rfl
    · intro _
      exact uses_ask rfl fun _ => uses_lift fun _ => uses_ask_last rfl
  · rw [if_pos rfl, if_neg fun h => Bool.noConfusion h.1]
    rfl

/-- The handler of a frame without a uid or without a token throws at once. -/
theorem run_loginHandler_malformed {msg_data : Bytes}
    (h : ∀ uid token, (J.parse msg_data).2.getInt "uid" = .ok uid →
      (J.parse msg_data).2.getString J "token" ≠ .ok token) :
    ((LogicSystem.loginHandler J S s msg_data).run.run (World.attempt outcome ext) w).2 = w := by
  unfold LogicSystem.loginHandler
  rcases huid : (J.parse msg_data).2.getInt "uid" with e | uid
  · rw [run_lift_error _ huid]
  · rcases htoken : (J.parse msg_data).2.getString J "token" with e | token
    · rw [run_lift_ok _ huid, run_lift_error _ htoken]
    · exact absurd htoken (h uid token huid)

/-- What a login does to the login count. -/
theorem login_moved_iff {msg_data : Bytes} :
    Moved (w.redis.count S) ((Leg.after J S w (.login s msg_data outcome ext)).redis.count S) 1 ↔
      Leg.Keeps J S w (.login s msg_data outcome ext) := by
  unfold Leg.after Leg.Keeps
  by_cases hform : ∃ uid token, (J.parse msg_data).2.getInt "uid" = .ok uid ∧
      (J.parse msg_data).2.getString J "token" = .ok token
  · obtain ⟨uid, token, huid, htoken⟩ := hform
    -- the frame has one uid and one token
    have hone : ∀ P : Int → Bytes → Prop, (∀ u t, (J.parse msg_data).2.getInt "uid" = .ok u →
        (J.parse msg_data).2.getString J "token" = .ok t → P u t) ↔ P uid token := by
      intro P
      constructor
      · intro h
        exact h uid token huid htoken
      · intro h u t hu ht
        obtain rfl := Except.ok.inj (huid.symm.trans hu)
        obtain rfl := Except.ok.inj (htoken.symm.trans ht)
        exact h
    dsimp only
    rw [hone fun u t => Admitted outcome ext w u t → _, run_loginHandler S s outcome ext w huid htoken,
      run_bind_redis]
    · by_cases hadmitted : Admitted outcome ext w uid token
      · rcases hcount : readCount (w.countAnswer outcome S) with e | m
        · -- the stored count was read and is not a number
          obtain ⟨w', hlogin, hledger⟩ := run_login_error J s hadmitted hcount
          rw [hlogin]
          refine iff_of_true (Or.inl (congrArg Ledger.count hledger)) ?_
          intro _
          unfold World.countAnswer at hcount
          split at hcount
          · rename_i hworks
            refine ⟨fun hfails => absurd hworks hfails, ?_⟩
            intro _ hmax
            cases hcount.symm.trans hmax
          · cases hcount
        · obtain ⟨reply, w', -, hlogin, hledger⟩ := run_login_ok J s hadmitted hcount
          have hstored : w'.redis.count S = countAfter outcome S (w.redis.count S) (toInt (m + 1)) :=
            congrArg Ledger.count hledger
          rw [hlogin, hstored, moved_login_iff hcount]
          exact ⟨fun h _ => h, fun h => h hadmitted⟩
      · obtain ⟨code, w', -, hlogin, hledger⟩ := run_login_rejected (S := S) (s := s) J hadmitted
        rw [hlogin]
        exact iff_of_true (Or.inl (congrArg Ledger.count hledger)) fun h => absurd h hadmitted
    · intro _
      exact uses_ask_last rfl
  · have hmalformed : ∀ uid token, (J.parse msg_data).2.getInt "uid" = .ok uid →
        (J.parse msg_data).2.getString J "token" ≠ .ok token :=
      fun uid token huid htoken => hform ⟨uid, token, huid, htoken⟩
    dsimp only
    rw [run_loginHandler_malformed hmalformed]
    exact iff_of_true (Or.inl rfl) fun uid token huid htoken => absurd htoken (hmalformed uid token huid)

/-- What a close does to the login count. -/
theorem close_moved_iff :
    Moved (w.redis.count S) ((Leg.after J S w (.close s outcome ext)).redis.count S) (-1) ↔
      Leg.Keeps J S w (.close s outcome ext) := by
  unfold Leg.after Leg.Keeps
  dsimp only
  rw [run_close_count]
  by_cases hopen : (w.proc.sess s).bClose = false ∧ 0 < (w.proc.sess s).userUid
  · rw [if_pos hopen]
    rcases hcount : readCount (w.countAnswer outcome S) with e | m
    · refine iff_of_true (Or.inl rfl) ?_
      intro _ _ hfails
      unfold World.countAnswer at hcount
      rw [if_neg hfails] at hcount
      cases hcount
    · dsimp only
      rw [moved_close_iff hcount]
      exact ⟨fun h _ _ => h, fun h => h hopen.1 hopen.2⟩
  · rw [if_neg hopen]
    exact iff_of_true (Or.inl rfl) fun hclose hpos => absurd ⟨hclose, hpos⟩ hopen

/-- A login or a close changes the stored count as it is to, or not at all, exactly if it meets the
condition. -/
theorem leg_moved_iff (l : Leg) :
    Moved (w.redis.count S) ((l.after J S w).redis.count S) l.change ↔ l.Keeps J S w := by
  rcases l with ⟨s, msg_data, outcome, ext⟩ | ⟨s, outcome, ext⟩
  · exact login_moved_iff
  · exact close_moved_iff

end Counting

/-- **When a failing read or write leaves the login count right**: over any logins and closes, each of
them changes the stored count by one, in its direction, or not at all, exactly if none writes a count
computed from a missing answer where 0 and 1 are not what is stored, or increments the greatest one. -/
theorem count_moved_iff (J : JsonCpp) (S : ServerName) (w₀ : World) (tr : List (Leg × World)) :
    Each (Leg.Step J S) w₀ (fun _ w l => ∀ w', Leg.Step J S w l w' →
        Moved (w.redis.count S) (w'.redis.count S) l.change) tr ↔
      Each (Leg.Step J S) w₀ (fun _ w l => l.Keeps J S w) tr := by
  have hleg : ∀ (w : World) (l : Leg), (∀ w', Leg.Step J S w l w' →
      Moved (w.redis.count S) (w'.redis.count S) l.change) ↔ l.Keeps J S w := by
    intro w l
    rw [← leg_moved_iff l]
    exact ⟨fun h => h _ rfl, fun h w' hw' => hw' ▸ h⟩
  constructor
  · intro h pre w l t hr hp
    exact (hleg w l).mp (h pre w l t hr hp)
  · intro h pre w l t hr hp
    exact (hleg w l).mpr (h pre w l t hr hp)

/-- Redis answers every command but the one that reads the login count. -/
def losesCount : Call → Outcome
  | .hGet _ _ => .refused
  | _ => .works

/-- The login count is 5, and nobody is connected here. -/
def countedWorld : World :=
  { startWorld with redis := startWorld.redis.hSet RedisPrefix.loginCount s1.val (lit "5") }

/-- A login of user 7 while the count cannot be read. -/
def blindLogin : Leg := .login 0 (loginText 7) losesCount knowsUsers

/-- The read of the login count fails: the login sets it from 5 to 1. -/
theorem count_moved_fails : ¬ ∀ (J : JsonCpp) (S : ServerName) (w₀ w : World) (tr : List (Leg × World))
    (c : Int), 0 ≤ c → w₀.redis.count S = renderInt c → (w₀.online : Int) ≤ c →
    Run (Leg.Step J S) w₀ tr w → Each (Leg.Step J S) w₀ (fun _ w l => l.Suits w) tr →
    Each (Leg.Step J S) w₀ (fun _ w l => ∀ w', Leg.Step J S w l w' →
      Moved (w.redis.count S) (w'.redis.count S) l.change) tr := by
  intro h
  have hrun : Run (Leg.Step loginTexts s1) countedWorld
      ([] ++ [(blindLogin, blindLogin.after loginTexts s1 countedWorld)]) _ := .snoc .nil rfl
  have hsuits : Each (Leg.Step loginTexts s1) countedWorld (fun _ w l => l.Suits w)
      ([] ++ [(blindLogin, blindLogin.after loginTexts s1 countedWorld)]) :=
    (each_snoc .nil).mpr ⟨each_nil, trivial⟩
  have hmoved := (h loginTexts s1 countedWorld _ _ 5 (by decide) (by decide +kernel) (by decide +kernel)
    hrun hsuits).last .nil _ rfl
  have hbefore : countedWorld.redis.count s1 = renderInt 5 := by decide +kernel
  have hafter : (blindLogin.after loginTexts s1 countedWorld).redis.count s1 = renderInt 1 := by
    decide +kernel
  rw [hbefore, hafter] at hmoved
  rcases hmoved with hsame | ⟨c, hc, hkept | hraised⟩
  · exact absurd (renderInt_injective hsame) (by decide)
  · rw [readCount_renderInt_of_isInt (by decide)] at hc hkept
    obtain rfl := Except.ok.inj hc
    cases hkept
  · rw [readCount_renderInt_of_isInt (by decide)] at hc hraised
    obtain rfl := Except.ok.inj hc
    cases hraised

end ChatServer
