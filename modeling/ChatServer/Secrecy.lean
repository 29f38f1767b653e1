import ChatServer.Lib.Relational
import ChatServer.Service
import ChatServer.Variation

/-!
# Handlers that see other passwords

The handlers side by side in the two worlds of a `Variation`. They make the same calls, but for the texts of
profiles that they cache and what they send to the sessions in `T` (`dispatch_parallel`): no notification,
no reply about a friend and no list of friends has a password in it. A reply to a search has one, if the
profile was found in the cache, so there the two worlds have to have the same text in their caches.
-/

namespace ChatServer

open Interaction Transition Prog Handler Bytes Function Fleet

/-! ## Handlers side by side -/

/-- Both return related values, or both are left by the same exception. -/
def SameOutcome {α β : Type} (R : α → β → Prop) : Except Exn α → Except Exn β → Prop
  | .ok a, .ok b => R a b
  | .error e, .error e' => e = e'
  | _, _ => False

namespace Variation

variable {J : JsonCpp} (V : Variation J) (T : ServerName → SessId → Prop)

/-- The calls that the two runs make at the same point: the same call, texts of a profile to be cached, or
messages for a session of `T`. -/
inductive Paired : ServerName × Call → ServerName × Call → Prop where
  | same (o : ServerName × Call) : Paired o o
  | set {S : ServerName} {key value value' : Bytes} :
      V.Found key (some (cstr value)) (some (cstr value')) →
      Paired (S, .set key value) (S, .set key value')
  | send {S : ServerName} {s : SessId} {msg msg' : Bytes} {msgid : Int} : T S s →
      Paired (S, .send s msg msgid) (S, .send s msg' msgid)

/-- What the answers of the two runs have in common. A `quiet` program finds the same strings. -/
def Told (quiet : Prop) (e e' : Event located) : Prop :=
  ∀ h : e'.1 = e.1, V.Answers T e.1 e.2 (h ▸ e'.2) ∧
    (quiet → ∀ key, e.1.2 = .get key → h ▸ e'.2 = e.2)

variable (pools : Pools) (S : ServerName) (quiet : Prop)

/-- Two handlers of a server make the same calls, but for cached profiles and messages to sessions of
`T`, and return related values. -/
def Parallel {α β : Type} (R : α → β → Prop) (h : Handler α) (h' : Handler β) : Prop :=
  (place J pools S h.run).Alike (V.Paired T) (V.Told T quiet) (SameOutcome R) (place J pools S h'.run)

section Rules

variable {V} {T} {pools} {S} {quiet} {α β γ δ : Type} {R : α → β → Prop} {R' : γ → δ → Prop}

theorem parallel_pure {a : α} {b : β} (h : R a b) :
    V.Parallel T pools S quiet R (pure a) (pure b) := h

theorem parallel_bind {h : Handler α} {h' : Handler β} {k : α → Handler γ} {k' : β → Handler δ}
    (hh : V.Parallel T pools S quiet R h h')
    (hk : ∀ a b, R a b → V.Parallel T pools S quiet R' (k a) (k' b)) :
    V.Parallel T pools S quiet R' (h >>= k) (h' >>= k') := by
  unfold Parallel
  rw [ExceptT.run_bind, ExceptT.run_bind, place_bind, place_bind]
  refine Prog.Alike.bind hh ?_
  intro r r' hr
  rcases r with e | a
  · rcases r' with e' | b
    · exact hr
    · exact hr.elim
  · rcases r' with e' | b
    · exact hr.elim
    · exact hk a b hr

/-- The same computation. -/
theorem parallel_lift_same {x : Except Exn α} {k : α → Handler γ} {k' : α → Handler δ}
    (hk : ∀ a, x = .ok a → V.Parallel T pools S quiet R' (k a) (k' a)) :
    V.Parallel T pools S quiet R' ((liftM x : Handler α) >>= k) ((liftM x : Handler α) >>= k') := by
  rcases x with e | a
  · exact rfl
  · exact hk a rfl

/-- The same call, made at the server itself. -/
theorem parallel_ask {c : Call} {k : c.Resp → Handler γ} {k' : c.Resp → Handler δ}
    (hhere : carry J pools S c = perform (S := located) (S, c))
    (hk : ∀ r r', V.Answers T (S, c) r r' → (quiet → ∀ key, c = .get key → r' = r) →
      V.Parallel T pools S quiet R' (k r) (k' r')) :
    V.Parallel T pools S quiet R' (ask c >>= k) (ask c >>= k') := by
  show (carry J pools S c >>= fun r => place J pools S (k r).run).Alike _ _ _
    (carry J pools S c >>= fun r => place J pools S (k' r).run)
  rw [hhere]
  refine ⟨.same _, ?_⟩
  intro r r' hr
  exact hk r r' (hr rfl).1 (hr rfl).2

theorem parallel_set {key value value' : Bytes} {k k' : Bool → Handler γ}
    {R' : γ → γ → Prop} (hvalue : V.Found key (some (cstr value)) (some (cstr value')))
    (hk : ∀ r r', V.Parallel T pools S quiet R' (k r) (k' r')) :
    V.Parallel T pools S quiet R' (ask (.set key value) >>= k) (ask (.set key value') >>= k') :=
  ⟨.set hvalue, fun r r' _ => hk r r'⟩

/-- Messages that may differ if the session is one of `T`. -/
theorem parallel_send {s : SessId} {msg msg' : Bytes} {msgid : Int} (hs : msg' = msg ∨ T S s) :
    V.Parallel T pools S quiet (fun _ _ => True) (ask (.send s msg msgid))
      (ask (.send s msg' msgid)) := by
  rcases hs with rfl | hs
  · exact ⟨.same _, fun _ _ _ => trivial⟩
  · exact ⟨.send hs, fun _ _ _ => trivial⟩

theorem Parallel.mono {R₁ : α → β → Prop} {h : Handler α} {h' : Handler β}
    (hh : V.Parallel T pools S quiet R h h') (hR : ∀ a b, R a b → R₁ a b) :
    V.Parallel T pools S quiet R₁ h h' := by
  refine Prog.Alike.mono hh ?_
  intro r r' hr
  rcases r with e | a
  · rcases r' with e' | b
    · exact hr
    · exact hr.elim
  · rcases r' with e' | b
    · exact hr.elim
    · exact hR a b hr

/-- A call that is made at the server itself and answered the same. -/
def Plain (V : Variation J) (T : ServerName → SessId → Prop) (S : ServerName) (c : Call) : Prop :=
  c.isLocal = true ∧ ∀ r r', V.Answers T (S, c) r r' → r' = r

/-- A program of such calls. -/
theorem place_alike {p : Io α} (hp : p.Uses (Plain V T S)) :
    (place J pools S p).Alike (V.Paired T) (V.Told T quiet) Eq (place J pools S p) := by
  refine Prog.Uses.alike (P := fun o => ∀ r r', V.Answers T o r r' → r' = r) ?_ ?_ ?_
  · exact uses_place (P := fun o => ∀ r r', V.Answers T o r r' → r' = r) hp
  · intro o _
    exact .same o
  · intro o r r' ho hr
    exact (ho r r' (hr rfl).1).symm

theorem parallel_lift_last {x : Except Exn α} {x' : Except Exn β} (hx : SameOutcome R x x') :
    V.Parallel T pools S quiet R (liftM x) (liftM x') := by
  rcases x with e | a
  · rcases x' with e' | b
    · exact hx
    · exact hx.elim
  · rcases x' with e' | b
    · exact hx.elim
    · exact hx

/-- A remote call, in which the peer does the same in the two runs. -/
theorem alike_notify {ρ : Type} {server_ip : Bytes} {serve : Handler ρ} {rsp : ρ}
    {setError defer : ρ → ρ} (hlocal : serve.run.Uses fun c : Call => c.isLocal = true)
    (hserve : ∀ S', V.Parallel T pools S' quiet Eq serve serve) :
    (Remote.notify pools S server_ip serve.run rsp setError defer).Alike (V.Paired T) (V.Told T quiet)
      Eq (Remote.notify pools S server_ip serve.run rsp setError defer) := by
  rcases hpool : pools S server_ip with _ | S'
  · unfold Remote.notify
    rw [hpool]
    exact rfl
  · rw [notify_of_pool hpool, locate_eq_place J pools S' hlocal]
    refine Prog.Alike.bind (hserve S') ?_
    intro r r' hr
    rcases r with e | reply
    · rcases r' with e' | reply'
      · exact rfl
      · exact hr.elim
    · rcases r' with e' | reply'
      · exact hr.elim
      · obtain rfl : reply = reply' := hr
        exact rfl

theorem parallel_remote {c : Call} {k k' : c.Resp → Handler γ} {R' : γ → γ → Prop}
    (hc : (carry J pools S c).Alike (V.Paired T) (V.Told T quiet) Eq (carry J pools S c))
    (hk : ∀ r, V.Parallel T pools S quiet R' (k r) (k' r)) :
    V.Parallel T pools S quiet R' (ask c >>= k) (ask c >>= k') := by
  show (carry J pools S c >>= fun r => place J pools S (k r).run).Alike _ _ _
    (carry J pools S c >>= fun r => place J pools S (k' r).run)
  refine Prog.Alike.bind hc ?_
  rintro r _ rfl
  exact hk r

end Rules

/-! ## Profiles -/

section Profiles

variable {V} {T} {pools} {S} {quiet}

theorem Found.eq {key : Bytes} {a a' : Option Bytes} (h : V.Found key a a') (hkey : ¬ ProfileKey key) :
    a' = a := by
  rcases h with h | ⟨h, -⟩
  · exact h
  · exact absurd h hkey

/-- The routing keys and the tokens are not cached profiles. -/
theorem not_profileKey_ipKey (uid : Int) : ¬ ProfileKey (ipKey uid) := by
  rintro (⟨k, h⟩ | ⟨k, h⟩)
  · cases h
  · cases h

theorem not_profileKey_tokenKey (uid : Int) : ¬ ProfileKey (tokenKey uid) := by
  rintro (⟨k, h⟩ | ⟨k, h⟩)
  · cases h
  · cases h

theorem profileKey_base (k : Bytes) : ProfileKey (RedisPrefix.userBaseInfo ++ k) :=
  Or.inl (List.prefix_append _ k)

theorem profileKey_name (k : Bytes) : ProfileKey (RedisPrefix.userNameInfo ++ k) :=
  Or.inr (List.prefix_append _ k)

/-- What is found where twin texts of a profile were stored. -/
theorem found_of_twins {u u' : UserInfo} (h : V.Twins u u') {key : Bytes} (hkey : ProfileKey key)
    (write : Json → Bytes)
    (hw : ∀ uid user, V.users.getUserInfo uid = some user →
      cachedProfile J (cstr (write (Json.null.setProfile user))) = .ok user)
    (hw' : ∀ uid user, V.users'.getUserInfo uid = some user →
      cachedProfile J (cstr (write (Json.null.setProfile user))) = .ok user) :
    V.Found key (some (cstr (write (Json.null.setProfile u))))
      (some (cstr (write (Json.null.setProfile u')))) := by
  rcases V.twinText_of_twins h write hw hw' with heq | htext
  · exact Or.inl (by rw [heq])
  · exact Or.inr ⟨hkey, _, _, rfl, rfl, htext⟩


/-- Caching a profile. -/
theorem parallel_cacheProfile {u u' : UserInfo} (h : V.Twins u u') {base_key : Bytes}
    (hkey : ProfileKey base_key) (write : Json → Bytes)
    (hw : ∀ uid user, V.users.getUserInfo uid = some user →
      cachedProfile J (cstr (write (Json.null.setProfile user))) = .ok user)
    (hw' : ∀ uid user, V.users'.getUserInfo uid = some user →
      cachedProfile J (cstr (write (Json.null.setProfile user))) = .ok user) :
    V.Parallel T pools S quiet Eq
      (LogicSystem.cacheProfile base_key u.name (write (Json.null.setProfile u)))
      (LogicSystem.cacheProfile base_key u'.name (write (Json.null.setProfile u'))) := by
  have hname : u'.name = u.name := by rw [h.agrees]
  unfold LogicSystem.cacheProfile
  rw [hname]
  refine parallel_set (found_of_twins h hkey write hw hw') ?_
  intro _ _
  split
  · exact parallel_pure rfl
  · refine parallel_set (found_of_twins h (profileKey_name _) write hw hw') ?_
    intro _ _
    exact parallel_pure rfl

/-- The worker's `getBaseInfo` returns what the two tables have. -/
theorem parallel_getBaseInfo (uid : Int) :
    V.Parallel T pools S quiet (Option.Rel fun u u' => u.uid = uid ∧ V.Twins u u')
      (LogicSystem.getBaseInfo J (baseKey uid) uid) (LogicSystem.getBaseInfo J (baseKey uid) uid) := by
  refine parallel_ask rfl ?_
  intro db_user db_user' hanswer _
  rcases hanswer with ⟨huid, htwins⟩ | _
  · obtain ⟨uid', hu, hu'⟩ := htwins.exists_uid
    dsimp only
    -- the nicknames are set already
    rw [if_neg (UserTable.named hu).nick, if_neg (UserTable.named hu').nick]
    refine parallel_bind (parallel_cacheProfile htwins (profileKey_base _) J.fastWrite
      (fun _ _ => cachedProfile_fastWrite V.readsBack)
      fun _ _ => cachedProfile_fastWrite V.readsBack') ?_
    intro _ _ _
    exact parallel_pure (.some ⟨huid, htwins⟩)
  · exact parallel_pure .none

/-- The chat service's `getBaseInfo` finds profiles that agree, in the cache or in the tables. -/
theorem parallel_cachedInfo (uid : Int) :
    V.Parallel T pools S quiet (Option.Rel UserInfo.Agrees)
      (ChatServiceImpl.getBaseInfo J (baseKey uid) uid)
      (ChatServiceImpl.getBaseInfo J (baseKey uid) uid) := by
  refine parallel_ask rfl ?_
  intro info_str info_str' hanswer _
  rcases hanswer with heq | ⟨-, x, x', rfl, rfl, u, u', hu, hu', hagrees, -⟩
  · rw [heq]
    rcases info_str with _ | info_str
    · refine parallel_ask rfl ?_
      intro db_user db_user' hanswer _
      rcases hanswer with ⟨-, htwins⟩ | _
      · refine parallel_set (found_of_twins htwins (profileKey_base _) J.toStyledString
          (fun _ _ => cachedProfile_styled V.readsBack)
          fun _ _ => cachedProfile_styled V.readsBack') ?_
        intro _ _
        exact parallel_pure (.some htwins.agrees)
      · exact parallel_pure .none
    · refine parallel_lift_same ?_
      intro u _
      exact parallel_pure (.some (.refl u))
  · unfold cachedProfile at hu hu'
    dsimp only
    rw [hu, hu']
    exact parallel_pure (.some hagrees)

end Profiles

/-! ## Handlers -/

section Handlers

variable {V} {T} {pools} {S} {quiet}

/-- The list of friends shows no passwords. -/
theorem foldl_friends {friends friends' : List UserInfo}
    (h : List.Forall₂ UserInfo.Agrees friends friends') (v : Json) :
    friends'.foldl (fun v element => v.appendTo "friend_list" (friendJson element)) v =
      friends.foldl (fun v element => v.appendTo "friend_list" (friendJson element)) v := by
  induction h generalizing v with
  | nil => rfl
  | @cons u u' friends friends' hu _ ih =>
    have hjson : friendJson u' = friendJson u := by
      rw [hu]
      rfl
    rw [List.foldl_cons, List.foldl_cons, hjson]
    exact ih _

/-- Counting and binding: after that, the session is one of `T` if it was bound to the user. -/
theorem parallel_bindUser (self : ServerName) (s : SessId) (uid : Int) :
    V.Parallel T pools S quiet (fun _ _ => uid = V.user → T S s)
      (LogicSystem.bindUser self s uid) (LogicSystem.bindUser self s uid) := by
  refine parallel_ask rfl ?_
  intro rd_res rd_res' hanswer _
  obtain rfl : rd_res' = rd_res := hanswer
  refine parallel_lift_same ?_
  intro count _
  refine parallel_ask rfl ?_
  intro _ _ _ _
  refine parallel_ask rfl ?_
  intro _ _ _ _
  refine parallel_ask rfl ?_
  intro _ _ _ _
  exact ⟨.same _, fun r r' hr => (hr rfl).1⟩

/-- A login of the user may be replied to with the password. -/
theorem parallel_login (self : ServerName) (s : SessId) (uid : Int) (token : Bytes) :
    V.Parallel T pools S quiet (fun y y' => y' = y ∨ T S s)
      (LogicSystem.login J self s uid token) (LogicSystem.login J self s uid token) := by
  refine parallel_ask rfl ?_
  intro token_value token_value' hanswer _
  rw [Found.eq hanswer (not_profileKey_tokenKey uid)]
  rcases token_value with _ | token_value
  · exact parallel_pure (Or.inl rfl)
  · dsimp only
    split
    · exact parallel_pure (Or.inl rfl)
    · refine parallel_bind (parallel_getBaseInfo uid) ?_
      intro user_info user_info' hinfo
      rcases hinfo with ⟨huid, htwins⟩ | _
      · refine parallel_ask rfl ?_
        intro apply apply' happly _
        obtain rfl : apply' = apply := happly
        refine parallel_ask rfl ?_
        intro friends friends' hfriends _
        refine parallel_bind (parallel_bindUser self s uid) ?_
        intro _ _ hbound
        refine parallel_pure ?_
        rcases htwins.same with rfl | huser
        · left
          unfold LogicSystem.loginReply
          dsimp only
          rw [foldl_friends hfriends.2]
        · exact Or.inr (hbound (huid.symm.trans huser))
      · exact parallel_pure (Or.inl rfl)

theorem parallel_loginHandler (self : ServerName) (s : SessId) (msg_data : Bytes) :
    V.Parallel T pools S quiet (fun _ _ => True)
      (LogicSystem.loginHandler J self s msg_data) (LogicSystem.loginHandler J self s msg_data) := by
  refine parallel_lift_same ?_
  intro uid _
  refine parallel_lift_same ?_
  intro token _
  refine parallel_bind (parallel_login self s uid token) ?_
  intro y y' hy
  refine parallel_send ?_
  rcases hy with rfl | hs
  · exact Or.inl rfl
  · exact Or.inr hs

/-! ### Searching users -/

/-- The reply made of a cached profile, if it is the same or for a session of `T`. -/
theorem parallel_profileReply {s : SessId} {key info_str info_str' : Bytes}
    (hfound : V.Found key (some info_str) (some info_str')) (hquiet : T S s ∨ info_str' = info_str) :
    V.Parallel T pools S quiet (fun y y' => y' = y ∨ T S s)
      (liftM (LogicSystem.profileReply J info_str)) (liftM (LogicSystem.profileReply J info_str')) := by
  refine parallel_lift_last ?_
  have hsame : info_str' = info_str → SameOutcome (fun y y' => y' = y ∨ T S s)
      (LogicSystem.profileReply J info_str) (LogicSystem.profileReply J info_str') := by
    rintro rfl
    rcases LogicSystem.profileReply J info_str' with e | y
    · exact rfl
    · exact Or.inl rfl
  rcases hfound with heq | ⟨-, x, x', hx, hx', u, u', hu, hu', -, -⟩
  · exact hsame (Option.some.inj heq)
  · rcases hquiet with hs | heq
    · cases hx
      cases hx'
      unfold cachedProfile at hu hu'
      unfold LogicSystem.profileReply
      rw [hu, hu']
      exact Or.inr hs
    · exact hsame heq

section Search

variable {s : SessId} (hquiet : T S s ∨ quiet)
include hquiet

/-- What is found in the cache for a search, and what is done when nothing is found. -/
theorem parallel_find {key : Bytes} {k : Option Bytes → Handler Json}
    (hhit : ∀ info_str, k (some info_str) = liftM (LogicSystem.profileReply J info_str))
    (hmiss : V.Parallel T pools S quiet (fun y y' => y' = y ∨ T S s) (k none) (k none)) :
    V.Parallel T pools S quiet (fun y y' => y' = y ∨ T S s) (ask (.get key) >>= k)
      (ask (.get key) >>= k) := by
  refine parallel_ask rfl ?_
  intro info_str info_str' hanswer hsame
  have hfound : V.Found key info_str info_str' := hanswer
  rcases info_str with _ | info_str
  · rcases hfound with rfl | ⟨-, x, x', hx, -⟩
    · exact hmiss
    · cases hx
  · rcases info_str' with _ | info_str'
    · rcases hfound with heq | ⟨-, x, x', -, hx', -⟩
      · cases heq
      · cases hx'
    · rw [hhit, hhit]
      refine parallel_profileReply hfound ?_
      exact hquiet.imp_right fun hq => Option.some.inj (hsame hq key rfl)

omit hquiet in
/-- A user found in the database is cached, and the reply has no profile. -/
theorem parallel_miss {u u' : UserInfo} (htwins : V.Twins u u') {base_key : Bytes}
    (hkey : ProfileKey base_key) :
    V.Parallel T pools S quiet (fun y y' => y' = y ∨ T S s)
      (do
        LogicSystem.cacheProfile base_key u.name (J.toStyledString (Json.null.setProfile u))
        pure (Json.errorReply .success))
      (do
        LogicSystem.cacheProfile base_key u'.name (J.toStyledString (Json.null.setProfile u'))
        pure (Json.errorReply .success)) := by
  refine parallel_bind (parallel_cacheProfile htwins hkey J.toStyledString
    (fun _ _ => cachedProfile_styled V.readsBack) fun _ _ => cachedProfile_styled V.readsBack') ?_
  intro _ _ _
  exact parallel_pure (Or.inl rfl)

theorem parallel_getUserByUid (uid_str : Bytes) :
    V.Parallel T pools S quiet (fun y y' => y' = y ∨ T S s)
      (LogicSystem.getUserByUid J uid_str) (LogicSystem.getUserByUid J uid_str) := by
  refine parallel_find hquiet (fun _ => rfl) ?_
  refine parallel_lift_same ?_
  intro uid _
  refine parallel_ask rfl ?_
  intro user_info user_info' hanswer _
  rcases hanswer with ⟨-, htwins⟩ | _
  · exact parallel_miss htwins (profileKey_base uid_str)
  · exact parallel_pure (Or.inl rfl)

theorem parallel_getUserByName (name_str : Bytes) :
    V.Parallel T pools S quiet (fun y y' => y' = y ∨ T S s)
      (LogicSystem.getUserByName J name_str) (LogicSystem.getUserByName J name_str) := by
  refine parallel_find hquiet (fun _ => rfl) ?_
  refine parallel_ask rfl ?_
  intro user_info user_info' hanswer _
  rcases hanswer with @⟨u, u', htwins⟩ | _
  · have huid : u'.uid = u.uid := by rw [htwins.agrees]
    dsimp only
    rw [huid]
    exact parallel_miss htwins (profileKey_base _)
  · exact parallel_pure (Or.inl rfl)

theorem parallel_searchUserHandler (msg_data : Bytes) :
    V.Parallel T pools S quiet (fun _ _ => True)
      (LogicSystem.searchUserHandler J s msg_data) (LogicSystem.searchUserHandler J s msg_data) := by
  have hsearch : V.Parallel T pools S quiet (fun y y' => y' = y ∨ T S s)
      (LogicSystem.searchUser J msg_data) (LogicSystem.searchUser J msg_data) := by
    unfold LogicSystem.searchUser
    dsimp only
    split
    · exact parallel_pure (Or.inl rfl)
    · refine parallel_lift_same ?_
      intro b_uid _
      split
      · exact parallel_pure (Or.inl rfl)
      · refine parallel_lift_same ?_
        intro uid_str _
        split
        · exact parallel_getUserByUid hquiet uid_str
        · exact parallel_getUserByName hquiet uid_str
  refine parallel_bind hsearch ?_
  intro y y' hy
  refine parallel_send ?_
  rcases hy with rfl | hs
  · exact Or.inl rfl
  · exact Or.inr hs

end Search

/-! ### The chat service -/

/-- Looking for the server of a user finds the same. -/
theorem parallel_route {γ : Type} {uid : Int} {k : Option Bytes → Handler γ} {R : γ → γ → Prop}
    (hk : ∀ to_ip_value, V.Parallel T pools S quiet R (k to_ip_value) (k to_ip_value)) :
    V.Parallel T pools S quiet R (ask (.get (ipKey uid)) >>= k) (ask (.get (ipKey uid)) >>= k) := by
  refine parallel_ask rfl ?_
  intro to_ip_value to_ip_value' hanswer _
  rw [Found.eq hanswer (not_profileKey_ipKey uid)]
  exact hk to_ip_value

/-- Looking for the session of a user finds the same. -/
theorem parallel_getSession {γ δ : Type} {uid : Int} {k : Option SessId → Handler γ}
    {k' : Option SessId → Handler δ} {R : γ → δ → Prop}
    (hk : ∀ session, V.Parallel T pools S quiet R (k session) (k' session)) :
    V.Parallel T pools S quiet R (ask (.getSession uid) >>= k) (ask (.getSession uid) >>= k') := by
  refine parallel_ask rfl ?_
  intro session session' hanswer _
  obtain rfl : session' = session := hanswer
  exact hk session'

/-- Sending the same message. -/
theorem parallel_sendSame (s : SessId) (msg : Bytes) (msgid : Int) :
    V.Parallel T pools S quiet Eq (ask (.send s msg msgid)) (ask (.send s msg msgid)) :=
  (parallel_send (Or.inl rfl)).mono fun _ _ _ => rfl

/-- A notification for a session of the user, if there is one, whose text is known beforehand. -/
theorem parallel_notified {ρ : Type} {uid : Int} {k : Option SessId → Handler ρ} {reply : ρ}
    (msg : Bytes) (msgid : Int) (hnone : k none = pure reply)
    (hsome : ∀ s, k (some s) = (ask (.send s msg msgid) >>= fun _ => pure reply)) :
    V.Parallel T pools S quiet Eq (ask (.getSession uid) >>= k) (ask (.getSession uid) >>= k) := by
  refine parallel_getSession ?_
  intro session
  rcases session with _ | s
  · rw [hnone]
    exact parallel_pure rfl
  · rw [hsome]
    refine parallel_bind (parallel_sendSame s msg msgid) ?_
    intro _ _ _
    exact parallel_pure rfl

/-- The chat service's notification of a friend request. -/
theorem parallel_notifyAddFriend (request : AddFriendReq) :
    V.Parallel T pools S quiet Eq (ChatServiceImpl.notifyAddFriend J request)
      (ChatServiceImpl.notifyAddFriend J request) :=
  parallel_notified _ _ rfl fun _ => rfl

/-- The chat service's notification of an acceptance shows no password. -/
theorem parallel_notifyAuthFriend (request : AuthFriendReq) :
    V.Parallel T pools S quiet Eq (ChatServiceImpl.notifyAuthFriend J request)
      (ChatServiceImpl.notifyAuthFriend J request) := by
  refine parallel_getSession ?_
  intro session
  rcases session with _ | s
  · exact parallel_pure rfl
  · have hinfo : V.Parallel T pools S quiet (fun x x' =>
          ChatServiceImpl.authFriendNotify request x' = ChatServiceImpl.authFriendNotify request x)
        (ChatServiceImpl.peerInfo J request) (ChatServiceImpl.peerInfo J request) := by
      refine parallel_bind (parallel_cachedInfo request.fromuid) ?_
      intro user_info user_info' hinfo
      rcases hinfo with hagrees | _
      · refine parallel_ask rfl ?_
        intro peer_alias peer_alias' hanswer _
        obtain rfl : peer_alias' = peer_alias := hanswer
        refine parallel_pure ?_
        rw [hagrees]
        rfl
      · exact parallel_pure rfl
    refine parallel_bind hinfo ?_
    intro user_info user_info' hsame
    rw [hsame]
    refine parallel_bind (parallel_sendSame s _ _) ?_
    intro _ _ _
    exact parallel_pure rfl

theorem notifyTextChatMsg_local (request : TextChatMsgReq) :
    (ChatServiceImpl.notifyTextChatMsg J request).run.Uses fun c : Call => c.isLocal = true := by
  refine uses_ask rfl ?_
  intro session
  rcases session with _ | s
  · exact uses_pure _
  · exact uses_ask rfl fun _ => uses_pure _

theorem parallel_notifyTextChatMsg (request : TextChatMsgReq) :
    V.Parallel T pools S quiet Eq (ChatServiceImpl.notifyTextChatMsg J request)
      (ChatServiceImpl.notifyTextChatMsg J request) :=
  parallel_notified _ _ rfl fun _ => rfl

/-- A remote call, which the peer carries out the same in the two runs. -/
theorem carry_alike {c : Call} (hc : c.isLocal = false) :
    (carry J pools S c).Alike (V.Paired T) (V.Told T quiet) Eq (carry J pools S c) := by
  cases c with
  | notifyAddFriend server_ip req =>
    show (Remote.notifyAddFriend J pools S server_ip req).Alike _ _ _ _
    exact alike_notify (ChatServiceImpl.notifyAddFriend_local req) fun _ =>
      parallel_notifyAddFriend req
  | notifyAuthFriend server_ip req =>
    show (Remote.notifyAuthFriend J pools S server_ip req).Alike _ _ _ _
    exact alike_notify (ChatServiceImpl.notifyAuthFriend_local req) fun _ =>
      parallel_notifyAuthFriend req
  | notifyTextChatMsg server_ip req =>
    show (Remote.notifyTextChatMsg J pools S server_ip req).Alike _ _ _ _
    exact alike_notify (notifyTextChatMsg_local req) fun _ => parallel_notifyTextChatMsg req
  | _ => cases hc

/-! ### Friend requests -/

/-- The applicant's profile in a notification and in a request to a peer. -/
theorem addFriend_of_twins {info info' : Option UserInfo} {uid : Int}
    (h : Option.Rel (fun u u' => u.uid = uid ∧ V.Twins u u') info info') (touid : Int)
    (name alias_name : Bytes) :
    LogicSystem.addFriendNotify uid name alias_name info' =
        LogicSystem.addFriendNotify uid name alias_name info ∧
      LogicSystem.addFriendReq uid touid name alias_name info' =
        LogicSystem.addFriendReq uid touid name alias_name info := by
  rcases h with ⟨-, htwins⟩ | _
  · rw [htwins.agrees]
    exact ⟨rfl, rfl⟩
  · exact ⟨rfl, rfl⟩

theorem parallel_routeAddFriend (self : ServerName) (uid touid : Int) (name alias_name : Bytes) :
    V.Parallel T pools S quiet Eq (LogicSystem.routeAddFriend J self uid touid name alias_name)
      (LogicSystem.routeAddFriend J self uid touid name alias_name) := by
  refine parallel_route ?_
  intro to_ip_value
  rcases to_ip_value with _ | to_ip_value
  · exact parallel_pure rfl
  · refine parallel_bind (parallel_getBaseInfo uid) ?_
    intro info info' hinfo
    obtain ⟨hnotify, hreq⟩ := addFriend_of_twins hinfo touid name alias_name
    rw [hnotify, hreq]
    split
    · refine parallel_getSession ?_
      intro session
      rcases session with _ | s
      · exact parallel_pure rfl
      · exact parallel_sendSame s _ _
    · refine parallel_remote (carry_alike rfl) ?_
      intro _
      exact parallel_pure rfl

theorem parallel_addFriendHandler (self : ServerName) (s : SessId) (msg_data : Bytes) :
    V.Parallel T pools S quiet (fun _ _ => True) (LogicSystem.addFriendHandler J self s msg_data)
      (LogicSystem.addFriendHandler J self s msg_data) := by
  refine parallel_lift_same ?_
  intro uid _
  refine parallel_lift_same ?_
  intro name _
  refine parallel_lift_same ?_
  intro alias_name _
  refine parallel_lift_same ?_
  intro touid _
  refine parallel_ask rfl ?_
  intro _ _ _ _
  refine parallel_bind (parallel_routeAddFriend self uid touid name alias_name) ?_
  intro _ _ _
  exact parallel_send (Or.inl rfl)

/-- The reply and the notification of an acceptance show no passwords. -/
theorem authFriend_of_twins {info info' : Option UserInfo} {uid : Int}
    (h : Option.Rel (fun u u' => u.uid = uid ∧ V.Twins u u') info info') :
    (∀ applicant_uid alias_name, LogicSystem.authFriendReply applicant_uid alias_name info' =
        LogicSystem.authFriendReply applicant_uid alias_name info) ∧
      ∀ applicant_uid accepter_uid peer_alias,
        LogicSystem.authFriendNotify applicant_uid accepter_uid peer_alias info' =
          LogicSystem.authFriendNotify applicant_uid accepter_uid peer_alias info := by
  rcases h with ⟨-, htwins⟩ | _
  · rw [htwins.agrees]
    exact ⟨fun _ _ => rfl, fun _ _ _ => rfl⟩
  · exact ⟨fun _ _ => rfl, fun _ _ _ => rfl⟩

theorem parallel_routeAuthFriend (self : ServerName) (applicant_uid accepter_uid : Int)
    (peer_alias : Bytes) :
    V.Parallel T pools S quiet Eq
      (LogicSystem.routeAuthFriend J self applicant_uid accepter_uid peer_alias)
      (LogicSystem.routeAuthFriend J self applicant_uid accepter_uid peer_alias) := by
  refine parallel_route ?_
  intro to_ip_value
  rcases to_ip_value with _ | to_ip_value
  · exact parallel_pure rfl
  · dsimp only
    split
    · refine parallel_getSession ?_
      intro session
      rcases session with _ | s
      · exact parallel_pure rfl
      · refine parallel_bind (parallel_getBaseInfo accepter_uid) ?_
        intro info info' hinfo
        rw [(authFriend_of_twins hinfo).2]
        exact parallel_sendSame s _ _
    · refine parallel_remote (carry_alike rfl) ?_
      intro _
      exact parallel_pure rfl

theorem parallel_authFriendHandler (self : ServerName) (s : SessId) (msg_data : Bytes) :
    V.Parallel T pools S quiet (fun _ _ => True) (LogicSystem.authFriendHandler J self s msg_data)
      (LogicSystem.authFriendHandler J self s msg_data) := by
  refine parallel_lift_same ?_
  intro applicant_uid _
  refine parallel_lift_same ?_
  intro accepter_uid _
  refine parallel_lift_same ?_
  intro alias_name _
  refine parallel_bind (parallel_getBaseInfo applicant_uid) ?_
  intro info info' hinfo
  rw [(authFriend_of_twins hinfo).1]
  refine parallel_ask rfl ?_
  intro apply_alias apply_alias' hanswer _
  obtain rfl : apply_alias' = apply_alias := hanswer
  refine parallel_ask rfl ?_
  intro _ _ _ _
  refine parallel_ask rfl ?_
  intro _ _ _ _
  refine parallel_ask rfl ?_
  intro peer_alias peer_alias' hanswer _
  obtain rfl : peer_alias' = peer_alias := hanswer
  refine parallel_bind (parallel_routeAuthFriend self applicant_uid accepter_uid _) ?_
  intro _ _ _
  exact parallel_send (Or.inl rfl)

/-! ### Text messages -/

theorem parallel_routeTextChatMsg (self : ServerName) (fromuid touid : Int) (text_array : Json) :
    V.Parallel T pools S quiet Eq (LogicSystem.routeTextChatMsg J self fromuid touid text_array)
      (LogicSystem.routeTextChatMsg J self fromuid touid text_array) := by
  refine parallel_route ?_
  intro to_ip_value
  rcases to_ip_value with _ | to_ip_value
  · exact parallel_pure rfl
  · dsimp only
    split
    · refine parallel_getSession ?_
      intro session
      rcases session with _ | s
      · exact parallel_pure rfl
      · exact parallel_sendSame s _ _
    · refine parallel_lift_same ?_
      intro textmsgs _
      refine parallel_remote (carry_alike rfl) ?_
      intro _
      exact parallel_pure rfl

theorem parallel_chatTextMsgHandler (self : ServerName) (s : SessId) (msg_data : Bytes) :
    V.Parallel T pools S quiet (fun _ _ => True) (LogicSystem.chatTextMsgHandler J self s msg_data)
      (LogicSystem.chatTextMsgHandler J self s msg_data) := by
  unfold LogicSystem.chatTextMsgHandler
  dsimp only
  split
  · exact parallel_pure trivial
  · refine parallel_lift_same ?_
    intro fromuid _
    refine parallel_lift_same ?_
    intro touid _
    refine parallel_lift_same ?_
    intro text_array _
    refine parallel_bind (parallel_routeTextChatMsg self fromuid touid text_array) ?_
    intro _ _ _
    exact parallel_send (Or.inl rfl)

end Handlers

/-! ## Tasks -/

/-- The worker works on a search of a session that is none of `T`. -/
def Searches (T : ServerName → SessId → Prop) (S : ServerName) (node : LogicNode) : Prop :=
  node.recvNode.msgId = MsgIds.searchUserReq.id ∧ ¬ T S node.session

/-- **The worker's handlers in the two runs**, if those who search find the same in the cache. -/
theorem dispatch_parallel (T : ServerName → SessId → Prop) (pools : Pools) (S : ServerName)
    (node : LogicNode) :
    V.Parallel T pools S (Searches T S node) (fun _ _ => True) (LogicSystem.dispatch J S node)
      (LogicSystem.dispatch J S node) := by
  unfold LogicSystem.dispatch
  rcases hcb : LogicSystem.callback J S node.recvNode.msgId with _ | handler
  · exact parallel_pure trivial
  · dsimp only
    unfold LogicSystem.callback at hcb
    split at hcb
    · cases hcb
      exact parallel_loginHandler S node.session _
    · split at hcb
      · rename_i hid
        cases hcb
        refine parallel_searchUserHandler ?_ _
        by_cases hs : T S node.session
        · exact Or.inl hs
        · exact Or.inr ⟨hid, hs⟩
      · split at hcb
        · cases hcb
          exact parallel_addFriendHandler S node.session _
        · split at hcb
          · cases hcb
            exact parallel_authFriendHandler S node.session _
          · split at hcb
            · cases hcb
              exact parallel_chatTextMsgHandler S node.session _
            · cases hcb

/-- The callbacks of the I/O thread look at nothing that differs. -/
theorem locate_alike {T : ServerName → SessId → Prop} (S : ServerName) {p : Io Unit}
    (hp : OfSession p) :
    (locate S p).Alike (V.Paired T) (V.Told T False) Eq (locate S p) := by
  have hplain : p.Uses (Plain V T S) := by
    refine hp.mono ?_
    intro c hc
    cases c with
    | get _ | set _ _ | getUserInfo _ | getUserInfoByName _ | addFriendApply _ _ _
    | getFriendAlias _ _ | getFriendApplyAlias _ _ | getApplyList _ _ _ | authFriendApply _ _
    | addFriend _ _ _ _ | getFriendList _ | getSession _ | setUserSession _ _ | send _ _ _
    | notifyAddFriend _ _ | notifyAuthFriend _ _ | notifyTextChatMsg _ _ => cases hc
    | _ => exact ⟨rfl, fun _ _ h => h⟩
  rw [locate_eq_place J (fun _ _ => none) S (hplain.mono fun _ h => h.1)]
  exact place_alike hplain

end Variation

end ChatServer
