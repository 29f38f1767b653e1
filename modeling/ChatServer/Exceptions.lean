import ChatServer.World

/-!
# Exceptions that leave a handler

`dealMsg` has no `try` block, so an exception that leaves a handler ends the worker thread and the
process with it. `dispatch_returns_iff` says for every message and for all answers that Redis and
the database can give when a handler returns: when the body of the message has the shape that the
handler expects, and the stored texts it converts can be converted.

A handler's condition is put together statement by statement: `Returns h P` says that `h` returns
exactly when all the answers it received are as `P` asks.
-/

namespace ChatServer

open Interaction Prog Handler Bytes Decimal

/-! ## Shapes -/

namespace Json

/-- The member converts to an `int`. A missing member does. -/
def HasInt (root : Json) (key : String) : Prop := (root.lookup (lit key)).IntLike

/-- The member converts to a string. A missing member does. -/
def HasString (root : Json) (key : String) : Prop := (root.lookup (lit key)).StringLike

/-- A profile that `getProfile` can read. -/
structure ProfileShape (root : Json) : Prop where
  members : root.hasMembers = true
  uid : root.HasInt "uid"
  name : root.HasString "name"
  pwd : root.HasString "pwd"
  email : root.HasString "email"
  nick : root.HasString "nick"
  desc : root.HasString "desc"
  sex : root.HasInt "sex"
  icon : root.HasString "icon"

/-- A text of a `text_array` that can be passed on to another server. -/
structure TextShape (text_obj : Json) : Prop where
  members : text_obj.hasMembers = true
  content : text_obj.HasString "content"
  msgid : text_obj.HasString "msgid"

/-- A login request. -/
structure LoginShape (root : Json) : Prop where
  members : root.hasMembers = true
  uid : root.HasInt "uid"
  token : root.HasString "token"

/-- A search request: an object whose `uid`, if there is one, converts to a string. -/
structure SearchShape (root : Json) : Prop where
  members : root.hasMembers = true
  uid : root.HasString "uid"

/-- A friend request. -/
structure AddFriendShape (root : Json) : Prop where
  members : root.hasMembers = true
  uid : root.HasInt "uid"
  apply_name : root.HasString "apply_name"
  alias_name : root.HasString "alias_name"
  touid : root.HasInt "touid"

/-- The acceptance of a friend request. -/
structure AuthFriendShape (root : Json) : Prop where
  members : root.hasMembers = true
  fromuid : root.HasInt "fromuid"
  touid : root.HasInt "touid"
  alias_name : root.HasString "alias_name"

/-- A text message. -/
structure TextChatShape (root : Json) : Prop where
  members : root.hasMembers = true
  fromuid : root.HasInt "fromuid"
  touid : root.HasInt "touid"

end Json

/-! ## Composing conditions -/

/-- `x` does not throw. -/
def Ok {α : Type} (x : Except Exn α) : Prop := ∃ a, x = .ok a

theorem ok_bind {α β : Type} {x : Except Exn α} {f : α → Except Exn β} :
    Ok (x >>= f) ↔ ∃ a, x = .ok a ∧ Ok (f a) := by
  cases x with
  | ok a =>
    refine ⟨fun h => ⟨a, rfl, h⟩, ?_⟩
    rintro ⟨_, h, hf⟩
    cases h
    exact hf
  | error e =>
    refine ⟨?_, ?_⟩
    · rintro ⟨_, h⟩
      cases h
    · rintro ⟨_, h, -⟩
      cases h

/-- A first computation that can throw, and a second one whose throwing does not depend on what the
first returns. -/
theorem ok_bind_iff {α β : Type} {x : Except Exn α} {f : α → Except Exn β} {P Q : Prop}
    (hx : Ok x ↔ P) (hf : ∀ a, Ok (f a) ↔ Q) : Ok (x >>= f) ↔ P ∧ Q := by
  rw [ok_bind, ← hx]
  constructor
  · rintro ⟨a, ha, hok⟩
    exact ⟨⟨a, ha⟩, (hf a).mp hok⟩
  · rintro ⟨⟨a, ha⟩, hq⟩
    exact ⟨a, ha, (hf a).mpr hq⟩

theorem ok_pure {α : Type} (a : α) : Ok (pure a : Except Exn α) ↔ True :=
  ⟨fun _ => trivial, fun _ => ⟨a, rfl⟩⟩

theorem getInt_ok_iff (root : Json) (key : String) :
    Ok (root.getInt key) ↔ root.hasMembers = true ∧ root.HasInt key := by
  unfold Json.getInt Json.HasInt
  rw [Json.intLike_iff]
  cases hm : root.hasMembers with
  | true =>
    rw [Json.member_of_hasMembers hm]
    exact ⟨fun h => ⟨rfl, h⟩, fun h => h.2⟩
  | false =>
    rw [Json.member_of_not_hasMembers hm]
    exact ⟨fun ⟨_, h⟩ => (nomatch h), fun ⟨h, _⟩ => (nomatch h)⟩

theorem member_ok_iff (root : Json) (key : String) :
    Ok (root.member key) ↔ root.hasMembers = true := by
  cases hm : root.hasMembers with
  | true => exact ⟨fun _ => rfl, fun _ => ⟨_, Json.member_of_hasMembers hm⟩⟩
  | false =>
    rw [Json.member_of_not_hasMembers hm]
    exact ⟨fun ⟨_, h⟩ => (nomatch h), fun h => (nomatch h)⟩

theorem lookup_of_member {root v : Json} {key : String} (h : root.member key = .ok v) :
    root.lookup (lit key) = v := by
  unfold Json.member at h
  split at h
  · cases h
    rfl
  · cases h

theorem getString_ok_iff (J : JsonCpp) (root : Json) (key : String) :
    Ok (root.getString J key) ↔ root.hasMembers = true ∧ root.HasString key := by
  unfold Json.getString Json.HasString
  rw [Json.stringLike_iff J]
  cases hm : root.hasMembers with
  | true =>
    rw [Json.member_of_hasMembers hm]
    exact ⟨fun h => ⟨rfl, h⟩, fun h => h.2⟩
  | false =>
    rw [Json.member_of_not_hasMembers hm]
    exact ⟨fun ⟨_, h⟩ => (nomatch h), fun ⟨h, _⟩ => (nomatch h)⟩

theorem asString_of_getString {J : JsonCpp} {root : Json} {key : String} {text : Bytes}
    (h : root.getString J key = .ok text) : (root.lookup (lit key)).asString J = .ok text := by
  unfold Json.getString at h
  cases hm : root.hasMembers with
  | true => rwa [Json.member_of_hasMembers hm] at h
  | false =>
    rw [Json.member_of_not_hasMembers hm] at h
    cases h

theorem getProfile_ok_iff (J : JsonCpp) (root : Json) :
    Ok (root.getProfile J) ↔ root.ProfileShape := by
  unfold Json.getProfile
  rw [ok_bind_iff (getInt_ok_iff _ _) fun _ => ok_bind_iff (getString_ok_iff J _ _) fun _ =>
    ok_bind_iff (getString_ok_iff J _ _) fun _ => ok_bind_iff (getString_ok_iff J _ _) fun _ =>
    ok_bind_iff (getString_ok_iff J _ _) fun _ => ok_bind_iff (getString_ok_iff J _ _) fun _ =>
    ok_bind_iff (getInt_ok_iff _ _) fun _ => ok_bind_iff (getString_ok_iff J _ _) fun _ =>
    ok_pure _]
  constructor
  · rintro ⟨⟨hm, h1⟩, ⟨-, h2⟩, ⟨-, h3⟩, ⟨-, h4⟩, ⟨-, h5⟩, ⟨-, h6⟩, ⟨-, h7⟩, ⟨-, h8⟩, -⟩
    exact ⟨hm, h1, h2, h3, h4, h5, h6, h7, h8⟩
  · rintro ⟨hm, h1, h2, h3, h4, h5, h6, h7, h8⟩
    exact ⟨⟨hm, h1⟩, ⟨hm, h2⟩, ⟨hm, h3⟩, ⟨hm, h4⟩, ⟨hm, h5⟩, ⟨hm, h6⟩, ⟨hm, h7⟩, ⟨hm, h8⟩, trivial⟩

theorem textChatData_ok_iff (J : JsonCpp) (text_obj : Json) :
    Ok (LogicSystem.textChatData J text_obj) ↔ text_obj.TextShape := by
  unfold LogicSystem.textChatData
  rw [ok_bind_iff (getString_ok_iff J _ _) fun _ => ok_bind_iff (getString_ok_iff J _ _) fun _ =>
    ok_pure _]
  constructor
  · rintro ⟨⟨hm, h1⟩, ⟨-, h2⟩, -⟩
    exact ⟨hm, h1, h2⟩
  · rintro ⟨hm, h1, h2⟩
    exact ⟨⟨hm, h1⟩, ⟨hm, h2⟩, trivial⟩

theorem ok_mapM {α β : Type} {f : α → Except Exn β} {S : α → Prop} (hf : ∀ a, Ok (f a) ↔ S a)
    (as : List α) : Ok (as.mapM f) ↔ ∀ a ∈ as, S a := by
  induction as with
  | nil =>
    rw [List.mapM_nil, ok_pure]
    simp
  | cons a as ih =>
    rw [List.mapM_cons, ok_bind_iff (hf a) fun _ => (ok_bind_iff ih fun _ => ok_pure _),
      List.forall_mem_cons, and_true]

/-- The texts can be passed on exactly when each of them can. -/
theorem textChatDatas_ok_iff (J : JsonCpp) (text_array : Json) :
    Ok (LogicSystem.textChatDatas J text_array) ↔ ∀ t ∈ text_array.children, t.TextShape :=
  ok_mapM (textChatData_ok_iff J) _

/-! ## When a handler returns -/

/-- The handler returns exactly when `S` holds and every answer it received is as `P` asks. -/
def Returns {α : Type} (h : Handler α) (S : Prop) (P : Event calls → Prop) : Prop :=
  ∀ tr exit, Yields h.run tr exit → (Ok exit ↔ S ∧ ∀ e ∈ tr, P e)

section Rules

variable {α β : Type} {S T : Prop} {P : Event calls → Prop}

theorem Returns.congr {h : Handler α} (hr : Returns h S P) (hST : S ↔ T) : Returns h T P :=
  fun tr exit hy => (hr tr exit hy).trans (and_congr_left fun _ => hST)

theorem returns_pure (a : α) : Returns (pure a) True P := by
  intro tr exit hy
  obtain ⟨rfl, rfl⟩ := yields_ret.mp hy
  exact ⟨fun _ => ⟨trivial, fun e he => (nomatch he)⟩, fun _ => ⟨a, rfl⟩⟩

/-- A computation that can throw, as a statement. -/
theorem returns_lift {x : Except Exn α} {f : α → Handler β} (hx : Ok x ↔ S)
    (hf : ∀ a, x = .ok a → Returns (f a) T P) : Returns (liftM x >>= f) (S ∧ T) P := by
  intro tr exit hy
  cases x with
  | ok a =>
    have hS : S := hx.mp ⟨a, rfl⟩
    rw [hf a rfl tr exit hy]
    exact ⟨fun ⟨ht, hp⟩ => ⟨⟨hS, ht⟩, hp⟩, fun ⟨⟨_, ht⟩, hp⟩ => ⟨ht, hp⟩⟩
  | error e =>
    obtain ⟨rfl, rfl⟩ := yields_ret.mp hy
    refine ⟨fun ⟨_, h⟩ => (nomatch h), fun ⟨⟨hs, _⟩, _⟩ => ?_⟩
    obtain ⟨_, h⟩ := hx.mpr hs
    cases h

theorem returns_lift_last {x : Except Exn α} (hx : Ok x ↔ S) : Returns (liftM x) S P := by
  intro tr exit hy
  cases x with
  | ok a =>
    obtain ⟨rfl, rfl⟩ := yields_ret.mp hy
    exact ⟨fun h => ⟨hx.mp h, fun e he => (nomatch he)⟩, fun _ => ⟨a, rfl⟩⟩
  | error e =>
    obtain ⟨rfl, rfl⟩ := yields_ret.mp hy
    exact ⟨fun h => ⟨hx.mp h, fun e he => (nomatch he)⟩, fun h => hx.mpr h.1⟩

/-- A call. What follows an answer returns exactly when the answer is as `P` asks, among the rest. -/
theorem returns_ask {c : Call} {f : c.Resp → Handler β}
    (hf : ∀ r, Returns (f r) (P ⟨c, r⟩ ∧ S) P) : Returns (ask c >>= f) S P := by
  intro tr exit hy
  obtain ⟨r, tr', htr, hy'⟩ := yields_call.mp hy
  subst htr
  rw [hf r tr' exit hy', List.forall_mem_cons]
  exact ⟨fun ⟨⟨h1, h2⟩, h3⟩ => ⟨h2, h1, h3⟩, fun ⟨h2, h1, h3⟩ => ⟨⟨h1, h2⟩, h3⟩⟩

/-- A call whose answers are all as `P` asks. -/
theorem returns_ask_any {c : Call} {f : c.Resp → Handler β} (hc : ∀ r, P ⟨c, r⟩)
    (hf : ∀ r, Returns (f r) S P) : Returns (ask c >>= f) S P :=
  returns_ask fun r => (hf r).congr ⟨fun h => ⟨hc r, h⟩, fun h => h.2⟩

theorem returns_ask_last {c : Call} (hc : ∀ r, P ⟨c, r⟩) : Returns (ask c) True P := by
  intro tr exit hy
  obtain ⟨r, tr', htr, hy'⟩ := yields_call.mp hy
  obtain ⟨rfl, rfl⟩ := yields_ret.mp hy'
  subst htr
  exact ⟨fun _ => ⟨trivial, List.forall_mem_cons.mpr ⟨hc r, fun e he => (nomatch he)⟩⟩,
    fun _ => ⟨r, rfl⟩⟩

theorem returns_bind {h : Handler α} {f : α → Handler β} (hh : Returns h S P)
    (hf : ∀ a, Returns (f a) T P) : Returns (h >>= f) (S ∧ T) P := by
  intro tr exit hy
  rw [ExceptT.run_bind] at hy
  obtain ⟨r, t₁, t₂, rfl, h₁, h₂⟩ := yields_bind.mp hy
  rw [List.forall_mem_append]
  cases r with
  | ok a =>
    obtain ⟨hs, hp⟩ := (hh t₁ _ h₁).mp ⟨a, rfl⟩
    rw [hf a t₂ exit h₂]
    exact ⟨fun ⟨ht, h⟩ => ⟨⟨hs, ht⟩, hp, h⟩, fun ⟨⟨_, ht⟩, _, h⟩ => ⟨ht, h⟩⟩
  | error e =>
    obtain ⟨rfl, rfl⟩ := yields_ret.mp h₂
    refine ⟨fun ⟨_, h⟩ => (nomatch h), fun ⟨⟨hs, _⟩, hp, _⟩ => ?_⟩
    obtain ⟨_, h⟩ := (hh t₁ _ h₁).mpr ⟨hs, hp⟩
    cases h

/-- A first handler whose returning depends on its answers only. -/
theorem returns_bind_any {h : Handler α} {f : α → Handler β} (hh : Returns h True P)
    (hf : ∀ a, Returns (f a) S P) : Returns (h >>= f) S P :=
  (returns_bind hh hf).congr (iff_of_eq (true_and _))

end Rules

/-! ## The handlers -/

/-- A stored login count that `std::stoi` converts; a missing one counts as zero. -/
def CountText (rd_res : Bytes) : Prop := rd_res = [] ∨ ∃ i, parseInt rd_res = some i ∧ Word.IsInt i

theorem readCount_ok_iff (rd_res : Bytes) : Ok (readCount rd_res) ↔ CountText rd_res := by
  unfold readCount CountText stoi
  by_cases hnil : rd_res = []
  · rw [if_pos hnil]
    exact ⟨fun _ => Or.inl hnil, fun _ => ⟨0, rfl⟩⟩
  · rw [if_neg hnil]
    cases hparse : parseInt rd_res with
    | none =>
      refine ⟨fun ⟨_, h⟩ => (nomatch h), ?_⟩
      rintro (h | ⟨_, h, -⟩)
      · exact absurd h hnil
      · cases h
    | some i =>
      dsimp only
      by_cases hi : Word.IsInt i
      · rw [if_pos hi]
        exact ⟨fun _ => Or.inr ⟨i, rfl, hi⟩, fun _ => ⟨i, rfl⟩⟩
      · rw [if_neg hi]
        refine ⟨fun ⟨_, h⟩ => (nomatch h), ?_⟩
        rintro (h | ⟨_, h, hj⟩)
        · exact absurd h hnil
        · cases h
          exact absurd hj hi

/-- If the answer is a login count, it can be converted. -/
def CountReadable : Event calls → Prop
  | ⟨.hGet _ _, r⟩ => CountText r
  | _ => True

/-- If the answer is a cached profile, it can be read. -/
def ProfileReadable (J : JsonCpp) : Event calls → Prop
  | ⟨.get _, some info_str⟩ => (J.parse info_str).2.ProfileShape
  | _ => True

/-- If the answer is a route to another server, the texts can be passed on. -/
def TextsReadable (self : ServerName) (text_array : Json) : Event calls → Prop
  | ⟨.get _, some to_ip_value⟩ => to_ip_value ≠ self.val → ∀ t ∈ text_array.children, t.TextShape
  | _ => True

namespace LogicSystem

variable {P : Event calls → Prop} (J : JsonCpp) (self : ServerName)

theorem cacheProfile_returns (hset : ∀ key value r, P ⟨.set key value, r⟩)
    (base_key name cache_json : Bytes) : Returns (cacheProfile base_key name cache_json) True P := by
  refine returns_ask_any (hset _ _) fun _ => ?_
  split
  · exact returns_pure _
  · exact returns_ask_any (hset _ _) fun _ => returns_pure _

theorem getBaseInfo_returns (hset : ∀ key value r, P ⟨.set key value, r⟩)
    (hdb : ∀ uid r, P ⟨.getUserInfo uid, r⟩) (base_key : Bytes) (uid : Int) :
    Returns (getBaseInfo J base_key uid) True P := by
  refine returns_ask_any (hdb uid) fun db_user => ?_
  cases db_user with
  | none => exact returns_pure _
  | some db_user =>
    exact returns_bind_any (cacheProfile_returns hset _ _ _) fun _ => returns_pure _

theorem bindUser_returns (session : SessId) (uid : Int) :
    Returns (bindUser self session uid) True CountReadable := by
  refine returns_ask fun rd_res => returns_lift (readCount_ok_iff rd_res) fun count _ => ?_
  refine returns_ask_any (fun _ => trivial) fun _ => returns_ask_any (fun _ => trivial) fun _ =>
    returns_ask_any (fun _ => trivial) fun _ => ?_
  exact returns_ask_last fun _ => trivial

theorem login_returns (session : SessId) (uid : Int) (token : Bytes) :
    Returns (login J self session uid token) True CountReadable := by
  refine returns_ask_any (fun _ => trivial) fun token_value => ?_
  cases token_value with
  | none => exact returns_pure _
  | some token_value =>
    dsimp only
    split
    · exact returns_pure _
    · refine returns_bind_any (getBaseInfo_returns J (fun _ _ _ => trivial) (fun _ _ => trivial) _ _)
        fun user_info => ?_
      cases user_info with
      | none => exact returns_pure _
      | some user_info =>
        refine returns_ask_any (fun _ => trivial) fun apply => ?_
        refine returns_ask_any (fun _ => trivial) fun friends => ?_
        exact returns_bind_any (bindUser_returns self session uid) fun _ => returns_pure _

theorem loginHandler_returns (session : SessId) (msg_data : Bytes) :
    Returns (loginHandler J self session msg_data) (J.parse msg_data).2.LoginShape
      CountReadable := by
  refine Returns.congr (returns_lift (getInt_ok_iff _ _) fun uid _ =>
    returns_lift (getString_ok_iff J _ _) fun token _ =>
    returns_bind_any (login_returns J self session uid token) fun _ =>
    returns_ask_last fun _ => trivial) ?_
  constructor
  · rintro ⟨⟨hm, huid⟩, ⟨-, htoken⟩, -⟩
    exact ⟨hm, huid, htoken⟩
  · rintro ⟨hm, huid, htoken⟩
    exact ⟨⟨hm, huid⟩, ⟨hm, htoken⟩, trivial⟩

theorem profileReply_ok_iff (info_str : Bytes) :
    Ok (profileReply J info_str) ↔ (J.parse info_str).2.ProfileShape := by
  unfold profileReply
  rw [ok_bind_iff (getProfile_ok_iff J _) fun _ => ok_pure _, and_true]

theorem getUserByUid_returns {uid_str : Bytes} (huid : ∃ i, stoi uid_str = .ok i) :
    Returns (getUserByUid J uid_str) True (ProfileReadable J) := by
  refine returns_ask fun info_str => ?_
  cases info_str with
  | some info_str =>
    exact (returns_lift_last (profileReply_ok_iff J info_str)).congr (iff_of_eq (and_true _)).symm
  | none =>
    have hstoi : Ok (stoi uid_str) ↔ True := ⟨fun _ => trivial, fun _ => huid⟩
    refine returns_lift hstoi fun uid _ => returns_ask_any (fun _ => trivial) fun user_info => ?_
    cases user_info with
    | none => exact returns_pure _
    | some user_info =>
      exact returns_bind_any (cacheProfile_returns (fun _ _ _ => trivial) _ _ _) fun _ =>
        returns_pure _

theorem getUserByName_returns (name_str : Bytes) :
    Returns (getUserByName J name_str) True (ProfileReadable J) := by
  refine returns_ask fun info_str => ?_
  cases info_str with
  | some info_str =>
    exact (returns_lift_last (profileReply_ok_iff J info_str)).congr (iff_of_eq (and_true _)).symm
  | none =>
    refine Returns.congr (S := True) (returns_ask_any (fun _ => trivial) fun user_info => ?_)
      (iff_of_eq (and_true _)).symm
    cases user_info with
    | none => exact returns_pure _
    | some user_info =>
      exact returns_bind_any (cacheProfile_returns (fun _ _ _ => trivial) _ _ _) fun _ =>
        returns_pure _

theorem isMember_ok_iff (root : Json) (key : String) :
    Ok (root.isMember key) ↔ root.hasMembers = true := by
  cases root with
  | null => exact ⟨fun _ => rfl, fun _ => ⟨false, rfl⟩⟩
  | obj members => exact ⟨fun _ => rfl, fun _ => ⟨_, rfl⟩⟩
  | bool | int | real | str | arr => exact ⟨fun ⟨_, h⟩ => (nomatch h), fun h => (nomatch h)⟩

/-- A member that `isMember` denies is null, which converts to a string. -/
theorem hasString_of_not_member {root : Json} {key : String} (h : root.isMember key = .ok false) :
    root.HasString key := by
  cases root with
  | obj members =>
    have hnone : members.lookup (lit key) = none := by
      cases hl : members.lookup (lit key) with
      | none => rfl
      | some v => simp [Json.isMember, hl] at h
    simp [Json.HasString, Json.lookup, hnone, Json.StringLike]
  | null | bool | int | real | str | arr => trivial

theorem searchUser_returns (msg_data : Bytes) :
    Returns (searchUser J msg_data)
      ((J.parse msg_data).1 = true → (J.parse msg_data).2.SearchShape) (ProfileReadable J) := by
  unfold searchUser
  dsimp only
  cases hparse : (J.parse msg_data).1 with
  | false =>
    rw [if_pos rfl]
    exact (returns_pure _).congr ⟨fun _ h => (nomatch h), fun _ => trivial⟩
  | true =>
    rw [if_neg (by decide)]
    refine Returns.congr (returns_lift (T := (J.parse msg_data).2.hasMembers = true ∧
      (J.parse msg_data).2.HasString "uid") (isMember_ok_iff _ "uid") fun b_uid hb => ?_) ?_
    · cases b_uid with
      | false =>
        have hm := (isMember_ok_iff _ "uid").mp ⟨_, hb⟩
        exact (returns_pure _).congr
          ⟨fun _ => ⟨hm, hasString_of_not_member hb⟩, fun _ => trivial⟩
      | true =>
        rw [if_neg (by decide)]
        refine (returns_lift (getString_ok_iff J _ "uid") fun uid_str huid => ?_).congr
          (iff_of_eq (and_true _))
        split
        · rename_i hint
          exact getUserByUid_returns J (Json.stoi_asString_of_isInt J hint (asString_of_getString huid))
        · exact getUserByName_returns J uid_str
    · constructor
      · rintro ⟨hm, -, huid⟩ -
        exact ⟨hm, huid⟩
      · intro h
        exact ⟨(h rfl).members, (h rfl).members, (h rfl).uid⟩

theorem searchUserHandler_returns (session : SessId) (msg_data : Bytes) :
    Returns (searchUserHandler J session msg_data)
      ((J.parse msg_data).1 = true → (J.parse msg_data).2.SearchShape) (ProfileReadable J) :=
  Returns.congr (returns_bind (searchUser_returns J msg_data) fun _ =>
    returns_ask_last (c := .send _ _ _) fun _ => trivial) (iff_of_eq (and_true _))

theorem routeAddFriend_returns (uid touid : Int) (name alias_name : Bytes) :
    Returns (routeAddFriend J self uid touid name alias_name) True fun _ => True := by
  refine returns_ask_any (fun _ => trivial) fun to_ip_value => ?_
  cases to_ip_value with
  | none => exact returns_pure _
  | some to_ip_value =>
    refine returns_bind_any (getBaseInfo_returns J (fun _ _ _ => trivial) (fun _ _ => trivial) _ _)
      fun apply_info => ?_
    split
    · refine returns_ask_any (fun _ => trivial) fun to_user_session => ?_
      cases to_user_session with
      | none => exact returns_pure _
      | some _ => exact returns_ask_last fun _ => trivial
    · exact returns_ask_any (fun _ => trivial) fun _ => returns_pure _

theorem addFriendHandler_returns (session : SessId) (msg_data : Bytes) :
    Returns (addFriendHandler J self session msg_data) (J.parse msg_data).2.AddFriendShape
      fun _ => True := by
  refine Returns.congr (returns_lift (getInt_ok_iff _ _) fun uid _ =>
    returns_lift (getString_ok_iff J _ _) fun name _ =>
    returns_lift (getString_ok_iff J _ _) fun alias_name _ =>
    returns_lift (getInt_ok_iff _ _) fun touid _ =>
    returns_ask_any (fun _ => trivial) fun _ =>
    returns_bind_any (routeAddFriend_returns J self uid touid name alias_name) fun _ =>
    returns_ask_last fun _ => trivial) ?_
  constructor
  · rintro ⟨⟨hm, huid⟩, ⟨-, hname⟩, ⟨-, halias⟩, ⟨-, htouid⟩, -⟩
    exact ⟨hm, huid, hname, halias, htouid⟩
  · rintro ⟨hm, huid, hname, halias, htouid⟩
    exact ⟨⟨hm, huid⟩, ⟨hm, hname⟩, ⟨hm, halias⟩, ⟨hm, htouid⟩, trivial⟩

theorem routeAuthFriend_returns (applicant_uid accepter_uid : Int)
    (applicant_peer_alias : Bytes) :
    Returns (routeAuthFriend J self applicant_uid accepter_uid applicant_peer_alias) True
      fun _ => True := by
  refine returns_ask_any (fun _ => trivial) fun to_ip_value => ?_
  cases to_ip_value with
  | none => exact returns_pure _
  | some to_ip_value =>
    dsimp only
    split
    · refine returns_ask_any (fun _ => trivial) fun peer_session => ?_
      cases peer_session with
      | none => exact returns_pure _
      | some _ =>
        exact returns_bind_any (getBaseInfo_returns J (fun _ _ _ => trivial) (fun _ _ => trivial) _ _)
          fun _ => returns_ask_last fun _ => trivial
    · exact returns_ask_any (fun _ => trivial) fun _ => returns_pure _

theorem authFriendHandler_returns (session : SessId) (msg_data : Bytes) :
    Returns (authFriendHandler J self session msg_data) (J.parse msg_data).2.AuthFriendShape
      fun _ => True := by
  refine Returns.congr (returns_lift (getInt_ok_iff _ _) fun applicant_uid _ =>
    returns_lift (getInt_ok_iff _ _) fun accepter_uid _ =>
    returns_lift (getString_ok_iff J _ _) fun alias_name _ =>
    returns_bind_any (getBaseInfo_returns J (fun _ _ _ => trivial) (fun _ _ => trivial) _ _)
      fun user_info =>
    returns_ask_any (fun _ => trivial) fun apply_alias =>
    returns_ask_any (fun _ => trivial) fun _ =>
    returns_ask_any (fun _ => trivial) fun _ =>
    returns_ask_any (fun _ => trivial) fun peer_alias =>
    returns_bind_any (routeAuthFriend_returns J self applicant_uid accepter_uid peer_alias.2) fun _ =>
    returns_ask_last fun _ => trivial) ?_
  constructor
  · rintro ⟨⟨hm, hfrom⟩, ⟨-, hto⟩, ⟨-, halias⟩, -⟩
    exact ⟨hm, hfrom, hto, halias⟩
  · rintro ⟨hm, hfrom, hto, halias⟩
    exact ⟨⟨hm, hfrom⟩, ⟨hm, hto⟩, ⟨hm, halias⟩, trivial⟩

theorem routeTextChatMsg_returns (fromuid touid : Int) (text_array : Json) :
    Returns (routeTextChatMsg J self fromuid touid text_array) True
      (TextsReadable self text_array) := by
  refine returns_ask fun to_ip_value => ?_
  cases to_ip_value with
  | none => exact (returns_pure _).congr (iff_of_eq (and_true _)).symm
  | some to_ip_value =>
    dsimp only
    split
    · rename_i hself
      refine Returns.congr (S := True) (returns_ask_any (fun _ => trivial) fun session => ?_)
        ⟨fun _ => ⟨fun hne => absurd hself hne, trivial⟩, fun _ => trivial⟩
      cases session with
      | none => exact returns_pure _
      | some _ => exact returns_ask_last fun _ => trivial
    · rename_i hother
      refine Returns.congr (returns_lift (textChatDatas_ok_iff J text_array) fun textmsgs _ =>
        returns_ask_any (fun _ => trivial) fun _ => returns_pure _) ?_
      exact and_congr_left fun _ => ⟨fun h _ => h, fun h => h hother⟩

/-- The empty bodies are dropped before their members are read. -/
theorem chatTextMsgHandler_returns (session : SessId) (msg_data : Bytes) :
    Returns (chatTextMsgHandler J self session msg_data)
      ((J.parse msg_data).2.empty = false → (J.parse msg_data).2.TextChatShape)
      (TextsReadable self ((J.parse msg_data).2.lookup (lit "text_array"))) := by
  unfold chatTextMsgHandler
  dsimp only
  split
  · rename_i hempty
    have hempty : (J.parse msg_data).2.empty = true := by
      cases hroot : (J.parse msg_data).2 <;> simp_all [Json.isNull, Json.empty]
    exact (returns_pure _).congr ⟨fun _ h => by simp [hempty] at h, fun _ => trivial⟩
  · rename_i hempty
    have hempty : (J.parse msg_data).2.empty = false := by simp_all
    refine Returns.congr (returns_lift (getInt_ok_iff _ _) fun fromuid _ =>
      returns_lift (getInt_ok_iff _ _) fun touid _ =>
      returns_lift (T := True) (member_ok_iff _ _) fun text_array htext => ?_) ?_
    · obtain rfl := lookup_of_member htext
      exact returns_bind_any (routeTextChatMsg_returns J self fromuid touid _) fun _ =>
        returns_ask_last fun _ => trivial
    · rw [hempty]
      constructor
      · rintro ⟨⟨hm, hfrom⟩, ⟨-, hto⟩, -⟩ -
        exact ⟨hm, hfrom, hto⟩
      · intro h
        obtain ⟨hm, hfrom, hto⟩ := h rfl
        exact ⟨⟨hm, hfrom⟩, ⟨hm, hto⟩, hm, trivial⟩

end LogicSystem

/-! ## Every message -/

/-- The body of a message, as jsoncpp parses it, has the shape that the handler of its `msg_id`
expects. A search whose body does not parse is answered with an error, an empty text message is
dropped, and a `msg_id` without a handler is skipped. -/
def WellShaped (J : JsonCpp) (node : RecvNode) : Prop :=
  let parsed := J.parse node.text
  if node.msgId = MsgIds.chatLogin.id then parsed.2.LoginShape
  else if node.msgId = MsgIds.searchUserReq.id then parsed.1 = true → parsed.2.SearchShape
  else if node.msgId = MsgIds.addFriendReq.id then parsed.2.AddFriendShape
  else if node.msgId = MsgIds.authFriendReq.id then parsed.2.AuthFriendShape
  else if node.msgId = MsgIds.textChatMsgReq.id then parsed.2.empty = false → parsed.2.TextChatShape
  else True

/-- A stored text that the handler of this message converts can be converted: the login count of a
login, the cached profile of a search, and, when a text message is for a user of another server, its
own texts. -/
def StoredReadable (J : JsonCpp) (self : ServerName) (node : RecvNode) (e : Event calls) : Prop :=
  if node.msgId = MsgIds.chatLogin.id then CountReadable e
  else if node.msgId = MsgIds.searchUserReq.id then ProfileReadable J e
  else if node.msgId = MsgIds.textChatMsgReq.id then
    TextsReadable self ((J.parse node.text).2.lookup (lit "text_array")) e
  else True

theorem dispatch_returns (J : JsonCpp) (self : ServerName) (node : LogicNode) :
    Returns (LogicSystem.dispatch J self node) (WellShaped J node.recvNode)
      (StoredReadable J self node.recvNode) := by
  show Returns _ _ fun e => StoredReadable J self node.recvNode e
  unfold LogicSystem.dispatch LogicSystem.callback WellShaped StoredReadable
  dsimp only
  by_cases hlogin : node.recvNode.msgId = MsgIds.chatLogin.id
  · simp only [if_pos hlogin]
    exact LogicSystem.loginHandler_returns J self _ _
  simp only [if_neg hlogin]
  by_cases hsearch : node.recvNode.msgId = MsgIds.searchUserReq.id
  · simp only [if_pos hsearch]
    exact LogicSystem.searchUserHandler_returns J _ _
  simp only [if_neg hsearch]
  by_cases hadd : node.recvNode.msgId = MsgIds.addFriendReq.id
  · have htext : ¬ node.recvNode.msgId = MsgIds.textChatMsgReq.id := by
      rw [hadd]
      decide
    simp only [if_pos hadd, if_neg htext]
    exact LogicSystem.addFriendHandler_returns J self _ _
  simp only [if_neg hadd]
  by_cases hauth : node.recvNode.msgId = MsgIds.authFriendReq.id
  · have htext : ¬ node.recvNode.msgId = MsgIds.textChatMsgReq.id := by
      rw [hauth]
      decide
    simp only [if_pos hauth, if_neg htext]
    exact LogicSystem.authFriendHandler_returns J self _ _
  simp only [if_neg hauth]
  by_cases htext : node.recvNode.msgId = MsgIds.textChatMsgReq.id
  · simp only [if_pos htext]
    exact LogicSystem.chatTextMsgHandler_returns J self _ _
  simp only [if_neg htext]
  exact returns_pure _

/-- **When a handler returns.** Whatever Redis, the database and the peers answer, no exception
leaves the handler of a message exactly when the message has the expected shape and the stored
texts it converts can be converted. -/
theorem dispatch_returns_iff (J : JsonCpp) (self : ServerName) (node : LogicNode)
    (tr : List (Event calls)) (exit : Except Exn Unit)
    (h : Yields (LogicSystem.dispatch J self node).run tr exit) :
    exit = .ok () ↔
      WellShaped J node.recvNode ∧ ∀ e ∈ tr, StoredReadable J self node.recvNode e := by
  rw [← dispatch_returns J self node tr exit h]
  exact ⟨fun h => ⟨(), h⟩, fun ⟨_, h⟩ => h⟩

/-- A search for the user 7, and a search whose body is an array. -/
def searchTexts : JsonCpp :=
  .ofTable [(lit "\x7b\"uid\":7\x7d", .obj [(lit "uid", .int 7)]), (lit "[]", .arr [])]

/-- The search for the user 7. -/
def searchNode : LogicNode := .received 0 .searchUserReq (lit "\x7b\"uid\":7\x7d")

/-- The search for a user who does not exist returns: its shape is right, and no stored profile is
read. -/
theorem dispatch_returns_search : ∃ tr : List (Event calls),
    WellShaped searchTexts searchNode.recvNode ∧
      ∀ e ∈ tr, StoredReadable searchTexts ⟨lit "s1", by decide⟩ searchNode.recvNode e := by
  obtain ⟨tr, h⟩ := exec_run (World.sem_interpret false World.noAnswer)
    (LogicSystem.dispatch searchTexts ⟨lit "s1", by decide⟩ searchNode).run World.init
  exact ⟨tr, (dispatch_returns_iff searchTexts _ searchNode tr _ h.yields).mp rfl⟩

/-- The array is well-formed JSON, and looking for a member of it throws. -/
theorem dispatch_throws_search : ¬ ∀ (J : JsonCpp) (self : ServerName) (node : LogicNode)
    (tr : List (Event calls)) (exit : Except Exn Unit), node.recvNode.text.length ≤ maxLength →
    Yields (LogicSystem.dispatch J self node).run tr exit → exit = .ok () := by
  intro h
  have hthrow : Yields (LogicSystem.dispatch searchTexts ⟨lit "s1", by decide⟩
      (LogicNode.received 0 .searchUserReq (lit "[]"))).run [] (.error .logicError) := .ret _
  cases h _ _ _ _ _ (by decide) hthrow

end ChatServer
