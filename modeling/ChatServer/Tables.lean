import ChatServer.Footprint
import ChatServer.MySqlDao
import ChatServer.Lib.Run

/-!
# What the handlers do to the tables

A message changes the two tables by the statements that its handler's calls execute, a log. A log adds
the friendships that it inserts (`Executes.friend`) and accepts the applications that it updates
(`Executes.accepted`). An acceptance applies for nothing, every other message accepts nothing
(`FriendStep.executes`), and an acceptance inserts the friendship of its applicant before that of its
accepter (`FriendStep.paired`).
-/

namespace ChatServer

open Interaction Transition Prog Handler Bytes Function

/-! ## What statements do to the tables -/

namespace Db

/-- The statements of the log, executed or not, lead from one state of the tables to another. -/
inductive Executes : Db → List (Event sql) → Db → Prop where
  | nil (db : Db) : Executes db [] db
  | snoc {db db₁ db' : Db} {log : List (Event sql)} {e : Event sql} :
      Executes db log db₁ → Sql.sem e db₁ db' → Executes db (log ++ [e]) db'

/-- The application has been accepted. -/
def Accepted (db : Db) (k : Int × Int) : Prop :=
  ∃ row, db.friendApply k = some row ∧ row.status = 1

end Db

/-- The row was inserted into `friend`, or it was there and the insertion was ignored. -/
def Inserted (log : List (Event sql)) (k : Int × Int) : Prop :=
  ∃ alias_name n, ⟨.insertFriend k.1 k.2 alias_name, some n⟩ ∈ log

/-- Inserting the row into `friend` threw. -/
def Threw (log : List (Event sql)) (k : Int × Int) : Prop :=
  ∃ alias_name, ⟨.insertFriend k.1 k.2 alias_name, none⟩ ∈ log

/-- The message accepts the application of `x` to `y`. -/
def AcceptRequest (root : Json) (msg_id x y : Int) : Prop :=
  msg_id = MsgIds.authFriendReq.id ∧ root.getInt "fromuid" = .ok x ∧ root.getInt "touid" = .ok y

/-- Friendships are inserted for a message that accepts an application: first that of the applicant,
and then its converse, unless inserting the converse throws. -/
def Paired (root : Json) (msg_id : Int) (log : List (Event sql)) : Prop :=
  ∀ k, Inserted log k → ∃ x y, AcceptRequest root msg_id x y ∧ (k = (x, y) ∨ k = (y, x)) ∧
    Inserted log (x, y) ∧ (Inserted log (y, x) ∨ Threw log (y, x))

/-- The status of the application was set, if there is one. -/
def Updated (log : List (Event sql)) (k : Int × Int) : Prop :=
  ∃ n, ⟨.updateApply k.1 k.2, some n⟩ ∈ log

/-- Statements that do not apply for a friendship. -/
def Sql.NoApply : Sql → Prop
  | .insertApply _ _ _ => False
  | _ => True

/-- Statements that do not add a friend. -/
def Sql.NoFriend : Sql → Prop
  | .insertFriend _ _ _ => False
  | _ => True

/-- Statements that neither accept an application nor add a friend. -/
def Sql.NoAccept : Sql → Prop
  | .updateApply _ _ => False
  | .insertFriend _ _ _ => False
  | _ => True

section Statements

variable {db db' : Db} {e : Event sql} {log : List (Event sql)} {k : Int × Int}

theorem inserted_snoc : Inserted (log ++ [e]) k ↔ Inserted log k ∨ Inserted [e] k := by
  simp only [Inserted, List.mem_append, exists_or]

theorem updated_snoc : Updated (log ++ [e]) k ↔ Updated log k ∨ Updated [e] k := by
  simp only [Updated, List.mem_append, exists_or]

theorem inserted_insertFriend {self_id friend_id : Int} {alias_name : Bytes} {r : Option Int} :
    Inserted [⟨.insertFriend self_id friend_id alias_name, r⟩] k ↔
      k = (self_id, friend_id) ∧ r.isSome := by
  constructor
  · rintro ⟨_, n, h⟩
    cases List.mem_singleton.mp h
    exact ⟨rfl, rfl⟩
  · rintro ⟨rfl, hr⟩
    obtain ⟨n, rfl⟩ := Option.isSome_iff_exists.mp hr
    exact ⟨alias_name, n, List.mem_singleton_self _⟩

theorem updated_updateApply {from_uid to_uid : Int} {r : Option Int} :
    Updated [⟨.updateApply from_uid to_uid, r⟩] k ↔ k = (from_uid, to_uid) ∧ r.isSome := by
  constructor
  · rintro ⟨n, h⟩
    cases List.mem_singleton.mp h
    exact ⟨rfl, rfl⟩
  · rintro ⟨rfl, hr⟩
    obtain ⟨n, rfl⟩ := Option.isSome_iff_exists.mp hr
    exact ⟨n, List.mem_singleton_self _⟩

/-- What one statement does to the existence of a friendship. -/
theorem sem_friend (h : Sql.sem e db db') :
    (db'.friend k).isSome ↔ (db.friend k).isSome ∨ Inserted [e] k := by
  obtain ⟨o, r⟩ := e
  by_cases ho : ∃ a b al, o = .insertFriend a b al
  · obtain ⟨a, b, al, rfl⟩ := ho
    rw [inserted_insertFriend]
    -- the statement is executed, or it throws
    rcases h with ⟨rfl, hr⟩ | ⟨hf, rfl⟩
    · have hr : r.isSome := by
        rw [show r = _ from hr]
        rfl
      show (update db.friend (a, b) _ k).isSome ↔ _
      by_cases hk : k = (a, b)
      · simp [hk, hr]
      · simp [hk]
    · rw [show r = none from hf]
      simp
  · have hno : ¬ Inserted [⟨o, r⟩] k := by
      rintro ⟨al, n, h⟩
      cases List.mem_singleton.mp h
      exact ho ⟨_, _, _, rfl⟩
    have hsame : db'.friend = db.friend := by
      rcases h with ⟨rfl, -⟩ | ⟨-, rfl⟩
      · cases o with
        | insertFriend a b al => exact absurd ⟨a, b, al, rfl⟩ ho
        | _ => rfl
      · rfl
    rw [hsame, or_iff_left hno]

/-- What one statement that does not apply does to an application. -/
theorem sem_accepted (h : Sql.sem e db db') (he : e.1.NoApply) :
    ((db'.friendApply k).isSome ↔ (db.friendApply k).isSome) ∧
      (db'.Accepted k ↔ db.Accepted k ∨ ((db.friendApply k).isSome ∧ Updated [e] k)) := by
  obtain ⟨o, r⟩ := e
  by_cases ho : ∃ a b, o = .updateApply a b
  · obtain ⟨a, b, rfl⟩ := ho
    rw [updated_updateApply]
    rcases h with ⟨rfl, hr⟩ | ⟨hf, rfl⟩
    · have hr : r.isSome := by
        rw [show r = _ from hr]
        dsimp only [Db.answer]
        split <;> rfl
      have happly : (db.apply (.updateApply a b)).friendApply
          = update db.friendApply (a, b)
            ((db.friendApply (a, b)).map fun row => { row with status := 1 }) := rfl
      unfold Db.Accepted
      rw [happly]
      by_cases hk : k = (a, b)
      · subst hk
        rw [update_self]
        cases db.friendApply (a, b) with
        | none => simp
        | some row => simp [hr]
      · rw [update_of_ne hk]
        simp [hk]
    · rw [show r = none from hf]
      simp
  · have hno : ¬ Updated [⟨o, r⟩] k := by
      rintro ⟨n, h⟩
      cases List.mem_singleton.mp h
      exact ho ⟨_, _, rfl⟩
    have hsame : db'.friendApply = db.friendApply := by
      rcases h with ⟨rfl, -⟩ | ⟨-, rfl⟩
      · cases o with
        | insertApply _ _ _ => exact he.elim
        | updateApply a b => exact absurd ⟨a, b, rfl⟩ ho
        | _ => rfl
      · rfl
    simp [Db.Accepted, hsame, hno]

/-- Applying for a friendship leaves it open which applications have been accepted. -/
theorem sem_accepted_of_noAccept (h : Sql.sem e db db') (he : e.1.NoAccept) :
    db'.Accepted k ↔ db.Accepted k := by
  obtain ⟨o, r⟩ := e
  rcases h with ⟨rfl, -⟩ | ⟨-, rfl⟩
  · cases o with
    | insertApply a b al =>
      show (∃ row, update db.friendApply (a, b) _ k = some row ∧ row.status = 1) ↔ _
      -- a row that is there keeps its status, a new one has status 0
      by_cases hk : k = (a, b)
      · subst hk
        rw [update_self]
        unfold Db.Accepted
        cases db.friendApply (a, b) with
        | none => simp
        | some row => simp
      · rw [update_of_ne hk]
        rfl
    | updateApply _ _ => exact he.elim
    | insertFriend _ _ _ => exact he.elim
    | _ => rfl
  · rfl

/-- A log of statements adds the friendships that it inserts. -/
theorem Db.Executes.friend (h : Db.Executes db log db') :
    (db'.friend k).isSome ↔ (db.friend k).isSome ∨ Inserted log k := by
  induction h with
  | nil => simp [Inserted]
  | snoc _ hs ih => rw [sem_friend hs, ih, inserted_snoc, or_assoc]

/-- A log without an application accepts the applications that it updates, if they are there. -/
theorem Db.Executes.accepted (h : Db.Executes db log db') (hlog : ∀ e ∈ log, e.1.NoApply) :
    ((db'.friendApply k).isSome ↔ (db.friendApply k).isSome) ∧
      (db'.Accepted k ↔ db.Accepted k ∨ ((db.friendApply k).isSome ∧ Updated log k)) := by
  induction h with
  | nil => simp [Updated]
  | snoc _ hs ih =>
    rw [List.forall_mem_append, List.forall_mem_singleton] at hlog
    obtain ⟨hrow, hacc⟩ := ih hlog.1
    obtain ⟨hrow', hacc'⟩ := sem_accepted hs hlog.2
    refine ⟨hrow'.trans hrow, ?_⟩
    rw [hacc', hacc, hrow, updated_snoc, or_assoc, ← and_or_left]

/-- A log that accepts nothing leaves it open which applications have been accepted. -/
theorem Db.Executes.accepted_of_noAccept (h : Db.Executes db log db')
    (hlog : ∀ e ∈ log, e.1.NoAccept) : db'.Accepted k ↔ db.Accepted k := by
  induction h with
  | nil => rfl
  | snoc _ hs ih =>
    rw [List.forall_mem_append, List.forall_mem_singleton] at hlog
    rw [sem_accepted_of_noAccept hs hlog.2, ih hlog.1]

theorem not_inserted_of_noAccept (hlog : ∀ e ∈ log, e.1.NoAccept) : ¬ Inserted log k := by
  rintro ⟨_, _, h⟩
  exact hlog _ h

theorem Inserted.mono {log' : List (Event sql)} (h : Inserted log k) (hsub : log ⊆ log') :
    Inserted log' k := by
  obtain ⟨alias_name, n, hmem⟩ := h
  exact ⟨alias_name, n, hsub hmem⟩

theorem Threw.mono {log' : List (Event sql)} (h : Threw log k) (hsub : log ⊆ log') :
    Threw log' k := by
  obtain ⟨alias_name, hmem⟩ := h
  exact ⟨alias_name, hsub hmem⟩

section Paired

variable {root : Json} {msg_id : Int}

theorem paired_of_noFriend (hlog : ∀ e ∈ log, e.1.NoFriend) : Paired root msg_id log := by
  rintro k ⟨_, _, h⟩
  exact (hlog _ h).elim

theorem Paired.append {log' : List (Event sql)} (h : Paired root msg_id log)
    (h' : Paired root msg_id log') : Paired root msg_id (log ++ log') := by
  rintro k ⟨al, n, hmem⟩
  have hleft := List.subset_append_left log log'
  have hright := List.subset_append_right log log'
  rcases List.mem_append.mp hmem with hmem | hmem
  · obtain ⟨x, y, hreq, hk, hins, hconv⟩ := h k ⟨al, n, hmem⟩
    exact ⟨x, y, hreq, hk, hins.mono hleft, hconv.imp (·.mono hleft) (·.mono hleft)⟩
  · obtain ⟨x, y, hreq, hk, hins, hconv⟩ := h' k ⟨al, n, hmem⟩
    exact ⟨x, y, hreq, hk, hins.mono hright, hconv.imp (·.mono hright) (·.mono hright)⟩

end Paired

theorem Db.Executes.trans {db₁ : Db} {log' : List (Event sql)} (h : Db.Executes db log db₁)
    (h' : Db.Executes db₁ log' db') : Db.Executes db (log ++ log') db' := by
  induction h' with
  | nil => rwa [List.append_nil]
  | snoc _ hs ih =>
    rw [← List.append_assoc]
    exact .snoc ih hs

/-- A function of `MySqlDao` executes the statements that it makes. -/
theorem executes_of_exec {α : Type} {p : Dao α} {a : α} (h : Exec Sql.sem p db log a db') :
    Db.Executes db log db' := by
  induction h with
  | ret a db => exact .nil db
  | call hs _ ih => exact (Db.Executes.snoc (.nil _) hs).trans ih

end Statements

/-! ## What handlers do to the tables -/

/-- Whatever statements the call executes, they satisfy `R`. -/
def Call.Logs (R : List (Event sql) → Prop) (c : Call) : Prop :=
  ∀ p ∈ MySqlDao.run c, ∀ db t a db', Exec Sql.sem p db t a db' → R t

/-- Whatever statements the call executes, each satisfies `P`. -/
abbrev Call.Executes (P : Sql → Prop) (c : Call) : Prop := c.Logs fun t => ∀ e ∈ t, P e.1

theorem executes_of_uses {P : Sql → Prop} {c : Call} {p : Dao c.Resp} (hrun : MySqlDao.run c = some p)
    (hp : p.Uses P) : c.Executes P := by
  intro q hq db t a db' h
  cases hrun.symm.trans hq
  exact h.uses hp

/-- The statements of a handler are those of its calls, one call after another. -/
theorem exec_log {α : Type} {R : List (Event sql) → Prop} (hnil : R [])
    (happend : ∀ s t, R s → R t → R (s ++ t)) {p : Io α} {x y : Db × List (Event sql)}
    {tr : List (Event calls)} {a : α} (h : Exec Db.sem p x tr a y) (hp : p.Uses (Call.Logs R)) :
    ∃ log, y.2 = x.2 ++ log ∧ Db.Executes x.1 log y.1 ∧ R log := by
  induction h with
  | ret a x => exact ⟨[], (List.append_nil _).symm, .nil _, hnil⟩
  | @call o k r tr a x x₁ y hs _ ih =>
    obtain ⟨log, hlog, hexec, hR⟩ := ih (hp.2 r)
    unfold Db.sem at hs
    cases hrun : MySqlDao.run o with
    | none =>
      rw [hrun] at hs
      obtain rfl : x₁ = x := hs
      exact ⟨log, hlog, hexec, hR⟩
    | some q =>
      rw [hrun] at hs
      obtain ⟨t, ht, hx⟩ := hs
      refine ⟨t ++ log, ?_, (executes_of_exec ht).trans hexec, ?_⟩
      · rw [hlog, hx, List.append_assoc]
      · exact happend t log (hp.1 q hrun _ t _ _ ht) hR

/-- The same for a property of every single statement. -/
theorem exec_log_each {α : Type} {P : Sql → Prop} {p : Io α} {x y : Db × List (Event sql)}
    {tr : List (Event calls)} {a : α} (h : Exec Db.sem p x tr a y) (hp : p.Uses (Call.Executes P)) :
    ∃ log, y.2 = x.2 ++ log ∧ Db.Executes x.1 log y.1 ∧ ∀ e ∈ log, P e.1 := by
  refine exec_log (R := fun t => ∀ e ∈ t, P e.1) (fun _ he => nomatch he) ?_ h hp
  intro s t hs ht
  exact List.forall_mem_append.mpr ⟨hs, ht⟩

namespace MySqlDao

variable {P : Sql → Prop}

/-- Every function begins by asking for a connection. -/
theorem uses_connection {α : Type} {a : α} {p : Dao α} (hcon : P .getConnection) (hp : p.Uses P) :
    (Dao.ask .getConnection >>= fun con => if con = false then pure a else p).Uses P := by
  refine uses_perform_bind hcon fun con => ?_
  split
  · trivial
  · exact hp

theorem addFriendApply_uses {uid touid : Int} {apply_alias_name : Bytes} (hcon : P .getConnection)
    (h : P (.insertApply uid touid apply_alias_name)) :
    (addFriendApply uid touid apply_alias_name).Uses P := by
  refine uses_connection hcon (uses_perform_bind h fun row_affected => ?_)
  cases row_affected <;> trivial

theorem getFriendApplyAlias_uses {from_uid to_uid : Int} (hcon : P .getConnection)
    (h : P (.selectApplyAlias from_uid to_uid)) : (getFriendApplyAlias from_uid to_uid).Uses P := by
  refine uses_connection hcon (uses_perform_bind h fun res => ?_)
  rcases res with _ | _ | out_alias <;> trivial

theorem getFriendAlias_uses {self_id friend_id : Int} (hcon : P .getConnection)
    (h : P (.selectFriendAlias self_id friend_id)) : (getFriendAlias self_id friend_id).Uses P := by
  refine uses_connection hcon (uses_perform_bind h fun res => ?_)
  rcases res with _ | _ | out_alias <;> trivial

theorem authFriendApply_uses {uid touid : Int} (hcon : P .getConnection)
    (h : P (.updateApply uid touid)) : (authFriendApply uid touid).Uses P := by
  refine uses_connection hcon (uses_perform_bind h fun row_affected => ?_)
  cases row_affected <;> trivial

theorem addFriend_uses {applicant_uid accepter_uid : Int} {alias₁ alias₂ : Bytes}
    (hcon : P .getConnection) (h₁ : P (.insertFriend applicant_uid accepter_uid alias₁))
    (h₂ : P (.insertFriend accepter_uid applicant_uid alias₂)) :
    (addFriend applicant_uid accepter_uid alias₁ alias₂).Uses P := by
  refine uses_connection hcon (uses_perform_bind h₁ fun row_affected => ?_)
  cases row_affected with
  | none => trivial
  | some row_affected =>
    refine uses_perform_bind h₂ fun row_affected2 => ?_
    cases row_affected2 <;> trivial

/-- `addFriend` inserts two rows, or the second insertion throws, or nothing is inserted. -/
theorem addFriend_paired {root : Json} {msg_id applicant_uid accepter_uid : Int}
    {alias₁ alias₂ : Bytes} {db db' : Db} {t : List (Event sql)} {r : Bool}
    (hreq : AcceptRequest root msg_id applicant_uid accepter_uid)
    (h : Exec Sql.sem (addFriend applicant_uid accepter_uid alias₁ alias₂) db t r db') :
    Paired root msg_id t := by
  have hy := h.yields
  unfold addFriend at hy
  rw [perform_bind, yields_call] at hy
  obtain ⟨con, t, rfl, hy⟩ := hy
  have hcon : Paired root msg_id [⟨.getConnection, con⟩] :=
    paired_of_noFriend (List.forall_mem_singleton.mpr trivial)
  refine hcon.append ?_
  split at hy
  · obtain ⟨rfl, -⟩ := yields_ret.mp hy
    exact paired_of_noFriend fun _ he => nomatch he
  · rw [perform_bind, yields_call] at hy
    obtain ⟨row_affected, t, rfl, hy⟩ := hy
    cases row_affected with
    | none =>
      -- the first INSERT throws, and the second is not made
      obtain ⟨rfl, -⟩ := yields_ret.mp hy
      rintro k ⟨_, _, hmem⟩
      cases List.mem_singleton.mp hmem
    | some n =>
      dsimp only at hy
      rw [perform_bind, yields_call] at hy
      obtain ⟨row_affected2, t, rfl, hy⟩ := hy
      have ht : t = [] := by
        cases row_affected2 <;> exact (yields_ret.mp hy).1
      subst ht
      rintro k ⟨al, m, hmem⟩
      refine ⟨applicant_uid, accepter_uid, hreq, ?_, ⟨_, n, List.mem_cons_self⟩, ?_⟩
      · rcases List.mem_cons.mp hmem with heq | hmem
        · cases heq
          exact Or.inl rfl
        · cases List.mem_singleton.mp hmem
          exact Or.inr rfl
      · cases row_affected2 with
        | none => exact Or.inr ⟨_, List.mem_cons_of_mem _ List.mem_cons_self⟩
        | some m => exact Or.inl ⟨_, m, List.mem_cons_of_mem _ List.mem_cons_self⟩

end MySqlDao

namespace LogicSystem

variable {J : JsonCpp} {self : ServerName} {session : SessId} {root : Json} {msg_id : Int} {c : Call}

/-- Calls that run no function of `MySqlDao` on the two tables. -/
theorem logs_of_run_none {R : List (Event sql) → Prop} (h : MySqlDao.run c = none) : c.Logs R := by
  rw [Call.Logs, h]
  exact fun _ hp => nomatch hp

theorem CacheCall.logs {R : List (Event sql) → Prop} (h : CacheCall c) : c.Logs R := by
  cases h <;> exact logs_of_run_none rfl

theorem LoginCall.logs {R : List (Event sql) → Prop} {uid : Int}
    (h : LoginCall self session uid c) : c.Logs R := by
  cases h with
  | cache h => exact h.logs
  | _ => exact logs_of_run_none rfl

theorem SearchCall.logs {R : List (Event sql) → Prop} (h : SearchCall c) : c.Logs R := by
  cases h with
  | cache h => exact h.logs
  | _ => exact logs_of_run_none rfl

theorem TextChatCall.logs {R : List (Event sql) → Prop} {fromuid touid : Int} {text_array : Json}
    (h : TextChatCall J fromuid touid text_array c) : c.Logs R := by
  cases h <;> exact logs_of_run_none rfl

/-- The only statement of a friend request is the application. -/
theorem AddFriendCall.executes {P : Sql → Prop} {uid touid : Int} {name alias_name : Bytes}
    (h : AddFriendCall J uid touid name alias_name c) (hcon : P .getConnection)
    (happly : P (.insertApply uid touid alias_name)) : c.Executes P := by
  cases h with
  | apply => exact executes_of_uses rfl (MySqlDao.addFriendApply_uses hcon happly)
  | cache h => exact h.logs
  | _ => exact logs_of_run_none rfl

/-- A friend request accepts nothing. -/
theorem HandlerCall.noAccept (h : HandlerCall J self session root msg_id c)
    (hid : msg_id ≠ MsgIds.authFriendReq.id) : c.Executes Sql.NoAccept := by
  cases h with
  | login h => exact h.logs
  | search h => exact h.logs
  | addFriend _ h => exact h.executes trivial trivial
  | authFriend | authFriendReply => exact absurd rfl hid
  | textChat _ h => exact h.logs
  | _ => exact logs_of_run_none rfl

theorem paired_of_executes (h : c.Executes Sql.NoFriend) : c.Logs (Paired root msg_id) :=
  fun p hp db t a db' ht => paired_of_noFriend (h p hp db t a db' ht)

/-- Only an acceptance inserts friendships. -/
theorem HandlerCall.paired (h : HandlerCall J self session root msg_id c) :
    c.Logs (Paired root msg_id) := by
  cases h with
  | login h => exact h.logs
  | search h => exact h.logs
  | addFriend _ h => exact paired_of_executes (h.executes trivial trivial)
  | authFriend hfrom hto h =>
    cases h with
    | cache h => exact h.logs
    | applyAlias =>
      exact paired_of_executes (executes_of_uses rfl (MySqlDao.getFriendApplyAlias_uses trivial trivial))
    | accept => exact paired_of_executes (executes_of_uses rfl (MySqlDao.authFriendApply_uses trivial trivial))
    | add =>
      -- the one call that inserts friendships
      rintro _ ⟨⟩ db t a db' ht
      exact MySqlDao.addFriend_paired ⟨rfl, hfrom, hto⟩ ht
    | friendAlias =>
      exact paired_of_executes (executes_of_uses rfl (MySqlDao.getFriendAlias_uses trivial trivial))
    | _ => exact logs_of_run_none rfl
  | textChat _ h => exact h.logs
  | _ => exact logs_of_run_none rfl

/-- An acceptance applies for nothing. -/
theorem HandlerCall.noApply (h : HandlerCall J self session root MsgIds.authFriendReq.id c) :
    c.Executes Sql.NoApply := by
  generalize hid : MsgIds.authFriendReq.id = msg_id at h
  cases h with
  | authFriend _ _ h =>
    cases h with
    | cache h => exact h.logs
    | applyAlias => exact executes_of_uses rfl (MySqlDao.getFriendApplyAlias_uses trivial trivial)
    | accept => exact executes_of_uses rfl (MySqlDao.authFriendApply_uses trivial trivial)
    | add => exact executes_of_uses rfl (MySqlDao.addFriend_uses trivial trivial trivial)
    | friendAlias => exact executes_of_uses rfl (MySqlDao.getFriendAlias_uses trivial trivial)
    | _ => exact logs_of_run_none rfl
  | authFriendReply => exact logs_of_run_none rfl
  | _ => exact absurd hid (by decide)

end LogicSystem

/-! ## Runs -/

/-- A worker handles a message; the statements that it executes are recorded. Nothing is assumed
about the server, the session, the message, or what Redis and the peers answer. -/
inductive FriendStep (J : JsonCpp) : Db → LogicNode × List (Event sql) → Db → Prop where
  | handle {self : ServerName} {node : LogicNode} {db db' : Db} {tr : List (Event calls)}
      {log : List (Event sql)} {r : Except Exn Unit} :
      Exec Db.sem (LogicSystem.dispatch J self node).run (db, []) tr r (db', log) →
      FriendStep J db (node, log) db'

/-- What handling a message does to the tables: it executes a log of statements, and either accepts
nothing or applies for nothing. -/
theorem FriendStep.executes {J : JsonCpp} {db db' : Db} {l : LogicNode × List (Event sql)}
    (h : FriendStep J db l db') :
    Db.Executes db l.2 db' ∧ ((∀ e ∈ l.2, e.1.NoAccept) ∨ (∀ e ∈ l.2, e.1.NoApply)) := by
  cases h with
  | @handle self node _ _ tr log r hexec =>
    have hcalls := LogicSystem.dispatch_calls J self node
    by_cases hid : node.recvNode.msgId = MsgIds.authFriendReq.id
    · rw [hid] at hcalls
      obtain ⟨t, rfl, ht, hP⟩ := exec_log_each hexec (hcalls.mono fun _ hc => hc.noApply)
      exact ⟨ht, Or.inr hP⟩
    · obtain ⟨t, rfl, ht, hP⟩ := exec_log_each hexec (hcalls.mono fun _ hc => hc.noAccept hid)
      exact ⟨ht, Or.inl hP⟩

/-- The message accepts the application of `x` to `y`. -/
def LogicNode.Accepts (node : LogicNode) (J : JsonCpp) (x y : Int) : Prop :=
  AcceptRequest (J.parse node.recvNode.text).2 node.recvNode.msgId x y

/-- Handling a message inserts friendships for the application that it accepts. -/
theorem FriendStep.paired {J : JsonCpp} {db db' : Db} {node : LogicNode} {log : List (Event sql)}
    (h : FriendStep J db (node, log) db') :
    Paired (J.parse node.recvNode.text).2 node.recvNode.msgId log := by
  cases h with
  | @handle self _ _ _ tr _ r hexec =>
    obtain ⟨t, rfl, -, hpaired⟩ := exec_log (paired_of_noFriend fun _ he => nomatch he)
      (fun _ _ => Paired.append) hexec
      ((LogicSystem.dispatch_calls J self node).mono fun _ hc => hc.paired)
    exact hpaired

/-! ## Handling messages -/

/-- The tables after a message, and the statements that were executed. -/
def Db.handled (J : JsonCpp) (self : ServerName) (fails : Sql → Bool) (db : Db) (node : LogicNode) :
    Db × List (Event sql) :=
  ((LogicSystem.dispatch J self node).run.run (Db.interpret fails) (db, [])).2

theorem Db.handled_step (J : JsonCpp) (self : ServerName) (fails : Sql → Bool) (db : Db)
    (node : LogicNode) :
    FriendStep J db (node, (db.handled J self fails node).2) (db.handled J self fails node).1 := by
  obtain ⟨tr, htr⟩ := Prog.exec_run (Db.sem_interpret fails)
    (LogicSystem.dispatch J self node).run (db, [])
  exact .handle htr

/-- Messages that are handled one after another, each with the statements that fail. -/
def Db.handledAll (J : JsonCpp) (self : ServerName) :
    Db → List (LogicNode × (Sql → Bool)) → List ((LogicNode × List (Event sql)) × Db)
  | _, [] => []
  | db, (node, fails) :: rest =>
    let x := db.handled J self fails node
    ((node, x.2), x.1) :: x.1.handledAll J self rest

theorem Db.handledAll_run (J : JsonCpp) (self : ServerName) (db : Db)
    (ms : List (LogicNode × (Sql → Bool))) :
    Run (FriendStep J) db (db.handledAll J self ms) (final db (db.handledAll J self ms)) := by
  induction ms generalizing db with
  | nil => exact .nil
  | cons m ms ih => exact .cons (db.handled_step J self m.2 m.1) (ih _)

end ChatServer
