import ChatServer.History
import ChatServer.Lib.Threads

/-!
# Workers that share the tables

Each server has a worker, and the workers of all servers execute their statements on the same two tables, one
statement at a time and without transactions. A worker's job is a message. A handler's program is taken apart
into the statements of its calls (`actions`), so that the statements of two workers can come in any order.
`tables_shared` says what the tables have in every state of every such run, when any statement may fail.
-/

namespace ChatServer

open Interaction Transition Prog Handler Bytes Function

/-! ## Statements and other calls -/

/-- What a worker does at a time: a statement, or a call that is not on the two tables. -/
inductive Action where
  | sql (o : Sql)
  | call (c : Call)

@[reducible] def Action.Resp : Action → Type
  | .sql o => o.Resp
  | .call c => c.Resp

abbrev actionSig : Sig := ⟨Action, Action.Resp⟩

/-- A program over statements and other calls. -/
abbrev Acting : Type → Type := Prog actionSig

namespace MySqlDao

/-- The statements of a function. -/
def actions {α : Type} : Dao α → Acting α
  | .ret a => .ret a
  | .call o k => .call (.sql o) fun r => actions (k r)

end MySqlDao

/-- A program of a server, with the statements of its calls on the tables. -/
def actions {α : Type} : Io α → Acting α
  | .ret a => .ret a
  | .call c k =>
    match MySqlDao.run c with
    | none => .call (.call c) fun r => actions (k r)
    | some p => MySqlDao.actions p >>= fun r => actions (k r)

/-- A statement acts on the tables or fails; another call may be answered by anything. -/
def Action.sem : Event actionSig → Db → Db → Prop
  | ⟨.sql o, r⟩, db, db' => Sql.sem ⟨o, r⟩ db db'
  | ⟨.call _, _⟩, db, db' => db' = db

/-- The statement that an action is. -/
def statement : Event actionSig → Option (Event sql)
  | ⟨.sql o, r⟩ => some ⟨o, r⟩
  | ⟨.call _, _⟩ => none

/-- The statements among the actions. -/
def statements (past : List (Event actionSig)) : List (Event sql) := past.filterMap statement

theorem statements_snoc (past : List (Event actionSig)) (e : Event actionSig) :
    statements (past ++ [e]) = statements past ++ (statement e).toList := by
  rcases h : statement e with _ | o <;> simp [statements, h]

@[simp] theorem statements_sql (past : List (Event actionSig)) (o : Sql) (r : o.Resp) :
    statements (past ++ [⟨.sql o, r⟩]) = statements past ++ [⟨o, r⟩] := statements_snoc _ _

@[simp] theorem statements_call (past : List (Event actionSig)) (c : Call) (r : c.Resp) :
    statements (past ++ [⟨.call c, r⟩]) = statements past := by
  simp [statements_snoc, statement]

theorem mem_statements {past : List (Event actionSig)} {o : Sql} {r : o.Resp} :
    (⟨o, r⟩ : Event sql) ∈ statements past ↔ (⟨.sql o, r⟩ : Event actionSig) ∈ past := by
  unfold statements
  rw [List.mem_filterMap]
  constructor
  · rintro ⟨⟨_ | _, r'⟩, he, heq⟩
    · cases heq
      exact he
    · cases heq
  · exact fun h => ⟨_, h, rfl⟩

/-- The tables are what the statements make of them. -/
theorem executes_of_executed {db db' : Db} {log : List (Event actionSig)}
    (h : Executed Action.sem db log db') : Db.Executes db (statements log) db' := by
  induction h with
  | nil => exact .nil db
  | @snoc log e w w' _ hs ih =>
    obtain ⟨o | c, r⟩ := e
    · rw [statements_sql]
      exact ih.snoc hs
    · obtain rfl : w' = w := hs
      rwa [statements_call]

/-! ## Conditions on the statements of a program -/

/-- Each statement of the program satisfies `P` together with those before it, and the program returns only
what `post` accepts together with all of them. -/
def Orderly {α : Type} (P : List (Event sql) → Sql → Prop) (post : α → List (Event sql) → Prop) :
    Io α → List (Event sql) → Prop
  | .ret a, log => post a log
  | .call c k, log =>
    match MySqlDao.run c with
    | none => ∀ r, Orderly P post (k r) log
    | some p => p.Heeds (fun _ => True) P (fun r log => Orderly P post (k r) log) log

section Orderly

variable {α β : Type} {P : List (Event sql) → Sql → Prop} {log : List (Event sql)}

/-- The condition, on the actions. -/
def OnStatements (P : List (Event sql) → Sql → Prop) (past : List (Event actionSig)) : Action → Prop
  | .sql o => P (statements past) o
  | .call _ => True

theorem heeds_dao {p : Dao α} {post : α → List (Event sql) → Prop} {past : List (Event actionSig)}
    (h : p.Heeds (fun _ => True) P post (statements past)) :
    (MySqlDao.actions p).Heeds (fun _ => True) (OnStatements P) (fun a past => post a (statements past))
      past := by
  induction p generalizing past with
  | ret a => exact h
  | call o k ih =>
    refine ⟨h.1, fun r _ => ih r ?_⟩
    rw [statements_sql]
    exact h.2 r trivial

/-- **A program whose statements are orderly keeps the condition** when it is taken apart. -/
theorem heeds_actions {p : Io α} {post : α → List (Event sql) → Prop} {past : List (Event actionSig)}
    (h : Orderly P post p (statements past)) :
    (actions p).Heeds (fun _ => True) (OnStatements P) (fun a past => post a (statements past)) past := by
  induction p generalizing past with
  | ret a => exact h
  | call c k ih =>
    unfold Orderly at h
    unfold actions
    rcases hrun : MySqlDao.run c with _ | p
    · simp only [hrun] at h ⊢
      refine ⟨trivial, fun r _ => ih r ?_⟩
      rw [statements_call]
      exact h r
    · simp only [hrun] at h ⊢
      exact (heeds_dao h).bind fun r past hr => ih r hr

theorem orderly_bind {mid : Except Exn α → List (Event sql) → Prop}
    {post : Except Exn β → List (Event sql) → Prop} {h : Handler α} {f : α → Handler β}
    (hh : Orderly P mid h.run log) (hok : ∀ a log, mid (.ok a) log → Orderly P post (f a).run log)
    (herr : ∀ e log, mid (.error e) log → post (.error e) log) :
    Orderly P post (h >>= f).run log := by
  rw [ExceptT.run_bind]
  generalize h.run = p at hh
  induction p generalizing log with
  | ret r =>
    rcases r with e | a
    · exact herr e log hh
    · exact hok a log hh
  | call c k ih =>
    rw [call_bind]
    unfold Orderly at hh ⊢
    rcases hrun : MySqlDao.run c with _ | p
    · simp only [hrun] at hh ⊢
      exact fun r => ih r (hh r)
    · simp only [hrun] at hh ⊢
      exact hh.mono fun r log hr => ih r hr

theorem orderly_lift {post : Except Exn β → List (Event sql) → Prop} {x : Except Exn α}
    {f : α → Handler β} (hok : ∀ a, x = .ok a → Orderly P post (f a).run log)
    (herr : ∀ e, x = .error e → post (.error e) log) :
    Orderly P post ((liftM x : Handler α) >>= f).run log := by
  rcases x with e | a
  · exact herr e rfl
  · exact hok a rfl

/-- A call on the tables. -/
theorem orderly_ask {post : Except Exn β → List (Event sql) → Prop} {c : Call} {p : Dao c.Resp}
    {f : c.Resp → Handler β} (hrun : MySqlDao.run c = some p)
    (hp : p.Heeds (fun _ => True) P (fun r log => Orderly P post (f r).run log) log) :
    Orderly P post (ask c >>= f).run log := by
  show Orderly P post (Prog.call (S := calls) c fun r => (f r).run) log
  unfold Orderly
  simp only [hrun]
  exact hp

/-- The call has no statements on the tables. -/
abbrev Call.Apart (c : Call) : Prop := MySqlDao.run c = none

/-- A program without statements. -/
theorem Uses.orderly {p : Io α} (hp : p.Uses Call.Apart) (log : List (Event sql)) :
    Orderly P (fun _ log' => log' = log) p log := by
  induction p with
  | ret a => rfl
  | call c k ih =>
    unfold Orderly
    simp only [show MySqlDao.run c = none from hp.1]
    exact fun r => ih r (hp.2 r)

theorem Orderly.mono {post post' : α → List (Event sql) → Prop} {p : Io α} (h : Orderly P post p log)
    (hpost : ∀ a log, post a log → post' a log) : Orderly P post' p log := by
  induction p generalizing log with
  | ret a => exact hpost a log h
  | call c k ih =>
    unfold Orderly at h ⊢
    rcases hrun : MySqlDao.run c with _ | p
    · simp only [hrun] at h ⊢
      exact fun r => ih r (h r)
    · simp only [hrun] at h ⊢
      exact h.mono fun r log hr => ih r hr

end Orderly

/-! ## What a message has the tables do -/

/-- The statement may be executed for the request after those of the log. -/
def Due (q : Option FriendRequest) (log : List (Event sql)) : Sql → Prop
  | .insertApply from_uid to_uid alias_name => q = some (.add from_uid to_uid alias_name)
  | .selectApplyAlias from_uid to_uid => ∃ alias_name, q = some (.accept from_uid to_uid alias_name)
  | .updateApply from_uid to_uid => ∃ alias_name, q = some (.accept from_uid to_uid alias_name)
  | .insertFriend self_id friend_id alias_name =>
    -- the accepter's row comes second, with the alias of the request
    (∃ peer_alias, q = some (.accept self_id friend_id peer_alias) ∧
      (alias_name = [] ∨ ⟨.selectApplyAlias self_id friend_id, some (some alias_name)⟩ ∈ log)) ∨
    (q = some (.accept friend_id self_id alias_name) ∧ Inserted log (friend_id, self_id))
  | _ => True

/-- The statements did what the request asks for. -/
def CarriedOut : Option FriendRequest → List (Event sql) → Prop
  | none, _ => True
  | some (.add uid touid alias_name), log => ∃ n, ⟨.insertApply uid touid alias_name, some n⟩ ∈ log
  | some (.accept fromuid touid _), log =>
    Updated log (fromuid, touid) ∧ Inserted log (fromuid, touid) ∧ Inserted log (touid, fromuid)

/-- Nothing failed. -/
def Clean (log : List (Event sql)) : Prop := ∀ e ∈ log, ¬ Sql.Failed e

/-- A friendship was inserted from both sides, unless the second insertion threw. -/
def BothWays (log : List (Event sql)) : Prop :=
  ∀ k, Inserted log k → Inserted log k.swap ∨ Threw log k.swap

/-- The handler is at its end. -/
structure Ended (q : Option FriendRequest) (r : Except Exn Unit) (log : List (Event sql)) : Prop where
  bothWays : BothWays log
  carried : r = .ok () → Clean log → CarriedOut q log

/-- A statement was tried, on a connection if there was one. -/
def Tried (o : Sql) (log log' : List (Event sql)) : Prop :=
  log' = log ++ [⟨.getConnection, false⟩] ∨
    ∃ x : o.Resp, log' = log ++ [⟨.getConnection, true⟩, ⟨o, x⟩]

section Statements

variable {log log' : List (Event sql)} {o : Sql} {q : Option FriendRequest}

theorem Clean.mono (h : Clean log') (hsub : log ⊆ log') : Clean log := fun e he => h e (hsub he)

theorem Tried.subset (h : Tried o log log') : log ⊆ log' := by
  rcases h with rfl | ⟨x, rfl⟩ <;> simp

theorem Tried.noFriend (h : Tried o log log') (ho : o.NoFriend) (hlog : ∀ e ∈ log, e.1.NoFriend) :
    ∀ e ∈ log', e.1.NoFriend := by
  intro e he
  rcases h with rfl | ⟨x, rfl⟩
  · rcases List.mem_append.mp he with he | he
    · exact hlog e he
    · rw [List.mem_singleton.mp he]
      trivial
  · rcases List.mem_append.mp he with he | he
    · exact hlog e he
    · rcases List.mem_cons.mp he with rfl | he
      · trivial
      · rw [List.mem_singleton.mp he]
        exact ho

theorem Tried.clean (h : Tried o log log') (hclean : Clean log') :
    ∃ x : o.Resp, ¬ Sql.Failed ⟨o, x⟩ ∧ (⟨o, x⟩ : Event sql) ∈ log' := by
  rcases h with rfl | ⟨x, rfl⟩
  · exact absurd rfl (hclean ⟨.getConnection, false⟩ (by simp))
  · exact ⟨x, hclean _ (by simp), by simp⟩

theorem not_inserted (hlog : ∀ e ∈ log, e.1.NoFriend) (k : Int × Int) : ¬ Inserted log k := by
  rintro ⟨_, _, hmem⟩
  exact hlog _ hmem

theorem bothWays_of_noFriend (hlog : ∀ e ∈ log, e.1.NoFriend) : BothWays log :=
  fun k hk => (not_inserted hlog k hk).elim

theorem not_inserted_getConnection (con : Bool) (k : Int × Int) :
    ¬ Inserted [⟨.getConnection, con⟩] k := by
  refine not_inserted ?_ k
  intro e he
  rw [List.mem_singleton.mp he]
  trivial

theorem Tried.inserted (h : Tried o log log') (ho : o.NoFriend) (k : Int × Int) :
    Inserted log' k ↔ Inserted log k := by
  have hlast : ∀ x : o.Resp, ¬ Inserted [⟨o, x⟩] k :=
    fun x => not_inserted (List.forall_mem_singleton.mpr ho) k
  rcases h with rfl | ⟨x, rfl⟩
  · rw [inserted_snoc, or_iff_left (not_inserted_getConnection false k)]
  · rw [← List.singleton_append, ← List.append_assoc, inserted_snoc, inserted_snoc,
      or_iff_left (hlast x), or_iff_left (not_inserted_getConnection true k)]

theorem Tried.bothWays (h : Tried o log log') (ho : o.NoFriend) (hlog : BothWays log) : BothWays log' := by
  intro k hk
  rcases hlog k ((h.inserted ho k).mp hk) with hk | hk
  · exact Or.inl (hk.mono h.subset)
  · exact Or.inr (hk.mono h.subset)

end Statements

namespace MySqlDao

section Functions

variable {α : Type} {q : Option FriendRequest} {log : List (Event sql)}

/-- A function with one statement. -/
theorem heeds_tried {o : Sql} {a : α} {g : o.Resp → Dao α} {post : α → List (Event sql) → Prop}
    (hdue : ∀ log, Due q log o) (hfail : post a (log ++ [⟨.getConnection, false⟩]))
    (hg : ∀ x, (g x).Heeds (fun _ => True) (Due q) post (log ++ [⟨.getConnection, true⟩, ⟨o, x⟩])) :
    (Dao.ask .getConnection >>= fun con => if con = false then pure a else Dao.ask o >>= g).Heeds
      (fun _ => True) (Due q) post log := by
  refine ⟨trivial, fun con _ => ?_⟩
  rcases con with _ | _
  · exact hfail
  · refine ⟨hdue _, fun x _ => ?_⟩
    rw [List.append_assoc]
    exact hg x

theorem addFriendApply_heeds (uid touid : Int) (alias_name : Bytes)
    (hq : q = some (.add uid touid alias_name)) :
    (addFriendApply uid touid alias_name).Heeds (fun _ => True) (Due q)
      (fun _ log' => Tried (.insertApply uid touid alias_name) log log') log := by
  refine heeds_tried (fun _ => hq) (Or.inl rfl) fun row_affected => ?_
  rcases row_affected with _ | n <;> exact Or.inr ⟨_, rfl⟩

theorem getFriendApplyAlias_heeds {from_uid to_uid : Int} {alias_name : Bytes}
    (hq : q = some (.accept from_uid to_uid alias_name)) :
    (getFriendApplyAlias from_uid to_uid).Heeds (fun _ => True) (Due q)
      (fun r log' => Tried (.selectApplyAlias from_uid to_uid) log log' ∧
        (r.2 = [] ∨ ⟨.selectApplyAlias from_uid to_uid, some (some r.2)⟩ ∈ log')) log := by
  refine heeds_tried (fun _ => ⟨alias_name, hq⟩) ⟨Or.inl rfl, Or.inl rfl⟩ fun res => ?_
  rcases res with _ | _ | out_alias
  · exact ⟨Or.inr ⟨_, rfl⟩, Or.inl rfl⟩
  · exact ⟨Or.inr ⟨_, rfl⟩, Or.inl rfl⟩
  · exact ⟨Or.inr ⟨_, rfl⟩, Or.inr (by simp)⟩

theorem authFriendApply_heeds {uid touid : Int} {alias_name : Bytes}
    (hq : q = some (.accept uid touid alias_name)) :
    (authFriendApply uid touid).Heeds (fun _ => True) (Due q)
      (fun _ log' => Tried (.updateApply uid touid) log log') log := by
  refine heeds_tried (fun _ => ⟨alias_name, hq⟩) (Or.inl rfl) fun row_affected => ?_
  rcases row_affected with _ | n <;> exact Or.inr ⟨_, rfl⟩

theorem getFriendAlias_heeds (self_id friend_id : Int) :
    (getFriendAlias self_id friend_id).Heeds (fun _ => True) (Due q)
      (fun _ log' => Tried (.selectFriendAlias self_id friend_id) log log') log := by
  refine heeds_tried (fun _ => trivial) (Or.inl rfl) fun res => ?_
  rcases res with _ | _ | out_alias <;> exact Or.inr ⟨_, rfl⟩

/-- The second row is inserted only after the first. -/
theorem addFriend_heeds {applicant_uid accepter_uid : Int} {alias₁ alias₂ : Bytes}
    (hq : q = some (.accept applicant_uid accepter_uid alias₂))
    (halias : alias₁ = [] ∨ ⟨.selectApplyAlias applicant_uid accepter_uid, some (some alias₁)⟩ ∈ log)
    (hlog : ∀ e ∈ log, e.1.NoFriend) :
    (addFriend applicant_uid accepter_uid alias₁ alias₂).Heeds (fun _ => True) (Due q)
      (fun _ log' => BothWays log' ∧ log ⊆ log' ∧ (Clean log' →
        Inserted log' (applicant_uid, accepter_uid) ∧ Inserted log' (accepter_uid, applicant_uid))) log := by
  have hnone : ∀ con k, ¬ Inserted (log ++ [⟨.getConnection, con⟩]) k := by
    intro con k
    rw [inserted_snoc, not_or]
    exact ⟨not_inserted hlog k, not_inserted_getConnection con k⟩
  refine ⟨trivial, fun con _ => ?_⟩
  rcases con with _ | _
  · refine ⟨fun k hk => (hnone false k hk).elim, by simp, fun hclean => ?_⟩
    exact absurd rfl (hclean ⟨.getConnection, false⟩ (by simp))
  refine ⟨Or.inl ⟨alias₂, hq, halias.imp_right fun h => List.mem_append_left _ h⟩, fun row_affected _ => ?_⟩
  have hfirst : ∀ k, Inserted (log ++ [⟨.getConnection, true⟩] ++
      [⟨.insertFriend applicant_uid accepter_uid alias₁, row_affected⟩]) k ↔
        k = (applicant_uid, accepter_uid) ∧ row_affected.isSome := by
    intro k
    rw [inserted_snoc, or_iff_right (hnone true k), inserted_insertFriend]
  rcases row_affected with _ | n
  · -- the first INSERT throws, and the second is not made
    refine ⟨?_, by simp, fun hclean => ?_⟩
    · intro k hk
      cases ((hfirst k).mp hk).2
    · exact absurd rfl (hclean ⟨.insertFriend applicant_uid accepter_uid alias₁, none⟩ (by simp))
  refine ⟨Or.inr ⟨hq, (hfirst _).mpr ⟨rfl, rfl⟩⟩, fun row_affected2 _ => ?_⟩
  have hboth : ∀ k, Inserted (log ++ [⟨.getConnection, true⟩] ++
      [⟨.insertFriend applicant_uid accepter_uid alias₁, some n⟩] ++
      [⟨.insertFriend accepter_uid applicant_uid alias₂, row_affected2⟩]) k ↔
        k = (applicant_uid, accepter_uid) ∨ k = (accepter_uid, applicant_uid) ∧ row_affected2.isSome := by
    intro k
    rw [inserted_snoc, hfirst, inserted_insertFriend]
    simp
  rcases row_affected2 with _ | m
  · refine ⟨?_, by simp, fun hclean => ?_⟩
    · intro k hk
      rcases (hboth k).mp hk with rfl | ⟨-, hsome⟩
      · exact Or.inr ⟨alias₂, by simp⟩
      · cases hsome
    · exact absurd rfl (hclean ⟨.insertFriend accepter_uid applicant_uid alias₂, none⟩ (by simp))
  · refine ⟨?_, by simp, fun _ => ⟨(hboth _).mpr (Or.inl rfl), (hboth _).mpr (Or.inr ⟨rfl, rfl⟩)⟩⟩
    intro k hk
    rcases (hboth k).mp hk with rfl | ⟨rfl, -⟩
    · exact Or.inl ((hboth _).mpr (Or.inr ⟨rfl, rfl⟩))
    · exact Or.inl ((hboth _).mpr (Or.inl rfl))

end Functions

end MySqlDao

/-! ## The handlers -/

namespace LogicSystem

variable {J : JsonCpp} {self : ServerName}

theorem getBaseInfo_apart (uid : Int) : (getBaseInfo J (baseKey uid) uid).run.Uses Call.Apart :=
  (getBaseInfo_calls _ uid).mono fun c h => by rcases h with _ | _ | _ <;> rfl

/-- Looking for the one to notify, and notifying, executes no statement on the tables. -/
theorem routeAddFriend_apart (uid touid : Int) (name alias_name : Bytes) :
    (routeAddFriend J self uid touid name alias_name).run.Uses Call.Apart := by
  refine uses_ask rfl fun to_ip_value => ?_
  rcases to_ip_value with _ | to_ip_value
  · exact uses_pure _
  refine uses_bind (getBaseInfo_apart uid) fun apply_info => ?_
  split
  · refine uses_ask rfl fun to_user_session => ?_
    rcases to_user_session with _ | s
    · exact uses_pure _
    · exact uses_ask_last rfl
  · exact uses_ask rfl fun _ => uses_pure _

theorem routeAuthFriend_apart (applicant_uid accepter_uid : Int) (peer_alias : Bytes) :
    (routeAuthFriend J self applicant_uid accepter_uid peer_alias).run.Uses Call.Apart := by
  refine uses_ask rfl fun to_ip_value => ?_
  rcases to_ip_value with _ | to_ip_value
  · exact uses_pure _
  dsimp only
  split
  · refine uses_ask rfl fun peer_session => ?_
    rcases peer_session with _ | s
    · exact uses_pure _
    · exact uses_bind (getBaseInfo_apart accepter_uid) fun _ => uses_ask_last rfl
  · exact uses_ask rfl fun _ => uses_pure _

/-- A message of another kind executes no statement on the tables. -/
theorem HandlerCall.apart {session : SessId} {root : Json} {msg_id : Int} {c : Call}
    (h : HandlerCall J self session root msg_id c) (hadd : msg_id ≠ MsgIds.addFriendReq.id)
    (hauth : msg_id ≠ MsgIds.authFriendReq.id) : c.Apart := by
  rcases h with h | _ | h | _ | ⟨_, _⟩ | _ | ⟨_, _, _⟩ | _ | ⟨_, h⟩ | _
  · rcases h with _ | h | _ | _ | _ | _ | _ | _ | _
    on_goal 2 => rcases h with _ | _ | _
    all_goals rfl
  · rfl
  · rcases h with _ | _ | h
    on_goal 3 => rcases h with _ | _ | _
    all_goals rfl
  · rfl
  · exact absurd rfl hadd
  · exact absurd rfl hadd
  · exact absurd rfl hauth
  · exact absurd rfl hauth
  · rcases h with _ | _ | _ | _ <;> rfl
  · rfl

section Handlers

variable {q : Option FriendRequest}

theorem ended_nil (q : Option FriendRequest) (e : Exn) : Ended q (.error e) [] :=
  ⟨bothWays_of_noFriend (by simp), by simp⟩

/-- The rest of a handler, after its statements. -/
theorem orderly_reply {h : Handler Unit} {log : List (Event sql)} {session : SessId} {msg : Bytes}
    {msgid : Int} (hh : h.run.Uses Call.Apart) (hlog : BothWays log) (hq : Clean log → CarriedOut q log) :
    Orderly (Due q) (Ended q) (h >>= fun _ => ask (.send session msg msgid)).run log := by
  refine (Uses.orderly (uses_bind hh fun _ =>
    uses_ask_last (c := .send session msg msgid) rfl) log).mono ?_
  rintro r log' rfl
  exact ⟨hlog, fun _ => hq⟩

theorem addFriendHandler_orderly (session : SessId) (msg_data : Bytes)
    (hq : q = (addRequest J (J.parse msg_data).2).toOption) :
    Orderly (Due q) (Ended q) (addFriendHandler J self session msg_data).run [] := by
  unfold addFriendHandler
  unfold addRequest at hq
  refine orderly_lift ?_ fun e _ => ended_nil q e
  intro uid huid
  rw [huid] at hq
  refine orderly_lift ?_ fun e _ => ended_nil q e
  intro name hname
  rw [hname] at hq
  refine orderly_lift ?_ fun e _ => ended_nil q e
  intro alias_name halias
  rw [halias] at hq
  refine orderly_lift ?_ fun e _ => ended_nil q e
  intro touid htouid
  rw [htouid] at hq
  refine orderly_ask rfl ((MySqlDao.addFriendApply_heeds uid touid alias_name hq).mono ?_)
  intro _ log htried
  refine orderly_reply (routeAddFriend_apart uid touid name alias_name)
    (bothWays_of_noFriend (htried.noFriend trivial (by simp))) ?_
  intro hclean
  obtain ⟨x, hx, hmem⟩ := htried.clean hclean
  rcases x with _ | n
  · exact absurd rfl hx
  · rw [hq]
    exact ⟨n, hmem⟩

theorem authFriendHandler_orderly (session : SessId) (msg_data : Bytes)
    (hq : q = (acceptRequest J (J.parse msg_data).2).toOption) :
    Orderly (Due q) (Ended q) (authFriendHandler J self session msg_data).run [] := by
  unfold authFriendHandler
  unfold acceptRequest at hq
  refine orderly_lift ?_ fun e _ => ended_nil q e
  intro fromuid hfrom
  rw [hfrom] at hq
  refine orderly_lift ?_ fun e _ => ended_nil q e
  intro touid hto
  rw [hto] at hq
  refine orderly_lift ?_ fun e _ => ended_nil q e
  intro alias_name halias
  rw [halias] at hq
  have hq : q = some (.accept fromuid touid alias_name) := hq
  refine orderly_bind (Uses.orderly (getBaseInfo_apart fromuid) []) ?_ ?_
  · rintro user_info _ rfl
    refine orderly_ask rfl ((MySqlDao.getFriendApplyAlias_heeds hq).mono ?_)
    rintro apply_alias log₁ ⟨h₁, hread⟩
    refine orderly_ask rfl ((MySqlDao.authFriendApply_heeds hq).mono ?_)
    intro _ log₂ h₂
    -- the alias read before is the alias of the applicant's row
    refine orderly_ask rfl ((MySqlDao.addFriend_heeds hq (hread.imp_right fun h => h₂.subset h)
      (h₂.noFriend trivial (h₁.noFriend trivial (by simp)))).mono ?_)
    rintro _ log₃ ⟨hboth, hsub₃, hinserted⟩
    refine orderly_ask rfl ((MySqlDao.getFriendAlias_heeds fromuid touid).mono ?_)
    intro peer_alias log₄ h₄
    refine orderly_reply (routeAuthFriend_apart fromuid touid peer_alias.2) (h₄.bothWays trivial hboth) ?_
    intro hclean
    have hclean₃ := hclean.mono h₄.subset
    obtain ⟨x, hx, hmem⟩ := h₂.clean (hclean₃.mono hsub₃)
    obtain ⟨hfirst, hsecond⟩ := hinserted hclean₃
    rw [hq]
    rcases x with _ | n
    · exact absurd rfl hx
    · exact ⟨⟨n, h₄.subset (hsub₃ hmem)⟩, hfirst.mono h₄.subset, hsecond.mono h₄.subset⟩
  · rintro e _ rfl
    exact ended_nil q e

/-- **The statements of every handler are orderly.** -/
theorem dispatch_orderly (J : JsonCpp) (self : ServerName) (node : LogicNode) :
    Orderly (Due (node.friendRequest J)) (Ended (node.friendRequest J)) (dispatch J self node).run [] := by
  by_cases hadd : node.recvNode.msgId = MsgIds.addFriendReq.id
  · have hdispatch : dispatch J self node =
        addFriendHandler J self node.session node.recvNode.text := by
      unfold dispatch callback
      rw [hadd]
      rfl
    rw [hdispatch]
    exact addFriendHandler_orderly node.session node.recvNode.text (if_pos hadd)
  · by_cases hauth : node.recvNode.msgId = MsgIds.authFriendReq.id
    · have hdispatch : dispatch J self node =
          authFriendHandler J self node.session node.recvNode.text := by
        unfold dispatch callback
        rw [hauth]
        rfl
      rw [hdispatch]
      refine authFriendHandler_orderly node.session node.recvNode.text ?_
      unfold LogicNode.friendRequest
      rw [if_neg hadd, if_pos hauth]
    · have hnone : node.friendRequest J = none := by
        unfold LogicNode.friendRequest
        rw [if_neg hadd, if_neg hauth]
      rw [hnone]
      refine (Uses.orderly ((dispatch_calls J self node).mono fun _ h => h.apart hadd hauth) []).mono ?_
      rintro r _ rfl
      exact ⟨bothWays_of_noFriend (by simp), fun _ _ => trivial⟩

end Handlers

end LogicSystem

/-! ## What the statements do to the tables -/

/-- The alias of an application that was there, or is given by one of the statements. -/
def Offered (db : Db) (log : List (Event sql)) (k : Int × Int) (alias_name : Bytes) : Prop :=
  (∃ row, db.friendApply k = some row ∧ row.aliasName = alias_name) ∨
    ∃ n, ⟨.insertApply k.1 k.2 alias_name, some n⟩ ∈ log

section Tables

variable {db db' : Db} {e : Event sql} {log : List (Event sql)} {k : Int × Int} {alias_name : Bytes}

/-- A friendship stays as it is. -/
theorem sem_friend_kept (h : Sql.sem e db db') (hk : db.friend k = some alias_name) :
    db'.friend k = some alias_name := by
  obtain ⟨o, r⟩ := e
  rcases h with ⟨rfl, -⟩ | ⟨-, rfl⟩
  · rcases o with _ | _ | _ | _ | ⟨a, b, al⟩ | _
    case insertFriend =>
      show update db.friend (a, b) _ k = _
      by_cases hkey : k = (a, b)
      · subst hkey
        simp [hk]
      · rw [update_of_ne hkey, hk]
    all_goals exact hk
  · exact hk

/-- An application stays, and stays accepted. -/
theorem sem_apply_kept (h : Sql.sem e db db') :
    ((db.friendApply k).isSome → (db'.friendApply k).isSome) ∧ (db.Accepted k → db'.Accepted k) := by
  obtain ⟨o, r⟩ := e
  by_cases happly : Sql.NoApply o
  · obtain ⟨hrow, hacc⟩ := sem_accepted (k := k) h happly
    exact ⟨hrow.mpr, fun hk => hacc.mpr (Or.inl hk)⟩
  · rcases o with _ | ⟨a, b, al⟩ | _ | _ | _ | _
    case insertApply =>
      refine ⟨?_, (sem_accepted_of_noAccept h trivial).mpr⟩
      rcases h with ⟨rfl, -⟩ | ⟨-, rfl⟩
      · show _ → (update db.friendApply (a, b) _ k).isSome
        by_cases hkey : k = (a, b)
        · subst hkey
          simp
        · rw [update_of_ne hkey]
          exact id
      · exact id
    all_goals exact absurd trivial happly

/-- Where the alias of an application comes from. -/
theorem sem_offered {row : ApplyRow} (h : Sql.sem e db db') (hrow : db'.friendApply k = some row) :
    (∃ row₀, db.friendApply k = some row₀ ∧ row₀.aliasName = row.aliasName) ∨
      ∃ n, e = ⟨.insertApply k.1 k.2 row.aliasName, some n⟩ := by
  obtain ⟨o, r⟩ := e
  rcases h with ⟨rfl, hr⟩ | ⟨-, rfl⟩
  · rcases o with _ | ⟨a, b, al⟩ | _ | ⟨a, b⟩ | _ | _
    case insertApply =>
      have hrow' : update db.friendApply (a, b) _ k = some row := hrow
      by_cases hkey : k = (a, b)
      · subst hkey
        rw [update_self] at hrow'
        have hr' : r = db.answer (.insertApply a b al) := hr
        refine Or.inr ?_
        rcases hold : db.friendApply (a, b) with _ | row₀
        · simp only [hold, Option.some.injEq] at hrow'
          subst hrow'
          exact ⟨1, by rw [hr', Db.answer]; simp [hold]⟩
        · simp only [hold, Option.some.injEq] at hrow'
          subst hrow'
          exact ⟨if row₀.aliasName = al then 0 else 2, by rw [hr', Db.answer]; simp only [hold]⟩
      · rw [update_of_ne hkey] at hrow'
        exact Or.inl ⟨row, hrow', rfl⟩
    case updateApply =>
      have hrow' : update db.friendApply (a, b) _ k = some row := hrow
      by_cases hkey : k = (a, b)
      · subst hkey
        rw [update_self] at hrow'
        obtain ⟨row₀, hold, rfl⟩ := Option.map_eq_some_iff.mp hrow'
        exact Or.inl ⟨row₀, hold, rfl⟩
      · rw [update_of_ne hkey] at hrow'
        exact Or.inl ⟨row, hrow', rfl⟩
    all_goals exact Or.inl ⟨row, hrow, rfl⟩
  · exact Or.inl ⟨row, hrow, rfl⟩

/-- A new friendship was inserted with its alias. -/
theorem sem_friend_row (h : Sql.sem e db db') (hk : db'.friend k = some alias_name) :
    db.friend k = some alias_name ∨ ∃ n, e = ⟨.insertFriend k.1 k.2 alias_name, some n⟩ := by
  obtain ⟨o, r⟩ := e
  rcases h with ⟨rfl, hr⟩ | ⟨-, rfl⟩
  · rcases o with _ | _ | _ | _ | ⟨a, b, al⟩ | _
    case insertFriend =>
      have hk' : update db.friend (a, b) _ k = some alias_name := hk
      by_cases hkey : k = (a, b)
      · subst hkey
        rw [update_self] at hk'
        have hr' : r = db.answer (.insertFriend a b al) := hr
        rcases hold : db.friend (a, b) with _ | old
        · simp only [hold, Option.getD_none, Option.some.injEq] at hk'
          subst hk'
          exact Or.inr ⟨_, by rw [hr', Db.answer]⟩
        · simp only [hold, Option.getD_some, Option.some.injEq] at hk'
          exact Or.inl (by rw [hk'])
      · rw [update_of_ne hkey] at hk'
        exact Or.inl hk'
    all_goals exact Or.inl hk
  · exact Or.inl hk

namespace Db.Executes

theorem kept {P : Db → Prop} (hsem : ∀ e db db', Sql.sem e db db' → P db → P db')
    (h : Db.Executes db log db') : P db → P db' := by
  induction h with
  | nil => exact id
  | snoc _ hs ih => exact fun hP => hsem _ _ _ hs (ih hP)

theorem friend_row (h : Db.Executes db log db') (hk : db'.friend k = some alias_name) :
    db.friend k = some alias_name ∨ ∃ n, ⟨.insertFriend k.1 k.2 alias_name, some n⟩ ∈ log := by
  induction h with
  | nil => exact Or.inl hk
  | snoc _ hs ih =>
    rcases sem_friend_row hs hk with hk | ⟨n, rfl⟩
    · exact (ih hk).imp_right fun ⟨n, hmem⟩ => ⟨n, List.mem_append_left _ hmem⟩
    · exact Or.inr ⟨n, by simp⟩

theorem offered {row : ApplyRow} (h : Db.Executes db log db') (hrow : db'.friendApply k = some row) :
    Offered db log k row.aliasName := by
  generalize halias : row.aliasName = alias_name
  induction h generalizing row with
  | nil => exact Or.inl ⟨row, hrow, halias⟩
  | snoc _ hs ih =>
    rcases sem_offered hs hrow with ⟨row₀, hrow₀, halias₀⟩ | ⟨n, rfl⟩
    · rcases ih hrow₀ (halias₀.trans halias) with hold | ⟨n, hmem⟩
      · exact Or.inl hold
      · exact Or.inr ⟨n, List.mem_append_left _ hmem⟩
    · exact Or.inr ⟨n, by simp [halias]⟩

/-- An alias that was read is one of an application. -/
theorem selected (h : Db.Executes db log db')
    (hmem : ⟨.selectApplyAlias k.1 k.2, some (some alias_name)⟩ ∈ log) : Offered db log k alias_name := by
  induction h with
  | nil => simp at hmem
  | @snoc db₁ db' log e hlog hs ih =>
    have hwider : Offered db log k alias_name → Offered db (log ++ [e]) k alias_name :=
      Or.imp_right fun ⟨n, hn⟩ => ⟨n, List.mem_append_left _ hn⟩
    rcases List.mem_append.mp hmem with hmem | hmem
    · exact hwider (ih hmem)
    · obtain rfl := List.mem_singleton.mp hmem
      rcases hs with ⟨-, hr⟩ | ⟨hf, -⟩
      · have hfound : (db₁.friendApply k).map ApplyRow.aliasName = some alias_name :=
          (Option.some.inj hr).symm
        obtain ⟨row, hrow, rfl⟩ := Option.map_eq_some_iff.mp hfound
        exact hwider (hlog.offered hrow)
      · cases hf

theorem accepted_row (h : Db.Executes db log db') (hk : db'.Accepted k) : db.Accepted k ∨ Updated log k := by
  induction h with
  | nil => exact Or.inl hk
  | @snoc db₁ db' log e _ hs ih =>
    rw [updated_snoc]
    by_cases happly : Sql.NoApply e.1
    · rcases (sem_accepted hs happly).2.mp hk with hk | ⟨-, hk⟩
      · exact (ih hk).imp_right Or.inl
      · exact Or.inr (Or.inr hk)
    · have hno : Sql.NoAccept e.1 := by
        rcases he : e.1 with _ | _ | _ | _ | _ | _ <;> simp [he, Sql.NoApply, Sql.NoAccept] at happly ⊢
      exact (ih ((sem_accepted_of_noAccept hs hno).mp hk)).imp_right Or.inl

/-- An application that was there is accepted by an update. -/
theorem accepted_of_updated (h : Db.Executes db log db') (hrow : (db.friendApply k).isSome)
    (hk : Updated log k) : db'.Accepted k := by
  induction h with
  | nil =>
    obtain ⟨n, hmem⟩ := hk
    simp at hmem
  | @snoc db₁ db' log e hlog hs ih =>
    rcases updated_snoc.mp hk with hk | hk
    · exact (sem_apply_kept hs).2 (ih hk)
    · have hrow₁ : (db₁.friendApply k).isSome :=
        hlog.kept (P := fun db => (db.friendApply k).isSome) (fun _ _ _ hs => (sem_apply_kept hs).1) hrow
      obtain ⟨n, hmem⟩ := hk
      obtain rfl := List.mem_singleton.mp hmem
      exact (sem_accepted hs trivial).2.mpr (Or.inr ⟨hrow₁, n, hmem⟩)

/-- The row of an application that was inserted is there. -/
theorem applied (h : Db.Executes db log db') {n : Int}
    (hmem : ⟨.insertApply k.1 k.2 alias_name, some n⟩ ∈ log) : (db'.friendApply k).isSome := by
  induction h with
  | nil => simp at hmem
  | @snoc db₁ db' log e _ hs ih =>
    rcases List.mem_append.mp hmem with hmem | hmem
    · exact (sem_apply_kept hs).1 (ih hmem)
    · obtain rfl := List.mem_singleton.mp hmem
      rcases hs with ⟨rfl, -⟩ | ⟨hf, -⟩
      · show (update db₁.friendApply (k.1, k.2) _ k).isSome
        simp
      · cases hf

end Db.Executes

end Tables

/-! ## Workers -/

/-- The tables, and what the workers do. -/
abbrev Workers (ι : Type) : Type := Threads.State actionSig Db LogicNode (Except Exn Unit) ι

/-- A message that a worker has taken. -/
abbrev WorkerJob : Type := Threads.Job actionSig LogicNode (Except Exn Unit)

abbrev WorkersAct (ι : Type) : Type := Threads.Act actionSig LogicNode ι

/-- One action of the worker of one of the servers. A worker that an exception leaves does not go on. -/
abbrev Workers.Step {ι : Type} [DecidableEq ι] (J : JsonCpp) (server : ι → ServerName) :
    Workers ι → WorkersAct ι → Workers ι → Prop :=
  Threads.Step (fun i node => actions (LogicSystem.dispatch J (server i) node).run) Action.sem
    fun r => r = .ok ()

/-- An alias that an application had from the beginning, or that a message gives it. -/
def Workers.Given {ι : Type} (J : JsonCpp) (db₀ : Db) (w : Workers ι) (k : Int × Int) (alias_name : Bytes) :
    Prop :=
  (∃ row, db₀.friendApply k = some row ∧ row.aliasName = alias_name) ∨
    ∃ b, w.Has b ∧ b.kind.friendRequest J = some (.add k.1 k.2 alias_name)

/-- The message is one that makes friends of the two. -/
def LogicNode.Befriends (J : JsonCpp) (node : LogicNode) (x y : Int) : Prop :=
  ∃ alias_name, node.friendRequest J = some (.accept x y alias_name) ∨
    node.friendRequest J = some (.accept y x alias_name)

/-- What a request that has been carried out leaves, from then on. -/
def FriendRequest.Holds (db₀ db : Db) : FriendRequest → Prop
  | .add uid touid _ => (db.friendApply (uid, touid)).isSome
  | .accept fromuid touid _ => (db.friend (fromuid, touid)).isSome ∧ (db.friend (touid, fromuid)).isSome ∧
    ((db₀.friendApply (fromuid, touid)).isSome → db.Accepted (fromuid, touid))

section Runs

variable {ι : Type} [DecidableEq ι] {J : JsonCpp} {server : ι → ServerName} {db₀ : Db} {w : Workers ι}
  {tr : List (WorkersAct ι × Workers ι)} {b : WorkerJob} {k : Int × Int} {alias_name : Bytes}

omit [DecidableEq ι] in
/-- What a handler's program promises of its statements. -/
theorem actions_heeds (i : ι) (node : LogicNode) :
    (actions (LogicSystem.dispatch J (server i) node).run).Heeds (fun _ => True)
      (OnStatements (Due (node.friendRequest J)))
      (fun r past => Ended (node.friendRequest J) r (statements past)) [] :=
  heeds_actions (LogicSystem.dispatch_orderly J (server i) node)

theorem executes_of_run (h : Run (Workers.Step J server) (.init db₀) tr w) :
    Db.Executes db₀ (statements (Threads.history tr)) w.store :=
  executes_of_executed (Threads.executed_of_run h)

theorem mem_statements_history (h : Run (Workers.Step J server) (.init db₀) tr w) {o : Sql} {r : o.Resp} :
    (⟨o, r⟩ : Event sql) ∈ statements (Threads.history tr) ↔
      ∃ b : WorkerJob, w.Has b ∧ (⟨o, r⟩ : Event sql) ∈ statements b.past := by
  rw [mem_statements, Threads.mem_history_iff h]
  exact exists_congr fun b => and_congr_right fun _ => mem_statements.symm

/-- Every statement was due when it was executed. -/
theorem due_of_run (h : Run (Workers.Step J server) (.init db₀) tr w) (hb : w.Has b) {o : Sql} {r : o.Resp}
    (hmem : (⟨o, r⟩ : Event sql) ∈ statements b.past) :
    ∃ log, log ⊆ statements b.past ∧ Due (b.kind.friendRequest J) log o := by
  have hpromised := Threads.promised_of_run actions_heeds h b hb
  obtain ⟨pre, post, hpast⟩ := List.append_of_mem (mem_statements.mp hmem)
  have hpre : pre ++ [⟨.sql o, r⟩] <+: b.past := ⟨post, by rw [hpast]; simp⟩
  refine ⟨statements pre, ?_, hpromised.made pre _ hpre⟩
  exact (List.Sublist.filterMap _ ((List.prefix_append pre _).trans hpre).sublist).subset

theorem ended_of_done (h : Run (Workers.Step J server) (.init db₀) tr w) (hb : b ∈ w.done) :
    Ended (b.kind.friendRequest J) (.ok ()) (statements b.past) := by
  obtain ⟨r, rfl, hended⟩ := Threads.post_of_done actions_heeds h b hb
  exact hended

/-- A friendship that a job has inserted is one that its message makes. -/
theorem befriends_of_inserted (h : Run (Workers.Step J server) (.init db₀) tr w) (hb : w.Has b)
    (hk : Inserted (statements b.past) k) : b.kind.Befriends J k.1 k.2 := by
  obtain ⟨alias_name, n, hmem⟩ := hk
  obtain ⟨log, -, hdue⟩ := due_of_run h hb hmem
  rcases hdue with ⟨peer_alias, hq, -⟩ | ⟨hq, -⟩
  · exact ⟨peer_alias, Or.inl hq⟩
  · exact ⟨alias_name, Or.inr hq⟩

theorem given_of_offered (h : Run (Workers.Step J server) (.init db₀) tr w)
    (ho : Offered db₀ (statements (Threads.history tr)) k alias_name) : w.Given J db₀ k alias_name := by
  refine ho.imp_right ?_
  rintro ⟨n, hmem⟩
  obtain ⟨b, hb, hmem⟩ := (mem_statements_history h).mp hmem
  obtain ⟨log, -, hdue⟩ := due_of_run h hb hmem
  exact ⟨b, hb, hdue⟩

/-- **Whose friendships there are, and under which aliases.** -/
theorem friend_of_run (h : Run (Workers.Step J server) (.init db₀) tr w)
    (hk : w.store.friend k = some alias_name) : db₀.friend k = some alias_name ∨ ∃ b : WorkerJob, w.Has b ∧
      (b.kind.friendRequest J = some (.accept k.2 k.1 alias_name) ∨
        ((∃ peer_alias, b.kind.friendRequest J = some (.accept k.1 k.2 peer_alias)) ∧
          (alias_name = [] ∨ w.Given J db₀ k alias_name))) := by
  rcases (executes_of_run h).friend_row hk with hold | ⟨n, hmem⟩
  · exact Or.inl hold
  obtain ⟨b, hb, hmem⟩ := (mem_statements_history h).mp hmem
  obtain ⟨log, hsub, hdue⟩ := due_of_run h hb hmem
  refine Or.inr ⟨b, hb, ?_⟩
  rcases hdue with ⟨peer_alias, hq, halias⟩ | ⟨hq, -⟩
  · refine Or.inr ⟨⟨peer_alias, hq⟩, halias.imp_right fun hread => ?_⟩
    -- the alias was read from the application, whoever gave it
    have hread := (mem_statements_history h).mpr ⟨b, hb, hsub hread⟩
    exact given_of_offered h ((executes_of_run h).selected hread)
  · exact Or.inl hq

/-- **Which applications there are, and which of them are accepted.** -/
theorem apply_of_run (h : Run (Workers.Step J server) (.init db₀) tr w) {row : ApplyRow}
    (hrow : w.store.friendApply k = some row) : w.Given J db₀ k row.aliasName ∧
      (row.status = 1 → db₀.Accepted k ∨ ∃ b : WorkerJob, w.Has b ∧
        ∃ alias_name, b.kind.friendRequest J = some (.accept k.1 k.2 alias_name)) := by
  refine ⟨given_of_offered h ((executes_of_run h).offered hrow), fun hstatus => ?_⟩
  rcases (executes_of_run h).accepted_row ⟨row, hrow, hstatus⟩ with hold | ⟨n, hmem⟩
  · exact Or.inl hold
  · obtain ⟨b, hb, hmem⟩ := (mem_statements_history h).mp hmem
    obtain ⟨log, -, hdue⟩ := due_of_run h hb hmem
    exact Or.inr ⟨b, hb, hdue⟩

/-- **A friendship of one side only** was there from the beginning, or a worker is about to insert the other
side, or failed to. -/
theorem oneSided_of_run (h : Run (Workers.Step J server) (.init db₀) tr w)
    (hk : (w.store.friend k).isSome) (hswap : ¬ (w.store.friend k.swap).isSome) :
    (db₀.friend k).isSome ∨ ∃ b : WorkerJob, b.kind.Befriends J k.1 k.2 ∧
      ((∃ i, w.job i = some b) ∨ b ∈ w.done ∧ Threw (statements b.past) k.swap) := by
  have hexec := executes_of_run h
  rcases hexec.friend.mp hk with hold | ⟨alias_name, n, hmem⟩
  · exact Or.inl hold
  obtain ⟨b, hb, hmem⟩ := (mem_statements_history h).mp hmem
  have hins : Inserted (statements b.past) k := ⟨alias_name, n, hmem⟩
  refine Or.inr ⟨b, befriends_of_inserted h hb hins, ?_⟩
  rcases hb with hdone | hwork
  · rcases (ended_of_done h hdone).bothWays k hins with ⟨al, m, hother⟩ | hthrew
    · have hother := (mem_statements_history h).mpr ⟨b, Or.inl hdone, hother⟩
      exact absurd (hexec.friend.mpr (Or.inr ⟨al, m, hother⟩)) hswap
    · exact Or.inr ⟨hdone, hthrew⟩
  · exact Or.inl hwork

/-- **What a job has carried out holds**, whatever the other workers did in between and do later. -/
theorem holds_of_done (h : Run (Workers.Step J server) (.init db₀) tr w) (hb : b ∈ w.done)
    (hclean : Clean (statements b.past)) {q : FriendRequest} (hq : b.kind.friendRequest J = some q) :
    q.Holds db₀ w.store := by
  have hexec := executes_of_run h
  have hmine : ∀ (o : Sql) (r : o.Resp), (⟨o, r⟩ : Event sql) ∈ statements b.past →
      (⟨o, r⟩ : Event sql) ∈ statements (Threads.history tr) :=
    fun o r hmem => (mem_statements_history h).mpr ⟨b, Or.inl hb, hmem⟩
  have hcarried := (ended_of_done h hb).carried rfl hclean
  rw [hq] at hcarried
  rcases q with ⟨uid, touid, alias_name⟩ | ⟨fromuid, touid, alias_name⟩
  · obtain ⟨n, hmem⟩ := hcarried
    exact hexec.applied (k := (uid, touid)) (hmine _ _ hmem)
  · obtain ⟨⟨n, hupdated⟩, ⟨al₁, n₁, hfirst⟩, al₂, n₂, hsecond⟩ := hcarried
    refine ⟨hexec.friend.mpr (Or.inr ⟨al₁, n₁, hmine _ _ hfirst⟩),
      hexec.friend.mpr (Or.inr ⟨al₂, n₂, hmine _ _ hsecond⟩), fun hrow => ?_⟩
    exact hexec.accepted_of_updated hrow ⟨n, hmine _ _ hupdated⟩

/-- When nobody works and nothing has failed, friendships and applications are those of the messages. -/
theorem settled_of_run (h : Run (Workers.Step J server) (.init db₀) tr w) (hidle : ∀ i, w.job i = none)
    (hclean : ∀ b ∈ w.done, Clean (statements b.past)) (k : Int × Int) :
    ((w.store.friend k).isSome ↔
      (db₀.friend k).isSome ∨ ∃ b ∈ w.done, b.kind.Befriends J k.1 k.2) ∧
    ((w.store.friendApply k).isSome ↔ (db₀.friendApply k).isSome ∨
      ∃ b ∈ w.done, ∃ alias_name, b.kind.friendRequest J = some (.add k.1 k.2 alias_name)) := by
  have hexec := executes_of_run h
  have hdone : ∀ b : WorkerJob, w.Has b → b ∈ w.done := by
    rintro b (hb | ⟨i, hb⟩)
    · exact hb
    · simp [hidle i] at hb
  refine ⟨⟨?_, ?_⟩, ?_, ?_⟩
  · intro hk
    rcases hexec.friend.mp hk with hold | ⟨alias_name, n, hmem⟩
    · exact Or.inl hold
    · obtain ⟨b, hb, hmem⟩ := (mem_statements_history h).mp hmem
      exact Or.inr ⟨b, hdone b hb, befriends_of_inserted h hb ⟨alias_name, n, hmem⟩⟩
  · rintro (hold | ⟨b, hb, alias_name, hq | hq⟩)
    · exact hexec.friend.mpr (Or.inl hold)
    · exact (holds_of_done h hb (hclean b hb) hq).1
    · exact (holds_of_done h hb (hclean b hb) hq).2.1
  · intro hk
    obtain ⟨row, hrow⟩ := Option.isSome_iff_exists.mp hk
    rcases (apply_of_run h hrow).1 with ⟨row₀, hrow₀, -⟩ | ⟨b, hb, hq⟩
    · exact Or.inl (by rw [hrow₀]; rfl)
    · exact Or.inr ⟨b, hdone b hb, row.aliasName, hq⟩
  · rintro (hold | ⟨b, hb, alias_name, hq⟩)
    · exact hexec.kept (P := fun db => (db.friendApply k).isSome) (fun _ _ _ hs => (sem_apply_kept hs).1) hold
    · exact holds_of_done h hb (hclean b hb) hq

/-- What earlier tables have, later ones have. -/
structure Db.Keeps (db db' : Db) : Prop where
  friend : ∀ k alias_name, db.friend k = some alias_name → db'.friend k = some alias_name
  applied : ∀ k, (db.friendApply k).isSome → (db'.friendApply k).isSome
  accepted : ∀ k, db.Accepted k → db'.Accepted k

/-- Nothing is lost from a state of a run to the later ones. -/
theorem keeps_of_prefix (h : Run (Workers.Step J server) (.init db₀) tr w)
    {pre : List (WorkersAct ι × Workers ι)} {w₁ : Workers ι}
    (h₁ : Run (Workers.Step J server) (.init db₀) pre w₁) (hpre : pre <+: tr) : w₁.store.Keeps w.store := by
  have hkept : ∀ P : Db → Prop, (∀ e db db', Sql.sem e db db' → P db → P db') → P w₁.store → P w.store := by
    intro P hP
    refine Threads.kept_of_prefix ?_ h h₁ hpre
    rintro ⟨o | c, r⟩ db db' hs
    · exact hP _ _ _ hs
    · rw [show db' = db from hs]
      exact id
  exact ⟨fun k alias_name => hkept _ fun _ _ _ hs => sem_friend_kept hs,
    fun k => hkept _ fun _ _ _ hs => (sem_apply_kept hs).1,
    fun k => hkept _ fun _ _ _ hs => (sem_apply_kept hs).2⟩

/-- What is true of the tables at some time of a run. -/
structure SharedTables (J : JsonCpp) (db₀ : Db) (w : Workers ι) : Prop where
  friends : ∀ k alias_name, w.store.friend k = some alias_name → db₀.friend k = some alias_name ∨
    ∃ b : WorkerJob, w.Has b ∧ (b.kind.friendRequest J = some (.accept k.2 k.1 alias_name) ∨
      ((∃ peer_alias, b.kind.friendRequest J = some (.accept k.1 k.2 peer_alias)) ∧
        (alias_name = [] ∨ w.Given J db₀ k alias_name)))
  applications : ∀ k row, w.store.friendApply k = some row → w.Given J db₀ k row.aliasName ∧
    (row.status = 1 → db₀.Accepted k ∨ ∃ b : WorkerJob, w.Has b ∧
      ∃ alias_name, b.kind.friendRequest J = some (.accept k.1 k.2 alias_name))
  oneSided : ∀ k, (w.store.friend k).isSome → ¬ (w.store.friend k.swap).isSome →
    (db₀.friend k).isSome ∨ ∃ b : WorkerJob, b.kind.Befriends J k.1 k.2 ∧
      ((∃ i, w.job i = some b) ∨ b ∈ w.done ∧ Threw (statements b.past) k.swap)
  carried : ∀ b ∈ w.done, Clean (statements b.past) → ∀ q, b.kind.friendRequest J = some q →
    q.Holds db₀ w.store
  settled : (∀ i, w.job i = none) → (∀ b ∈ w.done, Clean (statements b.past)) → ∀ k,
    ((w.store.friend k).isSome ↔
      (db₀.friend k).isSome ∨ ∃ b ∈ w.done, b.kind.Befriends J k.1 k.2) ∧
    ((w.store.friendApply k).isSome ↔ (db₀.friendApply k).isSome ∨
      ∃ b ∈ w.done, ∃ alias_name, b.kind.friendRequest J = some (.add k.1 k.2 alias_name))

/-- **The tables under all workers.** Whatever messages the workers of any number of servers handle, in
whatever order their statements come, and whichever of them fail: nothing in the tables is lost, every
friendship and application is one that some message asks for, with its alias, a friendship of one side only
is being inserted or is one whose other side failed, and what was carried out holds. When all have finished
and nothing has failed, who is friends with whom depends on the messages alone, not on the order. -/
theorem tables_shared (h : Run (Workers.Step J server) (.init db₀) tr w) : SharedTables J db₀ w ∧
    ∀ pre w₁, Run (Workers.Step J server) (.init db₀) pre w₁ → pre <+: tr → w₁.store.Keeps w.store := by
  refine ⟨⟨fun k alias_name hk => friend_of_run h hk, fun k row hrow => apply_of_run h hrow,
    fun k hk hswap => oneSided_of_run h hk hswap, fun b hb hclean q hq => holds_of_done h hb hclean hq,
    settled_of_run h⟩, ?_⟩
  exact fun pre w₁ h₁ hpre => keeps_of_prefix h h₁ hpre

end Runs

/-! ### Two acceptances at a time -/

/-- No statement fails, and Redis and the peers know nothing. -/
def Action.answer : (o : Action) → Db → o.Resp × Db
  | .sql o, db => (db.answer o, db.apply o)
  | .call c, db => (World.noAnswer c, db)

theorem Action.sem_answer (o : Action) (db : Db) :
    Action.sem ⟨o, (Action.answer o db).1⟩ db (Action.answer o db).2 := by
  rcases o with o | c
  · exact Or.inl ⟨rfl, rfl⟩
  · rfl

/-- The user 7 applies at one server, and then the acceptance comes to two servers at once. -/
def acceptsTwice : List (Threads.Move LogicNode Bool) :=
  .take false applies :: List.replicate 5 (.advance false) ++ .take false accepts :: .take true accepts ::
    (List.replicate 13 [.advance false, .advance true]).flatten

/-- A move of one of the workers. -/
def workersMove : Threads.Move LogicNode Bool → Workers Bool → Option (WorkersAct Bool × Workers Bool) :=
  Threads.move (fun _ node => actions (LogicSystem.dispatch friendTexts s1 node).run) Action.answer
    fun r => r = .ok ()

/-- The run that these moves make. -/
theorem workersMove_run (ms : List (Threads.Move LogicNode Bool)) (w : Workers Bool) :
    Run (Workers.Step friendTexts fun _ : Bool => s1) w (follow workersMove w ms)
      (final w (follow workersMove w ms)) := by
  refine follow_run ?_ w
  intro m _ w' a t hm
  exact Threads.move_step Action.sem_answer hm

theorem tables_shared_twice : ∃ tr w, Run (Workers.Step friendTexts fun _ : Bool => s1) (.init .empty) tr w ∧
    w.done.length = 3 ∧ (w.store.friend (7, 8)).isSome ∧ (w.store.friend (8, 7)).isSome ∧
    SharedTables friendTexts .empty w := by
  have h := workersMove_run acceptsTwice (.init .empty)
  exact ⟨_, _, h, by decide +kernel, by decide +kernel, by decide +kernel, (tables_shared h).1⟩

end ChatServer
