import ChatServer.Addressees
import ChatServer.Exceptions
import ChatServer.Variation

/-!
# What can bring a server down

An exception that leaves a handler ends the process, and `Exceptions` says of one handler when that happens:
the message has another shape than the handler expects, or a stored text that it converts cannot be
converted. Over the runs of a cluster the second does not happen. The servers write nothing to Redis that
they cannot read: the login counts stay readable (`countText_of_run`), and the cached profiles are those of
the database (`Coherence`). So a server goes down only by a message of a client of its own that is not sound
(`crashed_of_unsound`).
-/

namespace ChatServer

open Interaction Transition Prog Handler Bytes Decimal Word

/-! ## Login counts stay readable -/

theorem countText_renderInt {i : Int} (h : IsInt i) : CountText (renderInt i) :=
  Or.inr ⟨i, parseInt_renderInt i, h⟩

theorem isInt_toInt (i : Int) : IsInt (toInt i) := by
  unfold IsInt toInt
  omega

/-- What `loginHandler` writes back can be read. -/
theorem countText_of_bump {rd_res value : Bytes} (h : bump rd_res = some value) : CountText value := by
  unfold bump at h
  split at h
  · obtain rfl := Option.some.inj h
    exact countText_renderInt (isInt_toInt _)
  · cases h

/-- What `close` writes back can be read. -/
theorem countText_of_drop {rd_res value : Bytes} (h : drop rd_res = some value) : CountText value := by
  unfold drop at h
  split at h
  · rename_i count hread
    obtain rfl := Option.some.inj h
    have hint := isInt_of_readCount hread
    refine countText_renderInt ?_
    unfold IsInt at *
    split <;> omega
  · cases h

namespace Ledger

variable {lossy : Bool} {self : ServerName} {b b' : Ledger} {s : SessId} {e : Event calls}

/-- A call of the worker reads and leaves a count that can be read. -/
theorem WorkerCall.countText {q q' : WorkerPhase} (hc : WorkerCall lossy self s q b e q' b')
    (h : CountText b.count) : CountText b'.count ∧ CountReadable e := by
  cases hc with
  | neutral he =>
    refine ⟨h, ?_⟩
    rcases e with ⟨_ | _, r⟩ <;> trivial
  | readCount => exact ⟨h, h⟩
  | missCount _ => exact ⟨h, Or.inl rfl⟩
  | writeCount hbump => exact ⟨countText_of_bump hbump, trivial⟩
  | _ => exact ⟨h, trivial⟩

theorem IoCall.countText {q q' : IoPhase} (hc : IoCall lossy self s q b e q' b')
    (h : CountText b.count) : CountText b'.count := by
  cases hc with
  | writeCount hdrop => exact countText_of_drop hdrop
  | _ => exact h

theorem Step.countText {l : Option Label} (hs : Ledger.Step lossy self b l b') (h : CountText b.count) :
    CountText b'.count := by
  cases hs with
  | io _ hc => exact hc.countText h
  | worker _ hc => exact (hc.countText h).1
  | _ => exact h

end Ledger

section Runs

variable {J : JsonCpp} {users : UserTable} {redis : Redis} {S : ServerName}
  {tr : List (Cluster.Act × Cluster)} {c c' : Cluster} {e : Event calls} {node : LogicNode}

/-- **The login count of a server stays readable**, whatever fails and whoever logs in. -/
theorem countText_of_run (h : Run (Cluster.Step J) (.init redis) tr c) (hstart : CountText (redis.count S)) :
    CountText (c.redis.count S) := by
  induction h with
  | nil => exact hstart
  | snoc hr hs ih => exact (ledger_step (Cluster.run_facts hr).1 hs S).countText ih

/-- What the worker reads as a login count can be read. -/
theorem countReadable_of_step (h : Run (Cluster.Step J) (.init redis) tr c)
    (hstart : CountText (redis.count S)) (hs : Cluster.Step J c (some (S, .worker e)) c') :
    CountReadable e := by
  have hstep := ledger_step (Cluster.run_facts h).1 hs S
  have hread : CountText (c.ledger S).count := countText_of_run h hstart
  have hown : Cluster.Act.own S (some (S, .worker e)) = some (.worker e) := if_pos rfl
  rw [hown] at hstep
  generalize c.ledger S = b at hstep hread
  generalize c'.ledger S = b' at hstep
  cases hstep with
  | worker _ hc => exact (hc.countText hread).2
  | quiet hl => cases hl

end Runs

/-! ## Cached profiles can be read -/

/-- Of what is stored under keys, the call reads profiles only. -/
def Call.ReadsProfiles : Call → Prop
  | .get key => ProfileKey key
  | _ => True

namespace LogicSystem

variable {J : JsonCpp}

theorem CacheCall.readsProfiles {c : Call} (h : CacheCall c) : c.ReadsProfiles := by
  cases h <;> trivial

theorem getUserByUid_readsProfiles (uid_str : Bytes) :
    (getUserByUid J uid_str).run.Uses Call.ReadsProfiles := by
  refine uses_ask (Or.inl (List.prefix_append _ _)) fun info_str => ?_
  rcases info_str with _ | info_str
  · refine uses_lift fun uid => uses_ask trivial fun user_info => ?_
    rcases user_info with _ | user
    · exact uses_pure _
    · exact uses_bind ((cacheProfile_calls _ _ _).mono fun _ h => h.readsProfiles) fun _ => uses_pure _
  · exact uses_lift_last

theorem getUserByName_readsProfiles (name_str : Bytes) :
    (getUserByName J name_str).run.Uses Call.ReadsProfiles := by
  refine uses_ask (Or.inr (List.prefix_append _ _)) fun info_str => ?_
  rcases info_str with _ | info_str
  · refine uses_ask trivial fun user_info => ?_
    rcases user_info with _ | user
    · exact uses_pure _
    · exact uses_bind ((cacheProfile_calls _ _ _).mono fun _ h => h.readsProfiles) fun _ => uses_pure _
  · exact uses_lift_last

/-- A search reads profiles only. -/
theorem searchUserHandler_readsProfiles (session : SessId) (msg_data : Bytes) :
    (searchUserHandler J session msg_data).run.Uses Call.ReadsProfiles := by
  refine uses_bind ?_ fun _ => uses_ask_last trivial
  unfold searchUser
  dsimp only
  split
  · exact uses_pure _
  · refine uses_lift fun b_uid => ?_
    split
    · exact uses_pure _
    · refine uses_lift fun uid_str => ?_
      split
      · exact getUserByUid_readsProfiles uid_str
      · exact getUserByName_readsProfiles uid_str

end LogicSystem

/-- **What is read from a coherent cache can be read as a profile.** -/
theorem Redis.Coherent.readable {J : JsonCpp} {users : UserTable} {r : Redis} {key info_str : Bytes}
    (h : r.Coherent J users) (hkey : ProfileKey key) (hget : r.get key = some info_str) :
    (J.parse info_str).2.ProfileShape := by
  obtain ⟨v, hv, rfl⟩ := Option.map_eq_some_iff.mp hget
  rw [← getProfile_ok_iff J]
  rcases hkey with ⟨k, rfl⟩ | ⟨n, rfl⟩
  · rw [cstr_append (by decide)] at hv
    obtain ⟨uid, user, -, -, hcached⟩ := h.base _ v hv
    exact ⟨user, hcached⟩
  · rw [cstr_append (by decide)] at hv
    obtain ⟨user, -, hcached⟩ := h.name _ v hv
    exact ⟨user, hcached⟩

/-! ## Sound messages -/

/-- The body of the message has the shape that its handler expects, and the texts of a text message can be
passed on. -/
def Sound (J : JsonCpp) (node : RecvNode) : Prop :=
  WellShaped J node ∧ (node.msgId = MsgIds.textChatMsgReq.id →
    ∀ t ∈ ((J.parse node.text).2.lookup (lit "text_array")).children, t.TextShape)

section Runs

variable {J : JsonCpp} {users : UserTable} {redis : Redis} {S : ServerName}
  {tr pre : List (Cluster.Act × Cluster)} {c c' c₁ : Cluster} {e : Event calls} {node : LogicNode}

theorem run_of_fixed (h : Run (Cluster.FixedStep J users) (.init redis) tr c) :
    Run (Cluster.Step J) (.init redis) tr c := by
  induction h with
  | nil => exact .nil
  | snoc _ hs ih => exact .snoc ih hs.step

/-- The cache is coherent at every point of a run. -/
theorem coherent_of_prefix (hJ : J.ReadsBackAll users) (hstart : redis.Coherent J users)
    (h : Run (Cluster.FixedStep J users) (.init redis) tr c)
    (h₁ : Run (Cluster.Step J) (.init redis) pre c₁) (hp : pre <+: tr) : c₁.redis.Coherent J users := by
  obtain ⟨c₂, h₂⟩ := h.of_prefix hp
  obtain rfl := h₁.unique (run_of_fixed h₂)
  exact coherent_of_run hJ hstart h₂

/-- What a call of a worker under the key of a profile finds can be read. -/
theorem profileReadable_of_step (hr : c.redis.Coherent J users)
    (hs : Cluster.Step J c (some (S, .worker e)) c') (he : e.1.ReadsProfiles) : ProfileReadable J e := by
  obtain ⟨call, r⟩ := e
  rcases hs with ⟨-, hv⟩
  generalize c.server S = v at hv
  cases hv with
  | worker _ _ hsem =>
    cases call with
    | get key =>
      rcases r with _ | info_str
      · trivial
      · have hget := (World.sem_of_not_failed hsem (by simp [World.Failed])).2 _ rfl
        exact hr.readable he hget.symm
    | _ => trivial

/-- What the worker has read on behalf of a sound message can be read. -/
theorem storedReadable_of_called (hJ : J.ReadsBackAll users) (hstart : redis.Coherent J users)
    (hcount : CountText (redis.count S)) (h : Run (Cluster.FixedStep J users) (.init redis) tr c)
    (hsound : Sound J node.recvNode) (hcalled : Called J redis S tr node e)
    (huses : node.recvNode.msgId = MsgIds.searchUserReq.id → e.1.ReadsProfiles) :
    StoredReadable J S node.recvNode e := by
  obtain ⟨pre, c₁, c₂, t, h₁, hp, hs, -, -⟩ := hcalled
  unfold StoredReadable
  split_ifs with hlogin hsearch htext
  · exact countReadable_of_step h₁ hcount hs
  · have hr := coherent_of_prefix hJ hstart h h₁ ((List.prefix_append _ _).trans hp)
    exact profileReadable_of_step hr hs (huses hsearch)
  · -- the texts of a sound message can be passed on, wherever the addressee is
    obtain ⟨call, r⟩ := e
    cases call with
    | get key =>
      rcases r with _ | to_ip_value
      · trivial
      · exact fun _ => hsound.2 htext
    | _ => trivial

/-- **A server goes down by a message of its own client only.** In every run over a fixed table of users,
from a coherent cache and a readable login count, whatever the commands that fail and the other servers do:
the login count stays readable, and if an exception has ended the server, then a session of this server has
posted a message that is not sound. -/
theorem crashed_of_unsound (hJ : J.ReadsBackAll users) (hstart : redis.Coherent J users)
    (hcount : CountText (redis.count S)) (h : Run (Cluster.FixedStep J users) (.init redis) tr c) :
    CountText (c.redis.count S) ∧ ((c.server S).crashed = true →
      ∃ node, Delivered J redis S tr node ∧ ¬ Sound J node.recvNode) := by
  refine ⟨countText_of_run (run_of_fixed h) hcount, ?_⟩
  induction h with
  | nil => exact fun hcrash => absurd hcrash Bool.false_ne_true
  | @snoc tr c c' a hr hs ih =>
    intro hcrash
    have hp : tr <+: tr ++ [(a, c')] := List.prefix_append _ _
    by_cases hold : (c.server S).crashed = true
    · obtain ⟨node, hdel, hunsound⟩ := ih hold
      exact ⟨node, hdel.mono hp, hunsound⟩
    have hrun := run_of_fixed hr
    have htraced := Traced.of_run hrun S
    obtain ⟨wtr, w, hwr, ⟨-, htracks⟩, hw⟩ := Cluster.tracked_of_run hrun S
    have hhandled := Cluster.handled_of_tracks htracks hwr hw
    rcases hs.step.server_cases S with heq | ⟨l, rfl, hv⟩
    · exact absurd (heq ▸ hcrash) hold
    generalize hserver : c.server S = v at hv hold htraced hhandled
    generalize c'.server S = v' at hv hcrash
    generalize c'.redis = r' at hv
    cases hv with
    | @crash _ _ t ex ht hret =>
      obtain ⟨hdel, hcalled⟩ := htraced.worker t ht
      obtain ⟨-, hsteps⟩ := hhandled.next t ht
      refine ⟨t.node, hdel.mono hp, fun hsound => ?_⟩
      -- everything that the handler has read could be read, so it has not thrown
      have hyields : Yields (LogicSystem.dispatch J S t.node).run t.past (.error ex) :=
        Steps.yields (hret ▸ hsteps)
      have hreadable : ∀ e ∈ t.past, StoredReadable J S t.node.recvNode e := by
        intro e he
        refine storedReadable_of_called hJ hstart hcount hr hsound (hcalled e he) fun hsearch => ?_
        have huses : (LogicSystem.dispatch J S t.node).run.Uses Call.ReadsProfiles := by
          unfold LogicSystem.dispatch LogicSystem.callback
          rw [hsearch]
          exact LogicSystem.searchUserHandler_readsProfiles _ _
        exact hyields.uses huses e he
      obtain ⟨_, hok⟩ := (dispatch_returns J S t.node _ _ hyields).mpr ⟨hsound.1, hreadable⟩
      cases hok
    | _ => exact absurd hcrash hold

/-- The texts of the user 7, and an array. -/
def arrayTexts : JsonCpp :=
  .ofTable [(lit "[]", .arr []), ((JsonCpp.ofTable []).toStyledString annProfile, annProfile),
    ((JsonCpp.ofTable []).fastWrite annProfile, annProfile)]

theorem arrayTexts_readsBack : arrayTexts.ReadsBackAll annTable := by
  intro uid user hu
  obtain ⟨row, hrow, -, rfl⟩ := UserTable.exists_row hu
  obtain rfl := List.mem_singleton.mp hrow
  exact ⟨rfl, by decide +kernel, rfl, by decide +kernel⟩

/-- A client searches for an array. -/
def searchesArray : List Move :=
  connects 0 ++ .readSome 0 false [7, 211, 0, 2] :: callback ++ .readSome 0 false (lit "[]") :: callback ++
    handling

/-- The server goes down. -/
theorem crashed_of_unsound_array : ∃ tr c,
    Run (Cluster.FixedStep arrayTexts annTable) (.init Redis.empty) tr c ∧ (c.server s1).crashed = true ∧
    ∃ node, Delivered arrayTexts Redis.empty s1 tr node ∧ ¬ Sound arrayTexts node.recvNode := by
  let tr := Cluster.schedule arrayTexts knowsAnn (.init Redis.empty) (searchesArray.map fun m => (s1, m))
  have hrun : Run (Cluster.Step arrayTexts) (.init Redis.empty) tr (final (.init Redis.empty) tr) :=
    Cluster.schedule_run ..
  have hanswers : Each (Cluster.Step arrayTexts) (.init Redis.empty) (fun _ _ a => answersAnn a = true) tr :=
    hrun.each_iff_along.mpr (by decide +kernel)
  have hfixed := hrun.restrict (C := fun _ a => answersAnn a = true) fixedStep_of_answersAnn hanswers
  have hstart : Redis.empty.Coherent arrayTexts annTable := ⟨fun _ _ h => (nomatch h), fun _ _ h => (nomatch h)⟩
  have hcount : CountText (Redis.empty.count s1) := Or.inl (by decide)
  have hcrash : ((final (.init Redis.empty) tr).server s1).crashed = true := by decide +kernel
  exact ⟨tr, _, hfixed, hcrash, (crashed_of_unsound arrayTexts_readsBack hstart hcount hfixed).2 hcrash⟩

end Runs

end ChatServer
