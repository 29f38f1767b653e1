import ChatServer.Regular

/-!
# The login count

How the login count of a server relates to its sessions when its handlers run one at a time and no
Redis command fails. `close` keeps the count right in every case. A login keeps it right exactly when
the session is open and not logged in and the uid is positive (`loginCount_iff`).
-/

namespace ChatServer

open Interaction Prog Transition Handler Bytes Decimal Word Function

/-! ## Counting sessions -/

/-- Changing one element of a list changes a count by that element. -/
theorem countP_change {α : Type} {l : List α} {a : α} {p p' : α → Bool} (hn : l.Nodup)
    (ha : a ∈ l) (h : ∀ x, x ≠ a → p' x = p x) :
    l.countP p' + (p a).toNat = l.countP p + (p' a).toNat := by
  induction l with
  | nil => cases ha
  | cons x l ih =>
    rw [List.nodup_cons] at hn
    rw [List.countP_cons, List.countP_cons]
    by_cases hxa : x = a
    · subst hxa
      have hsame : l.countP p' = l.countP p := List.countP_congr fun y hy => by
        rw [h y fun hyx => hn.1 (hyx ▸ hy)]
      rw [hsame]
      cases p x <;> cases p' x <;> simp
    · have hmem : a ∈ l := (List.mem_cons.mp ha).resolve_left (Ne.symm hxa)
      rw [h x hxa]
      have := ih hn.2 hmem
      omega

namespace Ledger

/-- A session counts as logged in. -/
def loggedIn (b : Ledger) (s : SessId) : Bool := !b.closed s && decide (0 < b.uid s)

/-- How many sessions are logged in. -/
def online (b : Ledger) : Nat := b.known.countP b.loggedIn

/-- The login count is the number of sessions that are logged in. -/
def Exact (b : Ledger) : Prop := b.count = renderInt b.online

theorem online_pos {b : Ledger} {s : SessId} (hs : s ∈ b.known) (h : b.loggedIn s = true) :
    0 < b.online := List.countP_pos_iff.mpr ⟨s, hs, h⟩

/-- A session with a new `_user_uid`. -/
theorem online_setUserId {b : Ledger} {s : SessId} (hn : b.known.Nodup) (hs : s ∈ b.known)
    (uid : Int) :
    online { b with uid := update b.uid s uid } + (b.loggedIn s).toNat =
      b.online + (!b.closed s && decide (0 < uid)).toNat := by
  have hself : loggedIn { b with uid := update b.uid s uid } s = (!b.closed s && decide (0 < uid)) := by
    show (!b.closed s && decide (0 < update b.uid s uid s)) = _
    rw [update_self]
  rw [← hself]
  refine countP_change hn hs fun t ht => ?_
  show (!b.closed t && decide (0 < update b.uid s uid t)) = _
  rw [update_of_ne ht]
  rfl

/-- Closing a session that is not logged in. -/
theorem online_setBClose {b : Ledger} {s : SessId} (huid : b.uid s ≤ 0) :
    online { b with closed := update b.closed s true } = b.online := by
  refine List.countP_congr fun t _ => ?_
  show (!update b.closed s true t && decide (0 < b.uid t)) = true ↔ _
  by_cases ht : t = s
  · subst ht
    simp [loggedIn, Int.not_lt.mpr huid]
  · rw [update_of_ne ht]
    rfl

/-! ## Closing -/

/-- The login count while the I/O thread is in a phase for the session `s`. Between writing the count
and setting `_user_uid` to zero, `close` has counted the session out and the session still counts. -/
def IoCounted (s : SessId) : IoPhase → Ledger → Prop
  | .closing, b => b.Exact ∧ b.closed s = false
  | .leaving _, b => b.Exact ∧ b.loggedIn s = true
  | .read rd_res, b => b.Exact ∧ b.loggedIn s = true ∧ rd_res = b.count
  | .counted, b => b.count = renderInt (b.online - 1) ∧ b.loggedIn s = true
  | .erasing _, b => b.count = renderInt (b.online - 1) ∧ b.loggedIn s = true
  | .erased, b => b.count = renderInt (b.online - 1) ∧ b.loggedIn s = true
  | .unbound, b => b.Exact ∧ b.uid s ≤ 0
  | .shut, b => b.Exact ∧ b.uid s ≤ 0
  | .failed, b => b.Exact ∧ b.uid s ≤ 0
  | _, b => b.Exact

theorem IoCounted.ioCall {self : ServerName} {s : SessId} {b b' : Ledger} {q q' : IoPhase}
    {e : Event calls} (hn : b.known.Nodup) (hs : s ∈ b.known) (h : IoCounted s q b)
    (hc : IoCall false self s q b e q' b') : IoCounted s q' b' := by
  cases hc with
  | missCount hl => cases hl
  | loseCount hl _ => cases hl
  | beginClose hclosed => exact ⟨h, hclosed⟩
  | leave hpos =>
    obtain ⟨hexact, hclosed⟩ := h
    refine ⟨hexact, ?_⟩
    simp [loggedIn, hclosed, hpos]
  | pass hle => exact ⟨h.1, hle⟩
  | readCount => exact ⟨h.1, h.2, rfl⟩
  | writeCount hvalue =>
    obtain ⟨hexact, hlog, hrd⟩ := h
    rw [hrd, hexact] at hvalue
    exact ⟨drop_renderInt (Int.natCast_pos.mpr (online_pos hs hlog)) hvalue, hlog⟩
  | reread => exact h
  | erase => exact h
  | unbind =>
    obtain ⟨hcount, hlog⟩ := h
    have honline := online_setUserId hn hs 0
    rw [hlog] at honline
    have hone : online { b with uid := update b.uid s 0 } + 1 = b.online := by simpa using honline
    have hpred : (b.online : Int) - 1 = online { b with uid := update b.uid s 0 } := by omega
    refine ⟨hcount.trans ?_, le_of_eq (update_self ..)⟩
    rw [hpred]
  | shut => exact h
  | fail => exact h
  | setClosed =>
    obtain ⟨hexact, huid⟩ := h
    show b.count = renderInt (online { b with closed := update b.closed s true })
    rw [online_setBClose huid]
    exact hexact
  | neutral _ => exact h
  | _ => exact h

/-- In the phases in which a callback ends, the count is exact. -/
theorem IoCounted.exact {s : SessId} {b : Ledger} {q : IoPhase} (h : IoCounted s q b)
    (hq : q.Ends) : b.Exact := by
  cases q with
  | read => exact h.1
  | failed => exact h.1
  | header | lost | armed | rejected | released => exact h
  | reading | stored | closing | leaving | counted | erasing | erased | unbound | shut | closed =>
    exact hq.elim

end Ledger

/-! ## Logging in -/

/-- The answers that let a login as `uid` with this token pass: to the first call, Redis has the
token; to the second, the database knows the user. -/
def Admits (uid : Int) (token : Bytes) (tr : List (Event calls)) : Prop :=
  ∃ info rest, tr = ⟨.get (tokenKey uid), some token⟩ :: ⟨.getUserInfo uid, some info⟩ :: rest

/-- The message is a login request as `uid`, and the answers in `tr` let it pass the checks. -/
def LogsIn (J : JsonCpp) (node : LogicNode) (tr : List (Event calls)) (uid : Int) : Prop :=
  node.recvNode.msgId = MsgIds.chatLogin.id ∧
    (J.parse node.recvNode.text).2.getInt "uid" = .ok uid ∧
    ∃ token, (J.parse node.recvNode.text).2.getString J "token" = .ok token ∧ Admits uid token tr

/-- The ledger after a login of the session `s` as `uid` that wrote the login count `count`. -/
def Ledger.login (b : Ledger) (self : ServerName) (s : SessId) (uid : Int) (count : Bytes) :
    Ledger :=
  { b with
    count := count
    uid := update b.uid s uid
    route := update b.route uid (some self.val)
    map := update b.map uid (some s) }

theorem get_event_inj {k k' : Bytes} {r r' : Option Bytes}
    (h : (⟨.get k, r⟩ : Event calls) = ⟨.get k', r'⟩) : k = k' ∧ r = r' := by
  cases h
  exact ⟨rfl, rfl⟩

theorem getUserInfo_event_inj {u u' : Int} {r r' : Option UserInfo}
    (h : (⟨.getUserInfo u, r⟩ : Event calls) = ⟨.getUserInfo u', r'⟩) : u = u' ∧ r = r' := by
  cases h
  exact ⟨rfl, rfl⟩

theorem exec_bindUser {self : ServerName} {s : SessId} {uid : Int} {w w' : World}
    {tr : List (Event calls)}
    (h : Exec (World.sem false) (LogicSystem.bindUser self s uid).run w tr (.ok ()) w') :
    ∃ count, bump (w.redis.count self) = some count ∧
      w'.ledger self none none = (w.ledger self none none).login self s uid count := by
  obtain ⟨rd_res, _, -, hrd, h⟩ := exec_ask h
  obtain rfl := hrd _ rfl
  obtain ⟨count, hcount, h⟩ := exec_lift h
  have hbump : bump (w.redis.count self) = some (renderInt (toInt (count + 1))) := by
    show bump (w.redis.hGet RedisPrefix.loginCount self.val) = _
    rw [bump, hcount]
  refine ⟨_, hbump, ?_⟩
  obtain ⟨_, _, -, -, h⟩ := exec_ask h
  obtain ⟨_, _, -, -, h⟩ := exec_ask h
  obtain ⟨_, _, -, -, h⟩ := exec_ask h
  obtain ⟨_, _, -, -, h⟩ := exec_call h
  obtain ⟨-, rfl⟩ := exec_ret h
  have hcounted := ledger_hSet w self none none (zero_notMem_of_bump hbump)
  have hbound := ledger_setUserId
    (w.apply (.hSet RedisPrefix.loginCount self.val (renderInt (toInt (count + 1))))) self none none
    s uid
  have hrouted := ledger_set ((w.apply (.hSet RedisPrefix.loginCount self.val
    (renderInt (toInt (count + 1))))).apply (.setUserId s uid)) self none none uid
  show { World.ledger (((w.apply _).apply _).apply _) self none none with
    map := update w.proc.uidToSession uid (some s) } = _
  rw [hrouted, hbound, hcounted]
  rfl

/-- The checks of a login and what follows them: the session is counted and bound if the answers
admit it, and nothing is done to the bindings otherwise. -/
theorem exec_login {J : JsonCpp} {self : ServerName} {s : SessId} {uid : Int} {token : Bytes}
    {w w' : World} {tr : List (Event calls)} {reply : Json}
    (h : Exec (World.sem false) (LogicSystem.login J self s uid token).run w tr (.ok reply) w') :
    (∃ count, Admits uid token tr ∧ bump (w.redis.count self) = some count ∧
      w'.ledger self none none = (w.ledger self none none).login self s uid count) ∨
    ((∀ more, ¬ Admits uid token (tr ++ more)) ∧
      w'.ledger self none none = w.ledger self none none) := by
  obtain ⟨token_value, t₁, htr, -, hget⟩ := exec_ask h
  -- the first answer decides whether the token is right, the second whether there is such a user
  cases token_value with
  | none =>
    obtain ⟨-, hw⟩ := exec_ret hget
    refine Or.inr ⟨?_, by rw [hw]; rfl⟩
    rintro more ⟨info, rest, htr'⟩
    rw [htr] at htr'
    cases (get_event_inj (List.cons.inj htr').1).2
  | some token_value =>
    dsimp only at hget
    by_cases hne : token_value ≠ token
    · rw [if_pos hne] at hget
      obtain ⟨-, hw⟩ := exec_ret hget
      refine Or.inr ⟨?_, by rw [hw]; rfl⟩
      rintro more ⟨info, rest, htr'⟩
      rw [htr] at htr'
      cases (get_event_inj (List.cons.inj htr').1).2
      exact hne rfl
    · rw [if_neg hne] at hget
      obtain rfl : token_value = token := not_not.mp hne
      obtain ⟨user_info, w₂, t₂, t₃, ht₁, hbase, hrest⟩ := exec_bind_ok hget
      have hsame : w₂.ledger self none none = w.ledger self none none :=
        exec_neutral hbase (LogicSystem.getBaseInfo_neutral J uid uid) self
      obtain ⟨db_user, t₄, ht₂, -, hdb⟩ := exec_ask hbase
      cases db_user with
      | none =>
        obtain ⟨hinfo, -⟩ := exec_ret hdb
        cases hinfo
        obtain ⟨-, hw⟩ := exec_ret hrest
        refine Or.inr ⟨?_, by rw [hw, hsame]⟩
        rintro more ⟨info, rest, htr'⟩
        rw [htr, ht₁, ht₂] at htr'
        cases (getUserInfo_event_inj (List.cons.inj (List.cons.inj htr').2).1).2
      | some db_user =>
        obtain ⟨_, _, _, _, -, -, hinfo⟩ := exec_bind_ok hdb
        cases Except.ok.inj (exec_ret hinfo).1
        obtain ⟨_, _, -, -, hrest⟩ := exec_ask hrest
        obtain ⟨_, _, -, -, hrest⟩ := exec_ask hrest
        obtain ⟨_, w₃, _, _, -, hbind, hreply⟩ := exec_bind_ok hrest
        obtain ⟨-, hw⟩ := exec_ret hreply
        obtain ⟨count, hbump, hlogin⟩ := exec_bindUser hbind
        refine Or.inl ⟨count, ⟨_, _, by rw [htr, ht₁, ht₂]; rfl⟩, ?_, ?_⟩
        · have hcount : w₂.redis.count self = w.redis.count self := congrArg Ledger.count hsame
          rw [← hcount]
          exact hbump
        · rw [hw, hlogin]
          show Ledger.login (w₂.ledger self none none) self s uid count = _
          rw [hsame]

/-- **What handling a message does to the bindings**: a login request that passes the checks counts
and binds its session, and every other message leaves the ledger as it is. -/
theorem exec_dispatch {J : JsonCpp} {self : ServerName} {node : LogicNode} {w w' : World}
    {tr : List (Event calls)}
    (h : Exec (World.sem false) (LogicSystem.dispatch J self node).run w tr (.ok ()) w') :
    (∃ uid count, LogsIn J node tr uid ∧ bump (w.redis.count self) = some count ∧
      w'.ledger self none none = (w.ledger self none none).login self node.session uid count) ∨
    ((∀ uid, ¬ LogsIn J node tr uid) ∧ w'.ledger self none none = w.ledger self none none) := by
  by_cases hid : node.recvNode.msgId = MsgIds.chatLogin.id
  · rw [LogicSystem.dispatch_login J self hid] at h
    obtain ⟨uid, huid, h⟩ := exec_lift h
    obtain ⟨token, htoken, h⟩ := exec_lift h
    obtain ⟨reply, w₁, t₁, t₂, htr, hlogin, hsend⟩ := exec_bind_ok h
    have hsent : w'.ledger self none none = w₁.ledger self none none :=
      exec_neutral hsend ⟨rfl, fun _ => trivial⟩ self
    rw [hsent]
    rcases exec_login hlogin with ⟨count, ⟨info, rest, ht⟩, hbump, hw⟩ | ⟨hno, hw⟩
    · exact Or.inl ⟨uid, count, ⟨hid, huid, token, htoken, info, rest ++ t₂, by rw [htr, ht]; rfl⟩,
        hbump, hw⟩
    · refine Or.inr ⟨?_, hw⟩
      rintro u ⟨-, hu, token', htoken', hadmits⟩
      cases Except.ok.inj (hu.symm.trans huid)
      cases Except.ok.inj (htoken'.symm.trans htoken)
      exact hno t₂ (htr ▸ hadmits)
  · refine Or.inr ⟨fun uid hlog => hid hlog.1, ?_⟩
    exact exec_neutral h (LogicSystem.dispatch_neutral J self hid) self

/-! ## Runs -/

/-- How many sessions are open and have a positive `_user_uid`. -/
def World.online (w : World) : Nat :=
  w.proc.known.countP fun s => !(w.proc.sess s).bClose && decide (0 < (w.proc.sess s).userUid)

/-- If the step is a login that passes the checks, its session is open and not logged in, its uid is
positive, and the count is not at its greatest value. -/
def FreshLogin (J : JsonCpp) (w : World) : SeqLabel → Prop
  | .handle node tr => ∀ uid, LogsIn J node tr uid →
    (w.proc.sess node.session).bClose = false ∧ (w.proc.sess node.session).userUid ≤ 0 ∧ 0 < uid ∧
      (w.online : Int) < 2147483647
  | _ => True

section Runs

variable {J : JsonCpp} {self : ServerName} {w w' : World} {l : SeqLabel}

/-- A callback of the I/O thread keeps the count exact. -/
theorem exec_callback_exact {s : SessId} {h : ReadHandler} {p : Io Unit} {tr : List (Event calls)}
    (hexec : Exec (World.sem false) p w tr () w')
    (hp : p.Conforms (IoPhase.next self s) (fun _ q => q.Ends) (.reading h))
    (hreg : (w.ledger self none none).Regular) (hs : s ∈ w.proc.known)
    (hexact : (w.ledger self none none).Exact) :
    (w'.ledger self none none).Regular ∧ (w'.ledger self none none).Exact := by
  obtain ⟨q, hq, hreg', -, hcounted⟩ := exec_ioCalls
    (I := fun q b => b.Regular ∧ s ∈ b.known ∧ Ledger.IoCounted s q b)
    (fun q b e q' b' hc ⟨hreg, hs, hi⟩ =>
      ⟨hreg.ioCall hs hc, hc.known_eq ▸ hs, hi.ioCall hreg.nodup hs hc⟩) hexec hp ⟨hreg, hs, hexact⟩
  exact ⟨hreg', hcounted.exact hq⟩

theorem Ledger.Regular.login {s : SessId} {uid : Int} {count : Bytes} {b : Ledger}
    (h : b.Regular) (hs : s ∈ b.known) : (b.login self s uid count).Regular := by
  refine ⟨h.nodup, h.reads, h.queue, h.worker, h.io, ?_, h.live⟩
  intro u t hut
  rcases update_some_eq_some.mp hut with ⟨-, rfl⟩ | ⟨-, hut⟩
  · exact hs
  · exact h.map u t hut

/-- A login keeps the count exact exactly when it is a fresh one. -/
theorem exact_login_iff {s : SessId} {uid : Int} {count : Bytes} {b : Ledger} (hreg : b.Regular)
    (hs : s ∈ b.known) (hexact : b.Exact) (hbump : bump b.count = some count) :
    (b.login self s uid count).Exact ↔
      b.closed s = false ∧ b.uid s ≤ 0 ∧ 0 < uid ∧ (b.online : Int) < 2147483647 := by
  rw [hexact] at hbump
  obtain ⟨⟨-, hmax⟩, hvalue⟩ := bump_renderInt hbump
  have honline := Ledger.online_setUserId hreg.nodup hs uid
  have hcount : (b.login self s uid count).Exact ↔
      toInt (b.online + 1) = Ledger.online { b with uid := update b.uid s uid } := by
    show count = renderInt (Ledger.online { b with uid := update b.uid s uid }) ↔ _
    rw [hvalue]
    exact renderInt_inj
  have hlogged : b.loggedIn s = (!b.closed s && decide (0 < b.uid s)) := rfl
  rw [hcount]
  unfold toInt
  rw [hlogged] at honline
  cases hclosed : b.closed s with
  | true =>
    simp only [hclosed, Bool.not_true, Bool.false_and, Bool.toNat_false] at honline
    simp
    omega
  | false =>
    simp only [hclosed, Bool.not_false, Bool.true_and] at honline
    by_cases hlog : 0 < b.uid s <;> by_cases hpos : 0 < uid <;>
      simp only [hlog, hpos, decide_true, decide_false, Bool.toNat_true, Bool.toNat_false] at honline <;>
      simp [hpos] <;> omega

/-- Accepting a connection. -/
theorem regular_accept {s : SessId} (hreg : (w.ledger self none none).Regular)
    (hs : s ∉ w.proc.known) :
    (World.ledger { w with proc := w.proc.accept s } self none none).Regular := by
  have hstep : Ledger.Step true self (w.ledger self none none) (some (.accept s)) _ := .accept rfl hs
  have hreg' := hreg.step hstep
  rw [show (World.ledger { w with proc := w.proc.accept s } self none none) = _ from
    ledger_accept w.redis w.proc self s none none]
  exact ⟨hreg'.nodup, hreg'.reads, hreg'.queue, hreg'.worker, fun _ _ h => (nomatch h), hreg'.map,
    hreg'.live⟩

theorem exact_accept {s : SessId} (hexact : (w.ledger self none none).Exact)
    (hs : s ∉ w.proc.known) :
    (World.ledger { w with proc := w.proc.accept s } self none none).Exact := by
  have honline : (World.ledger { w with proc := w.proc.accept s } self none none).online =
      (w.ledger self none none).online := by
    have hself : (World.ledger { w with proc := w.proc.accept s } self none none).loggedIn s =
        false := by
      simp [Ledger.loggedIn, World.ledger, Proc.accept]
    show List.countP _ (s :: w.proc.known) = _
    rw [List.countP_cons_of_neg (by simp [hself])]
    refine List.countP_congr fun t ht => ?_
    have hne : t ≠ s := fun h => hs (h ▸ ht)
    show (!(update w.proc.sess s {} t).bClose && decide (0 < (update w.proc.sess s {} t).userUid)) = true
      ↔ _
    rw [update_of_ne hne]
    rfl
  show w.redis.count self = _
  rw [honline]
  exact hexact

/-- A completed read is outstanding no more. -/
theorem regular_deliver {s : SessId} {p : PendingRead} {bytes : Bytes}
    (hreg : (w.ledger self none none).Regular) (hp : p ∈ (w.proc.sess s).reads) :
    ((w.modify s fun x => x.deliver p bytes).ledger self none none).Regular ∧ s ∈ w.proc.known := by
  have hstep : Ledger.Step true self (w.ledger self none none) (some (.readSome s p true bytes)) _ :=
    .readSome rfl hp
  have hreg' := hreg.step hstep
  rw [ledger_deliver]
  exact ⟨⟨hreg'.nodup, hreg'.reads, hreg'.queue, hreg'.worker, fun _ _ h => (nomatch h), hreg'.map,
    hreg'.live⟩, hreg'.io s _ rfl⟩

/-- **A step of the server, when the login count is exact**: it stays exact exactly when the step,
if it is a login, is a fresh one. -/
theorem seqStep_exact_iff (hreg : (w.ledger self none none).Regular)
    (hexact : (w.ledger self none none).Exact) (hs : SeqStep J self w l w') :
    (w'.ledger self none none).Regular ∧
      ((w'.ledger self none none).Exact ↔ FreshLogin J w l) := by
  have htrivial : ∀ {P Q : Prop}, P ∧ Q → P ∧ (Q ↔ True) := fun h => ⟨h.1, iff_true_intro h.2⟩
  cases hs with
  | accept hnew hexec =>
    exact htrivial (exec_callback_exact hexec (handleAccept_conforms self _)
      (regular_accept hreg hnew) List.mem_cons_self (exact_accept hexact hnew))
  | readSome hread =>
    obtain ⟨hp, -, hexec⟩ := hread
    obtain ⟨hreg', hknown⟩ := regular_deliver hreg hp
    refine htrivial (exec_callback_exact hexec (CSession.readCallback_conforms self _ _ _ _) hreg'
      hknown ?_)
    rw [ledger_deliver]
    exact hexact
  | written hw =>
    rw [ledger_written]
    exact htrivial ⟨hreg, hexact⟩
  | @handle w' node rest tr hque hexec =>
    -- popping the message changes the queue only
    have htail : ∀ b : Ledger, b.Regular → Ledger.Regular { b with queue := b.queue.tail } :=
      fun b hb => ⟨hb.nodup, hb.reads, fun t ht => hb.queue t (List.mem_of_mem_tail ht), hb.worker,
        hb.io, hb.map, hb.live⟩
    have hpop : World.ledger { w' with proc := { w'.proc with msgQue := w'.proc.msgQue.tail } } self
        none none =
        { w'.ledger self none none with queue := (w'.ledger self none none).queue.tail } := by
      show Ledger.mk _ _ _ _ _ _ _ _ _ _ (w'.proc.msgQue.tail.map LogicNode.session) _ _ = _
      rw [List.map_tail]
      rfl
    rw [hpop]
    have hknown : node.session ∈ w.proc.known := hreg.queue _ (by simp [World.ledger, hque])
    rcases exec_dispatch hexec with ⟨uid, count, hlog, hbump, hledger⟩ | ⟨hno, hledger⟩
    · rw [hledger]
      refine ⟨htail _ (hreg.login hknown), ?_⟩
      have hiff : ((w.ledger self none none).login self node.session uid count).Exact ↔ _ :=
        exact_login_iff hreg hknown hexact hbump
      refine hiff.trans ?_
      refine ⟨fun hfresh u hu => ?_, fun hfresh => hfresh uid hlog⟩
      cases Except.ok.inj (hu.2.1.symm.trans hlog.2.1)
      exact hfresh
    · rw [hledger]
      exact ⟨htail _ hreg, fun _ uid hlog => absurd hlog (hno uid), fun _ => hexact⟩
  | serve hexec =>
    rw [exec_neutral hexec (ChatServiceImpl.serve_neutral J _) self]
    exact htrivial ⟨hreg, hexact⟩
  | @others redis hcount =>
    refine htrivial ⟨⟨hreg.nodup, hreg.reads, hreg.queue, hreg.worker, hreg.io, hreg.map, hreg.live⟩, ?_⟩
    show redis.count self = _
    rw [hcount]
    exact hexact

end Runs

/-- **The login count is right exactly as long as every login is a fresh one.** From the start of a
server, with its login count reset by `main`, the count is the number of open sessions with a
positive `_user_uid` in every state of a run exactly when each login in it that passes the checks is
of an open session that is not logged in, with a positive uid and a count that can still grow. -/
theorem loginCount_iff {J : JsonCpp} {self : ServerName} {w₀ w : World}
    {tr : List (SeqLabel × World)} (hproc : w₀.proc = .init)
    (hcount : w₀.redis.count self = lit "0") (hrun : Run (SeqStep J self) w₀ tr w) :
    Throughout (SeqStep J self) w₀ (fun _ w => w.redis.count self = renderInt w.online) tr ↔
      Each (SeqStep J self) w₀ (fun _ w l => FreshLogin J w l) tr := by
  have hstart : (w₀.ledger self none none).Regular := by
    rcases w₀ with ⟨r, p⟩
    obtain rfl : p = .init := hproc
    exact ⟨List.nodup_nil, fun _ h => absurd rfl h, fun _ h => (nomatch h), fun _ _ h => (nomatch h),
      fun _ _ h => (nomatch h), fun _ _ h => (nomatch h), fun _ h => (nomatch h)⟩
  have hregular : ∀ {tr w}, Run (SeqStep J self) w₀ tr w →
      Throughout (SeqStep J self) w₀ (fun _ w => w.redis.count self = renderInt w.online) tr →
      (w.ledger self none none).Regular := by
    intro tr w hr
    induction hr with
    | nil => exact fun _ => hstart
    | snoc hr hs ih =>
      intro hthrough
      have hbefore := ((throughout_snoc hr hs).mp hthrough).1
      have hexact := hbefore _ _ hr (List.prefix_refl _)
      exact (seqStep_exact_iff (ih hbefore) hexact hs).1
  refine Run.throughout_iff_each ?_ (fun tr w l w' hr hthrough hs => ?_) hrun
  · rcases w₀ with ⟨r, p⟩
    obtain rfl : p = .init := hproc
    rw [hcount]
    show lit "0" = renderInt 0
    decide
  · have hexact := hthrough _ _ hr (List.prefix_refl _)
    exact (seqStep_exact_iff (hregular hr hthrough) hexact hs).2

/-! ## Two logins of one session -/

/-- The server `s1` has just started. -/
def startWorld : World := { redis := startRedis, proc := .init }

/-- A client connects and logs in. -/
def loginMoves : List SeqMove :=
  [.accept 0, .readSome 0 false loginHead, .readSome 0 false (loginText 7), .handle]

/-- The session logs in once more. -/
def reloginMoves : List SeqMove :=
  loginMoves ++ [.readSome 0 false loginHead, .readSome 0 false (loginText 7), .handle]

/-- One login: the count is 1, and one session is logged in. -/
theorem loginCount_one : ∃ tr w, Run (SeqStep loginTexts s1) startWorld tr w ∧ w.online = 1 ∧
    (Throughout (SeqStep loginTexts s1) startWorld
        (fun _ w => w.redis.count s1 = renderInt w.online) tr ↔
      Each (SeqStep loginTexts s1) startWorld (fun _ w l => FreshLogin loginTexts w l) tr) := by
  have hmoves : (runMoves loginTexts s1 knowsUsers startWorld loginMoves).map World.online =
      some 1 := by decide +kernel
  obtain ⟨w, hw, honline⟩ := Option.map_eq_some_iff.mp hmoves
  obtain ⟨tr, hrun⟩ := runMoves_run hw
  exact ⟨tr, w, hrun, honline, loginCount_iff rfl (by decide +kernel) hrun⟩

/-- Two logins of one session: the count is 2, and one session is logged in. -/
theorem loginCount_relogin : ¬ ∀ (J : JsonCpp) (self : ServerName) (w₀ w : World)
    (tr : List (SeqLabel × World)), w₀.proc = .init → w₀.redis.count self = lit "0" →
    Run (SeqStep J self) w₀ tr w →
    Throughout (SeqStep J self) w₀ (fun _ w => w.redis.count self = renderInt w.online) tr := by
  intro h
  have hmoves : (runMoves loginTexts s1 knowsUsers startWorld reloginMoves).map
      (fun w => (w.redis.count s1, w.online)) = some (lit "2", 1) := by decide +kernel
  obtain ⟨w, hw, hfinal⟩ := Option.map_eq_some_iff.mp hmoves
  obtain ⟨tr, hrun⟩ := runMoves_run hw
  have hexact : w.redis.count s1 = renderInt w.online :=
    h loginTexts s1 startWorld w tr rfl (by decide +kernel) hrun tr w hrun (List.prefix_refl _)
  obtain ⟨hcount, honline⟩ := Prod.mk.inj hfinal
  rw [hcount, honline] at hexact
  exact absurd hexact (by decide +kernel)

end ChatServer
