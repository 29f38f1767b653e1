import ChatServer.Conversation

/-!
# What a client reads is what its session was given

`Streams` follows a client's frames up to the logic queue; this module follows the messages that a session
is given down to the client. Whatever threads call `CSession::send`, and however the bytes of the writes are
cut, the frames that a client decodes are the messages that the session has accepted, in their order
(`client_reads`); among those under the id of a reply they are replies to the client's own requests, in the
order of these requests (`replies_read`).
-/

namespace ChatServer

open Interaction Transition Prog Word Framing CSession LogicSystem

/-! ## Messages go to known sessions, under ids that a header can hold -/

/-- The ids of the protocol fit into a header. -/
theorem MsgIds.id_range (m : MsgIds) : IsShort m.id := by
  cases m <;> decide

theorem isShort_of_responseId {msg_id id : Int} (h : responseId msg_id = some id) : IsShort id := by
  unfold responseId at h
  split_ifs at h
  all_goals
    obtain rfl := Option.some.inj h
    exact MsgIds.id_range _

theorem isShort_of_isNotice {id : Int} (h : IsNotice id) : IsShort id := by
  rcases h with rfl | rfl | rfl | rfl
  all_goals exact MsgIds.id_range _

/-- The server does not forget a session. -/
theorem Server.Step.known {J : JsonCpp} {S : ServerName} {r r' : Redis} {v v' : Server} {l : Label}
    {s : SessId} (hs : Server.Step J S (r, v) l (r', v')) (h : s ∈ v.proc.known) : s ∈ v'.proc.known := by
  cases hs with
  | accept _ _ => exact List.mem_cons_of_mem _ h
  | io _ _ hsem => exact (known_sem hsem).symm ▸ h
  | worker _ _ hsem => exact (known_sem hsem).symm ▸ h
  | rpc _ _ hsem => exact (known_sem hsem).symm ▸ h
  | _ => exact h

section Runs

variable {J : JsonCpp} {redis : Redis} {S : ServerName} {s : SessId} {tr pre : List (Cluster.Act × Cluster)}
  {c c' c₁ : Cluster} {l : Label} {e : Event calls} {u id : Int}

theorem known_of_prefix (h : Run (Cluster.Step J) (.init redis) tr c)
    (h₁ : Run (Cluster.Step J) (.init redis) pre c₁) (hp : pre <+: tr)
    (hknown : s ∈ (c₁.server S).proc.known) : s ∈ (c.server S).proc.known := by
  induction h with
  | nil =>
    obtain rfl := List.prefix_nil.mp hp
    rwa [← h₁.nil_inv]
  | @snoc tr c c' a hr hs ih =>
    rcases List.prefix_concat_iff.mp hp with rfl | hp
    · rwa [← h₁.snoc_inv.1]
    · have hknown := ih hp
      rcases hs.server_cases S with heq | ⟨l, -, hv⟩
      · rwa [heq]
      · exact hv.known hknown

/-- A session that was in `UserMgr` was accepted. -/
theorem known_of_registered (h : Run (Cluster.Step J) (.init redis) tr c)
    (hreg : Registered J redis S tr s u) : s ∈ (c.server S).proc.known := by
  obtain ⟨pre, c₁, h₁, hp, hmap, -⟩ := hreg
  exact known_of_prefix h h₁ hp (((Cluster.run_facts h₁).2 S).map u s hmap)

/-- A message is sent to a session that was accepted, under an id that a header can hold. -/
theorem sends_known (h : Run (Cluster.Step J) (.init redis) tr c) (hs : Cluster.Step J c (some (S, l)) c')
    (hl : l.call = some e) (hsend : e.1.sends = some (s, id)) :
    s ∈ (c.server S).proc.known ∧ IsShort id := by
  have hdirected := directed_of_run h S
  have hapart := Cluster.apart_of_run h S
  have hregular := (Cluster.run_facts h).2 S
  have hreg : ∀ {u : Int}, Registered J redis S tr s u → s ∈ (c.server S).proc.known :=
    known_of_registered h
  rcases hs with ⟨-, hv⟩
  generalize hserver : c.server S = v at *
  cases hv with
  | io ht hstep _ =>
    obtain rfl := Option.some.inj hl
    have hnone := ((hapart.io _ ht).step hstep).1.sends
    simp [hsend] at hnone
  | @worker _ _ t _ _ _ ht hstep _ =>
    obtain rfl := Option.some.inj hl
    obtain ⟨hheeds, hlooks⟩ := hdirected.worker t ht
    rcases (hheeds.step hstep).1.sends s id hsend with ⟨rfl, hid⟩ | ⟨u, hu, hfound⟩
    · refine ⟨?_, isShort_of_responseId hid⟩
      have hat : (c.ledger S).worker = some (t.node.session, WorkerPhase.after S t.node.session t.past) := by
        simp [Cluster.ledger, Server.ledger, World.ledger, Server.workerAt, hserver, ht]
      have := hregular.worker _ _ hat
      simpa [Cluster.ledger, Server.ledger, World.ledger, hserver] using this
    · exact ⟨hreg (hlooks s u hfound), isShort_of_isNotice (addressee_notice hu)⟩
  | @rpc _ _ before after p _ _ _ hmem hstep _ =>
    obtain rfl := Option.some.inj hl
    obtain ⟨request, past, hserved, hlooks, hheeds⟩ := hdirected.rpcs p (by simp [hmem])
    obtain ⟨msg, he⟩ := send_of_sends hsend
    obtain ⟨rfl, -, hfound⟩ := (hheeds.step hstep).1 s msg id he
    exact ⟨hreg (hlooks s _ hfound), isShort_of_isNotice request.notice_isNotice⟩
  | _ => cases hl

end Runs

/-! ## What one step does to the queue of a session -/

/-- The message that the step gives to the session. -/
def Label.gives (s : SessId) (l : Label) : Option (Bytes × Int) := l.call.bind fun e => e.1.sendTo s

/-- The step completes a write of the session. -/
def Label.completes (s : SessId) : Label → Bool
  | .written t false => decide (t = s)
  | _ => false

section Queue

variable {J : JsonCpp} {S : ServerName} {s : SessId} {r r' : Redis} {v v' : Server} {l : Label}
  {w w' : World} {m : Bytes × Int}

/-- A call that sends nothing to the session leaves its queue alone. -/
theorem sendQue_apply {c : Call} (h : c.sendTo s = none) :
    ((w.apply c).proc.sess s).sendQue = (w.proc.sess s).sendQue := by
  have hother : ∀ {t : SessId} {f : Sess → Sess}, (t = s → ∀ x, (f x).sendQue = x.sendQue) →
      ((w.modify t f).proc.sess s).sendQue = (w.proc.sess s).sendQue := by
    intro t f hf
    by_cases ht : t = s
    · subst ht
      rw [World.modify_sess, hf rfl]
    · rw [World.modify_sess_ne (Ne.symm ht)]
  cases c with
  | send t msg msgid =>
    refine hother fun ht => ?_
    simp [Call.sendTo, ht] at h
  | setBClose t | clearData t | socketClose t => exact hother fun _ _ => rfl
  | setRecvNode t _ | asyncReadSome t _ | setUserId t _ => exact hother fun _ _ => rfl
  | _ => rfl

/-- A call gives the session its message, or leaves its queue alone. -/
theorem sendQue_sem {e : Event calls} (hs : World.sem true e w w') :
    (∀ m, e.1.sendTo s = some m → w'.proc.sess s = (w.proc.sess s).send m.1 m.2) ∧
      (e.1.sendTo s = none → (w'.proc.sess s).sendQue = (w.proc.sess s).sendQue) := by
  refine ⟨?_, ?_⟩
  · intro m hm
    obtain ⟨-, hc⟩ := sends_of_sendTo hm
    obtain ⟨c, a⟩ := e
    obtain rfl : c = _ := hc
    rw [(World.sem_of_not_failed hs (by simp [World.Failed])).1]
    exact World.modify_sess _ _ _
  · intro hnone
    rcases hs with ⟨rfl, -⟩ | ⟨-, -, rfl | rfl⟩
    · exact sendQue_apply hnone
    · rfl
    · exact sendQue_apply hnone

/-- What a step that is not the acceptance of the session does to its queue: it puts the message that it
gives to the session at the end, if the session accepts it, or takes the node at the front off, if it
completes a write. -/
theorem Server.Step.sendQue (hs : Server.Step J S (r, v) l (r', v')) (hnew : l ≠ .accept s) :
    (∃ m, l.gives s = some m ∧ l.completes s = false ∧
        v'.proc.sess s = (v.proc.sess s).send m.1 m.2) ∨
      (l.gives s = none ∧ l.completes s = false ∧
        (v'.proc.sess s).sendQue = (v.proc.sess s).sendQue) ∨
      (l.gives s = none ∧ l.completes s = true ∧ (v.proc.sess s).writes ≠ [] ∧
        (v'.proc.sess s).sendQue = (v.proc.sess s).sendQue.tail) := by
  have hcall : ∀ {e : Event calls} {w : World}, World.sem true e ⟨r, v.proc⟩ w →
      (∃ m, e.1.sendTo s = some m ∧ w.proc.sess s = (v.proc.sess s).send m.1 m.2) ∨
        e.1.sendTo s = none ∧ (w.proc.sess s).sendQue = (v.proc.sess s).sendQue := by
    intro e w hsem
    obtain ⟨hsend, hkeep⟩ := sendQue_sem (s := s) hsem
    rcases hto : e.1.sendTo s with _ | m
    · exact Or.inr ⟨rfl, hkeep hto⟩
    · exact Or.inl ⟨m, rfl, hsend m hto⟩
  cases hs with
  | @accept _ _ t _ _ =>
    have hts : s ≠ t := by
      rintro rfl
      exact hnew rfl
    exact Or.inr (Or.inl ⟨rfl, rfl, by simp [Proc.accept, Function.update_of_ne hts]⟩)
  | @readSome _ _ t p _ bytes _ _ _ =>
    refine Or.inr (Or.inl ⟨rfl, rfl, ?_⟩)
    show (Function.update v.proc.sess t _ s).sendQue = _
    by_cases hts : s = t
    · subst hts
      rw [Function.update_self]
      rfl
    · rw [Function.update_of_ne hts]
  | @written _ _ t ec _ hw =>
    by_cases hts : t = s
    · subst hts
      have hsess : (Proc.modify v.proc t fun x =>
          { x with writes := x.writes.tail }.handleWrite ec).sess t =
          { v.proc.sess t with writes := (v.proc.sess t).writes.tail }.handleWrite ec :=
        Function.update_self ..
      cases ec with
      | true => exact Or.inr (Or.inl ⟨rfl, rfl, by rw [hsess]; rfl⟩)
      | false =>
        refine Or.inr (Or.inr ⟨rfl, by simp [Label.completes], hw, ?_⟩)
        rw [hsess]
        unfold Sess.handleWrite
        cases (v.proc.sess t).sendQue.tail <;> simp
    · refine Or.inr (Or.inl ⟨rfl, ?_, ?_⟩)
      · cases ec <;> simp [Label.completes, hts]
      · show (Function.update v.proc.sess t _ s).sendQue = _
        rw [Function.update_of_ne (Ne.symm hts)]
  | @io _ _ t e q w hio hp hsem =>
    rcases hcall hsem with ⟨m, hm, hsess⟩ | ⟨hnone, hkeep⟩
    · exact Or.inl ⟨m, hm, rfl, hsess⟩
    · exact Or.inr (Or.inl ⟨hnone, rfl, hkeep⟩)
  | @worker _ _ t e q w ht hp hsem =>
    rcases hcall hsem with ⟨m, hm, hsess⟩ | ⟨hnone, hkeep⟩
    · exact Or.inl ⟨m, hm, rfl, hsess⟩
    · exact Or.inr (Or.inl ⟨hnone, rfl, hkeep⟩)
  | @rpc _ _ pre post p q e w hmem hp hsem =>
    rcases hcall hsem with ⟨m, hm, hsess⟩ | ⟨hnone, hkeep⟩
    · exact Or.inl ⟨m, hm, rfl, hsess⟩
    · exact Or.inr (Or.inl ⟨hnone, rfl, hkeep⟩)
  | _ => exact Or.inr (Or.inl ⟨rfl, rfl, rfl⟩)

end Queue

/-! ## The messages that a session has accepted -/

/-- The session has accepted these messages, and the writes of the first of them, in these nodes, are
complete. -/
structure Server.Carries (v : Server) (s : SessId) (taken : List (Bytes × Int)) (done : List SendNode) :
    Prop where
  fresh : s ∉ v.proc.known → (v.proc.sess s).sendQue = [] ∧ taken = [] ∧ done = []
  order : taken.map (fun m => frame m.1 m.2) = (done ++ (v.proc.sess s).sendQue).map SendNode.wire
  fits : ∀ m ∈ taken, m.1.length ≤ maxLength ∧ IsShort m.2

section Carries

variable {J : JsonCpp} {S : ServerName} {s : SessId} {r r' : Redis} {v v' : Server} {l : Label}
  {taken : List (Bytes × Int)} {done : List SendNode}

/-- The message that the session accepts in the step. -/
def Server.taking (v : Server) (s : SessId) (l : Label) : Option (Bytes × Int) :=
  (l.gives s).filter fun m => (v.proc.sess s).Accepts m.1

/-- The node whose write is completed by the step. -/
def Server.completing (v : Server) (s : SessId) (l : Label) : Option SendNode :=
  if l.completes s then (v.proc.sess s).sendQue.head? else none

/-- **A step gives the session a message, completes a write of it, or leaves its queue as it is.** -/
theorem Server.Carries.step (h : v.Carries s taken done) (hs : Server.Step J S (r, v) l (r', v'))
    (hgives : ∀ m, l.gives s = some m → s ∈ v.proc.known ∧ IsShort m.2) :
    v'.Carries s (taken ++ (v.taking s l).toList) (done ++ (v.completing s l).toList) := by
  have hfresh : s ∉ v'.proc.known → (v.proc.sess s).sendQue = [] ∧ taken = [] ∧ done = [] :=
    fun hn => h.fresh fun hk => hn (hs.known hk)
  by_cases hnew : l = .accept s
  · subst hnew
    cases hs with
    | accept _ hunknown =>
      obtain ⟨-, rfl, rfl⟩ := h.fresh hunknown
      have hsess : (Proc.accept v.proc s).sess s = {} := Function.update_self ..
      refine ⟨fun hn => absurd List.mem_cons_self hn, ?_, by simp [Server.taking, Label.gives, Label.call]⟩
      simp [Server.taking, Server.completing, Label.gives, Label.call, Label.completes, hsess]
  rcases hs.sendQue hnew with ⟨m, hm, hc, hsess⟩ | ⟨hnone, hc, hque⟩ | ⟨hnone, hc, hw, hque⟩
  · obtain ⟨hknown, hshort⟩ := hgives m hm
    have hcompleting : v.completing s l = none := by simp [Server.completing, hc]
    rw [hcompleting, Option.toList_none, List.append_nil]
    by_cases ha : (v.proc.sess s).Accepts m.1
    · -- the message is queued behind the others
      obtain ⟨node, -, hwire, hsend⟩ := Sess.send_of_accepts m.2 ha
      have htaking : v.taking s l = some m := by simp [Server.taking, hm, ha]
      have hque : (v'.proc.sess s).sendQue = (v.proc.sess s).sendQue ++ [node] := by rw [hsess, hsend]
      rw [htaking, Option.toList_some]
      refine ⟨fun hn => absurd (hs.known hknown) hn, ?_, ?_⟩
      · rw [List.map_append, h.order, hque]
        simp [hwire]
      · intro m' hm'
        rcases List.mem_append.mp hm' with hold | hlast
        · exact h.fits m' hold
        · obtain rfl := List.mem_singleton.mp hlast
          exact ⟨ha.2.2, hshort⟩
    · have htaking : v.taking s l = none := by simp [Server.taking, hm, ha]
      rw [Sess.send_of_not_accepts m.2 ha] at hsess
      rw [htaking, Option.toList_none, List.append_nil]
      exact ⟨fun hn => absurd (hs.known hknown) hn, by rw [hsess, h.order], h.fits⟩
  · have htaking : v.taking s l = none := by simp [Server.taking, hnone]
    have hcompleting : v.completing s l = none := by simp [Server.completing, hc]
    rw [htaking, hcompleting, Option.toList_none, Option.toList_none, List.append_nil, List.append_nil]
    exact ⟨by rwa [hque], by rw [hque, h.order], h.fits⟩
  · have htaking : v.taking s l = none := by simp [Server.taking, hnone]
    have hcompleting : v.completing s l = (v.proc.sess s).sendQue.head? := by simp [Server.completing, hc]
    rw [htaking, hcompleting, Option.toList_none, List.append_nil]
    rcases hfront : (v.proc.sess s).sendQue with _ | ⟨node, rest⟩
    · rw [hfront] at hque
      refine ⟨?_, by rw [hque, h.order, hfront]; simp, h.fits⟩
      intro hn
      obtain ⟨-, htaken, hdone⟩ := hfresh hn
      exact ⟨hque, htaken, by simp [hdone]⟩
    · rw [hfront] at hque
      refine ⟨?_, by rw [hque, h.order, hfront]; simp, h.fits⟩
      intro hn
      have hnil := (hfresh hn).1
      simp [hfront] at hnil

end Carries

/-! ## Decoding -/

/-- The messages whose frames a client finds in the bytes, as their bodies and ids. -/
def decoded (bytes : Bytes) : List (Bytes × Int) :=
  (feeds layout Reader.start bytes).out.map fun f => (f.2, headMsgId f.1)

/-- Messages that fit are written as frames of the layout. -/
theorem frames_of_fits {ms : List (Bytes × Int)} (h : ∀ m ∈ ms, m.1.length ≤ maxLength ∧ IsShort m.2) :
    ∃ fs : List (Frame layout), fs.map (fun f => (f.body, headMsgId f.head)) = ms ∧
      fs.map Frame.encode = ms.map fun m => frame m.1 m.2 := by
  induction ms with
  | nil => exact ⟨[], rfl, rfl⟩
  | cons m ms ih =>
    obtain ⟨fs, hms, hencode⟩ := ih fun x hx => h x (List.mem_cons_of_mem m hx)
    obtain ⟨hlen, hid⟩ := h m List.mem_cons_self
    have hlimit : maxLength = 2048 := rfl
    have hbody : m.1.length = layout.bodyLen (hostToNetworkShort m.2 ++ hostToNetworkShort m.1.length) := by
      show m.1.length = (headMsgLen (hostToNetworkShort m.2 ++ hostToNetworkShort m.1.length)).toNat
      rw [headMsgLen_encode ⟨by omega, by omega⟩, Int.toNat_natCast]
    refine ⟨⟨hostToNetworkShort m.2 ++ hostToNetworkShort m.1.length, m.1, rfl, hbody⟩ :: fs, ?_, ?_⟩
    · rw [List.map_cons, hms]
      show (m.1, headMsgId (hostToNetworkShort m.2 ++ hostToNetworkShort m.1.length)) :: ms = m :: ms
      rw [headMsgId_encode hid]
    · rw [List.map_cons, List.map_cons, hencode]
      rfl

namespace Cluster

variable {J : JsonCpp} {redis : Redis} {S : ServerName} {s : SessId} {tr : List (Act × Cluster)}
  {c : Cluster} {bytes : Bytes} {id : Int}

/-- The messages that the session was given. -/
def given (S : ServerName) (s : SessId) (tr : List (Act × Cluster)) : List (Bytes × Int) :=
  (watched (callOf S) tr).filterMap fun e => e.1.sendTo s

/-- The label of a step of the server. -/
def labelOf (S : ServerName) : Act → Option Label
  | none => none
  | some (T, l) => if T = S then some l else none

/-- The messages that the session has accepted. -/
def accepted (S : ServerName) (s : SessId) (redis : Redis) (tr : List (Act × Cluster)) :
    List (Bytes × Int) :=
  noted (fun c a => (labelOf S a).bind fun l => (c.server S).taking s l) (.init redis) tr

/-- The nodes of the session whose writes are complete. -/
def completed (S : ServerName) (s : SessId) (redis : Redis) (tr : List (Act × Cluster)) : List SendNode :=
  noted (fun c a => (labelOf S a).bind fun l => (c.server S).completing s l) (.init redis) tr

/-- The client has got these bytes: a beginning of the frames that are complete and the one that is being
written. -/
def Heard (S : ServerName) (s : SessId) (redis : Redis) (tr : List (Act × Cluster)) (c : Cluster)
    (bytes : Bytes) : Prop :=
  bytes <+: ((completed S s redis tr ++ ((c.server S).proc.sess s).sendQue.take 1).map
    SendNode.wire).flatten

theorem carries_of_run (h : Run (Step J) (.init redis) tr c) (S : ServerName) (s : SessId) :
    (c.server S).Carries s (accepted S s redis tr) (completed S s redis tr) := by
  induction h with
  | nil => exact ⟨fun _ => ⟨rfl, rfl, rfl⟩, rfl, fun _ hm => absurd hm List.not_mem_nil⟩
  | @snoc tr c c' a hr hs ih =>
    unfold accepted completed at *
    rw [hr.noted_snoc, hr.noted_snoc]
    rcases hs.own_cases S with ⟨heq, hne⟩ | ⟨l, rfl, hv⟩
    · have hlabel : labelOf S a = none := by
        rcases a with _ | ⟨T, l⟩
        · rfl
        · exact if_neg fun hT => hne l (by rw [hT])
      rw [hlabel, heq]
      simpa using ih
    · have hlabel : labelOf S (some (S, l)) = some l := if_pos rfl
      rw [hlabel]
      refine ih.step hv ?_
      intro m hm
      obtain ⟨e, he, hto⟩ := Option.bind_eq_some_iff.mp hm
      exact sends_known hr hs he (sends_of_sendTo hto).1

/-- Every message that the session was given it has accepted. -/
def Unrefused (J : JsonCpp) (S : ServerName) (s : SessId) (redis : Redis) (tr : List (Act × Cluster)) :
    Prop :=
  Each (Step J) (.init redis) (fun _ c a => ∀ l m, labelOf S a = some l → l.gives s = some m →
    ((c.server S).proc.sess s).Accepts m.1) tr

theorem given_snoc (c' : Cluster) (a : Act) : given S s (tr ++ [(a, c')]) =
    given S s tr ++ ((labelOf S a).bind (Label.gives s)).toList := by
  unfold given
  rw [watched_snoc, List.filterMap_append]
  congr 1
  rcases a with _ | ⟨T, l⟩
  · rfl
  · by_cases hT : T = S
    · simp only [callOf, labelOf, if_pos hT, Option.bind_some, Label.gives]
      rcases l.call with _ | e
      · rfl
      · rcases hto : e.1.sendTo s with _ | m <;> simp [hto]
    · simp [callOf, labelOf, hT]

/-- The messages that are accepted are among those that are given, and all of them if none is refused. -/
theorem accepted_of_given (h : Run (Step J) (.init redis) tr c) (S : ServerName) (s : SessId) :
    (accepted S s redis tr).Sublist (given S s tr) ∧
      (Unrefused J S s redis tr → accepted S s redis tr = given S s tr) := by
  induction h with
  | nil => exact ⟨List.Sublist.slnil, fun _ => rfl⟩
  | @snoc tr c c' a hr hs ih =>
    have hsnoc : accepted S s redis (tr ++ [(a, c')]) = accepted S s redis tr ++
        ((labelOf S a).bind fun l => (c.server S).taking s l).toList := hr.noted_snoc _ a c'
    rw [hsnoc, given_snoc]
    rcases hlabel : labelOf S a with _ | l
    · exact ⟨by simpa using ih.1, fun hall => by simpa using ih.2 hall.of_snoc⟩
    · rcases hm : l.gives s with _ | m
      · have htaking : (c.server S).taking s l = none := by simp [Server.taking, hm]
        simp only [Option.bind_some, hm, htaking, Option.toList_none, List.append_nil]
        exact ⟨ih.1, fun hall => ih.2 hall.of_snoc⟩
      · simp only [Option.bind_some, hm]
        refine ⟨ih.1.append ?_, fun hall => ?_⟩
        · rcases htaking : (c.server S).taking s l with _ | m'
          · exact List.nil_sublist _
          · obtain ⟨hm', -⟩ := Option.filter_eq_some_iff.mp htaking
            obtain rfl := Option.some.inj (hm.symm.trans hm')
            exact List.Sublist.refl _
        · have htaking : (c.server S).taking s l = some m := by
            simp [Server.taking, hm, hall.last hr l m hlabel hm]
          rw [ih.2 hall.of_snoc, htaking]

/-- What a session is given, it is given once it is accepted, under an id that a header can hold. -/
theorem known_of_given (h : Run (Step J) (.init redis) tr c) {m : Bytes × Int} (hm : m ∈ given S s tr) :
    s ∈ (c.server S).proc.known ∧ IsShort m.2 := by
  induction h with
  | nil => cases hm
  | @snoc tr c c' a hr hs ih =>
    have hkeep : s ∈ (c.server S).proc.known → s ∈ (c'.server S).proc.known := by
      rcases hs.server_cases S with heq | ⟨l, -, hv⟩
      · rw [heq]
        exact id
      · exact hv.known
    rw [given_snoc] at hm
    rcases List.mem_append.mp hm with hold | hnew
    · exact (ih hold).imp_left hkeep
    · obtain ⟨l, hl, hgives⟩ := Option.bind_eq_some_iff.mp (Option.mem_toList.mp hnew)
      obtain ⟨e, he, hto⟩ := Option.bind_eq_some_iff.mp hgives
      obtain rfl : a = some (S, l) := by
        rcases a with _ | ⟨T, l'⟩
        · cases hl
        · obtain ⟨rfl, hown⟩ := Option.ite_none_right_eq_some.mp hl
          rw [Option.some.inj hown]
      exact (sends_known hr hs he (sends_of_sendTo hto).1).imp_left hkeep

/-- The client decodes the first of the messages that the session has accepted, at least those whose frames
it has got. -/
theorem decoded_eq_take (h : Run (Step J) (.init redis) tr c) (hb : Heard S s redis tr c bytes) :
    ∃ n, decoded bytes = (accepted S s redis tr).take n ∧ n ≤ (accepted S s redis tr).length ∧
      (((completed S s redis tr).map SendNode.wire).flatten <+: bytes →
        (completed S s redis tr).length ≤ n) := by
  obtain ⟨-, horder, hfits⟩ := carries_of_run h S s
  obtain ⟨fs, hms, hencode⟩ := frames_of_fits hfits
  unfold Heard at hb
  generalize accepted S s redis tr = taken at *
  generalize completed S s redis tr = done at *
  generalize ((c.server S).proc.sess s).sendQue = que at *
  rw [← hencode] at horder
  have hpre : bytes <+: encode fs := by
    rw [encode, List.flatMap_def, horder, List.map_append, List.flatten_append]
    refine hb.trans ?_
    rw [List.map_append, List.flatten_append, List.prefix_append_right_inj]
    conv_rhs => rw [← List.take_append_drop 1 que, List.map_append, List.flatten_append]
    exact List.prefix_append _ _
  have hlen : taken.length = fs.length := by rw [← hms, List.length_map]
  have hcount : done.length ≤ fs.length := by
    have := congrArg List.length horder
    simp only [List.length_map, List.length_append] at this
    omega
  obtain ⟨n, hout, hn, hmax⟩ := feeds_of_prefix [] hpre
  refine ⟨n, ?_, hlen ▸ hn, ?_⟩
  · show (feeds layout Reader.start bytes).out.map (fun f => (f.2, headMsgId f.1)) = taken.take n
    rw [Reader.start, hout, List.nil_append, ← hms, ← List.map_take, List.map_map]
    rfl
  · intro hdone
    refine hmax _ hcount ?_
    -- the first frames are those whose writes are complete
    have hfirst : (fs.take done.length).map Frame.encode = done.map SendNode.wire := by
      rw [List.map_take, horder, List.map_append, List.take_left' (List.length_map _)]
    rwa [encode, List.flatMap_def, hfirst]

/-- **What a client decodes is what its session has accepted.** In every run, whatever threads send to the
session: the messages whose frames the client finds in the bytes that it has got, cut anywhere, are the first
of those that the session has accepted, each once and in their order; only those in the queue can be missing
once the client has got the bytes of all complete writes; the session has accepted all that it was given,
in the order in which it was given them, if it has refused none; and it is given messages only once it is
accepted, under ids that a header can hold. -/
theorem client_reads (h : Run (Step J) (.init redis) tr c) (hb : Heard S s redis tr c bytes) :
    decoded bytes <+: accepted S s redis tr ∧
      (((completed S s redis tr).map SendNode.wire).flatten <+: bytes →
        (accepted S s redis tr).length ≤ (decoded bytes).length + ((c.server S).proc.sess s).sendQue.length) ∧
      (accepted S s redis tr).Sublist (given S s tr) ∧
      (Unrefused J S s redis tr → accepted S s redis tr = given S s tr) ∧
      ∀ m ∈ given S s tr, s ∈ (c.server S).proc.known ∧ IsShort m.2 := by
  obtain ⟨n, hdecoded, hn, hmax⟩ := decoded_eq_take h hb
  have horder := congrArg List.length (carries_of_run h S s).order
  obtain ⟨hsub, hall⟩ := accepted_of_given h S s
  refine ⟨hdecoded ▸ List.take_prefix _ _, ?_, hsub, hall, fun m hm => known_of_given h hm⟩
  intro hdone
  have hcount := hmax hdone
  rw [hdecoded, List.length_take]
  simp only [List.length_map, List.length_append] at horder
  omega

/-- The reply to the login of the user 7 is being written. -/
theorem client_reads_login : ∃ bytes, (decoded bytes).length = 1 ∧
    decoded bytes <+: accepted s1 0 startRedis (runOf (connects 0 ++ logsIn 0 7)) := by
  let bytes := ((((stateAfter (connects 0 ++ logsIn 0 7)).server s1).proc.sess 0).sendQue.map
    SendNode.wire).flatten
  obtain ⟨hb, hlen⟩ : bytes <+: ((completed s1 0 startRedis (runOf (connects 0 ++ logsIn 0 7)) ++
        (((stateAfter (connects 0 ++ logsIn 0 7)).server s1).proc.sess 0).sendQue.take 1).map
          SendNode.wire).flatten ∧ (decoded bytes).length = 1 := by
    decide +kernel
  exact ⟨bytes, hlen, (client_reads (runOf_run _) hb).1⟩

/-! ## Replies -/

/-- Nothing of the session is on its way: what has arrived is handled, what was sent is written, and the
client has got it. -/
structure Settled (S : ServerName) (s : SessId) (redis : Redis) (tr : List (Act × Cluster)) (c : Cluster)
    (bytes : Bytes) : Prop where
  callback : (c.server S).callbackOf s = none
  handled : ∀ node ∈ (c.server S).proc.msgQue, node.session ≠ s
  sent : ((c.server S).proc.sess s).sendQue = []
  got : ((completed S s redis tr).map SendNode.wire).flatten <+: bytes

/-- The messages with the id that the client decodes. -/
def decodedAs (id : Int) (bytes : Bytes) : List (Bytes × Int) := (decoded bytes).filter fun m => m.2 = id

/-- What the client decodes under an id is among what its session was sent under this id, in the same order;
it is all of it if no message was refused, none waits, and the client has got what is written. -/
theorem decodedAs_of_sent (h : Run (Step J) (.init redis) tr c) (hb : Heard S s redis tr c bytes) (id : Int) :
    (decodedAs id bytes).Sublist (sent S s id tr) ∧
      (Unrefused J S s redis tr → ((c.server S).proc.sess s).sendQue = [] →
        ((completed S s redis tr).map SendNode.wire).flatten <+: bytes →
        decodedAs id bytes = sent S s id tr) := by
  obtain ⟨n, hdecoded, hn, hmax⟩ := decoded_eq_take h hb
  obtain ⟨hsub, hall⟩ := accepted_of_given h S s
  have hgiven : (given S s tr).filter (fun m => m.2 = id) = sent S s id tr := rfl
  refine ⟨?_, ?_⟩
  · rw [← hgiven]
    refine List.Sublist.filter _ ?_
    rw [hdecoded]
    exact (List.take_sublist _ _).trans hsub
  · intro hun hsent hgot
    have horder := congrArg List.length (carries_of_run h S s).order
    simp only [hsent, List.append_nil, List.length_map] at horder
    rw [decodedAs, hdecoded, List.take_of_length_le (horder ▸ hmax hgot), hall hun, hgiven]

/-- While the worker handles a message of another session, it sends no reply to this one. -/
theorem sendsOf_worker {done : List (LogicNode × List (Event calls))} (hid : ¬ IsNotice id)
    (h : Handled J S tr (c.server S) done) (hnodes : ∀ node ∈ (c.server S).proc.msgQue, node.session ≠ s) :
    sendsOf s id ((c.server S).worker.elim [] WorkerTask.past) = [] := by
  rcases hworker : (c.server S).worker with _ | t
  · rfl
  · obtain ⟨hfront, hsteps⟩ := h.next t hworker
    have hne := hnodes t.node (List.mem_of_head? hfront)
    refine sendsOf_eq_nil ?_
    intro e he hsend
    rcases (hsteps.uses (dispatch_sends J S t.node)).1 e he s id hsend with ⟨rfl, -⟩ | hnotice
    · exact hne rfl
    · exact hid hnotice

/-- **Each request has its reply, and the client reads it.** In every run, whatever other sessions and
threads do: the messages that the client decodes under the id of a reply, other than that to a text message,
out of the bytes that it has got are replies to its own requests, in the order of the requests, no two to the
same one. If no message to the session was refused, then once nothing of the session is on its way they are
one reply for each request that the client has sent. -/
theorem replies_read (h : Run (Step J) (.init redis) tr c) {msgs : List Message}
    (ha : Arrived S s tr msgs) (hid : ¬ IsNotice id) (hb : Heard S s redis tr c bytes) :
    ∃ done k, Handled J S tr (c.server S) done ∧
      (done.filter fun x => x.1.session = s).map (fun x => (x.1.recvNode.msgId, x.1.recvNode.text)) =
        (msgs.take k).map (fun m => (m.msgId, m.body)) ∧
      ∃ replies, List.Forall₂ (Answers s)
          (done.filter fun x => x.1.session = s ∧ responseId x.1.recvNode.msgId = some id) replies ∧
        (decodedAs id bytes).Sublist
          (replies ++ sendsOf s id ((c.server S).worker.elim [] WorkerTask.past)) ∧
        (Unrefused J S s redis tr → Settled S s redis tr c bytes → decodedAs id bytes = replies ∧
          replies.length = msgs.countP fun m => responseId m.msgId = some id) := by
  obtain ⟨done, k, hdone, htake, htaken, replies, hpairs, hlen, hsent⟩ := answers_in_order h ha hid
  obtain ⟨hsub, hread⟩ := decodedAs_of_sent h hb id
  refine ⟨done, k, hdone, htake, replies, hpairs, hsent ▸ hsub, ?_⟩
  intro hun hset
  refine ⟨?_, ?_⟩
  · rw [hread hun hset.sent hset.got, hsent, sendsOf_worker hid hdone hset.handled, List.append_nil]
  · rw [hlen, htaken hset.callback hset.handled]

/-- A write of the session is complete. -/
def written (c : Cluster) (S : ServerName) (s : SessId) : Cluster :=
  { c with server := Function.update c.server S { c.server S with
      proc := (c.server S).proc.modify s fun x => { x with writes := x.writes.tail }.handleWrite false } }

theorem step_written (hlive : (c.server S).crashed = false) (hio : (c.server S).io.isNone = true)
    (hw : ((c.server S).proc.sess s).writes ≠ []) :
    Step J c (some (S, .written s false)) (c.written S s) :=
  .server hlive (.written (Option.isNone_iff_eq_none.mp hio) hw)

/-- `Unrefused`, as a check of a step. -/
def accepts (S : ServerName) (s : SessId) (c : Cluster) (a : Act) : Bool :=
  ((labelOf S a).bind (Label.gives s)).all fun m => decide (((c.server S).proc.sess s).Accepts m.1)

theorem unrefused_of_accepts (h : Each (Step J) (.init redis) (fun _ c a => accepts S s c a = true) tr) :
    Unrefused J S s redis tr := by
  intro pre c a t hr hp l m hl hm
  have hcheck : accepts S s c a = true := h pre c a t hr hp
  rw [accepts, hl, Option.bind_some, hm] at hcheck
  exact of_decide_eq_true hcheck

/-- The reply to the login of the user 7 is written, and the user reads it. -/
theorem replies_read_login : ∃ tr c bytes, Run (Step loginTexts) (.init startRedis) tr c ∧
    Settled s1 0 startRedis tr c bytes ∧ ∃ done replies, Handled loginTexts s1 tr (c.server s1) done ∧
      decodedAs MsgIds.chatLoginRsp.id bytes = replies ∧ replies.length = 1 := by
  let c := stateAfter (connects 0 ++ logsIn 0 7)
  let tr := runOf (connects 0 ++ logsIn 0 7) ++ [(some (s1, .written 0 false), c.written s1 0)]
  let bytes := ((completed s1 0 startRedis tr).map SendNode.wire).flatten
  obtain ⟨hlive, hio, hwrites⟩ : (c.server s1).crashed = false ∧ (c.server s1).io.isNone = true ∧
      ((c.server s1).proc.sess 0).writes ≠ [] := by decide +kernel
  have h : Run (Step loginTexts) (.init startRedis) tr (c.written s1 0) :=
    (runOf_run _).snoc (step_written hlive hio hwrites)
  have ha : Arrived s1 0 tr [loginMessage] := by
    refine ⟨by decide +kernel, loginMessage, [], List.nil_prefix, ?_, ?_⟩ <;> decide +kernel
  have hun : Unrefused loginTexts s1 0 startRedis tr :=
    unrefused_of_accepts (h.each_iff_along.mpr (by decide +kernel))
  obtain ⟨hidle, hque, hsent⟩ : ((c.written s1 0).server s1).io.isNone = true ∧
      ((c.written s1 0).server s1).proc.msgQue = [] ∧
      (((c.written s1 0).server s1).proc.sess 0).sendQue = [] := by decide +kernel
  have hset : Settled s1 0 startRedis tr (c.written s1 0) bytes := by
    refine ⟨callbackOf_none ?_, ?_, hsent, List.prefix_refl _⟩
    · rw [Option.isNone_iff_eq_none.mp hidle]
      simp
    · rw [hque]
      simp
  have hb : Heard s1 0 startRedis tr (c.written s1 0) bytes := by
    unfold Heard
    rw [hsent, List.take_nil, List.append_nil]
  have hid : ¬ IsNotice MsgIds.chatLoginRsp.id := by decide
  obtain ⟨done, -, hdone, -, replies, -, -, hall⟩ := replies_read h ha hid hb
  obtain ⟨hread, hlen⟩ := hall hun hset
  exact ⟨tr, _, bytes, h, hset, done, replies, hdone, hread, hlen⟩

end Cluster

end ChatServer
