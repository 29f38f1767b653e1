import ChatServer.CountUpdates

/-!
# The read chain

Each open session is read by a chain of reads: the handler of one starts the next, or it ends the
chain. `attended_of_orderly` shows that a session whose chain has ended is released everywhere, as
long as no header is rejected, no negative length gets through and no exception is caught inside
`close`; and that the stored login count has dropped by one for each session that was logged in, as long
as Redis carries out what `close` asks of it and no login writes the count in between. `attended_fails` is
the rejected header: the session stays registered and nobody reads it.
-/

namespace ChatServer

open Interaction Transition Function Word

namespace Ledger

variable {self : ServerName} {b b' : Ledger} {l : Option Label} {s t : SessId}

/-! ## Attended and released sessions -/

/-- The session has exactly one read pending, or none and a handler running. -/
def Attended (b : Ledger) (s : SessId) : Prop :=
  (∃ p, b.reads s = [p]) ∨ (b.reads s = [] ∧ ∃ q, b.io = some (s, q))

/-- `close` has completed, and nothing refers to the session any more. -/
structure Released (b : Ledger) (s : SessId) : Prop where
  closed : b.closed s = true
  socket : b.socket s = false
  uid : b.uid s ≤ 0
  unregistered : ∀ u, b.map u ≠ some s
  live : s ∉ b.live
  reads : b.reads s = []

/-- A header that is looked at is accepted and has a length that is not negative, `close` can convert
the login count, and closing the socket does not throw. -/
def Readable (b : Ledger) : Option Label → Prop
  | some (.io ⟨.data s, data⟩) => b.io = some (s, .reading .head) →
    ¬ CSession.Rejected data ∧ 0 ≤ CSession.headMsgLen data
  | some (.io ⟨.hGet _ _, r⟩) => drop r ≠ none
  | some (.io ⟨.socketClose _, r⟩) => r.isOk = true
  | _ => True

/-! ## Between the steps -/

/-- A session for which no handler runs. -/
def Idle (b : Ledger) (s : SessId) : Prop :=
  (b.closed s = false ∧ ∃ p, b.reads s = [p] ∧ (p.handler ≠ .head → b.stored s = true)) ∨
    (b.closed s = true ∧ b.socket s = false ∧ b.uid s ≤ 0 ∧ s ∉ b.live ∧ b.reads s = [])

/-- The session of a handler in this phase. -/
def Handled (b : Ledger) (s : SessId) : IoPhase → Prop
  | .reading h => b.reads s = [] ∧ b.closed s = false ∧ (h ≠ .head → b.stored s = true)
  | .header data => b.reads s = [] ∧ b.closed s = false ∧ ¬ CSession.Rejected data ∧
      0 ≤ CSession.headMsgLen data
  | .stored => b.reads s = [] ∧ b.closed s = false ∧ b.stored s = true
  | .armed => b.closed s = false ∧ ∃ p, b.reads s = [p] ∧ (p.handler ≠ .head → b.stored s = true)
  | .read rd_res => b.reads s = [] ∧ b.closed s = false ∧ drop rd_res ≠ none
  | .unbound => b.reads s = [] ∧ b.closed s = false ∧ b.uid s ≤ 0
  | .shut => b.reads s = [] ∧ b.closed s = false ∧ b.uid s ≤ 0 ∧ b.socket s = false
  | .closed => b.reads s = [] ∧ b.closed s = true ∧ b.uid s ≤ 0 ∧ b.socket s = false
  | .released => b.reads s = [] ∧ b.closed s = true ∧ b.uid s ≤ 0 ∧ b.socket s = false ∧ s ∉ b.live
  | .lost => False
  | .rejected => False
  | .failed => False
  | _ => b.reads s = [] ∧ b.closed s = false

/-- Every chain of reads is whole, or its session is released. -/
structure Chained (b : Ledger) : Prop where
  idle : ∀ s ∈ b.known, (∀ q, b.io ≠ some (s, q)) → b.Idle s
  handled : ∀ s q, b.io = some (s, q) → b.Handled s q

/-- What does not touch a session leaves it as it was. -/
theorem Idle.transfer (h : b.Idle s) (hclosed : b'.closed s = b.closed s)
    (hsocket : b'.socket s = b.socket s) (hstored : b'.stored s = b.stored s)
    (hreads : b'.reads s = b.reads s) (huid : b.closed s = true → b'.uid s = b.uid s)
    (hlive : s ∈ b'.live → s ∈ b.live) : b'.Idle s := by
  rcases h with ⟨hopen, p, hp, hbody⟩ | ⟨hcl, hsock, hu, hl, hr⟩
  · exact Or.inl ⟨hclosed.trans hopen, p, hreads.trans hp, fun hne => hstored.trans (hbody hne)⟩
  · refine Or.inr ⟨hclosed.trans hcl, hsocket.trans hsock, ?_, fun hmem => hl (hlive hmem),
      hreads.trans hr⟩
    rw [huid hcl]
    exact hu

/-- A handler ends with the next read started or the session released. -/
theorem Handled.idle {q : IoPhase} (h : b.Handled s q) (hq : q.Ends) : b.Idle s := by
  cases q with
  | header data =>
    obtain ⟨-, -, -, hlen⟩ := h
    obtain ⟨-, hneg⟩ := hq
    omega
  | armed => exact Or.inl h
  | read rd_res => exact absurd hq h.2.2
  | released =>
    obtain ⟨hreads, hclosed, huid, hsocket, hlive⟩ := h
    exact Or.inr ⟨hclosed, hsocket, huid, hlive, hreads⟩
  | lost => exact h.elim
  | rejected => exact h.elim
  | failed => exact h.elim
  | _ => exact hq.elim

/-- A new uid of a session that is neither closed nor being closed. -/
theorem Handled.setUserId {q : IoPhase} (h : b.Handled s q) (uid : Int)
    (hopen : b.closed t = false) (hfree : t = s → q.isClosing = false) :
    Handled { b with uid := update b.uid t uid } s q := by
  by_cases hts : s = t
  · subst hts
    have hq := hfree rfl
    cases q with
    | unbound => cases hq
    | shut => cases hq
    | closed => exact Bool.noConfusion (hopen.symm.trans h.2.1)
    | released => exact Bool.noConfusion (hopen.symm.trans h.2.1)
    | _ => exact h
  · have huid : update b.uid t uid s = b.uid s := update_of_ne hts ..
    cases q with
    | unbound => exact ⟨h.1, h.2.1, huid.trans_le h.2.2⟩
    | shut => exact ⟨h.1, h.2.1, huid.trans_le h.2.2.1, h.2.2.2⟩
    | closed => exact ⟨h.1, h.2.1, huid.trans_le h.2.2.1, h.2.2.2⟩
    | released => exact ⟨h.1, h.2.1, huid.trans_le h.2.2.1, h.2.2.2⟩
    | _ => exact h

theorem Chained.worker_step {q q' : WorkerPhase} {e : Event calls} (h : b.Chained)
    (hsound : b.Sound) (hat : b.worker = some (s, q)) (hc : WorkerCall true self s q b e q' b') :
    Chained { b' with worker := some (s, q') } := by
  have hwk := hsound.worker s q hat
  obtain ⟨hidle, hhandled⟩ := h
  cases hc with
  | @bind _ uid =>
    obtain ⟨hopen, hfree⟩ := hwk
    refine ⟨?_, ?_⟩
    · intro t ht hio
      refine (hidle t ht hio).transfer rfl rfl rfl rfl ?_ id
      intro hclosed
      have hts : t ≠ s := fun hts => Bool.noConfusion ((hts ▸ hopen).symm.trans hclosed)
      exact update_of_ne hts ..
    · intro t q₁ ht
      refine (hhandled t q₁ ht).setUserId uid hopen fun hts => ?_
      by_contra hq
      exact hfree ⟨q₁, hts ▸ ht, Bool.not_eq_false _ ▸ hq⟩
  | _ => exact ⟨hidle, hhandled⟩

/-- A step of the handler of the session `s`. -/
theorem Chained.ioMove {q q' : IoPhase} (h : b.Chained) (hat : b.io = some (s, q))
    (hknown : b'.known = b.known) (hother : ∀ t, t ≠ s → b.Idle t → b'.Idle t)
    (hs : b'.Handled s q') : Chained { b' with io := some (s, q') } := by
  refine ⟨?_, ?_⟩
  · intro t ht hio
    have hts : t ≠ s := by
      rintro rfl
      exact hio q' rfl
    refine hother t hts (h.idle t (hknown ▸ ht) fun q₁ hq₁ => ?_)
    cases hat.symm.trans hq₁
    exact hts rfl
  · rintro _ _ ⟨⟩
    exact hs

theorem Chained.io_step {q q' : IoPhase} {e : Event calls} (h : b.Chained)
    (hat : b.io = some (s, q)) (hx : b.Readable (some (.io e)))
    (hc : IoCall true self s q b e q' b') : Chained { b' with io := some (s, q') } := by
  have hs := h.handled s q hat
  have hsame : ∀ t, t ≠ s → b.Idle t → b.Idle t := fun _ _ h => h
  -- what is updated at `s` is left alone elsewhere
  have hupdate : ∀ {β : Type} (f : SessId → β) (x : β) (t : SessId), t ≠ s → update f s x t = f t :=
    fun f x t ht => update_of_ne ht ..
  cases hc with
  | neutral he =>
    rw [← hat]
    exact h
  | header => exact h.ioMove hat rfl hsame ⟨hs.1, hs.2.1, hx hat⟩
  | reject hrej => exact absurd hrej hs.2.2.1
  | store hacc =>
    refine h.ioMove hat rfl ?_ ⟨hs.1, hs.2.1, update_self ..⟩
    exact fun t ht hi => hi.transfer rfl rfl (hupdate _ _ t ht) rfl (fun _ => rfl) id
  | lost hnone => exact Bool.noConfusion (hnone.symm.trans (hs.2.2 (fun h => nomatch h)))
  | fill =>
    refine h.ioMove hat rfl ?_ ⟨hs.1, hs.2.1, fun _ => update_self ..⟩
    exact fun t ht hi => hi.transfer rfl rfl (hupdate _ _ t ht) rfl (fun _ => rfl) id
  | post _ => exact h.ioMove hat rfl hsame hs
  | @arm _ handler p hp =>
    obtain ⟨hreads, hopen, hbody⟩ := hs
    refine h.ioMove hat rfl ?_ ⟨hopen, p, ?_, fun hne => ?_⟩
    · exact fun t ht hi => hi.transfer rfl rfl rfl (hupdate _ _ t ht) (fun _ => rfl) id
    · show update b.reads s (b.reads s ++ [p]) s = [p]
      rw [update_self, hreads, List.nil_append]
    · rcases hp with hp | hp
      · exact hbody (hp ▸ hne)
      · exact absurd hp hne
  | @armBody _ p =>
    obtain ⟨hreads, hopen, hstored⟩ := hs
    refine h.ioMove hat rfl ?_ ⟨hopen, p, ?_, fun _ => hstored⟩
    · exact fun t ht hi => hi.transfer rfl rfl rfl (hupdate _ _ t ht) (fun _ => rfl) id
    · show update b.reads s (b.reads s ++ [p]) s = [p]
      rw [update_self, hreads, List.nil_append]
  | add =>
    refine h.ioMove hat rfl ?_ hs
    intro t ht hi
    refine hi.transfer rfl rfl rfl rfl (fun _ => rfl) fun hmem => ?_
    exact (List.mem_cons.mp hmem).resolve_left ht
  | seeClosed hclosed => exact Bool.noConfusion (hs.2.1.symm.trans hclosed)
  | beginClose _ => exact h.ioMove hat rfl hsame ⟨hs.1, hs.2.1⟩
  | leave _ => exact h.ioMove hat rfl hsame hs
  | pass hle => exact h.ioMove hat rfl hsame ⟨hs.1, hs.2, hle⟩
  | readCount => exact h.ioMove hat rfl hsame ⟨hs.1, hs.2, hx⟩
  | missCount => exact h.ioMove hat rfl hsame ⟨hs.1, hs.2, hx⟩
  | writeCount _ => exact h.ioMove hat rfl hsame ⟨hs.1, hs.2.1⟩
  | loseCount _ _ => exact h.ioMove hat rfl hsame ⟨hs.1, hs.2.1⟩
  | reread => exact h.ioMove hat rfl hsame hs
  | erase => exact h.ioMove hat rfl hsame hs
  | unbind =>
    refine h.ioMove hat rfl ?_ ⟨hs.1, hs.2, ?_⟩
    · exact fun t ht hi => hi.transfer rfl rfl rfl rfl (fun _ => hupdate _ _ t ht) id
    · exact (update_self ..).le
  | shut =>
    refine h.ioMove hat rfl ?_ ⟨hs.1, hs.2.1, hs.2.2, update_self ..⟩
    exact fun t ht hi => hi.transfer rfl (hupdate _ _ t ht) rfl rfl (fun _ => rfl) id
  | fail => cases hx
  | setClosed =>
    refine h.ioMove hat rfl ?_ ⟨hs.1, update_self .., hs.2.2⟩
    exact fun t ht hi => hi.transfer (hupdate _ _ t ht) rfl rfl rfl (fun _ => rfl) id
  | release =>
    refine h.ioMove hat rfl ?_ ⟨hs.1, hs.2.1, hs.2.2.1, hs.2.2.2, ?_⟩
    · intro t _ hi
      exact hi.transfer rfl rfl rfl rfl (fun _ => rfl) List.mem_of_mem_filter
    · intro hmem
      exact of_decide_eq_true (List.mem_filter.mp hmem).2 rfl

/-- **Chains of reads stay whole** when headers are accepted and `close` meets no exception. -/
theorem Chained.step (h : b.Chained) (hreg : b.Regular) (hsound : b.Sound) (hx : b.Readable l)
    (hs : Step true self b l b') : b'.Chained := by
  have hchained := h
  obtain ⟨hidle, hhandled⟩ := h
  cases hs with
  | worker hat hc => exact hchained.worker_step hsound hat hc
  | io hat hc => exact hchained.io_step hat hx hc
  | @accept s hio hnew =>
    refine ⟨?_, ?_⟩
    · intro t ht hne
      have hts : t ≠ s := by
        rintro rfl
        exact hne _ rfl
      have hmem : t ∈ b.known := (List.mem_cons.mp ht).resolve_left hts
      refine (hidle t hmem fun q hq => nomatch hio.symm.trans hq).transfer ?_ ?_ ?_ ?_ ?_ id
      · exact update_of_ne hts ..
      · exact update_of_ne hts ..
      · exact update_of_ne hts ..
      · exact update_of_ne hts ..
      · exact fun _ => update_of_ne hts ..
    · rintro _ _ ⟨⟩
      exact ⟨update_self .., update_self .., fun hne => absurd rfl hne⟩
  | @readSome s p ec bytes hio hp =>
    have hfree : ∀ t q, b.io ≠ some (t, q) := fun t q hq => nomatch hio.symm.trans hq
    have hknown : s ∈ b.known := hreg.reads s (List.ne_nil_of_mem hp)
    refine ⟨?_, ?_⟩
    · intro t ht hne
      have hts : t ≠ s := by
        rintro rfl
        exact hne _ rfl
      refine (hidle t ht (hfree t)).transfer rfl rfl rfl ?_ (fun _ => rfl) id
      exact update_of_ne hts ..
    · rintro _ _ ⟨⟩
      rcases hidle s hknown (hfree s) with ⟨hopen, p', hp', hbody⟩ | ⟨-, -, -, -, hnil⟩
      · rw [hp', List.mem_singleton] at hp
        subst hp
        refine ⟨?_, hopen, hbody⟩
        show update b.reads s ((b.reads s).erase p) s = []
        rw [update_self, hp', List.erase_cons_head]
      · rw [hnil] at hp
        cases hp
  | @ioDone s q hat hends =>
    refine ⟨?_, fun _ _ h => (nomatch h)⟩
    intro t ht _
    by_cases hts : t = s
    · exact hts ▸ (hhandled s q hat).idle hends
    · refine hidle t ht fun q₁ hq₁ => ?_
      cases hat.symm.trans hq₁
      exact hts rfl
  | take _ _ => exact ⟨hidle, hhandled⟩
  | workerDone _ _ => exact ⟨hidle, hhandled⟩
  | quiet _ => exact hchained
  | others _ => exact ⟨hidle, hhandled⟩

theorem Handled.attended {q : IoPhase} (h : b.Handled s q) (hq : b.io = some (s, q)) :
    b.Attended s := by
  cases q with
  | armed =>
    obtain ⟨-, p, hp, -⟩ := h
    exact Or.inl ⟨p, hp⟩
  | lost => exact h.elim
  | rejected => exact h.elim
  | failed => exact h.elim
  | _ => exact Or.inr ⟨h.1, _, hq⟩

/-- A known session is attended or released. -/
theorem Chained.attended_or_released (h : b.Chained) (hsound : b.Sound) (hs : s ∈ b.known) :
    b.Attended s ∨ b.Released s := by
  by_cases hio : ∃ q, b.io = some (s, q)
  · obtain ⟨q, hq⟩ := hio
    exact Or.inl ((h.handled s q hq).attended hq)
  · rcases h.idle s hs (fun q hq => hio ⟨q, hq⟩) with ⟨-, p, hp, -⟩ | ⟨hcl, hsock, huid, hlive, hreads⟩
    · exact Or.inl (Or.inl ⟨p, hp⟩)
    · exact Or.inr ⟨hcl, hsock, huid, hsound.closed s hcl, hlive, hreads⟩

end Ledger

/-! ## Counting out -/

namespace Ledger

variable {self : ServerName} {b b' : Ledger} {l : Option Label}

/-- `close` reads the stored login count, which is positive, Redis carries out its write, and no login
writes the count between the two. -/
def countsOut (b : Ledger) : Option Label → Bool
  | some (.io ⟨.hGet _ _, r⟩) => r == b.count && !needsFloor r
  | some (.io ⟨.hSet _ _ _, ok⟩) => ok
  | some (.worker ⟨.hSet _ _ _, _⟩) => !b.io.any fun x => x.2.isRead
  | _ => true

/-- In the step `close` writes the login count, and the stored count is one less after it. -/
def countsDown (b : Ledger) (l : Option Label) (b' : Ledger) : Bool :=
  match l with
  | some (.io ⟨.hSet _ _ _, _⟩) =>
    match readCount b.count, readCount b'.count with
    | .ok n, .ok m => decide (m = n - 1)
    | _, _ => false
  | _ => false

/-- The count that `close` has read is the stored one, and it is positive. -/
def HasRead (b : Ledger) : Prop :=
  ∀ s r, b.io = some (s, .read r) → r = b.count ∧ needsFloor r = false

theorem HasRead.step (h : b.HasRead) (hx : b.countsOut l = true) (hs : Step true self b l b') :
    b'.HasRead := by
  cases hs with
  | worker hat hc =>
    cases hc with
    | writeCount => exact fun t r ht => absurd ht (ne_of_not_any hx rfl t)
    | _ => exact h
  | @io _ s q q' e hat hc =>
    cases hc with
    | neutral he =>
      rintro t r ⟨⟩
      exact h _ _ hat
    | readCount =>
      rintro t r ⟨⟩
      exact ⟨rfl, by simpa [countsOut] using hx⟩
    | missCount =>
      rintro t r ⟨⟩
      have hempty : [] = b.count ∧ needsFloor [] = false := by simpa [countsOut] using hx
      exact hempty
    | _ => rintro t r ⟨⟩
  | quiet _ => exact h
  | take _ _ => exact h
  | workerDone _ _ => exact h
  | others _ => exact h
  | _ => rintro t r ⟨⟩

/-- The write of `close` takes one off the stored count. -/
theorem countsDown_of_write {s : SessId} {rd_res key hkey value : Bytes} {ok : Bool} (h : b.HasRead)
    (hat : b.io = some (s, .read rd_res)) (hdrop : drop rd_res = some value)
    (hcount : b'.count = value) : b.countsDown (some (.io ⟨.hSet key hkey value, ok⟩)) b' = true := by
  obtain ⟨rfl, hfloor⟩ := h s rd_res hat
  rcases hread : readCount b.count with e | count
  · simp [drop, hread] at hdrop
  · have hpos : 0 < count := by simpa [needsFloor, hread] using hfloor
    simp [countsDown, hread, hcount, readCount_of_drop hread hpos hdrop]

theorem countsDown_of_neutral (b b' : Ledger) {e : Event calls} (he : e.1.neutral = true) :
    b.countsDown (some (.io e)) b' = false ∧ Label.removes (some (.io e)) = false := by
  rcases e with ⟨c, r⟩
  cases c with
  | hSet => exact Bool.noConfusion he
  | removeUserSession => exact Bool.noConfusion he
  | _ => exact ⟨rfl, rfl⟩

/-- The steps in which the count drops and those in which an entry is removed alternate. -/
theorem Step.countsDown (h : b.HasRead) (hx : b.countsOut l = true) (hs : Step true self b l b') :
    ((b.countsDown l b').toNat : Int) - (Label.removes l).toNat = ioShift b.io - ioShift b'.io := by
  cases hs with
  | io hat hc =>
    rw [hat]
    cases hc with
    | neutral he =>
      obtain ⟨hdown, hrem⟩ := countsDown_of_neutral b { b with io := _ } he
      rw [hdown, hrem]
      simp
    | writeCount hdrop =>
      rw [countsDown_of_write h hat hdrop rfl]
      simp [Label.removes, ioShift]
    | loseCount => cases hx
    | _ => simp [Ledger.countsDown, Label.removes, ioShift]
  | worker hat hc => cases hc <;> simp [Ledger.countsDown, Label.removes]
  | accept hidle _ => simp [Ledger.countsDown, Label.removes, hidle, ioShift]
  | readSome hidle _ => simp [Ledger.countsDown, Label.removes, hidle, ioShift]
  | ioDone hat hends =>
    rw [hat, ioShift_of_ends hends]
    simp [Ledger.countsDown, Label.removes, ioShift]
  | @quiet l hl =>
    cases l with
    | io => exact Bool.noConfusion hl
    | _ => simp [Ledger.countsDown, Label.removes]
  | _ => simp [Ledger.countsDown, Label.removes]

end Ledger

/-- How many times `close` has taken one off the stored login count. -/
def decrements (S : ServerName) (redis : Redis) (tr : List (Cluster.Act × Cluster)) : Nat :=
  countSteps (fun c a c' => (c.ledger S).countsDown (a.own S) (c'.ledger S)) (Cluster.init redis) tr

section Runs

variable {J : JsonCpp} {redis : Redis} {tr : List (Cluster.Act × Cluster)} {c : Cluster}

/-- Between its callbacks, the I/O thread has counted out each session whose entry it has removed. -/
theorem decrements_eq (S : ServerName) (h : Run (Cluster.Step J) (Cluster.init redis) tr c)
    (hx : Each (Cluster.Step J) (Cluster.init redis)
      (fun _ c a => (c.ledger S).countsOut (a.own S) = true) tr) :
    (c.ledger S).HasRead ∧
      (decrements S redis tr : Int) = departures S tr - Ledger.ioShift (c.ledger S).io := by
  refine Run.invariant_of_each (P := fun tr c => (c.ledger S).HasRead ∧
    (decrements S redis tr : Int) = departures S tr - Ledger.ioShift (c.ledger S).io) ?_ ?_ h hx
  · refine ⟨?_, rfl⟩
    rintro s r ⟨⟩
  · rintro tr c a c' hr ⟨hread, hcount⟩ hx hs
    have hledger := ledger_step (Cluster.run_facts hr).1 hs S
    have hstep := hledger.countsDown hread hx
    refine ⟨hread.step hx hledger, ?_⟩
    unfold decrements departures at hcount ⊢
    rw [hr.countSteps_snoc, List.countP_append, List.countP_singleton]
    cases hrem : Label.removes (a.own S) <;>
      simp only [hrem, Bool.toNat_true, Bool.toNat_false] at hstep <;> simp <;> omega

/-- Chains of reads stay whole in an orderly run. -/
theorem chained_of_orderly (S : ServerName) (h : Run (Cluster.Step J) (Cluster.init redis) tr c)
    (hx : Each (Cluster.Step J) (Cluster.init redis)
      (fun _ c a => (c.ledger S).Exclusive (a.own S) ∧ (c.ledger S).Readable (a.own S)) tr) :
    (c.ledger S).Sound ∧ (c.ledger S).Chained := by
  refine Run.invariant_of_each (P := fun _ c => (c.ledger S).Sound ∧ (c.ledger S).Chained) ?_ ?_ h hx
  · refine ⟨?_, fun _ h => (nomatch h), fun _ _ h => (nomatch h)⟩
    exact ⟨fun _ _ h => (nomatch h), fun _ h => (nomatch h), fun _ _ h => (nomatch h),
      fun _ _ h => (nomatch h)⟩
  · intro tr c a c' hr ⟨hsound, hchained⟩ ⟨hexcl, hread⟩ hs
    obtain ⟨hformed, hreg⟩ := Cluster.run_facts hr
    have hstep := ledger_step hformed hs S
    exact ⟨hsound.step (hreg S) hexcl hstep, hchained.step (hreg S) hsound hread hstep⟩

/-- **A chain of reads ends with the session released**, if every header that is looked at is
accepted and has a length that is not negative, no exception is caught inside `close`, logins and
`close` of one session are kept apart, and `close` finds a positive login count that Redis lets it write
before a login writes it: every session is attended or released, those in `_sessions` or in `UserMgr` are
attended, and the stored login count has dropped by one for each session whose entry `close` has
removed. -/
theorem attended_of_orderly (S : ServerName)
    (hx : Each (Cluster.Step J) (Cluster.init redis)
      (fun _ c a => (c.ledger S).Exclusive (a.own S) ∧ (c.ledger S).Readable (a.own S) ∧
        (c.ledger S).countsOut (a.own S) = true) tr) :
    Throughout (Cluster.Step J) (Cluster.init redis)
      (fun tr c =>
        (∀ s ∈ (c.ledger S).known, (c.ledger S).Attended s ∨ (c.ledger S).Released s) ∧
        (∀ s, (s ∈ (c.ledger S).live ∨ ∃ u, (c.ledger S).map u = some s) →
          (c.ledger S).Attended s) ∧
        ((c.ledger S).io = none → decrements S redis tr = departures S tr)) tr := by
  refine Run.throughout_of_each ?_ hx
  intro tr c hr hx
  obtain ⟨hsound, hchained⟩ := chained_of_orderly S hr
    fun pre c a t hr hp => ⟨(hx pre c a t hr hp).1, (hx pre c a t hr hp).2.1⟩
  have hreg := (Cluster.run_facts hr).2 S
  refine ⟨fun s hs => hchained.attended_or_released hsound hs, ?_, ?_⟩
  · intro s hs
    have hknown : s ∈ (c.ledger S).known := by
      rcases hs with hs | ⟨u, hu⟩
      · exact hreg.live s hs
      · exact hreg.map u s hu
    rcases hchained.attended_or_released hsound hknown with hatt | hrel
    · exact hatt
    · rcases hs with hs | ⟨u, hu⟩
      · exact absurd hs hrel.live
      · exact absurd hu (hrel.unregistered u)
  · intro hio
    have hcount := (decrements_eq S hr fun pre c a t hr hp => (hx pre c a t hr hp).2.2).2
    rw [hio] at hcount
    exact Int.ofNat.inj (hcount.trans (Int.sub_zero _))

/-- A header whose message id is above 2048. -/
def oversizedHead : Bytes := [8, 1, 0, 5]

/-- The session 0 is logged in and sends such a header: it is no longer read, and it is still
registered. -/
theorem attended_fails : ¬ ∀ (J : JsonCpp) (redis : Redis) (S : ServerName)
    (tr : List (Cluster.Act × Cluster)) (c : Cluster),
    Run (Cluster.Step J) (Cluster.init redis) tr c →
    ∀ s, (s ∈ (c.ledger S).live ∨ ∃ u, (c.ledger S).map u = some s) → (c.ledger S).Attended s := by
  intro h
  let moves := connects 0 ++ logsIn 0 7 ++ .readSome 0 false oversizedHead :: callback
  have hmap : ((stateAfter moves).ledger s1).map 7 = some 0 := by decide +kernel
  have hstopped : ((stateAfter moves).ledger s1).reads 0 = [] ∧
      ((stateAfter moves).ledger s1).io = none := by decide +kernel
  rcases h loginTexts startRedis s1 _ _ (runOf_run moves) 0 (Or.inr ⟨7, hmap⟩) with ⟨p, hp⟩ | ⟨-, q, hq⟩
  · rw [hstopped.1] at hp
    cases hp
  · rw [hstopped.2] at hq
    cases hq

/-- `Readable`, as a check. -/
def readable (b : Ledger) : Option Label → Bool
  | some (.io ⟨.data s, data⟩) => b.io = some (s, .reading .head) →
    ¬ CSession.Rejected data ∧ 0 ≤ CSession.headMsgLen data
  | some (.io ⟨.hGet _ _, r⟩) => drop r ≠ none
  | some (.io ⟨.socketClose _, r⟩) => r.isOk
  | _ => true

theorem readable_sound {b : Ledger} {l : Option Label} (h : readable b l = true) : b.Readable l := by
  unfold readable at h
  split at h
  · have hhead := of_decide_eq_true h
    exact hhead
  · have hcount := of_decide_eq_true h
    exact hcount
  · exact h
  · rename_i hdata hget hclose
    unfold Ledger.Readable
    split
    · exact absurd rfl (hdata _ _)
    · exact absurd rfl (hget _ _ _)
    · exact absurd rfl (hclose _ _)
    · trivial

/-- A session logs in and its connection breaks: it is released, and the login count drops. -/
theorem attended_logout : ∃ tr c, Run (Cluster.Step loginTexts) (Cluster.init startRedis) tr c ∧
    (c.ledger s1).known = [0] ∧ (c.ledger s1).io = none ∧ departures s1 tr = 1 ∧
    ((c.ledger s1).Attended 0 ∨ (c.ledger s1).Released 0) ∧ decrements s1 startRedis tr = 1 := by
  let moves := connects 0 ++ logsIn 0 7 ++ disconnects 0
  have hrun := runOf_run moves
  have hsep : Each (Cluster.Step loginTexts) (Cluster.init startRedis)
      (fun _ c a => (c.ledger s1).separate (a.own s1) = true) (runOf moves) :=
    hrun.each_iff_along.mpr (by decide +kernel)
  have hread : Each (Cluster.Step loginTexts) (Cluster.init startRedis)
      (fun _ c a => readable (c.ledger s1) (a.own s1) = true) (runOf moves) :=
    hrun.each_iff_along.mpr (by decide +kernel)
  have hout : Each (Cluster.Step loginTexts) (Cluster.init startRedis)
      (fun _ c a => (c.ledger s1).countsOut (a.own s1) = true) (runOf moves) :=
    hrun.each_iff_along.mpr (by decide +kernel)
  have hexcl := exclusive_of_separate s1 hrun hsep
  obtain ⟨hknown, hio, hdep⟩ : ((stateAfter moves).ledger s1).known = [0] ∧
      ((stateAfter moves).ledger s1).io = none ∧ departures s1 (runOf moves) = 1 := by
    decide +kernel
  obtain ⟨hall, -, hcount⟩ := attended_of_orderly s1
    (fun pre c a t hr hp =>
      ⟨hexcl pre c a t hr hp, readable_sound (hread pre c a t hr hp), hout pre c a t hr hp⟩)
    (runOf moves) (stateAfter moves) hrun (List.prefix_refl _)
  refine ⟨runOf moves, stateAfter moves, hrun, hknown, hio, hdep, ?_, (hcount hio).trans hdep⟩
  exact hall 0 (hknown ▸ List.mem_singleton_self 0)

end Runs

end ChatServer
