import ChatServer.Ledger

/-!
# What a ledger refers to

Every session that a ledger mentions was accepted: `Regular` is kept by every step.
-/

namespace ChatServer

open Interaction Function

/-! ## Entries of an updated table -/

section Table

variable {α β : Type} [DecidableEq α] {f : α → Option β} {a b : α} {x y : β}

theorem update_some_eq_some :
    update f a (some x) b = some y ↔ (b = a ∧ x = y) ∨ (b ≠ a ∧ f b = some y) := by
  by_cases h : b = a
  · subst h
    simp
  · simp [h]

theorem update_none_eq_some : update f a none b = some y ↔ b ≠ a ∧ f b = some y := by
  by_cases h : b = a
  · subst h
    simp
  · simp [h]

end Table

/-! ## Regular ledgers -/

/-- The sessions that the ledger mentions are known, each once. -/
structure Ledger.Regular (b : Ledger) : Prop where
  nodup : b.known.Nodup
  reads : ∀ s, b.reads s ≠ [] → s ∈ b.known
  queue : ∀ s ∈ b.queue, s ∈ b.known
  worker : ∀ s q, b.worker = some (s, q) → s ∈ b.known
  io : ∀ s q, b.io = some (s, q) → s ∈ b.known
  map : ∀ u s, b.map u = some s → s ∈ b.known
  live : ∀ s ∈ b.live, s ∈ b.known

namespace Ledger

variable {lossy : Bool} {self : ServerName} {s : SessId} {b b' : Ledger} {l : Option Label}

theorem WorkerCall.known_eq {q q' : WorkerPhase} {e : Event calls}
    (hc : WorkerCall lossy self s q b e q' b') : b'.known = b.known := by
  cases hc <;> rfl

theorem IoCall.known_eq {q q' : IoPhase} {e : Event calls}
    (hc : IoCall lossy self s q b e q' b') : b'.known = b.known := by
  cases hc <;> rfl

theorem Regular.withWorker (h : b.Regular) (hs : s ∈ b.known) (q : WorkerPhase) :
    Regular { b with worker := some (s, q) } := by
  refine ⟨h.nodup, h.reads, h.queue, ?_, h.io, h.map, h.live⟩
  rintro _ _ ⟨⟩
  exact hs

theorem Regular.withIo (h : b.Regular) (hs : s ∈ b.known) (q : IoPhase) :
    Regular { b with io := some (s, q) } := by
  refine ⟨h.nodup, h.reads, h.queue, h.worker, ?_, h.map, h.live⟩
  rintro _ _ ⟨⟩
  exact hs

theorem Regular.workerCall {q q' : WorkerPhase} {e : Event calls} (h : b.Regular)
    (hs : s ∈ b.known) (hc : WorkerCall lossy self s q b e q' b') : b'.Regular := by
  have hreg := h
  obtain ⟨hnodup, hreads, hqueue, hworker, hio, hmap, hlive⟩ := h
  cases hc with
  | register =>
    refine ⟨hnodup, hreads, hqueue, hworker, hio, ?_, hlive⟩
    intro u t hut
    rcases update_some_eq_some.mp hut with ⟨-, rfl⟩ | ⟨-, hut⟩
    · exact hs
    · exact hmap u t hut
  | neutral _ => exact hreg
  | _ => exact ⟨hnodup, hreads, hqueue, hworker, hio, hmap, hlive⟩

/-- New reads of a known session. -/
theorem reads_known_update {known : List SessId} {rs : List PendingRead}
    (hreads : ∀ t, b.reads t ≠ [] → t ∈ known) (hs : s ∈ known) (t : SessId)
    (ht : update b.reads s rs t ≠ []) : t ∈ known := by
  by_cases hts : t = s
  · exact hts ▸ hs
  · rw [update_of_ne hts] at ht
    exact hreads t ht

theorem Regular.ioCall {q q' : IoPhase} {e : Event calls} (h : b.Regular)
    (hs : s ∈ b.known) (hc : IoCall lossy self s q b e q' b') : b'.Regular := by
  have hreg := h
  obtain ⟨hnodup, hreads, hqueue, hworker, hio, hmap, hlive⟩ := h
  have hfilter : ∀ t ∈ b.live.filter (· ≠ s), t ∈ b.known := fun t ht =>
    hlive t (List.mem_of_mem_filter ht)
  cases hc with
  | post hmsg =>
    refine ⟨hnodup, hreads, ?_, hworker, hio, hmap, hlive⟩
    intro t ht
    rcases List.mem_append.mp ht with ht | ht
    · exact hqueue t ht
    · rw [List.mem_singleton.mp ht, hmsg]
      exact hs
  | arm _ => exact ⟨hnodup, reads_known_update hreads hs, hqueue, hworker, hio, hmap, hlive⟩
  | armBody => exact ⟨hnodup, reads_known_update hreads hs, hqueue, hworker, hio, hmap, hlive⟩
  | add =>
    refine ⟨hnodup, hreads, hqueue, hworker, hio, hmap, ?_⟩
    intro t ht
    rcases List.mem_cons.mp ht with rfl | ht
    · exact hs
    · exact hlive t ht
  | reject _ => exact ⟨hnodup, hreads, hqueue, hworker, hio, hmap, hfilter⟩
  | release => exact ⟨hnodup, hreads, hqueue, hworker, hio, hmap, hfilter⟩
  | erase =>
    refine ⟨hnodup, hreads, hqueue, hworker, hio, ?_, hlive⟩
    intro u t hut
    exact hmap u t (update_none_eq_some.mp hut).2
  | neutral _ => exact hreg
  | _ => exact ⟨hnodup, hreads, hqueue, hworker, hio, hmap, hlive⟩

/-- **A ledger stays regular.** -/
theorem Regular.step (h : b.Regular) (hs : Step lossy self b l b') : b'.Regular := by
  have hreg := h
  obtain ⟨hnodup, hreads, hqueue, hworker, hio, hmap, hlive⟩ := h
  cases hs with
  | @accept s hidle hnew =>
    refine ⟨List.nodup_cons.mpr ⟨hnew, hnodup⟩, ?_, ?_, ?_, ?_, ?_, ?_⟩
    · exact reads_known_update (fun t ht => List.mem_cons_of_mem _ (hreads t ht)) List.mem_cons_self
    · exact fun t ht => List.mem_cons_of_mem _ (hqueue t ht)
    · exact fun t q ht => List.mem_cons_of_mem _ (hworker t q ht)
    · rintro _ _ ⟨⟩
      exact List.mem_cons_self
    · exact fun u t ht => List.mem_cons_of_mem _ (hmap u t ht)
    · exact fun t ht => List.mem_cons_of_mem _ (hlive t ht)
  | @readSome s p ec bytes hidle hp =>
    have hs : s ∈ b.known := hreads s fun h => by
      rw [h] at hp
      cases hp
    refine ⟨hnodup, reads_known_update hreads hs, hqueue, hworker, ?_, hmap, hlive⟩
    rintro _ _ ⟨⟩
    exact hs
  | io hat hc =>
    have hs := hio _ _ hat
    exact (hreg.ioCall hs hc).withIo (hc.known_eq ▸ hs) _
  | ioDone _ _ => exact ⟨hnodup, hreads, hqueue, hworker, fun _ _ h => (nomatch h), hmap, hlive⟩
  | take hidle hque =>
    exact hreg.withWorker (hqueue _ (hque ▸ List.mem_cons_self)) _
  | worker hat hc =>
    have hs := hworker _ _ hat
    exact (hreg.workerCall hs hc).withWorker (hc.known_eq ▸ hs) _
  | workerDone _ _ =>
    exact ⟨hnodup, hreads, fun t ht => hqueue t (List.mem_of_mem_tail ht), fun _ _ h => (nomatch h),
      hio, hmap, hlive⟩
  | quiet _ => exact hreg
  | others _ => exact ⟨hnodup, hreads, hqueue, hworker, hio, hmap, hlive⟩

end Ledger

end ChatServer
