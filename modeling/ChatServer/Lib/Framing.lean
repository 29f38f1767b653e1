import Mathlib.Data.List.Infix
import Mathlib.Data.List.Basic

/-!
# Length-prefixed frames, read byte by byte

A frame is a head of a fixed length followed by a body whose length the head determines. `Reader` is
the automaton that takes such a stream one symbol at a time. Since a chunk is read by reading its
symbols one after another (`feeds`), how a stream is cut into chunks makes no difference
(`feeds_append`), and the reader gets back the frames that were written (`feeds_encode`).

The lemmas `feeds_head_lt`, `feeds_head_eq`, `feeds_body_lt` and `feeds_body_eq` say what a reader
does with a chunk that does not reach beyond the part it is reading. They are what an
implementation that reads part by part is compared with.
-/

namespace Framing

variable {α : Type}

/-- How frames are laid out: the length of a head and the length of the body that follows it. -/
structure Layout (α : Type) where
  headLen : Nat
  bodyLen : List α → Nat
  headLen_pos : 0 < headLen

/-- A frame: its head and its body. -/
structure Frame (L : Layout α) where
  head : List α
  body : List α
  head_length : head.length = L.headLen
  body_length : body.length = L.bodyLen head

variable {L : Layout α}

/-- A frame as it is written. -/
def Frame.encode (f : Frame L) : List α := f.head ++ f.body

/-- A sequence of frames as it is written. -/
def encode (fs : List (Frame L)) : List α := fs.flatMap Frame.encode

@[simp] theorem encode_nil : encode ([] : List (Frame L)) = [] := rfl

@[simp] theorem encode_cons (f : Frame L) (fs : List (Frame L)) :
    encode (f :: fs) = f.head ++ (f.body ++ encode fs) := by
  simp [encode, Frame.encode]

/-- Which part is being read, and what has been read of it. -/
inductive FramePart (α : Type) where
  | head (got : List α)
  | body (head got : List α)

/-- A reader: the frames read so far, as heads and bodies, and the part in progress. -/
structure Reader (α : Type) where
  out : List (List α × List α)
  part : FramePart α

/-- A reader that has read nothing. -/
def Reader.start : Reader α := { out := [], part := .head [] }

/-- Read one symbol. -/
def feed (L : Layout α) (r : Reader α) (a : α) : Reader α :=
  match r.part with
  | .head got =>
    let got := got ++ [a]
    if got.length < L.headLen then { r with part := .head got }
    else if L.bodyLen got = 0 then { out := r.out ++ [(got, [])], part := .head [] }
    else { r with part := .body got [] }
  | .body head got =>
    let got := got ++ [a]
    if got.length < L.bodyLen head then { r with part := .body head got }
    else { out := r.out ++ [(head, got)], part := .head [] }

/-- Read a chunk. -/
def feeds (L : Layout α) (r : Reader α) (as : List α) : Reader α := as.foldl (feed L) r

@[simp] theorem feeds_nil (r : Reader α) : feeds L r [] = r := rfl

/-- **Where a chunk ends makes no difference.** -/
theorem feeds_append (r : Reader α) (as bs : List α) :
    feeds L r (as ++ bs) = feeds L (feeds L r as) bs := List.foldl_append

theorem feeds_concat (r : Reader α) (as : List α) (a : α) :
    feeds L r (as ++ [a]) = feed L (feeds L r as) a := by
  rw [feeds_append]
  rfl

/-! ## Chunks that stay within a part -/

theorem feeds_head_lt (out : List (List α × List α)) (got : List α) {as : List α}
    (h : got.length + as.length < L.headLen) :
    feeds L ⟨out, .head got⟩ as = ⟨out, .head (got ++ as)⟩ := by
  induction as using List.reverseRecOn with
  | nil => simp
  | append_singleton as a ih =>
    rw [List.length_append, List.length_singleton] at h
    have hlt : ((got ++ as) ++ [a]).length < L.headLen := by
      simp only [List.length_append, List.length_singleton]
      omega
    rw [feeds_concat, ih (by omega), ← List.append_assoc]
    show (if ((got ++ as) ++ [a]).length < L.headLen then _ else _) = _
    rw [if_pos hlt]

/-- The last chunk of a head with a body. -/
theorem feeds_head_eq (out : List (List α × List α)) (got : List α) {as : List α} (hne : as ≠ [])
    (h : got.length + as.length = L.headLen) (hbody : L.bodyLen (got ++ as) ≠ 0) :
    feeds L ⟨out, .head got⟩ as = ⟨out, .body (got ++ as) []⟩ := by
  obtain ⟨as, a, rfl⟩ := (List.eq_nil_or_concat' as).resolve_left hne
  rw [List.length_append, List.length_singleton] at h
  have hlt : ¬ ((got ++ as) ++ [a]).length < L.headLen := by
    simp only [List.length_append, List.length_singleton]
    omega
  rw [← List.append_assoc] at hbody ⊢
  rw [feeds_concat, feeds_head_lt _ _ (by omega)]
  show (if ((got ++ as) ++ [a]).length < L.headLen then _
    else if L.bodyLen ((got ++ as) ++ [a]) = 0 then _ else _) = _
  rw [if_neg hlt, if_neg hbody]

theorem feeds_body_lt (out : List (List α × List α)) {head : List α} (got : List α) {as : List α}
    (h : got.length + as.length < L.bodyLen head) :
    feeds L ⟨out, .body head got⟩ as = ⟨out, .body head (got ++ as)⟩ := by
  induction as using List.reverseRecOn with
  | nil => simp
  | append_singleton as a ih =>
    rw [List.length_append, List.length_singleton] at h
    have hlt : ((got ++ as) ++ [a]).length < L.bodyLen head := by
      simp only [List.length_append, List.length_singleton]
      omega
    rw [feeds_concat, ih (by omega), ← List.append_assoc]
    show (if ((got ++ as) ++ [a]).length < L.bodyLen head then _ else _) = _
    rw [if_pos hlt]

/-- The last chunk of a body. -/
theorem feeds_body_eq (out : List (List α × List α)) {head : List α} (got : List α) {as : List α}
    (hne : as ≠ [])
    (h : got.length + as.length = L.bodyLen head) :
    feeds L ⟨out, .body head got⟩ as = ⟨out ++ [(head, got ++ as)], .head []⟩ := by
  obtain ⟨as, a, rfl⟩ := (List.eq_nil_or_concat' as).resolve_left hne
  rw [List.length_append, List.length_singleton] at h
  have hlt : ¬ ((got ++ as) ++ [a]).length < L.bodyLen head := by
    simp only [List.length_append, List.length_singleton]
    omega
  rw [← List.append_assoc, feeds_concat, feeds_body_lt _ _ (by omega)]
  show (if ((got ++ as) ++ [a]).length < L.bodyLen head then _ else _) = _
  rw [if_neg hlt]

/-! ## Reading what was written -/

/-- A frame without a body is complete with its head. -/
theorem feeds_head_only {out : List (List α × List α)} {head : List α}
    (h : head.length = L.headLen) (hbody : L.bodyLen head = 0) :
    feeds L ⟨out, .head []⟩ head = ⟨out ++ [(head, [])], .head []⟩ := by
  have hpos := L.headLen_pos
  obtain ⟨as, a, rfl⟩ := (List.eq_nil_or_concat' head).resolve_left
    (List.ne_nil_of_length_pos (by omega))
  rw [List.length_append, List.length_singleton] at h
  have hlt : ¬ (as ++ [a]).length < L.headLen := by
    rw [List.length_append, List.length_singleton]
    omega
  rw [feeds_concat, feeds_head_lt _ _ (by rw [List.length_nil]; omega)]
  show (if (as ++ [a]).length < L.headLen then _
    else if L.bodyLen (as ++ [a]) = 0 then _ else _) = _
  rw [if_neg hlt, if_pos hbody]
  rfl

theorem feeds_head {out : List (List α × List α)} {head : List α}
    (h : head.length = L.headLen) (hbody : L.bodyLen head ≠ 0) :
    feeds L ⟨out, .head []⟩ head = ⟨out, .body head []⟩ := by
  have hpos := L.headLen_pos
  have hne : head ≠ [] := List.ne_nil_of_length_pos (by omega)
  exact feeds_head_eq _ [] hne (by rw [List.length_nil]; omega) hbody

theorem feeds_frame (out : List (List α × List α)) (f : Frame L) :
    feeds L ⟨out, .head []⟩ f.encode = ⟨out ++ [(f.head, f.body)], .head []⟩ := by
  have hlen := f.body_length
  unfold Frame.encode
  by_cases hbody : L.bodyLen f.head = 0
  · have hnil : f.body = [] := List.eq_nil_of_length_eq_zero (by omega)
    rw [hnil, List.append_nil, feeds_head_only f.head_length hbody]
  · have hne : f.body ≠ [] := List.ne_nil_of_length_pos (by omega)
    rw [feeds_append, feeds_head f.head_length hbody,
      feeds_body_eq _ [] hne (by rw [List.length_nil]; omega), List.nil_append]

/-- **A reader gets back the frames that were written.** -/
theorem feeds_encode (out : List (List α × List α)) (fs : List (Frame L)) :
    feeds L ⟨out, .head []⟩ (encode fs)
      = ⟨out ++ fs.map fun f => (f.head, f.body), .head []⟩ := by
  induction fs generalizing out with
  | nil => simp
  | cons f fs ih =>
    rw [encode_cons, ← List.append_assoc, feeds_append]
    show feeds L (feeds L ⟨out, .head []⟩ f.encode) (encode fs) = _
    rw [feeds_frame, ih, List.map_cons, List.append_assoc, List.singleton_append]

/-- What a reader holds after a beginning of a frame: some of the head, or the head and some of the
body, or the whole frame. -/
theorem feeds_prefix (out : List (List α × List α)) (f : Frame L) {as : List α}
    (h : as <+: f.encode) :
    (as.length < L.headLen ∧ feeds L ⟨out, .head []⟩ as = ⟨out, .head as⟩) ∨
      (∃ got, feeds L ⟨out, .head []⟩ as = ⟨out, .body f.head got⟩) ∨ as = f.encode := by
  obtain ⟨rest, hrest⟩ := h
  unfold Frame.encode at hrest
  by_cases hlt : as.length < L.headLen
  · exact Or.inl ⟨hlt, feeds_head_lt out [] (by rw [List.length_nil]; omega)⟩
  refine Or.inr ?_
  -- The chunk holds the whole head.
  have hhead : f.head <+: as := by
    refine List.prefix_of_prefix_length_le (List.prefix_append f.head f.body) ⟨rest, hrest⟩ ?_
    rw [f.head_length]
    omega
  obtain ⟨got, rfl⟩ := hhead
  rw [List.append_assoc, List.append_cancel_left_eq] at hrest
  have hlen := f.body_length
  rw [← hrest, List.length_append] at hlen
  by_cases hfull : rest = []
  · rw [hfull, List.append_nil] at hrest
    exact Or.inr (by rw [hrest, Frame.encode])
  · have hpos := List.length_pos_of_ne_nil hfull
    refine Or.inl ⟨[] ++ got, ?_⟩
    rw [feeds_append, feeds_head f.head_length (by omega),
      feeds_body_lt _ _ (by rw [List.length_nil]; omega)]

/-- An incomplete frame adds nothing. -/
theorem feeds_incomplete (out : List (List α × List α)) (f : Frame L) {as : List α}
    (h : as <+: f.encode) (hne : as ≠ f.encode) :
    (feeds L ⟨out, .head []⟩ as).out = out := by
  rcases feeds_prefix out f h with ⟨-, hg⟩ | ⟨got, hg⟩ | hg
  · rw [hg]
  · rw [hg]
  · exact absurd hg hne

/-- **A reader of a beginning of a stream of frames** gets the first of them, and all that the beginning
holds. -/
theorem feeds_of_prefix (out : List (List α × List α)) {fs : List (Frame L)} {as : List α}
    (h : as <+: encode fs) : ∃ n, (feeds L ⟨out, .head []⟩ as).out =
        out ++ (fs.take n).map (fun f => (f.head, f.body)) ∧ n ≤ fs.length ∧
      ∀ k ≤ fs.length, encode (fs.take k) <+: as → k ≤ n := by
  induction fs generalizing out as with
  | nil =>
    rw [encode_nil, List.prefix_nil] at h
    exact ⟨0, by simp [h], by simp, fun k hk _ => hk⟩
  | cons f fs ih =>
    have hcons : ∀ gs : List (Frame L), encode (f :: gs) = f.encode ++ encode gs := fun _ => rfl
    rw [hcons] at h
    by_cases hf : f.encode <+: as
    · obtain ⟨bs, rfl⟩ := hf
      obtain ⟨n, hout, hn, hmax⟩ := ih (out ++ [(f.head, f.body)]) ((List.prefix_append_right_inj _).mp h)
      refine ⟨n + 1, ?_, by simpa using hn, ?_⟩
      · rw [feeds_append, feeds_frame, hout, List.take_succ_cons, List.map_cons, List.append_assoc,
          List.singleton_append]
      · rintro (_ | k) hk hpre
        · omega
        · rw [List.take_succ_cons, hcons, List.prefix_append_right_inj] at hpre
          have := hmax k (by simpa using hk) hpre
          omega
    · -- the first frame is incomplete
      have hpre : as <+: f.encode :=
        (List.prefix_or_prefix_of_prefix h (List.prefix_append _ _)).resolve_right hf
      have hne : as ≠ f.encode := by
        rintro rfl
        exact hf (List.prefix_refl _)
      refine ⟨0, by simp [feeds_incomplete out f hpre hne], Nat.zero_le _, ?_⟩
      rintro (_ | k) hk hk'
      · exact Nat.le_refl 0
      · rw [List.take_succ_cons, hcons] at hk'
        exact absurd ((List.prefix_append _ _).trans hk') hf

/-- A head that is completed while a stream of frames is read is the head of one of them. -/
theorem head_mem_of_prefix (out : List (List α × List α)) {fs : List (Frame L)} {as bs : List α}
    (h : as ++ bs <+: encode fs) {got : List α}
    (hpart : (feeds L ⟨out, .head []⟩ as).part = .head got) (hne : bs ≠ [])
    (hlen : got.length + bs.length = L.headLen) : ∃ f ∈ fs, f.head = got ++ bs := by
  induction fs generalizing out as got with
  | nil =>
    rw [encode_nil, List.prefix_nil, List.append_eq_nil_iff] at h
    exact absurd h.2 hne
  | cons f fs ih =>
    have hcons : encode (f :: fs) = f.encode ++ encode fs := rfl
    rw [hcons] at h
    have has : as <+: f.encode ++ encode fs := (List.prefix_append as bs).trans h
    rcases List.prefix_or_prefix_of_prefix has (List.prefix_append f.encode (encode fs)) with hf | hf
    · rcases feeds_prefix out f hf with ⟨-, hg⟩ | ⟨got', hg⟩ | hg
      · -- The head in progress is that of `f`.
        rw [hg] at hpart
        obtain rfl : as = got := by
          cases hpart
          rfl
        refine ⟨f, List.mem_cons_self, ?_⟩
        have hpre : f.head <+: as ++ bs := by
          refine List.prefix_of_prefix_length_le ?_ h ?_
          · rw [Frame.encode, List.append_assoc]
            exact List.prefix_append _ _
          · rw [f.head_length, List.length_append, hlen]
        refine hpre.eq_of_length ?_
        rw [f.head_length, List.length_append, hlen]
      · rw [hg] at hpart
        cases hpart
      · rw [hg, feeds_frame] at hpart
        cases hpart
        rw [hg] at h
        have hrest : [] ++ bs <+: encode fs := (List.prefix_append_right_inj _).mp h
        obtain ⟨f', hf', hhead⟩ := ih [] hrest rfl hlen
        exact ⟨f', List.mem_cons_of_mem _ hf', hhead⟩
    · obtain ⟨cs, rfl⟩ := hf
      rw [feeds_append, feeds_frame] at hpart
      rw [List.append_assoc] at h
      obtain ⟨f', hf', hhead⟩ := ih _ ((List.prefix_append_right_inj _).mp h) hpart hlen
      exact ⟨f', List.mem_cons_of_mem _ hf', hhead⟩

end Framing
