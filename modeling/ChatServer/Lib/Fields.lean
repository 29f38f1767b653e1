import Mathlib.Data.List.TakeWhile

/-!
# Fields of a line

A list is read field by field: `getline` takes the elements up to a separator, which is dropped. At the end
of the list there is no further field, so an empty field after the last separator is not seen.
-/

namespace Fields

variable {α : Type} [DecidableEq α]

/-- The next field and what is left after its separator, or nothing at the end. -/
def getline (sep : α) (input : List α) : Option (List α × List α) :=
  if input = [] then none
  else some (input.takeWhile (· ≠ sep), (input.dropWhile (· ≠ sep)).tail)

/-- The fields of the rest of the list, when `word` has been read of the next. -/
def fieldsFrom (sep : α) (word : List α) : List α → List (List α)
  | [] => if word = [] then [] else [word]
  | a :: input =>
    if a = sep then word :: fieldsFrom sep [] input else fieldsFrom sep (word ++ [a]) input

/-- All fields. -/
def fields (sep : α) (input : List α) : List (List α) := fieldsFrom sep [] input

variable {sep : α}

@[simp] theorem fields_nil : fields sep ([] : List α) = [] := rfl

theorem fieldsFrom_append {w : List α} (hw : sep ∉ w) (word input : List α) :
    fieldsFrom sep word (w ++ input) = fieldsFrom sep (word ++ w) input := by
  induction w generalizing word with
  | nil => simp
  | cons a w ih =>
    obtain ⟨ha, hw⟩ : a ≠ sep ∧ sep ∉ w := by
      simpa [eq_comm] using hw
    rw [List.cons_append, fieldsFrom, if_neg ha, ih hw]
    simp

/-- A field that ends with a separator. -/
theorem fields_sep {w : List α} (hw : sep ∉ w) (input : List α) :
    fields sep (w ++ sep :: input) = w :: fields sep input := by
  unfold fields
  rw [fieldsFrom_append hw, fieldsFrom, if_pos rfl, List.nil_append]

/-- A field that ends with the list. -/
theorem fields_last {w : List α} (hw : sep ∉ w) (hne : w ≠ []) : fields sep w = [w] := by
  have h := fieldsFrom_append hw [] []
  rw [List.append_nil, List.nil_append] at h
  show fieldsFrom sep [] w = [w]
  rw [h, fieldsFrom, if_neg hne]

/-- **The fields are what `getline` gives**, one after the other until it gives nothing. -/
theorem fields_eq_getline (input : List α) : fields sep input =
    match getline sep input with
    | none => []
    | some (word, rest) => word :: fields sep rest := by
  by_cases hinput : input = []
  · simp [hinput, getline]
  have hword : sep ∉ input.takeWhile (· ≠ sep) := by
    intro hmem
    simpa using List.mem_takeWhile_imp hmem
  have hsplit := List.takeWhile_append_dropWhile (p := (· ≠ sep)) (l := input)
  simp only [getline, if_neg hinput]
  rcases hrest : input.dropWhile (· ≠ sep) with _ | ⟨a, rest⟩
  · rw [hrest, List.append_nil] at hsplit
    rw [hsplit] at hword ⊢
    simp [fields_last hword hinput]
  · -- the first element that is dropped is the separator
    have ha : a = sep := by
      have := List.head?_dropWhile_not (· ≠ sep) input
      rw [hrest] at this
      simpa using this
    rw [hrest, ha] at hsplit
    have hfields := fields_sep hword rest
    rwa [hsplit] at hfields

/-- **Joining and splitting.** -/
theorem fields_intercalate {ws : List (List α)} (h : ∀ w ∈ ws, sep ∉ w ∧ w ≠ []) :
    fields sep ([sep].intercalate ws) = ws := by
  induction ws with
  | nil => rfl
  | cons w ws ih =>
    obtain ⟨hw, hne⟩ := h w List.mem_cons_self
    have htail := ih fun v hv => h v (List.mem_cons_of_mem w hv)
    rcases ws with _ | ⟨v, ws⟩
    · show fields sep (w ++ []) = [w]
      rw [List.append_nil, fields_last hw hne]
    · have hjoin : [sep].intercalate (w :: v :: ws) = w ++ sep :: [sep].intercalate (v :: ws) := by
        simp [List.intercalate]
      rw [hjoin, fields_sep hw, htail]

end Fields
