import Mathlib.Data.List.TakeWhile
import Mathlib.Data.Nat.Digits.Lemmas

/-!
# Decimal text

Byte strings, the decimal text of an integer (`renderInt`) and its inverse in the manner of the C
library (`parseInt`: leading white space, an optional sign, the longest run of digits, anything
after it ignored). `parseInt_renderInt` is the round trip and `renderInt_injective` what follows for
keys built from numbers.
-/

/-- A byte string. -/
abbrev Bytes := List UInt8

namespace Bytes

/-- The bytes of an ASCII literal. -/
def lit (s : String) : Bytes := s.toList.map fun c => UInt8.ofNat c.toNat

/-- What a C function sees of a string: the bytes before the first NUL. -/
def cstr (b : Bytes) : Bytes := b.takeWhile (· ≠ 0)

theorem cstr_prefix (b : Bytes) : cstr b <+: b := List.takeWhile_prefix _

theorem cstr_eq_self {b : Bytes} (h : 0 ∉ b) : cstr b = b := by
  unfold cstr
  rw [List.takeWhile_eq_self_iff]
  intro c hc
  simpa using fun h0 : c = 0 => h (h0 ▸ hc)

theorem zero_notMem_cstr (b : Bytes) : 0 ∉ cstr b := by
  intro h
  simpa using List.mem_takeWhile_imp h

theorem cstr_eq_self_iff {b : Bytes} : cstr b = b ↔ 0 ∉ b := by
  constructor
  · intro h
    rw [← h]
    exact zero_notMem_cstr b
  · exact cstr_eq_self

@[simp] theorem cstr_cstr (b : Bytes) : cstr (cstr b) = cstr b :=
  List.takeWhile_idem

/-- A string that begins without a terminator. -/
theorem cstr_append {a : Bytes} (ha : (0 : UInt8) ∉ a) (b : Bytes) : cstr (a ++ b) = a ++ cstr b := by
  unfold cstr
  refine List.takeWhile_append_of_pos ?_
  intro x hx
  have hne : x ≠ 0 := fun h => ha (h ▸ hx)
  simpa using hne

end Bytes

namespace Decimal

/-- The digit character of `d < 10`. -/
def digitByte (d : Nat) : UInt8 := UInt8.ofNat (48 + d)

def isDigit (c : UInt8) : Bool := 48 ≤ c && c ≤ 57

/-- White space of the C locale: space, and tab to carriage return. -/
def isSpace (c : UInt8) : Bool := c == 32 || (9 ≤ c && c ≤ 13)

/-- The decimal text of a natural number. -/
def renderNat (n : Nat) : Bytes :=
  if n = 0 then [48] else (Nat.digits 10 n).reverse.map digitByte

/-- The decimal text of an integer. -/
def renderInt (i : Int) : Bytes :=
  if i < 0 then 45 :: renderNat i.natAbs else renderNat i.natAbs

/-- The value of a run of digit characters. -/
def digitsValue (ds : Bytes) : Nat := ds.foldl (fun a c => 10 * a + (c.toNat - 48)) 0

/-- Split off an optional sign: whether it is a minus, and the rest. -/
def splitSign : Bytes → Bool × Bytes
  | 45 :: rest => (true, rest)
  | 43 :: rest => (false, rest)
  | s => (false, s)

/-- The integer a text starts with, `none` when there is no digit to read. -/
def parseInt (s : Bytes) : Option Int :=
  let (neg, rest) := splitSign (s.dropWhile isSpace)
  let ds := rest.takeWhile isDigit
  if ds = [] then none
  else some (if neg then -(digitsValue ds : Int) else digitsValue ds)

/-! ## The characters of a rendered number -/

theorem digitByte_toNat {d : Nat} (h : d < 10) : (digitByte d).toNat = 48 + d := by
  unfold digitByte
  rw [UInt8.toNat_ofNat']
  omega

theorem isDigit_digitByte {d : Nat} (h : d < 10) : isDigit (digitByte d) = true := by
  have hd := digitByte_toNat h
  simp only [isDigit, Bool.and_eq_true, decide_eq_true_eq, UInt8.le_iff_toNat_le, hd]
  exact ⟨by simp, by simp; omega⟩

theorem isDigit_of_mem_renderNat {n : Nat} {c : UInt8} (h : c ∈ renderNat n) :
    isDigit c = true := by
  unfold renderNat at h
  split at h
  · rw [List.mem_singleton.mp h]
    decide
  · simp only [List.mem_map, List.mem_reverse] at h
    obtain ⟨d, hd, rfl⟩ := h
    exact isDigit_digitByte (Nat.digits_lt_base (by decide) hd)

theorem renderNat_ne_nil (n : Nat) : renderNat n ≠ [] := by
  unfold renderNat
  split
  · simp
  · rename_i h
    simpa [Nat.digits_ne_nil_iff_ne_zero] using h

theorem isDigit_bounds {c : UInt8} (h : isDigit c = true) : 48 ≤ c.toNat ∧ c.toNat ≤ 57 := by
  simpa [isDigit, UInt8.le_iff_toNat_le] using h

theorem not_isSpace_of_isDigit {c : UInt8} (h : isDigit c = true) : isSpace c = false := by
  have hb := isDigit_bounds h
  have h32 : c ≠ 32 := by
    rintro rfl
    simp at hb
  have h13 : ¬ c ≤ 13 := by
    rw [UInt8.le_iff_toNat_le]
    simp
    omega
  simp [isSpace, h32, h13]

theorem splitSign_of_isDigit {c : UInt8} {rest : Bytes} (h : isDigit c = true) :
    splitSign (c :: rest) = (false, c :: rest) := by
  have hb := isDigit_bounds h
  unfold splitSign
  split
  · rename_i heq
    cases heq
    simp at hb
  · rename_i heq
    cases heq
    simp at hb
  · rfl

/-! ## The round trip -/

theorem digitsValue_renderNat (n : Nat) : digitsValue (renderNat n) = n := by
  unfold digitsValue renderNat
  split
  · rename_i h
    simp [h]
  · rw [List.foldl_map, List.foldl_reverse]
    have key : ∀ L : List Nat, (∀ d ∈ L, d < 10) →
        L.foldr (fun x y => 10 * y + ((digitByte x).toNat - 48)) 0 = Nat.ofDigits 10 L := by
      intro L hL
      induction L with
      | nil => rfl
      | cons d L ih =>
        rw [List.foldr_cons, ih fun e he => hL e (List.mem_cons_of_mem _ he),
          digitByte_toNat (hL d List.mem_cons_self), Nat.ofDigits_cons]
        omega
    rw [key _ fun d hd => Nat.digits_lt_base (by decide) hd, Nat.ofDigits_digits]

theorem takeWhile_renderNat_append (n : Nat) {rest : Bytes} (h : rest.takeWhile isDigit = []) :
    (renderNat n ++ rest).takeWhile isDigit = renderNat n := by
  rw [List.takeWhile_append_of_pos fun _ => isDigit_of_mem_renderNat, h, List.append_nil]

/-- Reading the digits of `n`, with or without a minus in front and whatever follows them. -/
theorem parseInt_digits (neg : Bool) (n : Nat) {rest : Bytes} (h : rest.takeWhile isDigit = []) :
    parseInt (if neg then 45 :: renderNat n ++ rest else renderNat n ++ rest)
      = some (if neg then -(n : Int) else n) := by
  obtain ⟨c, tl, hcons⟩ := List.exists_cons_of_ne_nil (renderNat_ne_nil n)
  have hc : isDigit c = true := isDigit_of_mem_renderNat (n := n) (by simp [hcons])
  have hspace := not_isSpace_of_isDigit hc
  have hne := renderNat_ne_nil n
  cases neg with
  | true =>
    have hdrop : (45 :: renderNat n ++ rest).dropWhile isSpace = 45 :: (renderNat n ++ rest) := by
      rw [List.cons_append, List.dropWhile_cons_of_neg (by decide)]
    simp only [parseInt, ↓reduceIte, hdrop, splitSign, takeWhile_renderNat_append n h, hne,
      digitsValue_renderNat]
  | false =>
    have hdrop : (renderNat n ++ rest).dropWhile isSpace = renderNat n ++ rest := by
      rw [hcons, List.cons_append, List.dropWhile_cons_of_neg (by simp [hspace])]
    have hsign : splitSign (renderNat n ++ rest) = (false, renderNat n ++ rest) := by
      rw [hcons, List.cons_append, splitSign_of_isDigit hc]
    simp only [parseInt, Bool.false_eq_true, ↓reduceIte, hdrop, hsign,
      takeWhile_renderNat_append n h, hne, digitsValue_renderNat]

/-- A rendered integer is read back from the front of any text that does not go on with a digit. -/
theorem parseInt_renderInt_append (i : Int) {rest : Bytes} (h : rest.takeWhile isDigit = []) :
    parseInt (renderInt i ++ rest) = some i := by
  unfold renderInt
  by_cases hi : i < 0
  · have hp := parseInt_digits true i.natAbs h
    simp only [↓reduceIte] at hp
    rw [if_pos hi, hp]
    congr 1
    omega
  · have hp := parseInt_digits false i.natAbs h
    simp only [Bool.false_eq_true, ↓reduceIte] at hp
    rw [if_neg hi, hp]
    congr 1
    omega

/-- **Reading a rendered integer gives it back.** -/
@[simp] theorem parseInt_renderInt (i : Int) : parseInt (renderInt i) = some i := by
  have := @parseInt_renderInt_append i [] rfl
  rwa [List.append_nil] at this

theorem renderInt_injective : Function.Injective renderInt := by
  intro i j h
  have := congrArg parseInt h
  simpa using this

@[simp] theorem renderInt_inj {i j : Int} : renderInt i = renderInt j ↔ i = j :=
  renderInt_injective.eq_iff

theorem renderInt_ne_nil (i : Int) : renderInt i ≠ [] := by
  unfold renderInt
  split
  · simp
  · exact renderNat_ne_nil _

/-- A rendered integer holds no NUL byte. -/
theorem zero_notMem_renderInt (i : Int) : (0 : UInt8) ∉ renderInt i := by
  have hnat : (0 : UInt8) ∉ renderNat i.natAbs := by
    intro h
    have := isDigit_of_mem_renderNat h
    simp [isDigit] at this
  unfold renderInt
  split
  · simpa using hnat
  · exact hnat

example : renderInt (-1205) = Bytes.lit "-1205" := by decide
example : parseInt (Bytes.lit " +42abc") = some 42 := by decide

end Decimal
