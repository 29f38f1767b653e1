import ChatServer.Lib.Decimal

/-!
# URL encoding

`toHex`, `fromHex`, `urlEncode` and `urlDecode` of `common/utils.cpp`. The decoder runs over an
index that a `%` moves by three; `decode` is the same reading of a list from its front, and
`urlDecodeFrom_eq` says so. Over it the round trip is an induction on the string that was encoded.
-/

namespace ChatServer.Utils

open Bytes Decimal

/-! ## The functions of the source -/

/-- `std::isalnum` in the C locale. -/
def isAlnum (c : UInt8) : Bool :=
  isDigit c || (65 ≤ c && c ≤ 90) || (97 ≤ c && c ≤ 122)

def toHex (x : UInt8) : UInt8 := if x > 9 then x + 55 else x + 48

/-- Every letter counts on from ten, also those after `F`; any other character is zero. -/
def fromHex (x : UInt8) : UInt8 :=
  if 65 ≤ x ∧ x ≤ 90 then x - 65 + 10
  else if 97 ≤ x ∧ x ≤ 122 then x - 97 + 10
  else if 48 ≤ x ∧ x ≤ 57 then x - 48
  else 0

/-- The characters that `urlEncode` keeps: letters, digits, `-`, `_`, `.` and `~`. -/
def isUnreserved (c : UInt8) : Bool :=
  isAlnum c || c == 45 || c == 95 || c == 46 || c == 126

/-- What one turn of the loop of `urlEncode` appends. -/
def encodeByte (c : UInt8) : Bytes :=
  if isUnreserved c then [c]
  else if c == 32 then lit "%20"
  else [37, toHex (c >>> 4), toHex (c &&& 0x0F)]

def urlEncode (str : Bytes) : Bytes :=
  str.foldl (fun strTemp c => strTemp ++ encodeByte c) []

/-- The loop of `urlDecode`, at index `i` with `strTemp` read so far. -/
def urlDecodeFrom (str : Bytes) (i : Nat) (strTemp : Bytes) : Bytes :=
  if hi : i < str.length then
    if str[i] = 43 then urlDecodeFrom str (i + 1) (strTemp ++ [32])
    else if hp : str[i] = 37 ∧ i + 2 < str.length then
      -- `++i` twice inside the branch and once in the loop's head
      urlDecodeFrom str (i + 3)
        (strTemp ++ [(fromHex str[i + 1] <<< 4) ||| fromHex str[i + 2]])
    else urlDecodeFrom str (i + 1) (strTemp ++ [str[i]])
  else strTemp
termination_by str.length - i

def urlDecode (str : Bytes) : Bytes := urlDecodeFrom str 0 []

/-! ## The decoder from the front of a list -/

/-- What `urlDecode` makes of a string, without its index. A `%` with fewer than two characters
behind it stands for itself. -/
def decode : Bytes → Bytes
  | [] => []
  | c :: h :: l :: rest =>
    if c = 43 then 32 :: decode (h :: l :: rest)
    else if c = 37 then ((fromHex h <<< 4) ||| fromHex l) :: decode rest
    else c :: decode (h :: l :: rest)
  | c :: rest => (if c = 43 then 32 else c) :: decode rest

theorem decode_plus (rest : Bytes) : decode (43 :: rest) = 32 :: decode rest := by
  rcases rest with _ | ⟨h, _ | ⟨l, rest⟩⟩ <;> simp [decode]

theorem decode_percent (h l : UInt8) (rest : Bytes) :
    decode (37 :: h :: l :: rest) = ((fromHex h <<< 4) ||| fromHex l) :: decode rest := by
  simp [decode]

/-- A character that begins no escape: not `%`, or too near the end. -/
theorem decode_keep {c : UInt8} {rest : Bytes} (hc : c ≠ 43)
    (h : ¬ (c = 37 ∧ 1 < rest.length)) : decode (c :: rest) = c :: decode rest := by
  rcases rest with _ | ⟨d, _ | ⟨l, rest⟩⟩
  · simp [decode, hc]
  · simp [decode, hc]
  · have hne : c ≠ 37 := by
      rintro rfl
      exact h ⟨rfl, by simp⟩
    simp [decode, hc, hne]

/-- The loop at index `i` appends what the rest of the string decodes to. -/
theorem urlDecodeFrom_eq (str : Bytes) (i : Nat) (strTemp : Bytes) :
    urlDecodeFrom str i strTemp = strTemp ++ decode (str.drop i) := by
  fun_induction urlDecodeFrom str i strTemp with
  | case1 i strTemp hi hplus ih =>
    rw [ih, List.drop_eq_getElem_cons hi, hplus, decode_plus]
    simp
  | case2 i strTemp hi hplus hp ih =>
    rw [ih, List.drop_eq_getElem_cons hi, hp.1,
      List.drop_eq_getElem_cons (show i + 1 < str.length by omega),
      List.drop_eq_getElem_cons (show i + 1 + 1 < str.length by omega), decode_percent]
    simp
  | case3 i strTemp hi hplus hp ih =>
    have hlen : ¬ (str[i] = 37 ∧ 1 < (str.drop (i + 1)).length) := by
      intro h
      rw [List.length_drop] at h
      exact hp ⟨h.1, by omega⟩
    rw [ih, List.drop_eq_getElem_cons hi, decode_keep hplus hlen]
    simp
  | case4 i strTemp hi =>
    rw [List.drop_eq_nil_of_le (by omega)]
    simp [decode]

theorem urlDecode_eq (str : Bytes) : urlDecode str = decode str := by
  rw [urlDecode, urlDecodeFrom_eq]
  simp

theorem urlEncode_eq (str : Bytes) : urlEncode str = str.flatMap encodeByte := by
  rw [urlEncode, List.flatMap_eq_foldl]

/-! ## Two hexadecimal digits -/

def isUpperHex (c : UInt8) : Bool := isDigit c || (65 ≤ c && c ≤ 70)

theorem fromHex_toHex : ∀ n < 16, fromHex (toHex (UInt8.ofNat n)) = UInt8.ofNat n := by decide

theorem isUpperHex_toHex : ∀ n < 16, isUpperHex (toHex (UInt8.ofNat n)) = true := by decide

/-- The upper half of a byte as a digit value. -/
theorem high_eq (c : UInt8) : c >>> 4 = UInt8.ofNat (c.toNat / 16) := by
  rw [← UInt8.toNat_inj, UInt8.toNat_shiftRight, UInt8.toNat_ofNat']
  have hc := c.toNat_lt
  simp [Nat.shiftRight_eq_div_pow]
  omega

theorem low_eq (c : UInt8) : c &&& 0x0F = UInt8.ofNat (c.toNat % 16) := by
  rw [← UInt8.toNat_inj, UInt8.toNat_and, UInt8.toNat_ofNat']
  have hand : c.toNat &&& 15 = c.toNat % 16 := Nat.and_two_pow_sub_one_eq_mod c.toNat 4
  show c.toNat &&& 15 = _
  rw [hand]
  omega

/-- The two halves put together again. -/
theorem halves (c : UInt8) : (c >>> 4) <<< 4 ||| (c &&& 0x0F) = c := by
  rw [high_eq, low_eq, ← UInt8.toNat_inj, UInt8.toNat_or, UInt8.toNat_shiftLeft]
  have hc := c.toNat_lt
  have hadd := Nat.shiftLeft_add_eq_or_of_lt (show c.toNat % 16 < 2 ^ 4 by omega) (c.toNat / 16)
  have hlow : (UInt8.ofNat (c.toNat % 16)).toNat = c.toNat % 16 := by
    rw [UInt8.toNat_ofNat']
    omega
  have hhigh : (UInt8.ofNat (c.toNat / 16)).toNat <<< 4 % 2 ^ 8 = (c.toNat / 16) <<< 4 := by
    rw [UInt8.toNat_ofNat', Nat.shiftLeft_eq, Nat.shiftLeft_eq]
    omega
  show (UInt8.ofNat (c.toNat / 16)).toNat <<< 4 % 2 ^ 8 ||| _ = _
  rw [hhigh, hlow, ← hadd, Nat.shiftLeft_eq]
  omega

/-- What `urlEncode` writes for a byte, `fromHex` reads. -/
theorem fromHex_digits (c : UInt8) :
    (fromHex (toHex (c >>> 4)) <<< 4) ||| fromHex (toHex (c &&& 0x0F)) = c := by
  have hc := c.toNat_lt
  rw [high_eq, fromHex_toHex _ (by omega), ← high_eq, low_eq, fromHex_toHex _ (by omega), ← low_eq,
    halves]

/-! ## One byte -/

/-- An unreserved character is neither `+` nor `%`. -/
theorem ne_of_isUnreserved {c : UInt8} (h : isUnreserved c = true) : c ≠ 43 ∧ c ≠ 37 := by
  constructor
  · rintro rfl
    exact absurd h (by decide)
  · rintro rfl
    exact absurd h (by decide)

theorem decode_encodeByte (c : UInt8) (rest : Bytes) :
    decode (encodeByte c ++ rest) = c :: decode rest := by
  unfold encodeByte
  split
  · rename_i h
    have hne := ne_of_isUnreserved h
    exact decode_keep hne.1 (fun hp => hne.2 hp.1)
  · split
    · rename_i hsp
      rw [eq_of_beq hsp]
      exact decode_percent 50 48 rest
    · show decode (37 :: toHex (c >>> 4) :: toHex (c &&& 0x0F) :: rest) = _
      rw [decode_percent, fromHex_digits]

theorem decode_flatMap (str rest : Bytes) :
    decode (str.flatMap encodeByte ++ rest) = str ++ decode rest := by
  induction str with
  | nil => rfl
  | cons c str ih => rw [List.flatMap_cons, List.append_assoc, decode_encodeByte, ih, List.cons_append]

/-! ## The form of an encoded string -/

/-- Unreserved characters and groups of `%` with two upper-case hexadecimal digits. -/
inductive Encoded : Bytes → Prop
  | nil : Encoded []
  | unreserved {c : UInt8} {s : Bytes} : isUnreserved c = true → Encoded s → Encoded (c :: s)
  | escape {h l : UInt8} {s : Bytes} : isUpperHex h = true → isUpperHex l = true → Encoded s →
      Encoded (37 :: h :: l :: s)

theorem Encoded.encodeByte {s : Bytes} (c : UInt8) (hs : Encoded s) : Encoded (encodeByte c ++ s) := by
  have hc := c.toNat_lt
  unfold Utils.encodeByte
  split
  · rename_i h
    exact Encoded.unreserved h hs
  · split
    · exact Encoded.escape (h := 50) (l := 48) (by decide) (by decide) hs
    · refine Encoded.escape ?_ ?_ hs
      · rw [high_eq]
        exact isUpperHex_toHex _ (by omega)
      · rw [low_eq]
        exact isUpperHex_toHex _ (by omega)

theorem encoded_urlEncode (str : Bytes) : Encoded (urlEncode str) := by
  rw [urlEncode_eq]
  induction str with
  | nil => exact Encoded.nil
  | cons c str ih =>
    rw [List.flatMap_cons]
    exact ih.encodeByte c

theorem decode_urlEncode (str : Bytes) : urlDecode (urlEncode str) = str := by
  have h := decode_flatMap str []
  rw [urlDecode_eq, urlEncode_eq]
  simpa [decode] using h

/-- Every byte string comes back from its encoding, and the encoding is well formed. -/
theorem urlEncode_round_trip (str : Bytes) :
    urlDecode (urlEncode str) = str ∧ Encoded (urlEncode str) :=
  ⟨decode_urlEncode str, encoded_urlEncode str⟩

end ChatServer.Utils
