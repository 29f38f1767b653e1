import ChatServer.Domain
import Mathlib.Data.Rat.Floor

/-!
# The JSON library

The part of jsoncpp's `Json::Value` that the server uses: values, member access, the throwing
conversions `asInt` and `asString`, and member assignment. The reader and the writers are external
code and enter as a `JsonCpp` record.
-/

namespace ChatServer

open Bytes Decimal Word

/-- `Json::Value`. An object lists its members in the order of their names, each once. -/
inductive Json where
  | null
  | bool (b : Bool)
  | int (n : Int)
  | real (q : ℚ)
  | str (s : Bytes)
  | arr (elems : List Json)
  | obj (members : List (Bytes × Json))
  deriving Inhabited

/-- The reader and the writers of jsoncpp. `parse` is `Json::Reader::parse`: whether the text was
well formed, and the value left in `root`, which for a malformed text may be null or partial.
`realText` is how a floating-point number that is no `int` is written. -/
structure JsonCpp where
  parse : Bytes → Bool × Json
  toStyledString : Json → Bytes
  fastWrite : Json → Bytes
  realText : ℚ → Bytes

namespace Json

/-! ## Reading -/

/-- Truncation of a floating-point number towards zero. -/
def truncate (q : ℚ) : Int := if q < 0 then ⌈q⌉ else ⌊q⌋

/-- `Value::isInt`: an integral number in the range of `int`. -/
def isInt : Json → Bool
  | .int n => decide (IsInt n)
  | .real q => decide (q.den = 1 ∧ IsInt q.num)
  | _ => false

/-- `Value::asInt`. -/
def asInt : Json → Except Exn Int
  | .null => .ok 0
  | .bool b => .ok (if b then 1 else 0)
  | .int n => if IsInt n then .ok n else .error .logicError
  | .real q => if -2147483648 ≤ q ∧ q ≤ 2147483647 then .ok (truncate q) else .error .logicError
  | .str _ => .error .logicError
  | .arr _ => .error .logicError
  | .obj _ => .error .logicError

/-- `Value::asString`. -/
def asString (J : JsonCpp) : Json → Except Exn Bytes
  | .null => .ok []
  | .bool b => .ok (if b then lit "true" else lit "false")
  | .int n => .ok (renderInt n)
  | .real q =>
    .ok (if q.den = 1 ∧ IsInt q.num then renderInt q.num ++ lit ".0" else J.realText q)
  | .str s => .ok s
  | .arr _ => .error .logicError
  | .obj _ => .error .logicError

/-- `Value::isNull`. -/
def isNull : Json → Bool
  | .null => true
  | _ => false

/-- `Value::isObject`. -/
def isObject : Json → Bool
  | .obj _ => true
  | _ => false

/-- `Value::empty`. -/
def empty : Json → Bool
  | .null => true
  | .arr elems => elems.isEmpty
  | .obj members => members.isEmpty
  | _ => false

/-- Values on which access by name does not throw: null and objects. -/
def hasMembers : Json → Bool
  | .null => true
  | .obj _ => true
  | _ => false

/-- The value of a member, null when it is missing. -/
def lookup (key : Bytes) : Json → Json
  | .obj members => (members.lookup key).getD .null
  | _ => .null

/-- `Value::operator[](name)` as it is used for reading. -/
def member (v : Json) (key : String) : Except Exn Json :=
  if v.hasMembers then .ok (v.lookup (lit key)) else .error .logicError

/-- `Value::isMember`. -/
def isMember (v : Json) (key : String) : Except Exn Bool :=
  match v with
  | .null => .ok false
  | .obj members => .ok (members.lookup (lit key)).isSome
  | _ => .error .logicError

/-- The values a range-based `for` over a `Value` goes through. -/
def children : Json → List Json
  | .arr elems => elems
  | .obj members => members.map Prod.snd
  | _ => []

/-! ## Writing -/

/-- Insert or replace a member, keeping the members in the order of their names. -/
def insert (key : Bytes) (v : Json) : List (Bytes × Json) → List (Bytes × Json)
  | [] => [(key, v)]
  | (k, w) :: rest =>
    if key = k then (key, v) :: rest
    else if key < k then (key, v) :: (k, w) :: rest
    else (k, w) :: insert key v rest

/-- `root[key] = v` on a value that is null or an object. -/
def set (root : Json) (key : String) (v : Json) : Json :=
  match root with
  | .obj members => .obj (insert (lit key) v members)
  | _ => .obj (insert (lit key) v [])

/-- `root[key].append(v)` on a value that is null or an object. -/
def appendTo (root : Json) (key : String) (v : Json) : Json :=
  match root.lookup (lit key) with
  | .arr elems => root.set key (.arr (elems ++ [v]))
  | _ => root.set key (.arr [v])

/-- `arr.append(v)` on a value that is null or an array. -/
def append (arr : Json) (v : Json) : Json :=
  match arr with
  | .arr elems => .arr (elems ++ [v])
  | _ => .arr [v]

/-! ## Appending -/

/-- Appending values one after another. -/
theorem foldl_append {α : Type} (f : α → Json) (elems : List Json) (xs : List α) :
    xs.foldl (fun (v : Json) x => v.append (f x)) (.arr elems) = .arr (elems ++ xs.map f) := by
  induction xs generalizing elems with
  | nil => simp
  | cons x xs ih =>
    rw [List.foldl_cons]
    show xs.foldl (fun (v : Json) x => v.append (f x)) (.arr (elems ++ [f x])) = _
    rw [ih, List.map_cons, List.append_assoc, List.singleton_append]

/-! ## Members that were written -/

/-- A list of members whose first one is given. -/
theorem lookup_cons (key k : Bytes) (v : Json) (members : List (Bytes × Json)) :
    List.lookup k ((key, v) :: members) = if k = key then some v else members.lookup k := by
  rw [List.lookup_cons]
  by_cases hk : k = key
  · simp [hk]
  · simp [hk, beq_eq_false_iff_ne.mpr hk]

theorem lookup_insert (key k : Bytes) (v : Json) (members : List (Bytes × Json)) :
    (insert key v members).lookup k = if k = key then some v else members.lookup k := by
  induction members with
  | nil => exact lookup_cons key k v []
  | cons m rest ih =>
    obtain ⟨k₀, w⟩ := m
    unfold insert
    split
    · rename_i heq
      subst heq
      rw [lookup_cons, lookup_cons]
      split <;> rfl
    · rename_i hne
      split
      · rw [lookup_cons]
      · rw [lookup_cons, lookup_cons, ih]
        by_cases hk : k = k₀
        · subst hk
          rw [if_pos rfl, if_pos rfl, if_neg fun h => hne h.symm]
        · rw [if_neg hk, if_neg hk]

/-- Reading a member after one was assigned. -/
theorem lookup_set (root v : Json) (key : String) (k : Bytes) :
    (root.set key v).lookup k = if k = lit key then v else root.lookup k := by
  unfold set lookup
  rcases root with _ | _ | _ | _ | _ | _ | members
  on_goal 7 =>
    show ((insert (lit key) v members).lookup k).getD .null = _
    rw [lookup_insert]
    split <;> rfl
  all_goals
    show ((insert (lit key) v []).lookup k).getD .null = _
    rw [lookup_insert]
    split <;> rfl

theorem lookup_appendTo_of_ne (root v : Json) {key : String} {k : Bytes} (hk : k ≠ lit key) :
    (root.appendTo key v).lookup k = root.lookup k := by
  unfold appendTo
  split <;> rw [lookup_set, if_neg hk]

theorem lookup_foldl_appendTo_of_ne {α : Type} (f : α → Json) (xs : List α) (root : Json)
    {key : String} {k : Bytes} (hk : k ≠ lit key) :
    (xs.foldl (fun (v : Json) x => v.appendTo key (f x)) root).lookup k = root.lookup k := by
  induction xs generalizing root with
  | nil => rfl
  | cons x xs ih => rw [List.foldl_cons, ih, lookup_appendTo_of_ne _ _ hk]

/-- Appending to a member that is an array. -/
theorem lookup_foldl_appendTo_arr {α : Type} (f : α → Json) (xs : List α) (root : Json)
    {key : String} {elems : List Json} (h : root.lookup (lit key) = .arr elems) :
    (xs.foldl (fun (v : Json) x => v.appendTo key (f x)) root).lookup (lit key) =
      .arr (elems ++ xs.map f) := by
  induction xs generalizing root elems with
  | nil => simpa using h
  | cons x xs ih =>
    have hx : (root.appendTo key (f x)).lookup (lit key) = .arr (elems ++ [f x]) := by
      unfold appendTo
      simp only [h, lookup_set, if_true]
    rw [List.foldl_cons, ih _ hx, List.map_cons, List.append_assoc, List.singleton_append]

/-- Appending to a member that was not there. -/
theorem lookup_foldl_appendTo {α : Type} (f : α → Json) {xs : List α} (hxs : xs ≠ []) {root : Json}
    {key : String} (h : root.lookup (lit key) = .null) :
    (xs.foldl (fun (v : Json) x => v.appendTo key (f x)) root).lookup (lit key) =
      .arr (xs.map f) := by
  rcases xs with _ | ⟨x, xs⟩
  · exact absurd rfl hxs
  · have hx : (root.appendTo key (f x)).lookup (lit key) = .arr [f x] := by
      unfold appendTo
      simp only [h, lookup_set, if_true]
    rw [List.foldl_cons, lookup_foldl_appendTo_arr f xs _ hx, List.map_cons, List.singleton_append]

/-! ## When the accessors throw -/

@[simp] theorem member_of_hasMembers {v : Json} {key : String} (h : v.hasMembers = true) :
    v.member key = .ok (v.lookup (lit key)) := by
  simp [member, h]

@[simp] theorem member_of_not_hasMembers {v : Json} {key : String} (h : v.hasMembers = false) :
    v.member key = .error .logicError := by
  simp [member, h]

/-- The values `asInt` converts: null, booleans, and numbers in the range of `int`. -/
def IntLike : Json → Prop
  | .null => True
  | .bool _ => True
  | .int n => IsInt n
  | .real q => -2147483648 ≤ q ∧ q ≤ 2147483647
  | _ => False

theorem intLike_iff (v : Json) : v.IntLike ↔ ∃ i, v.asInt = .ok i := by
  cases v with
  | int n =>
    by_cases h : IsInt n <;> simp [IntLike, asInt, h]
  | real q =>
    by_cases h : -2147483648 ≤ q ∧ q ≤ 2147483647
    · simp [IntLike, asInt, h]
    · simp only [IntLike, asInt, h, if_false]
      exact ⟨False.elim, fun ⟨_, h⟩ => nomatch h⟩
  | null | bool | str | arr | obj => simp [IntLike, asInt]

/-- The values `asString` converts: all but arrays and objects. -/
def StringLike : Json → Prop
  | .arr _ => False
  | .obj _ => False
  | _ => True

theorem stringLike_iff (J : JsonCpp) (v : Json) : v.StringLike ↔ ∃ s, v.asString J = .ok s := by
  cases v <;> simp [StringLike, asString]

/-- An integral number is written with its digits first, so `std::stoi` reads it back. -/
theorem stoi_asString_of_isInt (J : JsonCpp) {v : Json} {s : Bytes} (h : v.isInt = true)
    (hs : v.asString J = .ok s) : ∃ i, stoi s = .ok i := by
  cases v with
  | int n =>
    have hn : IsInt n := by simpa [isInt] using h
    cases hs
    exact ⟨n, stoi_renderInt hn⟩
  | real q =>
    have hq : q.den = 1 ∧ IsInt q.num := by simpa [isInt] using h
    simp only [asString, hq, and_self, if_true] at hs
    cases hs
    have hp := parseInt_renderInt_append q.num (show (lit ".0").takeWhile isDigit = [] by decide)
    exact ⟨q.num, by simp [stoi, hp, hq.2]⟩
  | null | bool | str | arr | obj => simp [isInt] at h

end Json

/-! ## A concrete library -/

namespace JsonCpp

/-- A string without characters that have to be escaped. -/
def quote (text : Bytes) : Bytes := lit "\"" ++ text ++ lit "\""

/-- A value that is no array or object. -/
def scalarText : Json → Bytes
  | .bool b => if b then lit "true" else lit "false"
  | .int n => renderInt n
  | .str text => quote text
  | _ => lit "null"

/-- The writers on flat objects: the members in their order, between `start` and `stop`. -/
def objectText (start colon comma stop : Bytes) : Json → Bytes
  | .obj members =>
    let texts := members.map fun m => quote m.1 ++ colon ++ scalarText m.2
    start ++ (texts.intersperse comma).flatten ++ stop
  | v => scalarText v ++ lit "\n"

/-- A library that knows the texts of a table and writes flat objects, in the formats of
`toStyledString` and `FastWriter`. A text it does not know is malformed. -/
def ofTable (texts : List (Bytes × Json)) : JsonCpp where
  parse text :=
    match texts.lookup text with
    | some v => (true, v)
    | none => (false, .null)
  toStyledString := objectText (lit "\x7b\n\t") (lit " : ") (lit ",\n\t") (lit "\n\x7d\n")
  fastWrite := objectText (lit "\x7b") (lit ":") (lit ",") (lit "\x7d\n")
  realText _ := []

/-! ### Nested values -/

def newline (indent : Nat) : Bytes := lit "\n" ++ List.replicate indent 9

/-- The texts of elements or members, each on a line of its own. -/
def listText (start stop : Bytes) (indent : Nat) (texts : List Bytes) : Bytes :=
  start ++ newline (indent + 1) ++ (texts.intersperse (lit "," ++ newline (indent + 1))).flatten ++
    newline indent ++ stop

/-- Values that begin on a line of their own. -/
def isBlock : Json → Bool
  | .arr elems => !elems.isEmpty
  | .obj members => !members.isEmpty
  | _ => false

mutual

def styledText (indent : Nat) : Json → Bytes
  | .arr elems => listText (lit "[") (lit "]") indent (elemTexts (indent + 1) elems)
  | .obj members => listText (lit "\x7b") (lit "\x7d") indent (memberTexts (indent + 1) members)
  | v => scalarText v

def elemTexts (indent : Nat) : List Json → List Bytes
  | [] => []
  | v :: elems => styledText indent v :: elemTexts indent elems

def memberTexts (indent : Nat) : List (Bytes × Json) → List Bytes
  | [] => []
  | (key, v) :: members =>
    (quote key ++ lit " : " ++ (if isBlock v then newline indent else []) ++ styledText indent v) ::
      memberTexts indent members

end

theorem mem_memberTexts {key : Bytes} {v : Json} {members : List (Bytes × Json)} (indent : Nat)
    (h : members.lookup key = some v) : ∃ text ∈ memberTexts indent members, quote key <+: text := by
  induction members with
  | nil => cases h
  | cons m members ih =>
    obtain ⟨k, w⟩ := m
    unfold memberTexts
    rw [Json.lookup_cons] at h
    split at h
    · rename_i hkey
      subst hkey
      refine ⟨_, List.mem_cons_self, ?_⟩
      rw [List.append_assoc, List.append_assoc]
      exact List.prefix_append _ _
    · obtain ⟨text, htext, hquote⟩ := ih h
      exact ⟨text, List.mem_cons_of_mem _ htext, hquote⟩

/-- The name of each member is in the text of an object. -/
theorem quote_infix_styledText {key : Bytes} {root : Json} (indent : Nat)
    (h : root.lookup key ≠ .null) : quote key <:+: styledText indent root := by
  unfold Json.lookup at h
  rcases root with _ | _ | _ | _ | _ | _ | members
  on_goal 7 =>
    rcases hmember : members.lookup key with _ | v
    · simp [hmember] at h
    · obtain ⟨text, htext, hquote⟩ := mem_memberTexts (indent + 1) hmember
      have hmem : text ∈ (memberTexts (indent + 1) members).intersperse
          (lit "," ++ newline (indent + 1)) := by
        obtain ⟨i, hi⟩ := List.mem_iff_getElem?.mp htext
        exact List.mem_iff_getElem?.mpr ⟨2 * i, by rw [List.getElem?_intersperse_two_mul, hi]⟩
      have hinner := hquote.isInfix.trans (List.infix_of_mem_flatten hmem)
      unfold styledText listText
      refine hinner.trans ?_
      rw [List.append_assoc, List.append_assoc]
      exact List.infix_append' _ _ _
  all_goals exact absurd rfl h

/-- A library that knows the texts of a table and writes values of any depth as `toStyledString`
does. -/
def nested (texts : List (Bytes × Json)) : JsonCpp :=
  { ofTable texts with toStyledString := fun v => styledText 0 v ++ lit "\n" }

end JsonCpp

end ChatServer
