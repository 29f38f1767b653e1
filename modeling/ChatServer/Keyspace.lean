import ChatServer.Connections
import ChatServer.World

/-!
# Redis as a map

What a client can expect of `RedisMgr` as a map from strings to strings. `Keyspace.command` is what
Redis does with the commands of `RedisMgr`; keys, fields and values are byte strings there. On the way
to it and back some of them pass through C strings, each function in its own way, and that decides
which laws of a map hold (`redis_map_iff`).

`Redis`, which the rest of the model uses, is the same with strings and hashes kept apart:
`Keyspace.set_redis` and its like say that its operations are what the functions do.
-/

namespace ChatServer

open Interaction Prog Bytes ConnPool

/-! ## What Redis holds -/

/-- The value of a key. -/
inductive RedisValue where
  | string (value : Bytes)
  | hash (fields : Bytes → Option Bytes)

abbrev Keyspace : Type := Bytes → Option RedisValue

namespace Keyspace

/-- The string under a key. -/
def string (s : Keyspace) (key : Bytes) : Option Bytes :=
  match s key with
  | some (.string value) => some value
  | _ => none

/-- The fields of the hash under a key. -/
def field (s : Keyspace) (key : Bytes) : Bytes → Option Bytes :=
  match s key with
  | some (.hash fields) => fields
  | _ => fun _ => none

/-- The error of a command on a value of another type. -/
def wrongType : Reply :=
  .error (lit "WRONGTYPE Operation against a key holding the wrong kind of value")

def get (s : Keyspace) (key : Bytes) : Reply :=
  match s key with
  | none => .nil
  | some (.string value) => .string value
  | some (.hash _) => wrongType

/-- `SET` replaces a value of any type. -/
def set (s : Keyspace) (key value : Bytes) : Keyspace :=
  Function.update s key (some (.string value))

def hGet (s : Keyspace) (key hkey : Bytes) : Reply :=
  match s key with
  | some (.string _) => wrongType
  | _ =>
    match s.field key hkey with
    | none => .nil
    | some value => .string value

/-- `HSET` counts the fields that are new. -/
def hSet (s : Keyspace) (key hkey value : Bytes) : Reply × Keyspace :=
  match s key with
  | some (.string _) => (wrongType, s)
  | _ => (.integer (if (s.field key hkey).isNone then 1 else 0),
      Function.update s key (some (.hash (Function.update (s.field key) hkey (some value)))))

/-- A hash that loses its last field stays here as one without fields, which `RedisMgr` cannot tell from
a missing key. -/
def hDel (s : Keyspace) (key hkey : Bytes) : Reply × Keyspace :=
  match s key with
  | some (.string _) => (wrongType, s)
  | _ =>
    if (s.field key hkey).isNone then (.integer 0, s)
    else (.integer 1,
      Function.update s key (some (.hash (Function.update (s.field key) hkey none))))

/-- What Redis replies to the commands of `RedisMgr`, and what it holds then. -/
def command (s : Keyspace) : List Bytes → Reply × Keyspace
  | [name, key] => if name = lit "GET" then (s.get key, s) else (.error (lit "ERR"), s)
  | [name, key, arg] =>
    if name = lit "SET" then (.status (lit "OK"), s.set key arg)
    else if name = lit "HGET" then (s.hGet key arg, s)
    else if name = lit "HDEL" then s.hDel key arg
    else (.error (lit "ERR"), s)
  | [name, key, hkey, value] =>
    if name = lit "HSET" then s.hSet key hkey value else (.error (lit "ERR"), s)
  | _ => (.error (lit "ERR"), s)

section Commands

variable (s : Keyspace) (key hkey value : Bytes)

@[simp] theorem command_get : s.command [lit "GET", key] = (s.get key, s) := by
  simp [command]

@[simp] theorem command_set :
    s.command [lit "SET", key, value] = (.status (lit "OK"), s.set key value) := by
  simp [command]

@[simp] theorem command_hGet : s.command [lit "HGET", key, hkey] = (s.hGet key hkey, s) := by
  have hname : lit "HGET" ≠ lit "SET" := by decide
  simp [command, hname]

@[simp] theorem command_hSet :
    s.command [lit "HSET", key, hkey, value] = s.hSet key hkey value := by
  simp [command]

end Commands

/-! ## Reading what was written -/

variable {s : Keyspace} {key hkey value : Bytes}

theorem string_set (s : Keyspace) (key value : Bytes) :
    (s.set key value).string = Function.update s.string key (some value) := by
  funext k
  by_cases hk : k = key
  · subst hk
    simp [string, set]
  · simp [string, set, hk]

/-- The hash under the key is gone. -/
theorem field_set (s : Keyspace) (key value : Bytes) :
    (s.set key value).field = Function.update s.field key (fun _ => none) := by
  funext k
  by_cases hk : k = key
  · subst hk
    funext f
    simp [field, set]
  · funext f
    simp [field, set, hk]

/-- Whether a field can be set under a key: it holds no string. -/
def Hashable (s : Keyspace) (key : Bytes) : Prop := s.string key = none

theorem hashable_iff : s.Hashable key ↔ ∀ b, s key ≠ some (.string b) := by
  unfold Hashable string
  split
  · rename_i b hb
    simp [hb]
  · rename_i hne
    simpa using hne

theorem hSet_of_not_hashable (h : ¬ s.Hashable key) (hkey value : Bytes) :
    s.hSet key hkey value = (wrongType, s) := by
  rw [hashable_iff] at h
  push Not at h
  obtain ⟨b, hb⟩ := h
  simp [hSet, hb]

theorem hSet_of_hashable (h : s.Hashable key) (hkey value : Bytes) :
    s.hSet key hkey value = (.integer (if (s.field key hkey).isNone then 1 else 0),
      Function.update s key (some (.hash (Function.update (s.field key) hkey (some value))))) := by
  rw [hashable_iff] at h
  unfold hSet
  split
  · rename_i b hb
    exact absurd hb (h b)
  · rfl

theorem string_hSet (s : Keyspace) (key hkey value : Bytes) :
    (s.hSet key hkey value).2.string = s.string := by
  by_cases hs : s.Hashable key
  · rw [hSet_of_hashable hs]
    funext k
    by_cases hk : k = key
    · subst hk
      rw [show s.string k = none from hs]
      simp [string]
    · simp [string, hk]
  · rw [hSet_of_not_hashable hs]

theorem field_hSet (hs : s.Hashable key) (hkey value k f : Bytes) :
    (s.hSet key hkey value).2.field k f
      = if (k, f) = (key, hkey) then some value else s.field k f := by
  rw [hSet_of_hashable hs]
  by_cases hk : k = key
  · subst hk
    by_cases hf : f = hkey
    · subst hf
      simp [field]
    · simp [field, hf]
  · simp [field, hk]

end Keyspace

/-! ## An operation of `RedisMgr` -/

/-- What a step of a client does to what Redis holds. The pool may have no connection; a command may
have no reply, carried out or not, and Redis may refuse it with an error. -/
def Served : Event (sig Conn fun _ : List Bytes => Option Reply) → Keyspace → Keyspace → Prop
  | ⟨.getConnection, _⟩, s, s' => s' = s
  | ⟨.returnConnection _, _⟩, s, s' => s' = s
  | ⟨.query _ argv, none⟩, s, s' => s' = s ∨ s' = (s.command argv).2
  | ⟨.query _ argv, some reply⟩, s, s' =>
    (reply, s') = s.command argv ∨ ((∃ msg, reply = .error msg) ∧ s' = s)

/-- A pool with a connection, and a Redis that answers. -/
def answered : (o : Op Conn (List Bytes)) → Keyspace →
    Op.Resp (fun _ => Option Reply) o × Keyspace
  | .getConnection, s => (some 0, s)
  | .returnConnection _, s => ((), s)
  | .query _ argv, s => (some (s.command argv).1, (s.command argv).2)

theorem served_answered (o : Op Conn (List Bytes)) (s : Keyspace) :
    Served ⟨o, (answered o s).1⟩ s (answered o s).2 := by
  rcases o with _ | con | ⟨con, argv⟩
  · rfl
  · rfl
  · exact Or.inl rfl

namespace RedisMgr

variable {α : Type}

theorem single_run (fallback : α) (argv : List Bytes) (result : Option Reply → α) (s : Keyspace) :
    (single fallback argv result).run answered s
      = (result (some (s.command argv).1), (s.command argv).2) := rfl

/-- An operation that fails without a reply and on an error has done nothing, or what its command
does. -/
theorem single_exec {fallback : α} {argv : List Bytes} {result : Option Reply → α} {s s' : Keyspace}
    {tr : List (Event (sig Conn fun _ : List Bytes => Option Reply))} {a : α}
    (h : Exec Served (single fallback argv result) s tr a s') (hnone : result none = fallback)
    (herror : ∀ msg, result (some (.error msg)) = fallback) :
    (a = fallback ∧ s' = s) ∨
      (a = fallback ∨ a = result (some (s.command argv).1)) ∧ s' = (s.command argv).2 := by
  obtain ⟨connect, s₁, _, -, hget, hconnect⟩ := exec_call_iff.mp h
  obtain rfl : s₁ = s := hget
  rcases connect with _ | connect
  · exact Or.inl (exec_ret hconnect)
  · obtain ⟨reply, s₂, _, -, hquery, hreply⟩ := exec_call_iff.mp hconnect
    obtain ⟨_, s₃, _, -, hgive, hresult⟩ := exec_call_iff.mp hreply
    obtain rfl : s₃ = s₂ := hgive
    obtain ⟨rfl, rfl⟩ := exec_ret hresult
    rcases reply with _ | reply
    · rcases hquery with hs | hs
      · exact Or.inl ⟨hnone, hs⟩
      · exact Or.inr ⟨Or.inl hnone, hs⟩
    · rcases hquery with hs | ⟨⟨msg, rfl⟩, hs⟩
      · have hresult : result (some reply) = result (some (s₁.command argv).1) := by rw [← hs]
        exact Or.inr ⟨Or.inr hresult, congrArg Prod.snd hs⟩
      · exact Or.inl ⟨herror msg, hs⟩

/-! ## What each operation does -/

section Operations

variable {key hkey value : Bytes}

/-- What `get` finds: it gets a connection and an answer. -/
def found (s : Keyspace) (key : Bytes) : Option Bytes := ((get key).run answered s).1

def hFound (s : Keyspace) (key hkey : Bytes) : Bytes := ((hGet key hkey).run answered s).1

theorem found_eq (s : Keyspace) (key : Bytes) : found s key = (s.string (cstr key)).map cstr := by
  unfold found
  rw [get_eq_single, single_run, Keyspace.command_get]
  unfold Keyspace.get Keyspace.string
  rcases s (cstr key) with _ | value | fields <;> rfl

/-- What `hGet` reads of a field that holds these bytes. -/
def shown (value : Option Bytes) : Bytes := (value.map cstr).getD []

theorem hFound_eq (s : Keyspace) (key hkey : Bytes) :
    hFound s key hkey = shown (s.field key hkey) := by
  unfold hFound shown
  rw [hGet_eq_single, single_run, Keyspace.command_hGet]
  unfold Keyspace.hGet
  rcases hs : s key with _ | value | fields
  · simp [Keyspace.field, hs]
  · simp [Keyspace.field, hs, Keyspace.wrongType]
  · rcases hf : s.field key hkey with _ | value
    · simp
    · simp [Reply.str]

variable {s s' : Keyspace} {tr : List (Event (sig Conn fun _ : List Bytes => Option Reply))} {b : Bool}

/-- `set` does nothing or what it should; when it returns true it has done it. -/
theorem set_exec (h : Exec Served (set key value) s tr b s') :
    (b = false ∧ s' = s) ∨ s' = s.set (cstr key) (cstr value) := by
  rw [set_eq_single] at h
  obtain hfails | ⟨-, hs⟩ := single_exec h rfl fun _ => rfl
  · exact Or.inl hfails
  · rw [Keyspace.command_set] at hs
    exact Or.inr hs

theorem hSet_exec (h : Exec Served (hSet key hkey value) s tr b s') :
    (b = false ∧ s' = s) ∨
      s.Hashable (cstr key) ∧ s' = (s.hSet (cstr key) (cstr hkey) value).2 := by
  rw [hSet_eq_single] at h
  obtain hfails | ⟨hb, hs⟩ := single_exec h rfl fun _ => rfl
  · exact Or.inl hfails
  · rw [Keyspace.command_hSet] at hb hs
    by_cases hhash : s.Hashable (cstr key)
    · exact Or.inr ⟨hhash, hs⟩
    · -- Redis refuses, and nothing has changed
      rw [Keyspace.hSet_of_not_hashable hhash] at hb hs
      exact Or.inl ⟨hb.elim id id, hs⟩

theorem set_succeeds (s : Keyspace) (key value : Bytes) :
    ∃ tr, Exec Served (set key value) s tr true (s.set (cstr key) (cstr value)) := by
  obtain ⟨tr, h⟩ := exec_run served_answered (set key value) s
  rw [set_eq_single, single_run, Keyspace.command_set, ← set_eq_single] at h
  exact ⟨tr, h⟩

theorem hSet_succeeds (h : s.Hashable (cstr key)) (hkey value : Bytes) :
    ∃ tr, Exec Served (hSet key hkey value) s tr true (s.hSet (cstr key) (cstr hkey) value).2 := by
  obtain ⟨tr, hexec⟩ := exec_run served_answered (hSet key hkey value) s
  rw [hSet_eq_single, single_run, Keyspace.command_hSet, ← hSet_eq_single,
    Keyspace.hSet_of_hashable h] at hexec
  rw [Keyspace.hSet_of_hashable h]
  exact ⟨tr, hexec⟩

end Operations

/-! ## The laws of a map -/

theorem found_set (s : Keyspace) (key value k : Bytes) :
    found (s.set (cstr key) (cstr value)) k
      = if cstr k = cstr key then some (cstr value) else found s k := by
  rw [found_eq, found_eq, Keyspace.string_set]
  by_cases hk : cstr k = cstr key
  · simp [hk]
  · simp [hk]

theorem hFound_hSet {s : Keyspace} {key : Bytes} (hs : s.Hashable (cstr key)) (hkey value k f : Bytes) :
    hFound (s.hSet (cstr key) (cstr hkey) value).2 k f
      = if (k, f) = (cstr key, cstr hkey) then cstr value else hFound s k f := by
  rw [hFound_eq, hFound_eq, Keyspace.field_hSet hs]
  split
  · rfl
  · rfl

/-- `set key value` as on a map: the key then has the value, and another key `k` has what it had. -/
structure SetLaws (s : Keyspace) (key value k : Bytes) : Prop where
  reads : ∀ tr s', Exec Served (set key value) s tr true s' → found s' key = some value
  frame : k ≠ key → ∀ tr b s', Exec Served (set key value) s tr b s' → found s' k = found s k

/-- The value has no NUL, and `k` does not share its C string with the key, unless the value was
there already. -/
def SetClean (s : Keyspace) (key value k : Bytes) : Prop :=
  0 ∉ value ∧
    (k = key ∨ cstr k ≠ cstr key ∨ (s.string (cstr key)).map cstr = some (cstr value))

theorem setLaws_iff (s : Keyspace) (key value k : Bytes) :
    SetLaws s key value k ↔ SetClean s key value k := by
  constructor
  · intro h
    obtain ⟨tr, hexec⟩ := set_succeeds s key value
    constructor
    · have hread := h.reads tr _ hexec
      rw [found_set, if_pos rfl] at hread
      exact cstr_eq_self_iff.mp (Option.some.inj hread)
    · by_cases hk : k = key
      · exact Or.inl hk
      · by_cases hc : cstr k = cstr key
        · have hframe := h.frame hk tr _ _ hexec
          rw [found_set, if_pos hc, found_eq, hc] at hframe
          exact Or.inr (Or.inr hframe.symm)
        · exact Or.inr (Or.inl hc)
  · rintro ⟨hv, hclean⟩
    constructor
    · intro tr s' hexec
      obtain ⟨hb, -⟩ | rfl := set_exec hexec
      · exact absurd hb (by decide)
      · rw [found_set, if_pos rfl, cstr_eq_self hv]
    · intro hk tr b s' hexec
      obtain ⟨-, rfl⟩ | rfl := set_exec hexec
      · rfl
      · rw [found_set]
        split
        · rename_i hc
          have hsame := (hclean.resolve_left hk).resolve_left (not_not_intro hc)
          rw [found_eq, hc, hsame]
        · rfl

/-- The same of `hSet` and a field of a hash. -/
structure HSetLaws (s : Keyspace) (key hkey value k f : Bytes) : Prop where
  reads : ∀ tr s', Exec Served (hSet key hkey value) s tr true s' → hFound s' key hkey = value
  frame : (k, f) ≠ (key, hkey) → ∀ tr b s', Exec Served (hSet key hkey value) s tr b s' →
    hFound s' k f = hFound s k f

/-- The value has no NUL, or with a NUL in the names the field under them has the value already; and
the field of `k` is not the one of the names' C strings, unless its value is there already. -/
def HSetClean (s : Keyspace) (key hkey value k f : Bytes) : Prop :=
  s.Hashable (cstr key) →
    (if 0 ∉ key ∧ 0 ∉ hkey then 0 ∉ value else shown (s.field key hkey) = value) ∧
    ((k, f) = (key, hkey) ∨ (k, f) ≠ (cstr key, cstr hkey) ∨ shown (s.field k f) = cstr value)

/-- The names are those that `hSet` writes to. -/
theorem names_eq_iff (key hkey : Bytes) :
    (key, hkey) = (cstr key, cstr hkey) ↔ 0 ∉ key ∧ 0 ∉ hkey := by
  rw [Prod.mk.injEq, eq_comm, cstr_eq_self_iff, eq_comm, cstr_eq_self_iff]

theorem hSetLaws_iff (s : Keyspace) (key hkey value k f : Bytes) :
    HSetLaws s key hkey value k f ↔ HSetClean s key hkey value k f := by
  constructor
  · intro h hs
    obtain ⟨tr, hexec⟩ := hSet_succeeds hs hkey value
    constructor
    · have hread := h.reads tr _ hexec
      rw [hFound_hSet hs] at hread
      split
      · rename_i hnames
        rw [if_pos ((names_eq_iff key hkey).mpr hnames)] at hread
        exact cstr_eq_self_iff.mp hread
      · rename_i hnames
        rwa [if_neg (fun heq => hnames ((names_eq_iff key hkey).mp heq)), hFound_eq] at hread
    · by_cases hk : (k, f) = (key, hkey)
      · exact Or.inl hk
      · by_cases hc : (k, f) = (cstr key, cstr hkey)
        · have hframe := h.frame hk tr _ _ hexec
          rw [hFound_hSet hs, if_pos hc, hFound_eq] at hframe
          exact Or.inr (Or.inr hframe.symm)
        · exact Or.inr (Or.inl hc)
  · intro hclean
    constructor
    · intro tr s' hexec
      obtain ⟨hb, -⟩ | ⟨hs, rfl⟩ := hSet_exec hexec
      · exact absurd hb (by decide)
      · have hread := (hclean hs).1
        rw [hFound_hSet hs]
        split
        · rename_i hnames
          rw [if_pos ((names_eq_iff key hkey).mp hnames)] at hread
          exact cstr_eq_self hread
        · rename_i hnames
          rw [if_neg (fun heq => hnames ((names_eq_iff key hkey).mpr heq))] at hread
          rw [hFound_eq]
          exact hread
    · intro hk tr b s' hexec
      obtain ⟨-, rfl⟩ | ⟨hs, rfl⟩ := hSet_exec hexec
      · rfl
      · rw [hFound_hSet hs]
        split
        · rename_i hc
          have hsame := ((hclean hs).2.resolve_left hk).resolve_left (not_not_intro hc)
          rw [hFound_eq]
          exact hsame.symm
        · rfl

/-- **When `RedisMgr` is a map.** For every state of Redis and all names and values: `set` obeys the
laws of a map with respect to `get` exactly when what it is given is clean, and `hSet` with respect to
`hGet` exactly when what it is given is. -/
theorem redis_map_iff (s : Keyspace) (key value k : Bytes) (hash hkey hvalue h f : Bytes) :
    (SetLaws s key value k ↔ SetClean s key value k) ∧
      (HSetLaws s hash hkey hvalue h f ↔ HSetClean s hash hkey hvalue h f) :=
  ⟨setLaws_iff s key value k, hSetLaws_iff s hash hkey hvalue h f⟩

/-- A search for the name "alice\0x" finds the cached profile of "alice". -/
theorem redis_map_fails : ¬ ∀ (s : Keyspace) (key value k hash hkey hvalue h f : Bytes),
    SetLaws s key value k ∧ HSetLaws s hash hkey hvalue h f := by
  intro h
  obtain ⟨-, hclean⟩ := (setLaws_iff _ _ _ _).mp (h (fun _ => none)
    (RedisPrefix.userNameInfo ++ lit "alice") (lit "v")
    (RedisPrefix.userNameInfo ++ lit "alice\x00x") [] [] [] [] []).1
  rcases hclean with hsame | hother | hthere
  · exact absurd hsame (by decide)
  · exact absurd (show _ = _ by decide) hother
  · exact absurd hthere (by simp [Keyspace.string])

end RedisMgr

/-! ## The two halves of Redis -/

namespace Keyspace

open RedisMgr

/-- The strings and the hashes, seen apart. -/
def redis (s : Keyspace) : Redis := { str := s.string, hash := s.field }

variable {s s' : Keyspace} {key hkey value : Bytes}
  {tr : List (Event (sig Conn fun _ : List Bytes => Option Reply))}

theorem found_redis (s : Keyspace) (key : Bytes) : found s key = s.redis.get key := found_eq s key

theorem hFound_redis (s : Keyspace) (key hkey : Bytes) :
    hFound s key hkey = s.redis.hGet key hkey := by
  rw [hFound_eq, Redis.hGet]
  show _ = match s.field key hkey with
    | none => []
    | some value => cstr value
  rcases s.field key hkey with _ | value <;> rfl

/-- On a key that holds no hash. -/
theorem set_redis (hkey : s.field (cstr key) = fun _ => none)
    (hexec : Exec Served (RedisMgr.set key value) s tr true s') :
    s'.redis = s.redis.set key value := by
  obtain ⟨hb, -⟩ | rfl := set_exec hexec
  · exact absurd hb (by decide)
  · unfold redis Redis.set
    rw [string_set, field_set, ← hkey, Function.update_eq_self]

theorem hSet_redis (hexec : Exec Served (RedisMgr.hSet key hkey value) s tr true s') :
    s'.redis = s.redis.hSet key hkey value := by
  obtain ⟨hb, -⟩ | ⟨hs, rfl⟩ := hSet_exec hexec
  · exact absurd hb (by decide)
  · unfold redis Redis.hSet
    rw [string_hSet]
    congr 1
    funext k f
    rw [field_hSet hs]
    by_cases hk : k = cstr key
    · subst hk
      by_cases hf : f = cstr hkey
      · simp [hf]
      · simp [hf]
    · simp [hk]

end Keyspace

end ChatServer
