import ChatServer.Json
import ChatServer.Lib.Fields

/-!
# The configuration

`infra/config/ConfigMgr.cpp` reads `config.json` when the server starts. A file that is missing or is no JSON
leaves the configuration empty; a section that is no object is left out; a value that is no scalar throws,
and `main` does not catch that. `config_reads_iff` says which texts are read and what is found afterwards.
-/

namespace ChatServer

open Bytes

namespace Json

/-- `Value::getMemberNames`. -/
def getMemberNames : Json → Except Exn (List Bytes)
  | .null => .ok []
  | .obj members => .ok (members.map Prod.fst)
  | _ => .error .logicError

/-- What `asString` converts the value to. -/
def text (J : JsonCpp) (v : Json) : Bytes := (v.asString J).toOption.getD []

theorem asString_eq (J : JsonCpp) {v : Json} (h : v.StringLike) : v.asString J = .ok (v.text J) := by
  obtain ⟨s, hs⟩ := (stringLike_iff J v).mp h
  rw [text, hs]
  rfl

theorem asString_error (J : JsonCpp) {v : Json} (h : ¬ v.StringLike) : ∃ e, v.asString J = .error e := by
  rcases hs : v.asString J with e | s
  · exact ⟨e, rfl⟩
  · exact absurd ((stringLike_iff J v).mpr ⟨s, hs⟩) h

theorem getMemberNames_of_isObject {v : Json} (h : v.isObject = true) :
    ∃ members, v = .obj members ∧ v.getMemberNames = .ok (members.map Prod.fst) := by
  rcases v with _ | _ | _ | _ | _ | _ | members
  case obj => exact ⟨members, rfl, rfl⟩
  all_goals cases h

end Json

/-- `SectionInfo`: the settings of a section by their names, the last one written first. -/
structure SectionInfo where
  datas : List (Bytes × Bytes) := []
  deriving DecidableEq, Repr

/-- `SectionInfo::operator[]`. -/
def SectionInfo.get (info : SectionInfo) (key : Bytes) : Bytes := (info.datas.lookup key).getD []

/-- `ConfigMgr`: the sections by their names, the last one written first. -/
structure ConfigMgr where
  configMap : List (Bytes × SectionInfo) := []
  deriving DecidableEq, Repr

namespace ConfigMgr

/-- `ConfigMgr::operator[]`. -/
def get (cfg : ConfigMgr) (sect : Bytes) : SectionInfo := (cfg.configMap.lookup sect).getD {}

/-- `cfg[sect][key]`. -/
def value (cfg : ConfigMgr) (sect : Bytes) (key : String) : Bytes := (cfg.get sect).get (lit key)

/-- The loop over the members of a section. -/
def loadSection (J : JsonCpp) (section_value : Json) : List Bytes → SectionInfo → Except Exn SectionInfo
  | [], section_info => .ok section_info
  | key :: keys, section_info => do
    let text ← (section_value.lookup key).asString J
    loadSection J section_value keys { datas := (key, text) :: section_info.datas }

/-- The loop over the members of the root. -/
def loadSections (J : JsonCpp) (root : Json) : List Bytes → ConfigMgr → Except Exn ConfigMgr
  | [], cfg => .ok cfg
  | section_name :: names, cfg =>
    let section_value := root.lookup section_name
    if section_value.isObject then do
      let keys ← section_value.getMemberNames
      let section_info ← loadSection J section_value keys {}
      loadSections J root names { configMap := (section_name, section_info) :: cfg.configMap }
    else loadSections J root names cfg

/-- `ConfigMgr::ConfigMgr`, on the text of the file if there is one. -/
def load (J : JsonCpp) (file : Option Bytes) : Except Exn ConfigMgr :=
  match file with
  | none => .ok {}
  | some text =>
    let parsed := J.parse text
    if parsed.1 = false then .ok {}
    else do
      let names ← parsed.2.getMemberNames
      loadSections J parsed.2 names {}

/-! ## What is read -/

/-- A list of entries that are computed from their names. -/
theorem lookup_map {β : Type} (f : Bytes → β) (keys : List Bytes) (key : Bytes) :
    (keys.map fun k => (k, f k)).lookup key = if key ∈ keys then some (f key) else none := by
  induction keys with
  | nil => rfl
  | cons k keys ih =>
    rw [List.map_cons, List.lookup_cons, ih]
    by_cases hk : key = k
    · simp [hk]
    · simp [hk, beq_eq_false_iff_ne.mpr hk]

section Load

variable {J : JsonCpp} {v root : Json}

theorem loadSection_eq {keys : List Bytes} (h : ∀ key ∈ keys, (v.lookup key).StringLike) (info : SectionInfo) :
    loadSection J v keys info =
      .ok { datas := (keys.reverse.map fun key => (key, (v.lookup key).text J)) ++ info.datas } := by
  induction keys generalizing info with
  | nil => rfl
  | cons key keys ih =>
    have hkey := Json.asString_eq J (h key List.mem_cons_self)
    have hkeys := ih (fun k hk => h k (List.mem_cons_of_mem key hk))
      { datas := (key, (v.lookup key).text J) :: info.datas }
    unfold loadSection
    rw [hkey]
    show loadSection J v keys _ = _
    rw [hkeys]
    simp

theorem loadSection_error {keys : List Bytes} (h : ¬ ∀ key ∈ keys, (v.lookup key).StringLike)
    (info : SectionInfo) : ∃ e, loadSection J v keys info = .error e := by
  induction keys generalizing info with
  | nil => exact absurd (by simp) h
  | cons key keys ih =>
    unfold loadSection
    by_cases hkey : (v.lookup key).StringLike
    · rw [Json.asString_eq J hkey]
      refine ih ?_ _
      intro hkeys
      refine h fun k hk => ?_
      rcases List.mem_cons.mp hk with rfl | hk
      · exact hkey
      · exact hkeys k hk
    · obtain ⟨e, he⟩ := Json.asString_error J hkey
      rw [he]
      exact ⟨e, rfl⟩

end Load

end ConfigMgr

namespace Json

/-- The names of the members of an object. -/
def keys : Json → List Bytes
  | .obj members => members.map Prod.fst
  | _ => []

theorem getMemberNames_eq {v : Json} (h : v.hasMembers = true) : v.getMemberNames = .ok v.keys := by
  rcases v with _ | _ | _ | _ | _ | _ | _
  case null | obj => rfl
  all_goals cases h

theorem getMemberNames_error {v : Json} (h : v.hasMembers = false) : v.getMemberNames = .error .logicError := by
  rcases v with _ | _ | _ | _ | _ | _ | _
  case null | obj => cases h
  all_goals rfl

theorem lookup_of_notMem {v : Json} {key : Bytes} (h : key ∉ v.keys) : v.lookup key = .null := by
  rcases v with _ | _ | _ | _ | _ | _ | members
  case obj =>
    have hnone : members.lookup key = none := by
      refine List.lookup_eq_none_iff.mpr ?_
      intro m hm
      simpa using fun he => h (List.mem_map.mpr ⟨m, hm, he.symm⟩)
    show (members.lookup key).getD .null = .null
    rw [hnone]
    rfl
  all_goals rfl

end Json

namespace ConfigMgr

section Load

variable {J : JsonCpp} {v root : Json}

/-- What is kept of a section. -/
def sectionOf (J : JsonCpp) (v : Json) : SectionInfo :=
  { datas := v.keys.reverse.map fun key => (key, (v.lookup key).text J) }

theorem get_sectionOf (v : Json) (key : Bytes) : (sectionOf J v).get key = (v.lookup key).text J := by
  show (List.lookup key (v.keys.reverse.map fun key => (key, (v.lookup key).text J))).getD [] = _
  rw [lookup_map]
  by_cases hkey : key ∈ v.keys
  · simp [hkey]
  · simp [hkey, Json.lookup_of_notMem hkey, Json.text, Json.asString]
    rfl

/-- The text is a configuration: its sections have scalar settings. -/
structure Configuration (root : Json) : Prop where
  hasMembers : root.hasMembers = true
  scalars : ∀ sect, (root.lookup sect).isObject = true → ∀ key, ((root.lookup sect).lookup key).StringLike

/-- What a setting says, empty when there is none. -/
def setting (J : JsonCpp) (root : Json) (sect key : Bytes) : Bytes :=
  if (root.lookup sect).isObject then ((root.lookup sect).lookup key).text J else []

theorem loadSections_eq {names : List Bytes}
    (h : ∀ name ∈ names, (root.lookup name).isObject = true → ∀ key, ((root.lookup name).lookup key).StringLike)
    (cfg : ConfigMgr) : loadSections J root names cfg =
      .ok { configMap := ((names.filter fun name => (root.lookup name).isObject).reverse.map
        fun name => (name, sectionOf J (root.lookup name))) ++ cfg.configMap } := by
  induction names generalizing cfg with
  | nil => rfl
  | cons name names ih =>
    have htail := fun cfg => ih (fun n hn => h n (List.mem_cons_of_mem name hn)) cfg
    have hhead := h name List.mem_cons_self
    unfold loadSections
    by_cases hobj : (root.lookup name).isObject = true
    · obtain ⟨members, hmembers, hnames⟩ := Json.getMemberNames_of_isObject hobj
      have hkeys : members.map Prod.fst = (root.lookup name).keys := by rw [hmembers]; rfl
      dsimp only
      rw [if_pos hobj, hnames]
      show (loadSection J _ (members.map Prod.fst) {} >>= _) = _
      rw [loadSection_eq fun key _ => hhead hobj key, hkeys]
      show loadSections J root names { configMap := (name, _) :: cfg.configMap } = _
      rw [htail]
      simp [sectionOf, hobj]
    · dsimp only
      rw [if_neg hobj, htail]
      simp [hobj]

theorem loadSections_error {names : List Bytes} {name : Bytes} (hmem : name ∈ names)
    (hobj : (root.lookup name).isObject = true) {key : Bytes}
    (hkey : ¬ ((root.lookup name).lookup key).StringLike) (cfg : ConfigMgr) :
    ∃ e, loadSections J root names cfg = .error e := by
  induction names generalizing cfg with
  | nil => exact absurd hmem List.not_mem_nil
  | cons n names ih =>
    unfold loadSections
    dsimp only
    by_cases hn : (root.lookup n).isObject = true
    · obtain ⟨members, hmembers, hnames⟩ := Json.getMemberNames_of_isObject hn
      rw [if_pos hn, hnames]
      show ∃ e, (loadSection J _ (members.map Prod.fst) {} >>= _) = .error e
      by_cases hall : ∀ k ∈ members.map Prod.fst, ((root.lookup n).lookup k).StringLike
      · rw [loadSection_eq hall]
        refine ih ?_ _
        rcases List.mem_cons.mp hmem with rfl | hmem
        · refine absurd ?_ hkey
          by_cases hin : key ∈ (root.lookup name).keys
          · rw [hmembers] at hin
            exact hall key hin
          · rw [Json.lookup_of_notMem hin]
            trivial
        · exact hmem
      · obtain ⟨e, he⟩ := loadSection_error hall {}
        rw [he]
        exact ⟨e, rfl⟩
    · rw [if_neg hn]
      refine ih ?_ _
      rcases List.mem_cons.mp hmem with rfl | hmem
      · exact absurd hobj hn
      · exact hmem

/-- The value that the constructor goes through, null when there is none. -/
def content (J : JsonCpp) (file : Option Bytes) : Json :=
  match file with
  | none => .null
  | some text => if (J.parse text).1 = false then .null else (J.parse text).2

theorem load_eq (J : JsonCpp) (file : Option Bytes) : load J file =
    ((content J file).getMemberNames >>= fun names => loadSections J (content J file) names {}) := by
  rcases file with _ | text
  · rfl
  · unfold load content
    dsimp only
    split_ifs <;> rfl

/-- What is kept of a configuration. -/
def loaded (J : JsonCpp) (root : Json) : ConfigMgr :=
  { configMap := (root.keys.filter fun name => (root.lookup name).isObject).reverse.map
      fun name => (name, sectionOf J (root.lookup name)) }

/-- A section is a member. -/
theorem mem_keys_of_isObject {sect : Bytes} (h : (root.lookup sect).isObject = true) : sect ∈ root.keys := by
  by_contra hnot
  rw [Json.lookup_of_notMem hnot] at h
  cases h

theorem get_loaded (sect key : Bytes) : ((loaded J root).get sect).get key = setting J root sect key := by
  unfold get loaded setting
  dsimp only
  rw [lookup_map]
  by_cases hobj : (root.lookup sect).isObject = true
  · rw [if_pos hobj, if_pos (by simp [mem_keys_of_isObject hobj, hobj])]
    exact get_sectionOf _ key
  · rw [if_neg hobj, if_neg (by simp [hobj])]
    rfl

theorem load_of_configuration {file : Option Bytes} (h : Configuration (content J file)) :
    load J file = .ok (loaded J (content J file)) := by
  rw [load_eq, Json.getMemberNames_eq h.hasMembers]
  show loadSections J _ _ {} = _
  rw [loadSections_eq (fun name _ => h.scalars name), List.append_nil]
  rfl

theorem configuration_of_load {file : Option Bytes} {cfg : ConfigMgr} (h : load J file = .ok cfg) :
    Configuration (content J file) := by
  rw [load_eq] at h
  have hmembers : (content J file).hasMembers = true := by
    by_contra hnot
    rw [Json.getMemberNames_error (by simpa using hnot)] at h
    cases h
  rw [Json.getMemberNames_eq hmembers] at h
  refine ⟨hmembers, ?_⟩
  intro sect hobj key
  by_contra hkey
  obtain ⟨e, he⟩ := loadSections_error (J := J) (mem_keys_of_isObject hobj) hobj hkey {}
  cases he.symm.trans h

/-- **When a configuration is read, and what it says.** The constructor returns, whatever the file holds,
exactly when the text is no JSON or a configuration; and then every lookup gives what the text has there. -/
theorem reads (J : JsonCpp) (file : Option Bytes) :
    ((∃ cfg, load J file = .ok cfg) ↔ Configuration (content J file)) ∧
      ∀ cfg, load J file = .ok cfg → ∀ sect key,
        (cfg.get sect).get key = setting J (content J file) sect key := by
  refine ⟨⟨?_, fun h => ⟨_, load_of_configuration h⟩⟩, ?_⟩
  · rintro ⟨cfg, hcfg⟩
    exact configuration_of_load hcfg
  · intro cfg hcfg sect key
    obtain rfl := Except.ok.inj ((load_of_configuration (configuration_of_load hcfg)).symm.trans hcfg)
    exact get_loaded sect key

/-! ## Checking a configuration -/

/-- A member is among the values of an object, or missing. -/
theorem lookup_mem_children (v : Json) (key : Bytes) :
    v.lookup key = Json.null ∨ v.lookup key ∈ v.children := by
  by_cases hkey : key ∈ v.keys
  · rcases v with _ | _ | _ | _ | _ | _ | members
    case obj =>
      right
      rcases hfound : members.lookup key with _ | w
      · obtain ⟨m, hm, rfl⟩ := List.mem_map.mp hkey
        simpa using List.lookup_eq_none_iff.mp hfound m hm
      · obtain ⟨pre, post, rfl, -⟩ := List.lookup_eq_some_iff.mp hfound
        show (List.lookup key _).getD Json.null ∈ _
        rw [hfound]
        simp [Json.children]
    all_goals exact absurd hkey List.not_mem_nil
  · exact Or.inl (Json.lookup_of_notMem hkey)

/-- The value is neither an array nor an object. -/
def isScalar : Json → Bool
  | .arr _ => false
  | .obj _ => false
  | _ => true

theorem stringLike_of_isScalar {v : Json} (h : isScalar v = true) : v.StringLike := by
  rcases v with _ | _ | _ | _ | _ | _ | _
  case arr | obj => cases h
  all_goals trivial

/-- A test for configurations. -/
def check (root : Json) : Bool :=
  root.hasMembers && root.children.all fun v => !v.isObject || v.children.all isScalar

theorem configuration_of_check (h : check root = true) : Configuration root := by
  obtain ⟨hmembers, hall⟩ := Bool.and_eq_true_iff.mp h
  refine ⟨hmembers, ?_⟩
  intro sect hobj key
  rcases lookup_mem_children root sect with hnull | hsect
  · rw [hnull] at hobj
    cases hobj
  · have hscalars : ((root.lookup sect).children.all isScalar) = true := by
      simpa [hobj] using List.all_eq_true.mp hall _ hsect
    rcases lookup_mem_children (root.lookup sect) key with hnull | hkey
    · rw [hnull]
      trivial
    · exact stringLike_of_isScalar (List.all_eq_true.mp hscalars _ hkey)

end Load

end ConfigMgr

end ChatServer
