import ClashVerge.Yaml.Value
import Mathlib.Data.List.Induction

/-!
# Fields of a configuration

Lowercasing the keys of a configuration and sorting its fields. Both keep only the entries whose
keys are texts. Lowercasing takes the tags off and lets the last of several keys that become the
same win; sorting changes no value under a text without a tag.
-/

namespace ClashVerge.Enhance

open ClashVerge.Yaml
open OrderedMap (Distinct distinct_insert distinct_nil get get_insert_other)

def handleFields : List String :=
  ["mode", "redir-port", "tproxy-port", "mixed-port", "socks-port", "port", "allow-lan",
    "log-level", "ipv6", "external-controller", "secret", "unified-delay"]

def defaultFields : List String :=
  ["proxies", "proxy-providers", "proxy-groups", "rule-providers", "rules"]

/-- `make_ascii_lowercase`. -/
def asciiLowercase (text : String) : String := .ofList (text.toList.map Char.toLower)

def lowercaseKey (key : String) : Value := .string (asciiLowercase key)

/-- `use_lowercase`, and `use_lowercase_owned`, which consumes its argument. -/
def useLowercase (config : Mapping) : Mapping :=
  config.foldl
    (fun lowercased entry =>
      match entry.1.asStr with
      | some key => lowercased.insert (lowercaseKey key) entry.2
      | none => lowercased)
    []

def useKeys (config : Mapping) : List String :=
  config.filterMap fun entry => entry.1.asStr.map asciiLowercase

def moveField (source target : Mapping) (field : String) : Mapping × Mapping :=
  match source.get field with
  | some value => (source.remove field, target.insert (.string field) value)
  | none => (source, target)

def moveFields (source target : Mapping) (fields : List String) : Mapping × Mapping :=
  fields.foldl (fun moved field => moveField moved.1 moved.2 field) (source, target)

/-- The body of the second loop of `use_sort` sends an entry to the sorted fields, to the default fields, or
nowhere. -/
def sortEntry (sorted defaults : Mapping) (key value : Value) : Mapping × Mapping :=
  match key.asStr with
  | none => (sorted, defaults)
  | some text =>
    if text ∈ defaultFields then (sorted, defaults.insert key value)
    else if text ∈ handleFields then (sorted, defaults)
    else (sorted.insert key value, defaults)

def sortEntries (source sorted defaults : Mapping) : Mapping × Mapping :=
  source.foldl (fun sorted entry => sortEntry sorted.1 sorted.2 entry.1 entry.2) (sorted, defaults)

def useSort (config : Mapping) : Mapping :=
  let handled := moveFields config [] handleFields
  let others := sortEntries handled.1 handled.2 []
  (moveFields others.2 others.1 defaultFields).2

/-- The text under `name`. -/
def nameOf (map : Mapping) : Option String := (map.get "name").bind Value.asStr

def proxyName : Value → Option String
  | .mapping map => nameOf map
  | .string name => some name
  | _ => none

/-- The key becomes this text when it is lowercased. -/
def Lowers (text : String) (key : Value) : Bool := key.asStr.map asciiLowercase == some text

theorem get_useLowercase (config : Mapping) (text : String) :
    (useLowercase config).get text = (config.reverse.find? fun entry => Lowers text entry.1).map
      Prod.snd := by
  induction config using List.reverseRecOn with
  | nil => rfl
  | append_singleton before entry ih =>
    rw [useLowercase, List.foldl_append, List.foldl_cons, List.foldl_nil, ← useLowercase,
      List.reverse_append, List.reverse_singleton, List.singleton_append, List.find?_cons]
    cases read : entry.1.asStr with
    | none => simpa [Lowers, read] using ih
    | some key =>
      simp only [Lowers, read, Option.map_some]
      by_cases same : asciiLowercase key = text
      · simp [Mapping.get, Mapping.insert, lowercaseKey, same]
      · have different : (Value.string text) ≠ lowercaseKey key := by
          simpa [lowercaseKey] using Ne.symm same
        rw [Mapping.get, Mapping.insert, get_insert_other _ _ different, ← Mapping.get,
          ih]
        have unequal : (asciiLowercase key == text) = false := by simpa using same
        simp [unequal, Lowers]

theorem distinct_useLowercase (config : Mapping) : Distinct (useLowercase config) := by
  induction config using List.reverseRecOn with
  | nil => exact distinct_nil
  | append_singleton before entry ih =>
    rw [useLowercase, List.foldl_append, List.foldl_cons, List.foldl_nil, ← useLowercase]
    split
    · exact distinct_insert ih _ _
    · exact ih

section

variable {source : Mapping}

section

variable (distinct : Distinct source)
include distinct

theorem moveField_get (target : Mapping) (field : String) (key : Value) :
    get (moveField source target field).1 key =
        (if key = .string field then none else get source key) ∧
      get (moveField source target field).2 key =
        if key = .string field then (get source key).or (get target key)
        else get target key := by
  unfold moveField
  split
  · rename_i value found
    refine ⟨OrderedMap.get_remove distinct _ key, ?_⟩
    rw [Mapping.insert, OrderedMap.get_insert]
    split
    · rename_i same
      rw [same, show get source (.string field) = some value from found]
      rfl
    · rfl
  · rename_i absent
    have absent : get source (.string field) = none := absent
    constructor <;> split
    · rename_i same
      exact same ▸ absent
    · rfl
    · rename_i same
      rw [same, absent]
      rfl
    · rfl

theorem moveField_distinct (target : Mapping) (field : String) :
    Distinct (moveField source target field).1 := by
  unfold moveField
  split
  · exact OrderedMap.distinct_remove distinct _
  · exact distinct

theorem moveFields_get (target : Mapping) (fields : List String) (key : Value) :
    get (moveFields source target fields).1 key =
        (if key ∈ fields.map Value.string then none else get source key) ∧
      get (moveFields source target fields).2 key =
        if key ∈ fields.map Value.string then
          (get source key).or (get target key)
        else get target key := by
  induction fields generalizing source target with
  | nil => simp [moveFields]
  | cons field rest ih =>
    obtain ⟨left, moved⟩ := moveField_get distinct target field key
    have others := ih (moveField_distinct distinct target field)
      (moveField source target field).2
    rw [moveFields, List.foldl_cons, ← moveFields]
    rw [left, moved] at others
    by_cases same : key = .string field
    · subst same
      simpa using others
    · simpa [same] using others

theorem moveFields_distinct (target : Mapping) (fields : List String) :
    Distinct (moveFields source target fields).1 := by
  induction fields generalizing source target with
  | nil => exact distinct
  | cons field rest ih =>
    rw [moveFields, List.foldl_cons, ← moveFields]
    exact ih (moveField_distinct distinct target field) _

end

end

theorem sortEntry_get (sorted defaults : Mapping) (key value : Value) (text : String) :
    (sortEntry sorted defaults key value).1.get text =
        (if key = .string text ∧ text ∉ defaultFields ∧ text ∉ handleFields then some value
        else sorted.get text) ∧
      (sortEntry sorted defaults key value).2.get text =
        if key = .string text ∧ text ∈ defaultFields then some value else defaults.get text := by
  unfold sortEntry
  split
  · rename_i untold
    have other : key ≠ .string text := by
      rintro rfl
      simp at untold
    simp [other]
  · rename_i own read
    by_cases same : key = .string text
    · subst same
      obtain rfl : text = own := by simpa using read
      split
      · rename_i default
        simp [default, Mapping.get, Mapping.insert]
      · rename_i special
        split
        · rename_i handled
          simp [special, handled]
        · rename_i unhandled
          simp [special, unhandled, Mapping.get, Mapping.insert]
    · have other : Value.string text ≠ key := Ne.symm same
      simp only [same, false_and, if_false]
      split
      · exact ⟨rfl, get_insert_other _ _ other⟩
      · split
        · exact ⟨rfl, rfl⟩
        · exact ⟨get_insert_other _ _ other, rfl⟩

theorem sortEntries_get {source : Mapping} (distinct : Distinct source)
    (sorted defaults : Mapping) (text : String) :
    (sortEntries source sorted defaults).1.get text =
        (if text ∉ defaultFields ∧ text ∉ handleFields then
          (source.get text).or (sorted.get text)
        else sorted.get text) ∧
      (sortEntries source sorted defaults).2.get text =
        if text ∈ defaultFields then (source.get text).or (defaults.get text)
        else defaults.get text := by
  induction source generalizing sorted defaults with
  | nil => simp [sortEntries, Mapping.get]
  | cons entry rest ih =>
    obtain ⟨fresh, remaining⟩ := OrderedMap.distinct_cons.mp distinct
    obtain ⟨key, value⟩ := entry
    obtain ⟨sorted', defaults'⟩ := sortEntry_get sorted defaults key value text
    have others := ih remaining (sortEntry sorted defaults key value).1
      (sortEntry sorted defaults key value).2
    rw [sortEntries, List.foldl_cons, ← sortEntries]
    rw [sorted', defaults'] at others
    by_cases same : key = .string text
    · subst same
      have absent : Mapping.get rest text = none := (OrderedMap.get_eq_none_iff rest _).mpr fresh
      have here : Mapping.get ((.string text, value) :: rest) text = some value := if_pos rfl
      rw [absent] at others
      rw [here]
      refine ⟨others.1.trans ?_, others.2.trans ?_⟩
      · by_cases plain : text ∉ defaultFields ∧ text ∉ handleFields <;> simp [plain]
      · by_cases default : text ∈ defaultFields <;> simp [default]
    · have here : Mapping.get ((key, value) :: rest) text = Mapping.get rest text := if_neg same
      rw [here]
      simpa [same] using others

theorem sortEntries_distinct (source sorted : Mapping) {defaults : Mapping}
    (distinct : Distinct defaults) :
    Distinct (sortEntries source sorted defaults).2 := by
  induction source generalizing sorted defaults with
  | nil => exact distinct
  | cons entry rest ih =>
    rw [sortEntries, List.foldl_cons, ← sortEntries]
    apply ih
    unfold sortEntry
    split
    · exact distinct
    · split
      · exact distinct_insert distinct _ _
      · split <;> exact distinct

theorem default_not_handled : ∀ text ∈ defaultFields, text ∉ handleFields := by decide

theorem get_useSort {config : Mapping} (distinct : Distinct config) (text : String) :
    (useSort config).get text = config.get text := by
  obtain ⟨left, handled⟩ := moveFields_get distinct [] handleFields (.string text)
  obtain ⟨sorted, defaults⟩ := sortEntries_get (moveFields_distinct distinct [] handleFields)
    (moveFields config [] handleFields).2 [] text
  have joined := (moveFields_get (sortEntries_distinct (moveFields config [] handleFields).1
    (moveFields config [] handleFields).2 distinct_nil) (sortEntries
    (moveFields config [] handleFields).1 (moveFields config [] handleFields).2 []).1
    defaultFields (.string text)).2
  have listed : ∀ fields : List String, Value.string text ∈ fields.map Value.string ↔
      text ∈ fields := by simp
  simp only [listed] at left handled joined
  simp only [Mapping.get] at sorted defaults
  rw [useSort, Mapping.get, Mapping.get, joined, sorted, defaults, left, handled]
  by_cases default : text ∈ defaultFields
  · simp [default, default_not_handled text default]
  · by_cases handles : text ∈ handleFields <;> simp [default, handles]

end ClashVerge.Enhance
