import ClashVerge.AppProxy.Rules
import ClashVerge.Yaml.Value

/-!
# Listeners of the runtime configuration

The `listeners` of a configuration are a sequence of mappings. A managed listener is told from the
others by its name, and is put in and taken out by it. Where `listeners` is something else than a
sequence, nothing is put in or taken out.
-/

namespace ClashVerge.AppProxy

open ClashVerge.Yaml

/-- `as_sequence_mut`: change the items of a sequence, under its tags. -/
def mapSequence (change : List Value → List Value) : Value → Value
  | .sequence items => .sequence (change items)
  | .tagged tag value => .tagged tag (mapSequence change value)
  | value => value

def asU64 (value : Value) : Option Nat :=
  match value.untag with
  | .number (.integer number) =>
    if 0 ≤ number ∧ number.toNat < UInt64.size then some number.toNat else none
  | _ => none

def itemName (item : Value) : Option String :=
  item.asMapping.bind fun mapping => (mapping.get "name").bind Value.asStr

def ManagedListenerSpec.item (spec : ManagedListenerSpec) : Value :=
  .mapping ([(.string "name", .string spec.name), (.string "type", .string "mixed"),
    (.string "listen", .string "127.0.0.1"), (.string "port", .number (.integer spec.port))] ++
    (spec.group.map fun group => (Value.string "proxy", Value.string group)).toList)

def without (name : String) (items : List Value) : List Value :=
  items.filter fun item => itemName item ≠ some name

/-- The edit of `configure_listener`. -/
def putListener (spec : ManagedListenerSpec) (config : Mapping) : Mapping :=
  let listeners := (config.get "listeners").getD (.sequence [])
  config.insert (.string "listeners")
    (mapSequence (fun items => without spec.name items ++ [spec.item]) listeners)

/-- The edit of `remove_listener`. -/
def takeListener (name : String) (config : Mapping) : Mapping :=
  match config.get "listeners" with
  | none => config
  | some listeners => config.insert (.string "listeners") (mapSequence (without name) listeners)

def listenerItems (config : Option Mapping) : List Value :=
  ((config.bind (·.get "listeners")).bind Value.asSequence).getD []

def listenerNames (config : Option Mapping) : List String :=
  (listenerItems config).filterMap itemName

def managedListenerLoaded (spec : ManagedListenerSpec) (config : Option Mapping) : Bool :=
  (listenerItems config).any fun item =>
    match item.asMapping with
    | none => false
    | some listener =>
      (listener.get "name").bind Value.asStr = some spec.name ∧
        (listener.get "port").bind asU64 = some spec.port ∧
        (listener.get "proxy").bind Value.asStr = spec.group

section

variable {spec : ManagedListenerSpec} {name : String} {config : Option Mapping}

theorem asSequence_mapSequence (change : List Value → List Value) (value : Value) :
    (mapSequence change value).asSequence = value.asSequence.map change := by
  induction value using mapSequence.induct with
  | case1 items => rfl
  | case2 tag value ih => exact ih
  | case3 value notSequence notTagged =>
    cases value <;> first
      | rfl
      | exact absurd rfl (notSequence _)
      | exact absurd rfl (notTagged _ _)

theorem get_listeners (config : Mapping) (value : Value) :
    (config.insert (.string "listeners") value).get "listeners" = some value := by
  rw [Mapping.insert, Mapping.get, OrderedMap.get_insert, if_pos rfl]

theorem without_putListener : without spec.name (listenerItems (config.map (putListener spec))) =
    without spec.name (listenerItems config) := by
  have own : itemName spec.item = some spec.name := by
    cases spec
    rfl
  cases config with
  | none => rfl
  | some config =>
    simp only [listenerItems, Option.map_some, Option.bind_some, putListener, get_listeners,
      asSequence_mapSequence]
    cases config.get "listeners" with
    | none => simp [without, own, Value.asSequence, Value.untag]
    | some value =>
      simp only [Option.getD_some, Option.bind_some]
      cases value.asSequence with
      | none => rfl
      | some items => simp [without, own]

theorem listenerItems_takeListener : listenerItems (config.map (takeListener name)) =
    without name (listenerItems config) := by
  cases config with
  | none => rfl
  | some config =>
    simp only [listenerItems, Option.map_some, Option.bind_some, takeListener]
    cases is_ : config.get "listeners" with
    | none => simp [is_, without]
    | some value =>
      simp only [get_listeners, Option.bind_some, asSequence_mapSequence]
      cases value.asSequence <;> simp [without]

theorem mem_listenerNames {other : String} : other ∈ listenerNames config ↔
    ∃ item ∈ listenerItems config, itemName item = some other :=
  List.mem_filterMap

theorem not_mem_takeListener : name ∉ listenerNames (config.map (takeListener name)) := by
  rw [mem_listenerNames, listenerItems_takeListener]
  simp [without]

theorem mem_takeListener {other : String}
    (inside : other ∈ listenerNames (config.map (takeListener name))) :
    other ∈ listenerNames config := by
  rw [mem_listenerNames, listenerItems_takeListener] at inside
  obtain ⟨item, is_, named⟩ := inside
  exact mem_listenerNames.mpr ⟨item, List.mem_of_mem_filter is_, named⟩

theorem mem_putListener {other : String}
    (inside : other ∈ listenerNames (config.map (putListener spec))) :
    other = spec.name ∨ other ∈ listenerNames config := by
  by_cases same : other = spec.name
  · exact .inl same
  · obtain ⟨item, is_, named⟩ := mem_listenerNames.mp inside
    have kept : item ∈ without spec.name (listenerItems (config.map (putListener spec))) := by
      simp [without, is_, named, same]
    rw [without_putListener] at kept
    exact .inr (mem_listenerNames.mpr ⟨item, List.mem_of_mem_filter kept, named⟩)

end

end ClashVerge.AppProxy
