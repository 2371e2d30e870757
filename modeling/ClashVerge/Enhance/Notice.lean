import ClashVerge.Enhance.Final
import ClashVerge.Yaml.Equality

/-!
# The notice of discarded keys

`overridden` lists the owned keys that the merges and scripts have moved off the app's values,
before `enforce` restores them. `enforce` looks through the tags around `tun` and the notice does
not, and a key below `dns` that is no text has no name in the notice.
-/

namespace ClashVerge.Enhance

open ClashVerge.Verge ClashVerge.Yaml
open OrderedMap (Distinct get get_eq_none_iff)

namespace AuthoritativeFields

/-- The owned values as the configuration holds them now. -/
def current (os : Os) (fields : AuthoritativeFields) (config : Mapping) : AuthoritativeFields where
  controlPlane := snapshotControlPlane os config
  tun := snapshotTun config (OrderedMap.keys fields.tun)
  dns := snapshot (takeMapping config "dns") (OrderedMap.keys fields.dns)
  hosts := fields.hosts.bind fun _ => config.get "hosts"

end AuthoritativeFields

/-- The override changed the value, and not to the app's own. -/
def moved (before after own : Option Value) : Bool :=
  !sameValue before after && !sameValue after own

def subkeyName (field : String) (key : Value) : String := field ++ "." ++ key.asStr.getD ""

namespace AuthoritativeFields

def overridden (os : Os) (fields before after : AuthoritativeFields) : List String :=
  ((controlPlaneKeys os).filter fun key => moved (before.controlPlane.get key)
    (after.controlPlane.get key) (fields.controlPlane.get key)) ++
  ((OrderedMap.keys fields.tun).filter fun key => moved (get before.tun key)
    (get after.tun key) (get fields.tun key)).map (subkeyName "tun") ++
  ((OrderedMap.keys fields.dns).filter fun key => moved (get before.dns key)
    (get after.dns key) (get fields.dns key)).map (subkeyName "dns") ++
  if fields.hosts.isSome && moved before.hosts after.hosts fields.hosts then ["hosts"] else []

/-- The argument of `notify_discarded_keys`. -/
def notice (os : Os) (fields : AuthoritativeFields) (config : Mapping) : List String :=
  fields.overridden os fields (fields.current os config)

end AuthoritativeFields

inductive OwnedKey where
  | controlPlane (key : String)
  | tun (key : Value)
  | dns (key : Value)
  | hosts

namespace OwnedKey

def Owned (os : Os) (fields : AuthoritativeFields) : OwnedKey → Prop
  | controlPlane key => key ∈ controlPlaneKeys os
  | tun key => key ∈ OrderedMap.keys fields.tun
  | dns key => key ∈ OrderedMap.keys fields.dns
  | hosts => fields.hosts.isSome = true

def value (config : Mapping) : OwnedKey → Option Value
  | controlPlane key => config.get key
  | tun key => subvalue config "tun" key
  | dns key => subvalue config "dns" key
  | hosts => config.get "hosts"

def name : OwnedKey → Option String
  | controlPlane key => some key
  | tun (.string key) => some ("tun." ++ key)
  | dns (.string key) => some ("dns." ++ key)
  | hosts => some "hosts"
  | _ => none

/-- The configuration has another value than the one that `enforce` restores. -/
def Discarded (os : Os) (fields : AuthoritativeFields) (config : Mapping) (key : OwnedKey) : Prop :=
  key.Owned os fields ∧
    sameValue (key.value config) (key.value (fields.enforce os config)) = false

end OwnedKey

/-- The notice lists the discarded keys, no others, and each of them once. -/
structure ExactNotice (os : Os) (fields : AuthoritativeFields) (config : Mapping)
    (notice : List String) : Prop where
  listed : ∀ key : OwnedKey, key.Discarded os fields config → ∃ name ∈ notice, key.name = some name
  discarded : ∀ name ∈ notice, ∃ key : OwnedKey, key.Discarded os fields config ∧
    key.name = some name
  once : notice.Nodup

/-- A tunnel with tags around it has none of the captured values, and a key below `dns` that has
been moved is a text. -/
structure Noticeable (fields : AuthoritativeFields) (config : Mapping) : Prop where
  tun : ∀ key ∈ OrderedMap.keys fields.tun,
    sameValue (subvalue config "tun" key) (get fields.tun key) = true →
      ∃ entries, config.get "tun" = some (.mapping entries)
  dns : ∀ key ∈ OrderedMap.keys fields.dns,
    sameValue (subvalue config "dns" key) (get fields.dns key) = false →
      ∃ name, key = .string name

theorem wellFormed_fieldMapping {config map : Mapping} (wellFormed : config.WellFormed)
    {field : String} (is_ : fieldMapping config field = some map) : map.WellFormed := by
  obtain ⟨value, found, reads⟩ := Option.bind_eq_some_iff.mp is_
  exact Mapping.wellFormed_of_asMapping (Mapping.wellFormed_of_get wellFormed found) reads

theorem wellFormed_subvalue {config : Mapping} (wellFormed : config.WellFormed) (field : String)
    (key : Value) : ∀ value ∈ subvalue config field key, value.WellFormed := by
  intro value found
  obtain ⟨map, is_, reads⟩ := Option.bind_eq_some_iff.mp found
  exact Mapping.wellFormed_of_get (wellFormed_fieldMapping wellFormed is_) reads

/-- What the notice reads below `tun`. -/
def plainSubvalue (config : Mapping) (key : Value) : Option Value :=
  match config.get "tun" with
  | some (.mapping tun) => get tun key
  | _ => none

theorem get_snapshotTun_plain (config : Mapping) (keys : List Value) {key : Value}
    (listed : key ∈ keys) :
    get (snapshotTun config keys) key = plainSubvalue config key := by
  unfold snapshotTun plainSubvalue
  generalize config.get "tun" = found
  cases found with
  | none => rfl
  | some value =>
    cases value with
    | mapping tun => exact (get_snapshot tun keys key).trans (if_pos listed)
    | _ => rfl

theorem plainSubvalue_eq (config : Mapping) (key : Value) :
    (∃ entries, config.get "tun" = some (.mapping entries)) ∧
        plainSubvalue config key = subvalue config "tun" key ∨
      (∀ entries, config.get "tun" ≠ some (.mapping entries)) ∧
        plainSubvalue config key = none := by
  unfold plainSubvalue
  split
  · rename_i entries found
    refine .inl ⟨⟨entries, found⟩, ?_⟩
    simp [subvalue, fieldMapping, found]
  · rename_i other
    exact .inr ⟨other, rfl⟩

namespace OwnedKey

def seen (config : Mapping) : OwnedKey → Option Value
  | tun key => plainSubvalue config key
  | key => key.value config

def own (fields : AuthoritativeFields) : OwnedKey → Option Value
  | controlPlane key => fields.controlPlane.get key
  | tun key => get fields.tun key
  | dns key => get fields.dns key
  | hosts => fields.hosts

/-- How the notice writes the key. -/
def shown : OwnedKey → String
  | controlPlane key => key
  | tun key => subkeyName "tun" key
  | dns key => subkeyName "dns" key
  | hosts => "hosts"

end OwnedKey

namespace AuthoritativeFields

def noticed (os : Os) (fields : AuthoritativeFields) (config : Mapping) : List OwnedKey :=
  ((controlPlaneKeys os).map OwnedKey.controlPlane ++
      (OrderedMap.keys fields.tun).map OwnedKey.tun ++
      (OrderedMap.keys fields.dns).map OwnedKey.dns ++
      if fields.hosts.isSome then [OwnedKey.hosts] else []).filter fun key =>
    !sameValue (key.seen config) (key.own fields)

/-- What is captured from well-formed mappings: proper, with well-formed values, and texts as the
keys of the tunnel. -/
structure Captured (os : Os) (fields : AuthoritativeFields) : Prop extends Proper os fields where
  values : ∀ key : OwnedKey, ∀ value ∈ key.own fields, value.WellFormed
  texts : ∀ key ∈ OrderedMap.keys fields.tun, ∃ name, key = .string name

end AuthoritativeFields

theorem mem_keys_snapshot {config : Mapping} {keys : List Value} {key : Value}
    (listed : key ∈ OrderedMap.keys (snapshot config keys)) : key ∈ keys := by
  by_contra outside
  have absent := get_snapshot config keys key
  rw [if_neg outside, get_eq_none_iff] at absent
  exact absent listed

theorem guiTunKeys_texts (os : Os) (clashConfig : Mapping) :
    ∀ key ∈ guiTunKeys os clashConfig, ∃ name, key = .string name := by
  intro key listed
  unfold guiTunKeys at listed
  obtain rfl | listed := List.mem_cons.mp listed
  · exact ⟨"enable", rfl⟩
  · split at listed
    · obtain ⟨name, _, same⟩ := List.mem_map.mp listed
      exact ⟨name, same.symm⟩
    · contradiction

namespace AuthoritativeFields

theorem capture_captured (os : Os) {config : Mapping} (clashConfig : Mapping)
    {dnsSettings : Mapping} (wellFormed : config.WellFormed) (wellFormedDns : dnsSettings.WellFormed) :
    (capture os config (guiTunKeys os clashConfig) dnsSettings).Captured os where
  toProper := capture_proper os config _ fun _ is_ => (wellFormed_fieldMapping wellFormedDns is_).1
  values key value found := by
    cases key with
    | controlPlane key =>
      have found : get (snapshotControlPlane os config) (.string key) = some value :=
        found
      rw [snapshotControlPlane, get_snapshot] at found
      split at found
      · exact Mapping.wellFormed_of_get wellFormed found
      · contradiction
    | tun key =>
      have found : get (snapshotTun config (guiTunKeys os clashConfig)) key =
        some value := found
      unfold snapshotTun at found
      split at found
      · rename_i tun is_
        have inside : Value.WellFormed (.mapping tun) := Mapping.wellFormed_of_get wellFormed is_
        rw [get_snapshot] at found
        split at found
        · exact Mapping.wellFormed_of_get inside found
        · contradiction
      · contradiction
    | dns key =>
      have found : get (takeMapping dnsSettings "dns") key = some value := found
      rw [get_takeMapping] at found
      exact wellFormed_subvalue wellFormedDns "dns" key value found
    | hosts => exact Mapping.wellFormed_of_get wellFormedDns found
  texts key listed := by
    have listed : key ∈ OrderedMap.keys (snapshotTun config (guiTunKeys os clashConfig)) := listed
    unfold snapshotTun at listed
    split at listed
    · exact guiTunKeys_texts os clashConfig key (mem_keys_snapshot listed)
    · contradiction

variable {os : Os} {fields : AuthoritativeFields} {config : Mapping}

theorem value_enforce (captured : fields.Captured os) (distinct : Distinct config)
    {key : OwnedKey} (owned : key.Owned os fields) :
    key.value (fields.enforce os config) = key.own fields := by
  have held {entries : Mapping} {key : Value} (listed : key ∈ OrderedMap.keys entries)
      (other : Option Value) : (get entries key).or other =
        get entries key := by
    cases found : get entries key with
    | none => exact absurd listed ((get_eq_none_iff _ _).mp found)
    | some value => rfl
  cases key with
  | controlPlane key => exact get_enforce_controlPlane captured.toProperPlane distinct owned
  | tun key => exact (subvalue_enforce_tun captured.toProper distinct key).trans (held owned _)
  | dns key => exact (subvalue_enforce_dns captured.toProper distinct key).trans (held owned _)
  | hosts =>
    obtain ⟨hosts, is_⟩ := Option.isSome_iff_exists.mp owned
    exact (get_enforce_hosts is_).trans is_.symm

theorem discarded_iff (captured : fields.Captured os) (distinct : Distinct config)
    (key : OwnedKey) : key.Discarded os fields config ↔
      key.Owned os fields ∧ sameValue (key.value config) (key.own fields) = false :=
  and_congr_right fun owned => by rw [value_enforce captured distinct owned]

theorem mem_noticed (key : OwnedKey) : key ∈ fields.noticed os config ↔
    key.Owned os fields ∧ sameValue (key.seen config) (key.own fields) = false := by
  unfold noticed
  rw [List.mem_filter]
  cases key <;> cases is_ : fields.hosts <;> simp [OwnedKey.Owned, is_]

theorem wellFormed_seen (wellFormed : config.WellFormed) (key : OwnedKey) :
    ∀ value ∈ key.seen config, value.WellFormed := by
  cases key with
  | controlPlane key | hosts => exact fun _ found => Mapping.wellFormed_of_get wellFormed found
  | tun key =>
    obtain ⟨_, same⟩ | ⟨_, none_⟩ := plainSubvalue_eq config key
    · exact fun value found => wellFormed_subvalue wellFormed "tun" key value (same ▸ found)
    · exact fun value found => absurd (none_.symm.trans found) (by simp)
  | dns key => exact wellFormed_subvalue wellFormed "dns" key

theorem moved_own (captured : fields.Captured os) (wellFormed : config.WellFormed)
    (key : OwnedKey) : moved (key.own fields) (key.seen config) (key.own fields) =
      !sameValue (key.seen config) (key.own fields) := by
  rw [moved, sameValue_comm (captured.values key) (wellFormed_seen wellFormed key), Bool.and_self]

theorem notice_eq (captured : fields.Captured os) (wellFormed : config.WellFormed) :
    fields.notice os config = (fields.noticed os config).map OwnedKey.shown := by
  have reads := moved_own captured wellFormed
  have plane : ∀ key ∈ controlPlaneKeys os,
      (fields.current os config).controlPlane.get key = config.get key := by
    intro key listed
    exact (get_snapshot config _ _).trans (if_pos (List.mem_map_of_mem listed))
  have tun : ∀ key ∈ OrderedMap.keys fields.tun,
      get (fields.current os config).tun key = plainSubvalue config key :=
    fun key listed => get_snapshotTun_plain config _ listed
  have dns : ∀ key ∈ OrderedMap.keys fields.dns,
      get (fields.current os config).dns key = subvalue config "dns" key := by
    intro key listed
    refine (get_snapshot (takeMapping config "dns") _ key).trans ((if_pos listed).trans ?_)
    exact get_takeMapping config "dns" key
  have hosts : (if fields.hosts.isSome && moved fields.hosts (fields.current os config).hosts
      fields.hosts then ["hosts"] else []) =
        ((if fields.hosts.isSome then [OwnedKey.hosts] else []).filter fun key =>
          !sameValue (key.seen config) (key.own fields)).map OwnedKey.shown := by
    have read := reads .hosts
    cases is_ : fields.hosts with
    | none => rfl
    | some hosts =>
      have now : (fields.current os config).hosts = OwnedKey.hosts.seen config := by
        rw [current, is_]
        rfl
      have own : OwnedKey.hosts.own fields = some hosts := is_
      rw [own] at read
      rw [now, read]
      cases same : sameValue (OwnedKey.hosts.seen config) (some hosts) <;>
        simp [own, same, OwnedKey.shown]
  rw [notice, overridden, hosts, noticed, List.filter_append, List.filter_append, List.filter_append,
    List.map_append, List.map_append, List.map_append, List.filter_map, List.filter_map,
    List.filter_map, List.map_map, List.map_map, List.map_map]
  refine congrArg₂ (· ++ ·) (congrArg₂ (· ++ ·) (congrArg₂ (· ++ ·) ?_ ?_) ?_) rfl
  · refine (List.filter_congr fun key listed => ?_).trans (List.map_id _).symm
    rw [plane key listed]
    exact reads (.controlPlane key)
  · refine congrArg (List.map _) (List.filter_congr fun key listed => ?_)
    rw [tun key listed]
    exact reads (.tun key)
  · refine congrArg (List.map _) (List.filter_congr fun key listed => ?_)
    rw [dns key listed]
    exact reads (.dns key)

end AuthoritativeFields

namespace OwnedKey

theorem control_plane_names (os : Os) :
    ∀ key ∈ controlPlaneKeys os, key ≠ "hosts" ∧ '.' ∉ key.toList := by
  cases os <;> decide +kernel

theorem name_cases {key : OwnedKey} {name : String} (named : key.name = some name) :
    key = .controlPlane name ∨ (∃ own, key = .tun (.string own) ∧ name = "tun." ++ own) ∨
      (∃ own, key = .dns (.string own) ∧ name = "dns." ++ own) ∨ key = .hosts ∧ name = "hosts" := by
  cases key with
  | controlPlane key => exact .inl (congrArg _ (Option.some.inj named))
  | hosts => exact .inr (.inr (.inr ⟨rfl, (Option.some.inj named).symm⟩))
  | tun key =>
    cases key with
    | string own => exact .inr (.inl ⟨own, rfl, (Option.some.inj named).symm⟩)
    | _ => cases named
  | dns key =>
    cases key with
    | string own => exact .inr (.inr (.inl ⟨own, rfl, (Option.some.inj named).symm⟩))
    | _ => cases named

theorem undotted {os : Os} {fields : AuthoritativeFields} {name : String}
    (owned : (controlPlane name).Owned os fields) (field own : String)
    (dotted : '.' ∈ field.toList) : name ≠ field ++ own := by
  rintro rfl
  exact (control_plane_names os _ owned).2 (by simp [dotted])

theorem name_injective {os : Os} {fields : AuthoritativeFields} {one other : OwnedKey}
    {name : String} (owned : one.Owned os fields) (ownedToo : other.Owned os fields)
    (named : one.name = some name) (namedToo : other.name = some name) : one = other := by
  obtain rfl | ⟨own, rfl, rfl⟩ | ⟨own, rfl, rfl⟩ | ⟨rfl, rfl⟩ := name_cases named
  · obtain rfl | ⟨own, rfl, rfl⟩ | ⟨own, rfl, rfl⟩ | ⟨rfl, rfl⟩ := name_cases namedToo
    · rfl
    · exact absurd rfl (undotted owned "tun." own (by decide))
    · exact absurd rfl (undotted owned "dns." own (by decide))
    · exact absurd rfl (control_plane_names os _ owned).1
  · obtain rfl | ⟨own', rfl, same⟩ | ⟨own', rfl, same⟩ | ⟨rfl, same⟩ := name_cases namedToo
    · exact absurd rfl (undotted ownedToo "tun." own (by decide))
    · have texts := congrArg String.toList same
      rw [String.toList_append, String.toList_append, List.append_cancel_left_eq] at texts
      rw [String.toList_inj.mp texts]
    · exact absurd (congrArg String.toList same) (by simp)
    · exact absurd (congrArg String.toList same) (by simp)
  · obtain rfl | ⟨own', rfl, same⟩ | ⟨own', rfl, same⟩ | ⟨rfl, same⟩ := name_cases namedToo
    · exact absurd rfl (undotted ownedToo "dns." own (by decide))
    · exact absurd (congrArg String.toList same) (by simp)
    · have texts := congrArg String.toList same
      rw [String.toList_append, String.toList_append, List.append_cancel_left_eq] at texts
      rw [String.toList_inj.mp texts]
    · exact absurd (congrArg String.toList same) (by simp)
  · obtain rfl | ⟨own', rfl, same⟩ | ⟨own', rfl, same⟩ | ⟨rfl, same⟩ := name_cases namedToo
    · exact absurd rfl (control_plane_names os _ ownedToo).1
    · exact absurd (congrArg String.toList same) (by simp)
    · exact absurd (congrArg String.toList same) (by simp)
    · rfl

end OwnedKey

namespace AuthoritativeFields

variable {os : Os} {fields : AuthoritativeFields} {config : Mapping}

theorem distinct_noticed (captured : fields.Captured os) : (fields.noticed os config).Nodup := by
  have plane : (controlPlaneKeys os).Nodup := by cases os <;> decide +kernel
  have apart (one other : List OwnedKey) (here : one.Nodup) (there : other.Nodup)
      (disjoint : ∀ key ∈ one, key ∉ other) : (one ++ other).Nodup :=
    List.nodup_append.mpr ⟨here, there, fun key listed _ listedToo same =>
      disjoint key listed (same ▸ listedToo)⟩
  refine (apart _ _ (apart _ _ (apart _ _ ?_ ?_ ?_) ?_ ?_) ?_ ?_).filter _
  · exact plane.map fun _ _ same => OwnedKey.controlPlane.inj same
  · exact captured.toProper.tun.map fun _ _ same => OwnedKey.tun.inj same
  · simp
  · exact captured.toProper.dns.map fun _ _ same => OwnedKey.dns.inj same
  · intro key listed
    rcases List.mem_append.mp listed with listed | listed
    all_goals
      obtain ⟨_, _, rfl⟩ := List.mem_map.mp listed
      simp
  · split <;> simp
  · intro key listed others
    obtain rfl : key = .hosts := by
      split at others
      · exact List.mem_singleton.mp others
      · contradiction
    simp at listed

theorem owned_tun {key : Value} (listed : key ∈ OrderedMap.keys fields.tun) :
    ∃ value, get fields.tun key = some value := by
  cases found : get fields.tun key with
  | none => exact absurd listed ((get_eq_none_iff _ _).mp found)
  | some value => exact ⟨value, rfl⟩

theorem noticed_of_not_plain {key : Value} (listed : key ∈ OrderedMap.keys fields.tun)
    (unseen : plainSubvalue config key = none) : .tun key ∈ fields.noticed os config := by
  obtain ⟨value, own⟩ := owned_tun listed
  refine (mem_noticed _).mpr ⟨listed, ?_⟩
  rw [OwnedKey.seen, OwnedKey.own, unseen, own]
  rfl

section

variable (captured : fields.Captured os)
include captured

theorem noticed_iff (distinct : Distinct config)
    (noticeable : Noticeable fields config) (key : OwnedKey) :
    key ∈ fields.noticed os config ↔ key.Discarded os fields config := by
  rw [discarded_iff captured distinct, mem_noticed]
  refine and_congr_right fun owned => ?_
  cases key with
  | tun key =>
    obtain ⟨_, same⟩ | ⟨tagged, unseen⟩ := plainSubvalue_eq config key
    · rw [OwnedKey.seen, same, OwnedKey.value]
    · have listed : .tun key ∈ fields.noticed os config := noticed_of_not_plain owned unseen
      refine iff_of_true ((mem_noticed _).mp listed).2 (Bool.eq_false_iff.mpr fun restored => ?_)
      obtain ⟨entries, plain⟩ := noticeable.tun key owned restored
      exact tagged entries plain
  | _ => exact Iff.rfl

theorem name_of_discarded (distinct : Distinct config)
    (noticeable : Noticeable fields config) {key : OwnedKey}
    (discarded : key.Discarded os fields config) : key.name = some key.shown := by
  obtain ⟨owned, differs⟩ := (discarded_iff captured distinct key).mp discarded
  cases key with
  | tun key =>
    obtain ⟨name, rfl⟩ := captured.texts key owned
    rfl
  | dns key =>
    obtain ⟨name, rfl⟩ := noticeable.dns key owned differs
    rfl
  | _ => rfl

theorem exactNotice_of_noticeable (wellFormed : config.WellFormed)
    (noticeable : Noticeable fields config) :
    ExactNotice os fields config (fields.notice os config) := by
  have same := noticed_iff captured wellFormed.1 noticeable
  have named {key : OwnedKey} (discarded : key.Discarded os fields config) :=
    name_of_discarded captured wellFormed.1 noticeable discarded
  rw [notice_eq captured wellFormed]
  constructor
  · intro key discarded
    exact ⟨key.shown, List.mem_map_of_mem ((same key).mpr discarded), named discarded⟩
  · intro name listed
    obtain ⟨key, noticed, rfl⟩ := List.mem_map.mp listed
    exact ⟨key, (same key).mp noticed, named ((same key).mp noticed)⟩
  · refine List.Nodup.map_on ?_ (distinct_noticed captured)
    intro one noticed other noticedToo shown
    have discarded := (same one).mp noticed
    have discardedToo := (same other).mp noticedToo
    exact OwnedKey.name_injective discarded.1 discardedToo.1 (named discarded)
      ((named discardedToo).trans (congrArg some shown.symm))

theorem noticeable_of_exactNotice (wellFormed : config.WellFormed)
    (exact_ : ExactNotice os fields config (fields.notice os config)) :
    Noticeable fields config := by
  constructor
  · intro key owned restored
    obtain ⟨plain, _⟩ | ⟨_, unseen⟩ := plainSubvalue_eq config key
    · exact plain
    · obtain ⟨text, rfl⟩ := captured.texts key owned
      have listed : (OwnedKey.tun (.string text)).shown ∈ fields.notice os config := by
        rw [notice_eq captured wellFormed]
        exact List.mem_map_of_mem (noticed_of_not_plain owned unseen)
      obtain ⟨other, discarded, named⟩ := exact_.discarded _ listed
      have owns : (OwnedKey.tun (.string text)).Owned os fields := owned
      obtain rfl := OwnedKey.name_injective owns discarded.1 rfl named
      have differs := ((discarded_iff captured wellFormed.1 _).mp discarded).2
      exact absurd (restored.symm.trans differs) (by decide)
  · intro key owned differs
    have discarded := (discarded_iff captured wellFormed.1 (.dns key)).mpr ⟨owned, differs⟩
    obtain ⟨_, _, named⟩ := exact_.listed _ discarded
    obtain named | ⟨_, named, _⟩ | ⟨text, named, _⟩ | ⟨named, _⟩ := OwnedKey.name_cases named
    · cases named
    · cases named
    · exact ⟨text, OwnedKey.dns.inj named⟩
    · cases named

end

/-- The notice lists exactly what enforcing discards if and only if no tunnel with tags around it
holds a captured value, and all keys that are moved below `dns` are texts. -/
theorem notice_exact_iff (os : Os) {captured clashConfig dnsSettings config : Mapping}
    (wellFormed : captured.WellFormed) (wellFormedDns : dnsSettings.WellFormed)
    (wellFormedToo : config.WellFormed) :
    let fields := capture os captured (guiTunKeys os clashConfig) dnsSettings
    ExactNotice os fields config (fields.notice os config) ↔ Noticeable fields config := by
  have is_captured := capture_captured os clashConfig wellFormed wellFormedDns
  constructor
  · exact noticeable_of_exactNotice is_captured wellFormedToo
  · exact exactNotice_of_noticeable is_captured wellFormedToo

theorem wellFormed_tun (enable : Bool) :
    Value.WellFormed (.mapping [(.string "enable", .bool enable)]) := by
  simp [Value.WellFormed, Value.WellFormedEntries, Distinct, OrderedMap.keys]

/-- A merge that changes the mode and switches the tunnel off. -/
theorem notice_exact_mode :
    let captured : Mapping := [(.string "mode", .string "rule"),
      (.string "tun", .mapping [(.string "enable", .bool true)])]
    let config : Mapping := [(.string "mode", .string "direct"),
      (.string "tun", .mapping [(.string "enable", .bool false)])]
    let fields := capture .linux captured (guiTunKeys .linux []) []
    fields.notice .linux config = ["mode", "tun.enable"] ∧
      ExactNotice .linux fields config (fields.notice .linux config) := by
  have wellFormed (mode : String) (enable : Bool) : Mapping.WellFormed
      [(.string "mode", .string mode),
        (.string "tun", .mapping [(.string "enable", .bool enable)])] := by
    refine ⟨?_, trivial, trivial, trivial, wellFormed_tun enable, trivial⟩
    simp [Distinct, OrderedMap.keys]
  constructor
  · decide +kernel
  · refine (notice_exact_iff .linux (wellFormed "rule" true) ?_ (wellFormed "direct" false)).mpr ?_
    · exact ⟨List.nodup_nil, trivial⟩
    · constructor
      · intro _ _ _
        exact ⟨_, rfl⟩
      · exact fun key listed _ => absurd listed List.not_mem_nil

/-- A merge that writes the tunnel with a tag, and with the app's own value in it. Nothing of it is
discarded, but the notice says that the switch is. -/
theorem notice_not_exact :
    let captured : Mapping := [(.string "tun", .mapping [(.string "enable", .bool true)])]
    let config : Mapping :=
      [(.string "tun", .tagged "!own" (.mapping [(.string "enable", .bool true)]))]
    let fields := capture .linux captured (guiTunKeys .linux []) []
    fields.notice .linux config = ["tun.enable"] ∧
      subvalue (fields.enforce .linux config) "tun" (.string "enable") =
        subvalue config "tun" (.string "enable") ∧
      ¬ ExactNotice .linux fields config (fields.notice .linux config) := by
  have wellFormed (value : Value) (inside : value.WellFormed) :
      Mapping.WellFormed [(.string "tun", value)] :=
    ⟨List.nodup_singleton _, trivial, inside, trivial⟩
  refine ⟨by decide +kernel, by decide +kernel, fun exact_ => ?_⟩
  have is_captured := capture_captured .linux [] (wellFormed _ (wellFormed_tun true))
    (show Mapping.WellFormed [] from ⟨List.nodup_nil, trivial⟩)
  have tagged : Value.WellFormed
      (.tagged "!own" (.mapping [(.string "enable", .bool true)])) := wellFormed_tun true
  have noticeable := noticeable_of_exactNotice is_captured (wellFormed _ tagged) exact_
  obtain ⟨entries, plain⟩ := noticeable.tun (.string "enable") (by decide +kernel)
    (by decide +kernel)
  cases plain

end AuthoritativeFields

end ClashVerge.Enhance
