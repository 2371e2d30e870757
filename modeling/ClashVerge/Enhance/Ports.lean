import ClashVerge.Enhance.Noninterference

/-!
# What a profile leaves of the app's ports

A key of the control plane that the app's configuration has is merged in over the profile, or taken
out where its port is switched off, and stays so to the end of `enhance`. A profile can reach only
the lowercasing in between, with another key that becomes the same in lower case.
-/

namespace ClashVerge.Enhance

open ClashVerge.Verge ClashVerge.Yaml
open OrderedMap (Distinct keys)

/-- No other key of the configuration becomes this one in lower case. -/
def Sole (key : String) (config : Mapping) : Prop :=
  ∀ other ∈ keys config, Lowers key other = true → other = .string key

/-- What `merge_default_config` makes of a key of the app's configuration. -/
def mergedPort (os : Os) (values : ConfigValues) (key : String) (value : Value) : Option Value :=
  if key ∈ switchedOff os values then none else some (mergedValue values (.string key) value)

section

variable {key : String} {config : Mapping}

theorem Sole.insert (sole : Sole key config) {field : Value} (value : Value)
    (allowed : Lowers key field = true → field = .string key) :
    Sole key (config.insert field value) := by
  intro other listed lowers
  rw [Mapping.insert, OrderedMap.keys_insert] at listed
  split at listed
  · exact sole other listed lowers
  · obtain old | new := List.mem_append.mp listed
    · exact sole other old lowers
    · obtain rfl := List.mem_singleton.mp new
      exact allowed lowers

theorem Sole.remove (sole : Sole key config) (distinct : Distinct config)
    (field : String) : Sole key (config.remove field) := by
  intro other listed lowers
  refine sole other ?_ lowers
  rw [← OrderedMap.contains_iff, OrderedMap.contains] at listed ⊢
  rw [Mapping.remove, OrderedMap.get_remove distinct] at listed
  split at listed
  · simp at listed
  · exact listed

theorem Sole.get_useLowercase (sole : Sole key config) (distinct : Distinct config)
    (lowers : Lowers key (.string key) = true) : (useLowercase config).get key = config.get key := by
  have same : ∀ entry ∈ config.reverse, Lowers key entry.1 = decide (entry.1 = .string key) := by
    intro entry listed
    rw [List.mem_reverse] at listed
    cases becomes : Lowers key entry.1 with
    | true =>
      have own : entry.1 = .string key := sole entry.1 (List.mem_map_of_mem listed) becomes
      simp [own]
    | false =>
      have other : entry.1 ≠ .string key := by
        intro own
        rw [own, lowers] at becomes
        contradiction
      simp [other]
  have found : ∀ entries : Mapping,
      (entries.find? fun entry => decide (entry.1 = .string key)).map Prod.snd = entries.get key := by
    intro entries
    induction entries with
    | nil => rfl
    | cons entry rest ih =>
      rw [List.find?_cons, Mapping.get, OrderedMap.get_cons]
      by_cases own : entry.1 = .string key
      · simp [own]
      · simp only [own, decide_false, if_false]
        exact ih
  have agree : (config.reverse.find? fun entry => Lowers key entry.1) =
      config.reverse.find? fun entry => decide (entry.1 = .string key) := by
    revert same
    generalize config.reverse = entries
    intro same
    induction entries with
    | nil => rfl
    | cons entry rest ih =>
      rw [List.find?_cons, List.find?_cons, same entry List.mem_cons_self,
        ih fun later listed => same later (List.mem_cons_of_mem _ listed)]
  rw [Enhance.get_useLowercase, agree, found, Mapping.get, OrderedMap.get_reverse distinct]
  rfl

end

section

variable {os : Os} {values : ConfigValues} {key : String}

theorem field_not_lowers (owned : key ∈ controlPlaneKeys os) (field : String)
    (listed : field ∈ ["tun", "rules", "proxies", "proxy-groups", "dns"]) :
    Lowers key (.string field) = true → Value.string field = .string key := by
  intro lowers
  rw [(lowers_control_plane owned).2 field listed] at lowers
  contradiction

variable {config : Mapping}

theorem Sole.useSeq (sole : Sole key config)
    (distinct : Distinct config) (owned : key ∈ controlPlaneKeys os) (seq : SeqMap)
    (field : String) (listed : field ∈ ["rules", "proxies", "proxy-groups"]) :
    Sole key (Enhance.useSeq seq config field) := by
  have wider : field ∈ ["tun", "rules", "proxies", "proxy-groups", "dns"] := by
    simp only [List.mem_cons, List.not_mem_nil, or_false] at listed ⊢
    tauto
  have edited : ∀ items, Sole key ((config.remove field).insert (.string field) items) :=
    fun items => (sole.remove distinct field).insert _ (field_not_lowers owned field wider)
  have distinct' : ∀ items,
      Distinct ((config.remove field).insert (.string field) items) :=
    fun items => OrderedMap.distinct_insert (OrderedMap.distinct_remove distinct _) _ _
  have groups : ∀ items groups, Sole key ((((config.remove field).insert (.string field)
      items).remove "proxy-groups").insert (.string "proxy-groups") groups) :=
    fun items groups => ((edited items).remove (distinct' items) _).insert _
      (field_not_lowers owned "proxy-groups" (by simp))
  simp only [Enhance.useSeq]
  split
  · exact edited _
  · split
    · exact edited _
    · exact groups _ _
    · exact groups _ _

theorem Sole.useSeqItem (sole : Sole key config)
    (distinct : Distinct config) (owned : key ∈ controlPlaneKeys os)
    (seq : Option SeqMap) (field : String) (listed : field ∈ ["rules", "proxies", "proxy-groups"]) :
    Sole key (Enhance.useSeqItem seq config field) := by
  cases seq with
  | none => exact sole
  | some seq => exact sole.useSeq distinct owned seq field listed

theorem Sole.processSeqItems {items : ProfileItems} (sole : Sole key items.config)
    (owned : key ∈ controlPlaneKeys os) : Sole key (Enhance.processSeqItems items.config items) := by
  have rules := sole.useSeqItem items.distinct owned (rulesOf items.rulesItem) "rules" (by simp)
  have distinct := useSeqItem_distinct (rulesOf items.rulesItem) items.distinct "rules"
  have proxies := rules.useSeqItem distinct owned (proxiesOf items.proxiesItem) "proxies" (by simp)
  exact proxies.useSeqItem (useSeqItem_distinct _ distinct "proxies") owned
    (groupsOf items.groupsItem) "proxy-groups" (by simp)

theorem Sole.mergeEntry (sole : Sole key config)
    (distinct : Distinct config) (owned : key ∈ controlPlaneKeys os) {field : Value}
    (value : Value) (allowed : Lowers key field = true → field = .string key) :
    Sole key (Enhance.mergeEntry os values config field value) := by
  unfold Enhance.mergeEntry
  split_ifs
  · exact sole.insert _ (field_not_lowers owned "tun" (by simp))
  · exact sole.remove distinct _
  · exact sole.remove distinct _
  · exact sole
  · exact sole.remove distinct _
  · exact sole.remove distinct _
  · exact sole.insert _ allowed

theorem Sole.mergeDefaultConfig (sole : Sole key config)
    (distinct : Distinct config) (owned : key ∈ controlPlaneKeys os)
    (app : Sole key values.clashConfig) :
    Sole key (Enhance.mergeDefaultConfig os values config) := by
  rw [Enhance.mergeDefaultConfig]
  generalize values.clashConfig = entries at app
  induction entries generalizing config with
  | nil => exact sole
  | cons entry rest ih =>
    exact ih
      (sole.mergeEntry distinct owned entry.2 (app entry.1 List.mem_cons_self))
      (mergeEntry_distinct os values distinct entry.1 entry.2)
      (fun other listed => app other (List.mem_cons_of_mem _ listed))

theorem linux_of_tproxy (owned : key ∈ controlPlaneKeys os) (same : key = "tproxy-port") :
    os = .linux := by
  subst same
  revert owned
  cases os <;> decide

theorem unix_of_redir (owned : key ∈ controlPlaneKeys os) (same : key = "redir-port") :
    os ≠ .windows := by
  subst same
  rintro rfl
  revert owned
  decide

variable (values) in
theorem mem_switchedOff_iff (owned : key ∈ controlPlaneKeys os) : key ∈ switchedOff os values ↔
      key = "socks-port" ∧ values.socksEnabled = false ∨ key = "port" ∧ values.httpEnabled = false ∨
        key = "redir-port" ∧ values.redirEnabled = false ∨
        key = "tproxy-port" ∧ values.tproxyEnabled = false := by
  constructor
  · intro off
    obtain ⟨same, off⟩ | ⟨same, off⟩ | ⟨same, off⟩ | ⟨same, off⟩ := mem_switchedOff off
    · exact .inl ⟨same, by simpa using off⟩
    · exact .inr (.inl ⟨same, by simpa using off⟩)
    · exact .inr (.inr (.inl ⟨same, by simpa using (not_or.mp off).2⟩))
    · exact .inr (.inr (.inr ⟨same, by simpa [linux_of_tproxy owned same] using off⟩))
  · rintro (⟨rfl, off⟩ | ⟨rfl, off⟩ | ⟨rfl, off⟩ | ⟨rfl, off⟩)
    · simp [switchedOff, off]
    · simp [switchedOff, off]
    · simp [switchedOff, off, unix_of_redir owned rfl]
    · simp [switchedOff, off]

theorem mergeEntry_own (distinct : Distinct config)
    (owned : key ∈ controlPlaneKeys os) (value : Value) :
    (mergeEntry os values config (.string key) value).get key = mergedPort os values key value := by
  have gone : (config.remove key).get key = none := by
    rw [Mapping.get, Mapping.remove, OrderedMap.get_remove distinct, if_pos rfl]
  have off := mem_switchedOff_iff values owned
  unfold mergeEntry mergedPort
  simp only [Value.asStr_string, Option.some.injEq]
  by_cases switched : key ∈ switchedOff os values
  · rw [if_pos switched, if_neg (control_plane_ne owned "tun" (by simp))]
    obtain ⟨rfl, disabled⟩ | ⟨rfl, disabled⟩ | ⟨rfl, disabled⟩ | ⟨rfl, disabled⟩ := off.mp switched
    · simpa [disabled] using gone
    · simpa [disabled] using gone
    · simpa [disabled, unix_of_redir owned rfl] using gone
    · simpa [disabled] using gone
  · have on := mt off.mpr switched
    simp only [not_or, not_and, Bool.not_eq_false] at on
    obtain ⟨socks, port, redir, tproxy⟩ := on
    have windows : ¬(key = "redir-port" ∧ os = .windows) :=
      fun both => unix_of_redir owned both.1 both.2
    rw [if_neg switched, if_neg (control_plane_ne owned "tun" (by simp)),
      if_neg fun off => by simp [socks off.1] at off, if_neg fun off => by simp [port off.1] at off,
      if_neg windows, if_neg fun off => by simp [redir off.1] at off,
      if_neg fun off => by simp [linux_of_tproxy owned off.1, tproxy off.1] at off]
    exact OrderedMap.get_insert_same _ _ _

theorem mergeEntry_other (distinct : Distinct config)
    (owned : key ∈ controlPlaneKeys os) {field : Value} (different : field ≠ .string key)
    (entry value : Value) (settled : config.get key = mergedPort os values key value) :
    (mergeEntry os values config field entry).get key = mergedPort os values key value := by
  have removed : ∀ name, (key = name → key ∈ switchedOff os values) →
      (config.remove name).get key = mergedPort os values key value := by
    intro name off
    rw [Mapping.get, Mapping.remove, OrderedMap.get_remove distinct]
    split
    · rename_i same
      rw [mergedPort, if_pos (off (by simpa using same))]
    · exact settled
  have off := mem_switchedOff_iff values owned
  unfold mergeEntry
  split_ifs with tun socks port redir redirOff tproxy
  · exact (get_insert_ne _ _ (control_plane_ne owned "tun" (by simp))).trans settled
  · exact removed _ fun same => off.mpr (.inl ⟨same, by simpa using socks.2⟩)
  · exact removed _ fun same => off.mpr (.inr (.inl ⟨same, by simpa using port.2⟩))
  · exact settled
  · exact removed _ fun same => off.mpr (.inr (.inr (.inl ⟨same, by simpa using redirOff.2⟩)))
  · exact removed _ fun same =>
      off.mpr (.inr (.inr (.inr ⟨same, by simpa [linux_of_tproxy owned same] using tproxy.2⟩)))
  · rw [Mapping.get, Mapping.insert, OrderedMap.get_insert_other _ _ (Ne.symm different)]
    exact settled

theorem get_mergeDefaultConfig (distinct : Distinct config)
    (owned : key ∈ controlPlaneKeys os) {value : Value}
    (present : values.clashConfig.get key = some value) :
    (mergeDefaultConfig os values config).get key = mergedPort os values key value := by
  have loop : ∀ (entries : Mapping) {config : Mapping}, Distinct config →
      Distinct entries →
      (entries.get key = some value ∨ .string key ∉ keys entries ∧
        config.get key = mergedPort os values key value) →
      Mapping.get (entries.foldl (fun config entry => mergeEntry os values config entry.1 entry.2)
        config) key = mergedPort os values key value := by
    intro entries
    induction entries with
    | nil =>
      rintro config - - (found | ⟨-, settled⟩)
      · simp [Mapping.get] at found
      · exact settled
    | cons entry rest ih =>
      intro config distinct distinctEntries state
      obtain ⟨field, own⟩ := entry
      obtain ⟨fresh, remaining⟩ := OrderedMap.distinct_cons.mp distinctEntries
      rw [List.foldl_cons]
      apply ih (mergeEntry_distinct os values distinct field own) remaining
      by_cases same : field = .string key
      · subst same
        obtain found | ⟨absent, -⟩ := state
        · obtain rfl : own = value := by simpa [Mapping.get, OrderedMap.get] using found
          exact .inr ⟨fresh, mergeEntry_own distinct owned own⟩
        · simp at absent
      · obtain found | ⟨absent, settled⟩ := state
        · exact .inl (by simpa [Mapping.get, OrderedMap.get, same] using found)
        · exact .inr ⟨fun listed => absent (List.mem_cons_of_mem _ listed),
            mergeEntry_other distinct owned same own value settled⟩
  exact loop values.clashConfig distinct values.distinct (.inl present)

theorem get_builtins_other (owned : key ∈ controlPlaneKeys os) (other : key ≠ "mode")
    (scripts : List BuiltinScript) (config : Mapping) :
    Mapping.get (scripts.foldl BuiltinScript.apply config) key = config.get key := by
  induction scripts generalizing config with
  | nil => rfl
  | cons script rest ih =>
    rw [List.foldl_cons, ih]
    cases script with
    | hyAlpn =>
      simp only [BuiltinScript.apply, builtinHyAlpn]
      split
      · exact get_insert_ne _ _ (control_plane_ne owned "proxies" (by simp))
      · rfl
    | metaGuard =>
      simp only [BuiltinScript.apply, builtinMetaGuard]
      split
      · exact get_insert_ne _ _ other
      · rfl

variable {engine : ScriptEngine} {digest : String → Mapping → Except String String}
  {dnsConfig : Option Mapping} {uid : String} {settings : ProfileDnsSettings}
  {items : ProfileItems} {config : Mapping}

/-- A key of the app's configuration that is alone in becoming itself in lower case is in the
generated configuration as it is merged in. -/
theorem enhance_port
    (enhanced : enhance os engine digest values dnsConfig uid settings items = .ok config)
    (owned : key ∈ controlPlaneKeys os) (other : key ≠ "mode") {value : Value}
    (present : values.clashConfig.get key = some value)
    (sole : values.RunsBuiltins → Sole key items.config ∧ Sole key values.clashConfig) :
    config.get key = mergedPort os values key value := by
  obtain ⟨source, -, captured⟩ := enhance_captured enhanced owned
  have items_distinct := processSeqItems_distinct items
  have merged := get_mergeDefaultConfig items_distinct owned present
  have merged_distinct := mergeDefaultConfig_distinct os values items_distinct
  rw [captured, prepare, get_applyDnsSettings _ _ _ owned, get_useTun _ _ owned, applyBuiltinScripts]
  split
  · rename_i runs
    obtain ⟨profile, app⟩ := sole ((runsBuiltins_iff values).mpr runs)
    have merged_sole := (profile.processSeqItems owned).mergeDefaultConfig items_distinct owned app
    rw [get_builtins_other owned other,
      merged_sole.get_useLowercase merged_distinct (lowers_control_plane owned).1]
    exact merged
  · exact merged

end

end ClashVerge.Enhance
