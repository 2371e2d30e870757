import ClashVerge.Enhance.Stages
import Mathlib.Data.Set.Finite.Basic

/-!
# What a profile can choose over the app

Which keys of the control plane a profile can set although the app's configuration has them. Where
no builtin script runs it can set none: the app's value is merged in last, captured, and enforced.

Where one runs, the keys are lowercased before the capture and the last of several keys that become
the same wins. A key the profile brings keeps its place, so a profile that has the app's keys first,
and after them a key that only lowercases to one of them, decides its value.
-/

namespace ClashVerge.Enhance

open ClashVerge.Verge ClashVerge.Yaml
open OrderedMap (Distinct get_insert_other get_remove keys_append keys_cons remove_of_get)

/-- A builtin script runs, after the keys are lowercased. -/
def ConfigValues.RunsBuiltins (values : ConfigValues) : Prop :=
  values.enableBuiltin = true ∧
    ∀ core, values.clashCore = some core → core = "verge-mihomo" ∨ core = "verge-mihomo-alpha"

theorem runsBuiltins_iff (values : ConfigValues) : values.RunsBuiltins ↔
      (values.enableBuiltin && !(supportedBuiltins values).isEmpty) = true := by
  rw [ConfigValues.RunsBuiltins, Bool.and_eq_true]
  refine and_congr_right fun _ => ?_
  cases core : values.clashCore with
  | none => simp [supportedBuiltins, builtin, ChainSupport.isSupport, core]
  | some core' =>
    by_cases stable : core' = "verge-mihomo"
    · simp [supportedBuiltins, builtin, ChainSupport.isSupport, core, stable]
    · by_cases alpha : core' = "verge-mihomo-alpha"
      · simp [supportedBuiltins, builtin, ChainSupport.isSupport, core, alpha]
      · simp [supportedBuiltins, builtin, ChainSupport.isSupport, core, stable, alpha]

/-- Two profiles get the same value for each key of the control plane that the app's configuration
has. -/
def Noninterfering (os : Os) (engine : ScriptEngine)
    (digest : String → Mapping → Except String String) (values : ConfigValues)
    (dnsConfig : Option Mapping) : Prop :=
  ∀ (uid uid' : String) (settings settings' : ProfileDnsSettings) (items items' : ProfileItems)
    (config config' : Mapping),
    enhance os engine digest values dnsConfig uid settings items = .ok config →
    enhance os engine digest values dnsConfig uid' settings' items' = .ok config' →
    ∀ key ∈ controlPlaneKeys os, values.clashConfig.containsKey key = true →
      config.get key = config'.get key

section

variable {os : Os} {key : String}

theorem control_plane_ne (owned : key ∈ controlPlaneKeys os) (field : String)
    (listed : field ∈ ["tun", "dns", "hosts", "rules", "proxies", "proxy-groups",
      "bind-address"]) : key ≠ field := by
  have outside : ∀ field ∈ ["tun", "dns", "hosts", "rules", "proxies", "proxy-groups",
      "bind-address"], field ∉ controlPlaneKeys os := by
    cases os <;> decide
  rintro rfl
  exact outside key listed owned

theorem get_insert_ne (config : Mapping) {field : String} (value : Value) (different : key ≠ field) :
    (config.insert (.string field) value).get key = config.get key :=
  get_insert_other _ _ (by simpa using different)

theorem get_useTun (config : Mapping) (enable : Bool) (owned : key ∈ controlPlaneKeys os) :
    (useTun config enable).get key = config.get key := by
  rw [useTun, get_insert_ne _ _ (control_plane_ne owned "tun" (by simp))]
  split
  · exact get_insert_ne _ _ (control_plane_ne owned "dns" (by simp))
  · rfl

theorem get_applyDnsSettings (config : Mapping) (enabled : Bool) (dnsConfig : Option Mapping)
    (owned : key ∈ controlPlaneKeys os) :
    (applyDnsSettings config enabled dnsConfig).1.get key = config.get key := by
  unfold applyDnsSettings
  split
  · rename_i dnsConfig
    simp only [mergeDnsConfig]
    cases hostsOverride dnsConfig with
    | none =>
      cases dnsOverride dnsConfig with
      | none => rfl
      | some settings => exact get_insert_ne _ _ (control_plane_ne owned "dns" (by simp))
    | some hosts =>
      have written := get_insert_ne config (.mapping hosts)
        (control_plane_ne owned "hosts" (by simp))
      cases dnsOverride dnsConfig with
      | none => exact written
      | some settings =>
        exact (get_insert_ne _ _ (control_plane_ne owned "dns" (by simp))).trans written
  · rfl

/-- Merging an entry has the same effect on a key of the control plane in every configuration, and
merging the key itself settles its value. -/
theorem mergeEntry_agree (values : ConfigValues) {one other : Mapping}
    (distinct : Distinct one) (distinct' : Distinct other) (entry value : Value)
    (owned : key ∈ controlPlaneKeys os)
    (agree : one.get key = other.get key ∨ entry = .string key) :
    (mergeEntry os values one entry value).get key =
      (mergeEntry os values other entry value).get key := by
  have removed : ∀ field, entry.asStr = some field →
      (one.remove field).get key = (other.remove field).get key := by
    intro field named
    rw [Mapping.get, Mapping.get, Mapping.remove, Mapping.remove, get_remove distinct,
      get_remove distinct']
    split
    · rfl
    · rename_i different
      refine agree.resolve_right ?_
      rintro rfl
      exact different (congrArg Value.string (Option.some.inj named))
  have kept : ∀ field, entry.asStr = some field → field ∉ controlPlaneKeys os →
      one.get key = other.get key := by
    intro field named outside
    refine agree.resolve_right ?_
    rintro rfl
    obtain rfl : key = field := Option.some.inj named
    exact outside owned
  unfold mergeEntry
  split_ifs with tun socks port redir redirOff tproxy
  · have different := control_plane_ne owned "tun" (by simp)
    rw [get_insert_ne _ _ different, get_insert_ne _ _ different]
    exact kept "tun" tun (by cases os <;> decide)
  · exact removed _ socks.1
  · exact removed _ port.1
  · exact kept "redir-port" redir.1 (by rw [redir.2]; decide)
  · exact removed _ redirOff.1
  · exact removed _ tproxy.1
  · rw [Mapping.get, Mapping.get, Mapping.insert, Mapping.insert, OrderedMap.get_insert,
      OrderedMap.get_insert]
    split
    · rfl
    · rename_i different
      exact agree.resolve_right (Ne.symm different)

end

theorem mergeEntries_agree {os : Os} {key : String} (values : ConfigValues)
    (owned : key ∈ controlPlaneKeys os) (entries : Mapping) {one other : Mapping}
    (distinct : Distinct one) (distinct' : Distinct other)
    (agree : one.get key = other.get key ∨ .string key ∈ OrderedMap.keys entries) :
    Mapping.get (entries.foldl (fun config entry => mergeEntry os values config entry.1 entry.2)
        one) key =
      Mapping.get (entries.foldl (fun config entry => mergeEntry os values config entry.1 entry.2)
        other) key := by
  induction entries generalizing one other with
  | nil => exact agree.resolve_right (by simp)
  | cons entry rest ih =>
    refine ih (mergeEntry_distinct os values distinct entry.1 entry.2)
      (mergeEntry_distinct os values distinct' entry.1 entry.2) ?_
    rw [keys_cons, List.mem_cons] at agree
    by_cases later : .string key ∈ OrderedMap.keys rest
    · exact .inr later
    · refine .inl (mergeEntry_agree values distinct distinct' entry.1 entry.2 owned ?_)
      obtain same | here | absurd := agree
      · exact .inl same
      · exact .inr here.symm
      · exact False.elim (later absurd)

section

variable {os : Os} {engine : ScriptEngine} {digest : String → Mapping → Except String String}
  {values : ConfigValues} {dnsConfig : Option Mapping} {uid : String}
  {settings : ProfileDnsSettings} {items : ProfileItems} {config : Mapping} {key : String}

theorem enhance_captured
    (enhanced : enhance os engine digest values dnsConfig uid settings items = .ok config)
    (owned : key ∈ controlPlaneKeys os) :
    ∃ source, dnsOverrideSource digest uid items.config = .ok source ∧
      config.get key =
        (prepare os values dnsConfig items (settings.overrides source)).1.get key := by
  cases digested : dnsOverrideSource digest uid items.config with
  | error error => simp [enhance, digested, bind, Except.bind] at enhanced
  | ok source =>
    refine ⟨source, rfl, ?_⟩
    simp only [enhance, digested, bind, Except.bind, Except.ok.injEq] at enhanced
    subst enhanced
    have overridden := override_distinct engine items
      (prepare_distinct os values dnsConfig items (settings.overrides source))
    rw [get_finish (AuthoritativeFields.enforce_distinct _ overridden)
        (control_plane_ne owned "bind-address" (by simp))
        (control_plane_ne owned "proxy-groups" (by simp)),
      AuthoritativeFields.get_enforce_controlPlane
        (AuthoritativeFields.capture_properPlane os _ _ _) overridden owned]
    exact (get_snapshot _ _ _).trans (if_pos (List.mem_map_of_mem owned))

theorem noninterfering_of_no_builtins (quiet : ¬ values.RunsBuiltins) :
    Noninterfering os engine digest values dnsConfig := by
  intro uid uid' settings settings' items items' config config' enhanced enhanced' key owned present
  obtain ⟨source, -, captured⟩ := enhance_captured enhanced owned
  obtain ⟨source', -, captured'⟩ := enhance_captured enhanced' owned
  have silent : ∀ config, applyBuiltinScripts values config = config := by
    intro config
    rw [applyBuiltinScripts, if_neg (mt (runsBuiltins_iff values).mpr quiet)]
  have settled := mergeEntries_agree values owned values.clashConfig
    (processSeqItems_distinct items) (processSeqItems_distinct items')
    (.inr ((OrderedMap.contains_iff _ _).mp present))
  rw [captured, captured', prepare, prepare, get_applyDnsSettings _ _ _ owned,
    get_applyDnsSettings _ _ _ owned, get_useTun _ _ owned, get_useTun _ _ owned, silent, silent]
  exact settled

end

/-- The marked entry comes after every settled key, and after it no key lowercases to this one. -/
def Ahead (key : String) (mark : Value × Value) (settled : List Value) (config : Mapping) : Prop :=
  ∃ before after, config = before ++ mark :: after ∧
    (∀ other ∈ settled, other ∈ OrderedMap.keys before) ∧
    ∀ other ∈ OrderedMap.keys after, Lowers key other = false

section

variable {key : String} {mark : Value × Value} {settled : List Value} {config : Mapping}

theorem Ahead.lowercased (ahead : Ahead key mark settled config)
    (lowers : Lowers key mark.1 = true) : (useLowercase config).get key = some mark.2 := by
  obtain ⟨before, after, rfl, -, behind⟩ := ahead
  have none_behind : after.reverse.find? (fun entry => Lowers key entry.1) = none := by
    rw [List.find?_eq_none]
    intro entry listed
    simpa using behind entry.1 (List.mem_map_of_mem (List.mem_reverse.mp listed))
  rw [get_useLowercase, List.reverse_append, List.reverse_cons, List.append_assoc,
    List.find?_append, none_behind]
  simp [lowers]

theorem Ahead.insert (ahead : Ahead key mark settled config) {field : Value} (value : Value)
    (other : field ≠ mark.1) (covered : Lowers key field = true → field ∈ settled) :
    Ahead key mark settled (config.insert field value) := by
  obtain ⟨before, after, rfl, first, behind⟩ := ahead
  rw [Mapping.insert, OrderedMap.insert_append]
  split
  · rename_i listed
    refine ⟨OrderedMap.insert before field value, after, rfl, ?_, behind⟩
    rw [OrderedMap.keys_insert, if_pos listed]
    exact first
  · rename_i unlisted
    refine ⟨before, OrderedMap.insert after field value, ?_, first, ?_⟩
    · rw [OrderedMap.insert, if_neg (Ne.symm other)]
    · have apart : Lowers key field = false := by
        cases lowers : Lowers key field with
        | true => exact absurd (first field (covered lowers)) unlisted
        | false => rfl
      rw [OrderedMap.keys_insert]
      split
      · exact behind
      · intro found member
        obtain earlier | latest := List.mem_append.mp member
        · exact behind found earlier
        · exact List.mem_singleton.mp latest ▸ apart

end

/-- The ports that `merge_default_config` removes. -/
def switchedOff (os : Os) (values : ConfigValues) : List String :=
  (if values.socksEnabled then [] else ["socks-port"]) ++
  (if values.httpEnabled then [] else ["port"]) ++
  (if os = .windows ∨ values.redirEnabled then [] else ["redir-port"]) ++
  (if os = .linux ∧ values.tproxyEnabled then [] else ["tproxy-port"])

section

variable {os : Os} {values : ConfigValues} {key : String}

theorem mem_switchedOff {name : String} (off : name ∈ switchedOff os values) :
    name = "socks-port" ∧ ¬ values.socksEnabled = true ∨ name = "port" ∧ ¬ values.httpEnabled = true ∨
      name = "redir-port" ∧ ¬(os = .windows ∨ values.redirEnabled = true) ∨
      name = "tproxy-port" ∧ ¬(os = .linux ∧ values.tproxyEnabled = true) := by
  have one : ∀ (on : Prop) [Decidable on] (port : String),
      name ∈ (if on then [] else [port]) → name = port ∧ ¬ on := by
    intro on _ port listed
    split at listed
    · simp at listed
    · rename_i off
      exact ⟨List.mem_singleton.mp listed, off⟩
  rw [switchedOff, List.mem_append, List.mem_append, List.mem_append] at off
  obtain ((off | off) | off) | off := off
  · exact .inl (one _ _ off)
  · exact .inr (.inl (one _ _ off))
  · exact .inr (.inr (.inl (one _ _ off)))
  · exact .inr (.inr (.inr (one _ _ off)))

theorem switchedOff_ne {name : String} (off : name ∈ switchedOff os values) (field : String)
    (listed : field ∈ ["tun", "rules", "proxies", "proxy-groups"]) : name ≠ field := by
  have apart : ∀ port ∈ ["socks-port", "port", "redir-port", "tproxy-port"],
      ∀ field ∈ ["tun", "rules", "proxies", "proxy-groups"], port ≠ field := by decide
  obtain ⟨rfl, -⟩ | ⟨rfl, -⟩ | ⟨rfl, -⟩ | ⟨rfl, -⟩ := mem_switchedOff off <;>
    exact apart _ (by simp) field listed

theorem lowers_control_plane (owned : key ∈ controlPlaneKeys os) : Lowers key (.string key) = true ∧
      ∀ field ∈ ["tun", "rules", "proxies", "proxy-groups", "dns"],
        Lowers key (.string field) = false := by
  have lower : ∀ key ∈ controlPlaneKeys os, asciiLowercase key = key := by
    cases os <;> decide
  have others : ∀ field ∈ ["tun", "rules", "proxies", "proxy-groups", "dns"],
      asciiLowercase field = field := by decide
  refine ⟨by simp [Lowers, lower key owned], fun field listed => ?_⟩
  have wider : ∀ field ∈ ["tun", "rules", "proxies", "proxy-groups", "dns"],
      field ∈ ["tun", "dns", "hosts", "rules", "proxies", "proxy-groups", "bind-address"] := by
    decide
  have different : key ≠ field := control_plane_ne owned field (wider field listed)
  simpa [Lowers, others field listed] using Ne.symm different

theorem Ahead.mergeEntry {mark : Value × Value} {settled : List Value} {config : Mapping}
    (ahead : Ahead key mark settled config) (owned : key ∈ controlPlaneKeys os)
    (absent : ∀ name ∈ switchedOff os values, config.get name = none) {field : Value}
    (value : Value) (other : field ≠ mark.1) (tun : Value.string "tun" ≠ mark.1)
    (covered : Lowers key field = true → (∀ name ∈ switchedOff os values, field ≠ .string name) →
      field ∈ settled) :
    Ahead key mark settled (mergeEntry os values config field value) ∧
      ∀ name ∈ switchedOff os values, (mergeEntry os values config field value).get name = none := by
  have removed : ∀ name ∈ switchedOff os values, config.remove name = config :=
    fun name listed => remove_of_get (absent name listed)
  unfold Enhance.mergeEntry
  split_ifs with isTun socks port redir redirOff tproxy
  · refine ⟨ahead.insert _ tun fun lowers => ?_, fun name listed => ?_⟩
    · rw [(lowers_control_plane owned).2 "tun" (by simp)] at lowers
      contradiction
    · rw [get_insert_ne]
      · exact absent name listed
      · exact switchedOff_ne listed "tun" (by simp)
  · have off : ¬ values.socksEnabled = true := by simpa using socks.2
    rw [removed "socks-port" (by simp [switchedOff, off])]
    exact ⟨ahead, absent⟩
  · have off : ¬ values.httpEnabled = true := by simpa using port.2
    rw [removed "port" (by simp [switchedOff, off])]
    exact ⟨ahead, absent⟩
  · exact ⟨ahead, absent⟩
  · have off : ¬(os = .windows ∨ values.redirEnabled = true) := by
      rintro (rfl | on)
      · exact redir ⟨redirOff.1, rfl⟩
      · simp [on] at redirOff
    rw [removed "redir-port" (by simp [switchedOff, off])]
    exact ⟨ahead, absent⟩
  · have off : ¬(os = .linux ∧ values.tproxyEnabled = true) := by
      rintro ⟨rfl, on⟩
      simp [on] at tproxy
    rw [removed "tproxy-port" (by simp [switchedOff, off])]
    exact ⟨ahead, absent⟩
  · have on : ∀ name ∈ switchedOff os values, field ≠ .string name := by
      rintro name listed rfl
      simp only [Value.asStr_string, Option.some.injEq] at socks port redir redirOff tproxy
      obtain ⟨rfl, off⟩ | ⟨rfl, off⟩ | ⟨rfl, off⟩ | ⟨rfl, off⟩ := mem_switchedOff listed
      · exact socks ⟨rfl, by simpa using off⟩
      · exact port ⟨rfl, by simpa using off⟩
      · rw [not_or] at off
        exact redirOff ⟨rfl, by simpa using off.2⟩
      · refine tproxy ⟨rfl, ?_⟩
        by_cases linux : os = .linux
        · exact .inr (by simpa [linux] using off)
        · exact .inl linux
    refine ⟨ahead.insert _ other fun lowers => covered lowers on, fun name listed => ?_⟩
    rw [Mapping.get, Mapping.insert, get_insert_other _ _ (Ne.symm (on name listed))]
    exact absent name listed

theorem Ahead.mergeDefaultConfig {mark : Value × Value} {settled : List Value} {config : Mapping}
    (ahead : Ahead key mark settled config) (owned : key ∈ controlPlaneKeys os)
    (absent : ∀ name ∈ switchedOff os values, config.get name = none)
    (fresh : mark.1 ∉ OrderedMap.keys values.clashConfig) (tun : Value.string "tun" ≠ mark.1)
    (covered : ∀ field ∈ OrderedMap.keys values.clashConfig, Lowers key field = true →
      (∀ name ∈ switchedOff os values, field ≠ .string name) → field ∈ settled) :
    Ahead key mark settled (mergeDefaultConfig os values config) := by
  rw [Enhance.mergeDefaultConfig]
  generalize values.clashConfig = entries at fresh covered
  induction entries generalizing config with
  | nil => exact ahead
  | cons entry rest ih =>
    rw [keys_cons, List.mem_cons, not_or] at fresh
    obtain ⟨kept, absent'⟩ := ahead.mergeEntry owned absent entry.2 (Ne.symm fresh.1) tun
      (covered entry.1 List.mem_cons_self)
    exact ih kept absent' fresh.2
      (fun field listed => covered field (List.mem_cons_of_mem _ listed))

theorem useSeq_empty {config : Mapping} {field : String} (absent : config.get field = none)
    (groups : field = "proxies" → config.get "proxy-groups" = none) :
    useSeq .empty config field = config.insert (.string field) (.sequence []) := by
  have same : config.remove field = config := remove_of_get absent
  simp only [useSeq, SeqMap.empty, absent, same, List.nil_append]
  split
  · rfl
  · rename_i proxies
    obtain rfl : field = "proxies" := by simpa using proxies
    rw [get_insert_ne _ _ (by decide), groups rfl]

end

section

variable (os : Os) (values : ConfigValues) (key tag evil : String)

/-- What a profile has to leave to the app so that nothing is removed. -/
def displaced : List String := switchedOff os values ++ ["rules", "proxies", "proxy-groups", "dns"]

/-- The app's own entries, and after them the key with a tag. -/
def leakConfig : Mapping :=
  values.clashConfig.filter (fun entry => entry.1 ∉ (displaced os values).map Value.string) ++
    [(.tagged tag (.string key), .string evil)]

variable {os values key tag}

theorem leakConfig_distinct
    (fresh : Value.tagged tag (.string key) ∉ OrderedMap.keys values.clashConfig) :
    Distinct (leakConfig os values key tag evil) := by
  have kept : ((values.clashConfig.filter fun entry =>
      entry.1 ∉ (displaced os values).map Value.string).map Prod.fst).Sublist
        (OrderedMap.keys values.clashConfig) := List.filter_sublist.map Prod.fst
  rw [Distinct, leakConfig, keys_append]
  refine List.Nodup.append (values.distinct.sublist kept) (List.nodup_singleton _) ?_
  intro other listed marked
  obtain rfl := List.mem_singleton.mp marked
  exact fresh (kept.subset listed)

variable (os) in
/-- The profile with these entries and nothing else. -/
def leakItems (fresh : Value.tagged tag (.string key) ∉ OrderedMap.keys values.clashConfig) :
    ProfileItems :=
  .plain (leakConfig os values key tag evil) (leakConfig_distinct evil fresh)

theorem leakConfig_absent {name : String} (listed : name ∈ displaced os values) :
    (leakConfig os values key tag evil).get name = none := by
  rw [Mapping.get, OrderedMap.get_eq_none_iff, leakConfig, keys_append, List.mem_append,
    not_or]
  refine ⟨fun member => ?_, by simp⟩
  obtain ⟨entry, kept, same⟩ := List.mem_map.mp member
  have outside := (List.mem_filter.mp kept).2
  rw [same] at outside
  simp [listed] at outside

/-- What the app's entries must settle before the mark. -/
def settledKeys (os : Os) (values : ConfigValues) (key : String) : List Value :=
  (OrderedMap.keys values.clashConfig).filter fun field =>
    Lowers key field ∧ field ∉ (switchedOff os values).map Value.string

theorem leakConfig_ahead (owned : key ∈ controlPlaneKeys os) :
    Ahead key (.tagged tag (.string key), .string evil) (settledKeys os values key)
      (leakConfig os values key tag evil) := by
  refine ⟨_, [], rfl, fun field listed => ?_, by simp⟩
  obtain ⟨member, settled⟩ := List.mem_filter.mp listed
  obtain ⟨entry, present, rfl⟩ := List.mem_map.mp member
  simp only [decide_eq_true_eq] at settled
  refine List.mem_map.mpr ⟨entry, List.mem_filter.mpr ⟨present, ?_⟩, rfl⟩
  rw [decide_eq_true_eq, displaced, List.map_append, List.mem_append, not_or]
  refine ⟨settled.2, fun other => ?_⟩
  obtain ⟨field, among, same⟩ := List.mem_map.mp other
  have apart := (lowers_control_plane owned).2 field (by
    simp only [List.mem_cons, List.not_mem_nil, or_false] at among ⊢
    exact .inr among)
  rw [same, settled.1] at apart
  contradiction

theorem leak_processSeqItems (owned : key ∈ controlPlaneKeys os)
    (fresh : Value.tagged tag (.string key) ∉ OrderedMap.keys values.clashConfig) :
    let items : ProfileItems := leakItems os evil fresh
    Ahead key (.tagged tag (.string key), .string evil) (settledKeys os values key)
        (processSeqItems items.config items) ∧
      ∀ name ∈ switchedOff os values, (processSeqItems items.config items).get name = none := by
  intro items
  have absent : ∀ name ∈ displaced os values, items.config.get name = none :=
    fun name listed => leakConfig_absent evil listed
  have field : ∀ name ∈ ["rules", "proxies", "proxy-groups", "dns"],
      name ∈ displaced os values := fun name listed => List.mem_append_right _ listed
  have rules : useSeq .empty items.config "rules" =
      items.config.insert (.string "rules") (.sequence []) :=
    useSeq_empty (absent "rules" (field _ (by simp))) (by simp)
  have proxies : useSeq .empty (items.config.insert (.string "rules") (.sequence [])) "proxies" =
      (items.config.insert (.string "rules") (.sequence [])).insert (.string "proxies")
        (.sequence []) := by
    refine useSeq_empty ?_ fun _ => ?_
    · rw [get_insert_ne _ _ (by decide), absent "proxies" (field _ (by simp))]
    · rw [get_insert_ne _ _ (by decide), absent "proxy-groups" (field _ (by simp))]
  have groups : useSeq .empty ((items.config.insert (.string "rules") (.sequence [])).insert
      (.string "proxies") (.sequence [])) "proxy-groups" =
      ((items.config.insert (.string "rules") (.sequence [])).insert (.string "proxies")
        (.sequence [])).insert (.string "proxy-groups") (.sequence []) := by
    refine useSeq_empty ?_ (by simp)
    rw [get_insert_ne _ _ (by decide), get_insert_ne _ _ (by decide),
      absent "proxy-groups" (field _ (by simp))]
  have edited : processSeqItems items.config items =
      ((items.config.insert (.string "rules") (.sequence [])).insert (.string "proxies")
        (.sequence [])).insert (.string "proxy-groups") (.sequence []) := by
    rw [← groups, ← proxies, ← rules]
    rfl
  have added : ∀ {config : Mapping}, Ahead key (.tagged tag (.string key), .string evil)
      (settledKeys os values key) config → ∀ name ∈ ["rules", "proxies", "proxy-groups"],
      Ahead key (.tagged tag (.string key), .string evil) (settledKeys os values key)
        (config.insert (.string name) (.sequence [])) := by
    intro config ahead name listed
    refine ahead.insert _ (by simp) fun lowers => ?_
    have apart : Lowers key (.string name) = false := by
      refine (lowers_control_plane owned).2 name ?_
      simp only [List.mem_cons, List.not_mem_nil, or_false] at listed
      obtain rfl | rfl | rfl := listed <;> simp
    rw [apart] at lowers
    contradiction
  rw [edited]
  refine ⟨added (added (added (leakConfig_ahead evil owned) _ (by simp)) _ (by simp)) _ (by simp),
    fun name listed => ?_⟩
  rw [get_insert_ne _ _ (switchedOff_ne listed "proxy-groups" (by simp)),
    get_insert_ne _ _ (switchedOff_ne listed "proxies" (by simp)),
    get_insert_ne _ _ (switchedOff_ne listed "rules" (by simp))]
  exact absent name (List.mem_append_left _ listed)

theorem get_builtins (owned : key ∈ controlPlaneKeys os) (other : evil ≠ "script")
    (scripts : List BuiltinScript) {config : Mapping}
    (held : config.get key = some (.string evil)) :
    (scripts.foldl BuiltinScript.apply config).get key = some (.string evil) := by
  induction scripts generalizing config with
  | nil => exact held
  | cons script rest ih =>
    apply ih
    cases script with
    | hyAlpn =>
      simp only [BuiltinScript.apply, builtinHyAlpn]
      split
      · rw [get_insert_ne _ _ (control_plane_ne owned "proxies" (by simp)), held]
      · exact held
    | metaGuard =>
      simp only [BuiltinScript.apply, builtinMetaGuard]
      split
      · rename_i scripted
        have different : key ≠ "mode" := by
          rintro rfl
          simp [held, other] at scripted
        rw [get_insert_ne _ _ different, held]
      · exact held

theorem leak_enhance (engine : ScriptEngine) (digest : String → Mapping → Except String String)
    (dnsConfig : Option Mapping) (owned : key ∈ controlPlaneKeys os) (runs : values.RunsBuiltins)
    (fresh : Value.tagged tag (.string key) ∉ OrderedMap.keys values.clashConfig)
    (other : evil ≠ "script") :
    ∃ config, enhance os engine digest values dnsConfig "" ⟨false, none⟩
      (leakItems os evil fresh) = .ok config ∧ config.get key = some (.string evil) := by
  have undigested : dnsOverrideSource digest "" (leakItems os evil fresh).config =
      .ok none := by
    have absent : (leakItems os evil fresh).config.get "dns" = none :=
      leakConfig_absent evil (List.mem_append_right _ (by simp))
    simp [dnsOverrideSource, fieldMapping, absent]
  have enhanced : ∃ config, enhance os engine digest values dnsConfig "" ⟨false, none⟩
      (leakItems os evil fresh) = .ok config := by
    rw [enhance, undigested]
    exact ⟨_, rfl⟩
  obtain ⟨config, enhanced⟩ := enhanced
  refine ⟨config, enhanced, ?_⟩
  obtain ⟨source, -, captured⟩ := enhance_captured enhanced owned
  obtain ⟨ahead, absent⟩ := leak_processSeqItems evil owned fresh
  have merged := ahead.mergeDefaultConfig owned absent fresh (by simp) (by
    intro field listed lowers on
    refine List.mem_filter.mpr ⟨listed, ?_⟩
    simp only [lowers, decide_eq_true_eq, true_and, List.mem_map, not_exists, not_and]
    exact fun name off same => on name off same.symm)
  have lowered := merged.lowercased (lowers_control_plane owned).1
  rw [captured, prepare, get_applyDnsSettings _ _ _ owned, get_useTun _ _ owned,
    applyBuiltinScripts, if_pos ((runsBuiltins_iff values).mp runs)]
  exact get_builtins evil owned other _ lowered

end

theorem exists_fresh_tag (config : Mapping) (key : String) :
    ∃ tag, Value.tagged tag (.string key) ∉ OrderedMap.keys config := by
  by_contra taken
  have everywhere : ∀ count : Nat, Value.tagged (.ofList (List.replicate count 'x')) (.string key) ∈
      {value | value ∈ OrderedMap.keys config} :=
    fun count => not_not.mp (not_exists.mp taken _)
  have injective : Function.Injective fun count : Nat =>
      Value.tagged (.ofList (List.replicate count 'x')) (.string key) := by
    intro one other same
    have tags := (Value.tagged.inj same).1
    simpa using congrArg (fun tag => tag.toList.length) tags
  exact Set.infinite_of_injective_forall_mem injective everywhere (List.finite_toSet _)

/-- A profile chooses no key of the control plane that the app's configuration has exactly when no
builtin script runs for the app's settings, or the app's configuration has no such key. -/
theorem noninterfering_iff (os : Os) (engine : ScriptEngine)
    (digest : String → Mapping → Except String String) (values : ConfigValues)
    (dnsConfig : Option Mapping) :
    Noninterfering os engine digest values dnsConfig ↔
      ¬ values.RunsBuiltins ∨
        ∀ key ∈ controlPlaneKeys os, values.clashConfig.containsKey key = false := by
  constructor
  · intro noninterfering
    by_contra exposed
    push Not at exposed
    obtain ⟨runs, key, owned, present⟩ := exposed
    obtain ⟨tag, fresh⟩ := exists_fresh_tag values.clashConfig key
    obtain ⟨one, enhanced, chosen⟩ :=
      leak_enhance "a" engine digest dnsConfig owned runs fresh (by decide)
    obtain ⟨two, enhanced', chosen'⟩ :=
      leak_enhance "b" engine digest dnsConfig owned runs fresh (by decide)
    have same := noninterfering _ _ _ _ _ _ _ _ enhanced enhanced' key owned (by simpa using present)
    simp [chosen, chosen'] at same
  · rintro (quiet | keyless)
    · exact noninterfering_of_no_builtins quiet
    · intro uid uid' settings settings' items items' config config' _ _ key owned present
      simp [keyless key owned] at present

section

def secretValues : ConfigValues where
  clashConfig := [(.string "secret", .string "app")]
  distinct := by unfold Distinct; decide
  clashCore := some "verge-mihomo"
  enableTun := false
  enableBuiltin := true
  socksEnabled := false
  httpEnabled := false
  enableExternalController := false
  redirEnabled := false
  tproxyEnabled := false

def noScripts : ScriptEngine := ⟨fun _ _ _ => none, by simp⟩

/-- A profile that writes the secret twice, the second time with a capital letter, sets it. -/
theorem capital_secret_leaks :
    ¬ Noninterfering .linux noScripts (fun _ _ => .ok "") secretValues none := by
  intro noninterfering
  let twice := ProfileItems.plain
    [(.string "secret", .string "x"), (.string "Secret", .string "profile")]
    (by unfold Distinct; decide)
  let empty := ProfileItems.plain [] OrderedMap.distinct_nil
  obtain ⟨one, enhanced⟩ : ∃ config, enhance .linux noScripts (fun _ _ => .ok "") secretValues none
      "" ⟨false, none⟩ twice = .ok config := ⟨_, rfl⟩
  obtain ⟨other, enhanced'⟩ : ∃ config, enhance .linux noScripts (fun _ _ => .ok "") secretValues
      none "" ⟨false, none⟩ empty = .ok config := ⟨_, rfl⟩
  have owned : "secret" ∈ controlPlaneKeys .linux := by decide
  obtain ⟨_, -, captured⟩ := enhance_captured enhanced owned
  obtain ⟨_, -, captured'⟩ := enhance_captured enhanced' owned
  have leaked : (prepare .linux secretValues none twice false).1.get "secret" =
      some (.string "profile") := by decide
  have kept : (prepare .linux secretValues none empty false).1.get "secret" =
      some (.string "app") := by decide
  have same := noninterfering _ _ _ _ _ _ _ _ enhanced enhanced' "secret" owned (by decide)
  rw [captured.trans leaked, captured'.trans kept] at same
  simp at same

end

end ClashVerge.Enhance
