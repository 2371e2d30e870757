import ClashVerge.Feat.Restore

/-!
# The override of a provider's DNS settings

A generation derives from the stored settings of the profile, and from the DNS servers of its
provider, whether its DNS page is in force. The result is stored once the runtime configuration is,
and by then the settings may have been written again. A result that is out of date is kept away from
them; one that is not is a fixed point of the derivation.
-/

namespace ClashVerge.Feat

open ClashVerge.Enhance ClashVerge.Yaml

def DnsOverrideState.new (profileUid : String) (source : Option String) (requested : Bool)
    (confirmation : Option String) : DnsOverrideState where
  profileUid := profileUid
  source := source
  enabled := requested && (source.isNone || source == confirmation)
  requested := requested
  confirmation := confirmation

namespace VergeRecord

variable (record : VergeRecord)

/-- The override that `enhance` derives from the stored settings of a profile. -/
def deriveOverride (profileUid : String) (source : Option String) : DnsOverrideState :=
  let settings := record.dnsSettingsFor profileUid
  .new profileUid source settings.enabled settings.confirmation

/-- The record after `apply_to`. -/
def apply (state : DnsOverrideState) : VergeRecord :=
  match state.applyTo record with
  | some settings => { record with profileDnsSettings := settings }
  | none => record

end VergeRecord

/-- What storing an override that was derived before does to the settings that are there now. -/
structure Unclobbered (before now : VergeRecord) (state : DnsOverrideState) : Prop where
  settings : (now.apply state).settings = now.settings
  others : ∀ other, other ≠ state.profileUid →
    OrderedMap.get (now.apply state).profileDnsSettings other =
      OrderedMap.get now.profileDnsSettings other
  /-- Only what was derived from the stored settings changes them. -/
  current : (state.applyTo now).isSome →
    now.dnsSettingsFor state.profileUid = before.dnsSettingsFor state.profileUid
  twice : (now.apply state).apply state = now.apply state
  /-- What is derived from the stored result is stored already. -/
  settled : now.dnsSettingsFor state.profileUid = before.dnsSettingsFor state.profileUid →
    let again := (now.apply state).deriveOverride state.profileUid state.source
    again.enabled = state.enabled ∧ again.applyTo (now.apply state) = none

def DnsOverrideState.clearsConfirmation (state : DnsOverrideState) : Bool :=
  state.confirmation.isSome && state.source != state.confirmation

def DnsOverrideState.basis (state : DnsOverrideState) : ProfileDnsSettings :=
  ⟨state.requested, state.confirmation⟩

def DnsOverrideState.stored (state : DnsOverrideState) : ProfileDnsSettings :=
  ⟨state.enabled, if state.clearsConfirmation then none else state.confirmation⟩

section

variable {state : DnsOverrideState} {record : VergeRecord}

theorem DnsOverrideState.stored_eq_basis_iff :
    state.stored = state.basis ↔ state.enabled = state.requested ∧ state.clearsConfirmation = false := by
  unfold stored basis
  rw [ProfileDnsSettings.mk.injEq]
  apply and_congr_right
  intro _
  cases clears : state.clearsConfirmation with
  | false => simp
  | true =>
    have some : state.confirmation.isSome = true := by
      simp only [clearsConfirmation, Bool.and_eq_true] at clears
      exact clears.1
    refine iff_of_false (fun none => ?_) Bool.noConfusion
    rw [if_pos rfl] at none
    rw [← none] at some
    cases some

/-- An override leaves the record alone where its profile has no uid, where the settings are no
longer those it was derived from, or where they are stored as they are to be. -/
theorem DnsOverrideState.applyTo_eq_none_iff : state.applyTo record = none ↔
    state.profileUid = "" ∨ record.dnsSettingsFor state.profileUid ≠ state.basis ∨
      state.stored = state.basis ∧
        OrderedMap.contains record.profileDnsSettings state.profileUid = true := by
  have differs : record.dnsSettingsFor state.profileUid ≠ state.basis ↔
      (record.dnsSettingsFor state.profileUid).enabled ≠ state.requested ∨
        (record.dnsSettingsFor state.profileUid).confirmation ≠ state.confirmation := by
    cases record.dnsSettingsFor state.profileUid
    rw [basis, ne_eq, ProfileDnsSettings.mk.injEq, not_and_or]
  rw [differs, stored_eq_basis_iff, and_assoc]
  unfold applyTo
  by_cases nameless : state.profileUid = ""
  · simp [nameless]
  · rw [if_neg nameless, or_iff_right nameless]
    dsimp only
    split
    · rename_i outdated
      exact iff_of_true rfl (.inl outdated)
    · rename_i current
      rw [or_iff_right current]
      split
      · rename_i same
        exact iff_of_true rfl same
      · rename_i changes
        exact iff_of_false (Option.some_ne_none _) changes

theorem DnsOverrideState.applyTo_eq_some {settings : List (String × ProfileDnsSettings)}
    (applied : state.applyTo record = some settings) :
    record.dnsSettingsFor state.profileUid = state.basis ∧
      settings = SortedMap.insert record.profileDnsSettings state.profileUid state.stored := by
  have changes : state.applyTo record ≠ none := by
    rw [applied]
    exact Option.some_ne_none settings
  rw [ne_eq, applyTo_eq_none_iff, not_or, not_or, not_not] at changes
  refine ⟨changes.2.1, ?_⟩
  unfold applyTo at applied
  split at applied
  · cases applied
  · dsimp only at applied
    split at applied
    · cases applied
    · split at applied
      · cases applied
      · exact (Option.some.inj applied).symm

theorem apply_cases (record : VergeRecord) (state : DnsOverrideState) :
    state.applyTo record = none ∧ record.apply state = record ∨
      (state.applyTo record).isSome ∧ state.profileUid ≠ "" ∧
        record.dnsSettingsFor state.profileUid = state.basis ∧
        record.apply state = { record with
          profileDnsSettings :=
            SortedMap.insert record.profileDnsSettings state.profileUid state.stored } := by
  cases applied : state.applyTo record with
  | none => exact .inl ⟨rfl, by rw [VergeRecord.apply, applied]⟩
  | some settings =>
    obtain ⟨current, rfl⟩ := DnsOverrideState.applyTo_eq_some applied
    refine .inr ⟨rfl, fun nameless => ?_, current, by rw [VergeRecord.apply, applied]⟩
    rw [DnsOverrideState.applyTo_eq_none_iff.mpr (.inl nameless)] at applied
    cases applied

theorem dnsSettingsFor_insert (record : VergeRecord) (profileUid : String)
    (settings : ProfileDnsSettings) :
    VergeRecord.dnsSettingsFor { record with
      profileDnsSettings := SortedMap.insert record.profileDnsSettings profileUid settings }
      profileUid = settings := by
  unfold VergeRecord.dnsSettingsFor
  rw [SortedMap.get_insert, if_pos rfl]
  rfl

theorem DnsOverrideState.new_stored (profileUid : String) (source : Option String)
    (requested : Bool) (confirmation : Option String) :
    let state := DnsOverrideState.new profileUid source requested confirmation
    let again := DnsOverrideState.new profileUid source state.stored.enabled state.stored.confirmation
    again.enabled = state.enabled ∧ again.stored = again.basis := by
  dsimp only
  rw [stored_eq_basis_iff]
  by_cases same : source = confirmation
  · subst same
    simp [new, stored, clearsConfirmation]
  · cases source with
    | none =>
      have some : confirmation.isSome = true := Option.isSome_iff_ne_none.mpr (Ne.symm same)
      simp [new, stored, clearsConfirmation, some]
    | some source => simp [new, stored, clearsConfirmation, same]

theorem deriveOverride_congr {one other : VergeRecord} {profileUid : String}
    (same : one.dnsSettingsFor profileUid = other.dnsSettingsFor profileUid)
    (source : Option String) :
    one.deriveOverride profileUid source = other.deriveOverride profileUid source := by
  unfold VergeRecord.deriveOverride
  rw [same]

theorem unclobbered_of_derived {before : VergeRecord} (now : VergeRecord)
    (derived : before.deriveOverride state.profileUid state.source = state) :
    Unclobbered before now state := by
  have based : before.dnsSettingsFor state.profileUid = state.basis := by
    rw [← derived]
    rfl
  obtain ⟨unchanged, same⟩ | ⟨changes, named, current, after⟩ := apply_cases now state
  · refine ⟨by rw [same], fun _ _ => by rw [same], fun applied => ?_, by rw [same, same], ?_⟩
    · rw [unchanged] at applied
      cases applied
    · intro current
      rw [same, deriveOverride_congr current, derived]
      exact ⟨rfl, unchanged⟩
  · have stored : (now.apply state).dnsSettingsFor state.profileUid = state.stored := by
      rw [after]
      exact dnsSettingsFor_insert now state.profileUid state.stored
    have contained :
        OrderedMap.contains (now.apply state).profileDnsSettings state.profileUid = true := by
      rw [after, OrderedMap.contains, SortedMap.get_insert, if_pos rfl]
      rfl
    constructor
    · rw [after]
    · intro other different
      rw [after, SortedMap.get_insert, if_neg (Ne.symm different)]
    · intro _
      rw [current, based]
    · have done : state.applyTo (now.apply state) = none := by
        rw [DnsOverrideState.applyTo_eq_none_iff, stored]
        by_cases same : state.stored = state.basis
        · exact .inr (.inr ⟨same, contained⟩)
        · exact .inr (.inl same)
      rw [VergeRecord.apply, done]
    · intro _
      have again : (now.apply state).deriveOverride state.profileUid state.source =
          .new state.profileUid state.source state.stored.enabled state.stored.confirmation := by
        rw [VergeRecord.deriveOverride, stored]
      obtain ⟨enabled, settled⟩ := DnsOverrideState.new_stored state.profileUid state.source
        state.requested state.confirmation
      have made : DnsOverrideState.new state.profileUid state.source state.requested
          state.confirmation = state := by
        rwa [VergeRecord.deriveOverride, based] at derived
      rw [made] at enabled settled
      rw [again]
      refine ⟨enabled, DnsOverrideState.applyTo_eq_none_iff.mpr (.inr (.inr ⟨settled, ?_⟩))⟩
      exact contained

end

/-- An override changes nothing but the settings of its profile, and these only while they are those
it was derived from; once it is stored, nothing is left to do. -/
theorem dnsOverride_unclobbered (before now : VergeRecord) (profileUid : String)
    (source : Option String) : Unclobbered before now (before.deriveOverride profileUid source) :=
  unclobbered_of_derived now rfl

end ClashVerge.Feat
