import ClashVerge.Cmd.SaveProfile
import ClashVerge.Enhance.Stages

/-!
# Which items the running configuration is built from

`collect_profile_items` opens the files of the current profile, of the five items it links or of
their defaults, and of the global merge and script. A saved file is applied at once only if
`profile_affects_runtime` says that the configuration is built from it. That function lists the
current profile and the five, and the global items only where nothing is linked in their place.

An item counts as read if some contents of the files make the generation open its file.
-/

namespace ClashVerge.Cmd

open ClashVerge.Config ClashVerge.Enhance ClashVerge.Profiles ClashVerge.Yaml

/-- A file as text, as the mapping of `read_mapping`, and as the edits of `read_yaml`. -/
structure FileContent where
  text : Option String
  mapping : Except String { mapping : Mapping // OrderedMap.Distinct mapping }
  seqMap : Option SeqMap

abbrev Files : Type := String → Option FileContent

def itemScript : String :=
  "// Define main function (script entry)\n\nfunction main(config, profileName) \x7b\n" ++
    "  return config;\n\x7d\n"

def chainKinds : List String := ["script", "merge", "rules", "proxies", "groups"]

/-- The arms of `from_async`. A kind that a chain does not have is not read. -/
def readChainType (itype : String) (content : FileContent) : Option (Option ChainType) :=
  if itype = "script" then some (content.text.map .script)
  else if itype = "merge" then some (content.mapping.toOption.map fun read => .merge read.1)
  else if itype = "rules" then some (content.seqMap.map .rules)
  else if itype = "proxies" then some (content.seqMap.map .proxies)
  else if itype = "groups" then some (content.seqMap.map .groups)
  else none

/-- `AsyncChainItemFrom::from_async`, with the items whose files it opens. -/
def chainItemFrom (files : Files) (item : PrfItem) : List PrfItem × Option ChainType :=
  match item.itype, item.file with
  | some itype, some file =>
    match files file with
    | none => ([], none)
    | some content =>
      match readChainType itype content with
      | none => ([], none)
      | some read => ([item], read)
  | _, _ => ([], none)

def chainItemOrDefault (files : Files) (item : Option PrfItem) (defaultItem : ChainType) :
    List PrfItem × ChainType :=
  match item with
  | none => ([], defaultItem)
  | some item => ((chainItemFrom files item).1, (chainItemFrom files item).2.getD defaultItem)

def currentMapping (files : Files) (profiles : IProfiles) :
    List PrfItem × Except String { mapping : Mapping // OrderedMap.Distinct mapping } :=
  match profiles.current, profiles.items with
  | some current, some items =>
    match findItem items current with
    | none => ([], .error ("failed to find the current profile \"uid:" ++ current ++ "\""))
    | some item =>
      match item.file with
      | none => ([], .error "failed to get the file field")
      | some file =>
        match files file with
        | none => ([], .error ("file not found \"" ++ file ++ "\""))
        | some content => ([item], content.mapping)
  | _, _ => ([], .ok ⟨[], OrderedMap.distinct_nil⟩)

/-- `ProfileItems::default`. -/
def emptyItems : ProfileItems where
  config := []
  distinct := OrderedMap.distinct_nil
  mergeItem := .merge []
  scriptItem := .script itemScript
  rulesItem := .rules .empty
  proxiesItem := .proxies .empty
  groupsItem := .groups .empty
  globalMerge := .merge []
  globalScript := .script itemScript
  profileName := ""

/-- One of the items that `collect_profile_items` joins. -/
def loadChainItem (files : Files) (profiles : IProfiles) (uid : String) (defaultItem : ChainType) :
    List PrfItem × ChainType :=
  chainItemOrDefault files (profiles.getItem uid).toOption defaultItem

def collectProfileItems (files : Files) (profiles : IProfiles) :
    List PrfItem × Except String ProfileItems :=
  match profiles.current with
  | none => ([], .ok emptyItems)
  | some uid =>
    match currentMapping files profiles with
    | (opened, .error error) =>
      (opened, .error ("failed to read current profile \"" ++ uid ++ "\": " ++ error))
    | (opened, .ok current) =>
      match profiles.getItem uid with
      | .error error =>
        (opened, .error ("failed to get current profile \"" ++ uid ++ "\": " ++ error))
      | .ok item =>
        let load := loadChainItem files profiles
        let merge := load ((item.option.bind PrfOption.merge).getD "Merge") (.merge [])
        let script := load ((item.option.bind PrfOption.script).getD "Script") (.script itemScript)
        let rules := load ((item.option.bind PrfOption.rules).getD "Rules") (.rules .empty)
        let proxies := load ((item.option.bind PrfOption.proxies).getD "Proxies") (.proxies .empty)
        let groups := load ((item.option.bind PrfOption.groups).getD "Groups") (.groups .empty)
        let globalMerge := load "Merge" (.merge [])
        let globalScript := load "Script" (.script itemScript)
        (opened ++ merge.1 ++ script.1 ++ rules.1 ++ proxies.1 ++ groups.1 ++ globalMerge.1 ++
            globalScript.1,
          .ok {
            config := current.1
            distinct := current.2
            mergeItem := merge.2
            scriptItem := script.2
            rulesItem := rules.2
            proxiesItem := proxies.2
            groupsItem := groups.2
            globalMerge := globalMerge.2
            globalScript := globalScript.2
            profileName := item.name.getD "" })

/-- Some contents of the files make the generation open the item's. -/
def GenerationReads (profiles : IProfiles) (item : PrfItem) : Prop :=
  ∃ files, item ∈ (collectProfileItems files profiles).1

/-- `handle_saved_profile_file`: whether the running configuration has been rebuilt from the saved
file, and what is returned. -/
def handleSavedProfileFile (affectsRuntime : Bool)
    (validation update : Except String ValidationOutcome) :
    Bool × Except String ValidationOutcome :=
  match afterValidation affectsRuntime validation with
  | .finish result => (false, result)
  | .restoreOriginal result => (false, result)
  | .updateConfigForced =>
    match afterUpdate update with
    | .finish result => (true, result)
    | .restoreOriginal result => (false, result)
    | .updateConfigForced => (true, update)

def isChainKind (item : PrfItem) : Bool := item.itype.any chainKinds.contains

/-- The chain is read with this item: the current profile and the item have files, and the item is
of a kind that a chain has. -/
def chainOpens (profiles : IProfiles) (item : PrfItem) : Bool :=
  match profiles.current with
  | none => false
  | some uid =>
    match profiles.getItem uid with
    | .error _ => false
    | .ok current => current.file.isSome && item.file.isSome && isChainKind item

def isLinked (profiles : IProfiles) (uid : String) : Bool :=
  match profiles.current with
  | none => false
  | some currentUid =>
    match profiles.getItem currentUid with
    | .error _ => false
    | .ok current => (linkedUids current).contains uid

section

variable {files : Files} {profiles : IProfiles}

theorem getItem_uid {uid : String} {item : PrfItem} (found : profiles.getItem uid = .ok item) :
    item.uid = some uid := by
  unfold IProfiles.getItem at found
  split at found
  · rename_i first here
    cases found
    have holds := List.find?_some here
    simpa using holds
  · contradiction

theorem getItem_congr {uid other : String} {item : PrfItem}
    (found : profiles.getItem uid = .ok item) :
    profiles.getItem other = .ok item ↔ other = uid := by
  constructor
  · intro there
    have one := getItem_uid found
    rw [getItem_uid there] at one
    exact Option.some.inj one
  · rintro rfl
    exact found

theorem readChainType_isSome (itype : String) (content : FileContent) :
    (readChainType itype content).isSome = chainKinds.contains itype := by
  unfold readChainType chainKinds
  split_ifs <;> simp_all

theorem mem_chainItemFrom {item other : PrfItem} :
    other ∈ (chainItemFrom files item).1 ↔ other = item ∧ isChainKind item = true ∧
      (item.file.bind files).isSome := by
  unfold chainItemFrom isChainKind
  split
  · rename_i itype file kind named
    rw [kind, named, Option.bind_some, Option.any_some]
    split
    · rename_i absent
      simp [absent]
    · rename_i content present
      rw [← readChainType_isSome itype content, present]
      split
      · rename_i unknown
        simp [unknown]
      · rename_i read known
        simp [known]
  · rename_i missing
    cases kind : item.itype with
    | none => simp
    | some itype =>
      cases named : item.file with
      | none => simp
      | some file => exact absurd named (missing itype file kind)

theorem mem_loadChainItem {uid : String} {defaultItem : ChainType} {item : PrfItem} :
    item ∈ (loadChainItem files profiles uid defaultItem).1 ↔ profiles.getItem uid = .ok item ∧
      isChainKind item = true ∧ (item.file.bind files).isSome := by
  unfold loadChainItem chainItemOrDefault
  cases found : profiles.getItem uid with
  | error error => simp [Except.toOption]
  | ok own =>
    simp only [Except.toOption, mem_chainItemFrom, Except.ok.injEq]
    constructor
    · rintro ⟨rfl, rest⟩
      exact ⟨rfl, rest⟩
    · rintro ⟨rfl, rest⟩
      exact ⟨rfl, rest⟩

theorem currentMapping_of_found (files : Files) {uid : String} {current : PrfItem}
    (is_ : profiles.current = some uid) (found : profiles.getItem uid = .ok current) :
    (∀ item, item ∈ (currentMapping files profiles).1 ↔
      item = current ∧ (current.file.bind files).isSome) ∧
    ((currentMapping files profiles).2.isOk = true → (current.file.bind files).isSome) ∧
    ∀ content, current.file.bind files = some content →
      (currentMapping files profiles).2 = content.mapping := by
  have listed : ∃ items, profiles.items = some items ∧ findItem items uid = some current := by
    unfold IProfiles.getItem IProfiles.list at found
    cases items : profiles.items with
    | none =>
      rw [items] at found
      contradiction
    | some items_ =>
      rw [items, Option.getD_some] at found
      cases here : findItem items_ uid with rw [here] at found
      | none =>
        contradiction
      | some own =>
        cases found
        exact ⟨items_, rfl, here⟩
  obtain ⟨items, has, here⟩ := listed
  unfold currentMapping
  rw [is_, has]
  simp only [here]
  cases named : current.file with
  | none => simp [Except.isOk, Except.toBool]
  | some file =>
    cases present : files file with
    | none => simp [present, Except.isOk, Except.toBool]
    | some content => simp [present]

theorem currentMapping_of_missing {uid error : String} (is_ : profiles.current = some uid)
    (missing : profiles.getItem uid = .error error) : (currentMapping files profiles).1 = [] := by
  unfold currentMapping
  rw [is_]
  cases items : profiles.items with
  | none => rfl
  | some items_ =>
    unfold IProfiles.getItem IProfiles.list at missing
    rw [items, Option.getD_some] at missing
    cases here : findItem items_ uid with
    | none => simp [here]
    | some own =>
      rw [here] at missing
      contradiction

/-- The items whose files are opened: the current profile, and if it could be read, what the five
links and the two global uids lead to. -/
theorem mem_collectProfileItems {uid index : String} {current item : PrfItem}
    (is_ : profiles.current = some uid) (found : profiles.getItem uid = .ok current)
    (known : profiles.getItem index = .ok item) :
    item ∈ (collectProfileItems files profiles).1 ↔
      (uid = index ∧ (current.file.bind files).isSome) ∨
        ((currentMapping files profiles).2.isOk = true ∧ isChainKind item = true ∧
          (item.file.bind files).isSome ∧ index ∈ linkedUids current ++ ["Merge", "Script"]) := by
  have own : item = current ↔ uid = index := by
    rw [← getItem_congr known, found, Except.ok.injEq, eq_comm]
  obtain ⟨opens, -, -⟩ := currentMapping_of_found files is_ found
  unfold collectProfileItems
  rw [is_]
  cases reads : currentMapping files profiles with
  | mk opened result =>
    rw [reads] at opens
    cases result with
    | error error => simp [opens, own, Except.isOk, Except.toBool]
    | ok mapping =>
      simp only [found, List.mem_append, mem_loadChainItem, getItem_congr known, opens, own,
        linkedUids, List.mem_cons, List.not_mem_nil, or_false, Except.isOk, Except.toBool, true_and]
      constructor
      · rintro (((((((mine | link) | link) | link) | link) | link) | link) | link)
        · exact .inl mine
        all_goals exact .inr ⟨link.2.1, link.2.2, by simp [link.1]⟩
      · rintro (mine | ⟨kind, there, (link | link | link | link | link) | link | link⟩)
        all_goals simp [*]

/-- Some contents of the files make the generation open the item's file exactly if the current
profile and the item have files and a uid that is looked up leads there. -/
theorem generationReads_iff {uid index : String} {current item : PrfItem}
    (is_ : profiles.current = some uid) (found : profiles.getItem uid = .ok current)
    (known : profiles.getItem index = .ok item) :
    GenerationReads profiles item ↔ current.file.isSome ∧ item.file.isSome ∧
      (uid = index ∨ isChainKind item = true ∧ index ∈ linkedUids current ++ ["Merge", "Script"]) := by
  have own : uid = index → item = current := by
    intro same
    have there := (getItem_congr known).mpr same
    rw [found] at there
    exact (Except.ok.inj there).symm
  have named : ∀ {files : Files} {file : Option String}, (file.bind files).isSome → file.isSome := by
    intro files file there
    cases file with
    | none => contradiction
    | some file => rfl
  constructor
  · rintro ⟨files, member⟩
    obtain ⟨same, there⟩ | ⟨readable, kind, there, listed⟩ :=
      (mem_collectProfileItems is_ found known).mp member
    · exact ⟨named there, own same ▸ named there, .inl same⟩
    · exact ⟨named ((currentMapping_of_found files is_ found).2.1 readable), named there,
        .inr ⟨kind, listed⟩⟩
  · rintro ⟨has, there, how⟩
    obtain ⟨path, named⟩ := Option.isSome_iff_exists.mp has
    obtain ⟨file, itsFile⟩ := Option.isSome_iff_exists.mp there
    -- Every file is there and can be read in each of the three ways.
    let content : FileContent := ⟨some "", .ok ⟨[], OrderedMap.distinct_nil⟩, some .empty⟩
    refine ⟨fun _ => some content, ?_⟩
    rw [mem_collectProfileItems is_ found known]
    obtain same | ⟨kind, listed⟩ := how
    · exact .inl ⟨same, by rw [named]; rfl⟩
    · refine .inr ⟨?_, kind, by rw [itsFile]; rfl, listed⟩
      rw [(currentMapping_of_found _ is_ found).2.2 content (by rw [named]; rfl)]
      rfl

/-- A save counts as affecting the running configuration if the generation reads the file, and then
a valid save has rebuilt the configuration. -/
structure AgreesWithGeneration (profiles : IProfiles) (index : String) (item : PrfItem) : Prop where
  reads : profileAffectsRuntime profiles index = true ↔ GenerationReads profiles item
  rebuilt : ∀ validation update, GenerationReads profiles item →
    (handleSavedProfileFile (profileAffectsRuntime profiles index) validation update).2 =
      .ok .valid →
    (handleSavedProfileFile (profileAffectsRuntime profiles index) validation update).1 = true

theorem handleSavedProfileFile_rebuilt {validation update : Except String ValidationOutcome}
    (valid : (handleSavedProfileFile true validation update).2 = .ok .valid) :
    (handleSavedProfileFile true validation update).1 = true := by
  have sound := afterUpdate_sound update
  unfold handleSavedProfileFile at valid ⊢
  cases first : afterValidation true validation with rw [first] at valid
  | updateConfigForced =>
    cases second : afterUpdate update with
    | restoreOriginal result =>
      simp only [second] at valid
      rw [second] at sound
      exact absurd valid sound
    | _ => rfl
  | _ =>
    cases validation with
    | error error => simp_all [afterValidation]
    | ok outcome => cases outcome <;> simp_all [afterValidation, ValidationOutcome.isValid]

/-- The item is listed just if the generation can read it: one that is current has a file, one that
is linked can be read in a chain, and a global one that can be read there is linked. -/
structure Covered (profiles : IProfiles) (index : String) (item : PrfItem) : Prop where
  current : profiles.current = some index → item.file.isSome = true
  linked : profiles.current ≠ some index → isLinked profiles index = true →
    chainOpens profiles item = true
  globals : index = "Merge" ∨ index = "Script" → profiles.current ≠ some index →
    chainOpens profiles item = true → isLinked profiles index = true

theorem profileAffectsRuntime_iff {uid index : String} {current : PrfItem}
    (is_ : profiles.current = some uid) (found : profiles.getItem uid = .ok current) :
    profileAffectsRuntime profiles index = true ↔ uid = index ∨ index ∈ linkedUids current := by
  unfold profileAffectsRuntime
  rw [is_]
  by_cases same : uid = index
  · simp [same]
  · simp [same, found]

theorem generation_reads_nothing {index : String} {item : PrfItem}
    (known : profiles.getItem index = .ok item)
    (missing : ∀ uid, profiles.current = some uid → ∃ error, profiles.getItem uid = .error error) :
    ¬ GenerationReads profiles item ∧ profileAffectsRuntime profiles index = false ∧
      profiles.current ≠ some index ∧ isLinked profiles index = false ∧
      chainOpens profiles item = false := by
  cases is_ : profiles.current with
  | none => simp [GenerationReads, collectProfileItems, profileAffectsRuntime, isLinked, chainOpens, is_]
  | some uid =>
    obtain ⟨error, absent⟩ := missing uid is_
    have different : uid ≠ index := by
      rintro rfl
      rw [known] at absent
      contradiction
    refine ⟨?_, ?_, ?_, ?_, ?_⟩
    · rintro ⟨files, member⟩
      have nothing : (currentMapping files profiles).1 = [] := currentMapping_of_missing is_ absent
      unfold collectProfileItems at member
      rw [is_] at member
      cases reads : currentMapping files profiles with
      | mk opened result =>
        rw [reads] at nothing
        simp only [reads, absent] at member
        cases result <;> simp_all
    · simp [profileAffectsRuntime, is_, different, absent]
    · simpa using different
    · simp [isLinked, is_, absent]
    · simp [chainOpens, is_, absent]

/-- Saving agrees with the generation exactly on the items that are covered. -/
theorem agrees_iff_covered {index : String} {item : PrfItem}
    (known : profiles.getItem index = .ok item) :
    AgreesWithGeneration profiles index item ↔ Covered profiles index item := by
  have reduce : AgreesWithGeneration profiles index item ↔
      (profileAffectsRuntime profiles index = true ↔ GenerationReads profiles item) := by
    refine ⟨AgreesWithGeneration.reads, fun reads => ⟨reads, fun validation update read valid => ?_⟩⟩
    rw [reads.mpr read] at valid ⊢
    exact handleSavedProfileFile_rebuilt valid
  rw [reduce]
  by_cases there : ∃ uid current, profiles.current = some uid ∧ profiles.getItem uid = .ok current
  · obtain ⟨uid, current, is_, found⟩ := there
    rw [profileAffectsRuntime_iff is_ found, generationReads_iff is_ found known]
    have isCurrent : profiles.current = some index ↔ uid = index := by rw [is_, Option.some.injEq]
    have linked : isLinked profiles index = true ↔ index ∈ linkedUids current := by
      simp [isLinked, is_, found]
    have opens : chainOpens profiles item = true ↔
        current.file.isSome ∧ item.file.isSome ∧ isChainKind item = true := by
      simp [chainOpens, is_, found, and_assoc]
    have own : uid = index → item.file = current.file := by
      rintro rfl
      rw [found] at known
      rw [Except.ok.inj known]
    have listed : index ∈ linkedUids current ++ ["Merge", "Script"] ↔
        index ∈ linkedUids current ∨ index = "Merge" ∨ index = "Script" := by simp
    rw [listed]
    constructor
    · intro agree
      refine ⟨fun mine => ?_, fun other link => ?_, fun global other open_ => ?_⟩
      · exact (agree.mp (.inl (isCurrent.mp mine))).2.1
      · obtain ⟨has, there, mine | ⟨kind, -⟩⟩ := agree.mp (.inr (linked.mp link))
        · exact absurd (isCurrent.mpr mine) other
        · exact opens.mpr ⟨has, there, kind⟩
      · obtain ⟨has, there, kind⟩ := opens.mp open_
        obtain mine | link := agree.mpr ⟨has, there, .inr ⟨kind, .inr global⟩⟩
        · exact absurd (isCurrent.mpr mine) other
        · exact linked.mpr link
    · intro covered
      by_cases mine : uid = index
      · have there := covered.current (isCurrent.mpr mine)
        exact iff_of_true (.inl mine) ⟨own mine ▸ there, there, .inl mine⟩
      · have other := mt isCurrent.mp mine
        constructor
        · rintro (same | link)
          · exact absurd same mine
          · obtain ⟨has, there, kind⟩ := opens.mp (covered.linked other (linked.mpr link))
            exact ⟨has, there, .inr ⟨kind, .inl link⟩⟩
        · rintro ⟨has, there, same | ⟨kind, link | global⟩⟩
          · exact absurd same mine
          · exact .inr link
          · exact .inr (linked.mp (covered.globals global other (opens.mpr ⟨has, there, kind⟩)))
  · have missing : ∀ uid, profiles.current = some uid →
        ∃ error, profiles.getItem uid = .error error := by
      intro uid is_
      cases found : profiles.getItem uid with
      | error error => exact ⟨error, rfl⟩
      | ok current => exact absurd ⟨uid, current, is_, found⟩ there
    obtain ⟨reads, affects, notCurrent, notLinked, closed⟩ := generation_reads_nothing known missing
    rw [affects]
    refine iff_of_true (iff_of_false (by decide) reads) ⟨?_, ?_, ?_⟩
    · exact fun is_ => absurd is_ notCurrent
    · intro _ linked
      rw [notLinked] at linked
      contradiction
    · intro _ _ opens
      rw [closed] at opens
      contradiction

end

def globalMerge : PrfItem :=
  { PrfItem.default with uid := some "Merge", itype := some "merge", file := some "Merge.yaml" }

def ownMerge : PrfItem :=
  { PrfItem.default with uid := some "M1", itype := some "merge", file := some "M1.yaml" }

/-- A profile that links a merge of its own. -/
def remoteProfile : PrfItem :=
  { PrfItem.default with
    uid := some "R1"
    itype := some "remote"
    file := some "R1.yaml"
    option := some ⟨none, none, none, none, none, none, none, some "M1", none, none, none, none⟩ }

def linkedProfile : IProfiles := ⟨some "R1", some [globalMerge, ownMerge, remoteProfile]⟩

theorem agrees_of_linked : AgreesWithGeneration linkedProfile "M1" ownMerge ∧
    Covered linkedProfile "M1" ownMerge := by
  have covered : Covered linkedProfile "M1" ownMerge :=
    ⟨fun _ => rfl, fun _ _ => by decide, fun global => by revert global; decide⟩
  exact ⟨(agrees_iff_covered rfl).mpr covered, covered⟩

/-- The global merge is read, but saving it does not rebuild the configuration. -/
theorem global_merge_not_applied : ¬ ∀ (profiles : IProfiles) (index : String) (item : PrfItem),
      profiles.getItem index = .ok item → AgreesWithGeneration profiles index item := by
  intro all
  have current : linkedProfile.getItem "R1" = .ok remoteProfile := rfl
  have known : linkedProfile.getItem "Merge" = .ok globalMerge := rfl
  have reads : GenerationReads linkedProfile globalMerge :=
    (generationReads_iff rfl current known).mpr
      ⟨rfl, rfl, .inr ⟨by decide, by simp⟩⟩
  have affects := (all linkedProfile "Merge" globalMerge known).reads.mpr reads
  revert affects
  decide

end ClashVerge.Cmd
