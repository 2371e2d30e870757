import ClashVerge.Config.Update
import ClashVerge.Enhance.Field
import ClashVerge.Utils.YamlEmitter

/-!
# Saving the DNS configuration

The DNS page writes the edited configuration to its file, has it validated, and applies it where the
DNS settings are in force. No later step puts back what the file held: a configuration that is
invalid, or that the core does not take, is what every later generation finds.

Applying also stages the settings on the runtime layer. The update that follows generates the layer
anew and discards what it does not commit; one that is not let in leaves the staged value, which is
the one that readers saw before, because a patch may set no field of it.

The record of whether the settings are in force is left out.
-/

namespace ClashVerge.Cmd.Dns

open ClashVerge.Config ClashVerge.Draft ClashVerge.Enhance ClashVerge.Utils ClashVerge.Yaml

/-- The fields of the runtime configuration that a patch may set. -/
def patchConfigInner : List String := ["allow-lan", "ipv6", "log-level", "unified-delay", "tunnels"]

def patchField (patch config : Mapping) (key : String) : Mapping :=
  match patch.get key with
  | some value => config.insert (.string key) value
  | none => config

/-- `IRuntime::patch_config` with a configuration to patch. -/
def patchRuntimeConfig (patch config : Mapping) : Mapping :=
  let config := patchConfigInner.foldl (patchField patch) config
  match patch.get "tun" with
  | none => config
  | some patchTun =>
    let config := match config.get "tun" with
      | some (.mapping _) => config
      | _ => config.insert (.string "tun") (.mapping [])
    match patchTun.asMapping, config.get "tun" with
    | some patchTun, some (.mapping tun) =>
      config.insert (.string "tun") (.mapping ((useKeys patchTun).foldl (patchField patchTun) tun))
    | _, _ => config

def patchConfig (patch : Mapping) (runtime : IRuntime) : IRuntime :=
  { runtime with config := runtime.config.map (patchRuntimeConfig patch) }

/-- `serde_yaml_ng`. -/
structure Serde where
  toString : Mapping → Except String (List Char)
  fromStrValue : String → Except String Value
  fromStrMapping : String → Except String Mapping

/-- How `fs::write` ends. It does not replace the file at once, and may leave anything when it fails. -/
inductive Written where
  | complete
  | failed (error : String) (left : Option String)

structure State where
  world : World
  dnsFile : Option String

/-- What the three commands of one save meet. -/
structure Answers where
  saveDir : Except String Unit
  written : Written
  validateDir : Except String Unit
  /-- Whether the file can be read as text when it is validated. -/
  validateRead : Except String Unit
  applyDir : Except String Unit
  applyRead : Except String Unit
  update : Update

namespace State

variable (serde : Serde) (state : State)

def saveDnsConfig (dnsConfig : Mapping) (answers : Answers) : State × Except String Unit :=
  match answers.saveDir with
  | .error error => (state, .error error)
  | .ok () =>
    match toMihomoConfigString serde.toString dnsConfig with
    | .error error => (state, .error error)
    | .ok yaml =>
      match answers.written with
      | .failed error left => ({ state with dnsFile := left }, .error error)
      | .complete => ({ state with dnsFile := some (String.ofList yaml) }, .ok ())

def validateFileSyntaxOutcome (content : String) (answers : Answers) : ValidationOutcome :=
  match answers.validateRead with
  | .error error => .invalid ("Failed to read file: " ++ error)
  | .ok () =>
    match serde.fromStrValue content with
    | .ok _ => .valid
    | .error error => .invalid ("YAML syntax error: " ++ error)

def validateDnsConfig (answers : Answers) : Except String ValidationOutcome :=
  match answers.validateDir with
  | .error error => .error error
  | .ok () =>
    match state.dnsFile with
    | none => .ok (.invalid "DNS config file not found")
    | some content =>
      if state.world.exiting then .ok (.skipped .exiting)
      else .ok (validateFileSyntaxOutcome serde content answers)

def updateConfigChecked (update : Update) : State × Except String Unit :=
  let updated := state.world.updateConfigChecked update
  ({ state with world := updated.2 }, updated.1)

def applyDnsConfig (apply : Bool) (answers : Answers) : State × Except String Unit :=
  if apply then
    match answers.applyDir with
    | .error error => (state, .error error)
    | .ok () =>
      match state.dnsFile with
      | none => (state, .error "DNS config file not found")
      | some dnsYaml =>
        match answers.applyRead with
        | .error error => (state, .error error)
        | .ok () =>
          match serde.fromStrMapping dnsYaml with
          | .error error => (state, .error error)
          | .ok config =>
            let patch : Mapping := [(.string "dns", .mapping config)]
            { state with world := { state.world with
                runtime := state.world.runtime.editDraft (patchConfig patch) }
              }.updateConfigChecked answers.update
  else state.updateConfigChecked answers.update

/-- How a save ends. All but the last are shown as an error of the configuration. -/
inductive Ending where
  | malformed (error : String)
  | unsaved (error : String)
  | unvalidated (error : String)
  | notValid (outcome : ValidationOutcome)
  | unapplied (error : String)
  | saved

/-- `onSave`, for what the page makes of its input. -/
def onSave (config : Except String Mapping) (dnsEnabled : Bool) (answers : Answers) :
    State × Ending :=
  match config with
  | .error error => (state, .malformed error)
  | .ok config =>
    match state.saveDnsConfig serde config answers with
    | (state, .error error) => (state, .unsaved error)
    | (state, .ok ()) =>
      match state.validateDnsConfig serde answers with
      | .error error => (state, .unvalidated error)
      | .ok outcome =>
        if outcome.isValid then
          if dnsEnabled then
            match state.applyDnsConfig serde true answers with
            | (state, .error error) => (state, .unapplied error)
            | (state, .ok ()) => (state, .saved)
          else (state, .saved)
        else (state, .notValid outcome)

/-- The configuration was judged invalid, or it was not applied. -/
def Ending.Rejects : Ending → Prop
  | .notValid (.invalid _) | .unapplied _ => True
  | _ => False

end State

/-- The file holds what it held before, and what may be staged on the runtime layer is what readers
saw before. -/
structure NotKept (before : State) (saved : State × State.Ending) : Prop where
  file : saved.2.Rejects → saved.1.dnsFile = before.dnsFile
  draft : saved.2.Rejects → ∀ draft ∈ saved.1.world.runtime.draft, draft = before.world.runtime.latest

def writtenText (serde : Serde) (config : Except String Mapping) (answers : Answers) : Option String :=
  match config, answers.saveDir, answers.written with
  | .ok config, .ok (), .complete =>
    match toMihomoConfigString serde.toString config with
    | .ok yaml => some (String.ofList yaml)
    | .error _ => none
  | _, _, _ => none

/-- The text is found invalid: it cannot be read, or it is no YAML. -/
def Invalid (serde : Serde) (text : String) (answers : Answers) : Prop :=
  answers.validateRead.isOk = false ∨ (serde.fromStrValue text).isOk = false

/-- The text is not applied: it cannot be found, read or parsed, or the update with it is not let in
or does not commit. -/
def Unapplied (serde : Serde) (world : World) (text : String) (answers : Answers) : Prop :=
  answers.applyDir.isOk = false ∨ answers.applyRead.isOk = false ∨
    (serde.fromStrMapping text).isOk = false ∨ world.admits = false ∨
      answers.update.commits world = false

/-- The text is judged while the application is not exiting, and is invalid or not applied. -/
def Refused (serde : Serde) (world : World) (text : String) (dnsEnabled : Bool) (answers : Answers) :
    Prop :=
  answers.validateDir.isOk = true ∧ world.exiting = false ∧
    (Invalid serde text answers ∨ dnsEnabled = true ∧ Unapplied serde world text answers)

variable {serde : Serde} {state : State} {text : String} {answers : Answers}

theorem patchConfig_dns (config : Mapping) (runtime : IRuntime) :
    patchConfig [(.string "dns", .mapping config)] runtime = runtime := by
  have others : ∀ key ∈ "tun" :: patchConfigInner,
      Mapping.get [(.string "dns", .mapping config)] key = none := by
    simp [patchConfigInner, Mapping.get, OrderedMap.get]
  have same : ∀ found, patchRuntimeConfig [(.string "dns", .mapping config)] found = found := by
    intro found
    have kept : patchConfigInner.foldl (patchField [(.string "dns", .mapping config)]) found =
        found := by
      simp [patchConfigInner, patchField, Mapping.get, OrderedMap.get]
    rw [patchRuntimeConfig, others "tun" List.mem_cons_self, kept]
  rw [patchConfig, funext same, Option.map_id']

theorem updateConfigChecked_spec (staged : World) (update : Update) {runtime : IRuntime}
    (latest : staged.runtime.latest = runtime) :
    (staged.updateConfigChecked update).1.isOk = (staged.admits && update.commits staged) ∧
      ((staged.updateConfigChecked update).1.isOk = false →
        ∀ draft ∈ (staged.updateConfigChecked update).2.runtime.draft, draft = runtime) := by
  cases admits : staged.admits with
  | true =>
    obtain ⟨left, isOk⟩ := staged.updateConfigChecked_spec update admits
    rw [isOk, left]
    refine ⟨rfl, fun fails draft here => ?_⟩
    rw [fails] at here
    simp at here
  | false =>
    obtain ⟨left, isOk⟩ := staged.updateConfigChecked_refused update admits
    rw [isOk, left]
    refine ⟨rfl, fun _ draft here => ?_⟩
    rw [← latest, Slot.latest, Option.mem_def.mp here]
    rfl

theorem applyDnsConfig_spec (serde : Serde) (world : World) (text : String) (answers : Answers) :
    let applied := State.applyDnsConfig serde ⟨world, some text⟩ true answers
    applied.1.dnsFile = some text ∧
      (applied.2.isOk = false ↔ Unapplied serde world text answers) ∧
      (applied.2.isOk = false →
        ∀ draft ∈ applied.1.world.runtime.draft, draft = world.runtime.latest) := by
  have staged (draft) (is_ : draft ∈ world.runtime.draft) : draft = world.runtime.latest := by
    rw [Slot.latest, Option.mem_def.mp is_]
    rfl
  unfold State.applyDnsConfig Unapplied
  rw [if_pos rfl]
  cases answers.applyDir with
  | error error => exact ⟨rfl, iff_of_true rfl (.inl rfl), fun _ => staged⟩
  | ok found =>
    cases answers.applyRead with
    | error error => exact ⟨rfl, iff_of_true rfl (.inr (.inl rfl)), fun _ => staged⟩
    | ok done =>
      dsimp only
      cases serde.fromStrMapping text with
      | error error => exact ⟨rfl, iff_of_true rfl (.inr (.inr (.inl rfl))), fun _ => staged⟩
      | ok config =>
        let edited : World := { world with
          runtime := world.runtime.editDraft (patchConfig [(.string "dns", .mapping config)]) }
        have latest : edited.runtime.latest = world.runtime.latest := patchConfig_dns config _
        obtain ⟨isOk, left⟩ := updateConfigChecked_spec edited answers.update latest
        refine ⟨rfl, ?_, left⟩
        have same : edited.admits = world.admits ∧
            answers.update.commits edited = answers.update.commits world := ⟨rfl, rfl⟩
        rw [same.1, same.2] at isOk
        refine (Eq.congr_left isOk).trans ?_
        cases world.admits <;> simp [Except.isOk, Except.toBool]

theorem onSave_of_written {config : Except String Mapping}
    (written : writtenText serde config answers = some text) (dnsEnabled : Bool) :
    state.onSave serde config dnsEnabled answers =
      match { state with dnsFile := some text }.validateDnsConfig serde answers with
      | .error error => ({ state with dnsFile := some text }, .unvalidated error)
      | .ok outcome =>
        if outcome.isValid then
          if dnsEnabled then
            match { state with dnsFile := some text }.applyDnsConfig serde true answers with
            | (state, .error error) => (state, .unapplied error)
            | (state, .ok ()) => (state, .saved)
          else ({ state with dnsFile := some text }, .saved)
        else ({ state with dnsFile := some text }, .notValid outcome) := by
  unfold writtenText at written
  split at written
  · rename_i dnsConfig dir complete
    split at written
    · rename_i yaml emitted
      cases written
      simp only [State.onSave, State.saveDnsConfig, dir, complete, emitted]
    · contradiction
  · contradiction

theorem onSave_of_unwritten {config : Except String Mapping}
    (unwritten : writtenText serde config answers = none) (dnsEnabled : Bool) :
    ¬ (state.onSave serde config dnsEnabled answers).2.Rejects := by
  unfold writtenText at unwritten
  cases config with
  | error error => exact id
  | ok dnsConfig =>
    unfold State.onSave State.saveDnsConfig
    cases dir : answers.saveDir with
    | error error => exact id
    | ok found =>
      dsimp only
      cases emitted : toMihomoConfigString serde.toString dnsConfig with
      | error error => exact id
      | ok yaml =>
        cases written : answers.written with
        | failed error left => exact id
        | complete => simp [dir, emitted, written] at unwritten

theorem validateFileSyntaxOutcome_cases (serde : Serde) (text : String) (answers : Answers) :
    Invalid serde text answers ∧
        (∃ message, State.validateFileSyntaxOutcome serde text answers = .invalid message) ∨
      ¬ Invalid serde text answers ∧ State.validateFileSyntaxOutcome serde text answers = .valid := by
  unfold State.validateFileSyntaxOutcome Invalid
  cases answers.validateRead with
  | error error => exact .inl ⟨.inl rfl, _, rfl⟩
  | ok read =>
    cases serde.fromStrValue text with
    | error error => exact .inl ⟨.inr rfl, _, rfl⟩
    | ok value => exact .inr ⟨by simp [Except.isOk, Except.toBool], rfl⟩

theorem NotKept.of_accepted {saved : State × State.Ending} (accepted : ¬ saved.2.Rejects) :
    NotKept state saved :=
  ⟨fun rejects => absurd rejects accepted, fun rejects => absurd rejects accepted⟩

/-- A rejected configuration is kept, unless the file held the same text before. -/
theorem notKept_iff (serde : Serde) (state : State) (config : Except String Mapping)
    (dnsEnabled : Bool) (answers : Answers) :
    NotKept state (state.onSave serde config dnsEnabled answers) ↔
      ∀ text ∈ writtenText serde config answers, Refused serde state.world text dnsEnabled answers →
        state.dnsFile = some text := by
  have staged (draft) (is_ : draft ∈ state.world.runtime.draft) :
      draft = state.world.runtime.latest := by
    rw [Slot.latest, Option.mem_def.mp is_]
    rfl
  cases written : writtenText serde config answers with
  | none =>
    refine iff_of_true (.of_accepted (onSave_of_unwritten written dnsEnabled)) fun text listed => ?_
    simp at listed
  | some text =>
    rw [onSave_of_written written]
    simp only [Option.mem_def, Option.some.injEq, forall_eq']
    cases validateDir : answers.validateDir with
    | error error =>
      refine iff_of_true ?_ fun refused => ?_
      · simp only [State.validateDnsConfig, validateDir]
        exact .of_accepted id
      · simp [Refused, validateDir, Except.isOk, Except.toBool] at refused
    | ok found =>
      have validated : answers.validateDir.isOk = true := by rw [validateDir]; rfl
      simp only [State.validateDnsConfig, validateDir]
      cases exiting : state.world.exiting with
      | true => exact iff_of_true (.of_accepted id) fun refused => by simp [Refused, exiting] at refused
      | false =>
        have kept (saved : State × State.Ending) (rejects : saved.2.Rejects)
            (file : saved.1.dnsFile = some text) (left : ∀ draft ∈ saved.1.world.runtime.draft,
              draft = state.world.runtime.latest) :
            NotKept state saved ↔ state.dnsFile = some text :=
          ⟨fun notKept => (notKept.file rejects).symm.trans file,
            fun same => ⟨fun _ => file.trans same.symm, fun _ => left⟩⟩
        rw [if_neg Bool.false_ne_true]
        obtain ⟨invalid, message, outcome⟩ | ⟨valid, outcome⟩ :=
          validateFileSyntaxOutcome_cases serde text answers
        · rw [outcome]
          refine (kept ({ state with dnsFile := some text }, .notValid (.invalid message)) trivial rfl
            staged).trans ?_
          have refused : Refused serde state.world text dnsEnabled answers :=
            ⟨validated, exiting, .inl invalid⟩
          exact ⟨fun same _ => same, fun same => same refused⟩
        · rw [outcome]
          cases dnsEnabled with
          | false =>
            refine iff_of_true (.of_accepted id) fun refused => ?_
            simp [Refused, valid] at refused
          | true =>
            obtain ⟨file, fails, left⟩ := applyDnsConfig_spec serde state.world text answers
            cases applied : { state with dnsFile := some text }.applyDnsConfig serde true answers with
            | mk next result =>
              rw [applied] at file fails left
              cases result with
              | error error =>
                refine (kept (next, .unapplied error) trivial file (left rfl)).trans ?_
                have refused : Refused serde state.world text true answers :=
                  ⟨validated, exiting, .inr ⟨rfl, fails.mp rfl⟩⟩
                exact ⟨fun same _ => same, fun same => same refused⟩
              | ok _ =>
                refine iff_of_true (.of_accepted id) fun refused => ?_
                obtain invalid | ⟨-, unapplied⟩ := refused.2.2
                · exact absurd invalid valid
                · simpa [Except.isOk, Except.toBool] using fails.mpr unapplied

/-- A name server of a kind that the core does not know. -/
def bogusServer : Mapping :=
  [(.string "dns", .mapping [(.string "nameserver", .sequence [.string "bogus://1.1.1.1"])])]

/-- What `serde_yaml_ng` makes of it. -/
def bogusSerde : Serde where
  toString _ := .ok "dns:\n  nameserver:\n  - bogus://1.1.1.1\n".toList
  fromStrValue _ := .ok (.mapping bogusServer)
  fromStrMapping _ := .ok bogusServer

/-- The core finds the generated configuration invalid; nothing else fails. -/
def bogusAnswers : Answers where
  saveDir := .ok ()
  written := .complete
  validateDir := .ok ()
  validateRead := .ok ()
  applyDir := .ok ()
  applyRead := .ok ()
  update := {
    generated := .ok bogusServer
    validation := .ok (.invalid "DNS NameServer[0] unsupport scheme: bogus")
    written := .ok ()
    application := ⟨false, .unsupported, none, .ok (), ⟨.stopped, .waits, true, .ok ()⟩⟩ }

/-- There was no file, and now there is one with the name server that the core has refused. -/
theorem bogusServer_kept : ¬ ∀ (serde : Serde) (state : State) (config : Except String Mapping)
    (dnsEnabled : Bool) (answers : Answers),
      NotKept state (state.onSave serde config dnsEnabled answers) := by
  intro notKept
  have kept := notKept bogusSerde ⟨World.atRest .linux .sidecar ⟨[], Verge.IVerge.default⟩, none⟩
    (.ok bogusServer) true bogusAnswers
  exact absurd (kept.file trivial) nofun

end ClashVerge.Cmd.Dns
