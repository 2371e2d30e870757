import ClashVerge.Config.Update
import ClashVerge.Library.Transition

/-!
# The cache of the validated configuration

`validate_config_outcome_with` has the core test a configuration, unless the bytes and the
environment have the fingerprint that was accepted last. The fingerprint and the test read the
choice of the core and the files one after another, and the environment may change in between. Only
one call at a time gets past `try_start`, so the file that is tested is that of the call.

What the core answers is a function of the bytes, of the chosen core and of the metadata of its
binary and of the geo databases; this function and the hash are arguments.

A fingerprint that is stored describes what the call saw first, not what the core saw. The cache is
sound as long as a core that accepts does so in the environment of the fingerprint.
-/

namespace ClashVerge.Validate

open ClashVerge.Config Transition

/-- What `fs::metadata` tells of a file. -/
structure Metadata where
  len : Nat
  modified : Option Nat
deriving DecidableEq, Repr

/-- The files whose metadata enters the fingerprint. -/
inductive Watched where
  | binary (core : String)
  | geo (asset : String)
deriving DecidableEq, Repr

def geoAssets : List String :=
  ["Country.mmdb", "ASN.mmdb", "geoip.dat", "geosite.dat", "geoip.metadb", "GeoSite.dat"]

/-- Whether the executable and the home directory of the app can be told. -/
structure Host where
  currentExe : Bool
  appHomeDir : Bool
deriving DecidableEq, Repr

/-- The paths of the loop in `validation_fingerprint`. -/
def watched (host : Host) (core : String) : List Watched :=
  (if host.currentExe then [.binary core] else []) ++
    if host.appHomeDir then geoAssets.map .geo else []

structure Environment where
  clashCore : Option String
  metadata : Watched → Option Metadata

def Environment.validClashCore (environment : Environment) : String :=
  environment.clashCore.getD "verge-mihomo"

/-- What is hashed: the bytes, the core, and the metadata of the files, absent where they have
none. -/
structure Inputs where
  yaml : String
  core : String
  metadata : List (Option Metadata)
deriving DecidableEq, Repr

def Environment.observe (environment : Environment) (host : Host) (yaml core : String) : Inputs :=
  ⟨yaml, core, (watched host core).map environment.metadata⟩

/-- What a run of the core leaves. A core that was killed has no code. -/
structure Output where
  code : Option Int
  stdout : List UInt8
  stderr : List UInt8
deriving DecidableEq

def containsAnyKeyword (buf : List UInt8) (keywords : List String) : Bool :=
  keywords.any fun keyword =>
    let needle := keyword.toUTF8.toList
    !needle.isEmpty && buf.tails.any (needle.isPrefixOf ·)

def errorKeywords : List String := ["FATA", "fatal", "Parse config error", "level=fatal"]

/-- `str::from_utf8(..).unwrap_or_default()`. -/
def utf8OrEmpty (bytes : List UInt8) : String := (String.fromUTF8? ⟨bytes.toArray⟩).getD ""

/-- The end of `validate_config_internal_outcome`, once the core has run. -/
def outcomeOf (output : Output) : ValidationOutcome :=
  if output.code ≠ some 0 || containsAnyKeyword output.stderr errorKeywords then
    .invalid (
      if !output.stdout.isEmpty then utf8OrEmpty output.stdout
      else if !output.stderr.isEmpty then utf8OrEmpty output.stderr
      else match output.code with
        | some code => "验证进程异常退出，退出码: " ++ toString code
        | none => "验证进程被终止，请检查是否有安全软件阻止了内核运行，或电脑 CPU/运行环境是否支持该内核程序。")
  else .valid

/-- Where a call stands. From `started` on it holds the flag, up to its return. -/
inductive Phase where
  | idle
  | started
  | reading (core : String) (rest : List Watched) (read : List (Option Metadata))
  | missed (inputs : Inputs)
  | written (inputs : Inputs)
  | chosen (inputs : Inputs) (core : String)
  | accepted (inputs : Inputs)
  | stored
  | returned (result : Except String ValidationOutcome)
deriving DecidableEq

/-- The call has passed `try_start` and has not returned. -/
def Phase.active : Phase → Bool
  | .idle => false
  | .returned _ => false
  | _ => true

structure State (Call : Type) where
  environment : Environment
  isProcessing : Bool
  lastValidated : Option UInt64
  /-- The configuration file that the core is to test. -/
  checkConfig : Option String
  phase : Call → Phase
  /-- What the stored fingerprint was computed from. -/
  validated : Option Inputs
  /-- What the calls that were answered from the cache had fingerprinted. -/
  answers : List Inputs

inductive Action (Call : Type) where
  | setCore (core : Option String)
  | setFile (file : Watched) (metadata : Option Metadata)
  | start (call : Call)
  | readCore (call : Call)
  | readMetadata (call : Call)
  | lookUp (call : Call)
  | saveYaml (call : Call) (saved : Except String Unit)
  | chooseCore (call : Call) (exiting : Bool)
  | runCore (call : Call) (spawned : Except String Unit)
  | store (call : Call)
  | removeFile (call : Call)
deriving DecidableEq

section

variable {Call : Type} [DecidableEq Call]

namespace State

def setPhase (state : State Call) (call : Call) (phase : Phase) : State Call :=
  { state with phase := Function.update state.phase call phase }

theorem setPhase_self (state : State Call) (call : Call) (phase : Phase) :
    (state.setPhase call phase).phase call = phase := Function.update_self ..

theorem setPhase_other (state : State Call) {call other : Call} (phase : Phase)
    (different : other ≠ call) : (state.setPhase call phase).phase other = state.phase other :=
  Function.update_of_ne different ..

/-- Leave the function: the deferred `finish` runs. -/
def leave (state : State Call) (call : Call) (result : Except String ValidationOutcome) :
    State Call :=
  { state.setPhase call (.returned result) with isProcessing := false }

def new (environment : Environment) : State Call :=
  ⟨environment, false, none, none, fun _ => .idle, none, []⟩

end State

variable (hash : Inputs → UInt64) (verdict : Inputs → Output) (host : Host) (yaml : Call → String)

def step (state : State Call) : Action Call → Option (State Call)
  | .setCore core => some { state with environment := { state.environment with clashCore := core } }
  | .setFile file metadata => some { state with environment := { state.environment with
      metadata := Function.update state.environment.metadata file metadata } }
  | .start call =>
    match state.phase call with
    | .idle =>
      if state.isProcessing then some (state.setPhase call (.returned (.ok .busy)))
      else some { state.setPhase call .started with isProcessing := true }
    | _ => none
  | .readCore call =>
    match state.phase call with
    | .started =>
      let core := state.environment.validClashCore
      some (state.setPhase call (.reading core (watched host core) []))
    | _ => none
  | .readMetadata call =>
    match state.phase call with
    | .reading core (file :: rest) read =>
      some (state.setPhase call (.reading core rest (read ++ [state.environment.metadata file])))
    | _ => none
  | .lookUp call =>
    match state.phase call with
    | .reading core [] read =>
      let inputs : Inputs := ⟨yaml call, core, read⟩
      if state.lastValidated = some (hash inputs) then
        some { state.leave call (.ok .valid) with answers := state.answers ++ [inputs] }
      else if host.appHomeDir then some (state.setPhase call (.missed inputs))
      else some (state.leave call (.error "failed to get the app home dir"))
    | _ => none
  | .saveYaml call saved =>
    match state.phase call, saved with
    | .missed inputs, .ok () =>
      some { state.setPhase call (.written inputs) with checkConfig := some (yaml call) }
    | .missed _, .error error => some (state.leave call (.error error))
    | _, _ => none
  | .chooseCore call exiting =>
    match state.phase call with
    | .written inputs =>
      if exiting then some (state.leave call (.ok (.skipped .exiting)))
      else some (state.setPhase call (.chosen inputs state.environment.validClashCore))
    | _ => none
  | .runCore call spawned =>
    match state.phase call, spawned with
    | .chosen inputs core, .ok () =>
      let outcome := outcomeOf
        (verdict (state.environment.observe host (state.checkConfig.getD "") core))
      if outcome.isValid then some (state.setPhase call (.accepted inputs))
      else some (state.leave call (.ok outcome))
    | .chosen _ _, .error error => some (state.leave call (.error error))
    | _, _ => none
  | .store call =>
    match state.phase call with
    | .accepted inputs =>
      some { state.setPhase call .stored with
        lastValidated := some (hash inputs)
        validated := some inputs }
    | _ => none
  | .removeFile call =>
    match state.phase call with
    | .stored => some { state.leave call (.ok .valid) with checkConfig := none }
    | _ => none

end

variable {Call : Type}

/-- The core accepts these bytes in this environment. -/
def Accepts (verdict : Inputs → Output) (inputs : Inputs) : Prop :=
  (outcomeOf (verdict inputs)).isValid = true

instance (verdict : Inputs → Output) (inputs : Inputs) : Decidable (Accepts verdict inputs) :=
  inferInstanceAs (Decidable (_ = _))

/-- Every call that was answered from the cache asked for something that the core accepts in the
environment this call fingerprinted. -/
def Sound (verdict : Inputs → Output) (state : State Call) : Prop :=
  ∀ inputs ∈ state.answers, Accepts verdict inputs

/-- A fingerprint that is found in the cache was computed from the same inputs. -/
def NoCollision (hash : Inputs → UInt64) (yaml : Call → String) (state : State Call) :
    Action Call → Prop
  | .lookUp call =>
    match state.phase call with
    | .reading core [] read =>
      state.lastValidated = some (hash ⟨yaml call, core, read⟩) →
        state.validated = some ⟨yaml call, core, read⟩
    | _ => True
  | _ => True

/-- A core that accepts runs in the environment that the call has fingerprinted. -/
def Unchanged (verdict : Inputs → Output) (host : Host) (yaml : Call → String)
    (state : State Call) : Action Call → Prop
  | .runCore call (.ok ()) =>
    match state.phase call with
    | .chosen inputs core =>
      Accepts verdict (state.environment.observe host (yaml call) core) →
        state.environment.observe host (yaml call) core = inputs
    | _ => True
  | _ => True

instance (hash : Inputs → UInt64) (yaml : Call → String) (state : State Call)
    (action : Action Call) : Decidable (NoCollision hash yaml state action) := by
  unfold NoCollision
  split
  · split <;> infer_instance
  · infer_instance

instance (verdict : Inputs → Output) (host : Host) (yaml : Call → String) (state : State Call)
    (action : Action Call) : Decidable (Unchanged verdict host yaml state action) := by
  unfold Unchanged
  split
  · split <;> infer_instance
  · infer_instance

/-- What a call knows: the file to test is its own, and what it is about to store is accepted. -/
def Phase.Agrees (verdict : Inputs → Output) (yaml : String) (checkConfig : Option String) :
    Phase → Prop
  | .written _ => checkConfig = some yaml
  | .chosen _ _ => checkConfig = some yaml
  | .accepted inputs => Accepts verdict inputs
  | _ => True

theorem Phase.agrees_of_inactive {verdict : Inputs → Output} {yaml : String}
    {checkConfig : Option String} {phase : Phase} (inactive : phase.active = false) :
    phase.Agrees verdict yaml checkConfig := by
  cases phase <;> first
    | contradiction
    | trivial

/-- One call at a time is past `try_start`, and what is stored was accepted. -/
structure Invariant (hash : Inputs → UInt64) (verdict : Inputs → Output) (yaml : Call → String)
    (state : State Call) : Prop where
  flag : ∀ call, (state.phase call).active = true → state.isProcessing = true
  single : ∀ call other, (state.phase call).active = true → (state.phase other).active = true →
    call = other
  fingerprint : state.lastValidated = state.validated.map hash
  validated : ∀ inputs ∈ state.validated, Accepts verdict inputs
  answers : Sound verdict state
  agrees : ∀ call, (state.phase call).Agrees verdict (yaml call) state.checkConfig

section

variable {hash : Inputs → UInt64} {verdict : Inputs → Output} {host : Host} {yaml : Call → String}

theorem invariant_new (environment : Environment) :
    Invariant hash verdict yaml (State.new environment : State Call) where
  flag call active := by contradiction
  single call other active := by contradiction
  fingerprint := rfl
  validated inputs member := by contradiction
  answers inputs member := by contradiction
  agrees call := trivial

variable {call : Call}

theorem Invariant.lone {state : State Call} (old : Invariant hash verdict yaml state)
    (active : (state.phase call).active = true) (other : Call) (different : other ≠ call) :
    (state.phase other).active = false := by
  rw [← Bool.not_eq_true]
  exact fun also => different (old.single other call also active)

variable [DecidableEq Call]

variable {state next : State Call}

theorem invariant_work {phase : Phase}
    (lone : ∀ other, other ≠ call → (state.phase other).active = false)
    (phases : next.phase = Function.update state.phase call phase)
    (flag : phase.active = true → next.isProcessing = true)
    (fingerprint : next.lastValidated = next.validated.map hash)
    (validated : ∀ inputs ∈ next.validated, Accepts verdict inputs) (answers : Sound verdict next)
    (agrees : phase.Agrees verdict (yaml call) next.checkConfig) :
    Invariant hash verdict yaml next := by
  have self : next.phase call = phase := by rw [phases, Function.update_self]
  have rest : ∀ other, other ≠ call → (next.phase other).active = false := by
    intro other different
    rw [phases, Function.update_of_ne different]
    exact lone other different
  have only : ∀ other, (next.phase other).active = true → other = call := by
    intro other also
    by_contra different
    rw [rest other different] at also
    contradiction
  refine ⟨fun other also => ?_, fun first second one two => (only first one).trans (only second two).symm,
    fingerprint, validated, answers, fun other => ?_⟩
  · obtain rfl := only other also
    exact flag (self ▸ also)
  · by_cases same : other = call
    · subst same
      rw [self]
      exact agrees
    · exact Phase.agrees_of_inactive (rest other same)

theorem Invariant.setPhase {state : State Call} (old : Invariant hash verdict yaml state)
    {phase : Phase} (active : (state.phase call).active = true)
    (agrees : phase.Agrees verdict (yaml call) state.checkConfig) :
    Invariant hash verdict yaml (state.setPhase call phase) :=
  invariant_work (old.lone active) rfl (fun _ => old.flag call active) old.fingerprint old.validated old.answers agrees

theorem Invariant.leave {state : State Call} (old : Invariant hash verdict yaml state)
    (active : (state.phase call).active = true)
    (result : Except String ValidationOutcome) :
    Invariant hash verdict yaml (state.leave call result) :=
  invariant_work (old.lone active) rfl (fun also => by contradiction) old.fingerprint old.validated old.answers trivial

section

variable (old : Invariant hash verdict yaml state)
include old

theorem Invariant.start (taken : step hash verdict host yaml state (.start call) = some next) :
    Invariant hash verdict yaml next := by
  simp only [step] at taken
  split at taken
  · rename_i idle
    split at taken
    · cases taken
      have same : ∀ other, ((state.setPhase call (.returned (.ok .busy))).phase other).active =
          (state.phase other).active := by
        intro other
        by_cases own : other = call
        · subst own
          rw [State.setPhase_self, idle]
          rfl
        · rw [State.setPhase_other _ _ own]
      refine ⟨fun other also => old.flag other (same other ▸ also),
        fun first second one two => old.single first second (same first ▸ one) (same second ▸ two),
        old.fingerprint, old.validated, old.answers, fun other => ?_⟩
      by_cases own : other = call
      · subst own
        rw [State.setPhase_self]
        trivial
      · rw [State.setPhase_other _ _ own]
        exact old.agrees other
    · rename_i free
      cases taken
      refine invariant_work (fun other _ => ?_) rfl (fun _ => rfl) old.fingerprint old.validated
        old.answers trivial
      rw [← Bool.not_eq_true]
      exact fun also => free (old.flag other also)
  · contradiction

theorem Invariant.lookUp (apart : NoCollision hash yaml state (.lookUp call))
    (taken : step hash verdict host yaml state (.lookUp call) = some next) :
    Invariant hash verdict yaml next := by
  simp only [step] at taken
  split at taken
  · rename_i core read reading
    have active : (state.phase call).active = true := by rw [reading]; rfl
    simp only [NoCollision, reading] at apart
    split at taken
    · rename_i hit
      cases taken
      refine invariant_work (old.lone active) rfl (fun also => by contradiction) old.fingerprint
        old.validated (fun inputs member => ?_) trivial
      obtain earlier | own := List.mem_append.mp member
      · exact old.answers inputs earlier
      · obtain rfl := List.mem_singleton.mp own
        exact old.validated _ (apart hit)
    · split at taken
      · cases taken
        exact old.setPhase active trivial
      · cases taken
        exact old.leave active _
  · contradiction

theorem Invariant.runCore {spawned : Except String Unit}
    (unchanged : Unchanged verdict host yaml state (.runCore call spawned))
    (taken : step hash verdict host yaml state (.runCore call spawned) = some next) :
    Invariant hash verdict yaml next := by
  have agrees := old.agrees call
  simp only [step] at taken
  split at taken
  · rename_i inputs core chosen
    have active : (state.phase call).active = true := by rw [chosen]; rfl
    simp only [Unchanged, chosen] at unchanged
    rw [chosen] at agrees
    have own : state.checkConfig.getD "" = yaml call := by
      rw [show state.checkConfig = some (yaml call) from agrees]
      rfl
    rw [own] at taken
    split at taken
    · rename_i accepts
      cases taken
      refine old.setPhase active ?_
      rw [unchanged accepts] at accepts
      exact accepts
    · cases taken
      exact old.leave active _
  · rename_i inputs core error chosen
    cases taken
    exact old.leave (by rw [chosen]; rfl) _
  · contradiction

theorem invariant_step {action : Action Call} (apart : NoCollision hash yaml state action)
    (unchanged : Unchanged verdict host yaml state action)
    (taken : step hash verdict host yaml state action = some next) :
    Invariant hash verdict yaml next := by
  cases action with
  | setCore core | setFile file metadata =>
    cases taken
    exact ⟨old.flag, old.single, old.fingerprint, old.validated, old.answers, old.agrees⟩
  | start call => exact old.start taken
  | readCore call =>
    simp only [step] at taken
    split at taken
    · rename_i started
      cases taken
      exact old.setPhase (by rw [started]; rfl) trivial
    · contradiction
  | readMetadata call =>
    simp only [step] at taken
    split at taken
    · rename_i core file rest read reading
      cases taken
      exact old.setPhase (by rw [reading]; rfl) trivial
    · contradiction
  | lookUp call => exact old.lookUp apart taken
  | saveYaml call saved =>
    simp only [step] at taken
    split at taken
    · rename_i inputs missed
      cases taken
      have active : (state.phase call).active = true := by rw [missed]; rfl
      exact invariant_work (old.lone active) rfl (fun _ => old.flag call active) old.fingerprint
        old.validated old.answers rfl
    · rename_i inputs error missed
      cases taken
      exact old.leave (by rw [missed]; rfl) _
    · contradiction
  | chooseCore call exiting =>
    have agrees := old.agrees call
    simp only [step] at taken
    split at taken
    · rename_i inputs written
      have active : (state.phase call).active = true := by rw [written]; rfl
      rw [written] at agrees
      split at taken
      · cases taken
        exact old.leave active _
      · cases taken
        exact old.setPhase active agrees
    · contradiction
  | runCore call spawned => exact old.runCore unchanged taken
  | store call =>
    have agrees := old.agrees call
    simp only [step] at taken
    split at taken
    · rename_i inputs accepted
      have active : (state.phase call).active = true := by rw [accepted]; rfl
      rw [accepted] at agrees
      cases taken
      refine invariant_work (old.lone active) rfl (fun _ => old.flag call active) rfl
        (fun own member => ?_) old.answers trivial
      cases member
      exact agrees
    · contradiction
  | removeFile call =>
    simp only [step] at taken
    split at taken
    · rename_i stored
      have active : (state.phase call).active = true := by rw [stored]; rfl
      cases taken
      exact invariant_work (old.lone active) rfl (fun also => by contradiction) old.fingerprint
        old.validated old.answers trivial
    · contradiction

end

/-- Where fingerprints do not collide, and a core that accepts runs in the environment that the call
has fingerprinted, the cache is sound. -/
theorem cache_sound {environment : Environment} {actions : List (Action Call)} {state : State Call}
    (apart : Meets (step hash verdict host yaml) (NoCollision hash yaml) (State.new environment)
      actions)
    (unchanged : Meets (step hash verdict host yaml) (Unchanged verdict host yaml)
      (State.new environment) actions)
    (ran : run (step hash verdict host yaml) (State.new environment) actions = some state) :
    Sound verdict state :=
  (run_invariant_of_meets (Invariant hash verdict yaml)
    (fun _ _ _ old met taken => invariant_step old met.1 met.2 taken) (invariant_new environment)
    (apart.and unchanged) ran).answers

end

def alphaOnly (inputs : Inputs) : Output :=
  if inputs.core = "verge-mihomo-alpha" then ⟨some 0, [], []⟩
  else ⟨some 1, "level=fatal".toUTF8.toList, []⟩

def byLength (inputs : Inputs) : UInt64 := UInt64.ofNat inputs.yaml.length

/-- Two calls ask for the same bytes. -/
def sameYaml (_ : Bool) : String := "mode: rule"

def fingerprinting (call : Bool) : List (Action Bool) :=
  [.start call, .readCore call] ++ List.replicate 7 (.readMetadata call) ++ [.lookUp call]

/-- The rest of a call that is not answered from the cache. -/
def testing (call : Bool) : List (Action Bool) :=
  [.chooseCore call false, .runCore call (.ok ()), .store call, .removeFile call]

def twoCalls (between after : List (Action Bool)) : List (Action Bool) :=
  fingerprinting false ++ [.saveYaml false (.ok ())] ++ between ++ testing false ++ after ++
    fingerprinting true

theorem cache_sound_alpha : ∃ state, run (step byLength alphaOnly ⟨true, true⟩ sameYaml)
        (State.new ⟨some "verge-mihomo-alpha", fun _ => none⟩) (twoCalls [] []) = some state ∧
      state.answers.length = 1 ∧ Sound alphaOnly state := by
  have apart : Meets (step byLength alphaOnly ⟨true, true⟩ sameYaml) (NoCollision byLength sameYaml)
      (State.new ⟨some "verge-mihomo-alpha", fun _ => none⟩) (twoCalls [] []) := by decide +kernel
  have unchanged : Meets (step byLength alphaOnly ⟨true, true⟩ sameYaml)
      (Unchanged alphaOnly ⟨true, true⟩ sameYaml)
      (State.new ⟨some "verge-mihomo-alpha", fun _ => none⟩) (twoCalls [] []) := by decide +kernel
  have ran : (run (step byLength alphaOnly ⟨true, true⟩ sameYaml)
      (State.new ⟨some "verge-mihomo-alpha", fun _ => none⟩) (twoCalls [] [])).map
        (·.answers.length) = some 1 := by decide +kernel
  obtain ⟨state, ran, answered⟩ := Option.map_eq_some_iff.mp ran
  exact ⟨state, ran, answered, cache_sound apart unchanged ran⟩

/-- The core is switched between the fingerprint and the test, and back again. -/
theorem cache_unsound :
    ¬ ∀ (hash : Inputs → UInt64) (verdict : Inputs → Output) (host : Host) (yaml : Bool → String)
      (environment : Environment) (actions : List (Action Bool)) (state : State Bool),
      Meets (step hash verdict host yaml) (NoCollision hash yaml) (State.new environment) actions →
        run (step hash verdict host yaml) (State.new environment) actions = some state →
          Sound verdict state := by
  intro all
  have apart : Meets (step byLength alphaOnly ⟨true, true⟩ sameYaml) (NoCollision byLength sameYaml)
      (State.new ⟨none, fun _ => none⟩)
      (twoCalls [.setCore (some "verge-mihomo-alpha")] [.setCore none]) := by decide +kernel
  have ran : (run (step byLength alphaOnly ⟨true, true⟩ sameYaml) (State.new ⟨none, fun _ => none⟩)
      (twoCalls [.setCore (some "verge-mihomo-alpha")] [.setCore none])).map (·.answers) =
        some [⟨"mode: rule", "verge-mihomo", List.replicate 7 none⟩] := by decide +kernel
  obtain ⟨state, ran, answers⟩ := Option.map_eq_some_iff.mp ran
  have accepts := all _ _ _ _ _ _ state apart ran ⟨"mode: rule", "verge-mihomo", List.replicate 7 none⟩
    (by rw [answers]; exact List.mem_singleton_self _)
  revert accepts
  decide

end ClashVerge.Validate
