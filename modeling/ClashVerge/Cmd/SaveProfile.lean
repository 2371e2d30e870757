import ClashVerge.Config.Update
import ClashVerge.Library.Transition
import ClashVerge.Profiles.Store

/-!
# Saving the file of a profile

`save_profile_file` remembers the content it finds, writes the new one, and has it validated; a file
that the running configuration is built from is also applied. Where one of these does not succeed,
the remembered content is put back.

Any number of calls run, each with its own metadata, and every access to a file is one step. Calls
on the same file may remember content that is not accepted yet. Where calls do not overlap, exactly
the edits that returned valid are on disk in the end.
-/

namespace ClashVerge.Cmd

open ClashVerge.Config ClashVerge.Profiles Transition

/-- The uids that `profile_affects_runtime` lists for the current item. -/
def linkedUids (item : PrfItem) : List String :=
  [(item.option.bind PrfOption.merge).getD "Merge", (item.option.bind PrfOption.script).getD "Script",
    (item.option.bind PrfOption.rules).getD "Rules", (item.option.bind PrfOption.proxies).getD "Proxies",
    (item.option.bind PrfOption.groups).getD "Groups"]

def profileAffectsRuntime (profiles : IProfiles) (index : String) : Bool :=
  match profiles.current with
  | none => false
  | some currentUid =>
    if currentUid = index then true
    else match profiles.getItem currentUid with
      | .error _ => false
      | .ok item => (linkedUids item).contains index

/-- What a call takes from the store before it touches the file. -/
structure Metadata where
  relPath : String
  isMergeFile : Bool
  isScriptFile : Bool
  affectsRuntime : Bool
deriving DecidableEq, Repr

/-- The block of `save_profile_file` that reads the store. -/
def readMetadata (profiles : IProfiles) (index : String) : Except String Metadata :=
  match profiles.getItem index with
  | .error error => .error error
  | .ok item =>
    match item.file with
    | none => .error "file field is null"
    | some path => .ok {
        relPath := path
        isMergeFile := item.itype == some "merge"
        isScriptFile := item.itype == some "script" || path.endsWith ".js"
        affectsRuntime := profileAffectsRuntime profiles index }

/-- What `handle_saved_profile_file` does once an await has ended. -/
inductive Next where
  | finish (result : Except String ValidationOutcome)
  | restoreOriginal (result : Except String ValidationOutcome)
  | updateConfigForced

def afterValidation (affectsRuntime : Bool) : Except String ValidationOutcome → Next
  | .ok outcome =>
    if outcome.isValid then
      if !affectsRuntime then .finish (.ok .valid) else .updateConfigForced
    else .restoreOriginal (.ok outcome)
  | .error error => .restoreOriginal (.error error)

def afterUpdate : Except String ValidationOutcome → Next
  | .ok outcome => if outcome.isValid then .finish (.ok .valid) else .restoreOriginal (.ok outcome)
  | .error error => .restoreOriginal (.error error)

/-- The file that a call works on, the text it writes and what it remembers to put back. -/
structure Edit where
  metadata : Metadata
  fileData : String
  originalContent : String
  originalExisted : Bool
deriving DecidableEq, Repr

/-- The remembered content, or the remembered absence. -/
def Edit.original (edit : Edit) : Option String :=
  if edit.originalExisted then some edit.originalContent else none

inductive Phase where
  | idle
  | prepared (metadata : Metadata) (fileData : String)
  | inspected (metadata : Metadata) (fileData : String) (originalExisted : Bool)
  | remembering (edit : Edit)
  | validating (edit : Edit)
  | updating (edit : Edit)
  | restoring (edit : Edit) (result : Except String ValidationOutcome)
  | returned (result : Except String ValidationOutcome)

/-- The file the call works on, from its first access to its return. -/
def Phase.file : Phase → Option String
  | .inspected metadata _ _ => some metadata.relPath
  | .remembering edit | .validating edit | .updating edit | .restoring edit _ =>
    some edit.metadata.relPath
  | _ => none

structure Return where
  relPath : String
  fileData : String
  result : Except String ValidationOutcome

structure State (Call : Type) where
  disk : String → Option String
  phase : Call → Phase
  /-- The calls that have returned after writing, in the order they did. -/
  returns : List Return

inductive Action (Call : Type) where
  | begin (call : Call) (profiles : IProfiles)
  | tryExists (call : Call)
  | readFile (call : Call)
  | write (call : Call)
  | validate (call : Call) (outcome : Except String ValidationOutcome)
  | update (call : Call) (outcome : Except String ValidationOutcome)
  | restore (call : Call)

/-- The arguments of `save_profile_file`. -/
structure Request where
  index : String
  fileData : Option String
deriving DecidableEq, Repr

section

variable {Call : Type} [DecidableEq Call]

namespace State

def new (disk : String → Option String) : State Call := ⟨disk, fun _ => .idle, []⟩

def setPhase (state : State Call) (call : Call) (phase : Phase) : State Call :=
  { state with phase := Function.update state.phase call phase }

theorem setPhase_self (state : State Call) (call : Call) (phase : Phase) :
    (state.setPhase call phase).phase call = phase := Function.update_self ..

theorem setPhase_other (state : State Call) {call other : Call} (phase : Phase)
    (different : other ≠ call) : (state.setPhase call phase).phase other = state.phase other :=
  Function.update_of_ne different ..

def finish (state : State Call) (call : Call) (edit : Edit)
    (result : Except String ValidationOutcome) : State Call :=
  { state.setPhase call (.returned result) with
    returns := state.returns ++ [⟨edit.metadata.relPath, edit.fileData, result⟩] }

/-- Go on as `handle_saved_profile_file` does. -/
def proceed (state : State Call) (call : Call) (edit : Edit) : Next → State Call
  | .finish result => state.finish call edit result
  | .restoreOriginal result => state.setPhase call (.restoring edit result)
  | .updateConfigForced => state.setPhase call (.updating edit)

def setFile (state : State Call) (path : String) (content : Option String) : State Call :=
  { state with disk := Function.update state.disk path content }

end State

/-- `restore_original`: the content it leaves, and its own result. A file that is gone cannot be
removed. -/
def restoreOriginal (disk : String → Option String) (edit : Edit) :
    Except String (String → Option String) :=
  let path := edit.metadata.relPath
  if edit.originalExisted then .ok (Function.update disk path (some edit.originalContent))
  else if (disk path).isSome then .ok (Function.update disk path none)
  else .error "No such file or directory (os error 2)"

def step (request : Call → Request) (state : State Call) : Action Call → Option (State Call)
  | .begin call profiles =>
    match state.phase call with
    | .idle =>
      match (request call).fileData with
      | none => some (state.setPhase call (.returned (.ok .valid)))
      | some fileData =>
        match readMetadata profiles (request call).index with
        | .error error => some (state.setPhase call (.returned (.error error)))
        | .ok metadata => some (state.setPhase call (.prepared metadata fileData))
    | _ => none
  | .tryExists call =>
    match state.phase call with
    | .prepared metadata fileData =>
      some (state.setPhase call
        (.inspected metadata fileData (state.disk metadata.relPath).isSome))
    | _ => none
  | .readFile call =>
    match state.phase call with
    | .inspected metadata fileData true =>
      match state.disk metadata.relPath with
      | some content => some (state.setPhase call (.remembering ⟨metadata, fileData, content, true⟩))
      | none => some (state.setPhase call (.returned
          (.error ("failed to read the file \"" ++ metadata.relPath ++ "\""))))
    | .inspected metadata fileData false =>
      some (state.setPhase call (.remembering ⟨metadata, fileData, "", false⟩))
    | _ => none
  | .write call =>
    match state.phase call with
    | .remembering edit =>
      some ((state.setFile edit.metadata.relPath (some edit.fileData)).setPhase call
        (.validating edit))
    | _ => none
  | .validate call outcome =>
    match state.phase call with
    | .validating edit =>
      some (state.proceed call edit (afterValidation edit.metadata.affectsRuntime outcome))
    | _ => none
  | .update call outcome =>
    match state.phase call with
    | .updating edit => some (state.proceed call edit (afterUpdate outcome))
    | _ => none
  | .restore call =>
    match state.phase call with
    | .restoring edit result =>
      match restoreOriginal state.disk edit with
      | .ok disk => some ({ state with disk := disk }.finish call edit result)
      | .error error => some (state.finish call edit (.error error))
    | _ => none

end

variable {Call : Type}

def Return.accept (disk : String → Option String) (entry : Return) : String → Option String :=
  match entry.result with
  | .ok .valid => Function.update disk entry.relPath (some entry.fileData)
  | _ => disk

/-- The disk with the writes of exactly the calls that returned valid, in the order they did. -/
def accepted (disk : String → Option String) (returns : List Return) : String → Option String :=
  returns.foldl Return.accept disk

def State.Quiescent (state : State Call) : Prop :=
  ∀ call, state.phase call = .idle ∨ ∃ result, state.phase call = .returned result

/-- A call looks for its file while no other call is at work on that file. -/
def Alone (state : State Call) : Action Call → Prop
  | .tryExists call =>
    match state.phase call with
    | .prepared metadata _ => ∀ other, (state.phase other).file ≠ some metadata.relPath
    | _ => True
  | _ => True

instance [Fintype Call] (state : State Call) (action : Action Call) :
    Decidable (Alone state action) := by
  unfold Alone
  split
  · split <;> infer_instance
  · infer_instance

/-- Where a call that works on a file stands, against what is accepted of that file. -/
def Phase.Agrees (disk accepted : String → Option String) : Phase → Prop
  | .inspected metadata _ originalExisted =>
    disk metadata.relPath = accepted metadata.relPath ∧
      originalExisted = (accepted metadata.relPath).isSome
  | .remembering edit =>
    disk edit.metadata.relPath = accepted edit.metadata.relPath ∧
      edit.original = accepted edit.metadata.relPath
  | .validating edit | .updating edit =>
    disk edit.metadata.relPath = some edit.fileData ∧
      edit.original = accepted edit.metadata.relPath
  | .restoring edit result =>
    disk edit.metadata.relPath = some edit.fileData ∧
      edit.original = accepted edit.metadata.relPath ∧ result ≠ .ok .valid
  | _ => True

/-- The calls at work are on different files, and each remembers what is accepted of its own. -/
structure Serial (initial : String → Option String) (state : State Call) : Prop where
  resting : ∀ path, (∀ call, (state.phase call).file ≠ some path) →
    state.disk path = accepted initial state.returns path
  single : ∀ call other path, (state.phase call).file = some path →
    (state.phase other).file = some path → call = other
  agrees : ∀ call, (state.phase call).Agrees state.disk (accepted initial state.returns)

section

variable {initial : String → Option String}

theorem Phase.Agrees.congr {phase : Phase} {disk disk' accepted accepted' : String → Option String}
    (agrees : phase.Agrees disk accepted)
    (same : ∀ path, phase.file = some path → disk' path = disk path ∧ accepted' path = accepted path) :
    phase.Agrees disk' accepted' := by
  cases phase with
  | inspected metadata fileData existed | remembering edit | validating edit | updating edit
  | restoring edit result =>
    obtain ⟨content, known⟩ := same _ rfl
    simpa only [Agrees, content, known] using agrees
  | _ => trivial

theorem accepted_append (returns : List Return) (entry : Return) :
    accepted initial (returns ++ [entry]) = entry.accept (accepted initial returns) := by
  simp [accepted]

theorem accept_valid (disk : String → Option String) (entry : Return)
    (valid : entry.result = .ok .valid) :
    entry.accept disk = Function.update disk entry.relPath (some entry.fileData) := by
  rw [Return.accept, valid]

theorem accept_rejected (disk : String → Option String) {entry : Return}
    (rejected : entry.result ≠ .ok .valid) : entry.accept disk = disk := by
  unfold Return.accept
  split
  · rename_i valid
    exact absurd valid rejected
  · rfl

theorem accept_other (disk : String → Option String) (entry : Return) {path : String}
    (different : path ≠ entry.relPath) : entry.accept disk path = disk path := by
  by_cases valid : entry.result = .ok .valid
  · rw [accept_valid disk entry valid]
    exact Function.update_of_ne different ..
  · rw [accept_rejected disk valid]

theorem serial_new : Serial initial (State.new initial : State Call) where
  resting _ _ := rfl
  single call other path holds := by contradiction
  agrees call := trivial

variable [DecidableEq Call]

/-- A call that works on one file, alone there, leaves the calls apart if it agrees with that file
afterwards or has left it as accepted. -/
theorem Serial.work {state next : State Call} (old : Serial initial state) {call : Call}
    {path : String} {phase : Phase}
    (mine : ∀ other, (state.phase other).file = some path → other = call)
    (was : (state.phase call).file = none ∨ (state.phase call).file = some path)
    (phases : next.phase = Function.update state.phase call phase)
    (disk : ∀ other, other ≠ path → next.disk other = state.disk other)
    (accepts : ∀ other, other ≠ path →
      accepted initial next.returns other = accepted initial state.returns other)
    (becomes : phase.file = some path ∨
      phase.file = none ∧ next.disk path = accepted initial next.returns path)
    (agrees : phase.Agrees next.disk (accepted initial next.returns)) : Serial initial next := by
  have self : next.phase call = phase := by rw [phases, Function.update_self]
  have others : ∀ other, other ≠ call → next.phase other = state.phase other := by
    intro other different
    rw [phases, Function.update_of_ne different]
  have onPath : ∀ {file}, phase.file = some file → file = path := by
    intro file is_
    obtain here | ⟨gone, -⟩ := becomes
    · exact Option.some.inj (is_.symm.trans here)
    · rw [gone] at is_
      contradiction
  refine ⟨?_, ?_, ?_⟩
  · intro file free
    by_cases same : file = path
    · subst same
      obtain here | ⟨-, content⟩ := becomes
      · exact absurd here (self ▸ free call)
      · exact content
    · rw [disk file same, accepts file same]
      refine old.resting file fun other here => ?_
      by_cases own : other = call
      · subst own
        obtain none_ | some_ := was
        · rw [none_] at here
          contradiction
        · rw [some_] at here
          exact same (Option.some.inj here).symm
      · exact free other (by rw [others other own]; exact here)
  · have lone : ∀ other file, phase.file = some file → (next.phase other).file = some file →
        other = call := by
      intro other file is_ here
      by_contra own
      rw [others other own, onPath is_] at here
      exact own (mine other here)
    intro first second file one two
    by_cases firstOwn : first = call
    · subst firstOwn
      exact (lone second file (self ▸ one) two).symm
    · by_cases secondOwn : second = call
      · subst secondOwn
        exact lone first file (self ▸ two) one
      · rw [others first firstOwn] at one
        rw [others second secondOwn] at two
        exact old.single first second file one two
  · intro other
    by_cases own : other = call
    · subst own
      rw [self]
      exact agrees
    · rw [others other own]
      refine (old.agrees other).congr fun file here => ?_
      have different : file ≠ path := by
        rintro rfl
        exact own (mine other here)
      exact ⟨disk file different, accepts file different⟩

variable {state : State Call} {call : Call}

theorem Serial.setPhase (old : Serial initial state) {phase : Phase} {path : String}
    (here : (state.phase call).file = some path) (file : phase.file = some path)
    (agrees : phase.Agrees state.disk (accepted initial state.returns)) :
    Serial initial (state.setPhase call phase) :=
  old.work (fun other there => old.single other call path there here) (.inr here) rfl
    (fun _ _ => rfl) (fun _ _ => rfl) (.inl file) agrees

theorem Serial.aside (old : Serial initial state) {phase : Phase}
    (nothing : (state.phase call).file = none) (still : phase.file = none) :
    Serial initial (state.setPhase call phase) := by
  have files : ∀ other, ((state.setPhase call phase).phase other).file = (state.phase other).file := by
    intro other
    by_cases own : other = call
    · subst own
      rw [State.setPhase_self, still, nothing]
    · rw [State.setPhase_other _ _ own]
  refine ⟨fun path free => old.resting path fun other => ?_, fun first second path one two => ?_,
    fun other => ?_⟩
  · rw [← files other]
    exact free other
  · rw [files] at one two
    exact old.single first second path one two
  · by_cases own : other = call
    · subst own
      rw [State.setPhase_self]
      cases phase <;> first
        | contradiction
        | trivial
    · rw [State.setPhase_other _ _ own]
      exact old.agrees other

theorem Serial.finish (old : Serial initial state) {edit : Edit}
    (here : (state.phase call).file = some edit.metadata.relPath) (disk : String → Option String)
    (elsewhere : ∀ other, other ≠ edit.metadata.relPath → disk other = state.disk other)
    {result : Except String ValidationOutcome}
    (left : disk edit.metadata.relPath = (⟨edit.metadata.relPath, edit.fileData, result⟩ : Return).accept
      (accepted initial state.returns) edit.metadata.relPath) :
    Serial initial ({ state with disk := disk }.finish call edit result) := by
  refine old.work (fun other there => old.single other call _ there here)
    (.inr here) rfl elsewhere (fun other different => ?_) (.inr ⟨rfl, ?_⟩) trivial
  · rw [State.finish, accepted_append]
    exact accept_other _ _ different
  · rw [State.finish, accepted_append]
    exact left

/-- A call ends at once only when all is valid, and restores only when something is not. -/
def Next.Sound : Next → Prop
  | .finish result => result = .ok .valid
  | .restoreOriginal result => result ≠ .ok .valid
  | .updateConfigForced => True

theorem afterValidation_sound (affectsRuntime : Bool) (outcome : Except String ValidationOutcome) :
    (afterValidation affectsRuntime outcome).Sound := by
  cases outcome with
  | error error => simp [afterValidation, Next.Sound]
  | ok outcome =>
    cases outcome <;> cases affectsRuntime <;>
      simp [afterValidation, Next.Sound, ValidationOutcome.isValid]

theorem afterUpdate_sound (outcome : Except String ValidationOutcome) :
    (afterUpdate outcome).Sound := by
  cases outcome with
  | error error => simp [afterUpdate, Next.Sound]
  | ok outcome => cases outcome <;> simp [afterUpdate, Next.Sound, ValidationOutcome.isValid]

theorem restoreOriginal_ok {disk : String → Option String} {edit : Edit} {content : String}
    (written : disk edit.metadata.relPath = some content) :
    restoreOriginal disk edit = .ok (Function.update disk edit.metadata.relPath edit.original) := by
  unfold restoreOriginal Edit.original
  split
  · rfl
  · rw [if_pos (by rw [written]; rfl)]

theorem Serial.proceed (old : Serial initial state) {edit : Edit} {next : Next}
    (here : (state.phase call).file = some edit.metadata.relPath)
    (written : state.disk edit.metadata.relPath = some edit.fileData)
    (remembered : edit.original = accepted initial state.returns edit.metadata.relPath)
    (sound : next.Sound) : Serial initial (state.proceed call edit next) := by
  cases next with
  | finish result =>
    have valid : result = .ok .valid := sound
    refine old.finish here state.disk (fun _ _ => rfl) ?_
    rw [accept_valid _ ⟨_, _, _⟩ valid, written, Function.update_self]
  | restoreOriginal result => exact old.setPhase here rfl ⟨written, remembered, sound⟩
  | updateConfigForced => exact old.setPhase here rfl ⟨written, remembered⟩

variable {request : Call → Request}

theorem serial_step {next : State Call} {action : Action Call} (old : Serial initial state)
    (alone : Alone state action) (taken : step request state action = some next) :
    Serial initial next := by
  cases action with
  | begin call profiles =>
    simp only [step] at taken
    split at taken
    · rename_i idle
      have nothing : (state.phase call).file = none := by rw [idle]; rfl
      split at taken
      · cases taken
        exact old.aside nothing rfl
      · split at taken
        · cases taken
          exact old.aside nothing rfl
        · cases taken
          exact old.aside nothing rfl
    · contradiction
  | tryExists call =>
    simp only [step] at taken
    split at taken
    · rename_i metadata fileData prepared
      cases taken
      have free : ∀ other, (state.phase other).file ≠ some metadata.relPath := by
        simpa only [Alone, prepared] using alone
      have content := old.resting metadata.relPath free
      refine old.work (fun other there => absurd there (free other)) (.inl ?_) rfl
        (fun _ _ => rfl) (fun _ _ => rfl) (.inl rfl) ⟨content, ?_⟩
      · rw [prepared]
        rfl
      · exact congrArg Option.isSome content
    · contradiction
  | readFile call =>
    have agrees := old.agrees call
    simp only [step] at taken
    split at taken
    · rename_i metadata fileData inspected
      rw [inspected] at agrees
      obtain ⟨content, existed⟩ := agrees
      split at taken
      · rename_i text found
        cases taken
        refine old.setPhase (by rw [inspected]; rfl) rfl ⟨content, ?_⟩
        rw [← content, found]
        rfl
      · rename_i gone
        rw [← content, gone] at existed
        contradiction
    · rename_i metadata fileData inspected
      rw [inspected] at agrees
      obtain ⟨content, existed⟩ := agrees
      cases taken
      refine old.setPhase (by rw [inspected]; rfl) rfl ⟨content, ?_⟩
      exact (Option.not_isSome_iff_eq_none.mp (by rw [← existed]; decide)).symm
    · contradiction
  | write call =>
    have agrees := old.agrees call
    simp only [step] at taken
    split at taken
    · rename_i edit remembering
      rw [remembering] at agrees
      cases taken
      have here : (state.phase call).file = some edit.metadata.relPath := by
        rw [remembering]
        rfl
      refine old.work (fun other there => old.single other call _ there here) (.inr here) rfl
        (fun other different => Function.update_of_ne different ..) (fun _ _ => rfl) (.inl rfl)
        ⟨Function.update_self .., agrees.2⟩
    · contradiction
  | validate call outcome =>
    have agrees := old.agrees call
    simp only [step] at taken
    split at taken
    · rename_i edit validating
      rw [validating] at agrees
      cases taken
      exact old.proceed (by rw [validating]; rfl) agrees.1 agrees.2 (afterValidation_sound _ _)
    · contradiction
  | update call outcome =>
    have agrees := old.agrees call
    simp only [step] at taken
    split at taken
    · rename_i edit updating
      rw [updating] at agrees
      cases taken
      exact old.proceed (by rw [updating]; rfl) agrees.1 agrees.2 (afterUpdate_sound _)
    · contradiction
  | restore call =>
    have agrees := old.agrees call
    simp only [step] at taken
    split at taken
    · rename_i edit result restoring
      rw [restoring] at agrees
      obtain ⟨written, remembered, rejected⟩ := agrees
      rw [restoreOriginal_ok written] at taken
      cases taken
      refine old.finish (by rw [restoring]; rfl) _ (fun other different => Function.update_of_ne different ..) ?_
      rw [accept_rejected _ rejected, Function.update_self, remembered]
    · contradiction

/-- Where no two calls are at work on one file at a time, the files hold exactly the edits that
returned valid once every call has returned. -/
theorem edits_accepted {actions : List (Action Call)} {state : State Call}
    (alone : Meets (step request) Alone (State.new initial) actions)
    (ran : run (step request) (State.new initial) actions = some state)
    (quiescent : state.Quiescent) : state.disk = accepted initial state.returns := by
  have serial : Serial initial state :=
    run_invariant_of_meets (Serial initial)
      (fun _ _ _ old met taken => serial_step old met taken) serial_new alone ran
  funext path
  refine serial.resting path fun call => ?_
  obtain idle | ⟨result, returned⟩ := quiescent call
  · rw [idle]
    simp [Phase.file]
  · rw [returned]
    simp [Phase.file]

end

def oneProfile : IProfiles where
  current := some "R1"
  items := some [
    { PrfItem.default with uid := some "R1", itype := some "remote", file := some "R1.yaml" },
    { PrfItem.default with uid := some "M1", itype := some "merge", file := some "M1.yaml" }]

/-- Two edits of a merge file that nobody uses. -/
def twoEdits : Bool → Request
  | false => ⟨"M1", some "rules: ["⟩
  | true => ⟨"M1", some "rules: ]"⟩

def emptyMerge : String → Option String
  | "M1.yaml" => some "{}"
  | _ => none

def rejectedCall (call : Bool) : List (Action Bool) :=
  [.begin call oneProfile, .tryExists call, .readFile call, .write call,
    .validate call (.ok (.invalid "yaml syntax error")), .restore call]

theorem edits_accepted_in_turn :
    Meets (step twoEdits) Alone (State.new emptyMerge) (rejectedCall false ++ rejectedCall true) ∧
      ∃ state, run (step twoEdits) (State.new emptyMerge) (rejectedCall false ++ rejectedCall true) =
        some state ∧ state.Quiescent ∧ state.disk = accepted emptyMerge state.returns := by
  have alone : Meets (step twoEdits) Alone (State.new emptyMerge)
      (rejectedCall false ++ rejectedCall true) := by decide
  have quiescent : ∃ state, run (step twoEdits) (State.new emptyMerge)
      (rejectedCall false ++ rejectedCall true) = some state ∧ state.Quiescent := by
    refine ⟨_, rfl, fun call => .inr ?_⟩
    cases call <;> exact ⟨_, rfl⟩
  obtain ⟨state, ran, quiescent⟩ := quiescent
  exact ⟨alone, state, ran, quiescent, edits_accepted alone ran quiescent⟩

/-- The second call finds the text of the first, which is then rejected, and puts it back. -/
theorem rejected_edit_stays :
    ¬ ∀ (request : Bool → Request) (initial : String → Option String) (actions : List (Action Bool))
      (state : State Bool), run (step request) (State.new initial) actions = some state →
        state.Quiescent → state.disk = accepted initial state.returns := by
  intro all
  have ran : ∃ state, run (step twoEdits) (State.new emptyMerge) [.begin false oneProfile,
      .tryExists false, .readFile false, .write false, .begin true oneProfile, .tryExists true,
      .readFile true, .write true, .validate false (.ok (.invalid "yaml syntax error")),
      .restore false, .validate true (.ok (.invalid "yaml syntax error")), .restore true] =
        some state ∧ state.Quiescent ∧ state.disk "M1.yaml" = some "rules: [" ∧
        accepted emptyMerge state.returns "M1.yaml" = some "{}" := by
    refine ⟨_, rfl, fun call => .inr ?_, rfl, rfl⟩
    cases call <;> exact ⟨_, rfl⟩
  obtain ⟨state, ran, quiescent, content, known⟩ := ran
  rw [all _ _ _ state ran quiescent, known] at content
  exact absurd content (by decide)

end ClashVerge.Cmd
