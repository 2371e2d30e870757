import ClashVerge.Library.Transition
import ClashVerge.UriParser.Text

/-!
# The PAC script as a template

A PAC text names the proxy host and the mixed port by placeholders. The server replaces those of the
port whenever the script is asked for. The dialog replaces both before it stores the text, so a
later change of the port or the host does not reach what it stores.
-/

namespace ClashVerge.SystemProxy.Pac

open Transition UriParser

/-- `replace` with every place of the mark; `skip` code units of a place are still to be passed. -/
def replaceFrom (mark value : Text) : Nat → Text → Text
  | _, [] => []
  | skip + 1, _ :: rest => replaceFrom mark value skip rest
  | 0, char :: rest =>
      if mark.isPrefixOf (char :: rest) then value ++ replaceFrom mark value (mark.length - 1) rest
      else char :: replaceFrom mark value 0 rest

def replaceAll (mark value content : Text) : Text := replaceFrom mark value 0 content

def hostMark : Text := text "%proxy_host%"

def portMark : Text := text "%mixed-port%"

def fillHost (host content : Text) : Text := replaceAll hostMark host content

def fillPort (port : Nat) (content : Text) : Text := replaceAll portMark (decimal port) content

/-- `DEFAULT_PAC` of the backend, which a new configuration holds. -/
def storedDefaultPac : Text := text
  "function FindProxyForURL(url, host) \x7b\n  return \"PROXY 127.0.0.1:%mixed-port%; SOCKS5 127.0.0.1:%mixed-port%; DIRECT;\";\n\x7d\n"

def defaultPac : Text := text
  "function FindProxyForURL(url, host) \x7b\n  return \"PROXY %proxy_host%:%mixed-port%; SOCKS5 %proxy_host%:%mixed-port%; DIRECT;\";\n\x7d"

structure State where
  pacFileContent : Option Text
  proxyHost : Option Text
  mixedPort : Nat
  /-- The last text that the user entered, at first the default. -/
  entered : Text

def State.new (port : Nat) : State := ⟨some storedDefaultPac, some (text "127.0.0.1"), port, storedDefaultPac⟩

inductive Action where
  /-- The dialog is saved, with the PAC text if that was edited and the host of the form. -/
  | save (pac : Option Text) (host : Text)
  | changePort (port : Nat)
  | changeHost (host : Text)

def handleSavePac (value : Text) : Text := if trim value = [] then defaultPac else value

def isLetterOrDigit (char : CodeUnit) : Bool := isLetter char || isDigit char

/-- `hostnameRegex`. An IPv4 address is also matched by it. -/
def isHostname (host : Text) : Bool :=
  (host.splitOn (unit '.')).all fun label =>
    label.all (fun char => isLetterOrDigit char || char = unit '-') &&
      label.head?.any isLetterOrDigit && label.getLast?.any isLetterOrDigit

section

variable (ipv6Regex : Text → Bool)

def keptHost (host : Text) : Text :=
  if ipv6Regex host ∧ host.head? ≠ some (unit '[') ∧ host.getLast? ≠ some (unit ']') then
    text "[" ++ host ++ text "]"
  else host

/-- The dialog shows the stored text, and stores it with the host and the port in it. -/
def onSave (state : State) (pac : Option Text) (host : Text) : State :=
  if ipv6Regex host = false ∧ isHostname host = false then state
  else
    let shown := (pac.map handleSavePac).getD (state.pacFileContent.getD defaultPac)
    let pacContent := if shown = [] then shown else fillPort state.mixedPort (fillHost host shown)
    { state with
      pacFileContent := some pacContent
      proxyHost := some (keptHost ipv6Regex host)
      entered := (pac.map handleSavePac).getD state.entered }

def step (state : State) : Action → Option State
  | .save pac host => some (onSave ipv6Regex state pac host)
  | .changePort port => some { state with mixedPort := port }
  | .changeHost host => some { state with proxyHost := some host }

/-- The answer to `/commands/pac`. -/
def State.served (state : State) : Text :=
  fillPort state.mixedPort (state.pacFileContent.getD storedDefaultPac)

def State.host (state : State) : Text := state.proxyHost.getD (text "127.0.0.1")

def State.wanted (state : State) : Text :=
  fillPort state.mixedPort (fillHost state.host state.entered)

/-- The text is still kept as the user entered it, and names no host. -/
def State.Template (state : State) : Prop :=
  state.pacFileContent = some state.entered ∧ ¬ hostMark <:+: state.entered

def Names (kept host content : Text) : Prop := kept = host ∨ ¬ hostMark <:+: content

/-- Nothing changes that the stored text was filled with, and no save fills it again. -/
def Lasting (state : State) : Action → Prop
  | .save (some pac) host => Names (keptHost ipv6Regex host) host (handleSavePac pac)
  | .save none host => Names (keptHost ipv6Regex host) host state.entered ∧
      Names state.host host state.entered ∧
      (state.Template ∨ ¬ hostMark <:+: state.pacFileContent.getD defaultPac)
  | .changePort port => port = state.mixedPort ∨ state.Template ∨
      ¬ portMark <:+: fillHost state.host state.entered
  | .changeHost host => Names state.host host state.entered

end

theorem replaceFrom_of_absent {mark value content : Text} (absent : ¬ mark <:+: content) :
    replaceFrom mark value 0 content = content := by
  induction content with
  | nil => rfl
  | cons char rest ih =>
    rw [List.infix_cons_iff, not_or] at absent
    have here := mt List.isPrefixOf_iff_prefix.mp absent.1
    rw [replaceFrom, if_neg here, ih absent.2]

section

variable {mark value : Text} (other : ∀ char ∈ value, char ∉ mark) (nonempty : value ≠ [])
include other

theorem infix_of_append {content : Text} (some_ : mark ≠ []) (inside : mark <:+: value ++ content) :
    mark <:+: content := by
  induction value with
  | nil => exact inside
  | cons first rest ih =>
    rcases List.infix_cons_iff.mp inside with starts | later
    · obtain ⟨head, tail, rfl⟩ := List.exists_cons_of_ne_nil some_
      obtain ⟨rfl, _⟩ := List.cons_prefix_cons.mp starts
      exact absurd (List.mem_cons_self ..) (other head (List.mem_cons_self ..))
    · exact ih (fun char inside => other char (List.mem_cons_of_mem _ inside)) later

include nonempty

theorem prefix_of_replaceFrom {part content : Text} (within : part ⊆ mark)
    (starts : part <+: replaceFrom mark value 0 content) : part <+: content := by
  induction content generalizing part with
  | nil => exact starts
  | cons char rest ih =>
    cases part with
    | nil => exact List.nil_prefix
    | cons first part =>
      rw [replaceFrom] at starts
      split at starts
      · obtain ⟨head, tail, rfl⟩ := List.exists_cons_of_ne_nil nonempty
        obtain ⟨rfl, _⟩ := List.cons_prefix_cons.mp starts
        exact absurd (within (List.mem_cons_self ..)) (other _ (List.mem_cons_self ..))
      · obtain ⟨rfl, later⟩ := List.cons_prefix_cons.mp starts
        exact List.cons_prefix_cons.mpr ⟨rfl, ih (fun _ inside => within (List.mem_cons_of_mem _ inside)) later⟩

theorem absent_replaceFrom (some_ : mark ≠ []) (skip : Nat) (content : Text) :
    ¬ mark <:+: replaceFrom mark value skip content := by
  induction content generalizing skip with
  | nil => simpa [replaceFrom] using some_
  | cons char rest ih =>
    cases skip with
    | succ skip => exact ih skip
    | zero =>
      rw [replaceFrom]
      split
      · exact fun inside => ih _ (infix_of_append other some_ inside)
      · rename_i here
        rw [List.infix_cons_iff]
        rintro (starts | later)
        · refine here (List.isPrefixOf_iff_prefix.mpr ?_)
          refine prefix_of_replaceFrom other nonempty (List.Subset.refl mark) ?_
          rw [replaceFrom, if_neg here]
          exact starts
        · exact ih 0 later

end

theorem absent_fillPort (port : Nat) (content : Text) : ¬ portMark <:+: fillPort port content := by
  have digits : ∀ char ∈ portMark, isDigit char = false := forall_of_all (by decide)
  refine absent_replaceFrom (fun char inside marked => ?_) ?_ (by decide) 0 content
  · have digit := decimal_digits port char inside
    simp [digits char marked] at digit
  · simp [decimal]

theorem fillPort_fillPort (port again : Nat) (content : Text) :
    fillPort again (fillPort port content) = fillPort port content :=
  replaceFrom_of_absent (absent_fillPort port content)

section

variable {ipv6Regex : Text → Bool} {state next : State} {action : Action}

theorem Names.fillHost_eq {kept host content : Text} (names : Names kept host content) :
    fillHost kept content = fillHost host content := by
  rcases names with rfl | absent
  · rfl
  · rw [fillHost, fillHost, replaceAll, replaceAll, replaceFrom_of_absent absent,
      replaceFrom_of_absent absent]

/-- What is stored is the template, or has the port in it; in both cases it is served as wanted. -/
structure State.Sound (state : State) : Prop where
  stored : ∃ content, state.pacFileContent = some content ∧
    (state.Template ∨ ¬ portMark <:+: content)
  served : state.served = state.wanted

theorem sound_new (port : Nat) : (State.new port).Sound := by
  have absent : ¬ hostMark <:+: storedDefaultPac := by decide +kernel
  refine ⟨⟨storedDefaultPac, rfl, .inl (by simpa [State.Template, State.new] using absent)⟩, ?_⟩
  simp only [State.served, State.wanted, State.new, Option.getD_some]
  rw [fillHost, replaceAll, replaceFrom_of_absent absent]

theorem onSave_cases (state : State) (pac : Option Text) (host : Text) :
    onSave ipv6Regex state pac host = state ∨ onSave ipv6Regex state pac host = { state with
      pacFileContent := some (fillPort state.mixedPort (fillHost host
        ((pac.map handleSavePac).getD (state.pacFileContent.getD defaultPac))))
      proxyHost := some (keptHost ipv6Regex host)
      entered := (pac.map handleSavePac).getD state.entered } := by
  unfold onSave
  split
  · exact .inl rfl
  · refine .inr ?_
    simp only
    split
    · rename_i empty
      simp [empty, fillPort, fillHost, replaceAll, replaceFrom]
    · rfl

theorem State.Template.fillHost_eq (template : state.Template) (host : Text) :
    fillHost host state.entered = state.entered :=
  replaceFrom_of_absent template.2

theorem State.Sound.step (sound : state.Sound) (lasting : Lasting ipv6Regex state action)
    (taken : step ipv6Regex state action = some next) : next.Sound := by
  obtain ⟨⟨content, stored, plain⟩, served⟩ := sound
  have as_ : fillPort state.mixedPort content = state.wanted := by
    rw [← served, State.served, stored, Option.getD_some]
  cases action with
  | save pac host =>
    cases taken
    rcases @onSave_cases ipv6Regex state pac host with same | saved
    · rw [same]
      exact ⟨⟨content, stored, plain⟩, served⟩
    · rw [saved]
      refine ⟨⟨_, rfl, .inr (absent_fillPort _ _)⟩, ?_⟩
      simp only [State.served, State.wanted, State.host, Option.getD_some, fillPort_fillPort]
      cases pac with
      | some pac => exact congrArg _ (Names.fillHost_eq lasting).symm
      | none =>
        obtain ⟨kept, same, template | absent⟩ := lasting
        · obtain rfl : content = state.entered := Option.some.inj (stored.symm.trans template.1)
          simp only [Option.map_none, Option.getD_none, stored, Option.getD_some]
          rw [kept.fillHost_eq]
        · simp only [Option.map_none, Option.getD_none, stored, Option.getD_some]
          rw [stored, Option.getD_some] at absent
          rw [fillHost, replaceAll, replaceFrom_of_absent absent, as_, State.wanted, same.fillHost_eq,
            kept.fillHost_eq]
  | changePort port =>
    cases taken
    refine ⟨⟨content, stored, plain⟩, ?_⟩
    show fillPort port (state.pacFileContent.getD _) = fillPort port (fillHost state.host state.entered)
    rw [stored, Option.getD_some]
    have ofTemplate (template : state.Template) :
        fillPort port content = fillPort port (fillHost state.host state.entered) := by
      rw [template.fillHost_eq, Option.some.inj (stored.symm.trans template.1)]
    rcases lasting with rfl | template | absent
    · exact as_
    · exact ofTemplate template
    · rcases plain with template | filled
      · exact ofTemplate template
      · have same (port : Nat) {content : Text} (absent : ¬ portMark <:+: content) :
            fillPort port content = content := replaceFrom_of_absent absent
        rw [State.wanted, same _ filled, same _ absent] at as_
        rw [as_]
  | changeHost host =>
    cases taken
    refine ⟨⟨content, stored, plain⟩, served.trans ?_⟩
    exact congrArg (fillPort state.mixedPort) lasting.fillHost_eq

/-- In every run in which nothing changes that the text was filled with, the script that is served
has the current host and port in the text that the user entered last. -/
theorem served_of_lasting (ipv6Regex : Text → Bool) (port : Nat) (actions : List Action)
    (lasting : Meets (step ipv6Regex) (Lasting ipv6Regex) (State.new port) actions) {final : State}
    (ran : run (step ipv6Regex) (State.new port) actions = some final) :
    final.served = final.wanted :=
  (run_invariant_of_meets State.Sound (fun _ _ _ => State.Sound.step) (sound_new port) lasting
    ran).served

/-- The port changes after the text with its placeholder was saved. -/
theorem filled_port_stays : ¬ ∀ (ipv6Regex : Text → Bool) (port : Nat) (actions : List Action)
    (final : State), run (step ipv6Regex) (State.new port) actions = some final →
      final.served = final.wanted := by
  intro always
  have := always (fun _ => false) 7897
    [.save (some (text "%mixed-port%")) (text "localhost"), .changePort 7898] _ rfl
  revert this
  decide +kernel

def plainScript : List Action := [.save (some (text "PROXY")) (text "localhost"), .changePort 7898]

theorem plainScript_served : ∃ final,
    run (step fun _ => false) (State.new 7897) plainScript = some final ∧ final.served = final.wanted := by
  refine ⟨_, rfl, served_of_lasting (fun _ => false) 7897 plainScript ?_ rfl⟩
  refine ⟨.inl (by decide +kernel), fun next taken => ?_⟩
  cases taken
  exact ⟨.inr (.inr (by decide +kernel)), fun _ _ => trivial⟩

end

end ClashVerge.SystemProxy.Pac
