import ClashVerge.Verge.Config

/-!
# What a patch of the application's configuration makes necessary

`determine_update_flags` reads which entries a patch has and sets the flags of the effects they
need. Only turning TUN on for Linux looks at the value of an entry. The bits of `UpdateFlags` are
kept as the list of the flags set, in which a flag may stand twice.
-/

namespace ClashVerge.Verge

inductive UpdateFlag where
  | restartCore
  | clashConfig
  | vergeConfig
  | launch
  | sysProxy
  | systrayIcon
  | hotkey
  | systrayMenu
  | systrayTooltip
  | systrayClickBehavior
  | lightWeight
  | language
  | logLevel
  | logFile
deriving DecidableEq, Repr

abbrev UpdateFlags : Type := List UpdateFlag

namespace UpdateFlags

def groupSysTray : UpdateFlags := [.systrayMenu, .systrayTooltip, .systrayIcon]

def insertIf (condition : Bool) (flags : UpdateFlags) : UpdateFlags :=
  if condition then flags else []

@[simp] theorem mem_insertIf (condition : Bool) (flags : UpdateFlags) (flag : UpdateFlag) :
    flag ∈ insertIf condition flags ↔ condition = true ∧ flag ∈ flags := by
  cases condition <;> simp [insertIf]

end UpdateFlags

open UpdateFlags

/-- The patch touches what the core reads only when it starts. -/
def restartCoreNeeded (os : Os) (patch : IVerge) : Bool :=
  let tunMode : Option Bool := patch .enableTunMode
  (patch .vergeSocksEnabled).isSome
    || (patch .vergeHttpEnabled).isSome
    || (patch .vergeSocksPort).isSome
    || (patch .vergePort).isSome
    || (patch .vergeMixedPort).isSome
    || (patch .enableExternalController).isSome
    || (os != .windows && ((patch .vergeRedirEnabled).isSome || (patch .vergeRedirPort).isSome))
    || (os == .linux && ((patch .vergeTproxyEnabled).isSome || (patch .vergeTproxyPort).isSome))
    || (os == .linux && tunMode == some true)

def determineUpdateFlags (os : Os) (patch : IVerge) : UpdateFlags :=
  let trayIcon := os == .macos && (patch .trayIcon).isSome
  let enableTraySpeed := os == .macos && (patch .enableTraySpeed).isSome
  insertIf (restartCoreNeeded os patch) [.restartCore]
    ++ insertIf (patch .enableTunMode).isSome (.clashConfig :: groupSysTray)
    ++ insertIf ((patch .enableGlobalHotkey).isSome || (patch .homeCards).isSome) [.vergeConfig]
    ++ insertIf (patch .enableAutoLaunch).isSome [.launch]
    ++ insertIf (patch .enableSystemProxy).isSome (.sysProxy :: groupSysTray)
    ++ insertIf
      ((patch .systemProxyBypass).isSome
        || (patch .pacFileContent).isSome
        || (patch .proxyAutoConfig).isSome
        || (patch .enableProxyGuard).isSome
        || (patch .proxyGuardDuration).isSome)
      [.sysProxy]
    ++ insertIf (patch .language).isSome [.language, .systrayMenu, .systrayTooltip]
    ++ insertIf
      ((patch .commonTrayIcon).isSome
        || (patch .sysproxyTrayIcon).isSome
        || (patch .tunTrayIcon).isSome
        || trayIcon
        || enableTraySpeed)
      [.systrayIcon]
    ++ insertIf (patch .hotkeys).isSome [.hotkey, .systrayMenu]
    ++ insertIf (patch .trayEvent).isSome [.systrayClickBehavior]
    ++ insertIf (patch .enableAutoLightWeightMode).isSome [.lightWeight]
    ++ insertIf (patch .trayProxyGroupsDisplayMode).isSome [.systrayMenu]
    ++ insertIf (patch .appLogLevel).isSome [.logLevel]
    ++ insertIf ((patch .appLogMaxSize).isSome || (patch .appLogMaxCount).isSome) [.logFile]
    ++ insertIf (patch .trayInlineOutboundModes).isSome [.systrayMenu]

inductive LevelFilter where
  | off
  | error
  | warn
  | info
  | debug
  | trace
deriving DecidableEq, Repr

def IVerge.getLogLevel (verge : IVerge) : LevelFilter :=
  match verge .appLogLevel with
  | some level =>
    match String.toLower level with
    | "silent" => .off
    | "error" => .error
    | "warn" => .warn
    | "info" => .info
    | "debug" => .debug
    | "trace" => .trace
    | _ => .info
  | none => .info

theorem restartCore_mem_determineUpdateFlags (os : Os) (patch : IVerge) :
    .restartCore ∈ determineUpdateFlags os patch ↔ restartCoreNeeded os patch = true := by
  simp [determineUpdateFlags, groupSysTray]

theorem clashConfig_mem_determineUpdateFlags (os : Os) (patch : IVerge) :
    .clashConfig ∈ determineUpdateFlags os patch ↔ (patch .enableTunMode).isSome := by
  simp [determineUpdateFlags, groupSysTray]

end ClashVerge.Verge
