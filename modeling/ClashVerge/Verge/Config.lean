import Mathlib.Logic.Function.Basic

/-!
# The application's own configuration

`IVerge` is the content of `verge.yaml`: a record whose entries are all optional. A patch is a
record of the same type, and `patch_config` copies the entries it has. A record is a function from
the names of the entries that `patch_config` copies, and each name carries the type of its entry.

Machine integers are only copied and compared, so they have no bound; the JSON layout of the home
cards is kept as text. Some entries exist on one operating system only.
-/

namespace ClashVerge.Verge

inductive Os where
  | windows
  | macos
  | linux
deriving DecidableEq, Repr

/-- `IVergeTheme`. -/
structure Theme where
  primaryColor : Option String
  secondaryColor : Option String
  primaryText : Option String
  secondaryText : Option String
  infoColor : Option String
  errorColor : Option String
  warningColor : Option String
  successColor : Option String
  fontFamily : Option String
  cssInjection : Option String
deriving DecidableEq, Repr

/-- `IVergeTestItem`. -/
structure TestItem where
  uid : Option String
  name : Option String
  icon : Option String
  url : Option String
deriving DecidableEq, Repr

/-- The entries of `verge.yaml`, in the order `patch_config` copies them. -/
inductive Field where
  | appLogLevel
  | appLogMaxSize
  | appLogMaxCount
  | language
  | themeMode
  | trayEvent
  | envType
  | startPage
  | startupScript
  | trafficGraph
  | enableMemoryUsage
  | enableGroupIcon
  | pauseRenderTrafficStatsOnBlur
  | trayIcon
  | menuIcon
  | menuOrder
  | proxyGroupToolsPosition
  | noticePosition
  | collapseNavbar
  | commonTrayIcon
  | sysproxyTrayIcon
  | tunTrayIcon
  | enableTunMode
  | enableAutoLaunch
  | enableSilentStart
  | enableHoverJumpNavigator
  | hoverJumpNavigatorDelay
  | vergeRedirPort
  | vergeRedirEnabled
  | vergeTproxyPort
  | vergeTproxyEnabled
  | vergeMixedPort
  | vergeSocksPort
  | vergeSocksEnabled
  | vergePort
  | vergeHttpEnabled
  | enableSystemProxy
  | enableProxyGuard
  | enableBypassCheck
  | useDefaultBypass
  | systemProxyBypass
  | proxyGuardDuration
  | proxyAutoConfig
  | pacFileContent
  | proxyHost
  | themeSetting
  | webUiList
  | clashCore
  | hotkeys
  | enableGlobalHotkey
  | autoCloseConnection
  | autoCheckUpdate
  | defaultLatencyTest
  | defaultLatencyTimeout
  | enableAutoDelayDetection
  | autoDelayDetectionIntervalMinutes
  | enableBuiltinEnhanced
  | proxyLayoutColumn
  | testList
  | autoLogClean
  | enableAutoBackupSchedule
  | autoBackupIntervalHours
  | autoBackupOnChange
  | webdavUrl
  | webdavUsername
  | webdavPassword
  | enableTraySpeed
  | trayProxyGroupsDisplayMode
  | trayInlineOutboundModes
  | enableAutoLightWeightMode
  | autoLightWeightMinutes
  | enableDnsSettings
  | homeCards
  | enableExternalController
deriving DecidableEq, Repr

namespace Field

def Value : Field → Type
  | appLogLevel | language | themeMode | trayEvent | envType | startPage | startupScript
  | trayIcon | menuIcon | proxyGroupToolsPosition | noticePosition | systemProxyBypass
  | pacFileContent | proxyHost | clashCore | defaultLatencyTest | webdavUrl | webdavUsername
  | webdavPassword | trayProxyGroupsDisplayMode | homeCards => String
  | appLogMaxSize | appLogMaxCount | hoverJumpNavigatorDelay | vergeRedirPort
  | vergeTproxyPort | vergeMixedPort | vergeSocksPort | vergePort | proxyGuardDuration
  | autoDelayDetectionIntervalMinutes | proxyLayoutColumn | autoBackupIntervalHours
  | autoLightWeightMinutes => Nat
  | defaultLatencyTimeout | autoLogClean => Int
  | menuOrder | webUiList | hotkeys => List String
  | themeSetting => Theme
  | testList => List TestItem
  | trafficGraph | enableMemoryUsage | enableGroupIcon | pauseRenderTrafficStatsOnBlur
  | collapseNavbar | commonTrayIcon | sysproxyTrayIcon | tunTrayIcon | enableTunMode
  | enableAutoLaunch | enableSilentStart | enableHoverJumpNavigator | vergeRedirEnabled
  | vergeTproxyEnabled | vergeSocksEnabled | vergeHttpEnabled | enableSystemProxy
  | enableProxyGuard | enableBypassCheck | useDefaultBypass | proxyAutoConfig
  | enableGlobalHotkey | autoCloseConnection | autoCheckUpdate | enableAutoDelayDetection
  | enableBuiltinEnhanced | enableAutoBackupSchedule | autoBackupOnChange | enableTraySpeed
  | trayInlineOutboundModes | enableAutoLightWeightMode | enableDnsSettings
  | enableExternalController => Bool

/-- Whether the entry is compiled in on the operating system. -/
def available (os : Os) : Field → Bool
  | trayIcon | enableTraySpeed => os == .macos
  | vergeRedirPort | vergeRedirEnabled => os != .windows
  | vergeTproxyPort | vergeTproxyEnabled => os == .linux
  | _ => true

end Field

/-- A `verge.yaml` record, or a patch of one. -/
abbrev IVerge : Type := (field : Field) → Option field.Value

namespace IVerge

/-- A record without entries. -/
def default : IVerge := fun _ => none

def set (verge : IVerge) (field : Field) (value : field.Value) : IVerge :=
  Function.update verge field (some value)

def patchConfig (verge patch : IVerge) : IVerge := fun field =>
  if (patch field).isSome then patch field else verge field

def validClashCores : List String := ["verge-mihomo", "verge-mihomo-alpha"]

def getValidClashCore (verge : IVerge) : String :=
  match verge .clashCore with
  | some core => core
  | none => "verge-mihomo"

@[simp] theorem set_same (verge : IVerge) (field : Field) (value : field.Value) :
    verge.set field value field = some value := by
  simp [set]

@[simp] theorem set_other (verge : IVerge) (field other : Field) (value : field.Value)
    (different : other ≠ field) : verge.set field value other = verge other := by
  simp [set, different]

theorem patchConfig_present {verge patch : IVerge} {field : Field}
    (present : (patch field).isSome) : verge.patchConfig patch field = patch field := by
  simp [patchConfig, present]

theorem patchConfig_absent {verge patch : IVerge} {field : Field} (absent : patch field = none) :
    verge.patchConfig patch field = verge field := by
  simp [patchConfig, absent]

theorem patchConfig_self (verge : IVerge) : verge.patchConfig verge = verge := by
  funext field
  simp [patchConfig]

end IVerge

end ClashVerge.Verge
