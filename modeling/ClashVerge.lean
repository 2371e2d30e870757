import ClashVerge.AppProxy.Acceptance
import ClashVerge.AppProxy.Edits
import ClashVerge.AppProxy.Epoch
import ClashVerge.AppProxy.Leak
import ClashVerge.AppProxy.ManagedListeners
import ClashVerge.Cmd.AffectsRuntime
import ClashVerge.Cmd.DnsConfig
import ClashVerge.Config.ChainRoundTrip
import ClashVerge.Config.ClashCommands
import ClashVerge.Config.PortFallback
import ClashVerge.Config.SavedPorts
import ClashVerge.Config.Tunnels
import ClashVerge.ConnectionData.MergePlain
import ClashVerge.ConnectionData.Supervisor
import ClashVerge.Delay.Settling
import ClashVerge.DnsViewer.Formats
import ClashVerge.Draft.LostUpdate
import ClashVerge.Draft.Sequential
import ClashVerge.Draft.Transaction
import ClashVerge.Enhance.Notice
import ClashVerge.Enhance.Overlay
import ClashVerge.Enhance.ProfileName
import ClashVerge.Enhance.References
import ClashVerge.Enhance.SortOrder
import ClashVerge.Events.Subscribe
import ClashVerge.Feat.CoreUpgrade
import ClashVerge.Feat.DnsOverride
import ClashVerge.Feat.RestoreOutcome
import ClashVerge.Hooks.MihomoWsSubscription
import ClashVerge.Hotkeys.Update
import ClashVerge.Module.AutoBackup
import ClashVerge.Module.Lightweight
import ClashVerge.Notification.FailureTable
import ClashVerge.Profiles.Import
import ClashVerge.Profiles.Reconcile
import ClashVerge.Profiles.Settlement
import ClashVerge.Profiles.SwitchingGuard
import ClashVerge.ProxyList.DelayFilter
import ClashVerge.ProxyList.Rebind
import ClashVerge.ProxyList.Received
import ClashVerge.ProxyList.Search
import ClashVerge.ProxySelection.Queue
import ClashVerge.Resolve.Scheme
import ClashVerge.Runstate.Announce
import ClashVerge.Runstate.OwnerWatch
import ClashVerge.Runstate.Probe
import ClashVerge.RuntimeBundle.Containment
import ClashVerge.Service.Elevation
import ClashVerge.Service.OwnerRecovery
import ClashVerge.Service.RuntimeFile
import ClashVerge.SystemProxy.Ownership
import ClashVerge.SystemProxy.Pac
import ClashVerge.Telemetry.ProcessTree
import ClashVerge.TestingUpdate.Updater
import ClashVerge.Timer.Arithmetic
import ClashVerge.Traffic.Coverage
import ClashVerge.Tray.ProxyMenu
import ClashVerge.UriParser.Compose
import ClashVerge.UriParser.ShadowsocksForms
import ClashVerge.UriParser.VlessTransport
import ClashVerge.Utils.EmittedYaml
import ClashVerge.Utils.Limiter
import ClashVerge.Utils.MaskErr
import ClashVerge.Validate.Cache
import ClashVerge.Verge.Writers
