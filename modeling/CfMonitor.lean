import CfMonitor.Lib.Machine
import CfMonitor.Agent.TrafficRuns
import CfMonitor.Ledger.NotificationDelivery
import CfMonitor.Ledger.DeliveryExclusive
import CfMonitor.Ledger.NoticeDelivery
import CfMonitor.Ledger.OfflineNotices
import CfMonitor.Ledger.OfflineRuns
import CfMonitor.Ledger.WebsiteNotices
import CfMonitor.Ledger.WebsiteRuns
import CfMonitor.Lib.LeaseQueue
import CfMonitor.Agent.ReportDelivery
import CfMonitor.Agent.Reporter
import CfMonitor.Lib.Assoc
import CfMonitor.Lib.AssocRel
import CfMonitor.Lib.RoundRobin
import CfMonitor.Lib.Json
import CfMonitor.Live.AdminSnapshot
import CfMonitor.Live.ClientSync
import CfMonitor.Live.ClientSyncRuns
import CfMonitor.Live.ClientState
import CfMonitor.Live.PublicSnapshot
import CfMonitor.Live.ReportLifecycle
import CfMonitor.Live.ReportRuns
import CfMonitor.Website.Monitor
import CfMonitor.Website.MonitorRuns
import CfMonitor.Live.Rechecks
import CfMonitor.Live.ExpiryAlarm
import CfMonitor.Agent.ProbeRuns
import CfMonitor.Live.AlarmRuns
import CfMonitor.Auth.MfaFactor
import CfMonitor.Auth.MfaRuns
import CfMonitor.Lib.Paging
import CfMonitor.Records.CursorPages
import CfMonitor.Records.CursorWalk
import CfMonitor.Lib.Outbox
import CfMonitor.Live.ClientOutbox
import CfMonitor.Live.OutboxRuns
import CfMonitor.Live.SyncedControls
import CfMonitor.Live.ViewerMessages
import CfMonitor.Live.ViewerRuns
import CfMonitor.Agent.TrafficReboot
import CfMonitor.Agent.TrafficSaves
import CfMonitor.Agent.ReporterMoves
import CfMonitor.Agent.BasicInfoDelivery
import CfMonitor.Agent.ProbeOrigins
import CfMonitor.History.PingResults
import CfMonitor.History.PingAdmission
import CfMonitor.History.PingEffects
import CfMonitor.History.PingRuns
import CfMonitor.History.ClockSteps
import CfMonitor.Records.HistoryClient
import CfMonitor.Records.HistoryCollection
import CfMonitor.Live.MonitorReport
import CfMonitor.Live.CompactReport
import CfMonitor.Live.RetainedReport
import CfMonitor.Live.NetworkTasks
import CfMonitor.Live.NetworkRuns
import CfMonitor.Auth.LoginLimits
import CfMonitor.Auth.LoginRuns
import CfMonitor.Limits.RateLimit
import CfMonitor.Limits.RateLimitRuns
import CfMonitor.Frontend.ClientLists
import CfMonitor.Frontend.ClientPatches
import CfMonitor.Frontend.ClientRuns
import CfMonitor.Lib.Index
import CfMonitor.Lib.SharedRead
import CfMonitor.Frontend.PublicClients
import CfMonitor.Frontend.LiveView
import CfMonitor.Frontend.LivePatches
import CfMonitor.Frontend.ServerView
import CfMonitor.Frontend.SnapshotScope
import CfMonitor.Frontend.ScopeRuns
import CfMonitor.Frontend.IncrementalView
import CfMonitor.Live.AgentPolicy
import CfMonitor.Live.AddressFlags
import CfMonitor.Live.BasicInfoSync
import CfMonitor.Live.BasicInfoRuns
import CfMonitor.Live.PolicyRuns
import CfMonitor.Public.ClientOverlay
import CfMonitor.Public.HistoryRequests
import CfMonitor.Public.PublicRoutes
import CfMonitor.Public.HiddenNodes
import CfMonitor.Scheduled.Cursors
import CfMonitor.Scheduled.Fairness
import CfMonitor.Live.WebsiteBroadcasts
import CfMonitor.Records.CapacityFuse
import CfMonitor.Live.ViewerAdmission
import CfMonitor.Clients.ReferencePruning
import CfMonitor.Backup.Hosts
import CfMonitor.Lib.Checked
import CfMonitor.Backup.Settings
import CfMonitor.Backup.StoredSettings
import CfMonitor.Backup.ClientInput
import CfMonitor.Backup.RuleInputs
import CfMonitor.Backup.SavedSettings
import CfMonitor.Lib.RowNumber
import CfMonitor.Website.ProbeRegions
import CfMonitor.Clients.Reorder
import CfMonitor.Frontend.NodeOrder
import CfMonitor.Lib.SlashPath
import CfMonitor.Lib.Split
import CfMonitor.Lib.IpText
import CfMonitor.Lib.Base64
import CfMonitor.Auth.ViewerTokens
import CfMonitor.Auth.MfaKeys
import CfMonitor.Live.PublicAddresses
import CfMonitor.Agent.BlockedTargets
import CfMonitor.Backup.IpTargets
import CfMonitor.Lib.HostPort
import CfMonitor.Agent.TcpTargets
import CfMonitor.Backup.TcpTargets
import CfMonitor.Lib.Throttle
import CfMonitor.Records.LoadSamples
import CfMonitor.Lib.NumberText
import CfMonitor.Frontend.TrafficLimit
import CfMonitor.Lib.JsonText
import CfMonitor.Lib.Template
import CfMonitor.Lib.WebUrl
import CfMonitor.Lib.CrlfLines
import CfMonitor.Lib.Mail
import CfMonitor.Channels.Webhook
import CfMonitor.Channels.WebhookUrls
import CfMonitor.Channels.Email
import CfMonitor.Lib.PosixShell
import CfMonitor.Lib.PowerShell
import CfMonitor.Lib.Utf16
import CfMonitor.Frontend.InstallCommand
import CfMonitor.Lib.Fallible
import CfMonitor.Themes.ThemeConfig
import CfMonitor.Lib.BitGroups
import CfMonitor.Auth.Totp
import CfMonitor.Agent.CpuSet
import CfMonitor.Agent.CgroupPaths
import CfMonitor.Frontend.PingChart
import CfMonitor.Agent.NetworkRates
import CfMonitor.Agent.TrafficPolicy
