import QuiPanel.Sale
import QuiPanel.Isolation
import QuiPanel.Invoice
import QuiPanel.Metering
import QuiPanel.Restart
import QuiPanel.LoginNames
import QuiPanel.Finance
import QuiPanel.Fallbacks
import QuiPanel.OnlyBought
import QuiPanel.HandlerCounters
import QuiPanel.Treasury
import QuiPanel.KeepTraffic
import QuiPanel.Renaming
import QuiPanel.TrafficTick
import QuiPanel.PlisioCallback
import QuiPanel.Activation
import QuiPanel.Reconcile
import QuiPanel.InboundUpdate
import QuiPanel.MergedOutbounds
import QuiPanel.Egress
import QuiPanel.LinkServer
import QuiPanel.ClientMerge
import QuiPanel.LoginLimiter
import QuiPanel.Slugs
import QuiPanel.RemoteIp
import QuiPanel.SqliteDump
import QuiPanel.Flows
import QuiPanel.ClashNames
import QuiPanel.InboundTags
import QuiPanel.MapOrder
import QuiPanel.WebSocketHub
import QuiPanel.MtprotoConfig
import QuiPanel.MtprotoTraffic
import QuiPanel.LinkLabel
import QuiPanel.Tickets
import QuiPanel.ClientList
import QuiPanel.Groups
import QuiPanel.DatabaseImport
import QuiPanel.TemplateSave
import QuiPanel.CustomGeo
import QuiPanel.IpMerge
import QuiPanel.TrafficWriter
import QuiPanel.SettingsHealers
import QuiPanel.PanelSettings
import QuiPanel.SubHeader
