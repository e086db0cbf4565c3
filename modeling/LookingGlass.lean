import LookingGlass.Contracts.Runtime
import LookingGlass.Contracts.IpBlocklist
import LookingGlass.Contracts.DestinationPolicy
import LookingGlass.Contracts.HostnameGrammar
import LookingGlass.Contracts.NumericForms
import LookingGlass.Foundations.Interaction
import LookingGlass.Foundations.Interleaving
import LookingGlass.Foundations.Double
import LookingGlass.Contracts.Models
import LookingGlass.Diagnostics.Environment
import LookingGlass.Diagnostics.HostResolver
import LookingGlass.Diagnostics.TargetResolver
import LookingGlass.Diagnostics.NativeProbeRunner
import LookingGlass.Diagnostics.DiagnosticsExecutor
import LookingGlass.Diagnostics.TextRenderer
import LookingGlass.Diagnostics.DiagnosticsService
import LookingGlass.Diagnostics.DnsLookupService
import LookingGlass.Diagnostics.Confinement
import LookingGlass.Diagnostics.Redaction
import LookingGlass.Diagnostics.ExecutorCapacity
import LookingGlass.Api.ConcurrencyGuard
import LookingGlass.Diagnostics.ConnectivityMonitor
import LookingGlass.Diagnostics.TcpConnectivityProbe
import LookingGlass.Diagnostics.ConnectivityWindow
import LookingGlass.Api.ClientIpHasher
import LookingGlass.Api.TtlCache
import LookingGlass.Api.ActivityLog
import LookingGlass.Api.DiagnosticRelay
import LookingGlass.Api.DiagnosticsClient
import LookingGlass.Diagnostics.FailureAccounting
import LookingGlass.Web.Validation
import LookingGlass.Api.TrafficService
import LookingGlass.Foundations.Paired
import LookingGlass.Foundations.TwoRuns
import LookingGlass.Api.TrafficAnonymity
import LookingGlass.Web.UseDiagnostic
import LookingGlass.Api.RelayAccounting
import LookingGlass.Web.UseApiQuery
import LookingGlass.Api.TrafficNumbering
import LookingGlass.Diagnostics.QueueRefusals
import LookingGlass.Api.Rejections
import LookingGlass.Diagnostics.ProcessRunner
import LookingGlass.Contracts.Numerals
import LookingGlass.Contracts.JsonElement
import LookingGlass.Api.PrometheusClient
import LookingGlass.Diagnostics.Parsers
import LookingGlass.Diagnostics.ParserFailures
import LookingGlass.Diagnostics.MtrFailures
import LookingGlass.Diagnostics.ProbeFailures
import LookingGlass.Diagnostics.TraceListing
import LookingGlass.Diagnostics.PingTranscript
import LookingGlass.Diagnostics.PingSummary
import LookingGlass.Api.TrafficSources
import LookingGlass.Diagnostics.FamilyChoice
import LookingGlass.Web.Addresses
import LookingGlass.Web.AddressGroups
import LookingGlass.Web.DestinationForm
import LookingGlass.Api.ActivityHistory
import LookingGlass.Diagnostics.LineEndings
import LookingGlass.Diagnostics.ResultLines
import LookingGlass.Web.ReplyBars
import LookingGlass.Foundations.Rounding
import LookingGlass.Web.FormatWindow
import LookingGlass.Foundations.Decimals
import LookingGlass.Web.FormatDuration
import LookingGlass.Foundations.Grids
import LookingGlass.Web.BitRates
import LookingGlass.Api.RateLimiting
import LookingGlass.Diagnostics.Downsampling
import LookingGlass.Diagnostics.ReverseNames
import LookingGlass.Diagnostics.ExecutorCompletion
import LookingGlass.Diagnostics.EgressCompletion
import LookingGlass.Web.ShownProblems
import LookingGlass.Web.StatusView
import LookingGlass.Web.DiagnosticPage
import LookingGlass.Diagnostics.ToolCompletion
import LookingGlass.Api.PrometheusQueries
import LookingGlass.Web.RouteSummary
