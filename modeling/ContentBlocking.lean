import ContentBlocking.Artifact.Compile
import ContentBlocking.Artifact.Manifest
import ContentBlocking.Artifact.Payload
import ContentBlocking.Artifact.Store
import ContentBlocking.BlockDecision
import ContentBlocking.CommandLine.Artifacts
import ContentBlocking.CommandLine.Check
import ContentBlocking.CommandLine.Invocation
import ContentBlocking.CommandLine.Options
import ContentBlocking.CommandLine.Report
import ContentBlocking.CommandLine.Run
import ContentBlocking.CommandLine.Shards
import ContentBlocking.CommandLine.Update
import ContentBlocking.Compile.Builtin
import ContentBlocking.Compile.Collection
import ContentBlocking.Compile.Distinct
import ContentBlocking.Compile.ShardPlan
import ContentBlocking.CompileRun
import ContentBlocking.Config
import ContentBlocking.Disk
import ContentBlocking.Engine
import ContentBlocking.Failure
import ContentBlocking.FilterList.Basic
import ContentBlocking.FilterList.Registry
import ContentBlocking.FilterList.Source
import ContentBlocking.FilterText.Line
import ContentBlocking.FilterText.Parsed
import ContentBlocking.FilterText.Pattern
import ContentBlocking.Fingerprint
import ContentBlocking.Host
import ContentBlocking.Json.Basic
import ContentBlocking.Json.Reader
import ContentBlocking.Json.Writer
import ContentBlocking.Main
import ContentBlocking.Matcher
import ContentBlocking.Path
import ContentBlocking.Persist
import ContentBlocking.Proofs.Artifact.Attaching
import ContentBlocking.Proofs.Artifact.AwakeSurfaces
import ContentBlocking.Proofs.Artifact.Commits
import ContentBlocking.Proofs.Artifact.CompiledShards
import ContentBlocking.Proofs.Artifact.CompleteRuns
import ContentBlocking.Proofs.Artifact.LastGoodCompile
import ContentBlocking.Proofs.Artifact.PayloadRoundTrip
import ContentBlocking.Proofs.Artifact.ShardedEvaluation
import ContentBlocking.Proofs.Artifact.StoreSurfaces
import ContentBlocking.Proofs.Artifact.SuspensionNumbers
import ContentBlocking.Proofs.Ascending
import ContentBlocking.Proofs.Authorities
import ContentBlocking.Proofs.BlockDecision.Calls
import ContentBlocking.Proofs.BlockDecision.Passes
import ContentBlocking.Proofs.BlockDecision.PopUps
import ContentBlocking.Proofs.CommandLine.CheckedFiles
import ContentBlocking.Proofs.Compile.Assembly
import ContentBlocking.Proofs.Compile.Collection
import ContentBlocking.Proofs.Compile.Duplicates
import ContentBlocking.Proofs.Compile.ExcludedDomains
import ContentBlocking.Proofs.Compile.ExemptUrls
import ContentBlocking.Proofs.Compile.LargerWhitelists
import ContentBlocking.Proofs.Compile.MinimalCollection
import ContentBlocking.Proofs.Compile.ShardRuns
import ContentBlocking.Proofs.Compile.ShardSizes
import ContentBlocking.Proofs.Compile.WhitelistedPages
import ContentBlocking.Proofs.CompileRun
import ContentBlocking.Proofs.Disk.DataDirectory
import ContentBlocking.Proofs.Disk.Drafts
import ContentBlocking.Proofs.Disk.Elsewhere
import ContentBlocking.Proofs.Disk.Files
import ContentBlocking.Proofs.Disk.Obstacles
import ContentBlocking.Proofs.Disk.Paths
import ContentBlocking.Proofs.Disk.SavedValues
import ContentBlocking.Proofs.Disk.Values
import ContentBlocking.Proofs.Disk.WholeWrites
import ContentBlocking.Proofs.Effects
import ContentBlocking.Proofs.Except
import ContentBlocking.Proofs.FilterList.ListTimes
import ContentBlocking.Proofs.FilterList.NewestCopies
import ContentBlocking.Proofs.FilterList.RegistryRestarts
import ContentBlocking.Proofs.FilterText.Ceiling
import ContentBlocking.Proofs.FilterText.CosmeticLines
import ContentBlocking.Proofs.FilterText.UrlPattern
import ContentBlocking.Proofs.FilterText.Wildcards
import ContentBlocking.Proofs.Host
import ContentBlocking.Proofs.Json.Literals
import ContentBlocking.Proofs.Json.Records
import ContentBlocking.Proofs.Json.RoundTrip
import ContentBlocking.Proofs.KeptFiles
import ContentBlocking.Proofs.LastException
import ContentBlocking.Proofs.Logs
import ContentBlocking.Proofs.Regex.Search
import ContentBlocking.Proofs.ResourceTypes
import ContentBlocking.Proofs.RunDownloads
import ContentBlocking.Proofs.Service.Attachments
import ContentBlocking.Proofs.Service.BareSurfaces
import ContentBlocking.Proofs.Service.BlockedCounters
import ContentBlocking.Proofs.Service.DownloadOrder
import ContentBlocking.Proofs.Service.DownloadTimes
import ContentBlocking.Proofs.Service.Endings
import ContentBlocking.Proofs.Service.IssuedRuns
import ContentBlocking.Proofs.Service.LastingDomains
import ContentBlocking.Proofs.Service.LateCompile
import ContentBlocking.Proofs.Service.LatestRun
import ContentBlocking.Proofs.Service.ManifestFile
import ContentBlocking.Proofs.Service.Overwrites
import ContentBlocking.Proofs.Service.OwnFiles
import ContentBlocking.Proofs.Service.Reattachments
import ContentBlocking.Proofs.Service.Refusals
import ContentBlocking.Proofs.Service.RunMoves
import ContentBlocking.Proofs.Service.RunNumbers
import ContentBlocking.Proofs.Service.RunProgress
import ContentBlocking.Proofs.Service.SavedCounts
import ContentBlocking.Proofs.Service.Sessions
import ContentBlocking.Proofs.Service.Steps
import ContentBlocking.Proofs.Service.Suspensions
import ContentBlocking.Proofs.Service.ToggleAnswers
import ContentBlocking.Proofs.Service.Waiters
import ContentBlocking.Proofs.Service.WarmStart
import ContentBlocking.Proofs.Statistics.CounterLimits
import ContentBlocking.Proofs.Statistics.RecentPages
import ContentBlocking.Proofs.Statistics.Restarts
import ContentBlocking.Proofs.Subdomains
import ContentBlocking.Proofs.Table
import ContentBlocking.Proofs.Text.Cut
import ContentBlocking.Proofs.Verdict
import ContentBlocking.Proofs.Whitelist
import ContentBlocking.Proofs.WhitelistEntries
import ContentBlocking.Proofs.WhitelistedUrls
import ContentBlocking.Regex.Basic
import ContentBlocking.Regex.CharClass
import ContentBlocking.Regex.Parser
import ContentBlocking.ResourceType
import ContentBlocking.Rule
import ContentBlocking.Service.Basic
import ContentBlocking.Service.Command
import ContentBlocking.Service.Progress
import ContentBlocking.SessionId
import ContentBlocking.Settings
import ContentBlocking.Shell
import ContentBlocking.Statistics
import ContentBlocking.Table
import ContentBlocking.Text.Ascii
import ContentBlocking.Text.Blank
import ContentBlocking.Text.CaseFolding
import ContentBlocking.Text.Cut
import ContentBlocking.Text.Ranges
import ContentBlocking.Text.Word
import ContentBlocking.Toml.Basic
import ContentBlocking.Toml.Reader
import ContentBlocking.Toml.Scalar
import ContentBlocking.Url.Address
import ContentBlocking.Url.Basic
import ContentBlocking.Url.Parser
import ContentBlocking.Url.Percent
import ContentBlocking.Url.Punycode
import ContentBlocking.Whitelist
