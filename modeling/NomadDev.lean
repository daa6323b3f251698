import NomadDev.TurnMemory
import NomadDev.SummaryReplay
import NomadDev.ModelChoice
import NomadDev.GitHubRespawn
import NomadDev.ConfigTTL
import NomadDev.ConfigWrites
import NomadDev.WireResume
import NomadDev.SessionReplay
import NomadDev.SessionJanitor
import NomadDev.TeardownSound
import NomadDev.WorkerListing
import NomadDev.GitMerge
import NomadDev.PoolMerges
import NomadDev.AuditMode
import NomadDev.RevocationLists
import NomadDev.UsageTotals
import NomadDev.ConfigView
import NomadDev.RedactionCopy
import NomadDev.SignCounts
import NomadDev.WireOutbox
import NomadDev.DaemonSignals
import NomadDev.WireClose
import NomadDev.SessionReplaced
import NomadDev.LspRegistry
import NomadDev.ReducerLockstep
import NomadDev.ReducerReplay
import NomadDev.RingHistory
import NomadDev.Pins
import NomadDev.ReplayCut
import NomadDev.LspPaths
import NomadDev.LspRequests
import NomadDev.Migrations
import NomadDev.ClientRefinement
import NomadDev.ClientSnapshots
import NomadDev.RetryEscalation
import NomadDev.CompactionRuns
import NomadDev.StoreEquivalence
import NomadDev.WritePatch
import NomadDev.ChunkText
import NomadDev.CappedLines
import NomadDev.ContainerRuns
import NomadDev.SearchArgv
import NomadDev.LspFrames
import NomadDev.LspOpens
import NomadDev.ChunkFolding
import NomadDev.LspEnvelope
import NomadDev.DocFetchAddresses
import NomadDev.DocFetchDomains
import NomadDev.DocFetchSecrets
import NomadDev.GitHubTokens
import NomadDev.AuditSink
import NomadDev.GitHubNames
import NomadDev.GitHubPayload
import NomadDev.GitHubWaits
