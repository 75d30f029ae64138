import BlackPearl.Library.Transition
import BlackPearl.Library.Table
import BlackPearl.Library.Eviction
import BlackPearl.Library.Slice
import BlackPearl.Library.Decimal
import BlackPearl.Library.Text
import BlackPearl.Domain.Media
import BlackPearl.Cache.Chunks
import BlackPearl.Cache.Pool
import BlackPearl.Cache.Accounting
import BlackPearl.Cache.Retention
import BlackPearl.Cache.Reads
import BlackPearl.Cache.ReadInvariant
import BlackPearl.Cache.ReadCorrectness
import BlackPearl.Cache.Lifetime
import BlackPearl.Cache.Restart
import BlackPearl.Cache.Background
import BlackPearl.Cache.ReadAhead
import BlackPearl.Cache.Sections
import BlackPearl.Cache.Incomplete
import BlackPearl.Cache.LeastRecent
import BlackPearl.Cache.FetchFailure
import BlackPearl.Cache.Waiting
import BlackPearl.Acquisition.Search
import BlackPearl.Acquisition.Job
import BlackPearl.Acquisition.TorrentFile
import BlackPearl.JobStore.StoredHash
import BlackPearl.Worker.CandidatePlan
import BlackPearl.Worker.Identity
import BlackPearl.Worker.Process
import BlackPearl.Worker.Runs
import BlackPearl.JobStore.Operations
import BlackPearl.JobStore.Transitions
import BlackPearl.JobStore.Runs
import BlackPearl.JobStore.CandidatePlan
import BlackPearl.JobStore.LeaseSafety
import BlackPearl.JobStore.JobBook
import BlackPearl.JobStore.Decoding
import BlackPearl.Watchlist.Decoding
import BlackPearl.Watchlist.FrontierSafety
import BlackPearl.Watchlist.Consent
import BlackPearl.Setup.RoundTrip
import BlackPearl.Setup.CrashAtomicity
import BlackPearl.Setup.Acquired
import BlackPearl.SetupService.Publication
import BlackPearl.SetupService.Transactions
import BlackPearl.Catalog.NextEpisode
import BlackPearl.Nfs.Walk
import BlackPearl.Nfs.Handles
import BlackPearl.Nfs.HandleTables
import BlackPearl.Nfs.StableHandles
import BlackPearl.Library.Recency
import BlackPearl.Library.Bencode
import BlackPearl.Library.Signals
import BlackPearl.Plex.Refresh
import BlackPearl.Plex.Metadata
import BlackPearl.Library.Distinct
import BlackPearl.Watchlist.Snapshot
import BlackPearl.Library.Words
import BlackPearl.Library.Sorting
import BlackPearl.Acquisition.Titles
import BlackPearl.Acquisition.Selection
import BlackPearl.Resolver.Eligibility
import BlackPearl.Resolver.Ranking
import BlackPearl.Library.Base64
import BlackPearl.Library.Utf8
import BlackPearl.InternetArchive.ObjectID
import BlackPearl.InternetArchive.Files
import BlackPearl.DirectRange.Resolve
import BlackPearl.Torbox.Sanitize
import BlackPearl.Worker.Progress
import BlackPearl.Worker.Agreement
import BlackPearl.HttpRange.Strict
import BlackPearl.HttpOrigin.Source
import BlackPearl.Torbox.Source
import BlackPearl.InternetArchive.Source
import BlackPearl.HttpRange.Sources
import BlackPearl.Worker.Calls
import BlackPearl.Worker.Account
import BlackPearl.Worker.Creation
import BlackPearl.Worker.Deletion
import BlackPearl.HttpRange.Cancellation
import BlackPearl.HttpOrigin.Open
import BlackPearl.InternetArchive.Open
import BlackPearl.Torbox.Open
import BlackPearl.Torbox.LinkCalls
import BlackPearl.SetupService.Restoration
import BlackPearl.SetupService.Publisher
import BlackPearl.Watchlist.Outcomes
import BlackPearl.Acquisition.Acquire
import BlackPearl.Fuse.Filesystem
import BlackPearl.Nfs.MediaFile
import BlackPearl.Cache.StoreRuns
import BlackPearl.SetupHandler.Paired
