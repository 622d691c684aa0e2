import SupernoteTaskService.Foundation.KeyedTable
import SupernoteTaskService.Foundation.CursorLoop
import SupernoteTaskService.Foundation.ByteCodecs
import SupernoteTaskService.Foundation.Json
import SupernoteTaskService.Encoding
import SupernoteTaskService.Models
import SupernoteTaskService.Store
import SupernoteTaskService.Repository.Rows
import SupernoteTaskService.Repository.Paging
import SupernoteTaskService.Repository.Tasks
import SupernoteTaskService.Repository.Lists
import SupernoteTaskService.Deps
import SupernoteTaskService.Routers.Lists
import SupernoteTaskService.Routers.Tasks
import SupernoteTaskService.Sync.Delivery
import SupernoteTaskService.Sync.TailLaw
import SupernoteTaskService.Foundation.Runs
import SupernoteTaskService.Repository.Writes
import SupernoteTaskService.Sync.AtomicWrites
import SupernoteTaskService.Sync.LateCommits
import SupernoteTaskService.Sync.CursorExpiry
import SupernoteTaskService.Sync.FullFetch
import SupernoteTaskService.Writes.Versions
import SupernoteTaskService.Writes.ListTitles
import SupernoteTaskService.Writes.Readability
import SupernoteTaskService.Writes.Outcomes
import SupernoteTaskService.Writes.Announcements
import SupernoteTaskService.Repository.Operations
import SupernoteTaskService.Writes.Frame
import SupernoteTaskService.Writes.WellFormed
import SupernoteTaskService.Routers.Requests
import SupernoteTaskService.Writes.References
import SupernoteTaskService.Writes.Positions
import SupernoteTaskService.Foundation.FullPages
import SupernoteTaskService.Sync.Chain
import SupernoteTaskService.Foundation.Replica
import SupernoteTaskService.Sync.FilteredReplica
import SupernoteTaskService.Foundation.Agreement
import SupernoteTaskService.Repository.Isolation
import SupernoteTaskService.Db.Pool
import SupernoteTaskService.Db.Accounting
import SupernoteTaskService.Db.Cursor
import SupernoteTaskService.Repository.Programs
import SupernoteTaskService.Db.Alone
import SupernoteTaskService.Repository.Refinement
import SupernoteTaskService.Repository.HoldAndWait
import SupernoteTaskService.Routers.Interleaving
import SupernoteTaskService.Writes.ErrorReplies
import SupernoteTaskService.Foundation.FixedWindow
import SupernoteTaskService.RateLimit
import SupernoteTaskService.Auth.Throttling
import SupernoteTaskService.Security
import SupernoteTaskService.Auth.Gate
import SupernoteTaskService.EmojiTokens
import SupernoteTaskService.Writes.Titles
import SupernoteTaskService.Foundation.PageExtent
import SupernoteTaskService.Sync.ClosedWindow
import SupernoteTaskService.Sync.PageSizes
import SupernoteTaskService.Foundation.OnePass
import SupernoteTaskService.Repository.Reference
import SupernoteTaskService.Repository.Statements
import SupernoteTaskService.Writes.Patches
import SupernoteTaskService.Foundation.Appends
import SupernoteTaskService.Writes.Appends
import SupernoteTaskService.Sync.DocumentLinks
import SupernoteTaskService.EncodedLengths
import SupernoteTaskService.Auth.RetryAfter
import SupernoteTaskService.Auth.Buckets
import SupernoteTaskService.Db.Capacity
import SupernoteTaskService.Db.UserResolution
import SupernoteTaskService.Db.Exhaustion
import SupernoteTaskService.Writes.DueDates
import SupernoteTaskService.Repository.TitleLookup
import SupernoteTaskService.Writes.ColumnLimits
import SupernoteTaskService.Writes.VersionTokens
import SupernoteTaskService.CodePoints
import SupernoteTaskService.Foundation.Simulation
import SupernoteTaskService.Repository.InMemory
import SupernoteTaskService.Repository.Simulation
import SupernoteTaskService.Auth.Isolation
import SupernoteTaskService.Db.Shutdown
import SupernoteTaskService.Db.UserCache
import SupernoteTaskService.Foundation.Sql
import SupernoteTaskService.Repository.Sql
import SupernoteTaskService.Repository.SqlRefinement
import SupernoteTaskService.Routers.LastWrites
import SupernoteTaskService.Routers.Serialization
import SupernoteTaskService.Routers.ErrorCodes
import SupernoteTaskService.Sync.TornReads
