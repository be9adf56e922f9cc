import JobDispatch.Backend
import JobDispatch.Broker.Basic
import JobDispatch.Broker.ListServer
import JobDispatch.Broker.Remote
import JobDispatch.Control.Basic
import JobDispatch.Control.Status
import JobDispatch.Engine.Basic
import JobDispatch.Engine.Config
import JobDispatch.Execution.Basic
import JobDispatch.Execution.Failure
import JobDispatch.Execution.Run
import JobDispatch.Files.Path
import JobDispatch.Files.Tree
import JobDispatch.Handler.Basic
import JobDispatch.Handler.Builtin
import JobDispatch.Handler.Sleep
import JobDispatch.Handler.Thumbnail
import JobDispatch.Handler.WordCount
import JobDispatch.Image.Basic
import JobDispatch.Image.Bytes
import JobDispatch.Image.Checksum
import JobDispatch.Image.CodeTree
import JobDispatch.Image.Deflate
import JobDispatch.Image.Jpeg
import JobDispatch.Image.Png.Chunk
import JobDispatch.Image.Png.Header
import JobDispatch.Image.Png.Reader
import JobDispatch.Image.Reader
import JobDispatch.Job.Basic
import JobDispatch.Job.Filter
import JobDispatch.Job.Id
import JobDispatch.Job.Status
import JobDispatch.Job.Validation
import JobDispatch.Job.Written
import JobDispatch.Json.Document
import JobDispatch.Json.Printer
import JobDispatch.Json.Reader
import JobDispatch.Json.Record
import JobDispatch.Json.Token
import JobDispatch.Json.Value
import JobDispatch.Number.Double
import JobDispatch.Number.Layout
import JobDispatch.Number.Numeral
import JobDispatch.Number.Rounding
import JobDispatch.Number.Shortest
import JobDispatch.Policy.Basic
import JobDispatch.Policy.Fifo
import JobDispatch.Policy.Interface
import JobDispatch.Policy.Registry
import JobDispatch.Policy.StableHeap
import JobDispatch.Pool.Basic
import JobDispatch.Pool.Config
import JobDispatch.Proofs.Broker.DeadLetters
import JobDispatch.Proofs.Broker.Namespaces
import JobDispatch.Proofs.Broker.ReadyQueue
import JobDispatch.Proofs.Engine.Adoption
import JobDispatch.Proofs.Engine.Following
import JobDispatch.Proofs.Engine.Refusals
import JobDispatch.Proofs.Engine.Restart
import JobDispatch.Proofs.Execution.Attempt
import JobDispatch.Proofs.Execution.Outcome
import JobDispatch.Proofs.Execution.Recording
import JobDispatch.Proofs.Files.Components
import JobDispatch.Proofs.Files.Extension
import JobDispatch.Proofs.Files.Writing
import JobDispatch.Proofs.Handler.ThumbnailPaths
import JobDispatch.Proofs.Handler.WordCounts
import JobDispatch.Proofs.Job.Id
import JobDispatch.Proofs.Job.Messages
import JobDispatch.Proofs.Job.RoundTrip
import JobDispatch.Proofs.Job.Stamps
import JobDispatch.Proofs.Job.Texts
import JobDispatch.Proofs.Json.Documents
import JobDispatch.Proofs.Json.FirstField
import JobDispatch.Proofs.Json.Injective
import JobDispatch.Proofs.Json.Legible
import JobDispatch.Proofs.Json.Numbers
import JobDispatch.Proofs.Json.RoundTrip
import JobDispatch.Proofs.Json.Strings
import JobDispatch.Proofs.Number.Digits
import JobDispatch.Proofs.Number.Intervals
import JobDispatch.Proofs.Number.Rounding
import JobDispatch.Proofs.Number.Shortest
import JobDispatch.Proofs.Number.TotalOrder
import JobDispatch.Proofs.Policy.Content
import JobDispatch.Proofs.Policy.HeapOrder
import JobDispatch.Proofs.Policy.Order
import JobDispatch.Proofs.Policy.Reference
import JobDispatch.Proofs.Policy.Switches
import JobDispatch.Proofs.Pool.Limits
import JobDispatch.Proofs.Pool.Slots
import JobDispatch.Proofs.Replacement
import JobDispatch.Proofs.Scheduler.Advance
import JobDispatch.Proofs.Scheduler.Attributes
import JobDispatch.Proofs.Scheduler.Basic
import JobDispatch.Proofs.Scheduler.Budget
import JobDispatch.Proofs.Scheduler.Carriers
import JobDispatch.Proofs.Scheduler.Conservation
import JobDispatch.Proofs.Scheduler.Counts
import JobDispatch.Proofs.Scheduler.Course
import JobDispatch.Proofs.Scheduler.Delivery
import JobDispatch.Proofs.Scheduler.Effect
import JobDispatch.Proofs.Scheduler.Ending
import JobDispatch.Proofs.Scheduler.Lifecycle
import JobDispatch.Proofs.Scheduler.OneByOne
import JobDispatch.Proofs.Scheduler.Outages
import JobDispatch.Proofs.Scheduler.Parties
import JobDispatch.Proofs.Scheduler.SingleFlight
import JobDispatch.Proofs.Scheduler.Sound
import JobDispatch.Proofs.Scheduler.Submissions
import JobDispatch.Proofs.Scheduler.Timestamps
import JobDispatch.Proofs.Scheduler.Wishes
import JobDispatch.Proofs.Settings.Acceptance
import JobDispatch.Proofs.Sorting
import JobDispatch.Proofs.Sql.Listing
import JobDispatch.Proofs.Sql.Statement
import JobDispatch.Proofs.Sql.Table
import JobDispatch.Proofs.Store.Ages
import JobDispatch.Proofs.Store.Batches
import JobDispatch.Proofs.Store.Claims
import JobDispatch.Proofs.Store.Counts
import JobDispatch.Proofs.Store.Course
import JobDispatch.Proofs.Store.Frame
import JobDispatch.Proofs.Store.OldestFirst
import JobDispatch.Proofs.Store.Pages
import JobDispatch.Proofs.Store.Records
import JobDispatch.Proofs.Text.Words
import JobDispatch.Proofs.Time.Calendar
import JobDispatch.Proofs.Time.RoundTrip
import JobDispatch.Proofs.Time.Seconds
import JobDispatch.Rehearsal.Bench
import JobDispatch.Rehearsal.Outage
import JobDispatch.Rehearsal.Scene
import JobDispatch.Rehearsal.Stage
import JobDispatch.Rehearsal.Timeline
import JobDispatch.Services
import JobDispatch.Settings
import JobDispatch.Sql.Query
import JobDispatch.Sql.Row
import JobDispatch.Store.Basic
import JobDispatch.Store.Calls
import JobDispatch.Store.Listing
import JobDispatch.Text.Blank
import JobDispatch.Text.Dictionary
import JobDispatch.Text.Quoted
import JobDispatch.Text.Unseen
import JobDispatch.Time.Calendar
import JobDispatch.Time.Reader
import JobDispatch.Time.Span
import JobDispatch.Time.Timestamp
