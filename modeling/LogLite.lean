import LogLite.Lib.Run
import LogLite.Lib.Coroutine
import LogLite.Lib.Outcome
import LogLite.Lib.Reading
import LogLite.Lib.Rounding
import LogLite.Lib.Interning
import LogLite.Lib.SlidingWindow
import LogLite.Lib.Windows
import LogLite.Lib.Memberwise
import LogLite.Lib.Pool
import LogLite.Lib.Dict
import LogLite.Lib.Paging
import LogLite.Lib.FixedWidth
import LogLite.Lib.Calendar
import LogLite.Lib.Bracket
import LogLite.Lib.Placeholder
import LogLite.Lib.Segments
import LogLite.Base.Bytes
import LogLite.Base.Json
import LogLite.Base.Sqlite
import LogLite.Base.SqlOrder
import LogLite.Base.Decimal
import LogLite.Base.Integer
import LogLite.Store.ColumnDict
import LogLite.Store.DictLaw
import LogLite.Store.Catalog
import LogLite.Store.Writer
import LogLite.Migrate.Manager
import LogLite.Migrate.Recorded
import LogLite.Migrate.AllOrNothing
import LogLite.Migrate.Startup
import LogLite.Store.InsertRule
import LogLite.Store.Sound
import LogLite.Store.Restart
import LogLite.Store.Atomicity
import LogLite.Query.Filter
import LogLite.Query.Delete
import LogLite.Query.Statement
import LogLite.Query.Compile
import LogLite.Query.Transparency
import LogLite.Query.Substring
import LogLite.Metrics.Registry
import LogLite.Harvest.FileTail
import LogLite.Harvest.Framing
import LogLite.Harvest.Socket
import LogLite.Harvest.Manager
import LogLite.Lib.Cursor
import LogLite.Query.Page
import LogLite.Query.Order
import LogLite.Query.Pagination
import LogLite.Query.Estimate
import LogLite.Store.Appended
import LogLite.Sse.Subscriber
import LogLite.Sse.System
import LogLite.Sse.Delivery
import LogLite.Sse.Complete
import LogLite.Sse.Retention
import LogLite.Sse.Windows
import LogLite.Store.Report
import LogLite.Store.ReaderPool
import LogLite.Query.Decode
import LogLite.Query.RoundTrip
import LogLite.Server.Backlog
import LogLite.Server.BacklogLaw
import LogLite.Server.FlushTask
import LogLite.Server.Failures
import LogLite.Server.Shutdown
import LogLite.Server.Suspension
import LogLite.Server.StopRequest
import LogLite.Http.Url
import LogLite.Http.Escapes
import LogLite.Http.FilterExpr
import LogLite.Http.Filters
import LogLite.Http.FilterGrammar
import LogLite.Http.QueryRequest
import LogLite.Http.IntParam
import LogLite.Config.SizeText
import LogLite.Config.Members
import LogLite.Config.Settings
import LogLite.Time.Iso
import LogLite.Config.PoolSize
import LogLite.Vacuum.Stale
import LogLite.Vacuum.Fresh
import LogLite.Vacuum.Excess
import LogLite.Vacuum.Newest
import LogLite.Vacuum.Progress
import LogLite.Vacuum.Pass
import LogLite.Stats.Query
import LogLite.Stats.Window
import LogLite.Stats.Prune
import LogLite.Form.Kinds
import LogLite.Form.Agree
import LogLite.Store.Moments
import LogLite.Query.Reader
import LogLite.Query.Concurrent
import LogLite.Harvest.Ingest
import LogLite.Server.Order
import LogLite.Lib.EventStream
import LogLite.Sse.Stream
import LogLite.Lib.Utf8
import LogLite.Http.Connection
import LogLite.Harvest.Convert
import LogLite.Form.Payload
import LogLite.Stats.Activity
import LogLite.Form.History
import LogLite.Stats.Charts
import LogLite.Lib.Simulation
import LogLite.Server.Clients
import LogLite.Server.Shown
