import RedisAgent.Lib.Links
import RedisAgent.Lib.Runs
import RedisAgent.Lib.Words
import RedisAgent.Pool.Server
import RedisAgent.Pool.Queues
import RedisAgent.Pool.Ops
import RedisAgent.Pool.Machine
import RedisAgent.Pool.Invariant
import RedisAgent.Pool.Steps
import RedisAgent.Pool.Reach
import RedisAgent.Pool.Ownership
import RedisAgent.Pool.Env
import RedisAgent.Pool.Array
import RedisAgent.Pool.Slots
import RedisAgent.Lib.Shuffle
import RedisAgent.Lib.OnePerArrival
import RedisAgent.Lib.Grouping
import RedisAgent.Pool.Waiting
import RedisAgent.Router.Hash
import RedisAgent.Router.Sort
import RedisAgent.Router.Acquire
import RedisAgent.Router.Shards
import RedisAgent.Conn.Nshead
import RedisAgent.Conn.Frames
import RedisAgent.Conn.Lifecycle
import RedisAgent.Lib.Lives
import RedisAgent.Req.Events
import RedisAgent.Req.Proxy
import RedisAgent.Lib.ListFamily
import RedisAgent.Req.Invariant
import RedisAgent.Req.ReqMoves
import RedisAgent.Req.Accounting
import RedisAgent.Req.Connections
import RedisAgent.Req.Replies
import RedisAgent.Whitelist.Live
import RedisAgent.Meta.Db
import RedisAgent.Pool.Drained
import RedisAgent.Router.Build
import RedisAgent.Router.Tally
import RedisAgent.Router.Halves
import RedisAgent.Router.Switch
import RedisAgent.Router.Parts
import RedisAgent.Router.Buffers
import RedisAgent.Router.ShardMap
import RedisAgent.Conn.BodyLen
import RedisAgent.Lib.Ring
import RedisAgent.Log.Stream
import RedisAgent.Log.Fidelity
import RedisAgent.Lib.LinkEdits
import RedisAgent.Mem.Arena
import RedisAgent.Mem.Chains
import RedisAgent.Event.Queue
import RedisAgent.Event.Fifo
import RedisAgent.Lib.CText
import RedisAgent.Whitelist.Parse
import RedisAgent.Meta.Partition
import RedisAgent.Lib.Returns
import RedisAgent.Meta.Load
import RedisAgent.Router.Strings
import RedisAgent.Lib.Ensures
import RedisAgent.Slb.Filters
import RedisAgent.Slb.Strategy
import RedisAgent.Pool.Balance
import RedisAgent.Router.Capacity
import RedisAgent.Pool.Scores
import RedisAgent.Meta.Reload
import RedisAgent.Pool.Served
import RedisAgent.Lib.Sliding
import RedisAgent.Slb.Windows
import RedisAgent.Lib.FileSys
import RedisAgent.File.Path
import RedisAgent.File.Dirs
import RedisAgent.Router.HashOnto
import RedisAgent.Lib.FirstBound
import RedisAgent.Router.ShardTool
import RedisAgent.Log.Fields
import RedisAgent.Log.Line
import RedisAgent.Pool.Reports
import RedisAgent.Router.Placed
import RedisAgent.Router.Routes
import RedisAgent.Router.Configured
import RedisAgent.Event.Loop
import RedisAgent.Event.Wakeup
import RedisAgent.Conn.Replies
import RedisAgent.Conn.Wire
import RedisAgent.Req.Growth
import RedisAgent.Server.System
import RedisAgent.Server.Owners
import RedisAgent.Whitelist.Threads
import RedisAgent.Whitelist.Settles
import RedisAgent.Lib.Highest
import RedisAgent.Slb.Turns
import RedisAgent.Slb.Choice
import RedisAgent.Log.Lists
import RedisAgent.Mem.Pointers
import RedisAgent.Req.Memory
import RedisAgent.Log.Files
import RedisAgent.Server.Accept
import RedisAgent.File.CreateDir
import RedisAgent.Meta.Rights
import RedisAgent.Meta.Restart
import RedisAgent.Meta.Unbroken
