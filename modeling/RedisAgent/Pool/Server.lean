/-
  RedisAgent.Pool.Server — one backend server of a connection pool.

  pool.h / pool.cpp, bottom layer: the connection slots, the two queues that
  share the slots' `connect_queue_t` nodes (unconnected slots and free
  connections), and the queue of sub-requests waiting for a connection.

  A `connect_queue_t` node is named by its `connect_id` and a `waiting_queue_t`
  node by the address `malloc` returned for it; `waitSub a = none` says that no
  live node is at `a`.  A sub-request is a `void *` the pool never looks into, so
  its type `σ` is a parameter.  `-1` / `NULL` results are `none`.
-/
import RedisAgent.Lib.Links

namespace RedisAgent

/-! ## §1. The records. -/

/-- `struct timeval`. -/
structure Timeval where
  tvSec : Int := 0
  tvUsec : Int := 0
  deriving Repr, DecidableEq

/-- `handle_t`.  `poolData` is the slot whose `connect_info_t` the handle points
back to; `serial` tells one `calloc` of a handle from another. -/
structure Handle where
  poolData : Nat
  serial : Nat
  deriving Repr, DecidableEq

/-- `connect_info_t`, as `calloc` leaves it. -/
structure ConnectInfo where
  timestamp : Timeval := {}
  handle : Option Handle := none
  inUse : Bool := false
  toBeDestroyed : Bool := false
  deriving Repr, DecidableEq

/-- The fields of `pool_info_t` that `pool_build` fixes for good and the operations
on servers read; the others it stores are fields of `RouterPool`. -/
structure PoolConf where
  connectPerServer : Int
  lowConnectPerServer : Int
  connectRetry : Int
  deriving Repr, DecidableEq

/-- How many slots the loops of `pool_build` fill. -/
abbrev PoolConf.slots (pool : PoolConf) : Nat := pool.connectPerServer.toNat

/-- `server_info_t`.  `monitorEvent` is `connect_monitor_event != NULL`, `freed`
says that `_pool_server_destroyed` has run, and `serial` counts the handles
allocated so far. -/
structure ServerInfo (σ : Type*) where
  connectArr : Nat → ConnectInfo
  node : Links Nat
  connectQueue : Ends Nat
  unconnectQueue : Ends Nat
  waitLinks : Links Nat
  waitingQueue : Ends Nat
  waitSub : Nat → Option σ
  connectCount : Int
  unconnectCount : Int
  freeConnectCount : Int
  waitingCount : Int
  destroyFlag : Bool
  monitorEvent : Bool
  freed : Bool
  serial : Nat

/-- What the pool calls outside itself: the plugin's two functions, the callback
of a sub-request, the balancing strategy, and its own owner. -/
inductive Call (σ : Type*)
  /-- `m_poolCb.m_createCb(handle, ..)` -/
  | createCb (h : Handle)
  /-- `m_poolCb.m_destroyCb(handle, ..)` -/
  | destroyCb (h : Option Handle)
  /-- `cb(ci->handle, sub_req)` -/
  | callback (h : Option Handle) (sub : σ)
  /-- `setServerArgAfterConn(server, ret)` -/
  | argAfterConn (ret : Int)
  /-- `setServerArg(server, talk)` with both times of `talk` set to `timecost` -/
  | serverArg (timecost : Int)
  /-- `_pool_server_destroyed` ran -/
  | serverDestroyed
  /-- `pool->m_destroy_cb(pool)` -/
  | poolDestroyed

/-! ## §2. The queue functions. -/

section Code

variable {σ : Type*}

/-- `_pool_unconnect_queue_get` -/
def poolUnconnectQueueGet (s : ServerInfo σ) : Option Nat × ServerInfo σ :=
  match s.node.popFront s.unconnectQueue with
  | (none, _) => (none, s)
  | (some j, k, e) =>
      (some j, { s with node := k, unconnectQueue := e, unconnectCount := s.unconnectCount - 1 })

/-- `_pool_unconnect_queue_put` -/
def poolUnconnectQueuePut (s : ServerInfo σ) (j : Nat) : ServerInfo σ :=
  { s with
    node := (s.node.pushBack s.unconnectQueue j).1
    unconnectQueue := (s.node.pushBack s.unconnectQueue j).2
    unconnectCount := s.unconnectCount + 1 }

/-- `_pool_connect_queue_get` -/
def poolConnectQueueGet (s : ServerInfo σ) : Option Nat × ServerInfo σ :=
  match s.node.popFront s.connectQueue with
  | (none, _) => (none, s)
  | (some j, k, e) =>
      (some j, { s with node := k, connectQueue := e, freeConnectCount := s.freeConnectCount - 1 })

/-- `_pool_connect_queue_put` -/
def poolConnectQueuePut (s : ServerInfo σ) (j : Nat) : ServerInfo σ :=
  { s with
    node := (s.node.pushBack s.connectQueue j).1
    connectQueue := (s.node.pushBack s.connectQueue j).2
    freeConnectCount := s.freeConnectCount + 1 }

/-- `_pool_connect_queue_rm`.  The counter goes down whether or not the node is
in the queue. -/
def poolConnectQueueRm (s : ServerInfo σ) (j : Nat) : ServerInfo σ :=
  { s with
    connectQueue := s.node.dropEnds s.connectQueue j
    node := (s.node.unlink j).clear j
    freeConnectCount := s.freeConnectCount - 1 }

/-- `_pool_waiting_queue_get`: the head node is freed and its sub-request
returned, `none` when the queue is empty. -/
def poolWaitingQueueGet (s : ServerInfo σ) : Option σ × ServerInfo σ :=
  match s.waitingQueue.head with
  | none => (none, s)
  | some wq =>
      let only := s.waitingQueue.head = s.waitingQueue.tail
      (s.waitSub wq, { s with
        waitLinks :=
          if only then s.waitLinks else s.waitLinks.setPrev (s.waitLinks.next wq) none
        waitingQueue :=
          if only then Ends.empty else { s.waitingQueue with head := s.waitLinks.next wq }
        waitingCount := s.waitingCount - 1
        waitSub := Function.update s.waitSub wq none })

/-- The list surgery of `_pool_waiting_queue_rm`, up to `m_waitingCount --`. -/
def poolWaitingQueueUnlink (s : ServerInfo σ) (wq : Nat) : ServerInfo σ :=
  { s with
    waitLinks := s.waitLinks.unlink wq
    waitingQueue := (s.waitLinks.unlink wq).dropEnds s.waitingQueue wq
    waitSub := Function.update s.waitSub wq none
    waitingCount := s.waitingCount - 1 }

/-- `_pool_waiting_queue_put` of a node whose `sub_req` is already set. -/
def poolWaitingQueuePut (s : ServerInfo σ) (wq : Nat) : ServerInfo σ :=
  { s with
    waitLinks := (s.waitLinks.pushBack s.waitingQueue wq).1
    waitingQueue := (s.waitLinks.pushBack s.waitingQueue wq).2
    waitingCount := s.waitingCount + 1 }

/-- Write through `server.m_connectArr[j]`. -/
def ServerInfo.setConn (s : ServerInfo σ) (j : Nat) (ci : ConnectInfo) : ServerInfo σ :=
  { s with connectArr := Function.update s.connectArr j ci }

end Code

end RedisAgent
