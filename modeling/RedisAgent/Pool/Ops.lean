/-
  RedisAgent.Pool.Ops — the operations of pool.cpp.

  Every operation returns the new state of the server (or pool) and the list of
  calls it makes outside, in order.  The sub-request callback `cb` is always the
  last thing an operation does before it returns, so whatever the callback does
  to the pool is done to the state returned here.

  `now` stands for `gettimeofday`, `wq` for the address `malloc` returns, and
  `balance k` for the result of the `k`-th `_pool_get_balance_server` call.
-/
import Mathlib.Algebra.GroupWithZero.Nat
import RedisAgent.Pool.Server

namespace RedisAgent

variable {σ : Type*}

/-- State of the server after an operation, and the calls it made. -/
abbrev Out (σ : Type*) := ServerInfo σ × List (Call σ)

/-- The sub-request callbacks among some calls. -/
def callbacks (calls : List (Call σ)) : List (Option Handle × σ) :=
  calls.filterMap (fun c => match c with
    | .callback h sub => some (h, sub)
    | _ => none)

/-! ## §1. Tear-down of a server. -/

/-- `_pool_server_destroyed`, the part on the server: its slots are released.  The
server itself is an element of `m_serverArr`; what `free(server)` does to that array
is in `PoolInfo.onServer`. -/
def poolServerDestroyed (s : ServerInfo σ) : Out σ :=
  ({ s with freed := true }, [.serverDestroyed])

/-- The `while` loop of `_pool_server_destroy`, at most `fuel` times. -/
def poolServerDestroyLoop : Nat → Option Nat → ServerInfo σ → Out σ
  | fuel + 1, some j, s =>
      let (j', s') := poolConnectQueueGet s
      let (s'', calls) := poolServerDestroyLoop fuel j' s'
      (s'', .destroyCb (s.connectArr j).handle :: calls)
  | _, _, s => (s, [])

/-- `_pool_server_destroy`.  Each pass takes one of the server's
slots out of the queue, so that many passes are enough. -/
def poolServerDestroy (pool : PoolConf) (s : ServerInfo σ) : Out σ :=
  match poolConnectQueueGet s with
  | (none, s) => poolServerDestroyed s
  | (some j, s) => poolServerDestroyLoop pool.slots (some j) s

/-! ## §2. Handing connections out and taking them back. -/

/-- `_pool_fetch_connect_from_connectqueue` -/
def poolFetchConnectFromConnectqueue (s : ServerInfo σ) (sub : σ) (now : Timeval) : Out σ :=
  match poolConnectQueueGet s with
  | (none, s) => (s, [])
  | (some j, s) =>
      let ci := s.connectArr j
      (s.setConn j { ci with timestamp := now, inUse := true }, [.callback ci.handle sub])

/-- `_pool_add_req_into_waitingqueue` -/
def poolAddReqIntoWaitingqueue (s : ServerInfo σ) (sub : σ) (wq : Nat) : ServerInfo σ :=
  poolWaitingQueuePut
    { s with
      waitSub := Function.update s.waitSub wq (some sub)
      waitLinks := s.waitLinks.clear wq } wq

/-- `_pool_create_new_connect` -/
def poolCreateNewConnect (s : ServerInfo σ) : Out σ :=
  match poolUnconnectQueueGet s with
  | (none, s) => (s, [])
  | (some j, s) =>
      let handle : Handle := ⟨j, s.serial⟩
      ({ s.setConn j { s.connectArr j with handle := some handle } with serial := s.serial + 1 },
        [.createCb handle])

/-- `_pool_put_back_connect` -/
def poolPutBackConnect (pool : PoolConf) (s : ServerInfo σ) (j : Nat) (now : Timeval) : Out σ :=
  match poolWaitingQueueGet s with
  | (some sub, s) =>
      let ci := s.connectArr j
      (s.setConn j { ci with timestamp := now, inUse := true },
        [.argAfterConn 0, .callback ci.handle sub])
  | (none, s) =>
      let s := poolConnectQueuePut s j
      if s.destroyFlag ∧ s.freeConnectCount + s.unconnectCount = pool.connectPerServer then
        let (s, calls) := poolServerDestroy pool s
        (s, .argAfterConn 0 :: calls)
      else (s, [.argAfterConn 0])

/-- `_pool_on_connect_created` -/
def poolOnConnectCreated (pool : PoolConf) (s : ServerInfo σ) (handle : Handle) (status : Int)
    (now : Timeval) : Out σ :=
  let j := handle.poolData
  let s := s.setConn j { s.connectArr j with inUse := false, toBeDestroyed := false }
  if status = 0 then
    poolPutBackConnect pool { s with connectCount := s.connectCount + 1 } j now
  else
    let s := poolUnconnectQueuePut s j
    let s := s.setConn j { s.connectArr j with handle := none }
    if s.destroyFlag ∧ s.freeConnectCount + s.unconnectCount = pool.connectPerServer then
      poolServerDestroy pool s
    else (s, [])

/-- `_pool_on_connect_destroyed` -/
def poolOnConnectDestroyed (s : ServerInfo σ) (handle : Handle) : Out σ :=
  let j := handle.poolData
  let ci := s.connectArr j
  if ci.inUse ∧ ¬ ci.toBeDestroyed then
    -- "handle destroyed when should not yet be destroyed"
    (s.setConn j { ci with toBeDestroyed := true }, [.argAfterConn (-1)])
  else
    let s := if ci.inUse then s else poolConnectQueueRm s j
    let s := s.setConn j { ci with handle := none }
    let s := poolUnconnectQueuePut s j
    let s := { s with connectCount := s.connectCount - 1 }
    if s.destroyFlag ∧ s.connectCount = 0 then
      let (s, calls) := poolServerDestroyed s
      (s, .argAfterConn (-1) :: calls)
    else (s, [.argAfterConn (-1)])

/-- The `int timecost` of `pool_release_connect`: microseconds, kept in 32 bits. -/
def timecost (since now : Timeval) : Int :=
  ((now.tvSec - since.tvSec) * 1000000 + (now.tvUsec - since.tvUsec)).bmod (2 ^ 32)

/-- `pool_release_connect` -/
def poolReleaseConnect (pool : PoolConf) (s : ServerInfo σ) (handle : Handle) (errclose : Bool)
    (now : Timeval) : Out σ :=
  let j := handle.poolData
  let s := s.setConn j { s.connectArr j with inUse := false }
  let ci := s.connectArr j
  let report : Call σ := .serverArg (timecost ci.timestamp now)
  if errclose = false ∧ ¬ ci.toBeDestroyed then
    let (s, calls) := poolPutBackConnect pool s j now
    (s, report :: calls)
  else (s, [report, .destroyCb ci.handle])

/-- `_pool_waiting_queue_rm` of a node; a null node is left to the caller. -/
def poolWaitingQueueRm (pool : PoolConf) (s : ServerInfo σ) (wq : Nat) : Out σ :=
  let s := poolWaitingQueueUnlink s wq
  if s.destroyFlag ∧ s.waitingCount = 0
      ∧ s.freeConnectCount + s.unconnectCount = pool.connectPerServer then
    poolServerDestroy pool s
  else (s, [])

/-- `_server_connect_monitor` -/
def serverConnectMonitor (pool : PoolConf) (s : ServerInfo σ) : Out σ :=
  if s.connectCount < pool.lowConnectPerServer then poolCreateNewConnect s else (s, [])

/-- `pool_fetch_connect` once the balancer has picked the server; also the
waiting node, when the sub-request was queued. -/
def serverFetchConnect (pool : PoolConf) (s : ServerInfo σ) (sub : σ) (wq : Nat) (now : Timeval) :
    Option Nat × Out σ :=
  if s.connectQueue.head ≠ none then
    (none, poolFetchConnectFromConnectqueue s sub now)
  else
    let (s, calls) :=
      if s.connectCount < pool.connectPerServer then poolCreateNewConnect s else (s, [])
    (some wq, poolAddReqIntoWaitingqueue s sub wq, calls)

/-- The body of the loop of `pool_destroy`. -/
def serverDestroy (pool : PoolConf) (s : ServerInfo σ) : Out σ :=
  let s := { s with monitorEvent := false }
  if s.connectCount = s.freeConnectCount
      ∧ s.freeConnectCount + s.unconnectCount = pool.connectPerServer ∧ s.waitingCount = 0 then
    poolServerDestroy pool { s with destroyFlag := true }
  else ({ s with destroyFlag := true }, [])

/-! ## §3. The pool. -/

/-- The block `m_serverArr` points to: one `calloc` for all servers of the pool. -/
inductive ArrayMem
  | allocated
  /-- `free` was called with the address of the block, that of server 0 -/
  | released
  /-- `free` was called with an address inside the block, or the block was used
  after its release; what the process does from then on is undefined -/
  | fault
  deriving Repr, DecidableEq

/-- A server of the array is read or written. -/
def ArrayMem.use : ArrayMem → ArrayMem
  | .released => .fault
  | mem => mem

/-- `free(&m_serverArr[i])` -/
def ArrayMem.free (i : Nat) : ArrayMem → ArrayMem
  | .allocated => if i = 0 then .released else .fault
  | _ => .fault

/-- `pool_info_t`: its servers are `serverArr 0 .. serverArr (built - 1)`, of
which `serverCount` have not been torn down.  Once `mem` is `fault` the other fields
only say what the code would have done in intact memory. -/
structure PoolInfo (σ : Type*) where
  conf : PoolConf
  serverCount : Int
  serverArr : Nat → ServerInfo σ
  mem : ArrayMem

/-- Which server made which call. -/
abbrev Calls (σ : Type*) := List (Nat × Call σ)

/-- `LOW_CONNECT_THRESHOLD` -/
def lowConnectThreshold : Int := 10

/-- A server as `calloc` leaves it, with the monitor timer registered. -/
def serverZero : ServerInfo σ where
  connectArr := fun _ => {}
  node := Links.null
  connectQueue := Ends.empty
  unconnectQueue := Ends.empty
  waitLinks := Links.null
  waitingQueue := Ends.empty
  waitSub := fun _ => none
  connectCount := 0
  unconnectCount := 0
  freeConnectCount := 0
  waitingCount := 0
  destroyFlag := false
  monitorEvent := true
  freed := false
  serial := 0

/-- The slot loop of `pool_build`; it has no pass when `connectPerServer` is
negative. -/
def serverBuild (connectPerServer : Int) : ServerInfo σ :=
  (List.range connectPerServer.toNat).foldl poolUnconnectQueuePut serverZero

/-- `pool_build` -/
def poolBuild (serverCount : Nat) (connectPerServer connectRetry : Int) : PoolInfo σ where
  conf :=
    { connectPerServer := connectPerServer
      lowConnectPerServer :=
        if connectPerServer.tdiv lowConnectThreshold > 0 then
          connectPerServer.tdiv lowConnectThreshold
        else 1
      connectRetry := connectRetry }
  serverCount := serverCount
  serverArr := fun _ => serverBuild connectPerServer
  mem := .allocated

/-- The call is `_pool_server_destroyed`. -/
def Call.isServerDestroyed : Call σ → Bool
  | .serverDestroyed => true
  | _ => false

/-- Store what an operation did to server `i`; `_pool_server_destroyed` also
counts the server off, calls `free(server)`, and tells the owner when it was the
last. -/
def PoolInfo.onServer (pool : PoolInfo σ) (i : Nat) (r : Out σ) : PoolInfo σ × Calls σ :=
  let calls := r.2.map (fun c => (i, c))
  let pool := { pool with
    serverArr := Function.update pool.serverArr i r.1
    mem := pool.mem.use }
  if r.2.any Call.isServerDestroyed then
    let pool := { pool with serverCount := pool.serverCount - 1, mem := pool.mem.free i }
    (pool, if pool.serverCount = 0 then calls ++ [(i, .poolDestroyed)] else calls)
  else (pool, calls)

/-- The balancing loop of `pool_fetch_connect`, from its `k`-th pass on, with
`serverid` as it stands; `retry` counts the passes left. -/
def balanceLoop (balance : Nat → Int) : (retry : Nat) → (k : Nat) → (serverid : Int) → Int
  | 0, _, serverid => serverid
  | retry + 1, k, _ =>
      if balance k ≥ 0 then balance k else balanceLoop balance retry (k + 1) (balance k)

/-- The server `pool_fetch_connect` settles on: `none` where it returns `-1`.
`serverid` is what the uninitialised variable holds. -/
def PoolInfo.pickServer (pool : PoolInfo σ) (balance : Nat → Int) (serverid : Int) : Option Nat :=
  if pool.serverCount ≤ 0 then none
  else
    let id := balanceLoop balance (pool.conf.connectRetry + 1).toNat 0 serverid
    if id < 0 then none else some id.toNat

/-- The balancing loop of `pool_fetch_connect` has looked at the servers, if it has a
pass. -/
def PoolInfo.balanced (pool : PoolInfo σ) : PoolInfo σ :=
  if pool.serverCount ≤ 0 ∨ pool.conf.connectRetry < 0 then pool
  else { pool with mem := pool.mem.use }

section Balanced

variable (pool : PoolInfo σ)

@[simp] theorem PoolInfo.balanced_conf : pool.balanced.conf = pool.conf := by
  unfold PoolInfo.balanced
  split <;> rfl

@[simp] theorem PoolInfo.balanced_serverCount : pool.balanced.serverCount = pool.serverCount := by
  unfold PoolInfo.balanced
  split <;> rfl

@[simp] theorem PoolInfo.balanced_serverArr : pool.balanced.serverArr = pool.serverArr := by
  unfold PoolInfo.balanced
  split <;> rfl

end Balanced

/-- `pool_destroy`: the servers there are when it is called, in order. -/
def poolDestroy (pool : PoolInfo σ) : PoolInfo σ × Calls σ :=
  (List.range pool.serverCount.toNat).foldl
    (fun r i =>
      let (pool, calls) := r.1.onServer i (serverDestroy r.1.conf (r.1.serverArr i))
      (pool, r.2 ++ calls))
    (pool, [])

end RedisAgent
