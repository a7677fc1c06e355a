/-
  RedisAgent.Req.Proxy — the requests of a proxy, with the pools they use.

  req.cpp as a transition system.  A step runs the code up to the next call of
  `backend_call`, `backend_timeout` or `pool_release_connect`, or on from its
  return.  `backend_call` and `backend_timeout` are the plugin's: it keeps the
  promises in `Proxy.Enabled`, and may call back at any moment.

  The clean-up of a waiting sub-request reads `->server` through its node.  That
  is an `absentNode` event; where the node is null the process ends there
  (`crashed`), where it has just been freed the old value is still found.
-/
import RedisAgent.Pool.Machine
import RedisAgent.Req.Table

namespace RedisAgent

variable {ν : Type*}

/-- The proxy. -/
structure Proxy (ν : Type*) where
  pools : Nat → PoolState Nat
  table : ReqTable ν

namespace Proxy

/-! ## §1. Where req.cpp and pool.cpp call each other. -/

/-- Run `op` at server `i` of pool `k`.  The callback it makes is its last act. -/
def onPool (s : Proxy ν) (k i : Nat) (op : SrvOp Nat) : Proxy ν :=
  let (p, calls) := (s.pools k).onServer i op
  { pools := Function.update s.pools k p
    table := (callbacks (calls.map Prod.snd)).foldl
      (fun t c => t.reqOnAcquired (c.1.map (ConnRef.mk k i)) c.2) s.table }

/-- What `pool_fetch_connect` gets from outside: the address of the waiting node,
the time, the balancer's answers, and the uninitialised `serverid`. -/
structure FetchEnv where
  wq : Nat
  now : Timeval
  balance : Nat → Int
  serverid : Int

/-- `pool_fetch_connect` with the server chosen: `pool_waiting_node` is set where
the sub-request has to wait. -/
def poolFetchConnect (s : Proxy ν) (k i sub : Nat) (env : FetchEnv) : Proxy ν :=
  let fetched :=
    serverFetchConnect (s.pools k).pool.conf ((s.pools k).pool.serverArr i) sub env.wq env.now
  { s with
    table := s.table.modSub sub fun sr =>
      { sr with poolWaitingNode := fetched.1.map (WaitNode.mk k i) } }.onPool k i
    (.fetch sub env.wq env.now)

/-- `req_on_getshards` -/
def reqOnGetshards (s : Proxy ν) (r : Nat) (c : ShardCall ν Nat) (env : FetchEnv) : Proxy ν :=
  match s.table.reqs r with
  | none => s
  | some q =>
      let sub := s.table.nextSub
      let s := { s with table := s.table.issue r q c }
      match (s.pools c.pool).pool.pickServer env.balance env.serverid with
      | none => { s with table := s.table.fetchFailed r sub }
      | some i => s.poolFetchConnect c.pool i sub env

/-- `router_acquire_shards`: the next thing its loop does. -/
def acquireStep (s : Proxy ν) (r : Nat) (env : FetchEnv) : List (ShardEvent ν Nat) → Proxy ν
  | [] => { s with table := { s.table with handler := .eventLoop } }
  | .duplicate :: todo =>
      { s with
        table := { s.table.modReq r fun q => { q with shardCount := q.shardCount - 1 } with
          handler := .acquireShards r todo } }
  | .call c :: todo =>
      { s with table := { s.table with handler := .acquireShards r todo } }.reqOnGetshards r c env

/-- `req_on_shard_done(r, errNo, sub)`, up to the return of `pool_release_connect`. -/
def reqOnShardDone (s : Proxy ν) (sub : Nat) (errNo : Int) (now : Timeval) : Proxy ν :=
  match s.table.subs sub with
  | none => s
  | some sr =>
      match s.table.reqs sr.r with
      | none => s
      | some q =>
          let t := s.table.shardDoneBegin sub sr q
          match sr.handle with
          | none => { s with table := t }
          | some c =>
              { s with table := t.note (.released sub c) }.onPool c.pool c.server
                (.release c.handle (errNo ≠ 0) now)

/-- `req_timeout_connect_cleanup`, for a sub-request that still waits. -/
def cleanupWaiting (s : Proxy ν) (r sub : Nat) : Option WaitNode → Proxy ν
  | none => { s with table := { s.table.note (.absentNode sub) with handler := .crashed } }
  | some n =>
      let s := { s with table := s.table.note (.removed sub) }.onPool n.pool n.server (.waitRm n.wq)
      let t := (s.table.note (.absentNode sub)).setSub sub none
      { s with table := t.modReq r fun q => { q with shardCount := q.shardCount - 1 } }

/-- One pass of the loop of `req_timeout_connect_cleanup`; when the list is empty,
the rest of `req_timeout`. -/
def cleanupPass (s : Proxy ν) (r : Nat) : Proxy ν :=
  match s.table.reqs r with
  | none => s
  | some q =>
      match q.subReqNotDone with
      | none => { s with table := { s.table.reqFail r with handler := .eventLoop } }
      | some sub =>
          let s := { s with table := s.table.pop r q sub }
          match s.table.subs sub with
          | none => s
          | some sr =>
              match sr.state with
              | .beforeRequestPool => s.cleanupWaiting r sub sr.poolWaitingNode
              | .poolReturned => { s with table := { s.table with handler := .backendTimeout r sub } }
              | .backendReturned => s

end Proxy

/-! ## §2. Runs. -/

/-- A step of the proxy, with what it gets from outside. -/
inductive ProxyStep (ν : Type*)
  | ready (g : Router Nat) (m : Int → BackendReq ν) (keyNum : Nat) (isRead : Bool)
  | reject (errNo : Int)
  | acquire (env : Proxy.FetchEnv)
  | callReturn (ret : Int)
  | shardDone (sub : Nat) (errNo : Int) (now : Timeval)
  | releaseReturn
  | timeout (r : Nat)
  | cleanup
  | timeoutReturn
  /-- a callback of the plugin or a timer, at server `i` of pool `k` -/
  | pool (k i : Nat) (op : SrvOp Nat)
  | poolDestroy (k : Nat)

/-- The entries into a pool that are not the requests' own. -/
def SrvOp.FromOutside {σ : Type*} : SrvOp σ → Prop
  | .created .. | .destroyed _ | .monitor => True
  | _ => False

namespace Proxy

/-- The state after one step. -/
def exec (s : Proxy ν) : ProxyStep ν → Proxy ν
  | .ready g m keyNum isRead => { s with table := s.table.reqReady g m keyNum isRead }
  | .reject errNo => { s with table := s.table.reqReject errNo }
  | .acquire env =>
      match s.table.handler with
      | .acquireShards r todo => s.acquireStep r env todo
      | _ => s
  | .callReturn ret =>
      match s.table.stack with
      | .backendCall sub :: stack =>
          { s with table := { s.table with stack := stack }.callReturned sub ret }
      | _ => s
  | .shardDone sub errNo now => s.reqOnShardDone sub errNo now
  | .releaseReturn =>
      match s.table.stack with
      | .shardDone r sub :: stack =>
          { s with table := { s.table with stack := stack }.shardDoneEnd r sub }
      | _ => s
  | .timeout r => { s with table := s.table.reqTimeout r }
  | .cleanup =>
      match s.table.handler with
      | .timeoutCleanup r => s.cleanupPass r
      | _ => s
  | .timeoutReturn =>
      match s.table.handler with
      | .backendTimeout r _ => { s with table := s.table.timeoutReturned r }
      | _ => s
  | .pool k i op => s.onPool k i op
  | .poolDestroy k => { s with pools := Function.update s.pools k ((s.pools k).exec .destroy) }

/-- Nothing is running. -/
def Waiting (s : Proxy ν) : Prop := s.table.handler = .eventLoop ∧ s.table.stack = []

/-- When a step can be taken, and what is promised:
  • requests and timeouts come from the event loop; a request has a key, and the
    shard function gives no negative shards;
  • the balancer picks an existing server, and `malloc` an unused address;
  • a `backend_call` that returns non-zero has not called back;
  • the callback comes at most once, and only for a `backend_call` that did not
    return non-zero;
  • `backend_timeout` has called back before it returns;
  • the pool's promises, for the callbacks that are its own. -/
def Enabled (s : Proxy ν) : ProxyStep ν → Prop
  | .ready g m keyNum _ => s.Waiting ∧ 1 ≤ keyNum
      ∧ ∀ i : Int, 0 ≤ i → i < keyNum → 0 ≤ g.shardKeyOf (m i).key
  | .reject _ => s.Waiting
  | .acquire env => s.table.stack = [] ∧ ∃ r todo, s.table.handler = .acquireShards r todo
      ∧ ∀ c i, todo.head? = some (.call c) →
        (s.pools c.pool).pool.pickServer env.balance env.serverid = some i →
          (s.pools c.pool).Live i ∧ ((s.pools c.pool).pool.serverArr i).waitSub env.wq = none
  | .callReturn ret => ∃ sub stack, s.table.stack = .backendCall sub :: stack
      ∧ (ret ≠ 0 → ∃ sr, s.table.subs sub = some sr ∧ sr.state = .poolReturned)
  | .shardDone sub _ _ => ∃ sr, s.table.subs sub = some sr ∧ sr.state = .poolReturned
  | .releaseReturn => ∃ r sub stack, s.table.stack = .shardDone r sub :: stack
  | .timeout r => s.Waiting ∧ ∃ q, s.table.reqs r = some q ∧ q.timeoutEvent = true
  | .cleanup => s.table.stack = [] ∧ ∃ r, s.table.handler = .timeoutCleanup r
  | .timeoutReturn => s.table.stack = []
      ∧ ∃ r sub, s.table.handler = .backendTimeout r sub ∧ s.table.subs sub = none
  | .pool k i op => op.FromOutside ∧ (s.pools k).Live i ∧ ((s.pools k).srv i).Enabled op
  | .poolDestroy k => (s.pools k).Enabled .destroy

/-- The sizes of a pool: servers, connections each, and the balancer's retries. -/
structure PoolSize where
  serverCount : Nat
  connectPerServer : Nat
  connectRetry : Int

/-- Nothing has happened yet. -/
def start (sizes : Nat → PoolSize) : Proxy ν where
  pools k := .start (sizes k).serverCount (sizes k).connectPerServer (sizes k).connectRetry
  table :=
    { reqs := fun _ => none
      subs := fun _ => none
      links := Links.null
      nextReq := 0
      nextSub := 0
      handler := .eventLoop
      stack := []
      hist := [] }

end Proxy

/-- Every run of a proxy with the pools `sizes`. -/
def proxyLts (ν : Type*) (sizes : Nat → Proxy.PoolSize) : Lts (Proxy ν) (ProxyStep ν) where
  init s := s = Proxy.start sizes
  step s l s' := s.table.handler ≠ .crashed ∧ s.Enabled l ∧ s' = s.exec l

end RedisAgent
