/-
  RedisAgent.Req.Table — the memory of req.cpp, and the parts of its functions
  that touch nothing else.

  The code is single-threaded, but callbacks nest: `pool_release_connect` may hand
  the connection to a sub-request of another request, whose `backend_call` may
  complete at once, and so on.  So the table has a call stack: `handler` is what
  the event loop has called, `stack` the calls of `backend_call` and
  `pool_release_connect` inside it, innermost first.

  Requests and sub-requests are named in the order they are allocated; a name is
  never used again, so what has been freed stays `none` for ever.  The logging,
  the load balancer's statistics and the contents of the reply are left out.
-/
import RedisAgent.Req.Events
import RedisAgent.Router.Acquire

namespace RedisAgent

open Links

/-! ## §1. The records. -/

/-- `sub_req_state_t` -/
inductive SubReqState
  | beforeRequestPool
  | poolReturned
  | backendReturned
  deriving Repr, DecidableEq

/-- `sub_req_t`, less `prev` and `next`. -/
structure SubReq (ν : Type*) where
  backendReq : List (BackendReq ν)
  num : Int
  r : Nat
  handle : Option ConnRef
  state : SubReqState
  poolWaitingNode : Option WaitNode

/-- The part of `req_t` that req.cpp works with; `timeoutEvent` says that the
pointer is not null. -/
structure Req where
  shardCount : Int
  subReqNotDone : Option Nat
  timeout : Bool
  reqDoneCalled : Bool
  errNo : Int
  timeoutEvent : Bool
  deriving Repr, DecidableEq

/-- `STORE_ERR_INTERNAL_ERROR` -/
def storeErrInternalError : Int := 500

/-- `STORE_ERR_SERVICE_UNAVAILABLE` -/
def storeErrServiceUnavailable : Int := 503

/-- `STORE_ERR_SERVICE_TIMEOUT` -/
def storeErrServiceTimeout : Int := 504

/-- What the event loop has called. -/
inductive Handler (ν : Type*)
  /-- nothing, or a callback that keeps no state of its own -/
  | eventLoop
  /-- `req_ready`, inside `router_acquire_shards`, with this left to do -/
  | acquireShards (r : Nat) (todo : List (ShardEvent ν Nat))
  /-- `req_timeout`, inside `req_timeout_connect_cleanup` -/
  | timeoutCleanup (r : Nat)
  /-- the same, inside `backend_timeout` -/
  | backendTimeout (r sub : Nat)
  /-- a null pointer was dereferenced -/
  | crashed

/-- A call that has not returned. -/
inductive CallFrame
  /-- `backend_call`, called by `req_on_acquired` -/
  | backendCall (sub : Nat)
  /-- `pool_release_connect`, called by `req_on_shard_done(r, .., sub)` -/
  | shardDone (r sub : Nat)
  deriving Repr, DecidableEq

/-- The memory of req.cpp.  `links` are the `prev` and `next` of all
sub-requests. -/
structure ReqTable (ν : Type*) where
  reqs : Nat → Option Req
  subs : Nat → Option (SubReq ν)
  links : Links Nat
  nextReq : Nat
  nextSub : Nat
  handler : Handler ν
  stack : List CallFrame
  hist : List Event

/-! ## §2. The list of a request. -/

/-- `_req_subreq_queue_push` -/
def reqSubreqQueuePush (k : Links Nat) (list : Option Nat) (sr : Nat) : Links Nat × Option Nat :=
  k.pushFront list sr

/-- `_req_subreq_queue_pop`.  The one taken off keeps its pointers. -/
def reqSubreqQueuePop (k : Links Nat) : Option Nat → Option Nat × Links Nat × Option Nat
  | none => (none, k, none)
  | some temp => (some temp, k.setPrev (k.next temp) none, k.next temp)

/-- `_req_subreq_queue_rm` -/
def reqSubreqQueueRm (k : Links Nat) (list : Option Nat) (sr : Nat) : Links Nat × Option Nat :=
  (k.unlink sr, if list = some sr then (k.unlink sr).next sr else list)

/-! ## §3. The functions of req.cpp. -/

namespace ReqTable

variable {ν : Type*}

def note (t : ReqTable ν) (e : Event) : ReqTable ν := { t with hist := t.hist ++ [e] }

def setReq (t : ReqTable ν) (r : Nat) (q : Option Req) : ReqTable ν :=
  { t with reqs := Function.update t.reqs r q }

def setSub (t : ReqTable ν) (sub : Nat) (sr : Option (SubReq ν)) : ReqTable ν :=
  { t with subs := Function.update t.subs sub sr }

/-- A write through `r`. -/
def modReq (t : ReqTable ν) (r : Nat) (f : Req → Req) : ReqTable ν :=
  t.setReq r ((t.reqs r).map f)

/-- A write through `sr`. -/
def modSub (t : ReqTable ν) (sub : Nat) (f : SubReq ν → SubReq ν) : ReqTable ν :=
  t.setSub sub ((t.subs sub).map f)

/-- `req_cleanup`: with the request, `efree_all` frees its sub-requests. -/
def reqCleanup (t : ReqTable ν) (r : Nat) : ReqTable ν :=
  { t.setReq r none with subs := fun sub => (t.subs sub).filter (fun sr => sr.r ≠ r) }

/-- `req_done` -/
def reqDone (t : ReqTable ν) (r : Nat) : ReqTable ν :=
  match t.reqs r with
  | none => t
  | some q =>
      if q.reqDoneCalled then t
      else ((t.setReq r (some { q with reqDoneCalled := true })).note (.done r q.errNo)).reqCleanup r

/-- `req_fail` -/
def reqFail (t : ReqTable ν) (r : Nat) : ReqTable ν :=
  (t.modReq r fun q =>
    { q with errNo := if q.errNo = 0 then storeErrInternalError else q.errNo }).reqDone r

/-- The end of `req_on_shard_done`. -/
def shardCountDown (t : ReqTable ν) (r : Nat) : ReqTable ν :=
  match t.reqs r with
  | none => t
  | some q =>
      let q := { q with shardCount := q.shardCount - 1 }
      let t := t.setReq r (some q)
      if q.shardCount = 0 ∧ q.timeout = false then t.reqDone r else t

/-- `req_on_acquired`, up to `backend_call`. -/
def reqOnAcquired (t : ReqTable ν) (handle : Option ConnRef) (sub : Nat) : ReqTable ν :=
  let t := t.modSub sub fun sr => { sr with handle := handle, state := .poolReturned }
  { t.note (.acquired sub handle) with stack := .backendCall sub :: t.stack }

/-- `req_on_acquired`, when `backend_call` has returned `ret`. -/
def callReturned (t : ReqTable ν) (sub : Nat) (ret : Int) : ReqTable ν :=
  if ret ≠ 0 then
    (t.modSub sub fun sr => { sr with state := .backendReturned }).note (.callFailed sub)
  else t

/-- `req_on_getshards`, up to `pool_fetch_connect`. -/
def issue (t : ReqTable ν) (r : Nat) (q : Req) (c : ShardCall ν Nat) : ReqTable ν :=
  let sub := t.nextSub
  let (links, list) := reqSubreqQueuePush (t.links.clear sub) q.subReqNotDone sub
  let sr : SubReq ν :=
    { backendReq := c.reqs, num := c.num, r := r, handle := none, state := .beforeRequestPool,
      poolWaitingNode := none }
  ({ (t.setSub sub (some sr)).setReq r (some { q with subReqNotDone := list }) with
    links := links
    nextSub := sub + 1 }).note (.issued r sub)

/-- `req_on_getshards`, when `pool_fetch_connect` has returned -1. -/
def fetchFailed (t : ReqTable ν) (r sub : Nat) : ReqTable ν :=
  ((t.modReq r fun q => { q with errNo := storeErrServiceUnavailable }).note
    (.fetchFailed r sub)).shardCountDown r

/-- `req_on_shard_done(r, .., sub)`, up to `pool_release_connect`. -/
def shardDoneBegin (t : ReqTable ν) (sub : Nat) (sr : SubReq ν) (q : Req) : ReqTable ν :=
  let (links, list) := reqSubreqQueueRm t.links q.subReqNotDone sub
  let t := (t.setSub sub (some { sr with state := .backendReturned })).setReq sr.r
    (some { q with subReqNotDone := list })
  ({ t with
    links := links
    stack := .shardDone sr.r sub :: t.stack }).note (.shardDone sub)

/-- The same call, when `pool_release_connect` has returned. -/
def shardDoneEnd (t : ReqTable ν) (r sub : Nat) : ReqTable ν := (t.setSub sub none).shardCountDown r

/-- `req_timeout`, up to the loop of `req_timeout_connect_cleanup`. -/
def reqTimeout (t : ReqTable ν) (r : Nat) : ReqTable ν :=
  { (t.modReq r fun q => { q with timeout := true, errNo := storeErrServiceTimeout }).note
      (.timeout r) with
    handler := .timeoutCleanup r }

/-- A pass of that loop, once `_req_subreq_queue_pop` has returned `sub`. -/
def pop (t : ReqTable ν) (r : Nat) (q : Req) (sub : Nat) : ReqTable ν :=
  let (_, links, list) := reqSubreqQueuePop t.links (some sub)
  ({ t.setReq r (some { q with subReqNotDone := list }) with links := links }).note (.popped r sub)

/-- The same pass, when `backend_timeout` has returned. -/
def timeoutReturned (t : ReqTable ν) (r : Nat) : ReqTable ν :=
  { t.modReq r fun q => { q with shardCount := q.shardCount - 1 } with
    handler := .timeoutCleanup r }

/-- `req_ready`: the request is made, and its timer started. -/
def reqCreate (t : ReqTable ν) : ReqTable ν :=
  ({ t.setReq t.nextReq (some
      { shardCount := 0, subReqNotDone := none, timeout := false, reqDoneCalled := false,
        errNo := 0, timeoutEvent := true }) with
    nextReq := t.nextReq + 1 }).note (.ready t.nextReq)

/-- `req_ready`, up to the loop of `router_acquire_shards`. -/
def reqReady (t : ReqTable ν) (g : Router Nat) (m : Int → BackendReq ν) (keyNum : Nat)
    (isRead : Bool) : ReqTable ν :=
  { t.reqCreate.modReq t.nextReq fun q => { q with shardCount := keyNum } with
    handler := .acquireShards t.nextReq
      (shardEvents g (sortShards g m keyNum) isRead keyNum ShardLoop.init) }

/-- `req_ready` of a request that `req_process` turns down with `errNo`. -/
def reqReject (t : ReqTable ν) (errNo : Int) : ReqTable ν :=
  (t.reqCreate.modReq t.nextReq fun q => { q with errNo := errNo }).reqFail t.nextReq

end ReqTable

end RedisAgent
