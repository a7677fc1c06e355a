/-
  RedisAgent.Req.Events — what happens to requests and sub-requests.

  The history of a run, and over it the abstract model of req.cpp: the life of a
  request is `ready`, then perhaps `timeout`, then `done`; the life of a
  sub-request is in the table of `subNext`.  Nothing here looks at the code.
-/
import RedisAgent.Lib.Lives
import RedisAgent.Pool.Server

namespace RedisAgent

/-- A connection of some server of some pool. -/
structure ConnRef where
  pool : Nat
  server : Nat
  handle : Handle
  deriving Repr, DecidableEq

/-- A `waiting_queue_t` of some server of some pool. -/
structure WaitNode where
  pool : Nat
  server : Nat
  wq : Nat
  deriving Repr, DecidableEq

/-- One thing that happened.  `r` is a request, `sub` a sub-request. -/
inductive Event
  /-- `req_ready(r)` -/
  | ready (r : Nat)
  /-- `req_timeout(r)` -/
  | timeout (r : Nat)
  /-- the body of `req_done(r)`, with `r->err_no` at the time -/
  | done (r : Nat) (errNo : Int)
  /-- `req_on_getshards` made the sub-request and put it on the list of `r` -/
  | issued (r sub : Nat)
  /-- its `pool_fetch_connect` returned -1 -/
  | fetchFailed (r sub : Nat)
  /-- `req_on_acquired(handle, sub)` -/
  | acquired (sub : Nat) (handle : Option ConnRef)
  /-- its `backend_call` returned non-zero -/
  | callFailed (sub : Nat)
  /-- `req_on_shard_done(r, .., sub)` -/
  | shardDone (sub : Nat)
  /-- that call's `pool_release_connect(c, ..)` -/
  | released (sub : Nat) (c : ConnRef)
  /-- the clean-up loop of `r` took the sub-request off the list -/
  | popped (r sub : Nat)
  /-- and took it, still waiting, out of the waiting queue -/
  | removed (sub : Nat)
  /-- `pool_waiting_node` was dereferenced while it is null or freed -/
  | absentNode (sub : Nat)
  deriving Repr, DecidableEq

/-! ## §1. Requests. -/

inductive ReqFate
  | unborn
  | running
  /-- its time is over -/
  | late
  /-- `req_done` has run; `late` if its time was over -/
  | answered (late : Bool)
  deriving Repr, DecidableEq

def reqNext : ReqFate → Event → Option ReqFate
  | .unborn, .ready _ => some .running
  | .running, .timeout _ => some .late
  | .running, .done _ _ => some (.answered false)
  | .late, .done _ _ => some (.answered true)
  | _, _ => none

/-- The life of requests. -/
def reqLife : LifeRule Nat ReqFate Event where
  start := .unborn
  about
    | .ready r | .timeout r | .done r _ => some r
    | _ => none
  next := reqNext

/-! ## §2. Sub-requests. -/

inductive Fate
  /-- on the list; the pool has not answered -/
  | waiting
  /-- no connection could be fetched -/
  | failed
  /-- `req_on_acquired` was called -/
  | held (handle : Option ConnRef)
  /-- and then `backend_call` returned non-zero -/
  | refused (handle : Option ConnRef)
  /-- `req_on_shard_done` was called -/
  | answered (handle : Option ConnRef)
  /-- and then the connection was released -/
  | finished (c : ConnRef)
  /-- out of the waiting queue, after the time was over -/
  | removed
  deriving Repr, DecidableEq

/-- The table.  A sub-request that was issued has its request with it. -/
def subNext : Option (Nat × Fate) → Event → Option (Option (Nat × Fate))
  | none, .issued r _ => some (some (r, .waiting))
  | some (r, .waiting), .fetchFailed r' _ => if r' = r then some (some (r, .failed)) else none
  | some (r, .waiting), .acquired _ handle => some (some (r, .held handle))
  | some (r, .waiting), .removed _ => some (some (r, .removed))
  | some (r, .held handle), .callFailed _ => some (some (r, .refused handle))
  | some (r, .held handle), .shardDone _ => some (some (r, .answered handle))
  | some (r, .answered handle), .released _ c =>
      if handle = some c then some (some (r, .finished c)) else none
  | _, _ => none

/-- The life of sub-requests. -/
def subLife : LifeRule Nat (Option (Nat × Fate)) Event where
  start := none
  about
    | .issued _ sub | .fetchFailed _ sub | .acquired sub _ | .callFailed sub | .shardDone sub
    | .released sub _ | .removed sub => some sub
    | _ => none
  next := subNext

/-- The pool owes it a connection, or the plugin a callback. -/
def Fate.Pending : Fate → Prop
  | .waiting | .held _ => True
  | _ => False

/-- `req_on_shard_done` has not been called for it. -/
def Fate.Counted : Fate → Prop
  | .waiting | .held _ | .refused _ => True
  | _ => False

/-- It belongs on the list of its request. -/
def Fate.Listed : Fate → Prop
  | .waiting | .failed | .held _ | .refused _ => True
  | _ => False

/-- `req_on_shard_done` has been called for it. -/
def Fate.Complete : Fate → Prop
  | .failed | .finished _ => True
  | _ => False

instance (f : Fate) : Decidable f.Pending := by cases f <;> unfold Fate.Pending <;> infer_instance
instance (f : Fate) : Decidable f.Counted := by cases f <;> unfold Fate.Counted <;> infer_instance

end RedisAgent
