/-
  RedisAgent.Event.Loop — `event_trigger`, `custom_event_cb` and the loop between them.

  A thread that triggers an event links a pair into the list and then makes
  `custom_event` active; the thread of `event_loop` runs `custom_event_cb` when the
  event is active, which takes pairs off until `list_consume` returns -1 and calls what
  `event_listen` registered for the key.  The threads take turns statement by
  statement, as in Event.Queue: `EventLoop.exec` runs one.

  libevent keeps one flag for the event: `event_active` on an active event changes
  nothing, and the flag is cleared before the callback runs, not after it.  Nothing calls
  `evthread_use_pthreads`, so libevent neither locks nor wakes its loop: `event_active` while
  the loop is in `epoll_wait` sets the flag, and the loop looks at it when a timer or a descriptor
  ends the wait.  The step `activate` is `event_active` undisturbed; threads that meet
  inside libevent's list of active events are not modelled.
-/
import RedisAgent.Event.Queue
import RedisAgent.Router.Hash

namespace RedisAgent

/-- Where the thread of `event_loop` is. -/
inductive LoopAt
  /-- in libevent, between two callbacks -/
  | dispatch
  /-- in `epoll_wait` -/
  | asleep
  /-- in `custom_event_cb`, in front of a statement of `list_consume` -/
  | consume
  /-- in `custom_event_cb`, after a `list_consume` that returned 0 -/
  | lookup
  deriving Repr, DecidableEq

/-- The list, `custom_event`, `custom_event_map` and the loop.  `activating` are the
threads between the return of `list_produce` and `event_active`, each with its pair.  The
last two fields are what happened so far: the pairs whose `event_trigger` has
returned 0, and those `custom_event_cb` is done with, each with the callback it called
(`none` where the map had none). -/
structure EventLoop (Cb : Type) where
  list : TsList
  map : UInt64 → Option Cb
  active : Bool
  activating : List (Nat × ListPair)
  loop : LoopAt
  triggered : List ListPair
  handled : List (ListPair × Option Cb)

/-- Who runs next. -/
inductive EventOp (Cb : Type)
  /-- `event_listen(event, cb)` -/
  | listen (event : List UInt8) (cb : Cb)
  /-- thread `p` calls `event_trigger(event, param)`, and `malloc` returns `new` -/
  | trigger (p : Nat) (event : List UInt8) (param : Nat) (new : Option (Nat × TsListNode))
  /-- thread `p` runs a statement of `list_produce` -/
  | produce (p : Nat)
  /-- `event_active(custom_event, EV_READ, 0); return 0;` in thread `p` -/
  | activate (p : Nat) (pair : ListPair)
  /-- libevent takes `custom_event` off its active queue and calls `custom_event_cb` -/
  | dispatch
  /-- nothing is active, and libevent calls `epoll_wait` -/
  | sleep
  /-- a timer is due or a descriptor is ready -/
  | wake
  /-- a statement of `list_consume` -/
  | consume
  /-- `if (custom_event_map.get(key, &cb) == bsl::HASH_EXIST) cb(value);` -/
  | call

namespace EventLoop

variable {Cb : Type}

/-- A statement of `list_produce`; `unlock` is followed by the return. -/
def produce (s : EventLoop Cb) (p : Nat) : Option (EventLoop Cb) :=
  match s.list.producers p with
  | none => none
  | some c => (s.list.exec (.produce p)).map (fun list =>
      if c.stmt = .unlock then
        { s with list := list, activating := (p, (c.key, c.data)) :: s.activating }
      else { s with list := list })

/-- `ts_list.head->is_placeholder` -/
def emptyHead (s : EventLoop Cb) : Bool :=
  match s.list.head.bind s.list.nodes with
  | none => false
  | some n => n.isPlaceholder

/-- Where the loop is after a statement of `list_consume`: on a placeholder it returns -1,
which ends the `while` loop and `custom_event_cb`; its last statement is `return 0`. -/
def afterConsume (s : EventLoop Cb) : LoopAt :=
  match s.list.consumer.stmt with
  | .check => if s.emptyHead then .dispatch else .consume
  | .ret => .lookup
  | _ => .consume

/-- A statement of `list_consume`. -/
def consume (s : EventLoop Cb) : Option (EventLoop Cb) :=
  (s.list.exec .consume).map (fun list => { s with list := list, loop := s.afterConsume })

/-- The pair in `key` and `value`. -/
def current (s : EventLoop Cb) : ListPair := (s.list.consumer.key, s.list.consumer.data)

/-- One step. -/
def exec (s : EventLoop Cb) : EventOp Cb → Option (EventLoop Cb)
  | .listen event cb => some { s with map := Function.update s.map (strhash event) (some cb) }
  | .trigger p event param new =>
      (s.list.exec (.start p (strhash event) param new)).map (fun list => { s with list := list })
  | .produce p => s.produce p
  | .activate p pair =>
      some { s with
        active := true
        activating := s.activating.erase (p, pair)
        triggered := s.triggered ++ [pair] }
  | .dispatch => some { s with active := false, loop := .consume }
  | .sleep => some { s with loop := .asleep }
  | .wake => some { s with loop := .dispatch }
  | .consume => s.consume
  | .call =>
      some { s with
        handled := s.handled ++ [(s.current, s.map s.current.1)]
        loop := .consume }

/-- When a step may come. -/
def Enabled (s : EventLoop Cb) : EventOp Cb → Prop
  | .listen _ _ => True
  | .trigger p event param new =>
      s.list.Enabled (.start p (strhash event) param new) ∧ ∀ x ∈ s.activating, x.1 ≠ p
  | .produce p => s.list.Enabled (.produce p)
  | .activate p pair => (p, pair) ∈ s.activating
  | .dispatch => s.loop = .dispatch ∧ s.active = true
  | .sleep => s.loop = .dispatch ∧ s.active = false
  | .wake => s.loop = .asleep
  | .consume => s.loop = .consume
  | .call => s.loop = .lookup

/-- `event_init`, before anybody listens or triggers. -/
structure Initial (s : EventLoop Cb) : Prop where
  list : ∃ a, s.list.Initial a
  map : s.map = fun _ => none
  active : s.active = false
  activating : s.activating = []
  loop : s.loop = .dispatch
  triggered : s.triggered = []
  handled : s.handled = []

/-- The loop's thread is in libevent. -/
def Outside (s : EventLoop Cb) : Prop := s.loop = .dispatch ∨ s.loop = .asleep

/-- The next step of the loop's own thread; `none` while it is in `epoll_wait`. -/
def next (s : EventLoop Cb) : Option (EventOp Cb) :=
  match s.loop with
  | .dispatch => if s.active then some .dispatch else some .sleep
  | .asleep => none
  | .consume => some .consume
  | .lookup => some .call

/-- The loop's thread runs on its own for `n` steps. -/
def runLoop (s : EventLoop Cb) : Nat → Option (EventLoop Cb)
  | 0 => some s
  | n + 1 => s.next.bind (fun op => (s.exec op).bind (fun s' => s'.runLoop n))

/-- No thread is inside `event_trigger`. -/
structure NoTrigger (s : EventLoop Cb) : Prop where
  producers : s.list.producers = fun _ => none
  activating : s.activating = []

end EventLoop

/-- Every interleaving. -/
def eventLts (Cb : Type) : Lts (EventLoop Cb) (EventOp Cb) where
  init := EventLoop.Initial
  step s op s' := s.Enabled op ∧ s.exec op = some s'

end RedisAgent
