/-
  RedisAgent.Whitelist.Threads — the checking thread, the event list and the main thread.

  Whitelist.Live takes `event_trigger` and the delivery of an event as one step each.  Here
  they are what event.cpp makes of them, statement by statement: the thread of
  `whitelist_loop` is thread 0 of Event.Loop, other threads trigger other events between
  its statements, and `whitelist_changed_event` runs when `custom_event_cb` calls it.

  `WlThreads.abs` reads the state of Whitelist.Live off: its events are those that
  thread 0 has begun to trigger and whose callback has not begun.  A check that reads a
  whitelist that was released has no result.
-/
import RedisAgent.Event.Wakeup
import RedisAgent.Whitelist.Live

namespace RedisAgent

/-- What is registered with `event_listen`. -/
inductive WlCallback
  | whitelistChanged
  | other (n : Nat)
  deriving Repr, DecidableEq

/-- `"whitelist_changed"` -/
def whitelistChanged : List UInt8 :=
  [119, 104, 105, 116, 101, 108, 105, 115, 116, 95, 99, 104, 97, 110, 103, 101, 100]

/-- Its key. -/
def whitelistKey : UInt64 := strhash whitelistChanged

/-- A `whitelist_t *` as the `void *` of an event. -/
def wlPointer : Option Nat → Nat
  | none => 0
  | some w => w + 1

/-- And back. -/
def wlObject : Nat → Option Nat
  | 0 => none
  | w + 1 => some w

@[simp] theorem wlObject_wlPointer (w : Option Nat) : wlObject (wlPointer w) = w := by
  cases w with
  | none => rfl
  | some w => rfl

/-- The events `"whitelist_changed"` among these. -/
def queuedOf (pairs : List ListPair) : List (Option Nat) :=
  (pairs.filter (fun x => x.1 = whitelistKey)).map (fun x => wlObject x.2)

/-- The process.  The list of events of `wl` is not used: the events are in `loop`. -/
structure WlThreads where
  wl : WlState
  loop : EventLoop WlCallback

inductive WlThreadsOp
  /-- `load_whitelist()` in `server_init` -/
  | initLoad (f : WhitelistFile)
  /-- `assign_whitelist` of its result -/
  | initAssign
  /-- `event_listen("whitelist_changed", whitelist_changed_event)` -/
  | listen
  /-- a pass of `whitelist_loop`, as far as `event_trigger` -/
  | check (mtime : Int) (f : WhitelistFile)
  /-- `event_trigger("whitelist_changed", w)` is called, and `malloc` returns `new` -/
  | trigger (new : Option (Nat × TsListNode))
  /-- a statement of the event loop, or of a thread in `event_trigger` -/
  | event (op : EventOp WlCallback)

namespace WlThreads

/-- The thread of `whitelist_loop` is not inside `event_trigger`. -/
def CheckerFree (s : WlThreads) : Prop :=
  s.loop.list.producers 0 = none ∧ ∀ x ∈ s.loop.activating, x.1 ≠ 0

/-- What the callbacks that an event step calls do to the whitelists. -/
def callback (s : WlThreads) : EventOp WlCallback → WlState
  | .call =>
      if s.loop.map s.loop.current.1 = some .whitelistChanged then
        -- `whitelist_changed_event(value)`
        assignWhitelist s.wl (wlObject s.loop.current.2)
      else s.wl
  | _ => s.wl

/-- One step. -/
def exec (s : WlThreads) : WlThreadsOp → Option WlThreads
  | .initLoad f => some { s with wl := s.wl.exec (.initLoad f) }
  | .initAssign => some { s with wl := s.wl.exec .initAssign }
  | .listen =>
      (s.loop.exec (.listen whitelistChanged .whitelistChanged)).map (fun l => { s with loop := l })
  | .check mtime f =>
      if isWhitelistChanged s.wl mtime = none then none
      else some { s with wl := s.wl.exec (.check mtime f) }
  | .trigger new =>
      match s.wl.loop with
      | .loaded w =>
          (s.loop.exec (.trigger 0 whitelistChanged (wlPointer w) new)).map
            (fun l => ⟨{ s.wl with loop := .checking }, l⟩)
      | .checking => some s
  | .event op => (s.loop.exec op).map (fun l => ⟨s.callback op, l⟩)

/-- What the rest of the process does with events: other threads trigger, and listen for,
events with other keys, and `event_loop` starts after `server_init`. -/
def Foreign (s : WlThreads) : EventOp WlCallback → Prop
  | .listen event cb => strhash event ≠ whitelistKey ∧ cb ≠ .whitelistChanged
  | .trigger p event _ _ => p ≠ 0 ∧ strhash event ≠ whitelistKey
  | .dispatch | .sleep => s.loop.map whitelistKey = some .whitelistChanged
  | _ => True

/-- When a step may come. -/
def Enabled (s : WlThreads) : WlThreadsOp → Prop
  | .initLoad f => s.wl.Enabled (.initLoad f)
  | .initAssign => s.wl.Enabled .initAssign
  | .listen => s.wl.main = .running
  | .check _ _ => s.wl.loop = .checking ∧ s.CheckerFree
  | .trigger new => ∃ w, s.wl.loop = .loaded w
      ∧ s.loop.Enabled (.trigger 0 whitelistChanged (wlPointer w) new)
  | .event op => s.loop.Enabled op ∧ s.Foreign op

/-- The pair that thread 0 has brought to `list_produce`, and not into the list yet. -/
def waiting (s : WlThreads) : List ListPair :=
  match s.loop.list.producers 0 with
  | some c => if c.stmt = .lock then [(c.key, c.data)] else []
  | none => []

/-- The events of Whitelist.Live. -/
def queued (s : WlThreads) : List (Option Nat) :=
  queuedOf (s.loop.list.produced.drop s.loop.handled.length ++ s.waiting)

/-- **The state of Whitelist.Live.** -/
def abs (s : WlThreads) : WlState := { s.wl with events := s.queued }

/-- Nothing is going on: the checking thread is between two passes, and the loop
sleeps with `custom_event` inactive, so it has been awake since the last event was triggered. -/
structure Quiet (s : WlThreads) : Prop where
  main : s.wl.main = .running
  checker : s.wl.loop = .checking ∧ s.CheckerFree
  asleep : s.loop.loop = .asleep
  inactive : s.loop.active = false

end WlThreads

/-- The step of Whitelist.Live that a step is, if it is one. -/
def WlThreadsOp.toWl : WlThreadsOp → Option WlOp
  | .initLoad f => some (.initLoad f)
  | .initAssign => some .initAssign
  | .check mtime f => some (.check mtime f)
  | .trigger new => some (.trigger new.isSome)
  | .event .call => some .deliver
  | .listen | .event _ => none

/-- Every interleaving. -/
def wlThreadsLts : Lts WlThreads WlThreadsOp where
  init s := s.wl = WlState.start ∧ s.loop.Initial
  step s op s' := s.Enabled op ∧ s.exec op = some s'

end RedisAgent
