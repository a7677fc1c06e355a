/-
  RedisAgent.Slb.Status — what the load balancer records about each server.

  util/Queue.h, and the classes `ConnectStatus` and `HealthyStatus` of
  filter/ConnectFilter.cpp and filter/HealthyFilter.cpp.  A `double` is a `Float` and a
  `uint` a `UInt32`.  The mutexes are those that `getMutex` made, so the checks for a
  missing one are left out.

  `time(NULL)` is the parameter `tm` here.

  Main results:
    • `HealthyStatus.getSelectRate_timing` — asking for a rate records nothing.
-/
import RedisAgent.Lib.Ensures

namespace RedisAgent

/-! ## §1. `Queue<T>`. -/

/-- `Queue<T>`: a ring of `node_t`s, each a value and whether it is valid. -/
structure SlbQueue (α : Type) where
  value : Nat → α
  valid : Nat → Bool
  queueSize : Nat
  nextPos : Nat

variable {α : Type}

/-- A queue as its constructor leaves it. -/
def SlbQueue.create (zero : α) (queueSize : Nat) : SlbQueue α :=
  ⟨fun _ => zero, fun _ => false, queueSize, 0⟩

/-- `insert(value, &old)`; `none` where it returns `false` and leaves `old` alone. -/
def SlbQueue.insert (q : SlbQueue α) (value : α) : Option α × SlbQueue α :=
  (if q.valid q.nextPos then some (q.value q.nextPos) else none,
    { q with
      value := Function.update q.value q.nextPos value
      valid := Function.update q.valid q.nextPos true
      nextPos := (q.nextPos + 1) % q.queueSize })

/-- `getLast(index, &value)`; `none` where it returns `false`. -/
def SlbQueue.getLast (q : SlbQueue α) (index : Nat) : Option α :=
  let lastPos := (((q.nextPos : Int) - 1 - index) % q.queueSize).toNat
  if q.valid lastPos then some (q.value lastPos) else none

/-! ## §2. `ConnectStatus`. -/

/-- `ConnectStatus`: the last connection attempts, 0 for success and 1 for failure, and
how many of them failed. -/
structure ConnectStatus where
  failedCount : Int
  queue : SlbQueue Int

/-- `ConnectStatus(queueSize, resource)` -/
def ConnectStatus.create (queueSize : Nat) : ConnectStatus := ⟨0, SlbQueue.create 0 queueSize⟩

/-- `ConnectStatus::insert` -/
def ConnectStatus.insert (s : ConnectStatus) (status : Int) : ConnectStatus :=
  let (last, queue) := s.queue.insert status
  let failedCount := if last.getD 0 ≠ 0 then s.failedCount - 1 else s.failedCount
  { failedCount := if status ≠ 0 then failedCount + 1 else failedCount, queue := queue }

/-! ## §3. `HealthyStatus`. -/

/-- `HealthyStatus` -/
structure HealthyStatus where
  currentSecondTotalTime : UInt32
  currentSecondrequestCount : UInt32
  timeQueue : SlbQueue UInt32
  countQueue : SlbQueue UInt32
  totalTime : UInt32
  totalCount : UInt32
  currentTime : UInt32
  lastCheckTime : Int
  lastSelectRate : Float

/-- `HealthyStatus(timeWindow, resource)` -/
def HealthyStatus.create (timeWindow : Nat) : HealthyStatus where
  currentSecondTotalTime := 0
  currentSecondrequestCount := 0
  timeQueue := SlbQueue.create 0 timeWindow
  countQueue := SlbQueue.create 0 timeWindow
  totalTime := 0
  totalCount := 0
  currentTime := 0
  lastCheckTime := 0
  lastSelectRate := 0

/-- `getTotalAvgTime` -/
def HealthyStatus.getTotalAvgTime (s : HealthyStatus) : Float :=
  if s.totalCount = 0 then 0 else 1.0 * s.totalTime.toFloat / s.totalCount.toFloat

/-- `_getRecentAvgTime` -/
def HealthyStatus.getRecentAvgTime (s : HealthyStatus) (checkTime : Int) (timeout : UInt32) :
    Float :=
  let (totalTime, totalCount) :=
    (List.range (min checkTime.toNat s.timeQueue.queueSize)).foldl
      (fun (t : UInt32 × UInt32) i =>
        match s.timeQueue.getLast i, s.countQueue.getLast i with
        | some time, some count => (t.1 + time, t.2 + count)
        | _, _ => t)
      (0, 0)
  if totalCount ≠ 0 then 1.0 * totalTime.toFloat / totalCount.toFloat else timeout.toFloat

/-- `getSelectRate`: the rate, and the status with the rate kept for `checkTime`
seconds. -/
def HealthyStatus.getSelectRate (s : HealthyStatus) (timeout : UInt32) (checkTime : Int)
    (minRate : Float) (tm : Int) : Float × HealthyStatus :=
  if s.lastCheckTime + checkTime ≤ tm then
    let totalAvg := s.getTotalAvgTime
    let recentAvg := s.getRecentAvgTime checkTime timeout
    let rate :=
      if totalAvg < 1e-6 ∨ recentAvg < 1e-6 then 1.0
      else if timeout.toFloat ≤ totalAvg then 0
      else 1.0 * (timeout.toFloat - recentAvg) / (timeout.toFloat - totalAvg)
    let rate := if rate < minRate then minRate else if 1 < rate then 1 else rate
    (rate, { s with lastSelectRate := rate, lastCheckTime := tm })
  else (if minRate ≤ s.lastSelectRate then s.lastSelectRate else minRate, s)

/-- `HealthyStatus::add` -/
def HealthyStatus.add (s : HealthyStatus) (proctime currentTime : UInt32) : HealthyStatus :=
  let s :=
    if currentTime ≠ s.currentTime then
      let (oldTime, timeQueue) := s.timeQueue.insert s.currentSecondTotalTime
      let (oldCount, countQueue) := s.countQueue.insert s.currentSecondrequestCount
      let (totalTime, totalCount) :=
        match oldTime, oldCount with
        | some oldTime, some oldCount => (s.totalTime - oldTime, s.totalCount - oldCount)
        | _, _ => (s.totalTime, s.totalCount)
      { s with
        timeQueue := timeQueue
        countQueue := countQueue
        totalTime := totalTime + s.currentSecondTotalTime
        totalCount := totalCount + s.currentSecondrequestCount
        currentSecondTotalTime := 0
        currentSecondrequestCount := 0
        currentTime := currentTime }
    else s
  { s with
    currentSecondTotalTime := s.currentSecondTotalTime + proctime
    currentSecondrequestCount := s.currentSecondrequestCount + 1 }

/-! ## §4. What is recorded, and what is computed from it. -/

/-- The records alone, without the rate that was last computed from them. -/
def HealthyStatus.timing (s : HealthyStatus) : HealthyStatus :=
  { s with lastCheckTime := 0, lastSelectRate := 0 }

/-- Asking for a rate records nothing. -/
theorem HealthyStatus.getSelectRate_timing (s : HealthyStatus) (timeout : UInt32) (checkTime : Int)
    (minRate : Float) (tm : Int) :
    (s.getSelectRate timeout checkTime minRate tm).2.timing = s.timing := by
  unfold HealthyStatus.getSelectRate
  split <;> rfl

/-- What is recorded next depends on the records only. -/
theorem HealthyStatus.add_timing (s : HealthyStatus) (proctime currentTime : UInt32) :
    (s.add proctime currentTime).timing = s.timing.add proctime currentTime := by
  unfold HealthyStatus.add
  by_cases h : currentTime ≠ s.currentTime
  · rw [if_pos h, if_pos (show currentTime ≠ s.timing.currentTime from h)]
    rfl
  · rw [if_neg h, if_neg (show ¬ currentTime ≠ s.timing.currentTime from h)]
    rfl

end RedisAgent
