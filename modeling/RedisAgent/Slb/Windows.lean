/-
  RedisAgent.Slb.Windows — the statistics are those of the last reports.

  `ConnectStatus` counts the failures among the last `queueSize` connection reports, and
  `HealthyStatus` sums up the last `queueSize` completed buckets, a bucket being the
  requests reported in one second.  Both are kept up to date from what their rings evict.

  The totals are 32-bit words: `windowTime` and `windowCount` are the integers they stand
  for.  A report's second is the word that `HealthyStatus::add` receives.

  Main results:
    • `failedCount_window` — the failed count, after any sequence of calls;
    • `totals_exact_iff` — the totals are the true ones exactly where those fit in a word.
-/
import RedisAgent.Lib.Sliding
import RedisAgent.Pool.Scores

namespace RedisAgent

variable {α : Type} {σ : Type*}

/-! ## §1. `Queue<T>`. -/

/-- The queue after the entries of `l` were inserted in turn. -/
structure SlbQueue.Holds (n : Nat) (l : List α) (q : SlbQueue α) : Prop where
  queueSize : q.queueSize = n
  nextPos : q.nextPos = l.length % n
  cells : RingHolds n q.value q.valid l

variable {n : Nat} {l : List α} {q : SlbQueue α}

theorem SlbQueue.create_holds (zero : α) (n : Nat) : (SlbQueue.create zero n).Holds n [] :=
  ⟨rfl, (Nat.zero_mod n).symm, RingHolds.nil _⟩

/-- `insert` gives back what leaves the window. -/
theorem SlbQueue.Holds.insert_fst (h : q.Holds n l) (hn : 0 < n) (x : α) :
    (q.insert x).1 = evicted n l := by
  rw [← h.cells.next hn, ← h.nextPos]
  rfl

theorem SlbQueue.Holds.insert_snd (h : q.Holds n l) (x : α) : (q.insert x).2.Holds n (l ++ [x]) := by
  constructor
  · exact h.queueSize
  · show (q.nextPos + 1) % q.queueSize = (l ++ [x]).length % n
    rw [h.nextPos, h.queueSize, Nat.mod_add_mod, List.length_append, List.length_singleton]
  · show RingHolds n (Function.update q.value q.nextPos x) (Function.update q.valid q.nextPos true)
      (l ++ [x])
    rw [h.nextPos]
    exact h.cells.write x

/-! ## §2. `ConnectStatus`. -/

/-- 1 for a failure, and 0 for a success. -/
def failure (status : Int) : Int := if status ≠ 0 then 1 else 0

/-- What `ConnectStatus` is after the entries of `l` were inserted in turn. -/
structure ConnectStatus.Counts (n : Nat) (l : List Int) (s : ConnectStatus) : Prop where
  queue : s.queue.Holds n l
  failedCount : s.failedCount = ((l.rtake n).map failure).sum

theorem ConnectStatus.create_counts (n : Nat) : (ConnectStatus.create n).Counts n [] :=
  ⟨SlbQueue.create_holds 0 n, by rw [List.rtake_nil]; rfl⟩

theorem ConnectStatus.insert_failedCount (s : ConnectStatus) (status : Int) :
    (s.insert status).failedCount
      = s.failedCount - failure ((s.queue.insert status).1.getD 0) + failure status := by
  show (if status ≠ 0 then
      (if (s.queue.insert status).1.getD 0 ≠ 0 then s.failedCount - 1 else s.failedCount) + 1
    else (if (s.queue.insert status).1.getD 0 ≠ 0 then s.failedCount - 1 else s.failedCount))
      = _
  unfold failure
  split <;> split <;> omega

/-- **One report**: the count follows the window. -/
theorem ConnectStatus.Counts.insert {l : List Int} {s : ConnectStatus} (h : s.Counts n l)
    (hn : 0 < n) (status : Int) : (s.insert status).Counts n (l ++ [status]) := by
  obtain ⟨m, rfl⟩ := Nat.exists_eq_add_of_lt hn
  rw [Nat.zero_add] at h ⊢
  refine ⟨h.queue.insert_snd status, ?_⟩
  have hsum := sum_rtake_concat failure m l status
  have hold : ((evicted (m + 1) l).map failure).getD 0 = failure ((evicted (m + 1) l).getD 0) := by
    cases evicted (m + 1) l <;> rfl
  rw [hold] at hsum
  rw [s.insert_failedCount, h.queue.insert_fst (Nat.succ_pos m), h.failedCount]
  omega

theorem sum_failure (l : List Int) : (l.map failure).sum = (l.countP (fun s => s ≠ 0) : Nat) := by
  induction l with
  | nil => rfl
  | cons s l ih =>
      rw [List.map_cons, List.sum_cons, ih]
      unfold failure
      by_cases hs : s ≠ 0
      · rw [if_pos hs, List.countP_cons_of_pos (by rw [decide_eq_true_eq]; exact hs)]
        omega
      · rw [if_neg hs, List.countP_cons_of_neg (by rw [decide_eq_true_eq]; exact hs)]
        omega

/-! ## §3. The reports on one connection after another. -/

/-- What a call reports about the connections of the server `i`. -/
def connReport (i : Nat) (c : Nat × Call σ) : Option Int :=
  match c.2 with
  | .argAfterConn ret => if c.1 = i then some ret else none
  | _ => none

/-- The arguments of the calls `setServerArgAfterConn(server, ..)` for the server `i`. -/
def connReports (i : Nat) (calls : Calls σ) : List Int := calls.filterMap (connReport i)

/-- What `updateConnectStatus` inserts. -/
def connStatus (errNo : Int) : Int := if errNo ≠ 0 then 1 else 0

theorem countP_connStatus (l : List Int) :
    (l.map connStatus).countP (fun s => s ≠ 0) = l.countP (fun ret => ret ≠ 0) := by
  rw [List.countP_map]
  apply List.countP_congr
  intro ret _
  show decide (connStatus ret ≠ 0) = true ↔ decide (ret ≠ 0) = true
  unfold connStatus
  by_cases hret : ret = 0
  · simp [hret]
  · simp [hret]

/-- One call, as the status of the server `i` sees it. -/
theorem connectOf_call (n : Nat) (r : Recorder) (c : Nat × Call σ) (i : Nat) :
    connectOf n (r.call c).log i
      = (match connReport i c with
        | some ret => (connectOf n r.log i).insert (connStatus ret)
        | none => connectOf n r.log i) := by
  obtain ⟨k, c⟩ := c
  cases c with
  | argAfterConn ret =>
      show connectOf n (r.log ++ [(k, .conn ret)]) i = _
      rw [connectOf_conn]
      unfold connReport connStatus
      by_cases hk : k = i
      · rw [if_pos hk]
        simp only [hk, if_true]
      · rw [if_neg hk]
        simp only [hk, if_false]
  | serverArg timecost => exact connectOf_talk _ _ _ _ _
  | createCb _ => rfl
  | destroyCb _ => rfl
  | callback _ _ => rfl
  | serverDestroyed => rfl
  | poolDestroyed => rfl

/-- **Every sequence of calls**: the status stands for the reports so far. -/
theorem connectOf_counts (hn : 0 < n) (i : Nat) (calls : Calls σ) :
    ∀ (r : Recorder) (l : List Int), (connectOf n r.log i).Counts n (l.map connStatus) →
      (connectOf n (calls.foldl Recorder.call r).log i).Counts n
        ((l ++ connReports i calls).map connStatus) := by
  induction calls with
  | nil =>
      intro r l h
      rw [connReports, List.filterMap_nil, List.append_nil]
      exact h
  | cons c calls ih =>
      intro r l h
      have hcall := connectOf_call n r c i
      cases hrep : connReport i c with
      | none =>
          rw [hrep] at hcall
          have hrest : connReports i (c :: calls) = connReports i calls :=
            List.filterMap_cons_none hrep
          rw [hrest]
          exact ih (r.call c) l (hcall ▸ h)
      | some ret =>
          rw [hrep] at hcall
          have hrest : l ++ connReports i (c :: calls) = (l ++ [ret]) ++ connReports i calls := by
            rw [connReports, List.filterMap_cons_some hrep, List.append_assoc]
            rfl
          rw [hrest]
          refine ih (r.call c) (l ++ [ret]) ?_
          rw [List.map_append, hcall]
          exact h.insert hn (connStatus ret)

/-- A recorder at the start: its filters are loaded, and nothing is recorded. -/
structure Recorder.Fresh (connectQueueSize healthyQueueSize : Nat) (r : Recorder) : Prop where
  strategy : r.slb.strategy.Fresh connectQueueSize healthyQueueSize
  log : r.log = []

theorem Recorder.Fresh.kept {m : Nat} {r : Recorder} (h : r.Fresh n m) : r.Kept n m := by
  constructor
  · intro _ i _
    rw [h.log]
    exact h.strategy.connect i
  · intro _ i _
    rw [h.log, h.strategy.healthy i]
    rfl

theorem Recorder.calls_connect_loadSucc (calls : Calls σ) : ∀ r : Recorder,
    (calls.foldl Recorder.call r).slb.strategy.connect.loadSucc
      = r.slb.strategy.connect.loadSucc := by
  induction calls with
  | nil => exact fun r => rfl
  | cons c calls ih =>
      intro r
      refine (ih (r.call c)).trans ?_
      obtain ⟨k, c⟩ := c
      cases c with
      | argAfterConn ret => exact (r.slb.strategy.updateConnectStatus_healthy k ret).2
      | serverArg timecost =>
          show (r.slb.strategy.updateRequestStatus k timecost (r.slb.times 0)).connect.loadSucc = _
          rw [(r.slb.strategy.updateRequestStatus_connect k timecost (r.slb.times 0)).1]
      | createCb _ => rfl
      | destroyCb _ => rfl
      | callback _ _ => rfl
      | serverDestroyed => rfl
      | poolDestroyed => rfl

/-- The count of a window of reports. -/
theorem ConnectStatus.Counts.failures {l : List Int} {s : ConnectStatus}
    (h : s.Counts n (l.map connStatus)) :
    s.failedCount = ((l.rtake n).countP (fun ret => ret ≠ 0) : Nat)
      ∧ 0 ≤ s.failedCount ∧ s.failedCount ≤ n := by
  have hwindow : (l.map connStatus).rtake n = (l.rtake n).map connStatus := by
    unfold List.rtake
    rw [List.length_map, List.map_drop]
  have hcount := h.failedCount
  rw [hwindow, sum_failure, countP_connStatus] at hcount
  have hle := (List.countP_le_length (p := fun ret : Int => decide (ret ≠ 0))
    (l := l.rtake n)).trans (length_rtake_le n l)
  rw [hcount]
  exact ⟨rfl, by omega, by omega⟩

/-- **The failed count** is the number of failures among the last `queueSize` reports. -/
theorem failedCount_window (queueSize healthyQueueSize : Nat) (hq : 1 ≤ queueSize) (r : Recorder)
    (hr : r.Fresh queueSize healthyQueueSize) (hload : r.slb.strategy.connect.loadSucc = true)
    (calls : Calls σ) (i : Nat) (hi : i < maxServerSize) :
    ((calls.foldl Recorder.call r).slb.strategy.connect.connectStatus i).failedCount
        = (((connReports i calls).rtake queueSize).countP (fun ret => ret ≠ 0) : Nat)
      ∧ 0 ≤ ((calls.foldl Recorder.call r).slb.strategy.connect.connectStatus i).failedCount
      ∧ ((calls.foldl Recorder.call r).slb.strategy.connect.connectStatus i).failedCount
        ≤ queueSize := by
  have hstart : (connectOf queueSize r.log i).Counts queueSize (([] : List Int).map connStatus) := by
    rw [hr.log]
    exact ConnectStatus.create_counts queueSize
  have hcounts := connectOf_counts hq i calls r [] hstart
  rw [← (hr.kept.calls calls).connect ((Recorder.calls_connect_loadSucc calls r).trans hload) i hi,
    List.nil_append] at hcounts
  exact hcounts.failures

/-- A recorder with both filters loaded. -/
def recorderLoaded (connectQueueSize healthyQueueSize : Nat) (times : Nat → Int) : Recorder where
  slb :=
    { strategy :=
        { strategyRandom with
          connect := ⟨fun _ => ConnectStatus.create connectQueueSize, 10, 95, 40, 5, true⟩
          healthy := ⟨100, 0.1, 3, fun _ => HealthyStatus.create healthyQueueSize, 3, true⟩ }
      rands := fun k => k
      times := times }
  log := []

theorem recorderLoaded_fresh (n m : Nat) (times : Nat → Int) :
    (recorderLoaded n m times).Fresh n m :=
  ⟨⟨fun _ => rfl, fun _ => rfl⟩, rfl⟩

/-- Two failures and two successes, in a window of three. -/
theorem failedCount_window_witness :
    ((([(0, .argAfterConn (-1)), (0, .argAfterConn 0), (0, .argAfterConn (-1)),
        (0, .argAfterConn 0)] : Calls Nat).foldl Recorder.call
          (recorderLoaded 3 100 (fun _ => 0))).slb.strategy.connect.connectStatus 0).failedCount
      = 1 :=
  (failedCount_window 3 100 (by decide) (recorderLoaded 3 100 (fun _ => 0))
    (recorderLoaded_fresh 3 100 _) rfl
    [(0, .argAfterConn (-1)), (0, .argAfterConn 0), (0, .argAfterConn (-1)), (0, .argAfterConn 0)]
    0 (by decide)).1.trans (by decide)

section Runs

variable {std : StdSort} {md5 : Md5} {addrs : Nat → ServerAddr} {machineRoom : List UInt8}

/-- The calls of a run. -/
def scoredCalls (std : StdSort) (md5 : Md5) (addrs : Nat → ServerAddr) (machineRoom : List UInt8)
    (tr : List (Scored σ × ScoredOp σ)) : Calls σ :=
  tr.flatMap (fun p => p.1.pool.callsOf (p.1.ask std md5 addrs machineRoom p.2).1)

/-- **The failed count in a run** of a pool, whatever it asks of the balancer between. -/
theorem Scored.run_failedCount {m N : Nat} {retry : Int} {healthyQueueSize : Nat}
    {tr : List (Scored σ × ScoredOp σ)} {x : Scored σ} (hn : 0 < n)
    (h : (scoredLts std md5 addrs machineRoom σ m N retry n healthyQueueSize).Run tr x)
    (hload : x.recorder.slb.strategy.connect.loadSucc = true) {i : Nat} (hi : i < maxServerSize) :
    (x.recorder.slb.strategy.connect.connectStatus i).failedCount
        = (((connReports i (scoredCalls std md5 addrs machineRoom tr)).rtake n).countP
          (fun ret => ret ≠ 0) : Nat)
      ∧ 0 ≤ (x.recorder.slb.strategy.connect.connectStatus i).failedCount
      ∧ (x.recorder.slb.strategy.connect.connectStatus i).failedCount ≤ n := by
  have hcounts : (connectOf n x.recorder.log i).Counts n
      ((connReports i (scoredCalls std md5 addrs machineRoom tr)).map connStatus) := by
    refine h.history (P := fun tr x => (connectOf n x.recorder.log i).Counts n
      ((connReports i (scoredCalls std md5 addrs machineRoom tr)).map connStatus)) ?_ ?_
    · rintro x ⟨-, hlog, -⟩
      rw [hlog]
      exact ConnectStatus.create_counts n
    · rintro tr x op x' - ih ⟨-, rfl⟩
      have hstep := connectOf_counts hn i
        (x.pool.callsOf (x.ask std md5 addrs machineRoom op).1)
        { x.recorder with slb := (x.ask std md5 addrs machineRoom op).2 } _ ih
      have hcalls : scoredCalls std md5 addrs machineRoom (tr ++ [(x, op)])
          = scoredCalls std md5 addrs machineRoom tr
            ++ x.pool.callsOf (x.ask std md5 addrs machineRoom op).1 := by
        unfold scoredCalls
        rw [List.flatMap_append, List.flatMap_singleton]
      rw [hcalls, connReports, List.filterMap_append]
      exact hstep
  rw [← (Scored.run_kept h).connect hload i hi] at hcounts
  exact hcounts.failures

end Runs

/-! ## §4. `HealthyStatus`. -/

/-- The requests of each second, in stretches: time spent and second. -/
def buckets (l : List (Int × UInt32)) : List (List (Int × UInt32)) := runsBy Prod.snd l

/-- The time spent in one bucket. -/
def bucketTime (b : List (Int × UInt32)) : Int := (b.map Prod.fst).sum

/-- The number of requests in one bucket. -/
def bucketCount (b : List (Int × UInt32)) : Int := b.length

/-- The sum of timings over the last `n` completed buckets. -/
def windowTime (n : Nat) (l : List (Int × UInt32)) : Int :=
  (((buckets l).dropLast.rtake n).map bucketTime).sum

/-- The number of requests over the last `n` completed buckets. -/
def windowCount (n : Nat) (l : List (Int × UInt32)) : Int :=
  (((buckets l).dropLast.rtake n).map bucketCount).sum

theorem windowCount_nonneg (n : Nat) (l : List (Int × UInt32)) : 0 ≤ windowCount n l := by
  unfold windowCount
  induction (buckets l).dropLast.rtake n with
  | nil => exact Int.le_refl 0
  | cons b bs ih =>
      rw [List.map_cons, List.sum_cons]
      have hb : 0 ≤ bucketCount b := Int.natCast_nonneg b.length
      omega

/-- A total over the last `n` of the buckets `closed`, with its ring. -/
structure WindowTotal (n : Nat) (f : List (Int × UInt32) → Int) (closed : List (List (Int × UInt32)))
    (queue : SlbQueue UInt32) (total : UInt32) : Prop where
  queue : queue.Holds n (closed.map (fun b => UInt32.ofInt (f b)))
  total : total = UInt32.ofInt ((closed.rtake n).map f).sum

section Totals

variable {f : List (Int × UInt32) → Int} {closed : List (List (Int × UInt32))}
  {queue : SlbQueue UInt32} {total : UInt32}

theorem WindowTotal.evicts (h : WindowTotal n f closed queue total) (hn : 0 < n) (x : UInt32) :
    (queue.insert x).1 = (evicted n closed).map (fun b => UInt32.ofInt (f b)) := by
  rw [h.queue.insert_fst hn, evicted_map]

/-- A bucket is closed: it is added, and the one that leaves is subtracted. -/
theorem WindowTotal.close (h : WindowTotal n f closed queue total) (hn : 0 < n)
    (b : List (Int × UInt32)) :
    WindowTotal n f (closed ++ [b]) (queue.insert (UInt32.ofInt (f b))).2
      (total - ((evicted n closed).map (fun b => UInt32.ofInt (f b))).getD 0 + UInt32.ofInt (f b)) := by
  obtain ⟨m, rfl⟩ := Nat.exists_eq_add_of_lt hn
  rw [Nat.zero_add] at h ⊢
  constructor
  · rw [List.map_append]
    exact h.queue.insert_snd _
  · have hsum := congrArg UInt32.ofInt (sum_rtake_concat f m closed b)
    have hold : UInt32.ofInt (((evicted (m + 1) closed).map f).getD 0)
        = ((evicted (m + 1) closed).map (fun b => UInt32.ofInt (f b))).getD 0 := by
      cases evicted (m + 1) closed <;> rfl
    rw [UInt32.ofInt_add, UInt32.ofInt_add, hold] at hsum
    rw [h.total]
    grind

end Totals

/-- What `HealthyStatus` is after the buckets `closed`, with `opened` not yet completed. -/
structure HealthyStatus.Sums (n : Nat) (closed : List (List (Int × UInt32)))
    (opened : List (Int × UInt32)) (s : HealthyStatus) : Prop where
  time : WindowTotal n bucketTime closed s.timeQueue s.totalTime
  count : WindowTotal n bucketCount closed s.countQueue s.totalCount
  currentSecondTotalTime : s.currentSecondTotalTime = UInt32.ofInt (bucketTime opened)
  currentSecondrequestCount : s.currentSecondrequestCount = UInt32.ofInt (bucketCount opened)

theorem HealthyStatus.create_sums (n : Nat) : (HealthyStatus.create n).Sums n [] [] := by
  refine ⟨⟨SlbQueue.create_holds 0 n, ?_⟩, ⟨SlbQueue.create_holds 0 n, ?_⟩, rfl, rfl⟩
  · rw [List.rtake_nil]
    rfl
  · rw [List.rtake_nil]
    rfl

theorem bucketTime_concat (b : List (Int × UInt32)) (e : Int × UInt32) :
    bucketTime (b ++ [e]) = bucketTime b + e.1 := by
  unfold bucketTime
  rw [List.map_append, List.sum_append, List.map_singleton, List.sum_singleton]

theorem bucketCount_concat (b : List (Int × UInt32)) (e : Int × UInt32) :
    bucketCount (b ++ [e]) = bucketCount b + 1 := by
  unfold bucketCount
  rw [List.length_append, List.length_singleton, Int.natCast_add]
  rfl

/-- `add` with one entry. -/
def HealthyStatus.addEntry (s : HealthyStatus) (e : Int × UInt32) : HealthyStatus :=
  s.add (UInt32.ofInt e.1) e.2

variable {s : HealthyStatus} {closed : List (List (Int × UInt32))} {opened : List (Int × UInt32)}

theorem HealthyStatus.addEntry_currentTime (s : HealthyStatus) (e : Int × UInt32) :
    (s.addEntry e).currentTime = e.2 := by
  unfold HealthyStatus.addEntry HealthyStatus.add
  by_cases he : e.2 ≠ s.currentTime
  · rw [if_pos he]
  · rw [if_neg he]
    exact (not_not.1 he).symm

/-- In the same second the entry goes to the open bucket. -/
theorem HealthyStatus.Sums.add_same (h : s.Sums n closed opened) {e : Int × UInt32}
    (he : e.2 = s.currentTime) : (s.addEntry e).Sums n closed (opened ++ [e]) := by
  unfold HealthyStatus.addEntry HealthyStatus.add
  rw [if_neg (not_not.2 he)]
  refine ⟨h.time, h.count, ?_, ?_⟩
  · rw [bucketTime_concat, UInt32.ofInt_add, ← h.currentSecondTotalTime]
  · rw [bucketCount_concat, UInt32.ofInt_add, ← h.currentSecondrequestCount]
    rfl

/-- In another second the open bucket is closed first. -/
theorem HealthyStatus.Sums.add_other (h : s.Sums n closed opened) (hn : 0 < n) {e : Int × UInt32}
    (he : e.2 ≠ s.currentTime) : (s.addEntry e).Sums n (closed ++ [opened]) [e] := by
  have htime := h.time.close hn opened
  have hcount := h.count.close hn opened
  have htime' := h.time.evicts hn (UInt32.ofInt (bucketTime opened))
  have hcount' := h.count.evicts hn (UInt32.ofInt (bucketCount opened))
  unfold HealthyStatus.addEntry HealthyStatus.add
  rw [if_pos he, h.currentSecondTotalTime, h.currentSecondrequestCount]
  rcases hti : s.timeQueue.insert (UInt32.ofInt (bucketTime opened)) with ⟨oldTime, timeQueue⟩
  rcases hco : s.countQueue.insert (UInt32.ofInt (bucketCount opened)) with ⟨oldCount, countQueue⟩
  rw [hti] at htime htime'
  rw [hco] at hcount hcount'
  subst htime' hcount'
  -- the two rings have moved together, so either both evict or neither does
  cases hev : evicted n closed with
  | none =>
      rw [hev] at htime hcount
      refine ⟨?_, ?_, ?_, ?_⟩
      · simpa using htime
      · simpa using hcount
      · simp [bucketTime]
      · simp [bucketCount]
  | some b =>
      rw [hev] at htime hcount
      refine ⟨htime, hcount, ?_, ?_⟩
      · simp [bucketTime]
      · simp [bucketCount]

/-! ## §5. The requests of one second after another. -/

/-- What `HealthyStatus` is after the requests of `l`.  The bucket of second 0, open at the
start, may have been closed before the first request. -/
structure HealthyStatus.Timed (n : Nat) (l : List (Int × UInt32)) (s : HealthyStatus) : Prop where
  currentTime : s.currentTime = (l.getLast?.map Prod.snd).getD 0
  sums : ∃ pad closed opened, (pad = [] ∨ pad = [[]]) ∧ pad ++ buckets l = closed ++ [opened]
    ∧ s.Sums n closed opened

variable {l : List (Int × UInt32)}

theorem HealthyStatus.create_timed (n : Nat) : (HealthyStatus.create n).Timed n [] :=
  ⟨rfl, [[]], [], [], Or.inr rfl, rfl, HealthyStatus.create_sums n⟩

/-- **One request.** -/
theorem HealthyStatus.Timed.add (h : s.Timed n l) (hn : 0 < n) (e : Int × UInt32) :
    (s.addEntry e).Timed n (l ++ [e]) := by
  obtain ⟨htime, pad, closed, opened, hpad, hsplit, hsums⟩ := h
  refine ⟨?_, ?_⟩
  · rw [s.addEntry_currentTime, List.getLast?_concat]
    rfl
  · rcases List.eq_nil_or_concat' l with rfl | ⟨l', y, rfl⟩
    · -- the first request
      have hpad' : pad = closed ++ [opened] := by
        rw [buckets, runsBy_nil, List.append_nil] at hsplit
        exact hsplit
      have hone : pad = [[]] := by
        rcases hpad with hnil | hone
        · rw [hnil] at hpad'
          exact absurd hpad'.symm (List.append_ne_nil_of_right_ne_nil _ (List.cons_ne_nil _ _))
        · exact hone
      rw [hone] at hpad'
      have hlast : [] ++ [[]] = closed ++ [opened] := hpad'
      obtain ⟨hclosed, hopened⟩ := List.append_inj' hlast rfl
      cases hopened
      subst hclosed
      by_cases he : e.2 = s.currentTime
      · exact ⟨[], [], [e], Or.inl rfl, rfl, hsums.add_same he⟩
      · exact ⟨[[]], [[]], [e], Or.inr rfl, rfl, hsums.add_other hn he⟩
    · -- a request after that of `y`
      have hsecond : s.currentTime = y.2 := by
        rw [htime, List.getLast?_concat]
        rfl
      have hne : buckets (l' ++ [y]) ≠ [] := by
        intro hnil
        have hflat := flatten_runsBy Prod.snd (l' ++ [y])
        rw [← buckets, hnil] at hflat
        exact List.append_ne_nil_of_right_ne_nil _ (List.cons_ne_nil _ _) hflat.symm
      rcases List.eq_nil_or_concat' (buckets (l' ++ [y])) with hnil | ⟨pre, g, hbuckets⟩
      · exact absurd hnil hne
      rw [hbuckets, ← List.append_assoc] at hsplit
      obtain ⟨hclosed, hopened⟩ := List.append_inj' hsplit rfl
      cases hopened
      subst hclosed
      by_cases he : e.2 = s.currentTime
      · refine ⟨pad, pad ++ pre, opened ++ [e], hpad, ?_, hsums.add_same he⟩
        rw [buckets, runsBy_concat_same List.getLast?_concat (hsecond.symm.trans he.symm) hbuckets,
          List.append_assoc]
      · refine ⟨pad, pad ++ pre ++ [opened], [e], hpad, ?_, hsums.add_other hn he⟩
        have hother : ∀ z ∈ (l' ++ [y]).getLast?, z.2 ≠ e.2 := by
          intro z hz
          rw [List.getLast?_concat] at hz
          cases hz
          exact fun heq => he (heq.symm.trans hsecond.symm)
        rw [buckets, runsBy_concat_other e hother, ← buckets, hbuckets]
        simp only [List.append_assoc]

/-- The padding counts for nothing. -/
theorem sum_closed {f : List (Int × UInt32) → Int} (hf : f [] = 0) {pad : List (List (Int × UInt32))}
    (hpad : pad = [] ∨ pad = [[]]) (hsplit : pad ++ buckets l = closed ++ [opened]) :
    ((closed.rtake n).map f).sum = (((buckets l).dropLast.rtake n).map f).sum := by
  have hclosed : closed = (pad ++ buckets l).dropLast := by
    rw [hsplit, List.dropLast_concat]
  rcases hpad with rfl | rfl
  · rw [hclosed, List.nil_append]
  · cases hb : buckets l with
    | nil =>
        rw [hclosed, hb]
        rfl
    | cons b bs =>
        rw [hclosed, hb]
        exact sum_rtake_cons f n ((b :: bs).dropLast) hf

/-- **The totals** are those of the window, as words. -/
theorem HealthyStatus.Timed.totals (h : s.Timed n l) :
    s.totalTime = UInt32.ofInt (windowTime n l) ∧ s.totalCount = UInt32.ofInt (windowCount n l) := by
  obtain ⟨-, pad, closed, opened, hpad, hsplit, hsums⟩ := h
  refine ⟨?_, ?_⟩
  · rw [hsums.time.total, sum_closed rfl hpad hsplit]
    rfl
  · rw [hsums.count.total, sum_closed rfl hpad hsplit]
    rfl

/-- With non-decreasing seconds, a bucket is all there is of its second. -/
theorem buckets_sorted (hsorted : l.Pairwise (fun e e' => e.2 ≤ e'.2)) {b : List (Int × UInt32)}
    (hb : b ∈ buckets l) {e : Int × UInt32} (he : e ∈ b) : b = l.filter (fun e' => e'.2 = e.2) :=
  runsBy_sorted hsorted hb he

/-! ## §6. The requests of one server. -/

/-- What a record says about the requests of the server `i`. -/
def talkOf (i : Nat) (e : Nat × SlbRecord) : Option (Int × UInt32) :=
  match e.2 with
  | .conn _ => none
  | .talk realreadtime tm => if e.1 = i then some (realreadtime, UInt32.ofInt tm) else none

/-- The requests of the server `i`: time spent and second. -/
def talks (i : Nat) (log : List (Nat × SlbRecord)) : List (Int × UInt32) := log.filterMap (talkOf i)

/-- **Every sequence of records.** -/
theorem timingOf_timed (hn : 0 < n) (i : Nat) (log : List (Nat × SlbRecord)) :
    (timingOf n log i).Timed n (talks i log) := by
  induction log using List.reverseRecOn with
  | nil => exact HealthyStatus.create_timed n
  | append_singleton log e ih =>
      obtain ⟨k, e⟩ := e
      unfold talks at ih ⊢
      rw [List.filterMap_append]
      cases e with
      | conn errNo =>
          rw [timingOf_conn]
          have hnone : [(k, SlbRecord.conn errNo)].filterMap (talkOf i) = [] := rfl
          rw [hnone, List.append_nil]
          exact ih
      | talk realreadtime tm =>
          rw [timingOf_talk]
          by_cases hk : k = i
          · have hsome : [(k, SlbRecord.talk realreadtime tm)].filterMap (talkOf i)
                = [(realreadtime, UInt32.ofInt tm)] := by
              simp only [talkOf, if_pos hk, List.filterMap_cons, List.filterMap_nil]
            rw [if_pos hk, hsome]
            exact ih.add hn _
          · have hnone : [(k, SlbRecord.talk realreadtime tm)].filterMap (talkOf i) = [] :=
              List.filterMap_cons_none (if_neg hk)
            rw [if_neg hk, hnone, List.append_nil]
            exact ih

theorem toNat_ofInt_eq_iff (x : Int) : ((UInt32.ofInt x).toNat : Int) = x ↔ 0 ≤ x ∧ x < 2 ^ 32 := by
  have hnat : (UInt32.ofInt x).toNat = (x % 2 ^ 32).toNat := by
    unfold UInt32.ofInt
    rw [UInt32.toNat_ofNat']
    omega
  rw [hnat]
  omega

/-- The totals that stand under the server `i`, as integers. -/
def Recorder.totals (r : Recorder) (i : Nat) : Int × Int :=
  ((r.slb.strategy.healthy.status i).totalTime.toNat,
    (r.slb.strategy.healthy.status i).totalCount.toNat)

theorem Recorder.calls_healthy_loadSucc (calls : Calls σ) : ∀ r : Recorder,
    (calls.foldl Recorder.call r).slb.strategy.healthy.loadSucc
      = r.slb.strategy.healthy.loadSucc := by
  induction calls with
  | nil => exact fun r => rfl
  | cons c calls ih =>
      intro r
      refine (ih (r.call c)).trans ?_
      obtain ⟨k, c⟩ := c
      cases c with
      | argAfterConn ret =>
          show (r.slb.strategy.updateConnectStatus k ret).healthy.loadSucc = _
          rw [(r.slb.strategy.updateConnectStatus_healthy k ret).1]
      | serverArg timecost =>
          exact (r.slb.strategy.updateRequestStatus_connect k timecost (r.slb.times 0)).2
      | createCb _ => rfl
      | destroyCb _ => rfl
      | callback _ _ => rfl
      | serverDestroyed => rfl
      | poolDestroyed => rfl

/-- The totals of a recorder are those of the windows, modulo `2 ^ 32`. -/
theorem Recorder.Kept.totals {m : Nat} {r : Recorder} (h : r.Kept m n) (hn : 0 < n)
    (hload : r.slb.strategy.healthy.loadSucc = true) {i : Nat} (hi : i < maxServerSize) :
    r.totals i = (((UInt32.ofInt (windowTime n (talks i r.log))).toNat : Int),
      ((UInt32.ofInt (windowCount n (talks i r.log))).toNat : Int)) := by
  obtain ⟨htime, hcount⟩ := (timingOf_timed hn i r.log).totals
  rw [← h.healthy hload i hi] at htime hcount
  unfold Recorder.totals
  rw [← htime, ← hcount]
  rfl

theorem Recorder.Kept.totals_eq_iff {m : Nat} {r : Recorder} (h : r.Kept m n) (hn : 0 < n)
    (hload : r.slb.strategy.healthy.loadSucc = true) {i : Nat} (hi : i < maxServerSize) :
    r.totals i = (windowTime n (talks i r.log), windowCount n (talks i r.log))
      ↔ 0 ≤ windowTime n (talks i r.log) ∧ windowTime n (talks i r.log) < 2 ^ 32
        ∧ windowCount n (talks i r.log) < 2 ^ 32 := by
  rw [h.totals hn hload hi, Prod.mk.injEq, toNat_ofInt_eq_iff, toNat_ofInt_eq_iff]
  have hcount := windowCount_nonneg n (talks i r.log)
  exact ⟨fun h => ⟨h.1.1, h.1.2, h.2.2⟩, fun h => ⟨⟨h.1, h.2.1⟩, hcount, h.2.2⟩⟩

/-- **The totals are the true ones** exactly where those fit in a word. -/
theorem totals_exact_iff (connectQueueSize queueSize : Nat) (hq : 1 ≤ queueSize) (r : Recorder)
    (hr : r.Fresh connectQueueSize queueSize) (hload : r.slb.strategy.healthy.loadSucc = true)
    (calls : Calls σ) (i : Nat) (hi : i < maxServerSize) :
    (calls.foldl Recorder.call r).totals i
        = (windowTime queueSize (talks i (calls.foldl Recorder.call r).log),
          windowCount queueSize (talks i (calls.foldl Recorder.call r).log))
      ↔ 0 ≤ windowTime queueSize (talks i (calls.foldl Recorder.call r).log)
        ∧ windowTime queueSize (talks i (calls.foldl Recorder.call r).log) < 2 ^ 32
        ∧ windowCount queueSize (talks i (calls.foldl Recorder.call r).log) < 2 ^ 32 :=
  (hr.kept.calls calls).totals_eq_iff hq ((Recorder.calls_healthy_loadSucc calls r).trans hload) hi

/-- Fifty requests end after a minute each, fifty more a minute later, and one follows. -/
def busyCalls : Calls Nat := List.replicate 101 (0, .serverArg 60000000)

/-- The seconds at which they end. -/
def busyTimes (k : Nat) : Int := if k < 50 then 60 else if k < 100 then 120 else 121

/-- Their 6000 seconds do not fit. -/
theorem totals_wrap : ¬ ∀ (queueSize : Nat) (r : Recorder) (calls : Calls Nat),
    1 ≤ queueSize → r.Fresh 100 queueSize → r.slb.strategy.healthy.loadSucc = true →
    (talks 0 (calls.foldl Recorder.call r).log).Pairwise (fun e e' => e.2 ≤ e'.2) →
    (calls.foldl Recorder.call r).totals 0
      = (windowTime queueSize (talks 0 (calls.foldl Recorder.call r).log),
        windowCount queueSize (talks 0 (calls.foldl Recorder.call r).log)) := by
  intro hall
  have hwindow : windowTime 100 (talks 0 (busyCalls.foldl Recorder.call
      (recorderLoaded 100 100 busyTimes)).log) = 6000000000 := by
    decide +kernel
  have hfresh := recorderLoaded_fresh 100 100 busyTimes
  have heq := hall 100 (recorderLoaded 100 100 busyTimes) busyCalls (by decide) hfresh rfl
    (by decide +kernel)
  have hfits := ((hfresh.kept.calls busyCalls).totals_eq_iff (by decide)
    (Recorder.calls_healthy_loadSucc busyCalls _) (by decide)).1 heq
  rw [hwindow] at hfits
  exact absurd hfits.2.1 (by decide)

/-- Two requests of a second each, and one in the next second. -/
theorem totals_exact_iff_witness :
    (([(0, .serverArg 1000000), (0, .serverArg 1000000), (0, .serverArg 5)] : Calls Nat).foldl
      Recorder.call (recorderLoaded 100 100 (fun k => if k < 2 then 1 else 2))).totals 0
      = (2000000, 2) :=
  ((totals_exact_iff 100 100 (by decide)
    (recorderLoaded 100 100 (fun k => if k < 2 then 1 else 2)) (recorderLoaded_fresh 100 100 _) rfl
    ([(0, .serverArg 1000000), (0, .serverArg 1000000), (0, .serverArg 5)] : Calls Nat) 0
    (by decide)).2 (by decide +kernel)).trans (by decide +kernel)

end RedisAgent
