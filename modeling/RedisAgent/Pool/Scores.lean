/-
  RedisAgent.Pool.Scores — a pool and what its strategy records.

  The pool tells the strategy how every connection and every request ended, under the
  `m_serverIdx` of the server.  When it asks for a server, it hands over only those it
  does not skip, and the filters look the statistics up under a server's place in that
  list.

  The state holds the pool with its history (Pool/Env), the strategy, and the list of
  everything recorded so far.  `connectOf` and `timingOf` are the statistics that the
  records of one server alone make.  Of `HealthyStatus` the records are compared, not the
  rate that was last computed from them.

  Main results:
    • `Scored.run_kept` — under each index stand the statistics of the records of that
      server, in every run;
    • `Scored.scoresOwn_iff` — which statistics a candidate is judged by;
    • `balancer_scores_own` — they are its own where no server is skipped that has a
      lower index.
-/
import RedisAgent.Lib.Counting
import RedisAgent.Pool.Balance
import RedisAgent.Pool.Handles

namespace RedisAgent

variable {σ : Type*}

/-! ## §1. The code. -/

/-- What one call of `setServerArgAfterConn`, or of `setServerArg` at the time `tm`, has
recorded. -/
inductive SlbRecord
  | conn (errNo : Int)
  | talk (realreadtime tm : Int)

/-- The strategy, and all its records in order, each with the `m_serverIdx` it was
recorded for. -/
structure Recorder where
  slb : SlbState
  log : List (Nat × SlbRecord)

/-- One call that the pool made; most are none of the strategy's business. -/
def Recorder.call (r : Recorder) (c : Nat × Call σ) : Recorder :=
  match c.2 with
  | .argAfterConn ret =>
      { slb := { r.slb with strategy := r.slb.strategy.updateConnectStatus c.1 ret }
        log := r.log ++ [(c.1, .conn ret)] }
  | .serverArg timecost =>
      { slb :=
          { r.slb with
            strategy := r.slb.strategy.updateRequestStatus c.1 timecost (r.slb.times 0)
            times := fun k => r.slb.times (k + 1) }
        log := r.log ++ [(c.1, .talk timecost (r.slb.times 0))] }
  | _ => r

section Balancer

variable (std : StdSort) (md5 : Md5) (addrs : Nat → ServerAddr) (machineRoom : List UInt8)

/-- The balancing loop of `pool_fetch_connect`, with `retry` passes left. -/
def fetchBalance (pool : PoolInfo σ) (balanceKey : Int) : (retry : Nat) → (serverid : Int) → SlbM Int
  | 0, serverid => return serverid
  | retry + 1, _ => do
      let id ← poolGetBalanceServer std md5 addrs machineRoom pool balanceKey
      if 0 ≤ id then return id else fetchBalance pool balanceKey retry id

/-- The request that `fetchServer` makes of the pool's. -/
def PoolInfo.slbRequest (pool : PoolInfo σ) (balanceKey : Int) : SlbRequest where
  key := balanceKey
  nthRetry := 0
  server := pool.candidates.map (poolStrategyCopyServ addrs)
  currentMachineRoom := machineRoom.take (machineRoomSize - 1)
  mustSelectOneServer := true
  needHealthyFilter := true

/-! ## §2. The runs. -/

/-- A pool with its history, and its strategy with its records. -/
structure Scored (σ : Type*) where
  pool : PoolState σ
  recorder : Recorder

/-- An entry into the pool. -/
inductive ScoredOp (σ : Type*)
  | fetch (sub : σ) (wq : Nat) (now : Timeval) (balanceKey serverid : Int)
  | server (i : Nat) (op : SrvOp σ)
  | destroy

/-- The entry as Pool/Machine has it, and the strategy once the balancer has answered. -/
def Scored.ask (x : Scored σ) : ScoredOp σ → PoolOp σ × SlbState
  | .fetch sub wq now balanceKey serverid =>
      if x.pool.pool.serverCount ≤ 0 then
        (.fetch sub wq now (fun _ => serverid) serverid, x.recorder.slb)
      else
        let (id, slb) := (fetchBalance std md5 addrs machineRoom x.pool.pool balanceKey
          (x.pool.pool.conf.connectRetry + 1).toNat serverid).run x.recorder.slb
        (.fetch sub wq now (fun _ => id) serverid, slb)
  | .server i op => (.server i op, x.recorder.slb)
  | .destroy => (.destroy, x.recorder.slb)

/-- The state after one entry: the strategy hears of every call in turn. -/
def Scored.exec (x : Scored σ) (op : ScoredOp σ) : Scored σ :=
  let (poolOp, slb) := x.ask std md5 addrs machineRoom op
  { pool := x.pool.exec poolOp
    recorder := (x.pool.callsOf poolOp).foldl Recorder.call { x.recorder with slb := slb } }

/-- The strategy when its filters have been loaded. -/
structure Strategy.Fresh (t : Strategy) (connectQueueSize healthyQueueSize : Nat) : Prop where
  connect : ∀ i, t.connect.connectStatus i = ConnectStatus.create connectQueueSize
  healthy : ∀ i, t.healthy.status i = HealthyStatus.create healthyQueueSize

/-- Every run of a pool of `n` servers and its strategy. -/
def scoredLts (σ : Type*) (n N : Nat) (retry : Int) (connectQueueSize healthyQueueSize : Nat) :
    Lts (Scored σ) (ScoredOp σ) where
  init x := x.pool = PoolState.start n N retry ∧ x.recorder.log = []
    ∧ x.recorder.slb.strategy.Fresh connectQueueSize healthyQueueSize
  step x op x' := x.pool.Promised (x.ask std md5 addrs machineRoom op).1
    ∧ x' = x.exec std md5 addrs machineRoom op

end Balancer

/-! ## §3. The records of one server. -/

/-- `ConnectStatus` of the server `i`, from its records alone. -/
def connectOf (connectQueueSize : Nat) (log : List (Nat × SlbRecord)) (i : Nat) : ConnectStatus :=
  log.foldl
    (fun s e =>
      match e.2 with
      | .conn errNo => if e.1 = i then s.insert (if errNo ≠ 0 then 1 else 0) else s
      | .talk .. => s)
    (ConnectStatus.create connectQueueSize)

/-- `HealthyStatus` of the server `i`, from its records alone. -/
def timingOf (healthyQueueSize : Nat) (log : List (Nat × SlbRecord)) (i : Nat) : HealthyStatus :=
  log.foldl
    (fun s e =>
      match e.2 with
      | .conn _ => s
      | .talk realreadtime tm =>
          if e.1 = i then s.add (UInt32.ofInt realreadtime) (UInt32.ofInt tm) else s)
    (HealthyStatus.create healthyQueueSize)

/-- Under each index stands what the records of that server make. -/
structure Recorder.Kept (connectQueueSize healthyQueueSize : Nat) (r : Recorder) : Prop where
  connect : r.slb.strategy.connect.loadSucc = true → ∀ i, i < maxServerSize →
    r.slb.strategy.connect.connectStatus i = connectOf connectQueueSize r.log i
  healthy : r.slb.strategy.healthy.loadSucc = true → ∀ i, i < maxServerSize →
    (r.slb.strategy.healthy.status i).timing = timingOf healthyQueueSize r.log i

/-! ## §4. The records stay with their servers. -/

variable {q w : Nat}

theorem connectOf_conn (log : List (Nat × SlbRecord)) (k i : Nat) (errNo : Int) :
    connectOf q (log ++ [(k, .conn errNo)]) i
      = if k = i then (connectOf q log i).insert (if errNo ≠ 0 then 1 else 0)
        else connectOf q log i := by
  unfold connectOf
  rw [List.foldl_append]
  rfl

theorem connectOf_talk (log : List (Nat × SlbRecord)) (k i : Nat) (realreadtime tm : Int) :
    connectOf q (log ++ [(k, .talk realreadtime tm)]) i = connectOf q log i := by
  unfold connectOf
  rw [List.foldl_append]
  rfl

theorem timingOf_conn (log : List (Nat × SlbRecord)) (k i : Nat) (errNo : Int) :
    timingOf w (log ++ [(k, .conn errNo)]) i = timingOf w log i := by
  unfold timingOf
  rw [List.foldl_append]
  rfl

theorem timingOf_talk (log : List (Nat × SlbRecord)) (k i : Nat) (realreadtime tm : Int) :
    timingOf w (log ++ [(k, .talk realreadtime tm)]) i
      = if k = i then (timingOf w log i).add (UInt32.ofInt realreadtime) (UInt32.ofInt tm)
        else timingOf w log i := by
  unfold timingOf
  rw [List.foldl_append]
  rfl

theorem Strategy.updateConnectStatus_connectStatus {t : Strategy} (hload : t.connect.loadSucc = true)
    (k : Nat) (errNo : Int) {i : Nat} (hi : i < maxServerSize) :
    (t.updateConnectStatus k errNo).connect.connectStatus i
      = if k = i then (t.connect.connectStatus i).insert (if errNo ≠ 0 then 1 else 0)
        else t.connect.connectStatus i := by
  unfold Strategy.updateConnectStatus
  by_cases hk : k < maxServerSize
  · have hgo : ¬ (t.connect.loadSucc = false ∨ maxServerSize ≤ k) := by
      rw [hload]
      exact not_or.2 ⟨Bool.noConfusion, Nat.not_le.2 hk⟩
    rw [if_neg hgo]
    show Function.update t.connect.connectStatus k _ i = _
    by_cases hki : k = i
    · rw [if_pos hki, ← hki, Function.update_self]
    · rw [if_neg hki, Function.update_of_ne (Ne.symm hki)]
  · -- nothing is recorded for a server that far on
    have hki : k ≠ i := by omega
    rw [if_pos (Or.inr (Nat.not_lt.1 hk)), if_neg hki]

theorem Strategy.updateRequestStatus_timing {t : Strategy} (hload : t.healthy.loadSucc = true)
    (k : Nat) (realreadtime tm : Int) {i : Nat} (hi : i < maxServerSize) :
    ((t.updateRequestStatus k realreadtime tm).healthy.status i).timing
      = if k = i then ((t.healthy.status i).timing).add (UInt32.ofInt realreadtime) (UInt32.ofInt tm)
        else (t.healthy.status i).timing := by
  unfold Strategy.updateRequestStatus
  by_cases hk : k < maxServerSize
  · have hgo : ¬ (t.healthy.loadSucc = false ∨ maxServerSize ≤ k) := by
      rw [hload]
      exact not_or.2 ⟨Bool.noConfusion, Nat.not_le.2 hk⟩
    rw [if_neg hgo]
    show (Function.update t.healthy.status k _ i).timing = _
    by_cases hki : k = i
    · rw [if_pos hki, ← hki, Function.update_self, HealthyStatus.add_timing]
    · rw [if_neg hki, Function.update_of_ne (Ne.symm hki)]
  · have hki : k ≠ i := by omega
    rw [if_pos (Or.inr (Nat.not_lt.1 hk)), if_neg hki]

/-- The two filters do not write to each other. -/
theorem Strategy.updateConnectStatus_healthy (t : Strategy) (k : Nat) (errNo : Int) :
    (t.updateConnectStatus k errNo).healthy = t.healthy
      ∧ (t.updateConnectStatus k errNo).connect.loadSucc = t.connect.loadSucc := by
  unfold Strategy.updateConnectStatus
  split <;> exact ⟨rfl, rfl⟩

theorem Strategy.updateRequestStatus_connect (t : Strategy) (k : Nat) (realreadtime tm : Int) :
    (t.updateRequestStatus k realreadtime tm).connect = t.connect
      ∧ (t.updateRequestStatus k realreadtime tm).healthy.loadSucc = t.healthy.loadSucc := by
  unfold Strategy.updateRequestStatus
  split <;> exact ⟨rfl, rfl⟩

/-- One call of the pool. -/
theorem Recorder.Kept.call {r : Recorder} (h : r.Kept q w) (c : Nat × Call σ) :
    (r.call c).Kept q w := by
  obtain ⟨k, c⟩ := c
  cases c with
  | argAfterConn ret =>
      obtain ⟨hhealthy, hload⟩ := r.slb.strategy.updateConnectStatus_healthy k ret
      constructor
      · intro hsucc i hi
        have hsucc : r.slb.strategy.connect.loadSucc = true := hload.symm.trans hsucc
        show (r.slb.strategy.updateConnectStatus k ret).connect.connectStatus i
          = connectOf q (r.log ++ [(k, .conn ret)]) i
        rw [Strategy.updateConnectStatus_connectStatus hsucc k ret hi, connectOf_conn,
          h.connect hsucc i hi]
      · show (r.slb.strategy.updateConnectStatus k ret).healthy.loadSucc = true → ∀ i,
          i < maxServerSize → ((r.slb.strategy.updateConnectStatus k ret).healthy.status i).timing
            = timingOf w (r.log ++ [(k, .conn ret)]) i
        rw [hhealthy]
        intro hsucc i hi
        rw [timingOf_conn]
        exact h.healthy hsucc i hi
  | serverArg timecost =>
      obtain ⟨hconnect, hload⟩ :=
        r.slb.strategy.updateRequestStatus_connect k timecost (r.slb.times 0)
      constructor
      · show (r.slb.strategy.updateRequestStatus k timecost (r.slb.times 0)).connect.loadSucc = true →
          ∀ i, i < maxServerSize →
            (r.slb.strategy.updateRequestStatus k timecost (r.slb.times 0)).connect.connectStatus i
              = connectOf q (r.log ++ [(k, .talk timecost (r.slb.times 0))]) i
        rw [hconnect]
        intro hsucc i hi
        rw [connectOf_talk]
        exact h.connect hsucc i hi
      · intro hsucc i hi
        have hsucc : r.slb.strategy.healthy.loadSucc = true := hload.symm.trans hsucc
        show ((r.slb.strategy.updateRequestStatus k timecost (r.slb.times 0)).healthy.status i).timing
          = timingOf w (r.log ++ [(k, .talk timecost (r.slb.times 0))]) i
        rw [Strategy.updateRequestStatus_timing hsucc k timecost _ hi, timingOf_talk,
          h.healthy hsucc i hi]
  | createCb _ => exact h
  | destroyCb _ => exact h
  | callback _ _ => exact h
  | serverDestroyed => exact h
  | poolDestroyed => exact h

theorem Recorder.Kept.calls {r : Recorder} (h : r.Kept q w) (calls : Calls σ) :
    (calls.foldl Recorder.call r).Kept q w := by
  induction calls generalizing r with
  | nil => exact h
  | cons c calls ih => exact ih (h.call c)

/-- The balancer records nothing. -/
theorem Recorder.Kept.sameRecords {r : Recorder} (h : r.Kept q w) {slb : SlbState}
    (hs : SameRecords r.slb slb) : ({ r with slb := slb } : Recorder).Kept q w := by
  constructor
  · show slb.strategy.connect.loadSucc = true → ∀ i, i < maxServerSize →
      slb.strategy.connect.connectStatus i = connectOf q r.log i
    rw [hs.connect]
    exact h.connect
  · intro hsucc i hi
    have hsucc : r.slb.strategy.healthy.loadSucc = true := hs.loadSucc.symm.trans hsucc
    exact (hs.healthy i).trans (h.healthy hsucc i hi)

section Balancer

variable {std : StdSort} {md5 : Md5} {addrs : Nat → ServerAddr} {machineRoom : List UInt8}

theorem poolGetBalanceServer_records (pool : PoolInfo σ) (balanceKey : Int) :
    Ensures (poolGetBalanceServer std md5 addrs machineRoom pool balanceKey)
      (fun s _ s' => SameRecords s s') := by
  unfold poolGetBalanceServer
  by_cases hnone : pool.candidates = []
  · rw [if_pos hnone]
    exact fun s => SameRecords.of_strategy rfl
  · rw [if_neg hnone]
    refine (fetchServer_ensures std md5 (fun i => ⟨rfl, rfl, rfl⟩) hnone).bind ?_
    intro id s₁ s hs
    split <;> exact hs.1

/-- The balancing loop ends with a server that is counted, if it makes a pass. -/
theorem fetchBalance_range {pool : PoolInfo σ} (hpos : 1 ≤ pool.serverCount) (balanceKey : Int)
    (retry : Nat) : ∀ serverid,
      Ensures (fetchBalance std md5 addrs machineRoom pool balanceKey (retry + 1) serverid)
        (fun _ id _ => 0 ≤ id ∧ id < pool.serverCount) := by
  intro serverid
  unfold fetchBalance
  refine (poolGetBalanceServer_range std md5 addrs machineRoom balanceKey hpos).bind ?_
  intro id
  by_cases hid : 0 ≤ id
  · rw [if_pos hid]
    exact ensures_pure fun _ _ hrange => hrange
  · -- the first answer is never negative
    rw [if_neg hid]
    exact fun _ _ hrange => absurd hrange.1 hid

theorem fetchBalance_records (pool : PoolInfo σ) (balanceKey : Int) (retry : Nat) :
    ∀ serverid, Ensures (fetchBalance std md5 addrs machineRoom pool balanceKey retry serverid)
      (fun s _ s' => SameRecords s s') := by
  induction retry with
  | zero => exact fun _ => ensures_pure SameRecords.refl
  | succ retry ih =>
      intro _
      unfold fetchBalance
      refine (poolGetBalanceServer_records pool balanceKey).bind ?_
      intro id
      by_cases hid : 0 ≤ id
      · rw [if_pos hid]
        exact ensures_pure fun _ _ hs => hs
      · rw [if_neg hid]
        exact (ih id).mono fun _ _ _ hs' _ hs => hs.trans _ _ _ hs'

theorem Scored.ask_records (x : Scored σ) (op : ScoredOp σ) :
    SameRecords x.recorder.slb (x.ask std md5 addrs machineRoom op).2 := by
  cases op with
  | fetch sub wq now balanceKey serverid =>
      unfold Scored.ask
      simp only
      split
      · exact SameRecords.refl _
      · exact fetchBalance_records _ _ _ _ _
  | server i op => exact SameRecords.refl _
  | destroy => exact SameRecords.refl _

/-- **The records of a run**: under each index stand the statistics of that server. -/
theorem Scored.run_kept {n N : Nat} {retry : Int} {tr : List (Scored σ × ScoredOp σ)} {x : Scored σ}
    (h : (scoredLts std md5 addrs machineRoom σ n N retry q w).Run tr x) : x.recorder.Kept q w := by
  refine h.history (P := fun _ x => x.recorder.Kept q w) ?_ ?_
  · rintro x ⟨-, hlog, hfresh⟩
    constructor
    · intro _ i _
      rw [hlog]
      exact hfresh.connect i
    · intro _ i _
      rw [hlog, hfresh.healthy i]
      rfl
  · rintro tr x op x' - ih ⟨-, rfl⟩
    exact (ih.sameRecords (x.ask_records op)).calls _

end Balancer

/-! ## §5. Whose statistics a candidate is judged by. -/

section Balancer

variable (std : StdSort) (md5 : Md5) (addrs : Nat → ServerAddr) (machineRoom : List UInt8)

/-- Were the balancer asked now, the statistics that `ConnectFilter` and `HealthyFilter`
look up for each server are those of its own records. -/
def Scored.ScoresOwn (q w : Nat) (x : Scored σ) : Prop :=
  x.pool.pool.candidates.length ≤ maxServerSize → ∀ balanceKey ranks slb,
    (ranksScored std md5 (x.pool.pool.slbRequest addrs machineRoom balanceKey)).run x.recorder.slb
      = (ranks, slb) →
    ∀ sr ∈ ranks, ∀ server, sr.server = some server →
      (slb.strategy.connect.loadSucc = true →
        slb.strategy.connect.connectStatus sr.serverId
          = connectOf q x.recorder.log server.id.toNat)
      ∧ (slb.strategy.healthy.loadSucc = true →
        (slb.strategy.healthy.status sr.serverId).timing
          = timingOf w x.recorder.log server.id.toNat)

variable {std md5 addrs machineRoom}
variable {q w : Nat} {x : Scored σ}

/-- The records of the servers `i` and `t` make the same statistics. -/
def Recorder.Alike (q w : Nat) (r : Recorder) (t i : Nat) : Prop :=
  (r.slb.strategy.connect.loadSucc = true → connectOf q r.log t = connectOf q r.log i)
    ∧ (r.slb.strategy.healthy.loadSucc = true → timingOf w r.log t = timingOf w r.log i)

/-- What is looked up at place `t` is recorded for the server with that index. -/
theorem Recorder.Kept.lookup {r : Recorder} (h : r.Kept q w) {slb : SlbState}
    (hs : SameRecords r.slb slb) {t : Nat} (ht : t < maxServerSize) (i : Nat) :
    ((slb.strategy.connect.loadSucc = true →
        slb.strategy.connect.connectStatus t = connectOf q r.log i)
      ∧ (slb.strategy.healthy.loadSucc = true →
        (slb.strategy.healthy.status t).timing = timingOf w r.log i))
      ↔ r.Alike q w t i := by
  unfold Recorder.Alike
  rw [hs.connect, hs.loadSucc, hs.healthy t]
  constructor
  · rintro ⟨hconnect, hhealthy⟩
    refine ⟨fun hsucc => ?_, fun hsucc => ?_⟩
    · rw [← h.connect hsucc t ht]
      exact hconnect hsucc
    · rw [← h.healthy hsucc t ht]
      exact hhealthy hsucc
  · rintro ⟨hconnect, hhealthy⟩
    refine ⟨fun hsucc => ?_, fun hsucc => ?_⟩
    · rw [h.connect hsucc t ht]
      exact hconnect hsucc
    · rw [h.healthy hsucc t ht]
      exact hhealthy hsucc

/-- The seats of the request are the places in the list of candidates. -/
theorem PoolInfo.mem_slbRequest_seats {pool : PoolInfo σ} {balanceKey : Int}
    {seat : Nat × Option SlbServer} :
    seat ∈ (pool.slbRequest addrs machineRoom balanceKey).server.mapIdx
        (fun i server => (i, some server))
      ↔ ∃ t i, pool.candidates[t]? = some i ∧ seat = (t, some (poolStrategyCopyServ addrs i)) := by
  show seat ∈ (pool.candidates.map (poolStrategyCopyServ addrs)).mapIdx
    (fun i server => (i, some server)) ↔ _
  rw [List.mem_mapIdx]
  constructor
  · rintro ⟨t, ht, rfl⟩
    rw [List.length_map] at ht
    refine ⟨t, pool.candidates[t], List.getElem?_eq_getElem ht, ?_⟩
    rw [List.getElem_map]
  · rintro ⟨t, i, hti, rfl⟩
    obtain ⟨ht, rfl⟩ := List.getElem?_eq_some_iff.1 hti
    refine ⟨t, by rwa [List.length_map], ?_⟩
    rw [List.getElem_map]

/-- **Which statistics a candidate is judged by**: those of the server whose index is its
place, so its own are meant only where the two agree. -/
theorem Scored.scoresOwn_iff (h : x.recorder.Kept q w)
    (hfew : x.pool.pool.candidates.length ≤ maxServerSize) :
    x.ScoresOwn std md5 addrs machineRoom q w
      ↔ x.recorder.slb.strategy.balance ≠ none →
        ∀ t i, x.pool.pool.candidates[t]? = some i → x.recorder.Alike q w t i := by
  constructor
  · intro hown hb t i hti
    obtain ⟨hrec, -, hperm⟩ :=
      ranksScored_seats std md5 (x.pool.pool.slbRequest addrs machineRoom 0) x.recorder.slb
    obtain ⟨ht, -⟩ := List.getElem?_eq_some_iff.1 hti
    obtain ⟨sr, hsr, hseat⟩ := List.mem_map.1 ((hperm hb).symm.subset
      (PoolInfo.mem_slbRequest_seats.2 ⟨t, i, hti, rfl⟩))
    obtain ⟨hid, hserver⟩ := Prod.mk.inj hseat
    have hlook := hown hfew 0 _ _ rfl sr hsr _ hserver
    rw [hid] at hlook
    exact (h.lookup hrec (by omega) i).1 hlook
  · intro halike _ balanceKey ranks slb hrun sr hsr server hserver
    obtain ⟨hrec, hnone, hperm⟩ :=
      ranksScored_seats std md5 (x.pool.pool.slbRequest addrs machineRoom balanceKey) x.recorder.slb
    simp only [hrun] at hrec hnone hperm
    by_cases hb : x.recorder.slb.strategy.balance = none
    · rw [hnone hb] at hsr
      exact absurd hsr List.not_mem_nil
    · have hseat := (hperm hb).subset (List.mem_map_of_mem hsr)
      obtain ⟨t, i, hti, heq⟩ := PoolInfo.mem_slbRequest_seats.1 hseat
      obtain ⟨ht, -⟩ := List.getElem?_eq_some_iff.1 hti
      obtain ⟨hid, hsome⟩ := Prod.mk.inj heq
      rw [hserver] at hsome
      cases hsome
      rw [hid]
      exact (h.lookup hrec (by omega) i).2 (halike hb t i hti)

end Balancer

/-- No server is skipped that has a lower index than a candidate. -/
def PoolInfo.NoneSkippedBelow (pool : PoolInfo σ) : Prop :=
  ∀ j ∈ pool.candidates, ∀ i, i < j → i ∈ pool.candidates

/-- Then every candidate has its index for its place. -/
theorem PoolInfo.NoneSkippedBelow.place {pool : PoolInfo σ} (h : pool.NoneSkippedBelow) {t i : Nat}
    (hti : pool.candidates[t]? = some i) : i = t := by
  have hrange : pool.candidates = List.range pool.candidates.length := by
    refine filter_range_downward ?_
    intro j hj hkept i hi
    exact (List.mem_filter.1 (h j (List.mem_filter.2 ⟨List.mem_range.2 hj, hkept⟩) i hi)).2
  rw [hrange] at hti
  obtain ⟨ht, hget⟩ := List.getElem?_eq_some_iff.1 hti
  rw [List.getElem_range] at hget
  exact hget.symm

/-- **The balancer judges each server by its own records** in every state of every run of
a pool in which no server is skipped that has a lower index than a candidate. -/
theorem balancer_scores_own (std : StdSort) (md5 : Md5) (addrs : Nat → ServerAddr)
    (machineRoom : List UInt8) {n N : Nat} {retry : Int} {q w : Nat}
    {tr : List (Scored σ × ScoredOp σ)} {x : Scored σ}
    (h : (scoredLts std md5 addrs machineRoom σ n N retry q w).Run tr x)
    (hbelow : x.pool.pool.NoneSkippedBelow) : x.ScoresOwn std md5 addrs machineRoom q w := by
  intro hfew
  refine (Scored.scoresOwn_iff (Scored.run_kept h) hfew).2 ?_ hfew
  intro _ t i hti
  rw [hbelow.place hti]
  exact ⟨fun _ => rfl, fun _ => rfl⟩

/-! ## §6. Two servers. -/

/-- `strategyRandom` with `ConnectFilter` loaded. -/
def strategyConnect : Strategy :=
  { strategyRandom with
    connect := ⟨fun _ => ConnectStatus.create 100, 10, 90, 50, 10, true⟩ }

/-- A pool of two servers with two connections each, when it is built. -/
def twoServers : Scored Nat :=
  ⟨PoolState.start 2 2 0, ⟨⟨strategyConnect, fun k => k, fun _ => 0⟩, []⟩⟩

/-- The state after some entries. -/
def twoServersAfter (ops : List (ScoredOp Nat)) : Scored Nat :=
  Lts.execAll (Scored.exec StdSort.mergeSort (fun _ => (0, 0, 0, 0)) (fun _ => ⟨[], 6379⟩) [])
    twoServers ops

/-- Both servers get a connection. -/
def bothUpOps : List (ScoredOp Nat) :=
  [.server 0 .monitor, .server 0 (.created ⟨0, 0⟩ 0 {}),
    .server 1 .monitor, .server 1 (.created ⟨0, 0⟩ 0 {})]

/-- The connection of server 0 is lost. -/
def firstDownOps : List (ScoredOp Nat) := bothUpOps ++ [.server 0 (.destroyed ⟨0, 0⟩)]

theorem twoServers_run (ops : List (ScoredOp Nat)) (h : Lts.AllEnabled
      (Scored.exec StdSort.mergeSort (fun _ => (0, 0, 0, 0)) (fun _ => ⟨[], 6379⟩) [])
      (fun x op => x.pool.Promised (x.ask StdSort.mergeSort (fun _ => (0, 0, 0, 0))
        (fun _ => ⟨[], 6379⟩) [] op).1) twoServers ops) :
    ∃ tr, (scoredLts StdSort.mergeSort (fun _ => (0, 0, 0, 0)) (fun _ => ⟨[], 6379⟩) []
      Nat 2 2 0 100 100).Run tr (twoServersAfter ops) := by
  have hinit : (scoredLts StdSort.mergeSort (fun _ => (0, 0, 0, 0)) (fun _ => ⟨[], 6379⟩) []
      Nat 2 2 0 100 100).init twoServers := ⟨rfl, rfl, fun _ => rfl, fun _ => rfl⟩
  have hstep : ∀ (x : Scored Nat) op, x.pool.Promised (x.ask StdSort.mergeSort
      (fun _ => (0, 0, 0, 0)) (fun _ => ⟨[], 6379⟩) [] op).1 →
      (scoredLts StdSort.mergeSort (fun _ => (0, 0, 0, 0)) (fun _ => ⟨[], 6379⟩) []
        Nat 2 2 0 100 100).step x op
        (x.exec StdSort.mergeSort (fun _ => (0, 0, 0, 0)) (fun _ => ⟨[], 6379⟩) [] op) :=
    fun _ _ hen => ⟨hen, rfl⟩
  exact ⟨_, Lts.Run.execAll hstep ops (.init hinit) h⟩

/-- Server 1 is then judged by the lost connection of server 0. -/
theorem balancer_scores_other : ¬ ∀ (tr : List (Scored Nat × ScoredOp Nat)) (x : Scored Nat),
    (scoredLts StdSort.mergeSort (fun _ => (0, 0, 0, 0)) (fun _ => ⟨[], 6379⟩) []
      Nat 2 2 0 100 100).Run tr x →
    x.ScoresOwn StdSort.mergeSort (fun _ => (0, 0, 0, 0)) (fun _ => ⟨[], 6379⟩) [] 100 100 := by
  intro hall
  obtain ⟨tr, hrun⟩ := twoServers_run firstDownOps
    ⟨⟨trivial, by decide, rfl⟩, ⟨trivial, by decide, rfl⟩, ⟨trivial, by decide, rfl⟩,
      ⟨trivial, by decide, rfl⟩, ⟨trivial, by decide, Or.inl rfl⟩, trivial⟩
  have hfew : (twoServersAfter firstDownOps).pool.pool.candidates.length ≤ maxServerSize := by decide
  have halike := (Scored.scoresOwn_iff (Scored.run_kept hrun) hfew).1 (hall tr _ hrun)
    (fun hnone => nomatch hnone) 0 1 rfl
  have hcount : (1 : Int) = 0 := congrArg ConnectStatus.failedCount (halike.1 rfl)
  exact absurd hcount (by decide)

/-- With both servers up, each is judged by its own records. -/
theorem balancer_scores_own_witness :
    (twoServersAfter bothUpOps).pool.pool.candidates = [0, 1]
      ∧ (twoServersAfter bothUpOps).ScoresOwn StdSort.mergeSort (fun _ => (0, 0, 0, 0))
        (fun _ => ⟨[], 6379⟩) [] 100 100 := by
  obtain ⟨tr, hrun⟩ := twoServers_run bothUpOps
    ⟨⟨trivial, by decide, rfl⟩, ⟨trivial, by decide, rfl⟩, ⟨trivial, by decide, rfl⟩,
      ⟨trivial, by decide, rfl⟩, trivial⟩
  have hcand : (twoServersAfter bothUpOps).pool.pool.candidates = [0, 1] := rfl
  refine ⟨hcand, balancer_scores_own StdSort.mergeSort (fun _ => (0, 0, 0, 0))
    (fun _ => ⟨[], 6379⟩) [] hrun ?_⟩
  unfold PoolInfo.NoneSkippedBelow
  rw [hcand]
  intro j hj i hi
  have hj : j < 2 := List.mem_range.1 hj
  exact List.mem_range.2 (by omega : i < 2)

end RedisAgent
