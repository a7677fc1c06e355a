/-
  RedisAgent.Pool.Balance — `_pool_get_balance_server`.

  The pool offers the strategy the servers that have some of their connections, but not
  all; the strategy answers with a place in that list, and the pool turns the place
  into the index of the server.  When there is no such server, it looks for one with a
  connection, in a circle from a random one on.

  `addrs` gives the `addr` and `port` of each server, `machineRoom` is
  `pool->m_machineRoom`.

  Main results:
    • `poolGetBalanceServer_ensures` — which server is returned;
    • `PoolState.env_counts` — `m_connectCount` lies between zero and
      `m_connectPerServer` in every run of a pool;
    • `balance_server_prefers_live` — the selection is in range and prefers live
      servers, and the counts it goes by are those of every run.
-/
import RedisAgent.Pool.Env
import RedisAgent.Slb.Strategy

namespace RedisAgent

variable {σ : Type*}

/-! ## §1. The code. -/

/-- `addr` and `port` of a `server_info_t`. -/
structure ServerAddr where
  addr : List UInt8
  port : Int

/-- `MACHINE_ROOM_SIZE` -/
def machineRoomSize : Nat := 32

/-- `_pool_strategy_copy_serv`, for the server with `m_serverIdx = i`. -/
def poolStrategyCopyServ (addrs : Nat → ServerAddr) (i : Nat) : SlbServer where
  isHealthy := true
  enable := true
  id := i
  port := (addrs i).port
  ip := (addrs i).addr
  tag := none

/-- `_pool_get_random_server` -/
def poolGetRandomServer (serverNum balanceKey : Int) : Int :=
  if 0 < balanceKey ∧ 0 < serverNum then balanceKey.tmod serverNum else 0

/-- The first loop of `_pool_get_balance_server`: the servers it puts into
`slbReq.svr`. -/
def PoolInfo.candidates (pool : PoolInfo σ) : List Nat :=
  (List.range pool.serverCount.toNat).filter (fun i =>
    (pool.serverArr i).connectCount ≠ 0
      ∧ (pool.serverArr i).connectCount ≠ pool.conf.connectPerServer)

/-- The second loop, at most `passes` times. -/
def PoolInfo.nextConnected (pool : PoolInfo σ) : (passes : Nat) → (index : Nat) → Nat
  | 0, index => index
  | passes + 1, index =>
      if (pool.serverArr index).connectCount = 0 then
        pool.nextConnected passes ((index + 1) % pool.serverCount.toNat)
      else index

/-- `_pool_get_balance_server` -/
def poolGetBalanceServer (std : StdSort) (md5 : Md5) (addrs : Nat → ServerAddr)
    (machineRoom : List UInt8) (pool : PoolInfo σ) (balanceKey : Int) : SlbM Int :=
  if pool.candidates = [] then do
    let rnd ← rand
    return (pool.nextConnected pool.serverCount.toNat (rnd % pool.serverCount.toNat) : Int)
  else do
    let id ← fetchServer std md5 (poolStrategyCopyServ addrs)
      { key := balanceKey
        nthRetry := 0
        svr := pool.candidates
        currentMachineRoom := machineRoom.take (machineRoomSize - 1) }
    if 0 ≤ id ∧ id < pool.candidates.length then
      let id : Int := pool.candidates.getD id.toNat 0
      return if id < 0 ∨ pool.serverCount ≤ id then
          poolGetRandomServer pool.serverCount balanceKey
        else id
    else return poolGetRandomServer pool.serverCount balanceKey

/-! ## §2. What it returns. -/

variable {pool : PoolInfo σ}

theorem PoolInfo.mem_candidates {i : Nat} : i ∈ pool.candidates ↔ (i : Int) < pool.serverCount
    ∧ (pool.serverArr i).connectCount ≠ 0
    ∧ (pool.serverArr i).connectCount ≠ pool.conf.connectPerServer := by
  unfold PoolInfo.candidates
  rw [List.mem_filter, List.mem_range, decide_eq_true_eq]
  refine and_congr_left fun _ => ?_
  omega

/-- The circular search stays inside, and stops only where there is a connection. -/
theorem PoolInfo.nextConnected_spec (passes : Nat) :
    ∀ index, index < pool.serverCount.toNat →
      pool.nextConnected passes index < pool.serverCount.toNat
        ∧ ((pool.serverArr (pool.nextConnected passes index)).connectCount ≠ 0
          ∨ ∀ d, d < passes →
            (pool.serverArr ((index + d) % pool.serverCount.toNat)).connectCount = 0) := by
  induction passes with
  | zero => exact fun index hi => ⟨hi, Or.inr fun d hd => absurd hd (Nat.not_lt_zero d)⟩
  | succ passes ih =>
      intro index hi
      unfold PoolInfo.nextConnected
      by_cases hz : (pool.serverArr index).connectCount = 0
      · rw [if_pos hz]
        have hnext : (index + 1) % pool.serverCount.toNat < pool.serverCount.toNat :=
          Nat.mod_lt _ (by omega)
        obtain ⟨hlt, hor⟩ := ih _ hnext
        refine ⟨hlt, hor.imp_right ?_⟩
        intro hall d hd
        cases d with
        | zero =>
            rw [Nat.add_zero, Nat.mod_eq_of_lt hi]
            exact hz
        | succ d =>
            have hd' := hall d (by omega)
            rw [Nat.mod_add_mod] at hd'
            rw [show index + (d + 1) = index + 1 + d by omega]
            exact hd'
      · rw [if_neg hz]
        exact ⟨hi, Or.inl hz⟩

/-- A whole circle finds a connection where there is one. -/
theorem PoolInfo.nextConnected_circle {index k : Nat} (hi : index < pool.serverCount.toNat)
    (hk : k < pool.serverCount.toNat) (hconn : (pool.serverArr k).connectCount ≠ 0) :
    (pool.serverArr (pool.nextConnected pool.serverCount.toNat index)).connectCount ≠ 0 := by
  rcases (PoolInfo.nextConnected_spec pool.serverCount.toNat index hi).2 with h | hall
  · exact h
  · -- `k` is met after so many steps
    have hmeet : (index + (k + pool.serverCount.toNat - index) % pool.serverCount.toNat)
        % pool.serverCount.toNat = k := by
      rw [Nat.add_mod_mod, show index + (k + pool.serverCount.toNat - index)
        = k + pool.serverCount.toNat by omega, Nat.add_mod_right, Nat.mod_eq_of_lt hk]
    have hzero := hall ((k + pool.serverCount.toNat - index) % pool.serverCount.toNat)
      (Nat.mod_lt _ (by omega))
    rw [hmeet] at hzero
    exact absurd hzero hconn

/-- `_pool_get_random_server` picks a server. -/
theorem poolGetRandomServer_range {serverNum : Int} (balanceKey : Int) (hpos : 1 ≤ serverNum) :
    0 ≤ poolGetRandomServer serverNum balanceKey ∧ poolGetRandomServer serverNum balanceKey < serverNum := by
  unfold poolGetRandomServer
  split
  · rename_i h
    rw [Int.tmod_eq_emod_of_nonneg (Int.le_of_lt h.1)]
    exact ⟨Int.emod_nonneg _ (by omega), Int.emod_lt_of_pos _ h.2⟩
  · omega

/-- **In range**, whatever the strategy answers: `_pool_get_balance_server` returns the
index of a server that is counted. -/
theorem poolGetBalanceServer_range (std : StdSort) (md5 : Md5) (addrs : Nat → ServerAddr)
    (machineRoom : List UInt8) (balanceKey : Int) (hpos : 1 ≤ pool.serverCount) :
    Ensures (poolGetBalanceServer std md5 addrs machineRoom pool balanceKey)
      (fun _ id _ => 0 ≤ id ∧ id < pool.serverCount) := by
  unfold poolGetBalanceServer
  by_cases hnone : pool.candidates = []
  · rw [if_pos hnone]
    intro s
    have hrnd : s.rands 0 % pool.serverCount.toNat < pool.serverCount.toNat :=
      Nat.mod_lt _ (by omega)
    have hlt := (PoolInfo.nextConnected_spec pool.serverCount.toNat _ hrnd).1
    show (0 : Int) ≤ (pool.nextConnected pool.serverCount.toNat
        (s.rands 0 % pool.serverCount.toNat) : Nat)
      ∧ ((pool.nextConnected pool.serverCount.toNat
        (s.rands 0 % pool.serverCount.toNat) : Nat) : Int) < pool.serverCount
    omega
  · rw [if_neg hnone]
    refine Ensures.bind (Q := fun _ _ _ => True) (fun _ => trivial) ?_
    intro id
    by_cases hid : 0 ≤ id ∧ id < pool.candidates.length
    · rw [if_pos hid]
      refine ensures_pure ?_
      intro _ _ _
      split
      · exact poolGetRandomServer_range balanceKey hpos
      · omega
    · rw [if_neg hid]
      exact ensures_pure fun _ _ _ => poolGetRandomServer_range balanceKey hpos

/-- **What `_pool_get_balance_server` returns**: a candidate when there is one, and
otherwise a server with a connection when there is one. -/
theorem poolGetBalanceServer_ensures (std : StdSort) (md5 : Md5) (addrs : Nat → ServerAddr)
    (machineRoom : List UInt8) (balanceKey : Int) (hpos : 1 ≤ pool.serverCount)
    (hfew : pool.serverCount ≤ 64) :
    Ensures (poolGetBalanceServer std md5 addrs machineRoom pool balanceKey)
      (fun s id _ => s.strategy.balance ≠ none → (0 ≤ id ∧ id < pool.serverCount)
        ∧ (pool.candidates ≠ [] → id.toNat ∈ pool.candidates)
        ∧ (∀ k : Nat, (k : Int) < pool.serverCount → (pool.serverArr k).connectCount ≠ 0 →
          (pool.serverArr id.toNat).connectCount ≠ 0)) := by
  unfold poolGetBalanceServer
  by_cases hnone : pool.candidates = []
  · rw [if_pos hnone]
    intro s _
    have hrnd : s.rands 0 % pool.serverCount.toNat < pool.serverCount.toNat :=
      Nat.mod_lt _ (by omega)
    have hlt := (PoolInfo.nextConnected_spec pool.serverCount.toNat _ hrnd).1
    refine ⟨?_, fun hne => absurd hnone hne, ?_⟩
    · have hin : ((pool.nextConnected pool.serverCount.toNat
          (s.rands 0 % pool.serverCount.toNat) : Nat) : Int) < pool.serverCount := by omega
      exact ⟨Int.natCast_nonneg _, hin⟩
    · intro k hk hconn
      exact PoolInfo.nextConnected_circle hrnd (by omega) hconn
  · rw [if_neg hnone]
    have hlen : pool.candidates.length ≤ maxServerSize := by
      refine Nat.le_trans (List.length_filter_le _ _) ?_
      rw [List.length_range]
      show pool.serverCount.toNat ≤ 64
      omega
    refine (fetchServer_ensures std md5 (fun i => ⟨rfl, rfl, rfl⟩) hnone).bind ?_
    rintro id s₁ s ⟨-, hid⟩ hb
    obtain ⟨h0, hlt⟩ := hid hb hlen
    have hplace : id.toNat < pool.candidates.length := by
      simp only at hlt
      omega
    have hmem : pool.candidates.getD id.toNat 0 ∈ pool.candidates := by
      rw [List.getD_eq_getElem?_getD, List.getElem?_eq_getElem hplace]
      exact List.getElem_mem hplace
    obtain ⟨hin, hconn, -⟩ := PoolInfo.mem_candidates.1 hmem
    rw [if_pos ⟨h0, hlt⟩]
    simp only
    rw [if_neg (by omega)]
    exact ⟨⟨Int.natCast_nonneg _, hin⟩, fun _ => hmem, fun _ _ _ => hconn⟩

/-! ## §3. The connect counts of a pool. -/

/-- Every `m_connectCount` lies between zero and `m_connectPerServer`. -/
def PoolInfo.CountsConnections (pool : PoolInfo σ) : Prop :=
  ∀ i : Nat, (i : Int) < pool.serverCount → 0 ≤ (pool.serverArr i).connectCount
    ∧ (pool.serverArr i).connectCount ≤ pool.conf.connectPerServer

/-- **Connect counts of a run**: each counts slots of its server. -/
theorem PoolState.env_counts {n N : Nat} {retry : Int} {tr : List (PoolState σ × PoolOp σ)}
    {p : PoolState σ} (h : (poolEnvLts σ n N retry).Run tr p) : p.pool.CountsConnections := by
  intro i _
  obtain ⟨hrun, hconf, -, -⟩ := PoolState.env_srv h i
  obtain ⟨U, F, W, hinv⟩ := Srv.env_inv hrun
  have hcount := hinv.connectCount
  have hle := List.countP_le_length (p := fun j => ((p.srv i).ghost.conn j).connected)
    (l := List.range (buildConf N retry).slots)
  rw [List.length_range] at hle
  rw [hconf]
  have hsrv : (p.srv i).info.connectCount = (p.pool.serverArr i).connectCount := rfl
  have hslots : (buildConf N retry).slots = N := rfl
  have hconn : (buildConf N retry).connectPerServer = N := rfl
  omega

/-- **Server selection** is in range and prefers live servers: with a balance loaded and
between one and 64 servers, whatever has been recorded, for every key and whatever
`rand()` returns.  The connect counts are those of a pool, and every run of a pool has
such counts. -/
theorem balance_server_prefers_live (std : StdSort) (md5 : Md5) :
    (∀ (pool : PoolInfo σ) (addrs : Nat → ServerAddr) (machineRoom : List UInt8) (balanceKey : Int)
      (s : SlbState), 1 ≤ pool.serverCount → pool.serverCount ≤ 64 → s.strategy.balance ≠ none →
      ∃ id : Nat,
        ((poolGetBalanceServer std md5 addrs machineRoom pool balanceKey).run s).1 = id
        ∧ (id : Int) < pool.serverCount
        ∧ (pool.CountsConnections →
          ((∃ i : Nat, (i : Int) < pool.serverCount ∧ 0 < (pool.serverArr i).connectCount
            ∧ (pool.serverArr i).connectCount < pool.conf.connectPerServer) →
            0 < (pool.serverArr id).connectCount
              ∧ (pool.serverArr id).connectCount < pool.conf.connectPerServer)
          ∧ ((∃ i : Nat, (i : Int) < pool.serverCount ∧ 0 < (pool.serverArr i).connectCount) →
            0 < (pool.serverArr id).connectCount)))
    ∧ (∀ (n N : Nat) (retry : Int) (tr : List (PoolState σ × PoolOp σ)) (p : PoolState σ),
      (poolEnvLts σ n N retry).Run tr p → p.pool.CountsConnections) := by
  refine ⟨?_, fun n N retry tr p h => PoolState.env_counts h⟩
  intro pool addrs machineRoom balanceKey s hpos hfew hb
  obtain ⟨⟨h0, hlt⟩, hcand, hconn⟩ :=
    poolGetBalanceServer_ensures std md5 addrs machineRoom balanceKey hpos hfew s hb
  refine ⟨_, (Int.toNat_of_nonneg h0).symm, by omega, ?_⟩
  intro hcounts
  have hid := hcounts ((poolGetBalanceServer std md5 addrs machineRoom pool balanceKey).run s).1.toNat
    (by omega)
  constructor
  · rintro ⟨i, hi, hpos, hfree⟩
    have hmem : i ∈ pool.candidates := PoolInfo.mem_candidates.2 ⟨hi, by omega, by omega⟩
    obtain ⟨-, hne0, hneN⟩ := PoolInfo.mem_candidates.1 (hcand (List.ne_nil_of_mem hmem))
    omega
  · rintro ⟨i, hi, hpos⟩
    have hne := hconn i hi (by omega)
    omega

/-- Two servers with four connections each, of which the first has none and the second
has two. -/
def poolHalfUp : PoolInfo Nat where
  conf := { connectPerServer := 4, lowConnectPerServer := 1, connectRetry := 0 }
  serverCount := 2
  serverArr i := { serverZero with connectCount := if i = 1 then 2 else 0 }
  mem := .allocated

/-- A strategy with `RandomBalance` and nothing else, before any record. -/
def strategyRandom : Strategy where
  balance := some .random
  connect := ⟨fun _ => ConnectStatus.create 100, 0, 0, 0, 0, false⟩
  healthy := ⟨0, 0, 0, fun _ => HealthyStatus.create 100, 0, false⟩
  crossRoom := false

theorem balance_server_prefers_live_witness :
    ((poolGetBalanceServer StdSort.mergeSort (fun _ => (0, 0, 0, 0)) (fun _ => ⟨[], 6379⟩) []
      poolHalfUp 7).run ⟨strategyRandom, fun k => k, fun _ => 0⟩).1 = 1 := by
  obtain ⟨id, hid, hlt, hlive⟩ :=
    (balance_server_prefers_live StdSort.mergeSort (fun _ => (0, 0, 0, 0))).1 poolHalfUp
      (fun _ => ⟨[], 6379⟩) [] 7 ⟨strategyRandom, fun k => k, fun _ => 0⟩ (by decide) (by decide)
      (fun h => nomatch h)
  have hcount : ∀ i : Nat, (poolHalfUp.serverArr i).connectCount = if i = 1 then 2 else 0 :=
    fun _ => rfl
  have hcounts : poolHalfUp.CountsConnections := by
    intro i _
    show 0 ≤ (if i = 1 then (2 : Int) else 0) ∧ (if i = 1 then (2 : Int) else 0) ≤ 4
    split <;> omega
  have hpos := (hlive hcounts).2 ⟨1, by decide, by decide⟩
  rw [hcount] at hpos
  rw [hid]
  split at hpos
  · omega
  · omega

end RedisAgent
