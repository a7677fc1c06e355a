/-
  RedisAgent.Slb.Filters — the filters of the load balancer.

  src/deps/slb/filter and src/deps/slb/balance.  A filter is handed the request's
  array of `server_rank_t`s and changes it; here the array is a list, and a filter is a
  program that returns the new list.  Its state holds what the filters keep between
  requests, and what `rand()` and `time(NULL)` will return, in order.

  `std::sort` and the four words of `MD5` are parameters.

  Slb/Strategy has the chain of the filters, and what all of them keep.
-/
import RedisAgent.Lib.CText
import RedisAgent.Slb.Status

namespace RedisAgent

/-! ## §1. The records. -/

/-- `MAX_SERVER_SIZE` -/
def maxServerSize : Nat := 64

/-- `slb_server_t` -/
structure SlbServer where
  isHealthy : Bool
  enable : Bool
  id : Int
  port : Int
  ip : List UInt8
  tag : Option (List UInt8)

/-- `server_rank_t`, as `memset` leaves it. -/
structure ServerRank where
  serverId : Nat := 0
  machineRoom : Option (List UInt8) := none
  crossRoom : Bool := false
  server : Option SlbServer := none
  balanceRank : UInt64 := 0
  connectScore : Float := 0
  healthyScore : Float := 0
  healthySelectRate : Float := 0
  disabled : Bool := false
  useBackup : Bool := false
  backupServerId : Nat := 0

/-- `request_t`, but for `serverRanks` and `serverNum`, the length of `server`. -/
structure SlbRequest where
  key : Int
  nthRetry : Int
  server : List SlbServer
  currentMachineRoom : List UInt8
  mustSelectOneServer : Bool
  needHealthyFilter : Bool

/-- The classes under `Balance`; `RoundRobinBalance` has its `_lastId`. -/
inductive Balance
  | random
  | consistency
  | roundRobin (lastId : Int32)

/-- `ConnectFilter` -/
structure ConnectFilter where
  connectStatus : Nat → ConnectStatus
  x1 : Float
  y1 : Float
  x2 : Float
  y2 : Float
  loadSucc : Bool

/-- `HealthyFilter` -/
structure HealthyFilter where
  timeout : UInt32
  minRate : Float
  checkTime : UInt32
  status : Nat → HealthyStatus
  k : Float
  loadSucc : Bool

/-- `CamelSuperStrategy`: the members of its filters.  `balance` is `_balance` of
`BalanceFilter`, and `crossRoom` is `_loadSucc` of `CrossRoomFilter`. -/
structure Strategy where
  balance : Option Balance
  connect : ConnectFilter
  healthy : HealthyFilter
  crossRoom : Bool

/-- The strategy, and the values that the next calls of `rand()` and `time(NULL)`
return. -/
structure SlbState where
  strategy : Strategy
  rands : Nat → Nat
  times : Nat → Int

/-- A program of the load balancer. -/
abbrev SlbM := StateM SlbState

/-- `rand()` -/
def rand : SlbM Nat := do
  let s ← get
  set { s with rands := fun k => s.rands (k + 1) }
  return s.rands 0

/-- `time(NULL)` -/
def time : SlbM Int := do
  let s ← get
  set { s with times := fun k => s.times (k + 1) }
  return s.times 0

/-- `std::sort` with a strict weak order: some sorted rearrangement. -/
structure StdSort where
  sort : {α : Type} → (α → α → Bool) → List α → List α
  perm : ∀ {α : Type} (lt : α → α → Bool) (l : List α), (sort lt l).Perm l
  sorted : ∀ {α : Type} (lt : α → α → Bool) (l : List α), (∀ a b, lt a b = true → lt b a = false) →
    (∀ a b c, lt b a = false → lt c b = false → lt c a = false) →
    (sort lt l).Pairwise (fun a b => lt b a = false)

/-- A merge sort is a `std::sort`. -/
def StdSort.mergeSort : StdSort where
  sort lt l := l.mergeSort (fun a b => !lt b a)
  perm lt l := List.mergeSort_perm l _
  sorted lt l hasymm htrans := by
    have hle : ∀ a b c, (!lt b a) = true → (!lt c b) = true → (!lt c a) = true := by
      intro a b c hab hbc
      rw [Bool.not_eq_true'] at hab hbc ⊢
      exact htrans a b c hab hbc
    have htotal : ∀ a b, (!lt b a || !lt a b) = true := by
      intro a b
      rw [Bool.or_eq_true, Bool.not_eq_true', Bool.not_eq_true']
      cases hba : lt b a with
      | false => exact Or.inl rfl
      | true => exact Or.inr (hasymm b a hba)
    refine (List.pairwise_mergeSort hle htotal l).imp fun h => ?_
    rwa [Bool.not_eq_true'] at h

/-- `MD5`, as four words. -/
abbrev Md5 := List UInt8 → UInt32 × UInt32 × UInt32 × UInt32

/-! ## §2. `PrepareFilter`. -/

/-- The body of the loop of `PrepareFilter::doFilter`. -/
def prepareRank (currentMachineRoom : List UInt8) (i : Nat) (server : SlbServer) (sr : ServerRank) :
    ServerRank :=
  { sr with
    serverId := i
    server := some server
    machineRoom := server.tag
    disabled := if ¬ server.enable ∨ ¬ server.isHealthy then true else sr.disabled
    crossRoom :=
      match server.tag with
      | none => false
      | some room => decide (room ≠ [] ∧ currentMachineRoom ≠ [] ∧ room ≠ currentMachineRoom) }

/-- `PrepareFilter::doFilter`, on the array `fetchServer` has cleared. -/
def prepareFilter (request : SlbRequest) : List ServerRank :=
  request.server.mapIdx (fun i server => prepareRank request.currentMachineRoom i server {})

/-! ## §3. `BalanceFilter`. -/

/-- `%d` -/
def printInt (n : Int) : List UInt8 := if n < 0 then 45 :: decimals n.natAbs else decimals n.natAbs

/-- The text `ConsistencyBalance::balanceServer` hashes: `"%s#%u#%d"`. -/
def consistencyText (server : SlbServer) (key : Int) : List UInt8 :=
  server.ip ++ 35 :: decimals (server.port % 2 ^ 32).toNat ++ 35 :: printInt key

/-- The rank `ConsistencyBalance::balanceServer` gives one server. -/
def consistencyRank (md5 : Md5) (key : Int) (sr : ServerRank) : UInt64 :=
  match sr.server with
  | none => sr.balanceRank
  | some server =>
      let (a, b, c, d) := md5 (consistencyText server key)
      (a + b + c + d).toUInt64

/-- `balanceServer` of the three classes; `none` is the result `-1`. -/
def balanceServer (md5 : Md5) (key : Int) (balance : Balance) (ranks : List ServerRank) :
    SlbM (Option (List ServerRank)) :=
  if ranks.length = 0 then pure none
  else
    match balance with
    | .random =>
        return some (← ranks.mapM (fun sr => do
          let rnd ← rand
          return { sr with balanceRank := UInt64.ofNat rnd }))
    | .consistency =>
        return some (ranks.map (fun sr => { sr with balanceRank := consistencyRank md5 key sr }))
    | .roundRobin lastId => do
        modify (fun s =>
          { s with strategy := { s.strategy with balance := some (.roundRobin (lastId + 1)) } })
        let lastId := if lastId < 0 then -1 else lastId
        let curId := (lastId + 1).toUInt32.toNat % ranks.length
        return some (← ranks.zipIdx.mapM (fun (sr, i) =>
          if i = curId then
            return { sr with balanceRank := UInt64.ofNat (ranks.length + 1) }
          else do
            let rnd ← rand
            return { sr with balanceRank := UInt64.ofNat (rnd % ranks.length) }))

/-- `_cmp_rank` -/
def cmpRank (s1 s2 : ServerRank) : Bool := decide (s2.balanceRank < s1.balanceRank)

/-- `BalanceFilter::doFilter`; `none` is the result `-1`. -/
def balanceFilter (std : StdSort) (md5 : Md5) (key : Int) (ranks : List ServerRank) :
    SlbM (Option (List ServerRank)) := do
  match (← get).strategy.balance with
  | none => return none
  | some balance =>
      match ← balanceServer md5 key balance ranks with
      | none => return none
      | some ranks => return some (std.sort cmpRank ranks)

/-! ## §4. `ConnectFilter`. -/

/-- The chance of a server, in percent, with `failedCount` failures. -/
def ConnectFilter.rate (f : ConnectFilter) (failedCount : Int) : Float :=
  let n := Float.ofInt failedCount
  if 0 ≤ failedCount ∧ n < f.x1 then 1.0 * n * (f.y1 - 100) / f.x1 + 100
  else if f.x1 ≤ n ∧ n < f.x2 then
    1.0 * n * (f.y2 - f.y1) / (f.x2 - f.x1) + f.y1 - (f.y2 - f.y1) / (f.x2 - f.x1) * f.x1
  else f.y2

/-- The body of the loop of `ConnectFilter::doFilter`. -/
def connectRank (f : ConnectFilter) (sr : ServerRank) : SlbM ServerRank :=
  if maxServerSize ≤ sr.serverId then return sr
  else do
    let rate := f.rate (f.connectStatus sr.serverId).failedCount
    let rnd ← rand
    return { sr with
      connectScore := rate / 100
      disabled := if rate < Float.ofNat (rnd % 100) then true else sr.disabled }

/-- `ConnectFilter::doFilter` -/
def connectFilter (ranks : List ServerRank) : SlbM (List ServerRank) := do
  let f := (← get).strategy.connect
  if f.loadSucc then ranks.mapM (connectRank f) else return ranks

/-! ## §5. `HealthyFilter`. -/

/-- The body of the first loop of `HealthyFilter::doFilter`: the chance of a server from
its own times. -/
def healthyRank (sr : ServerRank) : SlbM ServerRank :=
  if maxServerSize ≤ sr.serverId then return sr
  else do
    let tm ← time
    let s ← get
    let f := s.strategy.healthy
    let (rate, hs) :=
      (f.status sr.serverId).getSelectRate f.timeout f.checkTime.toInt32.toInt f.minRate tm
    set { s with
      strategy := { s.strategy with
        healthy := { f with status := Function.update f.status sr.serverId hs } } }
    let rnd ← rand
    return { sr with
      healthyScore := rate
      disabled := if rate * 100 < Float.ofNat (rnd % 100) then true else sr.disabled }

/-- The second loop: `totalServerNum` and `sumSpeed` of this room. -/
def HealthyFilter.sumSpeed (f : HealthyFilter) (ranks : List ServerRank) : Nat × Float :=
  ranks.foldl
    (fun t sr =>
      if maxServerSize ≤ sr.serverId ∨ sr.crossRoom then t
      else
        let avgTime := (f.status sr.serverId).getTotalAvgTime
        (t.1 + 1, if 1e-6 < avgTime then t.2 + 1 / avgTime else t.2))
    (0, 0)

/-- The body of the third loop: the speed of a server against the average. -/
def HealthyFilter.speedRank (f : HealthyFilter) (totalServerNum : Nat) (sumSpeed : Float)
    (sr : ServerRank) : ServerRank :=
  if maxServerSize ≤ sr.serverId ∨ sr.crossRoom ∨ sr.disabled then sr
  else
    let avgTime := (f.status sr.serverId).getTotalAvgTime
    { sr with
      healthySelectRate :=
        if avgTime < 1e-6 ∨ sumSpeed < 1e-6 then 1
        else (1 / avgTime) / (sumSpeed / Float.ofNat totalServerNum) }

/-- `backup_machine_info_t` -/
structure BackupMachineInfo where
  serverId : Nat
  balance : UInt64
  speed : Float

/-- `_backup_cmp` -/
def backupCmp (a1 a2 : BackupMachineInfo) : Bool := decide (a2.balance < a1.balance)

/-- The array `backup` for the server at place `i`. -/
def HealthyFilter.backup (f : HealthyFilter) (ranks : List ServerRank) (i : Nat) (avgTime : Float) :
    List BackupMachineInfo :=
  ranks.zipIdx.filterMap (fun (sr, j) =>
    if sr.disabled ∨ sr.crossRoom ∨ i = j ∨ maxServerSize ≤ sr.serverId then none
    else
      let tj := (f.status sr.serverId).getTotalAvgTime
      if tj * f.k ≤ avgTime then some ⟨sr.serverId, sr.balanceRank, 1 / tj⟩ else none)

/-- The body of the fourth loop, with `rnd = rand() % 100`: a slow server hands its
requests to a backup. -/
def divert (std : StdSort) (f : HealthyFilter) (ranks : List ServerRank) (i : Nat) (sr : ServerRank)
    (rnd : Nat) : List ServerRank :=
  if sr.healthySelectRate * 100 < Float.ofNat rnd then
    let avgTime := (f.status sr.serverId).getTotalAvgTime
    match std.sort backupCmp (f.backup ranks i avgTime) with
    | [] => ranks
    | bu :: _ =>
        ranks.set i { sr with backupServerId := bu.serverId, disabled := true, useBackup := true }
  else ranks

/-- One pass of the fourth loop. -/
def divertRank (std : StdSort) (f : HealthyFilter) (ranks : List ServerRank) (i : Nat) :
    SlbM (List ServerRank) :=
  match ranks[i]? with
  | none => return ranks
  | some sr => do
      let rnd ← rand
      return divert std f ranks i sr (rnd % 100)

/-- The four loops of `HealthyFilter::doFilter`. -/
def healthyLoops (std : StdSort) (ranks : List ServerRank) : SlbM (List ServerRank) := do
  let ranks ← ranks.mapM healthyRank
  let f := (← get).strategy.healthy
  let (totalServerNum, sumSpeed) := f.sumSpeed ranks
  let ranks := ranks.map (f.speedRank totalServerNum sumSpeed)
  (List.range ranks.length).foldlM (divertRank std f) ranks

/-- `HealthyFilter::doFilter` -/
def healthyFilter (std : StdSort) (needHealthyFilter : Bool) (ranks : List ServerRank) :
    SlbM (List ServerRank) := do
  if (← get).strategy.healthy.loadSucc && needHealthyFilter then healthyLoops std ranks
  else return ranks

/-! ## §6. `CrossRoomFilter`. -/

/-- `server->enable` -/
def ServerRank.enabled (sr : ServerRank) : Bool := sr.server.any SlbServer.enable

/-- `CrossRoomFilter::doFilter` -/
def crossRoomFilter (loadSucc : Bool) (nthRetry : Int) (ranks : List ServerRank) :
    List ServerRank :=
  if ¬ loadSucc ∨ 0 < nthRetry then ranks
  else
    match ranks.findIdx? (fun r => !r.crossRoom && r.enabled) with
    | none => ranks
    | some i =>
        if ranks[i]?.any ServerRank.disabled then
          let cross := ranks.find? (fun r => r.crossRoom && r.enabled && !r.disabled)
          let ranks :=
            match cross with
            | some c =>
                ranks.modify i (fun sr => { sr with backupServerId := c.serverId, useBackup := true })
            | none => ranks
          ranks.map (fun r =>
            if cross.any (fun c => r.serverId == c.serverId) then r
            else if r.crossRoom ∧ ¬ r.disabled then { r with disabled := true }
            else r)
        else ranks

/-! ## §7. `SelectFilter`. -/

/-- The `serverId` of one pass of the first loop of `SelectFilter::doFilter`. -/
def ServerRank.choice (sr : ServerRank) : Option Nat :=
  if sr.crossRoom then none
  else if ¬ sr.disabled then some sr.serverId
  else if sr.useBackup then some sr.backupServerId
  else none

/-- The first loop: the `retry`-th choice. -/
def selectLoop (retry : Int) : Nat → List ServerRank → Option Nat
  | _, [] => none
  | count, sr :: ranks =>
      match sr.choice with
      | some serverId =>
          if (count : Int) = retry then some serverId else selectLoop retry (count + 1) ranks
      | none => selectLoop retry count ranks

/-- The test of the second loop. -/
def ServerRank.selectable (mustSelectOneServer : Bool) (sr : ServerRank) : Bool :=
  if mustSelectOneServer then
    sr.server.any (fun server => server.enable && server.isHealthy) && !sr.crossRoom
  else !sr.disabled

/-- The second loop: the ranks in turn, from the one at `rd` on. -/
def selectAny (mustSelectOneServer : Bool) (rd : Nat) (ranks : List ServerRank) : Option Nat :=
  (List.range ranks.length).findSome? (fun i =>
    match ranks[(i + rd) % ranks.length]? with
    | some sr => if sr.selectable mustSelectOneServer then some sr.serverId else none
    | none => none)

/-- `SelectFilter::doFilter`; `none` is the result `-1`. -/
def selectFilter (request : SlbRequest) (ranks : List ServerRank) : SlbM (Option Nat) := do
  match selectLoop request.nthRetry 0 ranks with
  | some id => return some id
  | none =>
      let rnd ← rand
      return selectAny request.mustSelectOneServer (rnd % ranks.length) ranks

end RedisAgent
