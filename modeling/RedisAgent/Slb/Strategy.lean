/-
  RedisAgent.Slb.Strategy — `CamelSuperStrategy`: the chain of filters.

  src/deps/slb/strategy/CamelSuperStrategy.cpp.  The request's servers reach the
  strategy through `copyCall`; the ranks are those of the places in the request's list.

  `RanksOk n` is what every filter keeps: the ranks are those of the places `0 .. n-1`,
  in some order, every server is in use and in this room, and a backup is one of the
  places.  `SameRecords` is what every filter does to the state: it draws numbers, but
  it records nothing.

  Main results:
    • `chainFilter_ensures` — the chain chooses a server;
    • `fetchServer_ensures` — with a balance, `fetchServer` finds one of the servers;
    • `ranksScored_seats` — under which number the filters look each server up.
-/
import RedisAgent.Slb.Filters

namespace RedisAgent

/-! ## §1. The code. -/

/-- `slb_request_t`, but for `serverNum`, the length of `svr`. -/
structure SlbFetch (β : Type) where
  key : Int
  nthRetry : Int
  svr : List β
  currentMachineRoom : List UInt8

/-- The filters after `BalanceFilter`; the last of them chooses. -/
def filtersAfterBalance (std : StdSort) (request : SlbRequest) (ranks : List ServerRank) :
    SlbM (Option Nat × List ServerRank) := do
  let ranks ← connectFilter ranks
  let ranks ← healthyFilter std request.needHealthyFilter ranks
  let ranks := crossRoomFilter (← get).strategy.crossRoom request.nthRetry ranks
  let id ← selectFilter request ranks
  return (id, ranks)

/-- `ChainFilter::doFilter`, which a negative result ends; `none` is such a result. -/
def chainFilter (std : StdSort) (md5 : Md5) (request : SlbRequest) :
    SlbM (Option Nat × List ServerRank) := do
  match ← balanceFilter std md5 request.key (prepareFilter request) with
  | none => return (none, prepareFilter request)
  | some ranks => filtersAfterBalance std request ranks

/-- `CamelSuperStrategy::fetchServer` -/
def fetchServer {β : Type} (std : StdSort) (md5 : Md5) (copyCall : β → SlbServer) (req : SlbFetch β) :
    SlbM Int :=
  if maxServerSize < req.svr.length then return -1
  else do
    let (ret, ranks) ← chainFilter std md5
      { key := req.key
        nthRetry := req.nthRetry
        server := req.svr.map copyCall
        currentMachineRoom := req.currentMachineRoom
        mustSelectOneServer := true
        needHealthyFilter := true }
    match ret with
    | some id => return if ranks.any (fun sr => sr.serverId == id) then (id : Int) else -1
    | none => return -1

/-- `ChainFilter::updateConnectStatus` for the server `id`; only `ConnectFilter` records
it. -/
def Strategy.updateConnectStatus (t : Strategy) (id : Nat) (errNo : Int) : Strategy :=
  if t.connect.loadSucc = false ∨ maxServerSize ≤ id then t
  else
    { t with
      connect := { t.connect with
        connectStatus := Function.update t.connect.connectStatus id
          ((t.connect.connectStatus id).insert (if errNo ≠ 0 then 1 else 0)) } }

/-- `ChainFilter::updateRequestStatus` for the server `id` at time `tm`; only
`HealthyFilter` records it. -/
def Strategy.updateRequestStatus (t : Strategy) (id : Nat) (realreadtime tm : Int) : Strategy :=
  if t.healthy.loadSucc = false ∨ maxServerSize ≤ id then t
  else
    { t with
      healthy := { t.healthy with
        status := Function.update t.healthy.status id
          ((t.healthy.status id).add (UInt32.ofInt realreadtime) (UInt32.ofInt tm)) } }

/-! ## §2. What the filters keep. -/

/-- The filters' records, before and after. -/
structure SameRecords (s s' : SlbState) : Prop where
  connect : s'.strategy.connect = s.strategy.connect
  healthy : ∀ i, (s'.strategy.healthy.status i).timing = (s.strategy.healthy.status i).timing
  loadSucc : s'.strategy.healthy.loadSucc = s.strategy.healthy.loadSucc

theorem SameRecords.refl (s : SlbState) : SameRecords s s := ⟨rfl, fun _ => rfl, rfl⟩

theorem SameRecords.trans (s₁ s₂ s₃ : SlbState) (h : SameRecords s₁ s₂) (h' : SameRecords s₂ s₃) :
    SameRecords s₁ s₃ :=
  ⟨h'.connect.trans h.connect, fun i => (h'.healthy i).trans (h.healthy i),
    h'.loadSucc.trans h.loadSucc⟩

/-- Another score of the same server. -/
structure Rescored (sr sr' : ServerRank) : Prop where
  serverId : sr'.serverId = sr.serverId
  crossRoom : sr'.crossRoom = sr.crossRoom
  server : sr'.server = sr.server
  useBackup : sr'.useBackup = sr.useBackup
  backupServerId : sr'.backupServerId = sr.backupServerId

/-- See the head of the file. -/
structure RanksOk (n : Nat) (ranks : List ServerRank) : Prop where
  ids : (ranks.map ServerRank.serverId).Perm (List.range n)
  here : ∀ sr ∈ ranks, sr.crossRoom = false
  inUse : ∀ sr ∈ ranks, sr.server.any (fun server => server.enable && server.isHealthy) = true
  backup : ∀ sr ∈ ranks, sr.useBackup = true → sr.backupServerId < n

variable {n : Nat} {ranks ranks' : List ServerRank}

theorem RanksOk.length (h : RanksOk n ranks) : ranks.length = n := by
  have hlen := h.ids.length_eq
  rw [List.length_map, List.length_range] at hlen
  exact hlen

theorem RanksOk.serverId_lt (h : RanksOk n ranks) {sr : ServerRank} (hsr : sr ∈ ranks) :
    sr.serverId < n :=
  List.mem_range.1 (h.ids.subset (List.mem_map_of_mem hsr))

theorem RanksOk.rescored (h : RanksOk n ranks) (hr : List.Forall₂ Rescored ranks ranks') :
    RanksOk n ranks' := by
  have hids : ranks'.map ServerRank.serverId = ranks.map ServerRank.serverId := by
    clear h
    induction hr with
    | nil => rfl
    | cons hsr _ ih => rw [List.map_cons, List.map_cons, hsr.serverId, ih]
  have hfrom : ∀ sr' ∈ ranks', ∃ sr ∈ ranks, Rescored sr sr' := by
    clear h hids
    induction hr with
    | nil => exact fun sr' hsr' => absurd hsr' List.not_mem_nil
    | cons hsr _ ih =>
        intro sr' hsr'
        rcases List.mem_cons.1 hsr' with rfl | hsr'
        · exact ⟨_, List.mem_cons_self, hsr⟩
        · obtain ⟨sr, hmem, hsr⟩ := ih sr' hsr'
          exact ⟨sr, List.mem_cons_of_mem _ hmem, hsr⟩
  refine ⟨hids ▸ h.ids, ?_, ?_, ?_⟩
  · intro sr' hsr'
    obtain ⟨sr, hsr, hres⟩ := hfrom sr' hsr'
    exact hres.crossRoom.trans (h.here sr hsr)
  · intro sr' hsr'
    obtain ⟨sr, hsr, hres⟩ := hfrom sr' hsr'
    rw [hres.server]
    exact h.inUse sr hsr
  · intro sr' hsr' huse
    obtain ⟨sr, hsr, hres⟩ := hfrom sr' hsr'
    rw [hres.backupServerId]
    exact h.backup sr hsr (hres.useBackup.symm.trans huse)

theorem RanksOk.perm (h : RanksOk n ranks) (hp : ranks'.Perm ranks) : RanksOk n ranks' :=
  ⟨(hp.map _).trans h.ids, fun sr hsr => h.here sr (hp.subset hsr),
    fun sr hsr => h.inUse sr (hp.subset hsr), fun sr hsr => h.backup sr (hp.subset hsr)⟩

theorem RanksOk.map (h : RanksOk n ranks) {f : ServerRank → ServerRank}
    (hf : ∀ sr, Rescored sr (f sr)) : RanksOk n (ranks.map f) := by
  refine h.rescored ?_
  rw [List.forall₂_map_right_iff]
  exact List.forall₂_same.2 fun sr _ => hf sr

/-- A loop over the ranks that scores each of them. -/
theorem RanksOk.mapM (h : RanksOk n ranks) {f : ServerRank → SlbM ServerRank}
    (hf : ∀ sr, Ensures (f sr) (fun s sr' s' => Rescored sr sr' ∧ SameRecords s s')) :
    Ensures (ranks.mapM f) (fun s ranks' s' => RanksOk n ranks' ∧ SameRecords s s') :=
  (Ensures.mapM SameRecords.refl SameRecords.trans hf ranks).mono
    fun _ _ _ hr => ⟨h.rescored hr.1, hr.2⟩

/-! ## §3. The filters, one by one. -/

/-- A server that `copyCall` fills in. -/
def SlbServer.Fresh (server : SlbServer) : Prop :=
  server.enable = true ∧ server.isHealthy = true ∧ server.tag = none

theorem prepareFilter_ok {request : SlbRequest} (h : ∀ server ∈ request.server, server.Fresh) :
    RanksOk request.server.length (prepareFilter request) := by
  have hrank : ∀ sr ∈ prepareFilter request, ∃ i server, i < request.server.length
      ∧ server ∈ request.server ∧ sr = prepareRank request.currentMachineRoom i server {} := by
    intro sr hsr
    obtain ⟨i, hi, rfl⟩ := List.mem_mapIdx.1 hsr
    exact ⟨i, _, hi, List.getElem_mem hi, rfl⟩
  refine ⟨?_, ?_, ?_, ?_⟩
  · unfold prepareFilter
    refine List.Perm.of_eq (List.ext_getElem ?_ ?_)
    · rw [List.length_map, List.length_mapIdx, List.length_range]
    · intro i h₁ h₂
      rw [List.getElem_map, List.getElem_mapIdx, List.getElem_range]
      rfl
  · intro sr hsr
    obtain ⟨i, server, -, hserver, rfl⟩ := hrank sr hsr
    simp only [prepareRank, (h server hserver).2.2]
  · intro sr hsr
    obtain ⟨i, server, -, hserver, rfl⟩ := hrank sr hsr
    show (server.enable && server.isHealthy) = true
    rw [(h server hserver).1, (h server hserver).2.1]
    rfl
  · intro sr hsr huse
    obtain ⟨i, server, -, -, rfl⟩ := hrank sr hsr
    exact absurd huse Bool.false_ne_true

theorem SameRecords.of_strategy {s s' : SlbState} (h : s'.strategy = s.strategy) :
    SameRecords s s' := by
  refine ⟨?_, ?_, ?_⟩
  · rw [h]
  · intro i
    rw [h]
  · rw [h]

/-- What `balanceServer` does to the ranks: it scores them, unless it fails. -/
structure Ranked (ranks : List ServerRank) (s : SlbState) (r : Option (List ServerRank))
    (s' : SlbState) : Prop where
  succeeds : ranks.length ≠ 0 → r ≠ none
  rescored : ∀ ranks', r = some ranks' → List.Forall₂ Rescored ranks ranks'
  records : SameRecords s s'

theorem Ranked.some {s s' : SlbState}
    (h : List.Forall₂ Rescored ranks ranks' ∧ SameRecords s s') :
    Ranked ranks s (some ranks') s' := by
  refine ⟨fun _ hr => (nomatch hr), ?_, h.2⟩
  intro ranks₁ hr
  cases hr
  exact h.1

/-- A loop over the ranks and their places that scores each of them. -/
theorem rescored_mapM_zipIdx {f : ServerRank × Nat → SlbM ServerRank}
    (hf : ∀ p, Ensures (f p) (fun s sr' s' => Rescored p.1 sr' ∧ SameRecords s s')) :
    Ensures (ranks.zipIdx.mapM f)
      (fun s ranks' s' => List.Forall₂ Rescored ranks ranks' ∧ SameRecords s s') := by
  refine (Ensures.mapM SameRecords.refl SameRecords.trans hf ranks.zipIdx).mono ?_
  intro s ranks' s' hr
  have hres := List.forall₂_map_left_iff.2 hr.1
  rw [List.zipIdx_map_fst] at hres
  exact ⟨hres, hr.2⟩

theorem balanceServer_ranked (md5 : Md5) (key : Int) (balance : Balance) (ranks : List ServerRank) :
    Ensures (balanceServer md5 key balance ranks) (Ranked ranks) := by
  intro s
  unfold balanceServer
  by_cases hempty : ranks.length = 0
  · rw [if_pos hempty]
    exact ⟨fun hn => absurd hempty hn, fun _ hr => (by cases hr), SameRecords.refl s⟩
  · rw [if_neg hempty]
    cases balance with
    | random =>
        exact Ranked.some (Ensures.mapM SameRecords.refl SameRecords.trans (f := fun sr => do
            let rnd ← rand
            return { sr with balanceRank := UInt64.ofNat rnd })
          (fun sr s => ⟨⟨rfl, rfl, rfl, rfl, rfl⟩, SameRecords.of_strategy rfl⟩) ranks s)
    | consistency =>
        refine Ranked.some ⟨?_, SameRecords.refl s⟩
        rw [List.forall₂_map_right_iff]
        exact List.forall₂_same.2 fun sr _ => ⟨rfl, rfl, rfl, rfl, rfl⟩
    | roundRobin lastId =>
        let curId := ((if lastId < 0 then -1 else lastId) + 1).toUInt32.toNat % ranks.length
        have hloop := @rescored_mapM_zipIdx ranks (fun p =>
          if p.2 = curId then
            return { p.1 with balanceRank := UInt64.ofNat (ranks.length + 1) }
          else do
            let rnd ← rand
            return { p.1 with balanceRank := UInt64.ofNat (rnd % ranks.length) }) (by
          intro p s
          by_cases hi : p.2 = curId
          · simp only [if_pos hi]
            exact ⟨⟨rfl, rfl, rfl, rfl, rfl⟩, SameRecords.refl s⟩
          · simp only [if_neg hi]
            exact ⟨⟨rfl, rfl, rfl, rfl, rfl⟩, SameRecords.of_strategy rfl⟩)
          { s with strategy := { s.strategy with balance := some (.roundRobin (lastId + 1)) } }
        -- only `_lastId` is written before the loop
        have hlast : SameRecords s
            { s with strategy := { s.strategy with balance := some (.roundRobin (lastId + 1)) } } :=
          ⟨rfl, fun _ => rfl, rfl⟩
        exact Ranked.some ⟨hloop.1, SameRecords.trans _ _ _ hlast hloop.2⟩

/-- What a run of `BalanceFilter` is: that of its balance, and a sort. -/
theorem balanceFilter_run (std : StdSort) (md5 : Md5) (key : Int) (ranks : List ServerRank)
    (s : SlbState) : (balanceFilter std md5 key ranks).run s
      = match s.strategy.balance with
        | none => (none, s)
        | some balance =>
            (((balanceServer md5 key balance ranks).run s).1.map (std.sort cmpRank),
              ((balanceServer md5 key balance ranks).run s).2) := by
  unfold balanceFilter
  show (match s.strategy.balance with
    | none => (pure none : SlbM (Option (List ServerRank)))
    | some balance => _).run s = _
  cases s.strategy.balance with
  | none => rfl
  | some balance =>
      show (match ((balanceServer md5 key balance ranks).run s).1 with
        | none => (pure none : SlbM (Option (List ServerRank)))
        | some ranks => _).run ((balanceServer md5 key balance ranks).run s).2
        = (((balanceServer md5 key balance ranks).run s).1.map (std.sort cmpRank),
          ((balanceServer md5 key balance ranks).run s).2)
      cases ((balanceServer md5 key balance ranks).run s).1 <;> rfl

/-- What `BalanceFilter` brings about. -/
structure Balanced (n : Nat) (s : SlbState) (r : Option (List ServerRank)) (s' : SlbState) :
    Prop where
  succeeds : n ≠ 0 → s.strategy.balance ≠ none → r ≠ none
  ranks : ∀ ranks', r = some ranks' → RanksOk n ranks'
  records : SameRecords s s'

/-- `BalanceFilter` fails without a balance. -/
theorem balanceFilter_ensures (std : StdSort) (md5 : Md5) (key : Int) (h : RanksOk n ranks) :
    Ensures (balanceFilter std md5 key ranks) (Balanced n) := by
  intro s
  rw [balanceFilter_run]
  cases hbal : s.strategy.balance with
  | none => exact ⟨fun _ hb => absurd hbal hb, fun _ hr => (nomatch hr), SameRecords.refl s⟩
  | some balance =>
      have hserver := balanceServer_ranked md5 key balance ranks s
      refine ⟨?_, ?_, hserver.records⟩
      · intro hn _ hr
        rw [← h.length] at hn
        exact hserver.succeeds hn (Option.map_eq_none_iff.1 hr)
      · intro ranks' hr
        obtain ⟨ranks₁, h₁, rfl⟩ := Option.map_eq_some_iff.1 hr
        exact (h.rescored (hserver.rescored ranks₁ h₁)).perm (std.perm cmpRank ranks₁)

theorem connectRank_ensures (f : ConnectFilter) (sr : ServerRank) :
    Ensures (connectRank f sr) (fun s sr' s' => Rescored sr sr' ∧ SameRecords s s') := by
  intro s
  unfold connectRank
  split
  · exact ⟨⟨rfl, rfl, rfl, rfl, rfl⟩, SameRecords.refl s⟩
  · exact ⟨⟨rfl, rfl, rfl, rfl, rfl⟩, SameRecords.of_strategy rfl⟩

/-- `ConnectFilter` scores and disables. -/
theorem connectFilter_rescored (ranks : List ServerRank) : Ensures (connectFilter ranks)
    (fun s ranks' s' => List.Forall₂ Rescored ranks ranks' ∧ SameRecords s s') := by
  intro s
  show (fun s ranks' s' => List.Forall₂ Rescored ranks ranks' ∧ SameRecords s s') s
    ((if s.strategy.connect.loadSucc then ranks.mapM (connectRank s.strategy.connect)
      else pure ranks).run s).1
    ((if s.strategy.connect.loadSucc then ranks.mapM (connectRank s.strategy.connect)
      else pure ranks).run s).2
  split
  · exact Ensures.mapM SameRecords.refl SameRecords.trans
      (connectRank_ensures s.strategy.connect) ranks s
  · exact ⟨List.forall₂_same.2 fun sr _ => ⟨rfl, rfl, rfl, rfl, rfl⟩, SameRecords.refl s⟩

theorem connectFilter_ensures (h : RanksOk n ranks) :
    Ensures (connectFilter ranks) (fun s ranks' s' => RanksOk n ranks' ∧ SameRecords s s') :=
  (connectFilter_rescored ranks).mono fun _ _ _ hr => ⟨h.rescored hr.1, hr.2⟩

/-- `getSelectRate` of one server. -/
theorem healthyRank_ensures (sr : ServerRank) :
    Ensures (healthyRank sr) (fun s sr' s' => Rescored sr sr' ∧ SameRecords s s') := by
  intro s
  unfold healthyRank
  split
  · exact ⟨⟨rfl, rfl, rfl, rfl, rfl⟩, SameRecords.refl s⟩
  · refine ⟨⟨rfl, rfl, rfl, rfl, rfl⟩, ⟨rfl, ?_, rfl⟩⟩
    intro i
    show (Function.update s.strategy.healthy.status sr.serverId _ i).timing = _
    by_cases hi : i = sr.serverId
    · rw [hi, Function.update_self]
      exact HealthyStatus.getSelectRate_timing ..
    · rw [Function.update_of_ne hi]

theorem HealthyFilter.speedRank_rescored (f : HealthyFilter) (totalServerNum : Nat)
    (sumSpeed : Float) (sr : ServerRank) : Rescored sr (f.speedRank totalServerNum sumSpeed sr) := by
  unfold HealthyFilter.speedRank
  split <;> exact ⟨rfl, rfl, rfl, rfl, rfl⟩

/-- A backup is one of the servers. -/
theorem RanksOk.backup_lt (h : RanksOk n ranks) (f : HealthyFilter) (i : Nat) (avgTime : Float)
    {bu : BackupMachineInfo} (hbu : bu ∈ f.backup ranks i avgTime) : bu.serverId < n := by
  unfold HealthyFilter.backup at hbu
  obtain ⟨⟨sr, j⟩, hmem, hsome⟩ := List.mem_filterMap.1 hbu
  have hsr : sr ∈ ranks := List.fst_mem_of_mem_zipIdx hmem
  simp only at hsome
  split at hsome
  · cases hsome
  · split at hsome
    · cases hsome
      exact h.serverId_lt hsr
    · cases hsome

/-- A slow server hands over to one of the servers. -/
theorem RanksOk.divert (h : RanksOk n ranks) (std : StdSort) (f : HealthyFilter) {i : Nat}
    {sr : ServerRank} (hsr : ranks[i]? = some sr) (rnd : Nat) :
    RanksOk n (divert std f ranks i sr rnd) := by
  unfold RedisAgent.divert
  split
  · cases hsort : std.sort backupCmp (f.backup ranks i (f.status sr.serverId).getTotalAvgTime) with
    | nil => simpa only [hsort] using h
    | cons bu rest =>
      simp only [hsort]
      have hbu : bu.serverId < n := by
        have hmem : bu ∈ std.sort backupCmp
            (f.backup ranks i (f.status sr.serverId).getTotalAvgTime) := by
          rw [hsort]
          exact List.mem_cons_self
        exact h.backup_lt f i _ ((std.perm backupCmp _).subset hmem)
      obtain ⟨hi, hget⟩ := List.getElem?_eq_some_iff.1 hsr
      have hmem : sr ∈ ranks := hget ▸ List.getElem_mem hi
      refine ⟨?_, ?_, ?_, ?_⟩
      · have hsame : (ranks.map ServerRank.serverId).set i sr.serverId
            = ranks.map ServerRank.serverId := by
          rw [← hget, ← List.getElem_map ServerRank.serverId (h := by rwa [List.length_map])]
          exact List.set_getElem_self _
        rw [List.map_set]
        show ((ranks.map ServerRank.serverId).set i sr.serverId).Perm _
        rw [hsame]
        exact h.ids
      · intro sr' hsr'
        rcases List.mem_or_eq_of_mem_set hsr' with hsr' | rfl
        · exact h.here sr' hsr'
        · exact h.here sr hmem
      · intro sr' hsr'
        rcases List.mem_or_eq_of_mem_set hsr' with hsr' | rfl
        · exact h.inUse sr' hsr'
        · exact h.inUse sr hmem
      · intro sr' hsr' huse
        rcases List.mem_or_eq_of_mem_set hsr' with hsr' | rfl
        · exact h.backup sr' hsr' huse
        · exact hbu
  · exact h

theorem divertRank_ensures (std : StdSort) (f : HealthyFilter) (h : RanksOk n ranks) (i : Nat) :
    Ensures (divertRank std f ranks i) (fun s ranks' s' => RanksOk n ranks' ∧ SameRecords s s') := by
  intro s
  unfold divertRank
  split
  · exact ⟨h, SameRecords.refl s⟩
  · exact ⟨h.divert std f ‹_› _, SameRecords.of_strategy rfl⟩

/-- `HealthyFilter` scores, disables, and appoints backups. -/
theorem healthyFilter_ensures (std : StdSort) (needHealthyFilter : Bool) (h : RanksOk n ranks) :
    Ensures (healthyFilter std needHealthyFilter ranks)
      (fun s ranks' s' => RanksOk n ranks' ∧ SameRecords s s') := by
  have hloops : Ensures (healthyLoops std ranks)
      (fun s ranks' s' => RanksOk n ranks' ∧ SameRecords s s') := by
    intro s
    obtain ⟨h₁, hs₁⟩ := h.mapM healthyRank_ensures s
    let s₁ := ((ranks.mapM healthyRank).run s).2
    let t := s₁.strategy.healthy.sumSpeed ((ranks.mapM healthyRank).run s).1
    let ranks₁ := ((ranks.mapM healthyRank).run s).1.map (s₁.strategy.healthy.speedRank t.1 t.2)
    have h₂ : RanksOk n ranks₁ := h₁.map (s₁.strategy.healthy.speedRank_rescored t.1 t.2)
    have hloop := Ensures.foldlM (S := SameRecords) (I := RanksOk n) (l := List.range ranks₁.length)
      SameRecords.refl SameRecords.trans
      (fun b i _ hb => divertRank_ensures std s₁.strategy.healthy hb i) h₂ s₁
    exact ⟨hloop.1, SameRecords.trans _ _ _ hs₁ hloop.2⟩
  intro s
  unfold healthyFilter
  show (fun s ranks' s' => RanksOk n ranks' ∧ SameRecords s s') s
    ((if s.strategy.healthy.loadSucc && needHealthyFilter then healthyLoops std ranks
      else pure ranks).run s).1
    ((if s.strategy.healthy.loadSucc && needHealthyFilter then healthyLoops std ranks
      else pure ranks).run s).2
  split
  · exact hloops s
  · exact ⟨h, SameRecords.refl s⟩

/-- No server is in another room, so `CrossRoomFilter` changes nothing. -/
theorem crossRoomFilter_here (loadSucc : Bool) (nthRetry : Int)
    (h : ∀ sr ∈ ranks, sr.crossRoom = false) : crossRoomFilter loadSucc nthRetry ranks = ranks := by
  have hcross : ranks.find? (fun r => r.crossRoom && r.enabled && !r.disabled) = none := by
    rw [List.find?_eq_none]
    intro sr hsr
    rw [h sr hsr]
    exact Bool.false_ne_true
  have hmap : ranks.map (fun r =>
      if (none : Option ServerRank).any (fun c => r.serverId == c.serverId) then r
      else if r.crossRoom ∧ ¬ r.disabled then { r with disabled := true }
      else r) = ranks := by
    conv => rhs; rw [← List.map_id ranks]
    refine List.map_congr_left fun sr hsr => ?_
    rw [if_neg (show ¬ (none : Option ServerRank).any _ = true from Bool.false_ne_true), if_neg]
    · rfl
    · rw [h sr hsr]
      exact fun hc => Bool.false_ne_true hc.1
  unfold crossRoomFilter
  split
  · rfl
  · split
    · rfl
    · split
      · simp only [hcross]
        exact hmap
      · rfl

/-! ## §4. The choice. -/

theorem RanksOk.choice_lt (h : RanksOk n ranks) {sr : ServerRank} (hsr : sr ∈ ranks) {id : Nat}
    (hid : sr.choice = some id) : id < n := by
  unfold ServerRank.choice at hid
  split at hid
  · cases hid
  · split at hid
    · cases hid
      exact h.serverId_lt hsr
    · split at hid
      · cases hid
        exact h.backup sr hsr ‹_›
      · cases hid

/-- The first loop of `SelectFilter` chooses what some rank offers. -/
theorem selectLoop_choice (retry : Int) {id : Nat} (ranks : List ServerRank) :
    ∀ count, selectLoop retry count ranks = some id → ∃ sr ∈ ranks, sr.choice = some id := by
  induction ranks with
  | nil => exact fun count h => nomatch h
  | cons sr ranks ih =>
      intro count h
      unfold selectLoop at h
      split at h
      · rename_i serverId hchoice
        split at h
        · cases h
          exact ⟨sr, List.mem_cons_self, hchoice⟩
        · obtain ⟨sr', hsr', hid⟩ := ih _ h
          exact ⟨sr', List.mem_cons_of_mem _ hsr', hid⟩
      · obtain ⟨sr', hsr', hid⟩ := ih _ h
        exact ⟨sr', List.mem_cons_of_mem _ hsr', hid⟩

/-- The second loop of `SelectFilter`, when one must be selected, takes the first rank it
looks at. -/
theorem RanksOk.selectAny (h : RanksOk n ranks) (hn : n ≠ 0) (rd : Nat) :
    ∃ id, RedisAgent.selectAny true rd ranks = some id ∧ id < n := by
  have hlen := h.length
  have hpos : 0 < ranks.length := by omega
  have hlt : (0 + rd) % ranks.length < ranks.length := Nat.mod_lt _ hpos
  obtain ⟨m, hm⟩ := Nat.exists_eq_add_of_lt hpos
  have hmem := List.getElem_mem hlt
  refine ⟨ranks[(0 + rd) % ranks.length].serverId, ?_, h.serverId_lt hmem⟩
  have hsel : ranks[(0 + rd) % ranks.length].selectable true = true := by
    unfold ServerRank.selectable
    rw [if_pos rfl, h.inUse _ hmem, h.here _ hmem]
    rfl
  have hrange : List.range ranks.length = 0 :: (List.range m).map Nat.succ := by
    rw [hm, Nat.zero_add, List.range_succ_eq_map]
  unfold RedisAgent.selectAny
  rw [hrange, List.findSome?_cons, List.getElem?_eq_getElem hlt]
  simp only [hsel, if_true]

/-- Whatever `SelectFilter` chooses is a server, and when one must be selected it chooses. -/
theorem selectFilter_ensures {request : SlbRequest} (h : RanksOk n ranks) (hn : n ≠ 0)
    (hmust : request.mustSelectOneServer = true) :
    Ensures (selectFilter request ranks)
      (fun s r s' => (∃ id, r = some id ∧ id < n) ∧ SameRecords s s') := by
  intro s
  unfold selectFilter
  cases hloop : selectLoop request.nthRetry 0 ranks with
  | some id =>
      obtain ⟨sr, hsr, hid⟩ := selectLoop_choice _ ranks 0 hloop
      exact ⟨⟨id, rfl, h.choice_lt hsr hid⟩, SameRecords.refl s⟩
  | none =>
      obtain ⟨id, hid, hlt⟩ := h.selectAny hn (s.rands 0 % ranks.length)
      refine ⟨⟨id, ?_, hlt⟩, SameRecords.of_strategy rfl⟩
      rw [← hid, ← hmust]
      rfl

/-! ## §5. The chain. -/

theorem filtersAfterBalance_ensures (std : StdSort) {request : SlbRequest} (h : RanksOk n ranks)
    (hn : n ≠ 0) (hmust : request.mustSelectOneServer = true) :
    Ensures (filtersAfterBalance std request ranks) (fun s r s' =>
      RanksOk n r.2 ∧ (∃ id, r.1 = some id ∧ id < n) ∧ SameRecords s s') := by
  intro s
  obtain ⟨h₁, hs₁⟩ := connectFilter_ensures h s
  obtain ⟨h₂, hs₂⟩ := healthyFilter_ensures std request.needHealthyFilter h₁
    ((connectFilter ranks).run s).2
  let s₂ := ((healthyFilter std request.needHealthyFilter ((connectFilter ranks).run s).1).run
    ((connectFilter ranks).run s).2).2
  have h₃ : RanksOk n (crossRoomFilter s₂.strategy.crossRoom request.nthRetry
      ((healthyFilter std request.needHealthyFilter ((connectFilter ranks).run s).1).run
        ((connectFilter ranks).run s).2).1) := by
    rw [crossRoomFilter_here _ _ h₂.here]
    exact h₂
  obtain ⟨hid, hs₃⟩ := selectFilter_ensures h₃ hn hmust s₂
  exact ⟨h₃, hid, SameRecords.trans _ _ _ hs₁ (SameRecords.trans _ _ _ hs₂ hs₃)⟩

/-- **The chain of filters**: with a balance and a server, it chooses a server. -/
theorem chainFilter_ensures (std : StdSort) (md5 : Md5) {request : SlbRequest}
    (hfresh : ∀ server ∈ request.server, server.Fresh) (hne : request.server ≠ [])
    (hmust : request.mustSelectOneServer = true) :
    Ensures (chainFilter std md5 request) (fun s r s' => SameRecords s s'
      ∧ (s.strategy.balance ≠ none →
        RanksOk request.server.length r.2 ∧ ∃ id, r.1 = some id ∧ id < request.server.length)) := by
  have hn : request.server.length ≠ 0 := fun hz => hne (List.length_eq_zero_iff.1 hz)
  unfold chainFilter
  refine (balanceFilter_ensures std md5 request.key (prepareFilter_ok hfresh)).bind ?_
  intro r s₁ s hbal
  cases r with
  | none => exact ⟨hbal.records, fun hb => absurd rfl (hbal.succeeds hn hb)⟩
  | some ranks =>
      obtain ⟨hok, hid, hs⟩ :=
        filtersAfterBalance_ensures std (hbal.ranks ranks rfl) hn hmust s₁
      exact ⟨SameRecords.trans _ _ _ hbal.records hs, fun _ => ⟨hok, hid⟩⟩

/-- **`fetchServer`** records nothing; with a balance and between one and 64 servers, it
finds one of them. -/
theorem fetchServer_ensures {β : Type} (std : StdSort) (md5 : Md5) {copyCall : β → SlbServer}
    (hfresh : ∀ x, (copyCall x).Fresh) {req : SlbFetch β} (hne : req.svr ≠ []) :
    Ensures (fetchServer std md5 copyCall req) (fun s id s' => SameRecords s s'
      ∧ (s.strategy.balance ≠ none → req.svr.length ≤ maxServerSize →
        0 ≤ id ∧ id < req.svr.length)) := by
  unfold fetchServer
  by_cases hmany : maxServerSize < req.svr.length
  · rw [if_pos hmany]
    exact fun s => ⟨SameRecords.refl s, fun _ hfew => absurd hmany (Nat.not_lt.2 hfew)⟩
  · rw [if_neg hmany]
    refine (chainFilter_ensures std md5 ?_ ?_ rfl).bind ?_
    · intro server hserver
      obtain ⟨x, -, rfl⟩ := List.mem_map.1 hserver
      exact hfresh x
    · exact fun hnil => hne (List.map_eq_nil_iff.1 hnil)
    · rintro ⟨ret, ranks⟩ s₁ s ⟨hs, hret⟩
      cases ret with
      | none =>
          refine ⟨hs, fun hb _ => ?_⟩
          obtain ⟨-, id, hid, -⟩ := hret hb
          cases hid
      | some id =>
          refine ⟨hs, fun hb _ => ?_⟩
          obtain ⟨hok, id', hid, hlt⟩ := hret hb
          cases hid
          simp only [List.length_map] at hok hlt
          have hany : ranks.any (fun sr => sr.serverId == id) = true := by
            obtain ⟨sr, hsr, hid⟩ :=
              List.mem_map.1 (hok.ids.symm.subset (List.mem_range.2 hlt))
            exact List.any_eq_true.2 ⟨sr, hsr, beq_iff_eq.2 hid⟩
          show 0 ≤ (if ranks.any (fun sr => sr.serverId == id) then (id : Int) else -1)
            ∧ (if ranks.any (fun sr => sr.serverId == id) then (id : Int) else -1) < _
          rw [if_pos hany]
          omega

/-! ## §6. Whose statistics are consulted. -/

/-- The number under which the filters look up statistics for this rank, and the server
of the rank. -/
def ServerRank.seat (sr : ServerRank) : Nat × Option SlbServer := (sr.serverId, sr.server)

theorem Rescored.seats (h : List.Forall₂ Rescored ranks ranks') :
    ranks'.map ServerRank.seat = ranks.map ServerRank.seat := by
  induction h with
  | nil => rfl
  | cons hsr _ ih =>
      rw [List.map_cons, List.map_cons, ih]
      unfold ServerRank.seat
      rw [hsr.serverId, hsr.server]

/-- The ranks as `ConnectFilter` leaves them to `HealthyFilter`. -/
def ranksScored (std : StdSort) (md5 : Md5) (request : SlbRequest) : SlbM (List ServerRank) := do
  match ← balanceFilter std md5 request.key (prepareFilter request) with
  | none => return []
  | some ranks => connectFilter ranks

/-- What `BalanceFilter` does to the seats. -/
structure Seated (ranks : List ServerRank) (s : SlbState) (r : Option (List ServerRank))
    (s' : SlbState) : Prop where
  fails : r = none → s.strategy.balance = none ∨ ranks = []
  seats : ∀ ranks', r = some ranks' → s.strategy.balance ≠ none
    ∧ (ranks'.map ServerRank.seat).Perm (ranks.map ServerRank.seat)
  records : SameRecords s s'

theorem balanceFilter_seated (std : StdSort) (md5 : Md5) (key : Int) (ranks : List ServerRank) :
    Ensures (balanceFilter std md5 key ranks) (Seated ranks) := by
  intro s
  rw [balanceFilter_run]
  cases hbal : s.strategy.balance with
  | none => exact ⟨fun _ => Or.inl hbal, fun _ hr => (nomatch hr), SameRecords.refl s⟩
  | some balance =>
      have hserver := balanceServer_ranked md5 key balance ranks s
      refine ⟨?_, ?_, hserver.records⟩
      · intro hr
        refine Or.inr (List.length_eq_zero_iff.1 ?_)
        by_contra hn
        exact hserver.succeeds hn (Option.map_eq_none_iff.1 hr)
      · intro ranks' hr
        obtain ⟨ranks₁, h₁, rfl⟩ := Option.map_eq_some_iff.1 hr
        refine ⟨fun hnone => (nomatch hbal.symm.trans hnone), ?_⟩
        rw [← Rescored.seats (hserver.rescored ranks₁ h₁)]
        exact (std.perm cmpRank ranks₁).map _

/-- **The seats of the ranks that are scored**: every server of the request sits at its
place in the request. -/
theorem ranksScored_seats (std : StdSort) (md5 : Md5) (request : SlbRequest) :
    Ensures (ranksScored std md5 request) (fun s ranks s' => SameRecords s s'
      ∧ (s.strategy.balance = none → ranks = [])
      ∧ (s.strategy.balance ≠ none → (ranks.map ServerRank.seat).Perm
        (request.server.mapIdx (fun i server => (i, some server))))) := by
  have hprepare : (prepareFilter request).map ServerRank.seat
      = request.server.mapIdx (fun i server => (i, some server)) := by
    unfold prepareFilter
    rw [List.mapIdx_eq_zipIdx_map, List.mapIdx_eq_zipIdx_map, List.map_map]
    rfl
  unfold ranksScored
  refine (balanceFilter_seated std md5 request.key (prepareFilter request)).bind ?_
  intro r
  cases r with
  | none =>
      rintro s₁ s ⟨hfails, -, hrec⟩
      refine ⟨hrec, fun _ => rfl, fun hb => ?_⟩
      rcases hfails rfl with hnone | hnil
      · exact absurd hnone hb
      · rw [← hprepare, hnil]
        exact List.Perm.refl _
  | some ranks =>
      refine (connectFilter_rescored ranks).mono ?_
      rintro s₁ ranks' s₂ ⟨hres, hrec'⟩ s ⟨-, hseats, hrec⟩
      obtain ⟨hb, hperm⟩ := hseats ranks rfl
      refine ⟨hrec.trans _ _ _ hrec', fun hnone => absurd hnone hb, fun _ => ?_⟩
      rw [Rescored.seats hres, ← hprepare]
      exact hperm

end RedisAgent
