/-
  RedisAgent.Router.Capacity — three arrays of fixed size, and what fills them.

  `service[MAX_COPY_NUM]` of a partition is filled by `_meta_load_conf`, a half of
  `_pool_map_r` and `_pool_map_w` by `_shard_build_pool`, and `slbReq.svr` by
  `_pool_get_balance_server`.  None of the three loops looks at the size of its array,
  and nothing before them counts services or bounds the number of partitions.

  Main results:
    • `Loaded.sharedBy_length` — how many services a partition has, from the
      configuration;
    • `capacity_kept_iff` — the configurations for which the arrays are large enough.
-/
import RedisAgent.Lib.Counting
import RedisAgent.Pool.Balance
import RedisAgent.Router.Buffers
import RedisAgent.Router.Strings

namespace RedisAgent

variable {σ : Type*}

/-! ## §1. The indices that are written. -/

/-- `MAX_COPY_NUM` -/
def maxCopyNum : Nat := 64

/-- `service_num` of partition `j`, when `_meta_load_conf` has come to service `k`. -/
def serviceNum (services : List MetaServiceInfo) (m : Mode) (j k : Nat) : Nat :=
  (((services.take k).foldl MetaDbInfo.addService {}).partitionService m j).length

/-- `router_build` goes on to build the pools. -/
def RouterState.Accepts (r : RouterState σ) (db : MetaDbInfo) : Prop :=
  db.shardMode = 0 ∧ ∃ r', r.shardInitPart db = some (0, r')

/-- **The capacities are kept**: by `service[service_num] = service`, by
`_pool_map_r[..] = pool` and `_pool_map_w[..] = pool`, and in every state of every pool
that is built by `slbReq.svr[index++] = serverTemp`. -/
structure CapacityKept (r : RouterState σ) (db : MetaDbInfo) : Prop where
  copies : ∀ (m : Mode) (k : Nat) (service : MetaServiceInfo), db.services[k]? = some service →
    m.allows service = true → serviceNum db.services m service.partition.toNat k < maxCopyNum
  slots : ∀ i < db.passes, partitionModKey * r.routerNextFlag ≤ slotIn r.routerNextFlag i
    ∧ slotIn r.routerNextFlag i < partitionModKey * r.routerNextFlag + partitionModKey
  candidates : ∀ (m : Mode), ∀ i < db.passes, ∀ (tr : List (PoolState σ × PoolOp σ)) (p : PoolState σ),
    (poolEnvLts σ (db.partitionService m i).length db.connectPerService.toInt32.toInt
      db.getConnectRetry.toInt32.toInt).Run tr p → p.pool.candidates.length ≤ maxServerSize

/-! ## §2. The services of a configuration. -/

/-- The section is a service of partition `j`, for reading or for writing; for reading
only if it is in the proxy's own idc or room, where the configuration asks for it. -/
def Configure.isCopy (conf : Configure) (m : Mode) (j : Nat) (x : ConfService) : Bool :=
  decide (x.servicePartition.map UInt32.toNat = some j)
    && match m with
      | .r => x.serviceCanRead.any (fun v => decide (v ≠ 0))
          && !(decide (conf.dbConnectReadIdcOnly.getD 1 ≠ 0)
            && decide (x.serviceIdc.map (getCstr maxNameLen) ≠ conf.serverIdc.map (getCstr maxNameLen)))
          && !(decide (conf.dbConnectReadRoomOnly.getD 0 ≠ 0)
            && decide (x.serviceMachineRoom.map (getCstr maxNameLen)
              ≠ conf.serverMachineRoom.map (getCstr maxNameLen)))
      | .w => x.serviceCanWrite.any (fun v => decide (v ≠ 0))

/-- The number of services of partition `j`. -/
def Configure.copies (conf : Configure) (m : Mode) (j : Nat) : Nat :=
  ((conf.services.getD []).filter (conf.isCopy m j)).length

variable {conf : Configure} {db : MetaDbInfo}

/-- What a section says about its service is what the table says. -/
theorem ServiceOf.isCopy (hhead : LoadedHead conf db) {x : ConfService} {service : MetaServiceInfo}
    (h : ServiceOf db x service) (m : Mode) (j : Nat) :
    conf.isCopy m j x = (decide (service.partition.toNat = j) && m.allows service) := by
  have hpart : decide ((x.servicePartition.map UInt32.toNat) = some j)
      = decide (service.partition.toNat = j) := by
    rw [h.partition]
    simp only [Option.map_some, Option.some_inj]
  have hidc : (decide (db.readIdcOnly ≠ 0)
        && decide (x.serviceIdc.map (getCstr maxNameLen) ≠ conf.serverIdc.map (getCstr maxNameLen)))
      = (decide (db.readIdcOnly ≠ 0) && decide (service.idcName ≠ db.serverIdcName)) := by
    by_cases hon : db.readIdcOnly ≠ 0
    · rw [h.idcName hon, hhead.serverIdcName hon]
      simp only [ne_eq, Option.some_inj]
    · simp only [hon, decide_false, Bool.false_and]
  have hroom : (decide (db.readRoomOnly ≠ 0)
        && decide (x.serviceMachineRoom.map (getCstr maxNameLen)
          ≠ conf.serverMachineRoom.map (getCstr maxNameLen)))
      = (decide (db.readRoomOnly ≠ 0)
        && decide (service.machineRoomName ≠ db.serverMachineRoomName)) := by
    by_cases hon : db.readRoomOnly ≠ 0
    · rw [h.machineRoomName hon, hhead.serverMachineRoomName hon]
      simp only [ne_eq, Option.some_inj]
    · simp only [hon, decide_false, Bool.false_and]
  unfold Configure.isCopy
  rw [hpart]
  congr 1
  cases m with
  | w => exact h.canWrite.symm
  | r =>
      show _ = service.canRead
      rw [h.canRead, ← hidc, ← hroom, hhead.readIdcOnly, hhead.readRoomOnly]

/-- Every service with its section. -/
theorem Loaded.serviceOf (h : Loaded conf db) : ∃ sections, conf.services = some sections
    ∧ List.Forall₂ (ServiceOf db) sections db.services := by
  obtain ⟨sections, hsections, hservices⟩ := h.services
  have hmap : List.Forall₂ (ServiceOf db) (sections.zipIdx.map Prod.fst) db.services :=
    List.forall₂_map_left_iff.2 (hservices.imp fun _ _ hx => readService_serviceOf hx)
  rw [List.zipIdx_map_fst] at hmap
  exact ⟨sections, hsections, hmap⟩

/-- **How many services** a partition has. -/
theorem Loaded.sharedBy_length (h : Loaded conf db) (m : Mode) (j : Nat) :
    (sharedBy db.services m j).length = conf.copies m j := by
  obtain ⟨sections, hsections, hservices⟩ := h.serviceOf
  unfold Configure.copies sharedBy
  rw [hsections, Option.getD_some]
  clear hsections
  generalize db.services = services at hservices
  induction hservices with
  | nil => rfl
  | cons hx _ ih =>
      rw [List.filter_cons, List.filter_cons, hx.isCopy h.toLoadedHead m j]
      split
      · rw [List.length_cons, List.length_cons, ih]
      · exact ih

/-! ## §3. The arrays. -/

theorem serviceNum_eq (services : List MetaServiceInfo) (m : Mode) (j k : Nat) :
    serviceNum services m j k = (sharedBy (services.take k) m j).length := by
  unfold serviceNum
  rw [addServices]
  rfl

/-- **The indices of `service[]`** are below a bound exactly if no partition has more
services. -/
theorem copies_below_iff (services : List MetaServiceInfo) (n : Nat) :
    (∀ (m : Mode) (k : Nat) (service : MetaServiceInfo), services[k]? = some service →
        m.allows service = true → serviceNum services m service.partition.toNat k < n)
      ↔ ∀ m j, (sharedBy services m j).length ≤ n := by
  constructor
  · intro h m j
    by_contra hlt
    obtain ⟨k, service, hk, hcopy, hlen⟩ := exists_filter_take services n (Nat.not_le.1 hlt)
    rw [Bool.and_eq_true, decide_eq_true_eq] at hcopy
    have hbelow := h m k service hk hcopy.2
    rw [serviceNum_eq, hcopy.1] at hbelow
    unfold sharedBy at hbelow
    omega
  · intro h m k service hk hallows
    rw [serviceNum_eq]
    refine Nat.lt_of_lt_of_le (length_filter_take_lt hk ?_) (h m service.partition.toNat)
    rw [Bool.and_eq_true, decide_eq_true_eq]
    exact ⟨rfl, hallows⟩

/-- The candidates are servers of the pool. -/
theorem PoolState.candidates_length {n : Nat} {c retry : Int} {tr : List (PoolState σ × PoolOp σ)}
    {p : PoolState σ} (h : (poolEnvLts σ n c retry).Run tr p) : p.pool.candidates.length ≤ n := by
  obtain ⟨-, -, -, hcount⟩ := PoolState.env_srv h 0
  refine Nat.le_trans (List.length_filter_le _ _) ?_
  rw [List.length_range]
  omega

variable {r : RouterState σ}

theorem RouterState.accepts_iff : r.Accepts db ↔ db.shardMode = 0 ∧ db.Covers := by
  refine and_congr_right fun _ => ?_
  constructor
  · rintro ⟨r', h⟩
    exact (RouterState.shardInitPart_zero h).1
  · intro h
    obtain ⟨f, hf⟩ := r.shardInitPart_of_covers h
    exact ⟨_, hf⟩

/-- **Which configurations stay within the arrays**: of those that are loaded and not
refused, the ones without a partition of more than 64 services to read or to write, and
with no more partitions than slots. -/
theorem capacity_kept_iff (h : Returns (metaLoadConf conf) {} () db) (hacc : r.Accepts db) :
    CapacityKept r db ↔ (∀ m j, conf.copies m j ≤ maxCopyNum)
      ∧ ∀ n ∈ conf.dbShardPartitionNum, n.toNat ≤ partitionModKeyNat := by
  have hload := metaLoadConf_loaded h
  have hpasses := MetaDbInfo.passes_of_small (RouterState.accepts_iff.1 hacc).2.small
  have hcopies : (∀ m j, conf.copies m j ≤ maxCopyNum)
      ↔ ∀ m j, (sharedBy db.services m j).length ≤ maxCopyNum := by
    simp only [hload.sharedBy_length]
  have hnum : (∀ n ∈ conf.dbShardPartitionNum, n.toNat ≤ partitionModKeyNat)
      ↔ db.passes ≤ partitionModKeyNat := by
    rw [hload.partitionNum, hpasses]
    simp
  rw [hcopies, hnum, ← copies_below_iff]
  constructor
  · intro hk
    refine ⟨hk.copies, ?_⟩
    by_contra hlt
    have hslot := (hk.slots partitionModKeyNat (Nat.not_le.1 hlt)).2
    unfold slotIn partitionModKey partitionModKeyNat at hslot
    omega
  · rintro ⟨hbelow, hle⟩
    refine ⟨hbelow, ?_, ?_⟩
    · intro i hi
      unfold partitionModKeyNat at hle
      unfold slotIn partitionModKey
      omega
    · intro m i _ tr p hrun
      refine Nat.le_trans (PoolState.candidates_length hrun) ?_
      rw [hload.partitionService]
      exact (copies_below_iff db.services maxCopyNum).1 hbelow m i

/-! ## §4. One partition with many services. -/

/-- A service of partition 0, in the proxy's idc. -/
def plainService : ConfService where
  serviceName := some []
  serviceAddr := some []
  servicePort := some 6379
  servicePartition := some 0
  serviceCanRead := some 1
  serviceCanWrite := some 1
  serviceMachineRoom := none
  serviceIdc := some []

/-- One partition with every slot and `n` services. -/
def manyServices (n : Nat) : Configure :=
  { oneString wholeRange with services := some (List.replicate n plainService) }

/-- It can be read, whatever the number of attempts to get a connection. -/
theorem manyServices_readable (n : Nat) (retry : UInt32) :
    Readable { manyServices n with dbConnectGetConnectRetryNum := some retry } := by
  refine ⟨rfl, rfl, rfl, rfl, rfl, rfl, rfl, rfl, rfl, fun h => absurd rfl h, fun _ => rfl, ?_,
    ⟨List.replicate n plainService, rfl, ?_⟩, ⟨[], rfl, nofun⟩⟩
  · exact fun _ _ _ _ => rfl
  · intro db hhead x hx
    have hplain : x.1 = plainService :=
      List.eq_of_mem_replicate (List.fst_mem_of_mem_zipIdx hx)
    have hnum : (1 : UInt32) = db.partitionNum := Option.some_inj.1 hhead.partitionNum
    have hroom : db.readRoomOnly = 0 := hhead.readRoomOnly
    have hidc : db.readIdcOnly = 1 := hhead.readIdcOnly
    have hin : ¬ (1 : UInt32) ≤ 0 := by decide
    rw [hplain]
    unfold readService
    simp only [plainService, hroom, hidc, ← hnum, Option.bind_eq_bind, Option.bind_some, if_true,
      if_false, ne_eq, not_true_eq_false, hin, show ¬ (1 : Int32) = 0 by decide, not_false_eq_true]
    exact ⟨_, rfl⟩

theorem manyServices_returns (n : Nat) :
    ∃ db, Returns (metaLoadConf (manyServices n)) {} () db ∧ db.partitionNum = 1 := by
  obtain ⟨db, hdb⟩ := metaLoadConf_returns (manyServices_readable n 1)
  have hnum : some (1 : UInt32) = some db.partitionNum := (metaLoadConf_loaded hdb).partitionNum
  exact ⟨db, hdb, (Option.some_inj.1 hnum).symm⟩

/-- The string stands for every slot. -/
theorem slotsRead_wholeRange : slotsRead wholeRange = List.range partitionModKeyNat := by
  have hwords := readWords_spelled
    (List.Forall₂.cons ⟨wholeRange_spelled, wholeRange_valid⟩ List.Forall₂.nil)
  unfold slotsRead
  rw [partitionWords_single (by decide) (by decide), hwords, List.flatMap_singleton,
    List.range_eq_range']
  rfl

/-- The one partition has every slot. -/
theorem manyServices_covers {n : Nat} (h : Loaded (manyServices n) db) (hnum : db.partitionNum = 1) :
    db.Covers :=
  h.covers_single (oneString_short (by decide) (by decide)) hnum slotsRead_wholeRange

theorem manyServices_copies (n : Nat) (m : Mode) : (manyServices n).copies m 0 = n := by
  have hcopy : (manyServices n).isCopy m 0 plainService = true := by
    cases m <;> rfl
  unfold Configure.copies
  show ((List.replicate n plainService).filter ((manyServices n).isCopy m 0)).length = n
  rw [List.filter_replicate_of_pos hcopy, List.length_replicate]

/-- 65 services of one partition: the last one is stored behind the array. -/
theorem capacity_not_kept :
    ¬ ∀ (conf : Configure) (db : MetaDbInfo) (r : RouterState Nat), IsFlag r.routerNextFlag →
      Returns (metaLoadConf conf) {} () db → (∃ table out, r.build table db = some (0, out)) →
      CapacityKept r db := by
  intro hall
  obtain ⟨db, hdb, hnum⟩ := manyServices_returns 65
  have hload := metaLoadConf_loaded hdb
  have hcov := manyServices_covers hload hnum
  have hmode : db.shardMode = 0 := (Option.some_inj.1 hload.shardMode).symm
  have hle : db.passes ≤ partitionModKeyNat := by
    refine Nat.le_trans db.passes_le ?_
    rw [hnum]
    decide
  have hkept := hall _ db routerInit (Or.inl rfl) hdb
    ⟨0, RouterState.build_of_covers (Or.inl rfl) hmode hcov hle 0⟩
  have hlen := (copies_below_iff db.services maxCopyNum).1 hkept.copies .r 0
  rw [hload.sharedBy_length, manyServices_copies] at hlen
  exact absurd hlen (by decide)

theorem capacity_kept_iff_witness :
    ∃ db, Returns (metaLoadConf (manyServices 2)) {} () db
      ∧ (CapacityKept (routerInit : RouterState Nat) db
        ↔ (∀ m j, (manyServices 2).copies m j ≤ maxCopyNum)
          ∧ ∀ n ∈ (manyServices 2).dbShardPartitionNum, n.toNat ≤ partitionModKeyNat) := by
  obtain ⟨db, hdb, hnum⟩ := manyServices_returns 2
  have hload := metaLoadConf_loaded hdb
  have hmode : db.shardMode = 0 := (Option.some_inj.1 hload.shardMode).symm
  exact ⟨db, hdb, capacity_kept_iff hdb
    (RouterState.accepts_iff.2 ⟨hmode, manyServices_covers hload hnum⟩)⟩

end RedisAgent
