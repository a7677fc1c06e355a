/-
  RedisAgent.Meta.Load — `_meta_load_conf`: from the configuration file to the tables.

  comcfg returns each value or raises: `none` is a value that raises where the code
  catches, and that comes with an error code where the code asks for one.  The
  function returns -1 in the middle when a value is missing, and leaves the tables as
  they stand then.

  `Loaded` says which tables belong to a configuration.

  Main results:
    • `metaLoadConf_loaded` — what `_meta_load_conf` succeeds with is the table of the
      configuration;
    • `metaLoadConf_returns` — and it succeeds where every value is there.
-/
import RedisAgent.Lib.Returns
import RedisAgent.Meta.Partition

namespace RedisAgent

/-! ## §1. The configuration file. -/

/-- A section `[..@Service]`. -/
structure ConfService where
  serviceName : Option CString
  serviceAddr : Option CString
  servicePort : Option UInt32
  servicePartition : Option UInt32
  serviceCanRead : Option Int32
  serviceCanWrite : Option Int32
  serviceMachineRoom : Option CString
  serviceIdc : Option CString

/-- A section `[..@User]`. -/
structure ConfUser where
  userName : Option CString
  userTk : Option CString
  userPower : Option Int32

/-- `comcfg::Configure`, as far as it is read: `superStrategyMachineRoom` is
`["SuperStrategy"]["Machine_Room"]`, `dbs` the number of sections `[@Db]`, and the
fields after it are those of `["Db"][0]`, `dbShardPartition` by the name of the
entry. -/
structure Configure where
  superStrategyMachineRoom : Option CString
  serverMachineRoom : Option CString
  serverIdc : Option CString
  dbs : Option Nat
  dbPid : Option CString
  dbName : Option CString
  dbConnectType : Option CString
  dbConnectNum : Option UInt32
  dbConnectProcessTimeoutMs : Option UInt32
  dbConnectGetConnectRetryNum : Option UInt32
  dbConnectReadRoomOnly : Option Int32
  dbConnectReadIdcOnly : Option Int32
  dbShardMode : Option UInt32
  dbShardPartitionNum : Option UInt32
  dbShardPartition : String → Option CString
  services : Option (List ConfService)
  users : Option (List ConfUser)

/-- `get_cstr(buf, n)`: as much as the buffer holds, with the terminating zero. -/
def getCstr (n : Nat) (s : CString) : CString := (s.takeWhile (fun c => c != 0)).take (n - 1)

/-- `MAX_DB_NAME_LEN`, `MAX_PID_LEN`, `MAX_UNAME_LEN`, `MAX_TK_LEN`, `MAX_IDC_NAME_LEN`,
`MAX_MACHINE_ROOM_NAME_LEN` and the length of `service_name` are all 32. -/
def maxNameLen : Nat := 32

/-- `MAX_ADDR_LEN` of a service. -/
def maxAddrLen : Nat := 128

/-- `PARTITION_INFO_SIZE` -/
def partitionInfoSize : Nat := 5120

/-- `snprintf(cname, 25, "Db_Shard_Partition%d", j)` -/
def partitionKey (j : Nat) : String :=
  String.ofList (("Db_Shard_Partition" ++ toString (Int32.ofNat j).toInt).toList.take 24)

/-! ## §2. The code. -/

/-- `return -1` leaves the function with what is in `meta->dbs[i]` by then. -/
abbrev LoadM := EStateM Int MetaDbInfo

/-- A value, or `return -1`. -/
def fetch {α : Type} : Option α → LoadM α
  | some a => pure a
  | none => throw (-1)

/-- The first `try` block; it returns `isLong`. -/
def loadBasic (conf : Configure) : LoadM CString := do
  let machineRoom ← fetch conf.superStrategyMachineRoom
  modify (fun db => { db with machineRoom := getCstr maxNameLen machineRoom })
  let pid ← fetch conf.dbPid
  modify (fun db => { db with pid := getCstr maxNameLen pid })
  let dbName ← fetch conf.dbName
  modify (fun db => { db with dbName := getCstr maxNameLen dbName })
  let isLong ← fetch conf.dbConnectType
  let connectPerService ← fetch conf.dbConnectNum
  modify (fun db => { db with connectPerService := connectPerService })
  let timeout ← fetch conf.dbConnectProcessTimeoutMs
  modify (fun db => { db with timeout := timeout })
  let getConnectRetry ← fetch conf.dbConnectGetConnectRetryNum
  modify (fun db => { db with getConnectRetry := getConnectRetry })
  let shardMode ← fetch conf.dbShardMode
  modify (fun db => { db with shardMode := shardMode })
  let partitionNum ← fetch conf.dbShardPartitionNum
  modify (fun db => { db with partitionNum := partitionNum })
  return getCstr 5 isLong

/-- "support for idc & machineroom" -/
def loadRoomAndIdc (conf : Configure) : LoadM Unit := do
  modify (fun db => { db with readRoomOnly := conf.dbConnectReadRoomOnly.getD 0 })
  if conf.dbConnectReadRoomOnly.getD 0 ≠ 0 then
    let name ← fetch conf.serverMachineRoom
    modify (fun db => { db with serverMachineRoomName := getCstr maxNameLen name })
  modify (fun db => { db with readIdcOnly := conf.dbConnectReadIdcOnly.getD 1 })
  if conf.dbConnectReadIdcOnly.getD 1 ≠ 0 then
    let name ← fetch conf.serverIdc
    modify (fun db => { db with serverIdcName := getCstr maxNameLen name })

/-- The timeouts, and whether connections are kept. -/
def MetaDbInfo.setTimes (db : MetaDbInfo) (isLong : CString) : MetaDbInfo :=
  { db with
    timeoutSec := db.timeout / 1000
    timeoutUsec := (db.timeout % 1000) * 1000
    longConnect := decide (isLong ≠ [76, 79, 78, 71]) }

/-- Partition `j`, which gets the string `partitionStr`; what `_meta_load_partition`
returns goes into a log line only. -/
def MetaDbInfo.setPartition (db : MetaDbInfo) (j : Nat) (partitionStr : CString) : MetaDbInfo :=
  { db with
    partition := Function.update db.partition j
      (metaLoadPartition j (getCstr partitionInfoSize partitionStr)).2 }

/-- One pass of the loop over the partitions. -/
def loadPartition (conf : Configure) (j : Nat) : LoadM Unit := do
  let partitionStr ← fetch (conf.dbShardPartition (partitionKey j))
  modify (fun db => db.setPartition j partitionStr)

/-- Service `j`, from its section to the check of its partition.  With `ReadIdcOnly` it
can be read only from its own idc, with `ReadRoomOnly` only from its own room. -/
def readService (db : MetaDbInfo) (conf : ConfService) (j : Nat) : Option MetaServiceInfo := do
  let serviceName ← conf.serviceName
  let addr ← conf.serviceAddr
  let port ← conf.servicePort
  let partition ← conf.servicePartition
  let canRead ← conf.serviceCanRead
  let canWrite ← conf.serviceCanWrite
  let room ← if db.readRoomOnly ≠ 0 then conf.serviceMachineRoom else some []
  let idc ← if db.readIdcOnly ≠ 0 then conf.serviceIdc else some []
  let idcName := getCstr maxNameLen idc
  let machineRoomName := getCstr maxNameLen room
  let service : MetaServiceInfo :=
    { id := j
      serviceName := getCstr maxNameLen serviceName
      addr := getCstr maxAddrLen addr
      port := port
      partition := partition
      canRead := decide (canRead ≠ 0)
        && !(decide (db.readIdcOnly ≠ 0) && decide (idcName ≠ db.serverIdcName))
        && !(decide (db.readRoomOnly ≠ 0) && decide (machineRoomName ≠ db.serverMachineRoomName))
      canWrite := decide (canWrite ≠ 0)
      idcName := idcName
      machineRoomName := machineRoomName }
  if db.partitionNum ≤ partition then none else some service

/-- `service[service_num] = service; service_num ++` -/
def MetaDbInfo.toPartition (db : MetaDbInfo) (m : Mode) (service : MetaServiceInfo) : MetaDbInfo :=
  { db with
    partitionService := Function.update db.partitionService m
      (Function.update (db.partitionService m) service.partition.toNat
        (db.partitionService m service.partition.toNat ++ [service])) }

/-- A service that has passed the checks. -/
def MetaDbInfo.addService (db : MetaDbInfo) (service : MetaServiceInfo) : MetaDbInfo :=
  let db := { db with services := db.services ++ [service] }
  let db := if service.canRead then db.toPartition .r service else db
  if service.canWrite then db.toPartition .w service else db

/-- One pass of the loop over the services. -/
def loadService (x : ConfService × Nat) : LoadM Unit := do
  let db ← get
  let service ← fetch (readService db x.1 x.2)
  modify (fun db => db.addService service)

/-- What happens to the user that is loaded. -/
def MetaDbInfo.setUser (db : MetaDbInfo) (f : MetaUserInfo → MetaUserInfo) : MetaDbInfo :=
  { db with users := db.users.modify (db.users.length - 1) f }

/-- One pass of the loop over the users. -/
def loadUser (conf : ConfUser) : LoadM Unit := do
  modify (fun db => { db with users := db.users ++ [⟨[], [], 0⟩] })
  let uname ← fetch conf.userName
  modify (fun db => db.setUser (fun user => { user with uname := getCstr maxNameLen uname }))
  let tk ← fetch conf.userTk
  modify (fun db => db.setUser (fun user => { user with tk := getCstr maxNameLen tk }))
  let power ← fetch conf.userPower
  modify (fun db => db.setUser (fun user => { user with power := power.toInt }))

/-- `_meta_load_conf`, on the `db` that `calloc` returned. -/
def metaLoadConf (conf : Configure) : LoadM Unit := do
  let isLong ← loadBasic conf
  loadRoomAndIdc conf
  modify (fun db => db.setTimes isLong)
  let db ← get
  (List.range db.partitionNum.toNat).forM (loadPartition conf)
  let services ← fetch conf.services
  services.zipIdx.forM loadService
  let users ← fetch conf.users
  users.forM loadUser

/-! ## §3. The tables of a configuration. -/

/-- A service may be used for reading, or for writing. -/
def Mode.allows : Mode → MetaServiceInfo → Bool
  | .r, service => service.canRead
  | .w, service => service.canWrite

/-- The services of a partition. -/
def sharedBy (services : List MetaServiceInfo) (m : Mode) (j : Nat) : List MetaServiceInfo :=
  services.filter (fun service => decide (service.partition.toNat = j) && m.allows service)

/-- What `_meta_load_conf` reads before the tables. -/
structure LoadedHead (conf : Configure) (db : MetaDbInfo) : Prop where
  connectPerService : conf.dbConnectNum = some db.connectPerService
  timeout : conf.dbConnectProcessTimeoutMs = some db.timeout
  timeoutSec : db.timeoutSec = db.timeout / 1000
  timeoutUsec : db.timeoutUsec = (db.timeout % 1000) * 1000
  getConnectRetry : conf.dbConnectGetConnectRetryNum = some db.getConnectRetry
  shardMode : conf.dbShardMode = some db.shardMode
  partitionNum : conf.dbShardPartitionNum = some db.partitionNum
  readRoomOnly : db.readRoomOnly = conf.dbConnectReadRoomOnly.getD 0
  readIdcOnly : db.readIdcOnly = conf.dbConnectReadIdcOnly.getD 1
  serverMachineRoomName : db.readRoomOnly ≠ 0 →
    conf.serverMachineRoom.map (getCstr maxNameLen) = some db.serverMachineRoomName
  serverIdcName : db.readIdcOnly ≠ 0 → conf.serverIdc.map (getCstr maxNameLen) = some db.serverIdcName

/-- The user of a section. -/
def UserOf (conf : ConfUser) (user : MetaUserInfo) : Prop :=
  ∃ uname tk power, conf.userName = some uname ∧ conf.userTk = some tk ∧ conf.userPower = some power
    ∧ user = ⟨getCstr maxNameLen uname, getCstr maxNameLen tk, power.toInt⟩

/-- **The tables of a configuration.** -/
structure Loaded (conf : Configure) (db : MetaDbInfo) : Prop extends LoadedHead conf db where
  partition : ∀ j < db.partitionNum.toNat, ∃ partitionStr,
    conf.dbShardPartition (partitionKey j) = some partitionStr
      ∧ db.partition j = (metaLoadPartition j (getCstr partitionInfoSize partitionStr)).2
  services : ∃ sections, conf.services = some sections
    ∧ List.Forall₂ (fun (x : ConfService × Nat) service => readService db x.1 x.2 = some service)
        sections.zipIdx db.services
  partitionService : ∀ m j, db.partitionService m j = sharedBy db.services m j
  users : ∃ sections, conf.users = some sections ∧ List.Forall₂ UserOf sections db.users

/-! ## §4. What the stages return. -/

variable {conf : Configure} {db db' : MetaDbInfo}

/-! ### A service and its section. -/

/-- The service of a section, as far as it is there. -/
structure ServiceOf (db : MetaDbInfo) (conf : ConfService) (service : MetaServiceInfo) : Prop where
  addr : conf.serviceAddr.map (getCstr maxAddrLen) = some service.addr
  port : conf.servicePort = some service.port
  partition : conf.servicePartition = some service.partition
  partition_lt : service.partition < db.partitionNum
  canRead : service.canRead = (conf.serviceCanRead.any (fun v => decide (v ≠ 0))
    && !(decide (db.readIdcOnly ≠ 0) && decide (service.idcName ≠ db.serverIdcName))
    && !(decide (db.readRoomOnly ≠ 0) && decide (service.machineRoomName ≠ db.serverMachineRoomName)))
  canWrite : service.canWrite = conf.serviceCanWrite.any (fun v => decide (v ≠ 0))
  idcName : db.readIdcOnly ≠ 0 → conf.serviceIdc.map (getCstr maxNameLen) = some service.idcName
  machineRoomName : db.readRoomOnly ≠ 0 →
    conf.serviceMachineRoom.map (getCstr maxNameLen) = some service.machineRoomName

/-- What is made of the values of a section, once they are there. -/
theorem ServiceOf.of_values {x : ConfService} {j : Nat} {name addr room idc : CString}
    {port partition : UInt32} {canRead canWrite : Int32} {service : MetaServiceInfo}
    (haddr : x.serviceAddr = some addr) (hport : x.servicePort = some port)
    (hpart : x.servicePartition = some partition) (hread : x.serviceCanRead = some canRead)
    (hwrite : x.serviceCanWrite = some canWrite)
    (hroom : db.readRoomOnly ≠ 0 → x.serviceMachineRoom = some room)
    (hidc : db.readIdcOnly ≠ 0 → x.serviceIdc = some idc)
    (h : (if db.partitionNum ≤ partition then none
      else some
        { id := j
          serviceName := getCstr maxNameLen name
          addr := getCstr maxAddrLen addr
          port := port
          partition := partition
          canRead := decide (canRead ≠ 0)
            && !(decide (db.readIdcOnly ≠ 0) && decide (getCstr maxNameLen idc ≠ db.serverIdcName))
            && !(decide (db.readRoomOnly ≠ 0)
              && decide (getCstr maxNameLen room ≠ db.serverMachineRoomName))
          canWrite := decide (canWrite ≠ 0)
          idcName := getCstr maxNameLen idc
          machineRoomName := getCstr maxNameLen room }) = some service) : ServiceOf db x service := by
  split at h
  · cases h
  · rename_i hlt
    cases h
    refine ⟨?_, hport, hpart, UInt32.not_le.1 hlt, ?_, ?_, ?_, ?_⟩
    · rw [haddr]
      rfl
    · rw [hread]
      rfl
    · rw [hwrite]
      rfl
    · intro hon
      rw [hidc hon]
      rfl
    · intro hon
      rw [hroom hon]
      rfl

/-- **A service is what its section says.** -/
theorem readService_serviceOf {x : ConfService} {j : Nat} {service : MetaServiceInfo}
    (h : readService db x j = some service) : ServiceOf db x service := by
  unfold readService at h
  simp only [Option.bind_eq_bind] at h
  obtain ⟨name, -, h⟩ := Option.bind_eq_some_iff.1 h
  obtain ⟨addr, haddr, h⟩ := Option.bind_eq_some_iff.1 h
  obtain ⟨port, hport, h⟩ := Option.bind_eq_some_iff.1 h
  obtain ⟨partition, hpart, h⟩ := Option.bind_eq_some_iff.1 h
  obtain ⟨canRead, hread, h⟩ := Option.bind_eq_some_iff.1 h
  obtain ⟨canWrite, hwrite, h⟩ := Option.bind_eq_some_iff.1 h
  by_cases hr : db.readRoomOnly ≠ 0
  · rw [if_pos hr] at h
    obtain ⟨room, hroom, h⟩ := Option.bind_eq_some_iff.1 h
    by_cases hi : db.readIdcOnly ≠ 0
    · rw [if_pos hi] at h
      obtain ⟨idc, hidc, h⟩ := Option.bind_eq_some_iff.1 h
      exact .of_values haddr hport hpart hread hwrite (fun _ => hroom) (fun _ => hidc) h
    · rw [if_neg hi] at h
      exact .of_values haddr hport hpart hread hwrite (fun _ => hroom) (fun hon => absurd hon hi) h
  · rw [if_neg hr, Option.bind_some] at h
    by_cases hi : db.readIdcOnly ≠ 0
    · rw [if_pos hi] at h
      obtain ⟨idc, hidc, h⟩ := Option.bind_eq_some_iff.1 h
      exact .of_values haddr hport hpart hread hwrite (fun hon => absurd hon hr) (fun _ => hidc) h
    · rw [if_neg hi] at h
      exact .of_values haddr hport hpart hread hwrite (fun hon => absurd hon hr)
        (fun hon => absurd hon hi) h

/-! ### The stages. -/

theorem returns_fetch {α : Type} {v : Option α} {a : α} :
    Returns (fetch v) db a db' ↔ v = some a ∧ db' = db := by
  cases v with
  | none => exact iff_of_false returns_throw (by simp)
  | some x =>
      show Returns (pure x : LoadM α) db a db' ↔ _
      rw [returns_pure, Option.some_inj, eq_comm]

/-- **The head**: what stands before the first loop. -/
theorem head_loaded {l : CString} {db₁ db₂ : MetaDbInfo} (h₁ : Returns (loadBasic conf) {} l db₁)
    (h₂ : Returns (loadRoomAndIdc conf) db₁ () db₂) :
    LoadedHead conf (db₂.setTimes l) ∧ (db₂.setTimes l).services = [] ∧ (db₂.setTimes l).users = []
      ∧ (db₂.setTimes l).partitionService = fun _ _ => [] := by
  unfold loadBasic at h₁
  unfold loadRoomAndIdc at h₂
  simp only [returns_bind, returns_fetch, returns_modify, returns_pure, exists_and_left,
    exists_eq_left, exists_const, and_assoc] at h₁
  simp only [returns_bind, returns_fetch, returns_modify, returns_pure, exists_and_left,
    exists_eq_left, exists_const, and_assoc, returns_ite] at h₂
  obtain ⟨room, -, pid, -, name, -, long, -, num, hnum, ms, hms, retry, hretry, mode, hmode, pnum, hpnum,
    -, rfl⟩ := h₁
  rcases h₂ with ⟨hroom, r, hr, (⟨hidc, i, hi, rfl⟩ | ⟨hidc, -, rfl⟩)⟩ | ⟨hroom, (⟨hidc, i, hi, rfl⟩ | ⟨hidc, -, rfl⟩)⟩
  · refine ⟨⟨hnum, hms, rfl, rfl, hretry, hmode, hpnum, rfl, rfl, fun _ => ?_, fun _ => ?_⟩, rfl, rfl, rfl⟩
    · rw [hr]; rfl
    · rw [hi]; rfl
  · refine ⟨⟨hnum, hms, rfl, rfl, hretry, hmode, hpnum, rfl, rfl, fun _ => ?_, fun h => absurd h hidc⟩,
      rfl, rfl, rfl⟩
    rw [hr]; rfl
  · refine ⟨⟨hnum, hms, rfl, rfl, hretry, hmode, hpnum, rfl, rfl, fun h => absurd h hroom, fun _ => ?_⟩,
      rfl, rfl, rfl⟩
    rw [hi]; rfl
  · exact ⟨⟨hnum, hms, rfl, rfl, hretry, hmode, hpnum, rfl, rfl, fun h => absurd h hroom,
      fun h => absurd h hidc⟩, rfl, rfl, rfl⟩

/-- The loop over the partitions. -/
theorem partitions_returns (l : List Nat) (db db' : MetaDbInfo) (u : Unit) :
    Returns (l.forM (loadPartition conf)) db u db' ↔ ∃ vs : List (Nat × CString),
      List.Forall₂ (fun j v => v.1 = j ∧ conf.dbShardPartition (partitionKey j) = some v.2) l vs
        ∧ db' = vs.foldl (fun db v => db.setPartition v.1 v.2) db := by
  refine returns_loop
    (fun _ j (v : Nat × CString) => v.1 = j ∧ conf.dbShardPartition (partitionKey j) = some v.2)
    (fun db v => db.setPartition v.1 v.2) ?_ (fun _ _ _ _ => Iff.rfl) l db db' u
  intro j db u db'
  unfold loadPartition
  simp only [returns_bind, returns_fetch, returns_modify]
  constructor
  · rintro ⟨partitionStr, db₁, ⟨hstr, rfl⟩, rfl⟩
    exact ⟨(j, partitionStr), ⟨rfl, hstr⟩, rfl⟩
  · rintro ⟨⟨j', partitionStr⟩, ⟨rfl, hstr⟩, rfl⟩
    exact ⟨partitionStr, db, ⟨hstr, rfl⟩, rfl⟩

/-- What the loop over the partitions leaves. -/
theorem setPartitions (vs : List (Nat × CString)) (hnodup : (vs.map Prod.fst).Nodup) :
    ∀ db : MetaDbInfo, ∃ f, vs.foldl (fun db v => db.setPartition v.1 v.2) db = { db with partition := f }
      ∧ (∀ v ∈ vs, f v.1 = (metaLoadPartition v.1 (getCstr partitionInfoSize v.2)).2)
      ∧ ∀ j, j ∉ vs.map Prod.fst → f j = db.partition j := by
  induction vs with
  | nil => exact fun db => ⟨db.partition, rfl, nofun, fun _ _ => rfl⟩
  | cons v vs ih =>
      intro db
      rw [List.map_cons, List.nodup_cons] at hnodup
      obtain ⟨f, hf, hmem, hrest⟩ := ih hnodup.2 (db.setPartition v.1 v.2)
      refine ⟨f, ?_, ?_, ?_⟩
      · rw [List.foldl_cons, hf]
        rfl
      · intro w hw
        rcases List.mem_cons.1 hw with rfl | hw
        · rw [hrest w.1 hnodup.1]
          exact Function.update_self _ _ _
        · exact hmem w hw
      · intro j hj
        rw [List.map_cons, List.mem_cons, not_or] at hj
        rw [hrest j hj.2]
        exact Function.update_of_ne hj.1 _ _

/-- The loop over the services. -/
theorem services_returns (l : List (ConfService × Nat)) (db db' : MetaDbInfo) (u : Unit) :
    Returns (l.forM loadService) db u db' ↔ ∃ vs,
      List.Forall₂ (fun (x : ConfService × Nat) service => readService db x.1 x.2 = some service) l vs
        ∧ db' = vs.foldl MetaDbInfo.addService db := by
  refine returns_loop (fun db (x : ConfService × Nat) service => readService db x.1 x.2 = some service)
    MetaDbInfo.addService ?_ ?_ l db db' u
  · intro x db u db'
    unfold loadService
    simp only [returns_bind, returns_fetch, returns_modify, returns_get]
    constructor
    · rintro ⟨_, _, ⟨rfl, rfl⟩, service, _, ⟨hservice, rfl⟩, rfl⟩
      exact ⟨service, hservice, rfl⟩
    · rintro ⟨service, hservice, rfl⟩
      exact ⟨db, db, ⟨rfl, rfl⟩, service, db, ⟨hservice, rfl⟩, rfl⟩
  · intro db service x w
    -- what a section is read with does not depend on the services before it
    have hsame : readService (db.addService service) x.1 x.2 = readService db x.1 x.2 := by
      unfold MetaDbInfo.addService MetaDbInfo.toPartition readService
      cases service.canRead <;> cases service.canWrite <;> rfl
    rw [hsame]

/-- One service more. -/
theorem addService_eq (db : MetaDbInfo) (service : MetaServiceInfo) :
    db.addService service = { db with
      services := db.services ++ [service]
      partitionService := fun m j => db.partitionService m j ++ sharedBy [service] m j } := by
  have hto : ∀ (db : MetaDbInfo) (m : Mode),
      (if m.allows service = true then db.toPartition m service else db) = { db with
        partitionService := fun m' j => db.partitionService m' j
          ++ if m' = m then sharedBy [service] m j else [] } := by
    intro db m
    by_cases hm : m.allows service = true
    · rw [if_pos hm]
      unfold MetaDbInfo.toPartition
      congr 1
      funext m' j
      by_cases hm' : m' = m
      · subst hm'
        by_cases hj : j = service.partition.toNat
        · subst hj
          simp [sharedBy, hm]
        · have hj' : ¬ service.partition.toNat = j := fun he => hj he.symm
          simp [sharedBy, hj, hj']
      · simp [hm']
    · rw [if_neg hm]
      have hnone : ∀ j, sharedBy [service] m j = [] := by
        intro j
        simp [sharedBy, hm]
      simp [hnone]
  have hboth : db.addService service
      = (fun db => if Mode.w.allows service = true then db.toPartition .w service else db)
          ((fun db => if Mode.r.allows service = true then db.toPartition .r service else db)
            { db with services := db.services ++ [service] }) := rfl
  rw [hboth]
  simp only [hto]
  congr 1
  funext m j
  cases m <;> simp

/-- What the loop over the services leaves. -/
theorem addServices (vs : List MetaServiceInfo) : ∀ db : MetaDbInfo,
    vs.foldl MetaDbInfo.addService db = { db with
      services := db.services ++ vs
      partitionService := fun m j => db.partitionService m j ++ sharedBy vs m j } := by
  induction vs with
  | nil =>
      intro db
      simp [sharedBy]
  | cons v vs ih =>
      intro db
      rw [List.foldl_cons, ih, addService_eq]
      have hcons : ∀ m j, sharedBy [v] m j ++ sharedBy vs m j = sharedBy (v :: vs) m j := by
        intro m j
        unfold sharedBy
        rw [← List.filter_append, List.singleton_append]
      simp only [List.append_assoc, List.singleton_append, hcons]

/-- The user that is loaded is the last one. -/
theorem MetaDbInfo.setUser_concat (db : MetaDbInfo) (user : MetaUserInfo)
    (f : MetaUserInfo → MetaUserInfo) :
    MetaDbInfo.setUser { db with users := db.users ++ [user] } f
      = { db with users := db.users ++ [f user] } := by
  have hmodify : ∀ users : List MetaUserInfo,
      (users ++ [user]).modify users.length f = users ++ [f user] := by
    intro users
    induction users with
    | nil => rfl
    | cons x users ih => rw [List.cons_append, List.length_cons, List.modify_succ_cons, ih, List.cons_append]
  unfold MetaDbInfo.setUser
  simp only [List.length_append, List.length_singleton, Nat.add_sub_cancel, hmodify]

/-- The loop over the users. -/
theorem users_returns (l : List ConfUser) (db db' : MetaDbInfo) (u : Unit) :
    Returns (l.forM loadUser) db u db' ↔ ∃ vs, List.Forall₂ UserOf l vs
      ∧ db' = vs.foldl (fun db user => { db with users := db.users ++ [user] }) db := by
  refine returns_loop (fun _ => UserOf) (fun (db : MetaDbInfo) user =>
    { db with users := db.users ++ [user] }) ?_ (fun _ _ _ _ => Iff.rfl) l db db' u
  intro x db u db'
  unfold loadUser
  simp only [returns_bind, returns_fetch, returns_modify, exists_and_left, exists_eq_left,
    exists_const, and_assoc, MetaDbInfo.setUser_concat]
  constructor
  · rintro ⟨uname, hname, tk, htk, power, hpower, rfl⟩
    exact ⟨_, ⟨uname, tk, power, hname, htk, hpower, rfl⟩, rfl⟩
  · rintro ⟨_, ⟨uname, tk, power, hname, htk, hpower, rfl⟩, rfl⟩
    exact ⟨uname, hname, tk, htk, power, hpower, rfl⟩

theorem addUsers (vs : List MetaUserInfo) : ∀ db : MetaDbInfo,
    vs.foldl (fun db user => { db with users := db.users ++ [user] }) db
      = { db with users := db.users ++ vs } := by
  induction vs with
  | nil =>
      intro db
      simp
  | cons v vs ih =>
      intro db
      rw [List.foldl_cons, ih]
      simp

/-! ## §5. `_meta_load_conf`. -/

/-- A table only differs from its head in the lists, and these are not in `LoadedHead`. -/
theorem LoadedHead.congr (h : LoadedHead conf db) {partition : Nat → MetaPartitionInfo}
    {services : List MetaServiceInfo} {partitionService : Mode → Nat → List MetaServiceInfo}
    {users : List MetaUserInfo} : LoadedHead conf { db with
      partition := partition
      services := services
      partitionService := partitionService
      users := users } := ⟨h.connectPerService, h.timeout, h.timeoutSec, h.timeoutUsec,
  h.getConnectRetry, h.shardMode, h.partitionNum, h.readRoomOnly, h.readIdcOnly,
  h.serverMachineRoomName, h.serverIdcName⟩

/-- **`_meta_load_conf`**: what it succeeds with is the table of the configuration. -/
theorem metaLoadConf_loaded (h : Returns (metaLoadConf conf) {} () db) : Loaded conf db := by
  unfold metaLoadConf at h
  simp only [returns_bind, returns_fetch, returns_modify, returns_get, exists_and_left,
    exists_eq_left, exists_const, and_assoc, partitions_returns, services_returns, users_returns] at h
  obtain ⟨l, db₁, hbasic, u, db₂, hroom, db₃, ⟨vs, hvs, rfl⟩, sections, hsections, db₄,
    ⟨services, hservices, rfl⟩, users, husers, us, hus, rfl⟩ := h
  obtain ⟨hhead, hno, hnouser, hnone⟩ := head_loaded hbasic hroom
  generalize db₂.setTimes l = head at hvs hservices hhead hno hnouser hnone
  have hfst : vs.map Prod.fst = List.range head.partitionNum.toNat := by
    have hmap : List.Forall₂ Eq (List.range head.partitionNum.toNat) (vs.map Prod.fst) := by
      rw [List.forall₂_map_right_iff]
      exact hvs.imp (fun _ _ h => h.1.symm)
    rw [List.forall₂_eq_eq_eq] at hmap
    exact hmap.symm
  have hstrs : ∀ v ∈ vs, conf.dbShardPartition (partitionKey v.1) = some v.2 := by
    have hflip : List.Forall₂ (fun (v : Nat × CString) (j : Nat) =>
        conf.dbShardPartition (partitionKey v.1) = some v.2 ∧ v.1 = j) vs (List.range head.partitionNum.toNat) := by
      refine hvs.flip.imp ?_
      rintro v j ⟨rfl, hstr⟩
      exact ⟨hstr, rfl⟩
    exact (List.forall₂_and_left _ _).1 hflip |>.1
  obtain ⟨f, hf, hmem, -⟩ := setPartitions vs (by rw [hfst]; exact List.nodup_range) head
  rw [hf] at hservices ⊢
  rw [addServices, addUsers]
  refine ⟨hhead.congr, ?_, ⟨sections, hsections, ?_⟩, ?_, ⟨users, husers, ?_⟩⟩
  · intro j hj
    have hjmem : j ∈ vs.map Prod.fst := by
      rw [hfst]
      exact List.mem_range.2 hj
    obtain ⟨v, hv, rfl⟩ := List.mem_map.1 hjmem
    exact ⟨v.2, hstrs v hv, hmem v hv⟩
  · rw [hno]
    exact hservices.imp (fun x service hx => hx)
  · intro m j
    show head.partitionService m j ++ sharedBy services m j = sharedBy (head.services ++ services) m j
    rw [hnone, hno]
    rfl
  · show List.Forall₂ UserOf users (head.users ++ us)
    rw [hnouser]
    exact hus

/-- **A configuration that can be read**: every value is there, and every service is in
a partition. -/
structure Readable (conf : Configure) : Prop where
  machineRoom : conf.superStrategyMachineRoom.isSome
  pid : conf.dbPid.isSome
  dbName : conf.dbName.isSome
  connectType : conf.dbConnectType.isSome
  connectNum : conf.dbConnectNum.isSome
  timeout : conf.dbConnectProcessTimeoutMs.isSome
  getConnectRetry : conf.dbConnectGetConnectRetryNum.isSome
  shardMode : conf.dbShardMode.isSome
  partitionNum : conf.dbShardPartitionNum.isSome
  serverMachineRoom : conf.dbConnectReadRoomOnly.getD 0 ≠ 0 → conf.serverMachineRoom.isSome
  serverIdc : conf.dbConnectReadIdcOnly.getD 1 ≠ 0 → conf.serverIdc.isSome
  partition : ∀ n ∈ conf.dbShardPartitionNum, ∀ j < n.toNat,
    (conf.dbShardPartition (partitionKey j)).isSome
  services : ∃ sections, conf.services = some sections
    ∧ ∀ db, LoadedHead conf db → ∀ x ∈ sections.zipIdx, ∃ service, readService db x.1 x.2 = some service
  users : ∃ sections, conf.users = some sections ∧ ∀ user ∈ sections, ∃ info, UserOf user info

theorem loadBasic_returns (h : Readable conf) (db : MetaDbInfo) : ∃ l db', Returns (loadBasic conf) db l db' := by
  obtain ⟨room, hroom⟩ := Option.isSome_iff_exists.1 h.machineRoom
  obtain ⟨pid, hpid⟩ := Option.isSome_iff_exists.1 h.pid
  obtain ⟨name, hname⟩ := Option.isSome_iff_exists.1 h.dbName
  obtain ⟨long, hlong⟩ := Option.isSome_iff_exists.1 h.connectType
  obtain ⟨num, hnum⟩ := Option.isSome_iff_exists.1 h.connectNum
  obtain ⟨ms, hms⟩ := Option.isSome_iff_exists.1 h.timeout
  obtain ⟨retry, hretry⟩ := Option.isSome_iff_exists.1 h.getConnectRetry
  obtain ⟨mode, hmode⟩ := Option.isSome_iff_exists.1 h.shardMode
  obtain ⟨pnum, hpnum⟩ := Option.isSome_iff_exists.1 h.partitionNum
  unfold loadBasic
  simp only [returns_bind, returns_fetch, returns_modify, returns_pure, hroom, hpid, hname, hlong, hnum,
    hms, hretry, hmode, hpnum, Option.some_inj, exists_and_left, exists_eq_left, exists_eq_left',
    exists_const, and_assoc]
  exact ⟨_, rfl⟩

theorem loadRoomAndIdc_returns (h : Readable conf) (db : MetaDbInfo) :
    ∃ db', Returns (loadRoomAndIdc conf) db () db' := by
  unfold loadRoomAndIdc
  simp only [returns_bind, returns_fetch, returns_modify, returns_pure, returns_ite, exists_and_left,
    exists_eq_left, exists_const, and_assoc]
  by_cases hr : conf.dbConnectReadRoomOnly.getD 0 = 0
  · refine Exists.imp (fun _ => Or.inr) ?_
    by_cases hi : conf.dbConnectReadIdcOnly.getD 1 = 0
    · exact ⟨_, not_not.2 hr, Or.inr ⟨not_not.2 hi, trivial, rfl⟩⟩
    · obtain ⟨i, hserver⟩ := Option.isSome_iff_exists.1 (h.serverIdc hi)
      exact ⟨_, not_not.2 hr, Or.inl ⟨hi, i, hserver, rfl⟩⟩
  · obtain ⟨r, hroom⟩ := Option.isSome_iff_exists.1 (h.serverMachineRoom hr)
    refine Exists.imp (fun _ => Or.inl) ?_
    by_cases hi : conf.dbConnectReadIdcOnly.getD 1 = 0
    · exact ⟨_, hr, r, hroom, Or.inr ⟨not_not.2 hi, trivial, rfl⟩⟩
    · obtain ⟨i, hserver⟩ := Option.isSome_iff_exists.1 (h.serverIdc hi)
      exact ⟨_, hr, r, hroom, Or.inl ⟨hi, i, hserver, rfl⟩⟩

/-- **What can be read is loaded.** -/
theorem metaLoadConf_returns (h : Readable conf) : ∃ db, Returns (metaLoadConf conf) {} () db := by
  obtain ⟨l, db₁, hbasic⟩ := loadBasic_returns h {}
  obtain ⟨db₂, hroom⟩ := loadRoomAndIdc_returns h db₁
  obtain ⟨hhead, -, -, -⟩ := head_loaded hbasic hroom
  generalize hdb : db₂.setTimes l = head at hhead
  have hstrs : ∀ j ∈ List.range head.partitionNum.toNat, ∃ v : Nat × CString,
      v.1 = j ∧ conf.dbShardPartition (partitionKey j) = some v.2 := by
    intro j hj
    obtain ⟨str, hstr⟩ := Option.isSome_iff_exists.1
      (h.partition _ hhead.partitionNum j (List.mem_range.1 hj))
    exact ⟨(j, str), rfl, hstr⟩
  obtain ⟨vs, hvs⟩ := exists_forall₂ hstrs
  have hkeep : ∀ (vs : List (Nat × CString)) (db : MetaDbInfo), LoadedHead conf db →
      LoadedHead conf (vs.foldl (fun db v => db.setPartition v.1 v.2) db) := by
    intro vs
    induction vs with
    | nil => exact fun db h => h
    | cons v vs ih => exact fun db h => ih _ h.congr
  obtain ⟨sections, hsections, hservices⟩ := h.services
  obtain ⟨services, hservices⟩ := exists_forall₂ (hservices _ (hkeep vs head hhead))
  obtain ⟨users, husers, hus⟩ := h.users
  obtain ⟨us, hus⟩ := exists_forall₂ hus
  unfold metaLoadConf
  simp only [returns_bind, returns_fetch, returns_modify, returns_get, exists_and_left,
    exists_eq_left, exists_const, and_assoc, partitions_returns, services_returns, users_returns]
  refine ⟨_, l, db₁, hbasic, (), db₂, hroom, _, ⟨vs, ?_, rfl⟩, sections, hsections, _,
    ⟨services, ?_, rfl⟩, users, husers, us, hus, rfl⟩
  · rw [hdb]
    exact hvs
  · rw [hdb]
    exact hservices

/-! ### The failures. -/

theorem fetch_stops {α : Type} (o : Option α) : StopsWith (-1) (fetch o) := by
  cases o with
  | some a => exact stopsWith_pure a
  | none => exact stopsWith_throw

/-- A value is fetched, and stored. -/
theorem fetchInto_stops {α : Type} (o : Option α) (f : α → MetaDbInfo → MetaDbInfo) {β : Type}
    {k : LoadM β} (hk : StopsWith (-1) k) :
    StopsWith (-1) (fetch o >>= fun a => modify (f a) >>= fun _ => k) :=
  (fetch_stops o).bind fun a => (stopsWith_modify (f a)).bind fun _ => hk

theorem loadBasic_stops (conf : Configure) : StopsWith (-1) (loadBasic conf) := by
  unfold loadBasic
  refine fetchInto_stops _ _ (fetchInto_stops _ _ (fetchInto_stops _ _ ?_))
  refine (fetch_stops _).bind fun isLong => ?_
  refine fetchInto_stops _ _ (fetchInto_stops _ _ (fetchInto_stops _ _ ?_))
  exact fetchInto_stops _ _ (fetchInto_stops _ _ (stopsWith_pure _))

theorem loadRoomAndIdc_stops (conf : Configure) : StopsWith (-1) (loadRoomAndIdc conf) := by
  unfold loadRoomAndIdc
  refine (stopsWith_modify _).bind fun _ => ?_
  by_cases hroom : conf.dbConnectReadRoomOnly.getD 0 ≠ 0
  · simp only [if_pos hroom]
    refine fetchInto_stops _ _ ((stopsWith_modify _).bind fun _ => ?_)
    by_cases hidc : conf.dbConnectReadIdcOnly.getD 1 ≠ 0
    · simp only [if_pos hidc]
      exact (fetch_stops _).bind fun _ => stopsWith_modify _
    · simp only [if_neg hidc]
      exact stopsWith_pure _
  · simp only [if_neg hroom]
    refine (stopsWith_modify _).bind fun _ => ?_
    by_cases hidc : conf.dbConnectReadIdcOnly.getD 1 ≠ 0
    · simp only [if_pos hidc]
      exact (fetch_stops _).bind fun _ => stopsWith_modify _
    · simp only [if_neg hidc]
      exact stopsWith_pure _

/-- **`_meta_load_conf` fails with -1.** -/
theorem metaLoadConf_stops (conf : Configure) : StopsWith (-1) (metaLoadConf conf) := by
  unfold metaLoadConf
  refine (loadBasic_stops conf).bind fun isLong => (loadRoomAndIdc_stops conf).bind fun _ => ?_
  refine (stopsWith_modify _).bind fun _ => stopsWith_get.bind fun db => ?_
  refine (StopsWith.forM (fun j => ?_) _).bind fun _ => ?_
  · exact (fetch_stops _).bind fun _ => stopsWith_modify _
  · refine (fetch_stops _).bind fun services => (StopsWith.forM (fun x => ?_) _).bind fun _ => ?_
    · exact stopsWith_get.bind fun db => (fetch_stops _).bind fun _ => stopsWith_modify _
    · refine (fetch_stops _).bind fun users => StopsWith.forM (fun x => ?_) _
      refine (stopsWith_modify _).bind fun _ => ?_
      refine fetchInto_stops _ _ (fetchInto_stops _ _ ?_)
      exact (fetch_stops _).bind fun _ => stopsWith_modify _

end RedisAgent
