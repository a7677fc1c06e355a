/-
  RedisAgent.Meta.Db — the configuration of a database, as meta.h keeps it.

  Arrays that `calloc` makes are functions from the index, zero everywhere; an
  array with a counter beside it (`num`, `service_num`, `user_num`) is the list of
  its entries.  `partitions` and `service` have room for 65536 and 64 of them: a longer
  list has been written behind the array, and means nothing from there on.  Whether a
  file makes one is asked where it matters (`CapacityKept`, `Configure.Fits`).
-/
import RedisAgent.Lib.Words
import RedisAgent.Meta.Auth

namespace RedisAgent

/-- `PARTITION_MOD_KEY` as a number of slots. -/
def partitionModKeyNat : Nat := 65536

/-- `meta_service_info_t` -/
structure MetaServiceInfo where
  id : Nat := 0
  serviceName : CString := []
  addr : CString := []
  port : UInt32 := 0
  partition : UInt32 := 0
  canRead : Bool := false
  canWrite : Bool := false
  idcName : CString := []
  machineRoomName : CString := []
  deriving Repr, DecidableEq

/-- `meta_partition_info_t`: `num` is the length of `partitions`, which has room for
65536. -/
structure MetaPartitionInfo where
  id : Nat := 0
  partitions : List Nat := []
  deriving Repr, DecidableEq

/-- The two halves of the service tables and of the pool tables: those for reading
(`_r`) and those for writing (`_w`). -/
inductive Mode
  | r
  | w
  deriving Repr, DecidableEq

/-- `meta_db_info_t`, as `calloc` leaves it.  `partitionService` is
`partition_service_r` and `partition_service_w`, each with room for 64 services of a
partition. -/
structure MetaDbInfo where
  pid : CString := []
  dbName : CString := []
  machineRoom : CString := []
  shardMode : UInt32 := 0
  connectPerService : UInt32 := 0
  timeout : UInt32 := 0
  timeoutSec : UInt32 := 0
  timeoutUsec : UInt32 := 0
  longConnect : Bool := false
  getConnectRetry : UInt32 := 0
  readIdcOnly : Int32 := 0
  readRoomOnly : Int32 := 0
  serverIdcName : CString := []
  serverMachineRoomName : CString := []
  services : List MetaServiceInfo := []
  users : List MetaUserInfo := []
  partitionNum : UInt32 := 0
  partition : Nat → MetaPartitionInfo := fun _ => {}
  partitionService : Mode → Nat → List MetaServiceInfo := fun _ _ => []

/-- `int partition_num = db->partition_num`, as the number of passes of a loop up to
it. -/
def MetaDbInfo.passes (db : MetaDbInfo) : Nat := db.partitionNum.toInt32.toInt.toNat

theorem MetaDbInfo.passes_of_small {db : MetaDbInfo} (h : db.partitionNum.toNat < 2 ^ 31) :
    db.passes = db.partitionNum.toNat := by
  unfold MetaDbInfo.passes
  rw [toInt32_of_small h]
  rfl

/-- A number of partitions that is negative as an `int` makes no pass. -/
theorem MetaDbInfo.passes_of_big {db : MetaDbInfo} (h : ¬ db.partitionNum.toNat < 2 ^ 31) :
    db.passes = 0 := by
  unfold MetaDbInfo.passes
  have hneg : db.partitionNum.toInt32.toInt = (db.partitionNum.toNat : Int) - 2 ^ 32 := by
    show db.partitionNum.toBitVec.toInt = _
    rw [BitVec.toInt_eq_toNat_cond, if_neg]
    · rfl
    · show ¬ 2 * db.partitionNum.toNat < 2 ^ 32
      omega
  have hlt : db.partitionNum.toNat < 2 ^ 32 := db.partitionNum.toNat_lt
  rw [hneg]
  omega

theorem MetaDbInfo.passes_of_le {db : MetaDbInfo}
    (h : db.partitionNum.toNat ≤ partitionModKeyNat) : db.passes = db.partitionNum.toNat := by
  unfold partitionModKeyNat at h
  exact MetaDbInfo.passes_of_small (by omega)

end RedisAgent
