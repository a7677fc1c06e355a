/-
  RedisAgent.Router.Build — the two halves of the router and the switch between them.

  `router_build` fills the half that is not in force with new pools, makes it the
  one in force, and destroys the pools of the other.  A pool that is gone reports
  back through `_router_on_destroy`, at once or much later.

  A pool pointer is an address, `NULL` is `none`.  `_pool_map_r` and `_pool_map_w`
  are `poolMap .r` and `poolMap .w`, the counts likewise.  A pool is told apart from
  all others by `m_poolIdx`: the index of its slot, negative for a write pool.  An
  access outside an array has no result (`none`).

  `table` is the address of the `meta_db_info_t` that `meta_get_db_info` returns, and
  `db` what stands there; the name of the machine room is not copied, so a pool keeps
  a pointer into that table.

  `_router_on_destroy` is called by the last `_pool_server_destroyed` of a pool, in
  the last pass of `pool_destroy` or in some later callback, and is in both the last
  thing that happens to the pool.
-/
import RedisAgent.Meta.Db
import RedisAgent.Pool.Array
import RedisAgent.Router.Acquire

namespace RedisAgent

variable {σ : Type*}

/-! ## §1. The records. -/

/-- `pool_service_conf_t` -/
structure PoolServiceConf where
  addr : CString
  port : UInt32
  deriving Repr, DecidableEq

/-- `pool_info_t` as the router sees it: `servers` are the addresses of the servers
it was built with, `machineRoom` is the table `m_machineRoom` points into, `freed`
says that `free(pool)` has run. -/
structure RouterPool (σ : Type*) where
  poolIdx : Int
  servers : List PoolServiceConf
  machineRoom : Nat
  cTimeOutMs : Int
  longConnect : Bool
  info : PoolInfo σ
  freed : Bool

/-- The globals of router.cpp, and the heap the pools are in: `brk` is the next
address `calloc` returns. -/
structure RouterState (σ : Type*) where
  routerFlag : Int
  routerNextFlag : Int
  routerSwitching : Bool
  poolMap : Mode → Int → Option Nat
  poolNum : Mode → Int → Int
  routerMap : Int → Nat → Nat
  heap : Nat → Option (RouterPool σ)
  brk : Nat

/-- `router_init` -/
def routerInit : RouterState σ where
  routerFlag := 1
  routerNextFlag := 0
  routerSwitching := false
  poolMap := fun _ _ => none
  poolNum := fun _ _ => 0
  routerMap := fun _ _ => 0
  heap := fun _ => none
  brk := 0

/-- `m_poolIdx` of the pool in slot `k`: "the id of a write pool is -id-1". -/
def Mode.poolIdx : Mode → Int → Int
  | .r, k => k
  | .w, k => -k - 1

/-- The slot `_router_on_destroy` reads off `m_poolIdx`. -/
def slotOf (poolIdx : Int) : Mode × Int :=
  if 0 ≤ poolIdx then (.r, poolIdx) else (.w, -poolIdx - 1)

/-- What a request sees of the router: `_shard_func_part` is the only function ever
stored in `_shard_func`. -/
def RouterState.router (r : RouterState σ) : Router (Option Nat) where
  routerFlag := r.routerFlag
  shardFunc := fun _ key => r.routerMap r.routerFlag (key.toUInt32.toNat % 65536)
  poolMapR := r.poolMap .r
  poolMapW := r.poolMap .w

/-! ## §2. `_shard_init_part`. -/

/-- `router_map` and `partition_check` while they are filled. -/
structure ShardParts where
  routerMap : Nat → Nat
  partitionCheck : Nat → Bool

/-- The inner loop: the slots `ps` of partition `i`.  The first component says
whether it ran to its end. -/
def shardInitSlots (i : Nat) : List Nat → ShardParts → Option (Bool × ShardParts)
  | [], m => some (true, m)
  | p :: ps, m =>
      if p < partitionModKeyNat then
        if m.partitionCheck p then some (false, m)
        else
          shardInitSlots i ps
            ⟨Function.update m.routerMap p i, Function.update m.partitionCheck p true⟩
      else none

/-- The outer loop, over the partitions `is`. -/
def shardInitParts (db : MetaDbInfo) : List Nat → ShardParts → Option (Bool × ShardParts)
  | [], m => some (true, m)
  | i :: is, m =>
      match shardInitSlots i (db.partition i).partitions m with
      | some (true, m) => shardInitParts db is m
      | res => res

/-- `_shard_init_part` -/
def RouterState.shardInitPart (r : RouterState σ) (db : MetaDbInfo) :
    Option (Int × RouterState σ) :=
  (shardInitParts db (List.range db.passes) ⟨fun _ => 0, fun _ => false⟩).map (fun (done, m) =>
    let r := { r with routerMap := Function.update r.routerMap r.routerNextFlag m.routerMap }
    if done && (List.range partitionModKeyNat).all m.partitionCheck then (0, r) else (-1, r))

/-! ## §3. `_shard_build_pool`. -/

/-- `sc[j]` of the service `service`. -/
def poolServiceConf (service : MetaServiceInfo) : PoolServiceConf :=
  ⟨service.addr.take 128, service.port⟩

/-- One pass of the loop over the read or the write partitions. -/
def RouterState.newPool (r : RouterState σ) (table : Nat) (db : MetaDbInfo) (m : Mode) (i : Nat) :
    RouterState σ :=
  let sc := (db.partitionService m i).map poolServiceConf
  let k := partitionModKey * r.routerNextFlag + i
  { r with
    heap := Function.update r.heap r.brk (some
      { poolIdx := m.poolIdx k
        servers := sc
        machineRoom := table
        cTimeOutMs := db.timeout.toInt32.toInt
        longConnect := db.longConnect
        info := poolBuild sc.length db.connectPerService.toInt32.toInt
          db.getConnectRetry.toInt32.toInt
        freed := false })
    brk := r.brk + 1
    poolMap := Function.update r.poolMap m (Function.update (r.poolMap m) k (some r.brk))
    poolNum := Function.update r.poolNum m
      (Function.update (r.poolNum m) r.routerNextFlag (r.poolNum m r.routerNextFlag + 1)) }

/-- `_shard_build_pool` -/
def RouterState.shardBuildPool (r : RouterState σ) (table : Nat) (db : MetaDbInfo) :
    Option (RouterState σ) :=
  if partitionModKey * r.routerNextFlag + db.passes ≤ 2 * partitionModKey then
    let r := (List.range db.passes).foldl (fun r i => r.newPool table db .r i) r
    some ((List.range db.passes).foldl (fun r i => r.newPool table db .w i) r)
  else none

/-! ## §4. The destruction of pools. -/

/-- `_router_on_destroy(pool)` for the pool at `a`. -/
def RouterState.onDestroy (r : RouterState σ) (a : Nat) (pool : RouterPool σ) : RouterState σ :=
  let (m, k) := slotOf pool.poolIdx
  let r := { r with
    poolMap := Function.update r.poolMap m (Function.update (r.poolMap m) k none)
    poolNum := Function.update r.poolNum m
      (Function.update (r.poolNum m) r.routerNextFlag (r.poolNum m r.routerNextFlag - 1))
    heap := Function.update r.heap a (some { pool with freed := true }) }
  if r.poolNum .r r.routerNextFlag = 0 ∧ r.poolNum .w r.routerNextFlag = 0 then
    { r with routerSwitching := false }
  else r

/-- Store what happened to the pool at `a`; its owner is told when it is gone. -/
def RouterState.onPool (r : RouterState σ) (a : Nat) (pool : RouterPool σ)
    (res : PoolInfo σ × Calls σ) : RouterState σ :=
  let pool := { pool with info := res.1 }
  let r := { r with heap := Function.update r.heap a (some pool) }
  if res.2.any (fun c => c.2.isPoolDestroyed) then r.onDestroy a pool else r

/-- `pool_destroy(pool, _router_on_destroy)`.  `Switch` shows that the pointer is
never `NULL`. -/
def RouterState.poolDestroy (r : RouterState σ) : Option Nat → RouterState σ
  | none => r
  | some a =>
      match r.heap a with
      | none => r
      | some pool => r.onPool a pool (RedisAgent.poolDestroy pool.info)

/-- One of the two loops of `router_destroy`. -/
def RouterState.destroyLoop (m : Mode) (n : Nat) (r : RouterState σ) : RouterState σ :=
  (List.range n).foldl
    (fun r (i : Nat) => r.poolDestroy (r.poolMap m (partitionModKey * r.routerNextFlag + i))) r

/-- `router_destroy` -/
def RouterState.destroy (r : RouterState σ) : RouterState σ :=
  let poolNumR := r.poolNum .r r.routerNextFlag
  let poolNumW := r.poolNum .w r.routerNextFlag
  if poolNumR = 0 ∧ poolNumW = 0 then { r with routerSwitching := false }
  else (r.destroyLoop .r poolNumR.toNat).destroyLoop .w poolNumW.toNat

/-! ## §5. `router_build`. -/

/-- "do switching" -/
def RouterState.switch (r : RouterState σ) : RouterState σ :=
  { r with
    routerFlag := r.routerNextFlag
    routerNextFlag := if r.routerNextFlag = 0 then 1 else 0 }

/-- `router_build` with what `meta_get_db_info` returns, up to "destroy old pools". -/
def RouterState.buildSwitch (r : RouterState σ) (table : Nat) (db : MetaDbInfo) :
    Option (Int × RouterState σ) :=
  let r := { r with routerSwitching := true }
  if db.shardMode = 0 then
    match r.shardInitPart db with
    | none => none
    | some (ret, r) =>
        if ret ≠ 0 then some (ret, { r with routerSwitching := false })
        else (r.shardBuildPool table db).map (fun r => (0, r.switch))
  else some (-1, r)

/-- `router_build` -/
def RouterState.build (r : RouterState σ) (table : Nat) (db : MetaDbInfo) :
    Option (Int × RouterState σ) :=
  (r.buildSwitch table db).map (fun (ret, r) => if ret = 0 then (0, r.destroy) else (ret, r))

/-! ## §6. Runs. -/

/-- What happens at the router. -/
inductive RouterOp (σ : Type*)
  /-- `router_build` -/
  | build (table : Nat) (db : MetaDbInfo)
  /-- an entry into server `i` of the pool at `a` -/
  | pool (a i : Nat) (op : SrvOp σ)

/-- The router, the configuration in force and the one it replaced. -/
structure RouterRun (σ : Type*) where
  router : RouterState σ
  inForce : Option MetaDbInfo
  replaced : Option MetaDbInfo

/-- The state after one operation; a `router_build` without result, or one that
fails, is not among the operations of a run. -/
def RouterRun.exec (s : RouterRun σ) : RouterOp σ → RouterRun σ
  | .build table db =>
      match s.router.build table db with
      | some (0, r) => ⟨r, some db, s.inForce⟩
      | _ => s
  | .pool a i op =>
      match s.router.heap a with
      | some pool =>
          { s with
            router := s.router.onPool a pool
              (pool.info.onServer i (op.code pool.info.conf (pool.info.serverArr i))) }
      | none => s

/-- When an operation may come.  `router_build` runs to its end, and only while
`router_is_building()` is false; `_meta_conf_reload` sees to that.  A server that has
been torn down is gone, and the whole pool is destroyed by the router alone. -/
def RouterRun.Enabled (s : RouterRun σ) : RouterOp σ → Prop
  | .build table db =>
      s.router.routerSwitching = false ∧ db.partitionNum.toNat ≤ partitionModKeyNat
        ∧ ∃ r, s.router.build table db = some (0, r)
  | .pool a i op =>
      op ≠ .destroy ∧ ∃ pool, s.router.heap a = some pool ∧ i < pool.servers.length
        ∧ (pool.info.serverArr i).freed = false

/-- Every run of the router. -/
def routerLts (σ : Type*) : Lts (RouterRun σ) (RouterOp σ) where
  init s := s = ⟨routerInit, none, none⟩
  step s op s' := s.Enabled op ∧ s' = s.exec op

end RedisAgent
