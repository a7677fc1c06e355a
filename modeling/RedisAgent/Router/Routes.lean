/-
  RedisAgent.Router.Routes — from a key to the connection it is sent on.

  The whole way of a request: `router_acquire_shards` groups its keys and calls
  `req_on_getshards` once for each shard; that calls `pool_fetch_connect` on the pool in
  the slot of the shard; the balancer picks a server there; and the server calls the
  sub-request back with one of its connections, at once or when it has one.  In between,
  the pools go on living and a reload may replace the configuration.

  `pending` are the calls of `req_on_getshards` that are still to come, each a group of
  keys with the slot `_get_shard` looks into when its turn comes.  The tables are not
  reloaded before they have all come: `router_acquire_shards` makes them in one go.  The
  environment is told nothing about a pool but what Meta/Reload tells it, so a server may
  be entered by any callback in any order.

  `pool_fetch_connect` does not set `serverid` before the loop that asks the balancer.  When
  the loop does not run at all, what the variable holds is taken for a server, and `stray`
  is what the memory holds there, if that is not a server of the pool.

  `inForce` and `asked` are history.  A `PoolAsk` records what one `pool_fetch_connect`
  was called for, under which configuration, and which server the balancer settled on.

  Main results:
    • `PoolAsk.Configured` — what a request is promised of the server it is sent to;
    • `RoutesBy.shardCalls`, `Loaded.section_of_server`, `RouterPool.balance_lt`,
      `MetaState.confReload_cases`, `MetaState.drains_pool` — the links of the chain.
-/
import RedisAgent.Meta.Reload
import RedisAgent.Pool.Scores
import RedisAgent.Router.Placed
import RedisAgent.Router.Shards

namespace RedisAgent

variable {σ ν : Type*}

/-! ## §1. The code. -/

/-- `sub_req_t`, as far as the pools pass it on: which one it is, `backend_req` with its
`num` entries, and `!r->is_write`. -/
structure RoutedSub (ν : Type*) where
  serial : Nat
  reqs : List (BackendReq ν)
  isRead : Bool

/-- Which of the two pool maps `_get_shard` looks into. -/
def Mode.ofRead (isRead : Bool) : Mode := if isRead then .r else .w

/-- The router with the slots in place of the pools in them. -/
def RouterState.slotRouter (r : RouterState σ) : Router (Mode × Int) where
  routerFlag := r.routerFlag
  shardFunc := r.router.shardFunc
  poolMapR := fun k => (.r, k)
  poolMapW := fun k => (.w, k)

/-- The calls of `req_on_getshards` that `router_acquire_shards` makes. -/
def RouterState.shardCalls (r : RouterState σ) (m : Int → BackendReq ν) (keyNum : Nat)
    (isRead : Bool) : List (ShardCall ν (Mode × Int)) :=
  (routerAcquireShards r.slotRouter (CountRef.withCalls (⟨id, fun v _ => v⟩ : CountRef Int))
    (recordCalls fun _ w => w) m keyNum isRead (0, [])).2.2

/-- `addr` and `port` of the servers of a pool. -/
def RouterPool.addrs (pool : RouterPool σ) (i : Nat) : ServerAddr :=
  match pool.servers[i]? with
  | some sc => ⟨sc.addr, sc.port.toInt32.toInt⟩
  | none => ⟨[], 0⟩

section Balancer

variable (std : StdSort) (md5 : Md5)

/-- `pool_fetch_connect` up to "balance到一台server": the server it settles on.  `serverid`
is what the variable holds before the loop. -/
def RouterPool.balance (pool : RouterPool σ) (machineRoom : List UInt8) (slb : SlbState)
    (balanceKey serverid : Int) : Option Nat :=
  if pool.info.serverCount ≤ 0 then none
  else
    let id := ((fetchBalance std md5 pool.addrs machineRoom pool.info balanceKey
      (pool.info.conf.connectRetry + 1).toNat serverid).run slb).1
    if id < 0 then none else some id.toNat

end Balancer

/-- `pool->m_serverArr[i]`, where `stray` is what lies outside the array. -/
def RouterPool.serverAt (pool : RouterPool σ) (stray : ServerInfo σ) (i : Nat) : ServerInfo σ :=
  if i < pool.servers.length then pool.info.serverArr i else stray

/-! ## §2. Runs. -/

/-- One `pool_fetch_connect` that got a server: `pool` is the address of the pool, `addr`
the address of its server `server`. -/
structure PoolAsk (ν : Type*) where
  sub : RoutedSub ν
  conf : Configure
  db : MetaDbInfo
  pool : Nat
  server : Nat
  addr : Option PoolServiceConf

/-- The tables and the router, the configuration in force, and the requests under way. -/
structure Routed (ν : Type*) where
  tables : MetaState (RoutedSub ν)
  inForce : Option (Configure × MetaDbInfo)
  pending : List (ShardCall ν (Mode × Int) × Bool)
  asked : List (PoolAsk ν)

/-- What happens. -/
inductive RoutedOp (ν : Type*)
  | reload (t : Int) (file : Option Configure)
  /-- a callback into server `i` of the pool at `a` -/
  | pool (a i : Nat) (op : SrvOp (RoutedSub ν))
  /-- `router_acquire_shards` -/
  | request (m : Int → BackendReq ν) (keyNum : Nat) (isRead : Bool)
  /-- the next call of `req_on_getshards`; `slb` is the state of the pool's strategy -/
  | ask (machineRoom : List UInt8) (slb : SlbState) (balanceKey serverid : Int)
      (stray : ServerInfo (RoutedSub ν)) (wq : Nat) (now : Timeval)

/-- The pool the next call is made for, its address, and the call. -/
def Routed.next (s : Routed ν) : Option (Nat × RouterPool (RoutedSub ν) × RoutedSub ν) :=
  match s.pending with
  | [] => none
  | (c, isRead) :: _ =>
      match s.tables.router.poolMap c.pool.1 c.pool.2 with
      | none => none
      | some a => (s.tables.router.heap a).map (fun pool => (a, pool, ⟨s.asked.length, c.reqs, isRead⟩))

/-- The configuration a reload puts in force. -/
def Routed.accepted (s : Routed ν) (t : Int) (file : Option Configure) (res : Int × MetaState (RoutedSub ν)) :
    Option (Configure × MetaDbInfo) :=
  if s.tables.confLastmodify < t ∧ s.tables.router.routerSwitching = false ∧ res.1 = 0 then
    file.map (fun conf => (conf, res.2.db))
  else s.inForce

section Runs

variable (std : StdSort) (md5 : Md5)

/-- The state after one operation.  What is written outside an array is not followed. -/
def Routed.exec (s : Routed ν) : RoutedOp ν → Routed ν
  | .reload t file =>
      match s.tables.confReload t file with
      | some res => { s with tables := res.2, inForce := s.accepted t file res }
      | none => s
  | .pool a i op => { s with tables := s.tables.exec (.pool a i op) }
  | .request m keyNum isRead =>
      { s with
        pending := (s.tables.router.shardCalls m keyNum isRead).map (fun c => (c, isRead))
          ++ s.pending }
  | .ask machineRoom slb balanceKey serverid _ wq now =>
      match s.next, s.inForce with
      | some (a, pool, sub), some (conf, db) =>
          match pool.balance std md5 machineRoom slb balanceKey serverid with
          | none => { s with pending := s.pending.tail }
          | some i =>
              { s with
                tables := s.tables.exec (.pool a i (.fetch sub wq now))
                pending := s.pending.tail
                asked := s.asked ++ [⟨sub, conf, db, a, i, pool.servers[i]?⟩] }
      | _, _ => s

/-- When it may come.  A reload has a result, so that no file has the slot 65536, which
would be written behind `router_map`, and no more than 64 services share a partition, as
the tables have room for; there is a configuration before the first request; and a
request has a key. -/
def Routed.Enabled (s : Routed ν) : RoutedOp ν → Prop
  | .reload t file =>
      s.pending = [] ∧ s.tables.Enabled (.reload t file)
        ∧ ∀ conf, file = some conf → ∀ m j, conf.copies m j ≤ maxCopyNum
  | .pool a i op => op.IsCallback ∧ s.tables.Enabled (.pool a i op)
  | .request _ keyNum _ => s.inForce ≠ none ∧ 1 ≤ keyNum
  | .ask .. => s.next ≠ none

/-- Every run from the start of the proxy. -/
def routedLts (ν : Type*) : Lts (Routed ν) (RoutedOp ν) where
  init s := s = ⟨metaStart, none, [], []⟩
  step s op s' := s.Enabled op ∧ s' = s.exec std md5 op

/-- The connections that an operation hands to sub-requests: the pool and the server they
are from, the connection, and who gets it.  A reload hands out none
(`poolDestroy_silent`). -/
def Routed.handsOut (s : Routed ν) : RoutedOp ν → List (Nat × Nat × Option Handle × RoutedSub ν)
  | .pool a i op =>
      match s.tables.router.heap a with
      | some pool =>
          (callbacks (op.code pool.info.conf (pool.info.serverArr i)).2).map
            (fun c => (a, i, c.1, c.2))
      | none => []
  | .ask machineRoom slb balanceKey serverid stray wq now =>
      match s.next with
      | some (a, pool, sub) =>
          match pool.balance std md5 machineRoom slb balanceKey serverid with
          | some i =>
              (callbacks ((SrvOp.fetch sub wq now).code pool.info.conf (pool.serverAt stray i)).2).map
                (fun c => (a, i, c.1, c.2))
          | none => []
      | none => []
  | _ => []

/-- The balancer answers with an index: the number of attempts is not negative, or there
is nothing to choose from, or what `serverid` holds is an index anyway. -/
def Routed.Picks (s : Routed ν) : RoutedOp ν → Prop
  | .ask _ _ _ serverid _ _ _ => ∀ a pool sub, s.next = some (a, pool, sub) →
      0 ≤ pool.info.conf.connectRetry ∨ pool.info.serverCount ≤ 0 ∨ serverid < pool.servers.length
  | _ => True

end Runs

/-! ## §3. What a request is promised. -/

/-- Address and port of the service of a section, as they end up in `server_info_t`. -/
def ConfService.server (x : ConfService) : Option PoolServiceConf :=
  x.serviceAddr.bind (fun addr => x.servicePort.map (fun port =>
    ⟨(getCstr maxAddrLen addr).take 128, port⟩))

/-- Partition `j` has the slots of all keys, and no other partition has one of them. -/
def OwnsKeys (db : MetaDbInfo) (reqs : List (BackendReq ν)) (j : Nat) : Prop :=
  ∀ b ∈ reqs, ∀ k < db.partitionNum.toNat, keySlot b.key ∈ db.slots k ↔ k = j

/-- **The server is one the configuration lists for these keys**: it is the server of a
section for the partition that owns them, and the section allows what the request does. -/
def PoolAsk.Configured (q : PoolAsk ν) : Prop :=
  Returns (metaLoadConf q.conf) {} () q.db
    ∧ ∃ j < q.db.partitionNum.toNat, OwnsKeys q.db q.sub.reqs j
      ∧ ∃ x ∈ q.conf.services.getD [], q.conf.isCopy (Mode.ofRead q.sub.isRead) j x = true
        ∧ ∃ sc, q.addr = some sc ∧ x.server = some sc

/-- A call goes to the slot of the partition that owns its keys. -/
def AimedAt (flag : Int) (db : MetaDbInfo) (c : ShardCall ν (Mode × Int) × Bool) : Prop :=
  ∃ j < db.partitionNum.toNat, c.1.pool = (Mode.ofRead c.2, slotIn flag j) ∧ OwnsKeys db c.1.reqs j

/-! ## §4. The links of the chain. -/

variable {r : RouterState σ} {conf : Configure} {db : MetaDbInfo}

/-- **Grouping**: each call is for the keys of one partition, and for its slot. -/
theorem RoutesBy.shardCalls (h : RoutesBy r db) (m : Int → BackendReq ν) {keyNum : Nat}
    (hn : 1 ≤ keyNum) (isRead : Bool) :
    ∀ c ∈ r.shardCalls m keyNum isRead, AimedAt r.routerFlag db (c, isRead) := by
  intro c hc
  have hshard : ∀ key, ∃ i < db.partitionNum.toNat,
      (∀ k < db.partitionNum.toNat, keySlot key ∈ db.slots k ↔ k = i)
        ∧ r.slotRouter.shardKeyOf key = i := h
  have hnn : ∀ i : Int, 0 ≤ i → i < keyNum → 0 ≤ r.slotRouter.shardKeyOf (m i).key := by
    intro i _ _
    obtain ⟨j, -, -, hj⟩ := hshard (m i).key
    rw [hj]
    exact Int.natCast_nonneg j
  obtain ⟨hne, k, hpool, hkeys⟩ := routerAcquireShards_aimed r.slotRouter
    (⟨id, fun v _ => v⟩ : CountRef Int) (fun _ w => w) m keyNum isRead 0 hn hnn c hc
  -- the shard of the call is the partition of any of its keys
  obtain ⟨b, hb⟩ := List.exists_mem_of_ne_nil _ hne
  obtain ⟨j, hj, -, hjkey⟩ := hshard b.key
  have hk : k = j := (hkeys b hb).symm.trans hjkey
  refine ⟨j, hj, ?_, ?_⟩
  · rw [hpool, hk]
    cases isRead <;> rfl
  · intro b' hb' k' hk'
    obtain ⟨i, -, honly, hi⟩ := hshard b'.key
    have hij : (i : Int) = j := (hi.symm.trans (hkeys b' hb')).trans hk
    rw [honly k' hk', Int.natCast_inj.1 hij]

/-- A request for one key is one call. -/
theorem RouterState.shardCalls_one (r : RouterState σ) (m : Int → BackendReq ν) (isRead : Bool)
    (h0 : 0 ≤ r.slotRouter.shardKeyOf (m 0).key) : ∃ c, r.shardCalls m 1 isRead = [c] := by
  have hnn : ∀ i : Int, 0 ≤ i → i < (1 : Nat) → 0 ≤ r.slotRouter.shardKeyOf (m i).key := by
    intro i hlo hhi
    have hi : i = 0 := by omega
    rw [hi]
    exact h0
  have hkey := sortShards_shardKey r.slotRouter m 1 hnn (Int.le_refl 0) (by omega)
  unfold RouterState.shardCalls routerAcquireShards
  simp only
  rw [show ((1 : Nat) : Int).toNat = 0 + 1 from rfl, acquireLoop_first _ _ _ _ _ 0 _ hkey]
  exact ⟨_, rfl⟩

/-- **The service table**: a server of partition `j` comes from a section for it. -/
theorem Loaded.section_of_server (h : Loaded conf db) {m : Mode} {j i : Nat} {sc : PoolServiceConf}
    (hi : ((db.partitionService m j).map poolServiceConf)[i]? = some sc) :
    ∃ x ∈ conf.services.getD [], conf.isCopy m j x = true ∧ x.server = some sc := by
  obtain ⟨sections, hsections, hservices⟩ := h.serviceOf
  rw [h.partitionService, List.getElem?_map] at hi
  obtain ⟨service, hservice, rfl⟩ := Option.map_eq_some_iff.1 hi
  have hmem := List.mem_of_getElem? hservice
  unfold sharedBy at hmem
  obtain ⟨hmem, hallows⟩ := List.mem_filter.1 hmem
  obtain ⟨k, hk, rfl⟩ := List.mem_iff_getElem.1 hmem
  have hlen := hservices.length_eq
  have hx : ServiceOf db (sections.get ⟨k, hlen ▸ hk⟩) db.services[k] :=
    (List.forall₂_iff_get.1 hservices).2 k (hlen ▸ hk) hk
  refine ⟨sections.get ⟨k, hlen ▸ hk⟩, ?_, ?_, ?_⟩
  · rw [hsections, Option.getD_some]
    exact List.get_mem sections _
  · rw [hx.isCopy h.toLoadedHead m j]
    exact hallows
  · obtain ⟨addr, haddr, hcut⟩ := Option.map_eq_some_iff.1 hx.addr
    unfold ConfService.server poolServiceConf
    rw [haddr, hx.port, ← hcut]
    rfl

/-- **The balancer** answers with one of the pool's servers. -/
theorem RouterPool.balance_lt {std : StdSort} {md5 : Md5} {pool : RouterPool σ}
    {machineRoom : List UInt8} {slb : SlbState} {balanceKey serverid : Int} {i : Nat}
    (hcount : pool.info.serverCount ≤ pool.servers.length)
    (hpick : 0 ≤ pool.info.conf.connectRetry ∨ pool.info.serverCount ≤ 0
      ∨ serverid < pool.servers.length)
    (h : pool.balance std md5 machineRoom slb balanceKey serverid = some i) :
    i < pool.servers.length := by
  unfold RouterPool.balance at h
  by_cases hnone : pool.info.serverCount ≤ 0
  · rw [if_pos hnone] at h
    cases h
  · simp only [if_neg hnone, Option.ite_none_left_eq_some, Option.some_inj] at h
    obtain ⟨-, rfl⟩ := h
    cases hretry : (pool.info.conf.connectRetry + 1).toNat with
    | zero =>
        -- no attempt: what the variable held
        have hid : serverid < pool.servers.length := by omega
        show serverid.toNat < pool.servers.length
        omega
    | succ retry =>
        have hcount' : 0 < pool.info.serverCount := by omega
        have hrange : Ensures (fetchBalance std md5 pool.addrs machineRoom pool.info balanceKey
            (retry + 1) serverid) (fun _ id _ => 0 ≤ id ∧ id < pool.info.serverCount) :=
          fetchBalance_range hcount' balanceKey retry serverid
        obtain ⟨h0, hlt⟩ := hrange slb
        omega

/-- There is an attempt. -/
theorem RouterPool.balance_some {pool : RouterPool σ} (hretry : 0 ≤ pool.info.conf.connectRetry)
    (hpos : 0 < pool.info.serverCount) (machineRoom : List UInt8) (slb : SlbState)
    (balanceKey serverid : Int) :
    ∃ i, pool.balance std md5 machineRoom slb balanceKey serverid = some i := by
  obtain ⟨retry, hr⟩ : ∃ retry, (pool.info.conf.connectRetry + 1).toNat = retry + 1 :=
    ⟨pool.info.conf.connectRetry.toNat, by omega⟩
  have hrange : Ensures (fetchBalance std md5 pool.addrs machineRoom pool.info balanceKey
      (retry + 1) serverid) (fun _ id _ => 0 ≤ id ∧ id < pool.info.serverCount) :=
    fetchBalance_range hpos balanceKey retry serverid
  unfold RouterPool.balance
  rw [if_neg (by omega), hr]
  exact ⟨_, if_neg (Int.not_lt.2 (hrange slb).1)⟩

/-- There is no attempt: the index is what the variable held. -/
theorem RouterPool.balance_stray {pool : RouterPool σ} {serverid : Int} {machineRoom : List UInt8}
    {slb : SlbState} {balanceKey : Int} (hneg : pool.info.conf.connectRetry < 0)
    (hpos : 0 < pool.info.serverCount) (h0 : 0 ≤ serverid) :
    pool.balance std md5 machineRoom slb balanceKey serverid = some serverid.toNat := by
  have hretry : (pool.info.conf.connectRetry + 1).toNat = 0 := by omega
  unfold RouterPool.balance
  rw [if_neg (by omega), hretry]
  exact if_neg (Int.not_lt.2 h0)

/-- **A reload** leaves the router alone, or builds it from a file that was loaded. -/
theorem MetaState.confReload_cases {s s' : MetaState σ} {t ret : Int} {file : Option Configure}
    (h : s.confReload t file = some (ret, s')) :
    (s'.router = s.router
        ∧ ¬ (s.confLastmodify < t ∧ s.router.routerSwitching = false ∧ ret = 0))
      ∨ (s.confLastmodify < t ∧ s.router.routerSwitching = false)
        ∧ ∃ conf ret', file = some conf ∧ Returns (metaLoadConf conf) {} () s'.db
        ∧ s.router.build s'.table s'.db = some (ret', s'.router) ∧ (ret = 0 ↔ ret' = 0) := by
  unfold MetaState.confReload at h
  by_cases hgo : s.confLastmodify < t ∧ s.router.routerSwitching = false
  · rw [if_pos hgo] at h
    cases file with
    | none =>
        cases h
        exact Or.inl ⟨rfl, fun hx => absurd hx.2.2 (by decide)⟩
    | some conf =>
        by_cases hone : conf.dbs ≠ some 1
        · simp only [if_pos hone] at h
          cases h
          exact Or.inl ⟨rfl, fun hx => absurd hx.2.2 (by decide)⟩
        · simp only [if_neg hone] at h
          unfold MetaState.buildRouter at h
          cases hload : metaLoadConf conf {} with
          | error e db =>
              have he : e = -1 := metaLoadConf_stops conf {} e db hload
              subst he
              simp only [hload, Option.map_some] at h
              rw [if_pos (by decide : (-1 : Int) ≠ 0)] at h
              cases h
              exact Or.inl ⟨rfl, fun hx => absurd hx.2.2 (by decide)⟩
          | ok u db =>
              simp only [hload] at h
              obtain ⟨⟨ret₁, s₁⟩, hs₁, he⟩ := Option.map_eq_some_iff.1 h
              obtain ⟨⟨ret', r'⟩, hbuild, he'⟩ := Option.map_eq_some_iff.1 hs₁
              cases he'
              refine Or.inr ⟨hgo, conf, ret', rfl, ?_⟩
              by_cases hret : ret' = 0
              · simp only [if_neg (not_not.2 hret)] at he
                cases he
                exact ⟨hload, hbuild, iff_of_true rfl hret⟩
              · simp only [if_pos hret] at he
                cases he
                exact ⟨hload, hbuild, iff_of_false (by decide) hret⟩
  · rw [if_neg hgo] at h
    cases h
    exact Or.inl ⟨rfl, fun hx => hgo ⟨hx.1, hx.2.1⟩⟩

/-- **An entry into a pool** only changes the pool, and the slot it is in. -/
theorem MetaState.drains_pool (s : MetaState σ) (a i : Nat) (op : SrvOp σ) :
    Drains (fun b k sub => b = a ∧ k = i ∧ op.Asks sub) s.router (s.exec (.pool a i op)).router := by
  cases ha : s.router.heap a with
  | none =>
      have hsame : s.exec (.pool a i op) = s := by
        unfold MetaState.exec
        simp only [ha]
      rw [hsame]
      exact .refl _ s.router
  | some pool =>
      have hexec : (s.exec (.pool a i op)).router = s.router.onPool a pool
          (pool.info.onServer i (op.code pool.info.conf (pool.info.serverArr i))) := by
        unfold MetaState.exec
        simp only [ha]
      have h := pool.info.onServer_serves i (op.code_serves pool.info.conf (pool.info.serverArr i))
      rw [hexec]
      refine .onPool ha ⟨h.conf, h.count,
        fun k wq sub hsub => (h.waits k wq sub hsub).imp_right fun hnew => ⟨rfl, hnew⟩,
        fun k hd sub hmem => (h.calls k hd sub hmem).imp_right fun hnew => ⟨rfl, hnew⟩⟩

/-- An entry after which the pool goes on. -/
theorem MetaState.exec_pool_kept {s : MetaState σ} {a i : Nat} {op : SrvOp σ} {pool : RouterPool σ}
    (ha : s.router.heap a = some pool)
    (hkept : ¬ OwnerTold (pool.info.onServer i (op.code pool.info.conf (pool.info.serverArr i))).2) :
    (s.exec (.pool a i op)).router.heap a = some { pool with
      info := (pool.info.onServer i (op.code pool.info.conf (pool.info.serverArr i))).1 } := by
  unfold MetaState.exec
  simp only [ha, RouterState.onPool_kept hkept]
  exact Function.update_self _ _ _

end RedisAgent
