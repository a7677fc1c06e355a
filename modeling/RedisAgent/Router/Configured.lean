/-
  RedisAgent.Router.Configured — a request only reaches servers configured for it.

  Along a run, whoever waits at a server has asked for it there, and was sent there by the
  configuration that was in force when it asked: its keys are all of the partition whose
  slot the pool stood in, the pool had the services of that partition, and the balancer
  took one of them.  A reload leaves those that wait where they are, with the servers they
  asked for.

  Main results:
    • `RoutedInv.step` — what one operation keeps;
    • `requests_configured` — every connection handed out is one to a configured server, as
      long as the balancer is asked at all;
    • `requests_misrouted` — with a negative number of attempts it is not.
-/
import RedisAgent.Router.Routes

namespace RedisAgent

variable {σ ν : Type*} {db : MetaDbInfo}

/-! ## §1. What holds at every moment. -/

/-- `sub` has asked for a connection to server `i` of the pool at `a`. -/
def Routed.Asked (s : Routed ν) (a i : Nat) (sub : RoutedSub ν) : Prop :=
  ∃ q ∈ s.asked, q.sub = sub ∧ q.pool = a ∧ q.server = i

/-- The server that was asked is still what it was. -/
def PoolAsk.Stands (q : PoolAsk ν) (r : RouterState (RoutedSub ν)) : Prop :=
  q.pool < r.brk ∧ ∀ pool, r.heap q.pool = some pool → pool.servers[q.server]? = q.addr

theorem PoolAsk.Stands.keeps {q : PoolAsk ν} {r r' : RouterState (RoutedSub ν)} (h : q.Stands r)
    (hk : KeepsServers r r') : q.Stands r' := by
  refine ⟨Nat.lt_of_lt_of_le h.1 hk.brk, ?_⟩
  intro pool' hpool'
  obtain ⟨pool, hpool, hservers⟩ := hk.servers q.pool h.1 pool' hpool'
  rw [hservers]
  exact h.2 pool hpool

/-- **The invariant.** -/
structure RoutedInv (s : Routed ν) : Prop where
  heap : HeapInv s.Asked s.tables.router
  flags : s.tables.router.routerFlag ≠ s.tables.router.routerNextFlag
  inForce : ∀ conf db, s.inForce = some (conf, db) →
    Returns (metaLoadConf conf) {} () db ∧ ∃ table, ServesBy s.tables.router table db
  pending : ∀ c ∈ s.pending, ∃ conf db, s.inForce = some (conf, db)
    ∧ AimedAt s.tables.router.routerFlag db c
  asked : ∀ q ∈ s.asked, q.Configured ∧ q.Stands s.tables.router

theorem RoutedInv.start : RoutedInv (⟨metaStart, none, [], []⟩ : Routed ν) := by
  refine ⟨⟨?_, ?_, ?_, ?_⟩, ?_, ?_, ?_, ?_⟩
  · intro a p hp
    cases hp
  · intro m k a hk
    cases hk
  · intro a p hp
    cases hp
  · intro a p hp
    cases hp
  · exact (by decide : (1 : Int) ≠ 0)
  · intro conf db he
    cases he
  · intro c hc
    cases hc
  · intro q hq
    cases hq

variable {s : Routed ν} {std : StdSort} {md5 : Md5}

/-- What is left when a pool was entered: `asked` has grown by those that asked. -/
theorem RoutedInv.drains {s' : Routed ν} {new : Nat → Nat → RoutedSub ν → Prop} (h : RoutedInv s)
    (hd : Drains new s.tables.router s'.tables.router)
    (hnew : ∀ a i sub, new a i sub → s'.Asked a i sub) (hinForce : s'.inForce = s.inForce)
    (hpending : ∀ c ∈ s'.pending, c ∈ s.pending)
    (hasked : ∃ rest, s'.asked = s.asked ++ rest
      ∧ ∀ q ∈ rest, q.Configured ∧ q.Stands s'.tables.router) : RoutedInv s' := by
  obtain ⟨rest, hrest, hrestOk⟩ := hasked
  refine ⟨?_, ?_, ?_, ?_, ?_⟩
  · refine (h.heap.mono ?_).drains hd hnew
    rintro a i sub ⟨q, hq, hq'⟩
    refine ⟨q, ?_, hq'⟩
    rw [hrest]
    exact List.mem_append_left _ hq
  · rw [hd.map.flag, hd.map.nextFlag]
    exact h.flags
  · rw [hinForce]
    intro conf db hdb
    obtain ⟨hload, table, hserves⟩ := h.inForce conf db hdb
    exact ⟨hload, table, hserves.drains hd⟩
  · intro c hc
    rw [hinForce, hd.map.flag]
    exact h.pending c (hpending c hc)
  · intro q hq
    rw [hrest] at hq
    rcases List.mem_append.1 hq with hq | hq
    · exact ⟨(h.asked q hq).1, (h.asked q hq).2.keeps hd.keepsServers⟩
    · exact hrestOk q hq

/-- A reload that has a result. -/
theorem Routed.exec_reload {t : Int} {file : Option Configure} {res : Int × MetaState (RoutedSub ν)}
    (h : s.tables.confReload t file = some res) : s.exec std md5 (.reload t file)
      = { s with tables := res.2, inForce := s.accepted t file res } := by
  unfold Routed.exec
  simp only [h]

/-- A reload: the pools that are to be asked are those of the configuration it puts in
force, or the ones from before. -/
theorem RoutedInv.reload (h : RoutedInv s) {t : Int} {file : Option Configure}
    (hen : s.Enabled (.reload t file)) : RoutedInv (s.exec std md5 (.reload t file)) := by
  obtain ⟨hnone, ⟨⟨ret, tables⟩, hload⟩, -⟩ := hen
  rw [Routed.exec_reload hload]
  have hpending : ∀ {P : ShardCall ν (Mode × Int) × Bool → Prop}, ∀ c ∈ s.pending, P c := by
    intro P c hc
    rw [hnone] at hc
    cases hc
  rcases MetaState.confReload_cases hload with
    ⟨hrouter, hno⟩ | ⟨hgo, conf, ret', rfl, hdb, hbuild, hret⟩
  · -- the router is as it was
    have hin : s.accepted t file (ret, tables) = s.inForce := if_neg hno
    rw [hin]
    refine ⟨?_, ?_, ?_, hpending, ?_⟩
    · exact hrouter ▸ h.heap
    · exact hrouter ▸ h.flags
    · exact hrouter ▸ h.inForce
    · exact hrouter ▸ h.asked
  · by_cases hzero : ret' = 0
    · -- the new configuration is in force
      subst hzero
      obtain ⟨hserves, hheap, hkeeps, hflags⟩ := ServesBy.build h.heap hbuild
      have hin : s.accepted t (some conf) (ret, tables) = some (conf, tables.db) :=
        if_pos ⟨hgo.1, hgo.2, hret.2 rfl⟩
      rw [hin]
      refine ⟨hheap, hflags, ?_, hpending, ?_⟩
      · intro conf' db' he
        cases he
        exact ⟨hdb, _, hserves⟩
      · intro q hq
        exact ⟨(h.asked q hq).1, (h.asked q hq).2.keeps hkeeps⟩
    · -- the partition map was refused
      have hin : s.accepted t (some conf) (ret, tables) = s.inForce :=
        if_neg fun hx => hzero (hret.1 hx.2.2)
      rw [hin]
      obtain ⟨sw, f, hkept⟩ := RouterState.build_kept hbuild hzero
      have hsame : SameSlots s.tables.router tables.router := by
        rw [hkept]
        exact ⟨rfl, rfl, rfl, rfl⟩
      refine ⟨h.heap.congr hsame, ?_, ?_, hpending, ?_⟩
      · rw [hkept]
        exact h.flags
      · intro conf' db' he
        obtain ⟨hload', table, hserves⟩ := h.inForce conf' db' he
        exact ⟨hload', table, hserves.refused h.flags hbuild hzero⟩
      · intro q hq
        obtain ⟨hconf, hlt, hstands⟩ := h.asked q hq
        refine ⟨hconf, ?_, ?_⟩
        · rw [hsame.brk]
          exact hlt
        · rw [hsame.heap]
          exact hstands

/-- A callback asks for nothing. -/
theorem SrvOp.IsCallback.not_asks {op : SrvOp σ} (h : op.IsCallback) (sub : σ) : ¬ op.Asks sub := by
  rintro ⟨wq, now, rfl⟩
  exact h

theorem RoutedInv.pool (h : RoutedInv s) {a i : Nat} {op : SrvOp (RoutedSub ν)}
    (hop : op.IsCallback) : RoutedInv (s.exec std md5 (.pool a i op)) := by
  refine h.drains (s.tables.drains_pool a i op) ?_ rfl (fun _ hc => hc) ⟨[], ?_, fun q hq => absurd hq List.not_mem_nil⟩
  · rintro b k sub ⟨-, -, hasks⟩
    exact absurd hasks (hop.not_asks sub)
  · exact (List.append_nil _).symm

/-- A request: its calls are aimed at the slots of the configuration in force. -/
theorem RoutedInv.request (h : RoutedInv s) {m : Int → BackendReq ν} {keyNum : Nat} {isRead : Bool}
    (hen : s.Enabled (.request m keyNum isRead)) :
    RoutedInv (s.exec std md5 (.request m keyNum isRead)) := by
  obtain ⟨hin, hn⟩ := hen
  obtain ⟨⟨conf, db⟩, hin⟩ := Option.ne_none_iff_exists'.1 hin
  obtain ⟨-, table, ⟨hroutes, -⟩⟩ := h.inForce conf db hin
  have haimed := hroutes.shardCalls m hn isRead
  refine ⟨h.heap, h.flags, h.inForce, ?_, h.asked⟩
  simp only [Routed.exec, List.mem_append, List.mem_map]
  rintro c (⟨c', hc', rfl⟩ | hc)
  · exact ⟨conf, db, hin, haimed c' hc'⟩
  · exact h.pending c hc

/-- What the next call is made for. -/
theorem Routed.next_eq {a : Nat} {pool : RouterPool (RoutedSub ν)} {sub : RoutedSub ν}
    (h : s.next = some (a, pool, sub)) : ∃ c isRead rest, s.pending = (c, isRead) :: rest
      ∧ s.tables.router.poolMap c.pool.1 c.pool.2 = some a ∧ s.tables.router.heap a = some pool
      ∧ sub = ⟨s.asked.length, c.reqs, isRead⟩ := by
  unfold Routed.next at h
  cases hpending : s.pending with
  | nil =>
      rw [hpending] at h
      cases h
  | cons c rest =>
      obtain ⟨c, isRead⟩ := c
      simp only [hpending] at h
      cases hslot : s.tables.router.poolMap c.pool.1 c.pool.2 with
      | none =>
          rw [hslot] at h
          cases h
      | some b =>
          simp only [hslot] at h
          obtain ⟨pool', hheap, he⟩ := Option.map_eq_some_iff.1 h
          cases he
          exact ⟨c, isRead, rest, rfl, hslot, hheap, rfl⟩

/-- **One `pool_fetch_connect`**: the server it settles on is one the configuration lists. -/
theorem RoutedInv.configured (h : RoutedInv s) {a : Nat} {pool : RouterPool (RoutedSub ν)}
    {sub : RoutedSub ν} (hnext : s.next = some (a, pool, sub)) {conf : Configure} {db : MetaDbInfo}
    (hin : s.inForce = some (conf, db)) {i : Nat} (hi : i < pool.servers.length) :
    PoolAsk.Configured ⟨sub, conf, db, a, i, pool.servers[i]?⟩ := by
  obtain ⟨c, isRead, rest, hpending, hslot, hheap, rfl⟩ := Routed.next_eq hnext
  obtain ⟨hload, table, hserves⟩ := h.inForce conf db hin
  obtain ⟨conf', db', hin', j, hj, hpool, howns⟩ :=
    h.pending (c, isRead) (by rw [hpending]; exact List.mem_cons_self)
  rw [hin] at hin'
  cases hin'
  -- the pool in the slot has the servers of the partition
  simp only at hpool
  rw [hpool] at hslot
  have hservers := (hserves.placed (Mode.ofRead isRead) j hj a pool hslot hheap).servers
  have hsc : ((db.partitionService (Mode.ofRead isRead) j).map poolServiceConf)[i]?
      = some pool.servers[i] := by
    rw [← hservers]
    exact List.getElem?_eq_getElem hi
  obtain ⟨x, hx, hcopy, hserver⟩ := (metaLoadConf_loaded hload).section_of_server hsc
  exact ⟨hload, j, hj, howns, x, hx, hcopy, _, List.getElem?_eq_getElem hi, hserver⟩

section Ask

variable {a i : Nat} {pool : RouterPool (RoutedSub ν)} {sub : RoutedSub ν} {conf : Configure}
  {db : MetaDbInfo} {machineRoom : List UInt8} {slb : SlbState} {balanceKey serverid : Int}
  {stray : ServerInfo (RoutedSub ν)} {wq : Nat} {now : Timeval}

/-- The balancer found no server. -/
theorem Routed.exec_ask_none (hnext : s.next = some (a, pool, sub)) (hin : s.inForce = some (conf, db))
    (hbal : pool.balance std md5 machineRoom slb balanceKey serverid = none) :
    s.exec std md5 (.ask machineRoom slb balanceKey serverid stray wq now)
      = { s with pending := s.pending.tail } := by
  simp only [Routed.exec, hnext, hin, hbal]

/-- The balancer found server `i`. -/
theorem Routed.exec_ask_some (hnext : s.next = some (a, pool, sub)) (hin : s.inForce = some (conf, db))
    (hbal : pool.balance std md5 machineRoom slb balanceKey serverid = some i) :
    s.exec std md5 (.ask machineRoom slb balanceKey serverid stray wq now)
      = { s with
          tables := s.tables.exec (.pool a i (.fetch sub wq now))
          pending := s.pending.tail
          asked := s.asked ++ [⟨sub, conf, db, a, i, pool.servers[i]?⟩] } := by
  simp only [Routed.exec, hnext, hin, hbal]

/-- A call waits for the configuration it was grouped by. -/
theorem RoutedInv.inForce_of_next (h : RoutedInv s) (hnext : s.next = some (a, pool, sub)) :
    ∃ conf db, s.inForce = some (conf, db) := by
  obtain ⟨c, isRead, rest, hpending, -⟩ := Routed.next_eq hnext
  obtain ⟨conf, db, hin, -⟩ := h.pending (c, isRead) (by rw [hpending]; exact List.mem_cons_self)
  exact ⟨conf, db, hin⟩

/-- The server that is asked stands where it is. -/
theorem RoutedInv.stands (h : RoutedInv s) (hheap : s.tables.router.heap a = some pool) (i : Nat) :
    PoolAsk.Stands ⟨sub, conf, db, a, i, pool.servers[i]?⟩ s.tables.router := by
  refine ⟨h.heap.heap a pool hheap, ?_⟩
  intro pool' hpool'
  have he : pool = pool' := Option.some_inj.1 (hheap.symm.trans hpool')
  rw [he]

theorem RoutedInv.ask (h : RoutedInv s)
    (hen : s.Enabled (.ask machineRoom slb balanceKey serverid stray wq now))
    (hpick : s.Picks (.ask machineRoom slb balanceKey serverid stray wq now)) :
    RoutedInv (s.exec std md5 (.ask machineRoom slb balanceKey serverid stray wq now)) := by
  obtain ⟨⟨a, pool, sub⟩, hnext⟩ := Option.ne_none_iff_exists'.1 hen
  obtain ⟨conf, db, hin⟩ := h.inForce_of_next hnext
  obtain ⟨-, -, -, -, -, hheap, -⟩ := Routed.next_eq hnext
  have htail : ∀ c ∈ s.pending.tail, c ∈ s.pending := fun c hc => List.mem_of_mem_tail hc
  cases hbal : pool.balance std md5 machineRoom slb balanceKey serverid with
  | none =>
      rw [Routed.exec_ask_none hnext hin hbal]
      have hdrains : Drains (fun _ _ _ => False) s.tables.router s.tables.router := .refl _ _
      refine h.drains hdrains (fun _ _ _ => False.elim) rfl htail ⟨[], ?_, ?_⟩
      · exact (List.append_nil s.asked).symm
      · exact fun q hq => absurd hq List.not_mem_nil
  | some i =>
      have hi : i < pool.servers.length :=
        RouterPool.balance_lt (h.heap.count a pool hheap) (hpick a pool sub hnext) hbal
      have hdrains := s.tables.drains_pool a i (.fetch sub wq now)
      rw [Routed.exec_ask_some hnext hin hbal]
      refine h.drains hdrains ?_ rfl htail ⟨_, rfl, ?_⟩
      · rintro b k sub' ⟨rfl, rfl, wq', now', he⟩
        cases he
        exact ⟨_, List.mem_append_right _ (List.mem_singleton_self _), rfl, rfl, rfl⟩
      · intro q hq
        rw [List.mem_singleton.1 hq]
        exact ⟨h.configured hnext hin hi, (h.stands hheap i).keeps hdrains.keepsServers⟩

end Ask

/-- **Step.** -/
theorem RoutedInv.step (h : RoutedInv s) {op : RoutedOp ν} (hen : s.Enabled op)
    (hpick : s.Picks op) : RoutedInv (s.exec std md5 op) := by
  cases op with
  | reload t file => exact h.reload hen
  | pool a i op => exact h.pool hen.1
  | request m keyNum isRead => exact h.request hen
  | ask machineRoom slb balanceKey serverid stray wq now => exact h.ask hen hpick

/-- **Run.** -/
theorem RoutedInv.of_run {tr : List (Routed ν × RoutedOp ν)}
    (h : ((routedLts std md5 ν).restrict Routed.Picks).Run tr s) : RoutedInv s := by
  refine h.history (P := fun _ s => RoutedInv s) ?_ ?_
  · intro s hs
    have hs : s = ⟨metaStart, none, [], []⟩ := hs
    rw [hs]
    exact .start
  · intro tr s op s' _ ih hstep
    obtain ⟨⟨hen, rfl⟩, hpick⟩ := hstep
    exact ih.step hen hpick

/-- A sub-request that waits at a server is on record. -/
theorem RoutedInv.recorded (h : RoutedInv s) {a i : Nat} {sub : RoutedSub ν} (hasked : s.Asked a i sub) :
    ∃ q ∈ s.asked, q.sub = sub ∧ q.pool = a ∧ q.server = i ∧ q.Configured
      ∧ q.Stands s.tables.router := by
  obtain ⟨q, hq, hsub, ha, hi⟩ := hasked
  exact ⟨q, hq, hsub, ha, hi, h.asked q hq⟩

/-! ## §2. One service. -/

/-- The first configuration, when it has one partition: its read pool is as it was built. -/
theorem RouterState.build_first (hmode : db.shardMode = 0) (hcov : db.Covers) (hone : db.passes = 1) :
    ∃ r : RouterState σ, (routerInit : RouterState σ).build 1 db = some (0, r) ∧ r.routerSwitching = false
      ∧ ∃ a pool, r.poolMap .r (slotIn r.routerFlag 0) = some a ∧ r.heap a = some pool
        ∧ pool.servers = (db.partitionService .r 0).map poolServiceConf
        ∧ pool.info = poolBuild pool.servers.length db.connectPerService.toInt32.toInt
          db.getConnectRetry.toInt32.toInt := by
  obtain ⟨f, hinit⟩ := RouterState.shardInitPart_of_covers
    ({ routerInit with routerSwitching := true } : RouterState σ) hcov
  obtain ⟨r₁, hr₁⟩ : ∃ r₁, r₁ = (({ routerInit with routerSwitching := true, routerMap := f } :
      RouterState σ).newPool 1 db .r 0).newPool 1 db .w 0 := ⟨_, rfl⟩
  have hpools : ({ routerInit with routerSwitching := true, routerMap := f } :
      RouterState σ).shardBuildPool 1 db = some r₁ := by
    rw [hr₁]
    unfold RouterState.shardBuildPool
    rw [hone]
    exact if_pos (by show (65536 * 0 + 1 : Int) ≤ 2 * 65536; omega)
  have hsw : (routerInit : RouterState σ).buildSwitch 1 db = some (0, r₁.switch) := by
    unfold RouterState.buildSwitch
    simp only [hmode, if_true, hinit, ne_eq, not_true_eq_false, if_false, hpools, Option.map_some]
  have hdestroy : r₁.switch.destroy = { r₁.switch with routerSwitching := false } := by
    unfold RouterState.destroy
    refine if_pos ⟨?_, ?_⟩
    · rw [hr₁]
      rfl
    · rw [hr₁]
      rfl
  refine ⟨r₁.switch.destroy, ?_, ?_, 0,
    (routerInit : RouterState σ).made 1 db .r 0, ?_, ?_, rfl, ?_⟩
  · unfold RouterState.build
    rw [hsw]
    simp only [Option.map_some, if_true]
  · rw [hdestroy]
  · rw [hdestroy, hr₁]
    rfl
  · rw [hdestroy, hr₁]
    rfl
  · rfl

/-- One partition with every slot and one service; `retry` is
`Db_Connect_GetConnectRetryNum`. -/
def retryConf (retry : UInt32) : Configure :=
  { manyServices 1 with dbConnectGetConnectRetryNum := some retry }

theorem retryConf_copies (retry : UInt32) (m : Mode) (j : Nat) : (retryConf retry).copies m j ≤ maxCopyNum := by
  refine Nat.le_trans (List.length_filter_le _ _) ?_
  show (List.replicate 1 plainService).length ≤ 64
  rw [List.length_replicate]
  omega

/-- It is accepted, and its one read pool is built. -/
theorem retryConf_builds (retry : UInt32) : ∃ (db : MetaDbInfo) (r : RouterState σ),
    Returns (metaLoadConf (retryConf retry)) {} () db ∧ (routerInit : RouterState σ).build 1 db = some (0, r)
      ∧ db.partitionNum = 1 ∧ ∃ a pool, r.poolMap .r (slotIn r.routerFlag 0) = some a
        ∧ r.heap a = some pool ∧ pool.servers.length = 1
        ∧ pool.info = poolBuild 1 2 retry.toInt32.toInt := by
  obtain ⟨db, hdb⟩ := metaLoadConf_returns (manyServices_readable 1 retry)
  have hload := metaLoadConf_loaded hdb
  have hnum : db.partitionNum = 1 := (Option.some_inj.1 hload.partitionNum).symm
  have hcov : db.Covers :=
    hload.covers_single (oneString_short (by decide) (by decide)) hnum slotsRead_wholeRange
  have hmode : db.shardMode = 0 := (Option.some_inj.1 hload.shardMode).symm
  have hpasses : db.passes = 1 := by
    rw [MetaDbInfo.passes_of_small hcov.small, hnum]
    rfl
  have hper : (2 : UInt32) = db.connectPerService := Option.some_inj.1 hload.connectPerService
  have hretry : retry = db.getConnectRetry := Option.some_inj.1 hload.getConnectRetry
  obtain ⟨r, hr, -, a, pool, ha, hpool, hservers, hinfo⟩ :=
    RouterState.build_first (σ := σ) hmode hcov hpasses
  have hlen : pool.servers.length = 1 := by
    rw [hservers, List.length_map, hload.partitionService, hload.sharedBy_length]
    rfl
  refine ⟨db, r, hdb, hr, hnum, a, pool, ha, hpool, hlen, ?_⟩
  rw [hinfo, hlen, ← hper, ← hretry]
  rfl

/-- A request for the empty key. -/
def emptyKey : Int → BackendReq Unit := fun _ => ⟨[], (), 0⟩

/-- The first request comes to its call of `pool_fetch_connect`. -/
theorem retryConf_next (std : StdSort) (md5 : Md5) (retry : UInt32) : ∃ (tr : List (Routed Unit × RoutedOp Unit)) (s : Routed Unit)
    (a : Nat) (pool : RouterPool (RoutedSub Unit)) (sub : RoutedSub Unit),
    ((routedLts std md5 Unit).restrict Routed.Picks).Run tr s ∧ s.next = some (a, pool, sub)
      ∧ s.asked = [] ∧ pool.servers.length = 1 ∧ pool.info = poolBuild 1 2 retry.toInt32.toInt := by
  obtain ⟨db, r, hdb, hr, hnum, a, pool, ha, hpool, hlen, hinfo⟩ :=
    retryConf_builds (σ := RoutedSub Unit) retry
  obtain ⟨tables, htables⟩ : ∃ tables : MetaState (RoutedSub Unit), tables
      = ⟨some (retryConf retry), 1, 1, db, metaAuthLoad db.users, r⟩ := ⟨_, rfl⟩
  have hdbt : tables.db = db := by rw [htables]
  have hrouter : tables.router = r := by rw [htables]
  have hload : metaLoadConf (retryConf retry) {} = .ok () db := hdb
  have hreload : (metaStart : MetaState (RoutedSub Unit)).confReload 1 (some (retryConf retry))
      = some (0, tables) := by
    have hgo : (metaStart : MetaState (RoutedSub Unit)).confLastmodify < 1
        ∧ (metaStart : MetaState (RoutedSub Unit)).router.routerSwitching = false := ⟨Int.one_pos, rfl⟩
    have hone : ¬ (retryConf retry).dbs ≠ some 1 := not_not.2 rfl
    have hrouter : (metaStart : MetaState (RoutedSub Unit)).router.build 1 db = some (0, r) := hr
    unfold MetaState.confReload MetaState.buildRouter
    simp only [if_pos hgo, if_neg hone, hload]
    show ((metaStart : MetaState (RoutedSub Unit)).router.build 1 db |>.map _ |>.map _) = _
    rw [hrouter, htables]
    rfl
  -- the configuration is loaded
  have hstart : ((routedLts std md5 Unit).restrict Routed.Picks).Run []
      (⟨metaStart, none, [], []⟩ : Routed Unit) := .init rfl
  have hen : (⟨metaStart, none, [], []⟩ : Routed Unit).Enabled (.reload 1 (some (retryConf retry))) := by
    refine ⟨rfl, ⟨_, hreload⟩, ?_⟩
    intro conf hconf m j
    cases hconf
    exact retryConf_copies retry m j
  have hexec : (⟨metaStart, none, [], []⟩ : Routed Unit).exec std md5
      (.reload 1 (some (retryConf retry))) = ⟨tables, some (retryConf retry, db), [], []⟩ := by
    have hacc : (⟨metaStart, none, [], []⟩ : Routed Unit).accepted 1 (some (retryConf retry)) (0, tables)
        = some (retryConf retry, tables.db) := if_pos ⟨Int.one_pos, rfl, rfl⟩
    rw [Routed.exec_reload hreload, hacc, hdbt]
  have hloaded : ((routedLts std md5 Unit).restrict Routed.Picks).Run _
      (⟨tables, some (retryConf retry, db), [], []⟩ : Routed Unit) :=
    .step hstart ⟨⟨hen, hexec.symm⟩, trivial⟩
  -- the request is made
  have hroutes : RoutesBy r db := RoutesBy.build hr
  have hnn : 0 ≤ r.slotRouter.shardKeyOf (emptyKey 0).key := by
    obtain ⟨j, -, -, hj⟩ := hroutes (emptyKey 0).key
    exact hj ▸ Int.natCast_nonneg j
  obtain ⟨c, hc⟩ := r.shardCalls_one emptyKey true hnn
  obtain ⟨j, hj, hslot, -⟩ := hroutes.shardCalls emptyKey (Nat.le_refl 1) true c
    (by rw [hc]; exact List.mem_singleton_self c)
  have hj0 : j = 0 := by
    rw [hnum] at hj
    have : (1 : UInt32).toNat = 1 := rfl
    omega
  have hexec' : (⟨tables, some (retryConf retry, db), [], []⟩ : Routed Unit).exec std md5
      (.request emptyKey 1 true) = ⟨tables, some (retryConf retry, db), [(c, true)], []⟩ := by
    simp only [Routed.exec, hrouter, hc, List.map_cons, List.map_nil, List.append_nil]
  have hen' : (⟨tables, some (retryConf retry, db), [], []⟩ : Routed Unit).Enabled
      (.request emptyKey 1 true) := ⟨Option.some_ne_none _, Nat.le_refl 1⟩
  have hasked : ((routedLts std md5 Unit).restrict Routed.Picks).Run _
      (⟨tables, some (retryConf retry, db), [(c, true)], []⟩ : Routed Unit) :=
    .step hloaded ⟨⟨hen', hexec'.symm⟩, trivial⟩
  refine ⟨_, _, a, pool, ⟨0, c.reqs, true⟩, hasked, ?_, rfl, hlen, hinfo⟩
  have hslot : c.pool = (Mode.r, slotIn r.routerFlag 0) := by
    rw [← hj0]
    exact hslot
  unfold Routed.next
  simp only [hrouter, hslot, ha, hpool]
  rfl

/-- A new server with two connection slots is asked, and then the connection stands. -/
theorem serverBuild_fetch (sub : σ) (now : Timeval) :
    ((SrvOp.fetch sub 0 now).code (buildConf 2 0) (serverBuild 2)).2 = [.createCb ⟨0, 0⟩]
      ∧ ((SrvOp.fetch sub 0 now).code (buildConf 2 0) (serverBuild 2)).1.freed = false
      ∧ callbacks ((SrvOp.created ⟨0, 0⟩ 0 now).code (buildConf 2 0)
        ((SrvOp.fetch sub 0 now).code (buildConf 2 0) (serverBuild 2)).1).2 = [(some ⟨0, 0⟩, sub)] :=
  ⟨rfl, rfl, rfl⟩

/-! ## §3. Every connection handed out. -/

/-- **Requests go only to servers configured for them.**  Whenever a connection is handed
to a sub-request, that sub-request has asked for it at this very server; and the server,
by its address, is one that the configuration in force at that time lists for the partition
that owns all its keys: with `CanWrite` for a write, with `CanRead` and in the proxy's own
idc or room, where that is asked for, for a read.  The reload of a file with the slot 65536
is no step of these runs, since it is undefined what it does. -/
theorem requests_configured {tr : List (Routed ν × RoutedOp ν)}
    (h : ((routedLts std md5 ν).restrict Routed.Picks).Run tr s) {op : RoutedOp ν}
    (hen : s.Enabled op) (hpick : s.Picks op) {a i : Nat} {hd : Option Handle} {sub : RoutedSub ν}
    (hcb : (a, i, hd, sub) ∈ s.handsOut std md5 op) :
    ∃ q ∈ (s.exec std md5 op).asked, q.sub = sub ∧ q.pool = a ∧ q.server = i ∧ q.Configured
      ∧ ∃ pool, s.tables.router.heap a = some pool ∧ pool.servers[i]? = q.addr
        ∧ ∃ j, hd = ((pool.info.serverArr i).connectArr j).handle := by
  have hinv := RoutedInv.of_run h
  cases op with
  | reload t file => cases hcb
  | request m keyNum isRead => cases hcb
  | pool b k op =>
      unfold Routed.handsOut at hcb
      cases hheap : s.tables.router.heap b with
      | none =>
          simp only [hheap] at hcb
          cases hcb
      | some pool =>
          simp only [hheap] at hcb
          obtain ⟨c, hc, he⟩ := List.mem_map.1 hcb
          cases he
          have hserves := op.code_serves pool.info.conf (pool.info.serverArr i)
          have hown := hserves.own c.1 c.2 (mem_callbacks.1 hc)
          -- it waited, as a callback asks for nobody
          obtain ⟨wq, hwaits⟩ := (hserves.calls c.1 c.2 (mem_callbacks.1 hc)).resolve_right
            (hen.1.not_asks c.2)
          obtain ⟨q, hq, hsub, ha, hi, hconf, -, hstands⟩ :=
            hinv.recorded (hinv.heap.waits a pool hheap i wq c.2 hwaits)
          refine ⟨q, hq, hsub, ha, hi, hconf, pool, hheap, ?_, hown⟩
          rw [← ha] at hheap
          rw [← hi]
          exact hstands pool hheap
  | ask machineRoom slb balanceKey serverid stray wq now =>
      obtain ⟨⟨b, pool, y⟩, hnext⟩ := Option.ne_none_iff_exists'.1 hen
      obtain ⟨conf, db, hin⟩ := hinv.inForce_of_next hnext
      obtain ⟨-, -, -, -, -, hheap, -⟩ := Routed.next_eq hnext
      unfold Routed.handsOut at hcb
      cases hbal : pool.balance std md5 machineRoom slb balanceKey serverid with
      | none =>
          simp only [hnext, hbal] at hcb
          cases hcb
      | some k =>
          have hk : k < pool.servers.length :=
            RouterPool.balance_lt (hinv.heap.count b pool hheap) (hpick b pool y hnext) hbal
          simp only [hnext, hbal, RouterPool.serverAt, if_pos hk] at hcb
          obtain ⟨c, hc, he⟩ := List.mem_map.1 hcb
          cases he
          rw [Routed.exec_ask_some hnext hin hbal]
          have hserves := (SrvOp.fetch y wq now).code_serves pool.info.conf (pool.info.serverArr i)
          have hown := hserves.own c.1 c.2 (mem_callbacks.1 hc)
          rcases hserves.calls c.1 c.2 (mem_callbacks.1 hc) with ⟨wq', hwaits⟩ | ⟨wq', now', he⟩
          · -- it waited before
            obtain ⟨q, hq, hsub, ha, hi, hconf, -, hstands⟩ :=
              hinv.recorded (hinv.heap.waits a pool hheap i wq' c.2 hwaits)
            refine ⟨q, List.mem_append_left _ hq, hsub, ha, hi, hconf, pool, hheap, ?_, hown⟩
            rw [← ha] at hheap
            rw [← hi]
            exact hstands pool hheap
          · -- it is the one that asks
            cases he
            exact ⟨_, List.mem_append_right _ (List.mem_singleton_self _), rfl, rfl, rfl,
              hinv.configured hnext hin hk, pool, hheap, rfl, hown⟩

/-- A strategy that picks at random. -/
def randomSlb : SlbState := ⟨strategyRandom, fun k => k, fun _ => 0⟩

def noMd5 : Md5 := fun _ => (0, 0, 0, 0)

theorem requests_configured_witness : ∃ (tr : List (Routed Unit × RoutedOp Unit)) (s : Routed Unit) (op : RoutedOp Unit)
    (a i : Nat) (hd : Handle) (sub : RoutedSub Unit),
    ((routedLts StdSort.mergeSort noMd5 Unit).restrict Routed.Picks).Run tr s ∧ s.Enabled op
      ∧ (a, i, some hd, sub) ∈ s.handsOut StdSort.mergeSort noMd5 op
      ∧ ∃ q ∈ (s.exec StdSort.mergeSort noMd5 op).asked, q.sub = sub ∧ q.pool = a ∧ q.server = i
        ∧ q.Configured := by
  obtain ⟨tr, s, a, pool, sub, hrun, hnext, hasked, hlen, hinfo⟩ :=
    retryConf_next StdSort.mergeSort noMd5 0
  have hconf : pool.info.conf = buildConf 2 0 := by
    rw [hinfo]
    rfl
  have hcount : pool.info.serverCount = 1 := by
    rw [hinfo]
    rfl
  have hfresh : pool.info.serverArr 0 = serverBuild 2 := by
    rw [hinfo]
    rfl
  obtain ⟨conf, db, hin⟩ := (RoutedInv.of_run hrun).inForce_of_next hnext
  obtain ⟨-, -, -, -, -, hheap, -⟩ := Routed.next_eq hnext
  -- its one server is asked
  have hpick : s.Picks (.ask [] randomSlb 0 0 serverZero 0 ⟨0, 0⟩) := by
    intro a' pool' sub' hnext'
    rw [hnext] at hnext'
    cases hnext'
    exact Or.inl (by rw [hconf]; exact Int.le_refl 0)
  obtain ⟨i, hbal⟩ := @RouterPool.balance_some _ StdSort.mergeSort noMd5 pool
    (by rw [hconf]; exact Int.le_refl 0) (by rw [hcount]; exact Int.one_pos) [] randomSlb 0 0
  have hi : i = 0 := by
    have hlt := RouterPool.balance_lt (by rw [hcount, hlen]; rfl)
      (hpick a pool sub hnext) hbal
    omega
  subst hi
  have hexec : s.exec StdSort.mergeSort noMd5 (.ask [] randomSlb 0 0 serverZero 0 ⟨0, 0⟩) = _ :=
    Routed.exec_ask_some hnext hin hbal
  have hen : s.Enabled (.ask [] randomSlb 0 0 serverZero 0 ⟨0, 0⟩) :=
    fun he => Option.some_ne_none _ (hnext.symm.trans he)
  obtain ⟨hcalls, hfreed, hback⟩ := serverBuild_fetch sub ⟨0, 0⟩
  have hkept : ¬ OwnerTold (pool.info.onServer 0
      ((SrvOp.fetch sub 0 ⟨0, 0⟩).code pool.info.conf (pool.info.serverArr 0))).2 := by
    rw [hconf, hfresh]
    unfold OwnerTold PoolInfo.onServer
    rw [hcalls]
    exact Bool.false_ne_true
  obtain ⟨s₁, hs₁⟩ : ∃ s₁, s₁ = s.exec StdSort.mergeSort noMd5 (.ask [] randomSlb 0 0 serverZero 0 ⟨0, 0⟩) :=
    ⟨_, rfl⟩
  have hrun₁ := hrun.step ⟨⟨hen, hs₁⟩, hpick⟩
  have hheap₁ : s₁.tables.router.heap a = some { pool with
      info := (pool.info.onServer 0
        ((SrvOp.fetch sub 0 ⟨0, 0⟩).code pool.info.conf (pool.info.serverArr 0))).1 } := by
    rw [hs₁, hexec]
    exact MetaState.exec_pool_kept hheap hkept
  -- the connection stands, and is handed over
  have hen₁ : s₁.Enabled (.pool a 0 (.created ⟨0, 0⟩ 0 ⟨0, 0⟩)) := by
    refine ⟨trivial, fun he => (by cases he), _, hheap₁, ?_, ?_⟩
    · show 0 < pool.servers.length
      rw [hlen]
      exact Nat.one_pos
    · show ((pool.info.onServer 0 _).1.serverArr 0).freed = false
      rw [PoolInfo.onServer_arr, Function.update_self, hconf, hfresh]
      exact hfreed
  have hcb : (a, 0, some ⟨0, 0⟩, sub) ∈ s₁.handsOut StdSort.mergeSort noMd5
      (.pool a 0 (.created ⟨0, 0⟩ 0 ⟨0, 0⟩)) := by
    unfold Routed.handsOut
    simp only [hheap₁, PoolInfo.onServer_conf, PoolInfo.onServer_arr, Function.update_self,
      hconf, hfresh, hback]
    exact List.mem_singleton_self _
  obtain ⟨q, hq, hsub, ha, hi, hconfigured, -⟩ := requests_configured hrun₁ hen₁ trivial hcb
  exact ⟨_, s₁, _, a, 0, ⟨0, 0⟩, sub, hrun₁, hen₁, hcb, q, hq, hsub, ha, hi, hconfigured⟩

/-- What happens to lie behind an array: a server with a free connection. -/
def strayServer : ServerInfo (RoutedSub Unit) :=
  poolConnectQueuePut { serverZero with connectArr := fun _ => { handle := some ⟨0, 0⟩ } } 0

/-- With -1 attempts the variable is not set, and the sub-request is given whatever lies
where a sixth server would be. -/
theorem requests_misrouted : ¬ ∀ (tr : List (Routed Unit × RoutedOp Unit)) (s : Routed Unit) (op : RoutedOp Unit)
    (a i : Nat) (hd : Option Handle) (sub : RoutedSub Unit),
    (routedLts StdSort.mergeSort noMd5 Unit).Run tr s → s.Enabled op →
    (a, i, hd, sub) ∈ s.handsOut StdSort.mergeSort noMd5 op →
    ∃ q ∈ (s.exec StdSort.mergeSort noMd5 op).asked, q.sub = sub ∧ q.pool = a ∧ q.server = i
      ∧ q.Configured ∧ ∃ pool, s.tables.router.heap a = some pool ∧ pool.servers[i]? = q.addr := by
  intro hall
  obtain ⟨tr, s, a, pool, sub, hrun, hnext, hasked, hlen, hinfo⟩ :=
    retryConf_next StdSort.mergeSort noMd5 4294967295
  obtain ⟨-, -, -, -, -, hheap, -⟩ := Routed.next_eq hnext
  have hneg : pool.info.conf.connectRetry < 0 := by
    rw [hinfo]
    decide
  have hpos : 0 < pool.info.serverCount := by
    rw [hinfo]
    exact Int.one_pos
  have hbal : pool.balance StdSort.mergeSort noMd5 [] randomSlb 0 5 = some 5 :=
    RouterPool.balance_stray hneg hpos (by decide)
  have hen : s.Enabled (.ask [] randomSlb 0 5 strayServer 0 ⟨0, 0⟩) :=
    fun he => Option.some_ne_none _ (hnext.symm.trans he)
  have hcb : (a, 5, some ⟨0, 0⟩, sub) ∈ s.handsOut StdSort.mergeSort noMd5
      (.ask [] randomSlb 0 5 strayServer 0 ⟨0, 0⟩) := by
    have hout : ¬ 5 < pool.servers.length := by omega
    unfold Routed.handsOut
    simp only [hnext, hbal, RouterPool.serverAt, if_neg hout]
    exact List.mem_singleton_self _
  obtain ⟨q, -, -, -, -, ⟨-, -, -, -, -, -, -, sc, hsc, -⟩, pool', hpool', haddr⟩ :=
    hall tr s _ a 5 _ sub hrun.of_restrict.1 hen hcb
  rw [hheap] at hpool'
  cases hpool'
  rw [hsc, List.getElem?_eq_none (by omega)] at haddr
  cases haddr

end RedisAgent
