/-
  RedisAgent.Meta.Unbroken — no key is ever without its pools.

  A reload fills one half of the router and tears the other down, and a reload may be refused
  with the map of a half already written.  All the while each key has a pool to be read from
  and one to be written to, none of whose servers is on its way out, as long as nothing
  undefined happens (`definedLts`).  A file that stays inside the arrays is always read to an
  end, so that none is left out of these runs for want of a result (`PoolsStand.reload_ends`).

  A file whose shard mode is not supported leaves `router_switching` set for good, so that
  nothing is reloaded any more.  The pools do not notice: `RouterInv` is kept with the flag as
  it would be.

  Main results:
    • `RouterState.onPool_switching` — a pool does not look at `router_switching`;
    • `PoolsStand.step` — what one operation leaves standing;
    • `router_keeps_pools` — the pools of every key, in every run.
-/
import RedisAgent.Meta.Restart

namespace RedisAgent

variable {σ : Type*}

/-! ## §1. The switching flag. -/

/-- The router, with another switching flag. -/
def RouterState.withSwitching (r : RouterState σ) (b : Bool) : RouterState σ :=
  { r with routerSwitching := b }

/-- **A pool does not look at the flag**, and clears it when it is the last of its half. -/
theorem RouterState.onPool_switching (r : RouterState σ) (b : Bool) (a : Nat) (pool : RouterPool σ)
    (res : PoolInfo σ × Calls σ) (himp : r.routerSwitching = false → b = false) :
    ∃ b', (r.withSwitching b).onPool a pool res = (r.onPool a pool res).withSwitching b'
      ∧ ((r.onPool a pool res).routerSwitching = false → b' = false) := by
  unfold RouterState.onPool
  by_cases htold : (res.2.any fun c => c.2.isPoolDestroyed) = true
  · simp only [if_pos htold]
    unfold RouterState.onDestroy RouterState.withSwitching
    simp only
    split
    · exact ⟨false, rfl, fun _ => rfl⟩
    · exact ⟨b, rfl, himp⟩
  · simp only [if_neg htold]
    exact ⟨b, rfl, himp⟩

theorem RouterState.withSwitching_self (r : RouterState σ) {b : Bool} (h : r.routerSwitching = b) :
    r.withSwitching b = r := by
  unfold RouterState.withSwitching
  rw [← h]

/-! ## §2. The invariant. -/

/-- **The pools stand**: the router is in order, but for its switching flag. -/
structure PoolsStand (s : Governed σ) : Prop where
  router : ∃ b db old, RouterInv (s.tables.router.withSwitching b) db old
    ∧ Returns (metaLoadConf s.accepted) {} () db ∧ db.passes = db.partitionNum.toNat
    ∧ (s.tables.router.routerSwitching = false → b = false)

variable {s : Governed σ} {db old : MetaDbInfo}

theorem Configure.Fits.passes {conf : Configure} (h : conf.Fits)
    (hdb : Returns (metaLoadConf conf) {} () db) :
    db.passes = db.partitionNum.toNat ∧ db.passes ≤ partitionModKeyNat := by
  have hle := h.partitions _ (metaLoadConf_loaded hdb).partitionNum
  have hpasses := MetaDbInfo.passes_of_le hle
  exact ⟨hpasses, hpasses ▸ hle⟩

/-- An accepted table. -/
theorem PoolsStand.built {r : RouterState σ} (hinv : RouterInv r old db) {new : MetaDbInfo}
    (hsw : r.routerSwitching = false) (hfits : s.accepted.Fits)
    (hdb : Returns (metaLoadConf s.accepted) {} () new) {table : Nat}
    (hbuild : r.build table new = some (0, s.tables.router)) : PoolsStand s := by
  obtain ⟨hpasses, hle⟩ := hfits.passes hdb
  obtain ⟨-, -, -, hout, -⟩ := hinv.build hsw hle hbuild
  refine ⟨s.tables.router.routerSwitching, new, old, ?_, hdb, hpasses, id⟩
  rw [RouterState.withSwitching_self _ rfl]
  exact hout

theorem PoolsStand.init (h : (definedLts σ).init s) : PoolsStand s := by
  obtain ⟨⟨⟨t, ht, hload⟩, -⟩, hfits⟩ := h
  rcases MetaState.confReload_cases hload with ⟨-, hno⟩ | ⟨-, conf, ret', hfile, hdb, hbuild, hret⟩
  · exact absurd ⟨ht, rfl, rfl⟩ hno
  · obtain rfl := Option.some_inj.1 hfile
    obtain rfl := hret.1 rfl
    exact .built RunInv.init.inv rfl hfits hdb hbuild

/-- An entry into a pool. -/
theorem PoolsStand.pool (h : PoolsStand s) {a i : Nat} {op : SrvOp σ}
    (hen : s.tables.Enabled (.pool a i op)) : PoolsStand (s.exec (.pool a i op)) := by
  obtain ⟨b, db, old, hinv, hdb, hpasses, himp⟩ := h.router
  obtain ⟨hop, pool, hp, hi, hfreed⟩ := hen
  have hafter := (hinv.onServer hop hp hi hfreed).1
  obtain ⟨b', hsame, himp'⟩ := s.tables.router.onPool_switching b a pool
    (pool.info.onServer i (op.code pool.info.conf (pool.info.serverArr i))) himp
  have hexec : (s.exec (.pool a i op)).tables.router = s.tables.router.onPool a pool
      (pool.info.onServer i (op.code pool.info.conf (pool.info.serverArr i))) := by
    show (s.tables.exec (.pool a i op)).router = _
    unfold MetaState.exec
    simp only [hp]
  rw [hsame] at hafter
  refine ⟨b', db, old, ?_, hdb, hpasses, ?_⟩
  · rw [hexec]
    exact hafter
  · rw [hexec]
    exact himp'

/-- A reload: whatever comes of it, nothing was being switched when it began. -/
theorem PoolsStand.reload (h : PoolsStand s) {t : Int} {file : Option Configure}
    (hen : s.tables.Enabled (.reload t file)) (hfits : ∀ conf, file = some conf → conf.Fits) :
    PoolsStand (s.exec (.reload t file)) := by
  obtain ⟨b, db, old, hinv, hdb, hpasses, himp⟩ := h.router
  obtain ⟨⟨ret, tables⟩, hload⟩ := hen
  obtain ⟨htables, haccepted⟩ := Governed.exec_reload hload
  rcases MetaState.confReload_cases hload with
    ⟨hrouter, hno⟩ | ⟨hgo, conf, ret', rfl, hdb', hbuild, hret⟩
  · obtain ⟨hkept, -⟩ := haccepted.resolve_right fun hx => hno ⟨hx.2.2.1, hx.2.2.2, hx.1⟩
    refine ⟨b, db, old, ?_, ?_, hpasses, ?_⟩
    · rw [htables, hrouter]
      exact hinv
    · rw [hkept]
      exact hdb
    · rw [htables, hrouter]
      exact himp
  · obtain rfl := himp hgo.2
    rw [s.tables.router.withSwitching_self hgo.2] at hinv
    by_cases hzero : ret' = 0
    · subst hzero
      have hnew := Governed.exec_accepted hload (hret.2 rfl) hgo
      have hbuild' : s.tables.router.build tables.table tables.db
          = some (0, (s.exec (.reload t (some conf))).tables.router) := by
        rw [htables]
        exact hbuild
      exact .built hinv hgo.2 (hnew.symm ▸ hfits conf rfl) (hnew.symm ▸ hdb') hbuild'
    · -- the map was refused; what is left of the flag does not count
      obtain ⟨hkept, -⟩ := haccepted.resolve_right fun hx => hzero (hret.1 hx.1)
      obtain ⟨sw, f, hout⟩ := RouterState.build_kept hbuild hzero
      refine ⟨false, db, old, ?_, ?_, hpasses, fun _ => rfl⟩
      · rw [htables, hout]
        have hsame : SameSlots s.tables.router (RouterState.withSwitching { s.tables.router with
            routerSwitching := sw
            routerMap := Function.update s.tables.router.routerMap s.tables.router.routerNextFlag f } false) :=
          ⟨rfl, rfl, rfl, rfl⟩
        exact ⟨hinv.toBuffersInv.congr hsame rfl rfl, iff_of_true rfl (hinv.switching.1 hgo.2)⟩
      · rw [hkept]
        exact hdb

theorem PoolsStand.step (h : PoolsStand s) {op : MetaOp σ} (hen : s.tables.Enabled op)
    (hfits : op.Fits) : PoolsStand (s.exec op) := by
  cases op with
  | pool a i op => exact h.pool hen
  | reload t file => exact h.reload hen hfits

theorem PoolsStand.of_reachable (h : (definedLts σ).Reachable s) : PoolsStand s :=
  h.invariant (fun _ hi => .init hi) fun _ _ _ _ ih hstep => by
    obtain ⟨⟨hen, rfl⟩, hfits, -⟩ := hstep
    exact ih.step hen hfits

/-! ## §3. The pools of a key. -/

/-- A reload comes to an end. -/
theorem PoolsStand.reload_ends (h : PoolsStand s) (t : Int) {file : Option Configure}
    (hfits : ∀ conf, file = some conf → conf.Fits) : s.tables.Enabled (.reload t file) := by
  obtain ⟨b, db, old, hinv, -⟩ := h.router
  exact s.tables.confReload_defined hinv.nextFlag t hfits

/-- **No key is ever without its pools.**  Whatever has been reloaded, with whatever result, and
whatever is being torn down: for reading and for writing, each key has a pool, in memory, with
no server torn down or on its way, and its servers are those of the partition that owns the key
in the configuration accepted last. -/
theorem router_keeps_pools (h : (definedLts σ).Reachable s) (key : List UInt8) (isRead : Bool) :
    ∃ db i a pool, Returns (metaLoadConf s.accepted) {} () db ∧ i < db.partitionNum.toNat
      ∧ (∀ j < db.partitionNum.toNat, keySlot key ∈ db.slots j ↔ j = i)
      ∧ s.tables.poolOf key isRead = some a ∧ s.tables.router.heap a = some pool ∧ pool.freed = false
      ∧ pool.info.mem = .allocated
      ∧ pool.servers = (db.partitionService (Mode.ofRead isRead) i).map poolServiceConf
      ∧ ∀ k, (pool.info.serverArr k).destroyFlag = false ∧ (pool.info.serverArr k).freed = false := by
  obtain ⟨b, db, old, hinv, hdb, hpasses, -⟩ := (PoolsStand.of_reachable h).router
  obtain ⟨table, db', hdb', hserves, -⟩ := (RouterFollows.of_reachable (governed_of_defined h)).serves
  obtain rfl := (hdb.unique hdb').2
  obtain ⟨i, hi, honly, hkey, hpools⟩ := hserves.poolOf key
  obtain ⟨a, pool, ha, hp, hun⟩ := hinv.inUse (Mode.ofRead isRead) i (hpasses ▸ hi)
  have hpool : s.tables.poolOf key isRead = some a := (s.tables.poolOf_slot hkey isRead).trans ha
  obtain ⟨pool', hp', hfreed, -⟩ := hinv.slots.held _ _ a ha
  obtain rfl := Option.some_inj.1 (hp.symm.trans hp')
  exact ⟨db, i, a, pool, hdb, hi, honly, hpool, hp, hfreed, hun.mem,
    (hpools isRead a pool hpool hp).servers, hun.flags⟩

/-- A proxy that has just been started. -/
theorem router_keeps_pools_witness : ∃ (s : Governed Nat) (a : Nat) (pool : RouterPool Nat),
    s.accepted = oneUserConf ∧ s.tables.poolOf [107] true = some a
      ∧ s.tables.router.heap a = some pool ∧ pool.freed = false := by
  obtain ⟨db, hdb, hcov, hmode, hle⟩ := oneUserConf_returns
  obtain ⟨r, -, hstart⟩ := MetaState.confReload_accepts (s := (metaStart : MetaState Nat))
    ⟨Int.one_pos, rfl⟩ (Or.inl rfl) rfl hdb hcov hmode hle
  have hreach : (definedLts Nat).Reachable ⟨_, oneUserConf, none⟩ :=
    .init ⟨⟨⟨1, Int.one_pos, hstart⟩, rfl⟩, timedConf_fits 100 _⟩
  obtain ⟨db', i, a, pool, -, -, -, ha, hp, hfreed, -⟩ := router_keeps_pools hreach [107] true
  exact ⟨_, a, pool, rfl, ha, hp, hfreed⟩

end RedisAgent
