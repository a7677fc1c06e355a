/-
  RedisAgent.Meta.Restart — a proxy that was reloaded decides like one that was restarted.

  Nothing of the configurations before is left: the half of the router in force was filled
  for the configuration accepted last, whatever was built and torn down in the other, and the
  index was filled anew.  A reload that failed has only touched the table and the map of the
  half that is not in force.

  One setting a pool does not have itself: the name of the machine room is looked up in the
  table the pool was built from (`MetaState.roomOf`).  A reload that fails with the old table
  dropped leaves the pools in force with a pointer into freed memory.

  Main results:
    • `RouterFollows.step` — the router serves by the configuration accepted last, whatever
      happens;
    • `reload_is_restart` — what a request is decided by follows from that configuration.
-/
import RedisAgent.Meta.Rights
import RedisAgent.Router.Routes

namespace RedisAgent

variable {σ : Type*} {s s' : Governed σ}

/-! ## §1. The router. -/

/-- **The router serves by the configuration accepted last.** -/
structure RouterFollows (s : Governed σ) : Prop where
  heap : HeapInv (fun _ _ _ => True) s.tables.router
  flags : s.tables.router.routerFlag ≠ s.tables.router.routerNextFlag
  serves : ∃ table db, Returns (metaLoadConf s.accepted) {} () db
    ∧ ServesBy s.tables.router table db ∧ (s.failed = none → s.tables.table = table)

/-- What a reload puts in force, and when it leaves the configuration. -/
theorem Governed.exec_reload {t ret : Int} {file : Option Configure} {tables : MetaState σ}
    (h : s.tables.confReload t file = some (ret, tables)) :
    (s.exec (.reload t file)).tables = tables
      ∧ ((s.exec (.reload t file)).accepted = s.accepted
          ∧ ((s.exec (.reload t file)).failed = none → s.failed = none ∧ tables.table = s.tables.table)
        ∨ (ret = 0 ∧ file = some (s.exec (.reload t file)).accepted
          ∧ s.tables.confLastmodify < t ∧ s.tables.router.routerSwitching = false)) := by
  have htable := MetaState.confReload_tables h
  unfold Governed.exec
  simp only [h]
  cases htakes : s.tables.takes t file with
  | none =>
      rcases htable with ⟨-, hsame, -⟩ | ⟨conf, htakes', -⟩
      · exact ⟨rfl, Or.inl ⟨rfl, fun hf => ⟨hf, hsame⟩⟩⟩
      · rw [htakes] at htakes'
        cases htakes'
  | some conf =>
      simp only
      unfold MetaState.takes at htakes
      split at htakes
      · rename_i hgo
        obtain ⟨hfile, -⟩ := Option.filter_eq_some_iff.1 htakes
        by_cases hret : ret = 0
        · rw [if_pos hret]
          exact ⟨rfl, Or.inr ⟨hret, hfile, hgo⟩⟩
        · rw [if_neg hret]
          exact ⟨rfl, Or.inl ⟨rfl, fun hf => by cases hf⟩⟩
      · cases htakes

/-- A reload that returns 0 after it was tried. -/
theorem Governed.exec_accepted {t ret : Int} {conf : Configure} {tables : MetaState σ}
    (h : s.tables.confReload t (some conf) = some (ret, tables)) (hret : ret = 0)
    (hgo : s.tables.confLastmodify < t ∧ s.tables.router.routerSwitching = false) :
    (s.exec (.reload t (some conf))).accepted = conf := by
  rcases MetaState.confReload_tables h with ⟨-, -, -, -, hno⟩ | ⟨conf', htakes, hfile, -, -⟩
  · exact absurd ⟨hgo.1, hgo.2, hret⟩ hno
  · obtain rfl := Option.some_inj.1 hfile
    unfold Governed.exec
    simp only [h, htakes, if_pos hret]

/-- A build from an accepted table. -/
theorem RouterFollows.built {db : MetaDbInfo} {r : RouterState σ}
    (hheap : HeapInv (fun _ _ _ => True) r) (hdb : Returns (metaLoadConf s.accepted) {} () db)
    (hbuild : r.build s.tables.table db = some (0, s.tables.router)) : RouterFollows s := by
  obtain ⟨hserves, hheap', -, hflags⟩ := ServesBy.build hheap hbuild
  exact ⟨hheap', hflags, _, db, hdb, hserves, fun _ => rfl⟩

theorem RouterFollows.init (h : (governedLts σ).init s) : RouterFollows s := by
  obtain ⟨⟨t, ht, hload⟩, -⟩ := h
  have hheap : HeapInv (fun _ _ _ => True) (metaStart : MetaState σ).router := by
    refine ⟨fun a p hp => ?_, fun m k a hk => ?_, fun a p hp => ?_, fun a p hp => ?_⟩
    · cases hp
    · cases hk
    · cases hp
    · cases hp
  rcases MetaState.confReload_cases hload with ⟨-, hno⟩ | ⟨-, conf, ret', hfile, hdb, hbuild, hret⟩
  · exact absurd ⟨ht, rfl, rfl⟩ hno
  · obtain rfl := Option.some_inj.1 hfile
    obtain rfl := hret.1 rfl
    exact .built hheap hdb hbuild

theorem RouterFollows.step (h : RouterFollows s) {op : MetaOp σ} (hen : s.tables.Enabled op) :
    RouterFollows (s.exec op) := by
  obtain ⟨table, db, hdb, hserves, htable⟩ := h.serves
  cases op with
  | pool a i op =>
      have hd := s.tables.drains_pool a i op
      have hsame : (s.tables.exec (.pool a i op)).table = s.tables.table := by
        unfold MetaState.exec
        simp only
        split <;> rfl
      refine ⟨h.heap.drains hd (fun _ _ _ _ => trivial), ?_, table, db, hdb, hserves.drains hd,
        fun hf => hsame.trans (htable hf)⟩
      show (s.tables.exec (.pool a i op)).router.routerFlag ≠ (s.tables.exec (.pool a i op)).router.routerNextFlag
      rw [hd.map.flag, hd.map.nextFlag]
      exact h.flags
  | reload t file =>
      obtain ⟨⟨ret, tables⟩, hload⟩ := hen
      obtain ⟨htables, haccepted⟩ := Governed.exec_reload hload
      rcases MetaState.confReload_cases hload with
        ⟨hrouter, hno⟩ | ⟨hgo, conf, ret', rfl, hdb', hbuild, hret⟩
      · -- the router was left alone, and so the configuration was not accepted
        obtain ⟨hkept, hfailed⟩ := haccepted.resolve_right fun hx => hno ⟨hx.2.2.1, hx.2.2.2, hx.1⟩
        refine ⟨?_, ?_, table, db, ?_, ?_, ?_⟩
        · rw [htables, hrouter]
          exact h.heap
        · rw [htables, hrouter]
          exact h.flags
        · rw [hkept]
          exact hdb
        · rw [htables, hrouter]
          exact hserves
        · intro hf
          rw [htables, (hfailed hf).2]
          exact htable (hfailed hf).1
      · by_cases hzero : ret' = 0
        · subst hzero
          have hnew := Governed.exec_accepted hload (hret.2 rfl) hgo
          have hbuild' : s.tables.router.build (s.exec (.reload t (some conf))).tables.table tables.db
              = some (0, (s.exec (.reload t (some conf))).tables.router) := by
            rw [htables]
            exact hbuild
          exact .built h.heap (hnew.symm ▸ hdb') hbuild'
        · -- the map was refused: only the half that is not in force has changed
          obtain ⟨hkept, hfailed⟩ := haccepted.resolve_right fun hx => hzero (hret.1 hx.1)
          obtain ⟨sw, f, hout⟩ := RouterState.build_kept hbuild hzero
          have hsame : SameSlots s.tables.router tables.router := by
            rw [hout]
            exact ⟨rfl, rfl, rfl, rfl⟩
          refine ⟨?_, ?_, table, db, ?_, ?_, ?_⟩
          · rw [htables]
            exact h.heap.congr hsame
          · rw [htables, hout]
            exact h.flags
          · rw [hkept]
            exact hdb
          · rw [htables]
            exact hserves.refused h.flags hbuild hzero
          · intro hf
            rw [htables, (hfailed hf).2]
            exact htable (hfailed hf).1

theorem RouterFollows.of_reachable (h : (governedLts σ).Reachable s) : RouterFollows s :=
  h.invariant (fun _ hi => .init hi) fun _ _ _ _ ih hstep => by
    obtain ⟨hen, rfl⟩ := hstep
    exact ih.step hen

/-! ## §2. What a request is decided by. -/

/-- What `m_machineRoom` of a pool points to; `none` is memory that was freed. -/
def MetaState.roomOf (s : MetaState σ) (pool : RouterPool σ) : Option CString :=
  if pool.machineRoom = s.table then some s.db.machineRoom else none

/-- A key has the same partition, and the pools it leads to have the same servers and
settings, but for the machine room. -/
structure SameRoutes (s s' : MetaState σ) : Prop where
  shard : ∀ key, s.router.router.shardKeyOf key = s'.router.router.shardKeyOf key
  pools : ∀ key isRead a a' pool pool', s.poolOf key isRead = some a → s.router.heap a = some pool →
    s'.poolOf key isRead = some a' → s'.router.heap a' = some pool' →
    pool.servers = pool'.servers ∧ pool.info.conf = pool'.info.conf
      ∧ pool.cTimeOutMs = pool'.cTimeOutMs ∧ pool.longConnect = pool'.longConnect

/-- Users, tokens and the timeout, and the machine room. -/
structure SameRights (s s' : MetaState σ) : Prop where
  auth : ∀ uname tk ip, s.authCheck uname tk ip = s'.authCheck uname tk ip
  timeout : s.getTimeout = s'.getTimeout
  room : ∀ key isRead a a' pool pool', s.poolOf key isRead = some a → s.router.heap a = some pool →
    s'.poolOf key isRead = some a' → s'.router.heap a' = some pool' →
    ∃ room, s.roomOf pool = some room ∧ s'.roomOf pool' = some room

/-- A key of partition `i` leads to slot `i` of the half in force. -/
theorem MetaState.poolOf_slot (s : MetaState σ) {key : List UInt8} {i : Nat}
    (h : s.router.router.shardKeyOf key = i) (isRead : Bool) :
    s.poolOf key isRead = s.router.poolMap (Mode.ofRead isRead) (slotIn s.router.routerFlag i) := by
  unfold MetaState.poolOf Router.getShard
  rw [h]
  cases isRead <;> rfl

/-- The partition of a key, and the pool a request for it finds. -/
theorem ServesBy.poolOf {table : Nat} {db : MetaDbInfo} {s : MetaState σ}
    (h : ServesBy s.router table db) (key : List UInt8) :
    ∃ i < db.partitionNum.toNat, (∀ j < db.partitionNum.toNat, keySlot key ∈ db.slots j ↔ j = i)
      ∧ s.router.router.shardKeyOf key = i ∧ ∀ isRead a pool, s.poolOf key isRead = some a →
        s.router.heap a = some pool → pool.BuiltFrom table db (Mode.ofRead isRead) i := by
  obtain ⟨i, hi, honly, hkey⟩ := h.routes key
  refine ⟨i, hi, honly, hkey, fun isRead a pool ha hpool => ?_⟩
  exact h.placed (Mode.ofRead isRead) i hi a pool ((s.poolOf_slot hkey isRead).symm.trans ha) hpool

/-- The machine room of a pool in force, when no reload has failed half-way since. -/
theorem ServesBy.roomOf {table : Nat} {db : MetaDbInfo} {s : MetaState σ}
    (h : ServesBy s.router table db) (htable : s.table = table) {key : List UInt8} {isRead : Bool}
    {a : Nat} {pool : RouterPool σ} (ha : s.poolOf key isRead = some a)
    (hpool : s.router.heap a = some pool) : s.roomOf pool = some s.db.machineRoom := by
  obtain ⟨i, -, -, -, hpools⟩ := h.poolOf key
  unfold MetaState.roomOf
  rw [if_pos ((hpools isRead a pool ha hpool).machineRoom.trans htable.symm)]

/-- **A reload is a restart.**  Two proxies that have accepted the same configuration last, one
of them freshly started perhaps, send every key to the same servers, whatever else has been
reloaded, has failed and has been torn down before.  If no reload has failed half-way since,
they also let the same requests in, give them the same time, and prefer the same machine
room. -/
theorem reload_is_restart (h : (definedLts σ).Reachable s) (h' : (definedLts σ).Reachable s')
    (hsame : s.accepted = s'.accepted) : SameRoutes s.tables s'.tables
      ∧ (s.failed = none → s'.failed = none → SameRights s.tables s'.tables) := by
  have hgov := governed_of_defined h
  have hgov' := governed_of_defined h'
  obtain ⟨table, db, hdb, hserves, htable⟩ := (RouterFollows.of_reachable hgov).serves
  obtain ⟨table', db', hdb', hserves', htable'⟩ := (RouterFollows.of_reachable hgov').serves
  rw [hsame] at hdb
  obtain rfl := (hdb.unique hdb').2
  constructor
  · refine ⟨fun key => ?_, fun key isRead a a' pool pool' ha hpool ha' hpool' => ?_⟩
    · obtain ⟨i, hi, honly, hkey, -⟩ := hserves.poolOf key
      obtain ⟨i', hi', honly', hkey', -⟩ := hserves'.poolOf key
      rw [hkey, hkey', (honly' i hi).1 ((honly i hi).2 rfl)]
    · obtain ⟨i, hi, honly, -, hpools⟩ := hserves.poolOf key
      obtain ⟨i', hi', honly', -, hpools'⟩ := hserves'.poolOf key
      obtain rfl := (honly' i hi).1 ((honly i hi).2 rfl)
      have hbuilt := hpools isRead a pool ha hpool
      have hbuilt' := hpools' isRead a' pool' ha' hpool'
      exact ⟨hbuilt.servers.trans hbuilt'.servers.symm, hbuilt.conf.trans hbuilt'.conf.symm,
        hbuilt.cTimeOutMs.trans hbuilt'.cTimeOutMs.symm,
        hbuilt.longConnect.trans hbuilt'.longConnect.symm⟩
  · intro hnone hnone'
    obtain ⟨db₁, hdb₁, hauth, hload⟩ := (GovernedInv.of_reachable hgov).index
    obtain ⟨db₂, hdb₂, hauth', hload'⟩ := (GovernedInv.of_reachable hgov').index
    rw [hsame] at hdb₁
    obtain rfl := (hdb₁.unique hdb₂).2
    have hdbs : s.tables.db = s'.tables.db := (hload hnone).trans (hload' hnone').symm
    refine ⟨fun uname tk ip => ?_, ?_, fun key isRead a a' pool pool' ha hpool ha' hpool' => ?_⟩
    · unfold MetaState.authCheck
      rw [hauth, hauth', hdbs]
    · unfold MetaState.getTimeout
      rw [hdbs]
    · refine ⟨s.tables.db.machineRoom, hserves.roomOf (htable hnone) ha hpool, ?_⟩
      rw [hdbs]
      exact hserves'.roomOf (htable' hnone') ha' hpool'

/-- A proxy that was started with another timeout, and one that was not. -/
theorem reload_is_restart_witness : ∃ s s' : Governed Nat, s.tables.confLastmodify = 1
    ∧ s'.tables.confLastmodify = 2 ∧ SameRoutes s.tables s'.tables ∧ SameRights s.tables s'.tables := by
  obtain ⟨s, hreach, haccepted, hfailed, htime⟩ := oneUserConf_starts (σ := Nat)
  obtain ⟨db, hdb, hcov, hmode, hle, -⟩ := timedConf_returns 200
  obtain ⟨db', hdb', hcov', hmode', hle'⟩ := oneUserConf_returns
  -- the first configuration, and the router ready for the second
  obtain ⟨r, hr, hstart⟩ := MetaState.confReload_accepts (s := (metaStart : MetaState Nat))
    ⟨Int.one_pos, rfl⟩ (Or.inl rfl) rfl hdb hcov hmode hle
  have hen : (⟨routerInit, none, none⟩ : RouterRun Nat).Enabled (.build 1 db) :=
    ⟨rfl, by rw [← MetaDbInfo.passes_of_small hcov.small]; exact hle, r, hr⟩
  have hrun : RunInv (⟨r, some db, none⟩ : RouterRun Nat) := by
    have hnext := (RunInv.init.step hen).1
    simp only [RouterRun.exec, show (routerInit : RouterState Nat).build 1 db = some (0, r) from hr] at hnext
    exact hnext
  obtain ⟨first, hfirst⟩ : ∃ first : MetaState Nat,
      first = ⟨some (timedConf 200), 1, 1, db, metaAuthLoad db.users, r⟩ := ⟨_, rfl⟩
  have hrouter : first.router = r := by rw [hfirst]
  have hgo : first.confLastmodify < 2 ∧ first.router.routerSwitching = false := by
    rw [hfirst]
    exact ⟨show (1 : Int) < 2 by decide, hrun.idle rfl⟩
  have hflag : IsFlag first.router.routerNextFlag := by
    rw [hrouter]
    exact hrun.inv.nextFlag
  obtain ⟨r', -, hreload⟩ := MetaState.confReload_accepts hgo hflag
    (show oneUserConf.dbs = some 1 from rfl) hdb' hcov' hmode' hle'
  have hreach₁ : (definedLts Nat).Reachable ⟨first, timedConf 200, none⟩ := by
    rw [hfirst]
    exact .init ⟨⟨⟨1, Int.one_pos, hstart⟩, rfl⟩, timedConf_fits 200 _⟩
  -- it has no services, so nothing is torn down
  have hsafe : ¬ first.Faults (.reload 2 (some oneUserConf)) := by
    rintro ⟨-, hdestroys⟩
    refine hdestroys ?_
    rw [hrouter]
    refine hrun.inv.destroysSafely ?_
    intro m i _
    show (db.partitionService m i).length ≤ 1
    rw [(metaLoadConf_loaded hdb).partitionService, (metaLoadConf_loaded hdb).sharedBy_length]
    exact Nat.zero_le _
  have hreach' := hreach₁.step (l := MetaOp.reload 2 (some oneUserConf))
    ⟨⟨⟨_, hreload⟩, rfl⟩, fun conf hconf => by cases hconf; exact timedConf_fits 100 _, hsafe⟩
  have htakes : first.takes 2 (some oneUserConf) = some oneUserConf := by
    unfold MetaState.takes
    rw [if_pos hgo]
    rfl
  have hexec : Governed.exec ⟨first, timedConf 200, none⟩ (.reload 2 (some oneUserConf))
      = ⟨⟨some oneUserConf, 2, first.table + 1, db', metaAuthLoad db'.users, r'⟩, oneUserConf, none⟩ := by
    unfold Governed.exec
    simp only [hreload, htakes, if_true]
  rw [hexec] at hreach'
  obtain ⟨hroutes, hrights⟩ := reload_is_restart hreach hreach' haccepted
  exact ⟨s, _, htime, rfl, hroutes, hrights hfailed rfl⟩

end RedisAgent
