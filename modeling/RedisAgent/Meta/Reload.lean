/-
  RedisAgent.Meta.Reload — `_meta_conf_reload`.

  A new configuration file replaces the tables, the pools and the user index, in this
  order.  Each stage may fail, and then what was done before it stands: `_meta_load_conf`
  leaves a table filled up to the value that was missing, and a partition map that is
  refused leaves the new table to the old pools and the old user index.

  `file` is what `p->load` reads, `none` when it fails, and `t` the time of the file.  A
  `router_build` that would leave an array has no result: a file with the slot 65536, or
  with more partitions than a half has slots, writes into what lies behind, and the reload
  of such a file is no step of the runs below.

  Tables are numbered in the order they are made, and `table` is the number of
  `meta->dbs[0]`: a pointer into an earlier one points to memory that was freed.

  Main results:
    • `MetaState.Atomic` — what a failed reload should leave as it was;
    • `failed_reload_atomic_iff` — it does so for the files that are refused before the
      old table is dropped, and for no others.
-/
import RedisAgent.Router.Capacity
import RedisAgent.Router.ShardMap

namespace RedisAgent

variable {σ : Type*}

/-! ## §1. The code. -/

/-- The globals of meta.cpp, and the router.  `db` is `meta->dbs[0]`; until the first
load it is `NULL`, and nothing looks at it. -/
structure MetaState (σ : Type*) where
  conf : Option Configure
  confLastmodify : Int
  table : Nat
  db : MetaDbInfo
  metaAuth : HashMapAuth
  router : RouterState σ

/-- What `meta_init` starts from. -/
def metaStart : MetaState σ where
  conf := none
  confLastmodify := 0
  table := 0
  db := {}
  metaAuth := fun _ => none
  router := routerInit

/-- `_meta_build_router`, with the configuration file `conf`.  `_meta_info_clean` always
succeeds. -/
def MetaState.buildRouter (s : MetaState σ) (conf : Configure) : Option (Int × MetaState σ) :=
  match metaLoadConf conf {} with
  | .error ret db => some (ret, { s with table := s.table + 1, db := db })
  | .ok _ db =>
      (s.router.build (s.table + 1) db).map
        (fun (ret, r) => (ret, { s with table := s.table + 1, db := db, router := r }))

/-- `_meta_conf_reload` -/
def MetaState.confReload (s : MetaState σ) (t : Int) (file : Option Configure) :
    Option (Int × MetaState σ) :=
  if s.confLastmodify < t ∧ s.router.routerSwitching = false then
    match file with
    | none => some (-1, s)
    | some conf =>
        let s := { s with conf := some conf, confLastmodify := t }
        if conf.dbs ≠ some 1 then some (-1, s)
        else
          (s.buildRouter conf).map (fun (ret, s) =>
            if ret ≠ 0 then (-1, s) else (0, { s with metaAuth := metaAuthLoad s.db.users }))
  else some (0, s)

/-- `meta_auth_check` -/
def MetaState.authCheck (s : MetaState σ) (uname tk ip : Option CString) : Option Int :=
  metaAuthCheck s.metaAuth s.db.users uname tk ip

/-- `meta_get_timeout` -/
def MetaState.getTimeout (s : MetaState σ) : UInt32 × UInt32 := (s.db.timeoutSec, s.db.timeoutUsec)

/-- The pool `router_acquire_shards` chooses for a key. -/
def MetaState.poolOf (s : MetaState σ) (key : List UInt8) (isRead : Bool) : Option Nat :=
  s.router.router.getShard (s.router.router.shardKeyOf key) isRead

/-! ## §2. Runs. -/

/-- What happens to the tables and the router. -/
inductive MetaOp (σ : Type*)
  | reload (t : Int) (file : Option Configure)
  /-- an entry into server `i` of the pool at `a` -/
  | pool (a i : Nat) (op : SrvOp σ)

/-- The state after one operation. -/
def MetaState.exec (s : MetaState σ) : MetaOp σ → MetaState σ
  | .reload t file =>
      match s.confReload t file with
      | some (_, s') => s'
      | none => s
  | .pool a i op =>
      match s.router.heap a with
      | some pool =>
          { s with
            router := s.router.onPool a pool
              (pool.info.onServer i (op.code pool.info.conf (pool.info.serverArr i))) }
      | none => s

/-- When it may come: a reload runs to its end, a pool is destroyed by the router alone,
and a server that has been torn down is gone.  A reload that leaves an array, as with the
slot 65536, has no end that could be told: the code writes over what lies behind and goes
on. -/
def MetaState.Enabled (s : MetaState σ) : MetaOp σ → Prop
  | .reload t file => ∃ res, s.confReload t file = some res
  | .pool a i op =>
      op ≠ .destroy ∧ ∃ pool, s.router.heap a = some pool ∧ i < pool.servers.length
        ∧ (pool.info.serverArr i).freed = false

/-- Every run of the proxy once `meta_init` has loaded a configuration. -/
def metaLts (σ : Type*) : Lts (MetaState σ) (MetaOp σ) where
  init s := ∃ t conf, 0 < t ∧ metaStart.confReload t (some conf) = some (0, s)
  step s op s' := s.Enabled op ∧ s' = s.exec op

/-! ## §3. What a failed reload leaves. -/

/-- **Nothing has changed** for a request, and the next reload can come. -/
structure MetaState.Atomic (s s' : MetaState σ) : Prop where
  auth : ∀ uname tk ip, s'.authCheck uname tk ip = s.authCheck uname tk ip
  timeout : s'.getTimeout = s.getTimeout
  pools : ∀ key isRead, s'.poolOf key isRead = s.poolOf key isRead
  building : s'.router.routerSwitching = false

/-- The file is refused before anything is replaced: it cannot be loaded, or it does not
have exactly one section `[@Db]`. -/
def RefusedAtOnce (file : Option Configure) : Prop := ∀ conf, file = some conf → conf.dbs ≠ some 1

/-- A file that is refused at once. -/
theorem MetaState.confReload_refused {s s' : MetaState σ} {t ret : Int} {file : Option Configure}
    (href : RefusedAtOnce file) (h : s.confReload t file = some (ret, s')) (hret : ret ≠ 0) :
    s.Atomic s' := by
  unfold MetaState.confReload at h
  by_cases hgo : s.confLastmodify < t ∧ s.router.routerSwitching = false
  · rw [if_pos hgo] at h
    cases file with
    | none =>
        cases h
        exact ⟨fun _ _ _ => rfl, rfl, fun _ _ => rfl, hgo.2⟩
    | some conf =>
        simp only [if_pos (href conf rfl)] at h
        cases h
        exact ⟨fun _ _ _ => rfl, rfl, fun _ _ => rfl, hgo.2⟩
  · rw [if_neg hgo] at h
    cases h
    exact absurd rfl hret

/-- Whether `router_build` fails depends on the table alone. -/
theorem RouterState.build_fails {r out : RouterState σ} {table : Nat} {db : MetaDbInfo} {ret : Int}
    (h : r.build table db = some (ret, out)) (hret : ret ≠ 0) (r' : RouterState σ) (table' : Nat) :
    ∃ out', r'.build table' db = some (ret, out') := by
  unfold RouterState.build RouterState.buildSwitch RouterState.shardInitPart at h ⊢
  by_cases hmode : db.shardMode = 0
  · simp only [if_pos hmode] at h ⊢
    cases hinit : shardInitParts db (List.range db.passes) ⟨fun _ => 0, fun _ => false⟩ with
    | none =>
        rw [hinit] at h
        cases h
    | some res =>
        obtain ⟨done, m⟩ := res
        simp only [hinit, Option.map_some] at h ⊢
        by_cases hall : (done && (List.range partitionModKeyNat).all m.partitionCheck) = true
        · -- the map was accepted, and the rest does not fail
          simp only [if_pos hall, ne_eq, not_true_eq_false, if_false] at h
          obtain ⟨⟨ret', r₁⟩, h₁, he⟩ := Option.map_eq_some_iff.1 h
          obtain ⟨r₂, -, h₂⟩ := Option.map_eq_some_iff.1 h₁
          cases h₂
          cases he
          exact absurd rfl hret
        · simp only [if_neg hall] at h ⊢
          cases h
          exact ⟨_, rfl⟩
  · simp only [if_neg hmode] at h ⊢
    cases h
    exact ⟨_, rfl⟩

/-- What a build that fails leaves of the table does not depend on what was there. -/
theorem MetaState.buildRouter_fails {s s₁ : MetaState σ} {conf : Configure} {ret : Int}
    (h : s.buildRouter conf = some (ret, s₁)) (hret : ret ≠ 0) (s' : MetaState σ) :
    ∃ s₂, s'.buildRouter conf = some (ret, s₂) ∧ s₂.db = s₁.db := by
  unfold MetaState.buildRouter at h ⊢
  cases hload : metaLoadConf conf {} with
  | error e db =>
      simp only [hload] at h ⊢
      cases h
      exact ⟨_, rfl, rfl⟩
  | ok u db =>
      simp only [hload] at h ⊢
      obtain ⟨⟨ret', r⟩, hb, he⟩ := Option.map_eq_some_iff.1 h
      cases he
      obtain ⟨out, hout⟩ := RouterState.build_fails hb hret s'.router (s'.table + 1)
      rw [hout]
      exact ⟨_, rfl, rfl⟩

/-! ## §4. Configurations that differ in their timeout. -/

/-- One partition with every slot, neither services nor users, and a timeout. -/
def timedConf (ms : UInt32) : Configure :=
  { oneString wholeRange with dbConnectProcessTimeoutMs := some ms }

theorem timedConf_returns (ms : UInt32) : ∃ db, Returns (metaLoadConf (timedConf ms)) {} () db
    ∧ db.Covers ∧ db.shardMode = 0 ∧ db.passes ≤ partitionModKeyNat
    ∧ (db.timeoutSec, db.timeoutUsec) = (ms / 1000, (ms % 1000) * 1000) := by
  have hread : Readable (timedConf ms) := by
    refine ⟨rfl, rfl, rfl, rfl, rfl, rfl, rfl, rfl, rfl, fun h => absurd rfl h, fun _ => rfl, ?_,
      ⟨[], rfl, fun _ _ => nofun⟩, ⟨[], rfl, nofun⟩⟩
    exact fun _ _ _ _ => rfl
  obtain ⟨db, hdb⟩ := metaLoadConf_returns hread
  have hload := metaLoadConf_loaded hdb
  have hnum : db.partitionNum = 1 := (Option.some_inj.1 hload.partitionNum).symm
  have hms : db.timeout = ms := (Option.some_inj.1 hload.timeout).symm
  refine ⟨db, hdb, ?_, (Option.some_inj.1 hload.shardMode).symm, ?_, ?_⟩
  · exact hload.covers_single (oneString_short (by decide) (by decide)) hnum slotsRead_wholeRange
  · refine Nat.le_trans db.passes_le ?_
    rw [hnum]
    decide
  · rw [hload.timeoutSec, hload.timeoutUsec, hms]

/-- Each of them can be in force, with the router ready for another. -/
theorem timedConf_inForce (ms : UInt32) : ∃ s : MetaState σ, (metaLts σ).Reachable s
    ∧ s.confLastmodify = 1 ∧ s.router.routerSwitching = false
    ∧ s.getTimeout = (ms / 1000, (ms % 1000) * 1000) := by
  obtain ⟨db, hdb, hcov, hmode, hle, htime⟩ := timedConf_returns ms
  obtain ⟨r, hr⟩ :=
    RouterState.build_of_covers (r := (routerInit : RouterState σ)) (Or.inl rfl) hmode hcov hle 1
  have hload : metaLoadConf (timedConf ms) {} = .ok () db := hdb
  have hbuild : (metaStart : MetaState σ).confReload 1 (some (timedConf ms)) = some (0,
      ⟨some (timedConf ms), 1, 1, db, metaAuthLoad db.users, r⟩) := by
    have hgo : (metaStart : MetaState σ).confLastmodify < 1
        ∧ (metaStart : MetaState σ).router.routerSwitching = false := ⟨Int.one_pos, rfl⟩
    have hone : ¬ (timedConf ms).dbs ≠ some 1 := not_not.2 rfl
    have hrouter : (metaStart : MetaState σ).router.build 1 db = some (0, r) := hr
    unfold MetaState.confReload MetaState.buildRouter
    simp only [if_pos hgo, if_neg hone, hload]
    show ((metaStart : MetaState σ).router.build 1 db |>.map _ |>.map _) = _
    rw [hrouter]
    rfl
  have hen : (⟨routerInit, none, none⟩ : RouterRun σ).Enabled (.build 1 db) :=
    ⟨rfl, by rw [← MetaDbInfo.passes_of_small hcov.small]; exact hle, r, hr⟩
  have hexec : (⟨routerInit, none, none⟩ : RouterRun σ).exec (.build 1 db) = ⟨r, some db, none⟩ := by
    simp only [RouterRun.exec, hr]
  have hidle := (RunInv.init.step hen).1.idle (by rw [hexec])
  rw [hexec] at hidle
  exact ⟨_, .init ⟨1, timedConf ms, Int.one_pos, hbuild⟩, rfl, hidle, htime⟩

/-! ## §5. Failed reloads. -/

/-- **Failed reloads are atomic** exactly for the files that are refused at once: of any
other file on which a reload fails, some configuration in force loses its timeout.  A file
with the slot 65536 fails on no reload here, nor is it reloaded before: what it does is
undefined. -/
theorem failed_reload_atomic_iff {file : Option Configure}
    (hfails : ∃ (s : MetaState σ) (t ret : Int) (s' : MetaState σ), (metaLts σ).Reachable s
      ∧ s.confReload t file = some (ret, s') ∧ ret ≠ 0) :
    (∀ (s : MetaState σ) (t ret : Int) (s' : MetaState σ), (metaLts σ).Reachable s →
        s.confReload t file = some (ret, s') → ret ≠ 0 → s.Atomic s')
      ↔ RefusedAtOnce file := by
  constructor
  · rintro hatomic conf rfl hone
    -- the failure comes from `_meta_build_router`
    obtain ⟨s₀, t₀, ret₀, s₀', -, h₀, hret₀⟩ := hfails
    obtain ⟨ret, mid, s₁, hbuild, hret⟩ : ∃ ret, ∃ mid s₁ : MetaState σ,
        mid.buildRouter conf = some (ret, s₁) ∧ ret ≠ 0 := by
      unfold MetaState.confReload at h₀
      split at h₀
      · simp only [if_neg (not_not.2 hone)] at h₀
        obtain ⟨⟨ret, s₁⟩, hb, he⟩ := Option.map_eq_some_iff.1 h₀
        refine ⟨ret, _, s₁, hb, ?_⟩
        rintro rfl
        cases he
        exact hret₀ rfl
      · cases h₀
        exact absurd rfl hret₀
    -- one of two timeouts is not the one that is left behind
    obtain ⟨ms, hms⟩ : ∃ ms : UInt32, s₁.getTimeout ≠ (ms / 1000, (ms % 1000) * 1000) := by
      by_cases hsec : s₁.db.timeoutSec = 1
      · refine ⟨0, fun he => ?_⟩
        have hzero : s₁.db.timeoutSec = 0 / 1000 := congrArg Prod.fst he
        rw [hsec] at hzero
        exact absurd hzero (by decide)
      · refine ⟨1000, fun he => hsec ?_⟩
        have hone : s₁.db.timeoutSec = 1000 / 1000 := congrArg Prod.fst he
        rw [hone]
        decide
    obtain ⟨s, hreach, hlast, hsw, htime⟩ := timedConf_inForce (σ := σ) ms
    obtain ⟨s₂, h₂, hdb⟩ := MetaState.buildRouter_fails hbuild hret
      { s with conf := some conf, confLastmodify := 2 }
    have hgo : s.confLastmodify < 2 ∧ s.router.routerSwitching = false :=
      ⟨by rw [hlast]; decide, hsw⟩
    have hreload : s.confReload 2 (some conf) = some (-1, s₂) := by
      unfold MetaState.confReload
      simp only [if_pos hgo, if_neg (not_not.2 hone), h₂, Option.map_some, if_pos hret]
    have hsame := (hatomic s 2 (-1) s₂ hreach hreload (by decide)).timeout
    unfold MetaState.getTimeout at hsame hms
    rw [hdb] at hsame
    exact hms (hsame.trans htime)
  · intro href s t ret s' _ h hret
    exact MetaState.confReload_refused href h hret

/-- A configuration without `Machine_Room`: nothing is read behind it. -/
def roomlessConf : Configure := { timedConf 100 with superStrategyMachineRoom := none }

theorem roomlessConf_fails (s : MetaState σ) (hsw : s.router.routerSwitching = false) {t : Int}
    (ht : s.confLastmodify < t) : s.confReload t (some roomlessConf)
      = some (-1, { s with
          conf := some roomlessConf
          confLastmodify := t
          table := s.table + 1
          db := {} }) := by
  have hone : ¬ roomlessConf.dbs ≠ some 1 := not_not.2 rfl
  have hload : metaLoadConf roomlessConf {} = .error (-1) {} := rfl
  unfold MetaState.confReload MetaState.buildRouter
  simp only [if_pos (And.intro ht hsw), if_neg hone, hload, Option.map_some]
  rfl

/-- With it, every request times out at once. -/
theorem failed_reload_not_atomic : ¬ ∀ (file : Option Configure) (s : MetaState Nat) (t ret : Int)
    (s' : MetaState Nat), (metaLts Nat).Reachable s → s.confReload t file = some (ret, s') →
      ret ≠ 0 → s.Atomic s' := by
  intro hatomic
  obtain ⟨s, hreach, hlast, hsw, htime⟩ := timedConf_inForce (σ := Nat) 1000
  have hsame := (hatomic _ s 2 (-1) _ hreach
    (roomlessConf_fails s hsw (by rw [hlast]; decide)) (by decide)).timeout
  rw [htime] at hsame
  have hzero : (0 : UInt32) = 1000 / 1000 := congrArg Prod.fst hsame
  exact absurd hzero (by decide)

/-- A file with two sections `[@Db]`, which is refused at once. -/
def twoDbsConf : Configure := { timedConf 100 with dbs := some 2 }

theorem failed_reload_atomic_iff_witness :
    (∀ (s : MetaState Nat) (t ret : Int) (s' : MetaState Nat), (metaLts Nat).Reachable s →
        s.confReload t (some twoDbsConf) = some (ret, s') → ret ≠ 0 → s.Atomic s')
      ↔ RefusedAtOnce (some twoDbsConf) := by
  refine failed_reload_atomic_iff ?_
  obtain ⟨s, hreach, hlast, hsw, -⟩ := timedConf_inForce (σ := Nat) 100
  have hgo : s.confLastmodify < 2 ∧ s.router.routerSwitching = false :=
    ⟨by rw [hlast]; decide, hsw⟩
  have htwo : twoDbsConf.dbs ≠ some 1 := by
    intro he
    cases he
  have hreload : s.confReload 2 (some twoDbsConf)
      = some (-1, { s with conf := some twoDbsConf, confLastmodify := 2 }) := by
    unfold MetaState.confReload
    simp only [if_pos hgo, if_pos htwo]
  exact ⟨s, 2, -1, _, hreach, hreload, by decide⟩

end RedisAgent
