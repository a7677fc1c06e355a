/-
  RedisAgent.Router.Buffers — double buffering in all runs of the router.

  The invariant of the router says what a switch leaves behind, and it depends on
  the configuration that was replaced.  A pool that was built without servers has
  nobody to report its end: its slot stays filled and counted, and
  `router_is_building()` stays true from then on.  A pool that was built with two or
  more gives back the memory of all of them with the first (`RouterRun.Faults`), and
  `free` aborts at the second; runs are followed up to there.

  Main result: `router_switch_iff` — what holds in all runs without such a step, and
  when a switch comes to its end.
-/
import RedisAgent.Router.Parts
import RedisAgent.Router.Switch

namespace RedisAgent

variable {σ : Type*} {r : RouterState σ} {table : Nat} {db : MetaDbInfo}

/-! ## §1. Runs. -/

/-- A pool of the inactive half, there or gone: one of a configuration that was
replaced. -/
def RouterState.Replaced (r : RouterState σ) (pool : RouterPool σ) : Prop :=
  ∃ (m : Mode) (i : Nat),
    i < partitionModKeyNat ∧ pool.poolIdx = m.poolIdx (slotIn r.routerNextFlag i)

/-- All servers of all replaced pools have been torn down. -/
def RouterRun.AllTorn (s : RouterRun σ) : Prop :=
  ∀ a pool, s.router.heap a = some pool → s.router.Replaced pool →
    ∀ i, i < pool.servers.length → (pool.info.serverArr i).freed = true

/-- The configuration that was replaced has a partition without services to read, or
to write. -/
def RouterRun.EmptyReplaced (s : RouterRun σ) : Prop :=
  ∃ db, s.replaced = some db ∧ ∃ m i, i < db.partitionNum.toNat ∧ db.partitionService m i = []

/-- The operation tears down a server of a pool that was built with two or more, or
enters one that is torn down. -/
def RouterRun.Faults (s : RouterRun σ) : RouterOp σ → Prop
  | .build .. => ¬ s.router.DestroysSafely
  | .pool a i op => ∃ pool, s.router.heap a = some pool
      ∧ pool.info.FaultsAt pool.servers.length i op

/-- The router as it is when an operation starts to destroy pools. -/
def RouterRun.onset (s : RouterRun σ) : RouterOp σ → RouterState σ
  | .build table db =>
      match s.router.buildSwitch table db with
      | some (_, r) => r
      | none => s.router
  | .pool .. => s.router

/-- **Double buffering**, after the steps `tr`. -/
structure DoubleBuffer (tr : List (RouterRun σ × RouterOp σ)) (s : RouterRun σ) : Prop where
  clears : ∀ q ∈ tr, ClearsExactly (q.1.onset q.2) (q.1.exec q.2).router
  serves : ∀ db, s.inForce = some db → ∀ m i, i < db.partitionNum.toNat →
    s.router.poolMap m (slotIn s.router.routerFlag i) ≠ none
  counts : ∀ m flag, IsFlag flag → 0 ≤ s.router.poolNum m flag
  building : ∀ a pool i, s.router.heap a = some pool → s.router.Replaced pool →
    i < pool.servers.length → (pool.info.serverArr i).freed = false →
    s.router.routerSwitching = true
  done : s.AllTorn →
    (∀ m i, i < partitionModKeyNat → s.router.poolMap m (slotIn s.router.routerNextFlag i) = none)
      ∧ (∀ m, s.router.poolNum m s.router.routerNextFlag = 0) ∧ s.router.routerSwitching = false
  intact : ∀ a pool, s.router.heap a = some pool → pool.info.Intact pool.servers.length

/-- The invariant of a run. -/
structure RunInv (s : RouterRun σ) : Prop where
  inv : RouterInv s.router (s.inForce.getD {}) (s.replaced.getD {})
  inForce : ∀ db, s.inForce = some db → db.passes = db.partitionNum.toNat
  replaced : ∀ db, s.replaced = some db → db.passes = db.partitionNum.toNat

theorem RunInv.init : RunInv (⟨routerInit, none, none⟩ : RouterRun σ) := by
  have hpasses : ({} : MetaDbInfo).passes = 0 := rfl
  have hhalf : ∀ flag, HalfInv (routerInit : RouterState σ) flag
      (fun _ => ({} : MetaDbInfo).passes) {} := by
    intro flag
    rw [hpasses]
    refine ⟨fun _ => Nat.zero_le _, fun _ _ _ _ => rfl, ?_, fun _ => rfl, ?_⟩
    · intro m i a pool hi
      exact absurd hi (Nat.not_lt_zero i)
    · intro m i hi
      exact absurd hi (Nat.not_lt_zero i)
  have hempty : ∀ a, (routerInit : RouterState σ).heap a = none := fun _ => rfl
  refine ⟨⟨⟨⟨Or.inr rfl, rfl⟩, ?_, hhalf _, hhalf _, ?_⟩, iff_of_true rfl (fun _ => rfl)⟩, ?_, ?_⟩
  · refine ⟨?_, ?_, ?_, fun _ _ => rfl, ?_, ?_, ?_⟩
    · intro m k a ha
      cases ha
    · intro a pool hp
      rw [hempty] at hp
      cases hp
    · intro m k hk
      exact absurd rfl hk
    · intro a pool hp
      rw [hempty] at hp
      cases hp
    · intro a pool hp
      rw [hempty] at hp
      cases hp
    · intro a pool hp
      rw [hempty] at hp
      cases hp
  · intro m i hi
    exact absurd hi (Nat.not_lt_zero i)
  · intro db hdb
    cases hdb
  · intro db hdb
    cases hdb

/-- **One step**: the invariant stays, slots are cleared as they should be, and no
memory is lost that is still in use. -/
theorem RunInv.step {s : RouterRun σ} (h : RunInv s) {op : RouterOp σ} (hen : s.Enabled op) :
    RunInv (s.exec op) ∧ ClearsExactly (s.onset op) (s.exec op).router
      ∧ (¬ s.Faults op → HeapIntact s.router → HeapIntact (s.exec op).router) := by
  cases op with
  | build table new =>
      obtain ⟨hsw, hle, r', hb⟩ := hen
      have hpasses := MetaDbInfo.passes_of_le hle
      obtain ⟨mid, hmid, hbuf, hinv, hs, hmem⟩ := h.inv.build hsw (by rw [hpasses]; exact hle) hb
      have hexec : s.exec (.build table new) = ⟨r', some new, s.inForce⟩ := by
        simp only [RouterRun.exec, hb]
      have honset : s.onset (.build table new) = mid := by
        simp only [RouterRun.onset, hmid]
      rw [hexec, honset]
      refine ⟨⟨hinv, ?_, h.inForce⟩, ClearsExactly.of_shrinks hbuf hinv.toBuffersInv hs, ?_⟩
      · intro db hdb
        cases hdb
        exact hpasses
      · intro hsafe
        exact hmem (not_not.1 hsafe)
  | pool a i op =>
      obtain ⟨hop, pool, hp, hi, hfreed⟩ := hen
      obtain ⟨hinv, hs⟩ := h.inv.onServer hop hp hi hfreed
      have hexec : s.exec (.pool a i op) = ⟨s.router.onPool a pool
          (pool.info.onServer i (op.code pool.info.conf (pool.info.serverArr i))),
          s.inForce, s.replaced⟩ := by
        simp only [RouterRun.exec, hp]
      rw [hexec]
      refine ⟨⟨hinv, h.inForce, h.replaced⟩,
        ClearsExactly.of_shrinks h.inv.toBuffersInv hinv.toBuffersInv hs, ?_⟩
      intro hsafe hmem
      exact hmem.onServer hp hi (fun hf => hsafe ⟨pool, hp, hf⟩)

/-- **Run.** -/
theorem RunInv.of_run {tr : List (RouterRun σ × RouterOp σ)} {s : RouterRun σ}
    (h : (routerLts σ).Run tr s) :
    RunInv s ∧ ∀ q ∈ tr, ClearsExactly (q.1.onset q.2) (q.1.exec q.2).router := by
  refine h.history (P := fun tr s => RunInv s
    ∧ ∀ q ∈ tr, ClearsExactly (q.1.onset q.2) (q.1.exec q.2).router) ?_ ?_
  · intro s hs
    rw [hs]
    exact ⟨.init, by simp⟩
  · intro tr s op s' _ ih hstep
    obtain ⟨hen, rfl⟩ := hstep
    obtain ⟨hinv, hclear, -⟩ := ih.1.step hen
    refine ⟨hinv, ?_⟩
    intro q hq
    rcases List.mem_append.1 hq with hq | hq
    · exact ih.2 q hq
    · rw [List.mem_singleton.1 hq]
      exact hclear

/-- **Run**, as long as nothing goes wrong: the pools are in memory of their own. -/
theorem HeapIntact.of_run {tr : List (RouterRun σ × RouterOp σ)} {s : RouterRun σ}
    (h : (routerLts σ).Run tr s) (hsafe : ∀ q ∈ tr, ¬ q.1.Faults q.2) : HeapIntact s.router := by
  revert hsafe
  refine h.history (P := fun tr s => (∀ q ∈ tr, ¬ q.1.Faults q.2) → HeapIntact s.router) ?_ ?_
  · rintro s hs - a pool hp
    rw [hs] at hp
    cases hp
  · intro tr s op s' hrun ih hstep hsafe
    obtain ⟨hen, rfl⟩ := hstep
    obtain ⟨-, -, hmem⟩ := (RunInv.of_run hrun).1.step hen
    refine hmem (hsafe (s, op) (by simp)) (ih ?_)
    exact fun q hq => hsafe q (List.mem_append_left _ hq)

/-- A replaced pool with a server left is in its slot. -/
theorem RunInv.slot_of_standing {s : RouterRun σ} (h : RunInv s) {a i : Nat} {pool : RouterPool σ}
    (hp : s.router.heap a = some pool) (hrep : s.router.Replaced pool) (hi : i < pool.servers.length)
    (hfreed : (pool.info.serverArr i).freed = false) :
    ∃ m j, j < partitionModKeyNat
      ∧ s.router.poolMap m (slotIn s.router.routerNextFlag j) = some a := by
  obtain ⟨m, j, hj, hidx⟩ := hrep
  have hup : pool.freed = false := by
    cases hf : pool.freed with
    | false => rfl
    | true =>
        have hpos := (h.inv.slots.counted a pool hp).pos hi hfreed
        have hz := h.inv.slots.gone a pool hp hf
        omega
  obtain ⟨m', k, hidx', hmap⟩ := h.inv.slots.own a pool hp hup
  obtain ⟨rfl, rfl⟩ := poolIdx_inj (slotIn_nonneg h.inv.nextFlag j) (h.inv.slots.nonneg hmap)
    (hidx.symm.trans hidx')
  exact ⟨m, j, hj, hmap⟩

/-- **The end of a switch.**  Once all replaced servers are torn down, the inactive half
is empty unless a replaced partition had no services. -/
theorem RunInv.done_iff {s : RouterRun σ} (h : RunInv s) (hall : s.AllTorn) :
    ((∀ m i, i < partitionModKeyNat →
          s.router.poolMap m (slotIn s.router.routerNextFlag i) = none)
        ∧ (∀ m, s.router.poolNum m s.router.routerNextFlag = 0) ∧ s.router.routerSwitching = false)
      ↔ ¬ s.EmptyReplaced := by
  constructor
  · rintro ⟨hnone, -, -⟩ ⟨db, hdb, m, i, hi, he⟩
    have hold := h.inv.inactive
    rw [hdb, Option.getD_some] at hold
    rw [← h.replaced db hdb] at hi
    exact hold.kept m i hi he (hnone m i (Nat.lt_of_lt_of_le hi (hold.le m)))
  · intro hne
    have hnone : ∀ m i, i < partitionModKeyNat →
        s.router.poolMap m (slotIn s.router.routerNextFlag i) = none := by
      intro m i hi
      cases ha : s.router.poolMap m (slotIn s.router.routerNextFlag i) with
      | none => rfl
      | some a =>
          -- the pool there has a server, and none is left
          obtain ⟨pool, hp, hup, hidx⟩ := h.inv.slots.held m _ a ha
          have hlt : i < (s.replaced.getD {}).passes := by
            by_contra hge
            have hrest := h.inv.inactive.rest m i (by omega) hi
            rw [ha] at hrest
            cases hrest
          have hserv := h.inv.inactive.servers m i a pool hlt ha hp
          have hsome : pool.servers ≠ [] := by
            intro he
            rw [he] at hserv
            have hnil := List.map_eq_nil_iff.1 hserv.symm
            cases hrep : s.replaced with
            | none =>
                rw [hrep] at hlt
                exact Nat.not_lt_zero i hlt
            | some db =>
                rw [hrep, Option.getD_some] at hlt hnil
                rw [h.replaced db hrep] at hlt
                exact hne ⟨db, hrep, m, i, hlt, hnil⟩
          refine absurd ?_ (h.inv.slots.alive a pool hp hup hsome)
          exact (h.inv.slots.counted a pool hp).zero_iff.2 (hall a pool hp ⟨m, i, hi, hidx⟩)
    have hnum : ∀ m, s.router.poolNum m s.router.routerNextFlag = 0 :=
      fun m => (h.inv.inactive.num_zero_iff m).2 (hnone m)
    exact ⟨hnone, hnum, h.inv.switching.2 hnum⟩

/-- What the invariant says of a run. -/
theorem RunInv.doubleBuffer_iff {tr : List (RouterRun σ × RouterOp σ)} {s : RouterRun σ}
    (h : RunInv s) (hclear : ∀ q ∈ tr, ClearsExactly (q.1.onset q.2) (q.1.exec q.2).router)
    (hmem : HeapIntact s.router) : DoubleBuffer tr s ↔ ¬ (s.EmptyReplaced ∧ s.AllTorn) := by
  constructor
  · rintro hd ⟨hempty, hall⟩
    exact (h.done_iff hall).1 (hd.done hall) hempty
  · intro hno
    refine ⟨hclear, ?_, ?_, ?_, ?_, fun a pool hp => (hmem a pool hp).2⟩
    · intro db hdb m i hi hnone
      rw [← h.inForce db hdb] at hi
      have hin := h.inv.inUse
      rw [hdb, Option.getD_some] at hin
      obtain ⟨a, -, ha, -⟩ := hin m i hi
      rw [hnone] at ha
      cases ha
    · intro m flag hflag
      have hside : flag = s.router.routerNextFlag ∨ flag = s.router.routerFlag := by
        obtain ⟨hf, hn⟩ := h.inv.flags
        unfold IsFlag at hf hflag
        omega
      rcases hside with rfl | rfl
      · exact h.inv.inactive.num_nonneg m
      · exact h.inv.active.num_nonneg m
    · intro a pool i hp hrep hi hfreed
      obtain ⟨m, j, hj, hmap⟩ := h.slot_of_standing hp hrep hi hfreed
      rw [← Bool.not_eq_false]
      intro hsw
      have hnone := (h.inv.inactive.num_zero_iff m).1 (h.inv.switching.1 hsw m) j hj
      rw [hmap] at hnone
      cases hnone
    · exact fun hall => (h.done_iff hall).2 (fun he => hno ⟨he, hall⟩)

/-- The step does not replace a configuration in which some partition has no services. -/
def RouterRun.KeepsServices (s : RouterRun σ) : RouterOp σ → Prop
  | .build .. => ∀ db, s.inForce = some db →
      ∀ m i, i < db.partitionNum.toNat → db.partitionService m i ≠ []
  | .pool .. => True

/-- What was replaced is what was in force when it was replaced. -/
theorem RouterRun.not_emptyReplaced {tr : List (RouterRun σ × RouterOp σ)} {s : RouterRun σ}
    (h : (routerLts σ).Run tr s) (hkeep : ∀ q ∈ tr, q.1.KeepsServices q.2) : ¬ s.EmptyReplaced := by
  revert hkeep
  refine h.history (P := fun tr s => (∀ q ∈ tr, q.1.KeepsServices q.2) → ¬ s.EmptyReplaced) ?_ ?_
  · rintro s hs - ⟨db, hdb, -⟩
    rw [hs] at hdb
    cases hdb
  · intro tr s op s' _ ih hstep hkeep
    obtain ⟨hen, rfl⟩ := hstep
    have hlast := hkeep (s, op) (by simp)
    cases op with
    | build table new =>
        obtain ⟨-, -, r', hb⟩ := hen
        simp only [RouterRun.exec, hb]
        rintro ⟨db, hdb, m, i, hi, he⟩
        exact hlast db hdb m i hi he
    | pool a i op =>
        obtain ⟨-, pool, hp, -⟩ := hen
        simp only [RouterRun.exec, hp]
        exact ih (fun q hq => hkeep q (List.mem_append_left _ hq))

/-! ## §2. A configuration of one partition. -/

/-- `router_build` of a supported configuration whose partition map is accepted. -/
theorem RouterState.build_of_covers (hnext : IsFlag r.routerNextFlag) (hmode : db.shardMode = 0)
    (hcov : db.Covers) (hle : db.passes ≤ partitionModKeyNat) (table : Nat) :
    ∃ r', r.build table db = some (0, r') := by
  obtain ⟨f, hinit⟩ := RouterState.shardInitPart_of_covers
    ({ r with routerSwitching := true } : RouterState σ) hcov
  have hfit : partitionModKey * r.routerNextFlag + db.passes ≤ 2 * partitionModKey := by
    unfold partitionModKeyNat at hle
    unfold partitionModKey
    rcases hnext with hn | hn <;> rw [hn] <;> omega
  obtain ⟨r₁, hr₁⟩ : ∃ r₁, ({ r with routerSwitching := true, routerMap := f } :
      RouterState σ).shardBuildPool table db = some r₁ := by
    unfold RouterState.shardBuildPool
    exact ⟨_, if_pos hfit⟩
  have hsw : r.buildSwitch table db = some (0, r₁.switch) := by
    unfold RouterState.buildSwitch
    simp only [hmode, if_true, hinit, ne_eq, not_true_eq_false, if_false, hr₁, Option.map_some]
  refine ⟨r₁.switch.destroy, ?_⟩
  unfold RouterState.build
  rw [hsw]
  simp only [Option.map_some, if_true]

/-- One partition with the slots `slots`, and the same services to read and to write. -/
def oneShardDb (slots : List Nat) (services : List MetaServiceInfo) : MetaDbInfo where
  connectPerService := 1
  partitionNum := 1
  partition := fun _ => ⟨0, slots⟩
  partitionService := fun _ _ => services

@[simp] theorem oneShardDb_passes (slots : List Nat) (services : List MetaServiceInfo) :
    (oneShardDb slots services).passes = 1 := rfl

variable {slots : List Nat}

theorem oneShardDb_covers (hnd : slots.Nodup) (hall : ∀ p, p ∈ slots ↔ p < partitionModKeyNat)
    (services : List MetaServiceInfo) : (oneShardDb slots services).Covers := by
  have hone : (List.range (oneShardDb slots services).passes).flatMap (oneShardDb slots services).slots
      = slots := by
    rw [oneShardDb_passes, List.range_one, List.flatMap_singleton]
    rfl
  refine ⟨?_, ?_⟩
  · rw [hone]
    exact hnd
  · intro p
    rw [hone]
    exact hall p

/-- Before anything was replaced, nothing is being switched. -/
theorem RunInv.idle {s : RouterRun σ} (h : RunInv s) (hrep : s.replaced = none) :
    s.router.routerSwitching = false := by
  refine h.inv.switching.2 ?_
  intro m
  have hnum := h.inv.inactive.num m
  rw [hrep] at hnum
  exact hnum

theorem RouterRun.enabled_oneShard {s : RouterRun σ} (h : RunInv s)
    (hsw : s.router.routerSwitching = false) (hnd : slots.Nodup)
    (hall : ∀ p, p ∈ slots ↔ p < partitionModKeyNat) (services : List MetaServiceInfo) :
    s.Enabled (.build table (oneShardDb slots services)) := by
  have hone : 1 ≤ partitionModKeyNat := by decide
  refine ⟨hsw, hone,
    RouterState.build_of_covers h.inv.nextFlag rfl (oneShardDb_covers hnd hall services) ?_ table⟩
  rw [oneShardDb_passes]
  exact hone

/-- What a build leaves in force, and what it replaces. -/
theorem RouterRun.exec_build {s : RouterRun σ} (hen : s.Enabled (.build table db)) :
    (s.exec (.build table db)).inForce = some db ∧ (s.exec (.build table db)).replaced = s.inForce := by
  obtain ⟨-, -, r', hb⟩ := hen
  simp only [RouterRun.exec, hb, and_self]

/-- `router_init`. -/
def routerStart : RouterRun Nat := ⟨routerInit, none, none⟩

theorem firstBuild_run (table : Nat) (hnd : slots.Nodup)
    (hall : ∀ p, p ∈ slots ↔ p < partitionModKeyNat) (services : List MetaServiceInfo) :
    (routerLts Nat).Run ([] ++ [(routerStart, .build table (oneShardDb slots services))])
      (routerStart.exec (.build table (oneShardDb slots services))) :=
  (Lts.Run.init rfl).step ⟨RouterRun.enabled_oneShard .init rfl hnd hall services, rfl⟩

/-- A configuration that replaces nothing destroys nothing. -/
theorem RouterRun.firstBuild_safe (table : Nat) (db : MetaDbInfo) :
    ¬ routerStart.Faults (.build table db) := by
  intro hf
  refine hf ?_
  intro m i a pool _ ha
  cases ha

/-- A pool without servers has nothing left to tear down. -/
theorem RunInv.allTorn_of_empty {s : RouterRun σ} (h : RunInv s)
    (hrep : s.replaced = some (oneShardDb slots [])) : s.AllTorn := by
  intro a pool hp hold i hi
  cases hfreed : (pool.info.serverArr i).freed with
  | true => rfl
  | false =>
      obtain ⟨m, j, hj, hmap⟩ := h.slot_of_standing hp hold hi hfreed
      have hinv := h.inv.inactive
      rw [hrep, Option.getD_some] at hinv
      have hlt : j < (oneShardDb slots []).passes := by
        by_contra hge
        have hnone := hinv.rest m j (by omega) hj
        rw [hmap] at hnone
        cases hnone
      rw [hinv.servers m j a pool hlt hmap hp] at hi
      cases hi

/-! ## §3. The switch. -/

/-- **The switch.**  In every run that never tears down a server of a pool with several,
all of double buffering holds, but for its end: that comes exactly when no replaced
partition was without services.  So it holds in every such run that replaces only
configurations in which each partition has some. -/
theorem router_switch_iff {tr : List (RouterRun σ × RouterOp σ)} {s : RouterRun σ}
    (h : (routerLts σ).Run tr s) (hsafe : ∀ q ∈ tr, ¬ q.1.Faults q.2) :
    (DoubleBuffer tr s ↔ ¬ (s.EmptyReplaced ∧ s.AllTorn))
      ∧ ((∀ q ∈ tr, q.1.KeepsServices q.2) → DoubleBuffer tr s) := by
  obtain ⟨hinv, hclear⟩ := RunInv.of_run h
  have hiff := hinv.doubleBuffer_iff hclear (HeapIntact.of_run h hsafe)
  refine ⟨hiff, ?_⟩
  intro hkeep
  exact hiff.2 (fun hx => RouterRun.not_emptyReplaced h hkeep hx.1)

/-- A configuration without services is replaced, and the switch never ends. -/
theorem router_switch_stuck :
    ¬ ∀ (tr : List (RouterRun Nat × RouterOp Nat)) (s : RouterRun Nat),
      (routerLts Nat).Run tr s → DoubleBuffer tr s := by
  intro hbuf
  obtain ⟨slots, hnd, hall⟩ : ∃ slots : List Nat, slots.Nodup
      ∧ ∀ p, p ∈ slots ↔ p < partitionModKeyNat :=
    ⟨List.range partitionModKeyNat, List.nodup_range, fun _ => List.mem_range⟩
  have hrun := firstBuild_run 0 hnd hall []
  obtain ⟨h₁, -⟩ := RunInv.of_run hrun
  have hen₀ : RouterRun.Enabled routerStart (.build 0 (oneShardDb slots [])) :=
    RouterRun.enabled_oneShard .init rfl hnd hall []
  obtain ⟨hforce, hnone⟩ := RouterRun.exec_build hen₀
  have hen : RouterRun.Enabled (routerStart.exec (.build 0 (oneShardDb slots [])))
      (.build 1 (oneShardDb slots [])) :=
    RouterRun.enabled_oneShard h₁ (h₁.idle hnone) hnd hall []
  have hrun₂ := hrun.step ⟨hen, rfl⟩
  obtain ⟨h₂, -⟩ := RunInv.of_run hrun₂
  have hrep := (RouterRun.exec_build hen).2.trans hforce
  have hempty : (_ : RouterRun Nat).EmptyReplaced :=
    ⟨oneShardDb slots [], hrep, .r, 0, Nat.one_pos, rfl⟩
  exact (h₂.done_iff (h₂.allTorn_of_empty hrep)).1 ((hbuf _ _ hrun₂).done (h₂.allTorn_of_empty hrep))
    hempty

/-- The first configuration of a router. -/
theorem router_switch_iff_witness :
    (DoubleBuffer ([] ++ [(routerStart, .build 0 (oneShardDb (List.range partitionModKeyNat) [{}]))])
          (routerStart.exec (.build 0 (oneShardDb (List.range partitionModKeyNat) [{}])))
        ↔ ¬ ((routerStart.exec (.build 0 (oneShardDb (List.range partitionModKeyNat) [{}]))).EmptyReplaced
          ∧ (routerStart.exec (.build 0 (oneShardDb (List.range partitionModKeyNat) [{}]))).AllTorn))
      ∧ ((∀ q ∈ [] ++ [(routerStart,
            (.build 0 (oneShardDb (List.range partitionModKeyNat) [{}]) : RouterOp Nat))],
          q.1.KeepsServices q.2) →
        DoubleBuffer
          ([] ++ [(routerStart, .build 0 (oneShardDb (List.range partitionModKeyNat) [{}]))])
          (routerStart.exec (.build 0 (oneShardDb (List.range partitionModKeyNat) [{}])))) := by
  refine router_switch_iff (firstBuild_run 0 List.nodup_range (fun _ => List.mem_range) [{}]) ?_
  intro q hq
  rw [List.mem_singleton.1 hq]
  exact RouterRun.firstBuild_safe 0 _

end RedisAgent
