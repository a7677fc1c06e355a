/-
  RedisAgent.Router.ShardMap — the map from keys to partitions.

  Main results:
    • `shard_map_exact` — `_shard_init_part` accepts exactly the partition maps in
      which every slot occurs once; after the switch every key then goes to the one
      partition that lists the low 16 bits of its hash, and a map that is refused
      leaves every key where it went.
-/
import RedisAgent.Router.Buffers

namespace RedisAgent

variable {σ : Type*} {r : RouterState σ} {table : Nat} {db : MetaDbInfo}

/-! ## §1. Slots and hashes. -/

/-- How often slot `p` occurs over all the partitions. -/
def MetaDbInfo.occurs (db : MetaDbInfo) (p : Nat) : Nat :=
  ((List.range db.passes).flatMap db.slots).count p

/-- The slot of a key: the low 16 bits of its hash. -/
def keySlot (key : List UInt8) : Nat := (strhash key).toNat % partitionModKeyNat

theorem keySlot_lt (key : List UInt8) : keySlot key < partitionModKeyNat :=
  Nat.mod_lt _ (by decide)

/-- **Coverage counted**: where only slots are listed, `Covers` says that each occurs
once. -/
theorem MetaDbInfo.covers_iff_occurs
    (hslots : ∀ i < db.passes, ∀ p ∈ db.slots i, p < partitionModKeyNat) :
    db.Covers ↔ ∀ p < partitionModKeyNat, db.occurs p = 1 := by
  have hrange : ∀ p ∈ (List.range db.passes).flatMap db.slots, p < partitionModKeyNat := by
    intro p hp
    obtain ⟨i, hi, hpi⟩ := List.mem_flatMap.1 hp
    exact hslots i (List.mem_range.1 hi) p hpi
  constructor
  · intro h p hp
    exact List.count_eq_one_of_mem h.nodup ((h.mem p).2 hp)
  · intro h
    refine ⟨List.nodup_iff_count_le_one.2 ?_, ?_⟩
    · intro p
      by_cases hp : p ∈ (List.range db.passes).flatMap db.slots
      · exact Nat.le_of_eq (h p (hrange p hp))
      · rw [List.count_eq_zero_of_not_mem hp]
        exact Nat.zero_le 1
    · intro p
      refine ⟨hrange p, ?_⟩
      intro hp
      have hone := h p hp
      unfold MetaDbInfo.occurs at hone
      exact List.count_pos_iff.1 (by omega)

/-- **Truncation keeps the slot**: the hash as an `int`, negative or not, has the low
16 bits of the hash. -/
theorem hash_slot (h : UInt64) :
    h.toUInt32.toInt32.toUInt32.toNat % 65536 = h.toNat % 65536 := by
  show h.toUInt32.toNat % 65536 = h.toNat % 65536
  rw [UInt64.toNat_toUInt32]
  exact Nat.mod_mod_of_dvd _ (by decide)

/-- Where the side in force sends a key. -/
theorem RouterState.shardKeyOf_eq (r : RouterState σ) (key : List UInt8) :
    r.router.shardKeyOf key = r.routerMap r.routerFlag (keySlot key) := by
  show ((r.routerMap r.routerFlag ((strhash key).toUInt32.toInt32.toUInt32.toNat % 65536) : Nat) : Int)
    = _
  rw [hash_slot]
  rfl

/-! ## §2. `_shard_init_part` has a result. -/

theorem shardInitSlots_isSome (i : Nat) (ps : List Nat) :
    ∀ m : ShardParts, (∀ p ∈ ps, p < partitionModKeyNat) → (shardInitSlots i ps m).isSome := by
  induction ps with
  | nil =>
      intro m _
      rfl
  | cons p ps ih =>
      intro m hall
      rw [shardInitSlots, if_pos (hall p (by simp))]
      split
      · rfl
      · exact ih _ (fun q hq => hall q (List.mem_cons_of_mem _ hq))

theorem shardInitParts_isSome (db : MetaDbInfo) (is : List Nat) :
    ∀ m : ShardParts, (∀ i ∈ is, ∀ p ∈ db.slots i, p < partitionModKeyNat) →
      (shardInitParts db is m).isSome := by
  induction is with
  | nil =>
      intro m _
      rfl
  | cons i is ih =>
      intro m hall
      obtain ⟨⟨done, m₁⟩, hslots⟩ :=
        Option.isSome_iff_exists.1 (shardInitSlots_isSome i (db.slots i) m (hall i (by simp)))
      have hslots' : shardInitSlots i (db.partition i).partitions m = some (done, m₁) := hslots
      rw [shardInitParts, hslots']
      cases done with
      | false => rfl
      | true => exact ih m₁ (fun j hj => hall j (List.mem_cons_of_mem _ hj))

/-- **`_shard_init_part`** returns 0 or -1 by the partitions alone, and writes to the
side that is not in force. -/
theorem RouterState.shardInitPart_result
    (hslots : ∀ i < db.passes, ∀ p ∈ db.slots i, p < partitionModKeyNat) :
    ∃ ret f, (∀ r : RouterState σ, r.shardInitPart db
        = some (ret, { r with routerMap := Function.update r.routerMap r.routerNextFlag f }))
      ∧ (ret = 0 ∨ ret = -1) := by
  obtain ⟨⟨done, m⟩, hparts⟩ := Option.isSome_iff_exists.1
    (shardInitParts_isSome db (List.range db.passes) ⟨fun _ => 0, fun _ => false⟩
      (fun i hi => hslots i (List.mem_range.1 hi)))
  unfold RouterState.shardInitPart
  simp only [hparts, Option.map_some]
  by_cases hok : (done && (List.range partitionModKeyNat).all m.partitionCheck) = true
  · exact ⟨0, m.routerMap, fun r => by rw [if_pos hok], Or.inl rfl⟩
  · exact ⟨-1, m.routerMap, fun r => by rw [if_neg hok], Or.inr rfl⟩

/-! ## §3. What the rest of `router_build` leaves alone. -/

/-- Both sides of the map, and which one is in force, are as before. -/
structure SameMap (r r' : RouterState σ) : Prop where
  map : r'.routerMap = r.routerMap
  flag : r'.routerFlag = r.routerFlag
  nextFlag : r'.routerNextFlag = r.routerNextFlag

theorem SameMap.trans {r' r'' : RouterState σ} (h : SameMap r r') (h' : SameMap r' r'') :
    SameMap r r'' :=
  ⟨h'.map.trans h.map, h'.flag.trans h.flag, h'.nextFlag.trans h.nextFlag⟩

/-- A loop whose body keeps the map keeps it. -/
theorem SameMap.foldl {f : RouterState σ → Nat → RouterState σ} (hf : ∀ r i, SameMap r (f r i))
    (l : List Nat) : ∀ r, SameMap r (l.foldl f r) := by
  induction l with
  | nil => exact fun r => ⟨rfl, rfl, rfl⟩
  | cons i l ih => exact fun r => (hf r i).trans (ih (f r i))

theorem SameMap.shardKeyOf {r' : RouterState σ} (h : SameMap r r') (key : List UInt8) :
    r'.router.shardKeyOf key = r.router.shardKeyOf key := by
  rw [RouterState.shardKeyOf_eq, RouterState.shardKeyOf_eq, h.map, h.flag]

theorem SameMap.shardBuildPool {r' : RouterState σ} (h : r.shardBuildPool table db = some r') :
    SameMap r r' := by
  have hnew : ∀ (m : Mode) (r : RouterState σ) (i : Nat), SameMap r (r.newPool table db m i) :=
    fun m r i => ⟨rfl, rfl, rfl⟩
  unfold RouterState.shardBuildPool at h
  split at h
  · cases h
    exact (SameMap.foldl (hnew .r) _ r).trans (SameMap.foldl (hnew .w) _ _)
  · cases h

theorem SameMap.onDestroy (r : RouterState σ) (a : Nat) (pool : RouterPool σ) :
    SameMap r (r.onDestroy a pool) := by
  unfold RouterState.onDestroy
  simp only
  split
  · exact ⟨rfl, rfl, rfl⟩
  · exact ⟨rfl, rfl, rfl⟩

theorem SameMap.onPool (r : RouterState σ) (a : Nat) (pool : RouterPool σ)
    (res : PoolInfo σ × Calls σ) : SameMap r (r.onPool a pool res) := by
  unfold RouterState.onPool
  simp only
  split
  · have hstore : SameMap r
        { r with heap := Function.update r.heap a (some { pool with info := res.1 }) } :=
      ⟨rfl, rfl, rfl⟩
    exact hstore.trans (SameMap.onDestroy _ a _)
  · exact ⟨rfl, rfl, rfl⟩

theorem SameMap.poolDestroy (r : RouterState σ) (p : Option Nat) : SameMap r (r.poolDestroy p) := by
  unfold RouterState.poolDestroy
  split
  · exact ⟨rfl, rfl, rfl⟩
  · split
    · exact ⟨rfl, rfl, rfl⟩
    · exact SameMap.onPool r _ _ _

theorem SameMap.destroy (r : RouterState σ) : SameMap r r.destroy := by
  have hloop : ∀ (m : Mode) (n : Nat) (r : RouterState σ), SameMap r (r.destroyLoop m n) :=
    fun m n r => SameMap.foldl (fun r i => SameMap.poolDestroy r _) _ r
  unfold RouterState.destroy
  simp only
  split
  · exact ⟨rfl, rfl, rfl⟩
  · exact (hloop .r _ r).trans (hloop .w _ _)

/-! ## §4. Accepted and refused maps. -/

/-- The router `r` sends every key to the one partition of `db` that lists its slot. -/
def RoutesBy (r : RouterState σ) (db : MetaDbInfo) : Prop :=
  ∀ key, ∃ i < db.partitionNum.toNat,
    (∀ j < db.partitionNum.toNat, keySlot key ∈ db.slots j ↔ j = i)
      ∧ r.router.shardKeyOf key = i

theorem SameMap.routesBy {r' : RouterState σ} (h : SameMap r r') (hr : RoutesBy r db) :
    RoutesBy r' db := by
  intro key
  obtain ⟨i, hi, honly, hkey⟩ := hr key
  exact ⟨i, hi, honly, (h.shardKeyOf key).trans hkey⟩

/-- **An accepted map** is the one that routes once the sides are switched, whatever
`_shard_build_pool` did in between. -/
theorem RoutesBy.switch {r₀ r₁ : RouterState σ} (h : r.shardInitPart db = some (0, r₀))
    (hs : SameMap r₀ r₁) : RoutesBy r₁.switch db := by
  obtain ⟨hcov, ⟨f, hr₀⟩, hmap⟩ := RouterState.shardInitPart_zero h
  have hflag : r₁.routerNextFlag = r.routerNextFlag := by
    rw [hs.nextFlag, hr₀]
  have hpasses := MetaDbInfo.passes_of_small hcov.small
  intro key
  obtain ⟨i, hi, hpi⟩ := List.mem_flatMap.1 ((hcov.mem _).2 (keySlot_lt key))
  rw [List.mem_range] at hi
  refine ⟨i, hpasses ▸ hi, ?_, ?_⟩
  · intro j hj
    constructor
    · exact fun hpj => hcov.unique (hpasses.symm ▸ hj) hi hpj hpi
    · intro hji
      rw [hji]
      exact hpi
  · rw [RouterState.shardKeyOf_eq]
    show ((r₁.routerMap r₁.routerNextFlag (keySlot key) : Nat) : Int) = i
    rw [hs.map, hflag, hmap i _ hi hpi]

/-- A map that is refused is written to the other side. -/
theorem RouterState.shardKeyOf_other (hflags : r.routerFlag ≠ r.routerNextFlag) (f : Nat → Nat)
    (key : List UInt8) :
    ({ r with routerMap := Function.update r.routerMap r.routerNextFlag f } :
      RouterState σ).router.shardKeyOf key = r.router.shardKeyOf key := by
  rw [RouterState.shardKeyOf_eq, RouterState.shardKeyOf_eq]
  show ((Function.update r.routerMap r.routerNextFlag f r.routerFlag (keySlot key) : Nat) : Int) = _
  rw [Function.update_of_ne hflags]

/-- **`router_build` returns 0** only for a map that `_shard_init_part` accepts, and
puts it in force. -/
theorem RouterState.build_accepted {out : RouterState σ} (h : r.build table db = some (0, out)) :
    ∃ r' r₀ r₁ : RouterState σ, r'.shardInitPart db = some (0, r₀) ∧ SameMap r₀ r₁
      ∧ out = r₁.switch.destroy := by
  obtain ⟨mid, hmid, rfl⟩ := RouterState.build_cases h
  unfold RouterState.buildSwitch at hmid
  simp only at hmid
  split at hmid
  · split at hmid
    · cases hmid
    · rename_i ret r₀ hinit
      split at hmid
      · rename_i hret
        cases hmid
        exact absurd rfl hret
      · rename_i hret
        rw [not_not] at hret
        rw [hret] at hinit
        obtain ⟨r₁, hr₁, he⟩ := Option.map_eq_some_iff.1 hmid
        cases he
        exact ⟨_, r₀, r₁, hinit, SameMap.shardBuildPool hr₁, rfl⟩
  · cases hmid

/-- `router_build` with an accepted map. -/
theorem RoutesBy.build {out : RouterState σ} (h : r.build table db = some (0, out)) : RoutesBy out db := by
  obtain ⟨r', r₀, r₁, hinit, hsame, rfl⟩ := RouterState.build_accepted h
  exact (SameMap.destroy r₁.switch).routesBy (RoutesBy.switch hinit hsame)

/-- A map that was accepted covers the slots. -/
theorem MetaDbInfo.Covers.of_build {out : RouterState σ} (h : r.build table db = some (0, out)) :
    db.Covers := by
  obtain ⟨r', r₀, r₁, hinit, -, -⟩ := RouterState.build_accepted h
  exact (RouterState.shardInitPart_zero hinit).1

/-- `router_build` with a map that is refused. -/
theorem RouterState.build_refused (hflags : r.routerFlag ≠ r.routerNextFlag) {f : Nat → Nat}
    (hinit : ∀ sw, ({ r with routerSwitching := sw } : RouterState σ).shardInitPart db
      = some (-1, { r with
          routerSwitching := sw
          routerMap := Function.update r.routerMap r.routerNextFlag f }))
    {ret : Int} {out : RouterState σ} (h : r.build table db = some (ret, out)) :
    ret = -1 ∧ ∀ key, out.router.shardKeyOf key = r.router.shardKeyOf key := by
  unfold RouterState.build RouterState.buildSwitch at h
  simp only [hinit true] at h
  split at h
  · cases h
    exact ⟨rfl, fun key => RouterState.shardKeyOf_other hflags f key⟩
  · cases h
    exact ⟨rfl, fun key => rfl⟩

/-- `router_build` stays inside its arrays. -/
theorem RouterState.build_defined (hflag : IsFlag r.routerNextFlag)
    (hslots : ∀ i < db.passes, ∀ p ∈ db.slots i, p < partitionModKeyNat)
    (hle : db.passes ≤ partitionModKeyNat) (table : Nat) : ∃ res, r.build table db = some res := by
  obtain ⟨ret, f, hinit, -⟩ := RouterState.shardInitPart_result (σ := σ) hslots
  unfold RouterState.build RouterState.buildSwitch
  simp only [hinit]
  split
  · split
    · exact ⟨_, rfl⟩
    · -- the partitions fit into the half
      have hfit : partitionModKey * r.routerNextFlag + db.passes ≤ 2 * partitionModKey := by
        unfold partitionModKeyNat at hle
        unfold partitionModKey
        rcases hflag with hn | hn <;> rw [hn] <;> omega
      unfold RouterState.shardBuildPool
      simp only [if_pos hfit, Option.map_some]
      exact ⟨_, rfl⟩
  · exact ⟨_, rfl⟩

/-! ## §5. The map. -/

/-- **Shard map construction.**  For slots in range `_shard_init_part` returns 0 or
-1, and 0 exactly when every slot occurs once over all the partitions.  If it returns
0, every key goes after the switch to the one partition that lists the low 16 bits of
its hash; if it returns -1, every key goes where it went before.  `router_build` is no
different. -/
theorem shard_map_exact (r : RouterState σ) (table : Nat) (db : MetaDbInfo)
    (hflags : r.routerFlag ≠ r.routerNextFlag)
    (hslots : ∀ i < db.passes, ∀ p ∈ db.slots i, p < partitionModKeyNat) :
    ∃ ret r', r.shardInitPart db = some (ret, r') ∧ (ret = 0 ∨ ret = -1)
      ∧ (ret = 0 ↔ ∀ p < partitionModKeyNat, db.occurs p = 1)
      ∧ (ret = 0 → RoutesBy r'.switch db ∧ ∀ out, r.build table db = some (0, out) → RoutesBy out db)
      ∧ (ret = -1 → (∀ key, r'.router.shardKeyOf key = r.router.shardKeyOf key)
        ∧ ∀ ret' out, r.build table db = some (ret', out) →
          ret' = -1 ∧ ∀ key, out.router.shardKeyOf key = r.router.shardKeyOf key) := by
  obtain ⟨ret, f, hinit, hret⟩ := RouterState.shardInitPart_result hslots
  refine ⟨ret, _, hinit r, hret, ?_, ?_, ?_⟩
  · rw [← MetaDbInfo.covers_iff_occurs hslots]
    constructor
    · rintro rfl
      exact (RouterState.shardInitPart_zero (hinit r)).1
    · intro hcov
      obtain ⟨f', hinit'⟩ := r.shardInitPart_of_covers hcov
      rw [hinit r] at hinit'
      cases hinit'
      rfl
  · rintro rfl
    exact ⟨RoutesBy.switch (hinit r) ⟨rfl, rfl, rfl⟩, fun out => RoutesBy.build⟩
  · rintro rfl
    exact ⟨RouterState.shardKeyOf_other hflags f,
      fun ret' out => RouterState.build_refused hflags
        (fun sw => hinit { r with routerSwitching := sw })⟩

theorem oneShardDb_slots_lt {slots : List Nat} (h : ∀ p ∈ slots, p < partitionModKeyNat)
    (services : List MetaServiceInfo) :
    ∀ i < (oneShardDb slots services).passes, ∀ p ∈ (oneShardDb slots services).slots i,
      p < partitionModKeyNat :=
  fun _ _ p hp => h p hp

/-- One partition that lists every slot. -/
theorem shard_map_exact_witness :
    ∃ ret r', (routerInit : RouterState Nat).shardInitPart
          (oneShardDb (List.range partitionModKeyNat) [{}]) = some (ret, r')
      ∧ (ret = 0 ∨ ret = -1)
      ∧ (ret = 0 ↔ ∀ p < partitionModKeyNat,
          (oneShardDb (List.range partitionModKeyNat) [{}]).occurs p = 1) := by
  obtain ⟨ret, r', hinit, hret, hiff, -⟩ :=
    shard_map_exact (routerInit : RouterState Nat) 0 (oneShardDb (List.range partitionModKeyNat) [{}])
      (by decide) (oneShardDb_slots_lt (fun _ => List.mem_range.1) [{}])
  exact ⟨ret, r', hinit, hret, hiff⟩

end RedisAgent
