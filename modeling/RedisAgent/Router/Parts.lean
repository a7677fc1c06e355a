/-
  RedisAgent.Router.Parts — which partition maps `_shard_init_part` accepts.

  It accepts a map exactly when every slot is in one partition and in no other
  (`MetaDbInfo.Covers`), and then `router_map` leads every slot to its partition.
-/
import RedisAgent.Router.Build

namespace RedisAgent

variable {σ : Type*}

/-- The slots of partition `i`. -/
def MetaDbInfo.slots (db : MetaDbInfo) (i : Nat) : List Nat := (db.partition i).partitions

/-- Every slot is in exactly one partition, and there once. -/
structure MetaDbInfo.Covers (db : MetaDbInfo) : Prop where
  nodup : ((List.range db.passes).flatMap db.slots).Nodup
  mem : ∀ p, p ∈ (List.range db.passes).flatMap db.slots ↔ p < partitionModKeyNat

/-- A configuration that covers the slots has a partition, so its number of partitions is
an `int`. -/
theorem MetaDbInfo.Covers.small {db : MetaDbInfo} (h : db.Covers) :
    db.partitionNum.toNat < 2 ^ 31 := by
  by_contra hbig
  have h0 := (h.mem 0).2 (by decide)
  rw [MetaDbInfo.passes_of_big hbig] at h0
  cases h0

/-- The slots `ps` given to partition `i`. -/
def ShardParts.mark (m : ShardParts) (i : Nat) (ps : List Nat) : ShardParts :=
  ⟨fun p => if p ∈ ps then i else m.routerMap p, fun p => m.partitionCheck p || decide (p ∈ ps)⟩

@[simp] theorem ShardParts.mark_nil (m : ShardParts) (i : Nat) : m.mark i [] = m := by
  simp [ShardParts.mark]

theorem ShardParts.mark_cons (m : ShardParts) (i p : Nat) (ps : List Nat) :
    (ShardParts.mk (Function.update m.routerMap p i) (Function.update m.partitionCheck p true)).mark
      i ps = m.mark i (p :: ps) := by
  unfold ShardParts.mark
  congr 1
  · funext q
    by_cases hqp : q = p
    · subst hqp
      simp
    · simp [hqp]
  · funext q
    by_cases hqp : q = p
    · subst hqp
      simp
    · simp [hqp]

/-- **The inner loop** runs to its end when no slot was taken. -/
theorem shardInitSlots_iff (i : Nat) (ps : List Nat) :
    ∀ m m' : ShardParts, shardInitSlots i ps m = some (true, m')
      ↔ ps.Nodup ∧ (∀ p ∈ ps, p < partitionModKeyNat ∧ m.partitionCheck p = false)
        ∧ m' = m.mark i ps := by
  induction ps with
  | nil =>
      intro m m'
      show some (true, m) = some (true, m') ↔ _
      constructor
      · intro h
        cases h
        exact ⟨List.nodup_nil, by simp, (m.mark_nil i).symm⟩
      · rintro ⟨-, -, hm⟩
        rw [hm, m.mark_nil]
  | cons p ps ih =>
      intro m m'
      rw [shardInitSlots]
      by_cases hp : p < partitionModKeyNat
      · rw [if_pos hp]
        cases hc : m.partitionCheck p with
        | true =>
            refine iff_of_false (by simp) ?_
            rintro ⟨-, hall, -⟩
            rw [(hall p (by simp)).2] at hc
            cases hc
        | false =>
            simp only [Bool.false_eq_true, if_false]
            rw [ih, m.mark_cons, List.nodup_cons]
            constructor
            · rintro ⟨hnd, hall, hm⟩
              -- a slot that was taken meanwhile is `p` itself
              have hnot : ∀ q ∈ ps, q ≠ p := by
                rintro q hq rfl
                have htaken := (hall q hq).2
                simp at htaken
              refine ⟨⟨fun hmem => hnot p hmem rfl, hnd⟩, ?_, hm⟩
              intro q hq
              rcases List.mem_cons.1 hq with rfl | hq
              · exact ⟨hp, hc⟩
              · have hq' := hall q hq
                simp only [Function.update_of_ne (hnot q hq)] at hq'
                exact hq'
            · rintro ⟨⟨hmem, hnd⟩, hall, hm⟩
              refine ⟨hnd, ?_, hm⟩
              intro q hq
              have hqp : q ≠ p := fun he => hmem (he ▸ hq)
              simp only [Function.update_of_ne hqp]
              exact hall q (List.mem_cons_of_mem _ hq)
      · rw [if_neg hp]
        refine iff_of_false (by simp) ?_
        rintro ⟨-, hall, -⟩
        exact hp (hall p (by simp)).1

/-- The partitions `is`, one after the other. -/
def ShardParts.markAll (db : MetaDbInfo) (is : List Nat) (m : ShardParts) : ShardParts :=
  is.foldl (fun m i => m.mark i (db.slots i)) m

/-! One pass of the outer loop, by what the inner loop came to. -/

section Pass

variable {db : MetaDbInfo} {i : Nat} {is : List Nat} {m m₁ : ShardParts}

theorem shardInitParts_next (h : shardInitSlots i (db.slots i) m = some (true, m₁)) :
    shardInitParts db (i :: is) m = shardInitParts db is m₁ := by
  have h : shardInitSlots i (db.partition i).partitions m = some (true, m₁) := h
  rw [shardInitParts, h]

theorem shardInitParts_stop (h : shardInitSlots i (db.slots i) m = some (false, m₁)) :
    shardInitParts db (i :: is) m = some (false, m₁) := by
  have h : shardInitSlots i (db.partition i).partitions m = some (false, m₁) := h
  rw [shardInitParts, h]

theorem shardInitParts_none (h : shardInitSlots i (db.slots i) m = none) :
    shardInitParts db (i :: is) m = none := by
  have h : shardInitSlots i (db.partition i).partitions m = none := h
  rw [shardInitParts, h]

end Pass

/-- **The outer loop.** -/
theorem shardInitParts_iff (db : MetaDbInfo) (is : List Nat) :
    ∀ m m' : ShardParts, shardInitParts db is m = some (true, m')
      ↔ (is.flatMap db.slots).Nodup
        ∧ (∀ p ∈ is.flatMap db.slots, p < partitionModKeyNat ∧ m.partitionCheck p = false)
        ∧ m' = m.markAll db is := by
  induction is with
  | nil =>
      intro m m'
      show some (true, m) = some (true, m') ↔ _
      constructor
      · intro h
        cases h
        exact ⟨List.nodup_nil, by simp, rfl⟩
      · rintro ⟨-, -, hm⟩
        rw [hm]
        rfl
  | cons i is ih =>
      intro m m'
      have hstep : shardInitParts db (i :: is) m = some (true, m')
          ↔ ∃ m₁, shardInitSlots i (db.slots i) m = some (true, m₁)
            ∧ shardInitParts db is m₁ = some (true, m') := by
        rcases hres : shardInitSlots i (db.slots i) m with _ | ⟨_ | _, m₁⟩
        · rw [shardInitParts_none hres]
          simp
        · rw [shardInitParts_stop hres]
          simp
        · rw [shardInitParts_next hres]
          simp
      rw [hstep, List.flatMap_cons, List.nodup_append]
      constructor
      · rintro ⟨m₁, h₁, h₂⟩
        obtain ⟨hnd₁, hall₁, rfl⟩ := (shardInitSlots_iff i _ m m₁).1 h₁
        obtain ⟨hnd₂, hall₂, hm⟩ := (ih _ _).1 h₂
        have hfree : ∀ q ∈ is.flatMap db.slots, q < partitionModKeyNat
            ∧ m.partitionCheck q = false ∧ q ∉ db.slots i := by
          intro q hq
          obtain ⟨hlt, hc⟩ := hall₂ q hq
          simp only [ShardParts.mark, Bool.or_eq_false_iff, decide_eq_false_iff_not] at hc
          exact ⟨hlt, hc⟩
        refine ⟨⟨hnd₁, hnd₂, ?_⟩, ?_, hm⟩
        · rintro p hp q hq rfl
          exact (hfree p hq).2.2 hp
        · intro p hp
          rcases List.mem_append.1 hp with hp | hp
          · exact hall₁ p hp
          · exact ⟨(hfree p hp).1, (hfree p hp).2.1⟩
      · rintro ⟨⟨hnd₁, hnd₂, hdis⟩, hall, hm⟩
        refine ⟨m.mark i (db.slots i), (shardInitSlots_iff i _ m _).2 ⟨hnd₁, ?_, rfl⟩,
          (ih _ _).2 ⟨hnd₂, ?_, hm⟩⟩
        · exact fun p hp => hall p (List.mem_append_left _ hp)
        · intro q hq
          obtain ⟨hlt, hc⟩ := hall q (List.mem_append_right _ hq)
          refine ⟨hlt, ?_⟩
          simp only [ShardParts.mark, Bool.or_eq_false_iff, decide_eq_false_iff_not]
          exact ⟨hc, fun hp => hdis q hp q hq rfl⟩

theorem ShardParts.markAll_check (db : MetaDbInfo) (p : Nat) (is : List Nat) :
    ∀ m : ShardParts, (m.markAll db is).partitionCheck p
      = (m.partitionCheck p || decide (p ∈ is.flatMap db.slots)) := by
  induction is with
  | nil =>
      intro m
      simp [ShardParts.markAll]
  | cons i is ih =>
      intro m
      show ((m.mark i (db.slots i)).markAll db is).partitionCheck p = _
      rw [ih]
      simp [ShardParts.mark, List.mem_append, Bool.or_assoc]

/-- A slot that is in partition `i` alone leads to `i`. -/
theorem ShardParts.markAll_routerMap (db : MetaDbInfo) (p i : Nat) (is : List Nat) :
    ∀ m : ShardParts, (∀ j ∈ is, p ∈ db.slots j → j = i) →
      i ∈ is ∧ p ∈ db.slots i ∨ m.routerMap p = i →
      (m.markAll db is).routerMap p = i := by
  induction is with
  | nil =>
      rintro m - (⟨hi, -⟩ | hm)
      · cases hi
      · exact hm
  | cons j is ih =>
      intro m honly hor
      refine ih (m.mark j (db.slots j)) (fun k hk => honly k (List.mem_cons_of_mem _ hk)) ?_
      by_cases hp : p ∈ db.slots j
      · refine Or.inr ?_
        rw [← honly j (by simp) hp]
        exact if_pos hp
      · rcases hor with ⟨hi, hpi⟩ | hm
        · rcases List.mem_cons.1 hi with rfl | hi
          · exact absurd hpi hp
          · exact Or.inl ⟨hi, hpi⟩
        · refine Or.inr ?_
          rw [← hm]
          exact if_neg hp

/-- Under `Covers` a slot is in one partition only. -/
theorem MetaDbInfo.Covers.unique {db : MetaDbInfo} (h : db.Covers) {i j p : Nat}
    (hi : i < db.passes) (hj : j < db.passes) (hpi : p ∈ db.slots i) (hpj : p ∈ db.slots j) :
    i = j := by
  have hdis := (List.nodup_flatMap.1 h.nodup).2
  by_contra hne
  have hpair : ∀ a b, a < db.passes → b < db.passes → a < b → ¬ (p ∈ db.slots a ∧ p ∈ db.slots b) := by
    rintro a b ha hb hab ⟨hpa, hpb⟩
    have hd := List.pairwise_iff_getElem.1 hdis a b (by simpa using ha) (by simpa using hb) hab
    simp only [Function.onFun, List.getElem_range] at hd
    exact hd hpa hpb
  rcases Nat.lt_or_gt_of_ne hne with hlt | hlt
  · exact hpair i j hi hj hlt ⟨hpi, hpj⟩
  · exact hpair j i hj hi hlt ⟨hpj, hpi⟩

variable {r : RouterState σ} {db : MetaDbInfo}

/-- **The map of an accepted configuration** leads every slot to its partition. -/
theorem RouterState.shardInitPart_zero {r' : RouterState σ}
    (h : r.shardInitPart db = some (0, r')) :
    db.Covers ∧ (∃ f, r' = { r with routerMap := f })
      ∧ ∀ i p, i < db.passes → p ∈ db.slots i → r'.routerMap r.routerNextFlag p = i := by
  unfold RouterState.shardInitPart at h
  rw [Option.map_eq_some_iff] at h
  obtain ⟨⟨done, m⟩, hparts, he⟩ := h
  simp only at he
  split at he
  · rename_i hok
    rw [Bool.and_eq_true] at hok
    obtain ⟨rfl, hall⟩ := hok
    obtain ⟨hnd, hfree, rfl⟩ := (shardInitParts_iff db _ _ _).1 hparts
    have hcov : db.Covers := by
      refine ⟨hnd, ?_⟩
      intro p
      constructor
      · exact fun hp => (hfree p hp).1
      · intro hp
        have hc := List.all_eq_true.1 hall p (List.mem_range.2 hp)
        rw [ShardParts.markAll_check] at hc
        simpa using hc
    cases he
    refine ⟨hcov, ⟨_, rfl⟩, ?_⟩
    intro i p hi hp
    show Function.update r.routerMap r.routerNextFlag _ r.routerNextFlag p = i
    rw [Function.update_self]
    refine ShardParts.markAll_routerMap db p i _ _ ?_ (Or.inl ⟨List.mem_range.2 hi, hp⟩)
    exact fun j hj hpj => hcov.unique (List.mem_range.1 hj) hi hpj hp
  · cases he

/-- **Every such configuration is accepted.** -/
theorem RouterState.shardInitPart_of_covers (r : RouterState σ) (h : db.Covers) :
    ∃ f, r.shardInitPart db = some (0, { r with routerMap := f }) := by
  have hparts : shardInitParts db (List.range db.passes) ⟨fun _ => 0, fun _ => false⟩
      = some (true, (ShardParts.mk (fun _ => 0) (fun _ => false)).markAll db
        (List.range db.passes)) :=
    (shardInitParts_iff db _ _ _).2 ⟨h.nodup, fun p hp => ⟨(h.mem p).1 hp, rfl⟩, rfl⟩
  refine ⟨Function.update r.routerMap r.routerNextFlag
    ((ShardParts.mk (fun _ => 0) (fun _ => false)).markAll db (List.range db.passes)).routerMap, ?_⟩
  unfold RouterState.shardInitPart
  rw [hparts, Option.map_some]
  simp only [Bool.true_and]
  rw [if_pos]
  rw [List.all_eq_true]
  intro p hp
  rw [ShardParts.markAll_check]
  simpa using (h.mem p).2 (List.mem_range.1 hp)

end RedisAgent
