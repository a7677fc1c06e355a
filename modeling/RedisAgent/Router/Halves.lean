/-
  RedisAgent.Router.Halves — what is in the slots of the two halves.

  Every pool on the heap sits in the slot its index names, and every slot that is
  not `NULL` holds a pool on the heap (`SlotInv`).  A half knows how many slots of
  it are in use and counts those that are not `NULL` (`HalfInv`).  The half in force
  has a pool in use in each (`InForce`); in the other half the pools of the
  configuration before are on their way out.

  A pool event is either a change of one pool, which moves nothing, or its end, which
  clears its slot and counts it off (`RouterState.onPool_kept`, `onPool_gone`).
-/
import RedisAgent.Router.Tally

namespace RedisAgent

variable {σ : Type*}

/-! ## §1. Slots. -/

/-- Slot `i` of the half of `flag`. -/
def slotIn (flag : Int) (i : Nat) : Int := partitionModKey * flag + i

/-- `router_flag` takes two values. -/
def IsFlag (flag : Int) : Prop := flag = 0 ∨ flag = 1

theorem slotIn_nonneg {flag : Int} (hf : IsFlag flag) (i : Nat) : 0 ≤ slotIn flag i := by
  unfold slotIn partitionModKey
  rcases hf with rfl | rfl <;> omega

/-- A slot lies in one half only. -/
theorem slotIn_inj {flag flag' : Int} {i i' : Nat} (hi : i < partitionModKeyNat)
    (hi' : i' < partitionModKeyNat) (h : slotIn flag i = slotIn flag' i') :
    flag = flag' ∧ i = i' := by
  unfold slotIn partitionModKey at h
  unfold partitionModKeyNat at hi hi'
  omega

/-- **The index of a pool** names its slot: it can be read back. -/
theorem slotOf_poolIdx (m : Mode) {k : Int} (hk : 0 ≤ k) : slotOf (m.poolIdx k) = (m, k) := by
  unfold slotOf
  cases m with
  | r => exact if_pos hk
  | w =>
      have hneg : ¬ (0 : Int) ≤ -k - 1 := by omega
      show (if (0 : Int) ≤ -k - 1 then _ else _) = _
      rw [if_neg hneg]
      have hback : -(-k - 1) - 1 = k := by omega
      show (Mode.w, -(-k - 1) - 1) = _
      rw [hback]

theorem Mode.forall_iff {p : Mode → Prop} : (∀ m, p m) ↔ p .r ∧ p .w := by
  constructor
  · intro h
    exact ⟨h .r, h .w⟩
  · intro h m
    cases m with
    | r => exact h.1
    | w => exact h.2

theorem poolIdx_inj {m m' : Mode} {k k' : Int} (hk : 0 ≤ k) (hk' : 0 ≤ k')
    (h : m.poolIdx k = m'.poolIdx k') : m = m' ∧ k = k' := by
  have hs := slotOf_poolIdx m hk
  rw [h, slotOf_poolIdx m' hk'] at hs
  exact ⟨(congrArg Prod.fst hs).symm, (congrArg Prod.snd hs).symm⟩

/-- A change of one slot of one mode. -/
theorem update_slot {α : Type*} (f : Mode → Int → α) (m m' : Mode) (k k' : Int) (v : α) :
    Function.update f m (Function.update (f m) k v) m' k'
      = if m' = m ∧ k' = k then v else f m' k' := by
  by_cases hm : m' = m
  · subst hm
    rw [Function.update_self, Function.update_apply]
    simp
  · rw [Function.update_of_ne hm, if_neg (fun hx => hm hx.1)]

/-! ## §2. The invariants. -/

/-- The slots and the heap agree. -/
structure SlotInv (r : RouterState σ) : Prop where
  held : ∀ m k a, r.poolMap m k = some a →
    ∃ pool, r.heap a = some pool ∧ pool.freed = false ∧ pool.poolIdx = m.poolIdx k
  own : ∀ a pool, r.heap a = some pool → pool.freed = false →
    ∃ m k, pool.poolIdx = m.poolIdx k ∧ r.poolMap m k = some a
  halves : ∀ m k, r.poolMap m k ≠ none →
    ∃ flag i, IsFlag flag ∧ i < partitionModKeyNat ∧ k = slotIn flag i
  brk : ∀ a, r.brk ≤ a → r.heap a = none
  counted : ∀ a pool, r.heap a = some pool → pool.info.Counted pool.servers.length
  alive : ∀ a pool, r.heap a = some pool → pool.freed = false → pool.servers ≠ [] →
    pool.info.serverCount ≠ 0
  gone : ∀ a pool, r.heap a = some pool → pool.freed = true → pool.info.serverCount = 0

/-- The half of `flag`, of which the first `n` slots are in use, for `db`. -/
structure HalfInv (r : RouterState σ) (flag : Int) (n : Mode → Nat) (db : MetaDbInfo) : Prop where
  le : ∀ m, n m ≤ partitionModKeyNat
  rest : ∀ m i, n m ≤ i → i < partitionModKeyNat → r.poolMap m (slotIn flag i) = none
  servers : ∀ m i a pool, i < n m → r.poolMap m (slotIn flag i) = some a → r.heap a = some pool →
    pool.servers = (db.partitionService m i).map poolServiceConf
  num : ∀ m, r.poolNum m flag
    = (List.range (n m)).countP (fun i => (r.poolMap m (slotIn flag i)).isSome)
  kept : ∀ m i, i < n m → db.partitionService m i = [] → r.poolMap m (slotIn flag i) ≠ none

/-- Slot `i` of the half holds a pool of which `P` is true. -/
def HoldsIn (P : RouterPool σ → Prop) (r : RouterState σ) (flag : Int) (m : Mode) (i : Nat) : Prop :=
  ∃ a pool, r.poolMap m (slotIn flag i) = some a ∧ r.heap a = some pool ∧ P pool

/-- The pool is in use. -/
def RouterPool.Untouched (pool : RouterPool σ) : Prop := pool.info.Untouched pool.servers.length

/-- Slot `i` of the half holds a pool in use. -/
abbrev InUse (r : RouterState σ) (flag : Int) (m : Mode) (i : Nat) : Prop :=
  HoldsIn RouterPool.Untouched r flag m i

/-- Both halves: `db` is in force, `old` was before it. -/
structure BuffersInv (r : RouterState σ) (db old : MetaDbInfo) : Prop where
  flags : IsFlag r.routerFlag ∧ r.routerNextFlag = 1 - r.routerFlag
  slots : SlotInv r
  active : HalfInv r r.routerFlag (fun _ => db.passes) db
  inactive : HalfInv r r.routerNextFlag (fun _ => old.passes) old
  inUse : ∀ m i, i < db.passes → InUse r r.routerFlag m i

/-- **The invariant of the router.** -/
structure RouterInv (r : RouterState σ) (db old : MetaDbInfo) : Prop
    extends BuffersInv r db old where
  switching : r.routerSwitching = false ↔ ∀ m, r.poolNum m r.routerNextFlag = 0

variable {r : RouterState σ} {table : Nat} {db old : MetaDbInfo}

theorem BuffersInv.nextFlag (h : BuffersInv r db old) : IsFlag r.routerNextFlag := by
  obtain ⟨hf, hn⟩ := h.flags
  unfold IsFlag at hf ⊢
  omega

theorem BuffersInv.flags_ne (h : BuffersInv r db old) : r.routerNextFlag ≠ r.routerFlag := by
  obtain ⟨hf, hn⟩ := h.flags
  unfold IsFlag at hf
  omega

theorem SlotInv.nonneg (h : SlotInv r) {m : Mode} {k : Int} {a : Nat}
    (hk : r.poolMap m k = some a) : 0 ≤ k := by
  obtain ⟨flag, i, hf, -, rfl⟩ := h.halves m k (by simp [hk])
  exact slotIn_nonneg hf i

/-- A pool is in one slot only. -/
theorem SlotInv.unique (h : SlotInv r) {m m' : Mode} {k k' : Int} {a : Nat}
    (h1 : r.poolMap m k = some a) (h2 : r.poolMap m' k' = some a) : m = m' ∧ k = k' := by
  obtain ⟨pool, hp, -, hidx⟩ := h.held m k a h1
  obtain ⟨pool', hp', -, hidx'⟩ := h.held m' k' a h2
  rw [hp] at hp'
  cases hp'
  exact poolIdx_inj (h.nonneg h1) (h.nonneg h2) (hidx.symm.trans hidx')

/-- A count says whether any slot is left. -/
theorem HalfInv.num_zero_iff {flag : Int} {n : Mode → Nat} (h : HalfInv r flag n db) (m : Mode) :
    r.poolNum m flag = 0 ↔ ∀ i, i < partitionModKeyNat → r.poolMap m (slotIn flag i) = none := by
  rw [h.num m]
  constructor
  · intro hz i hi
    have hz : (List.range (n m)).countP (fun i => (r.poolMap m (slotIn flag i)).isSome) = 0 := by
      omega
    by_cases hin : i < n m
    · have hnone := List.countP_eq_zero.1 hz i (List.mem_range.2 hin)
      cases hs : r.poolMap m (slotIn flag i) with
      | none => rfl
      | some a => simp [hs] at hnone
    · exact h.rest m i (by omega) hi
  · intro hall
    have hz : (List.range (n m)).countP (fun i => (r.poolMap m (slotIn flag i)).isSome) = 0 := by
      rw [List.countP_eq_zero]
      intro i hi
      rw [hall i (Nat.lt_of_lt_of_le (List.mem_range.1 hi) (h.le m))]
      exact Bool.false_ne_true
    rw [hz]
    rfl

theorem HalfInv.num_nonneg {flag : Int} {n : Mode → Nat} (h : HalfInv r flag n db) (m : Mode) :
    0 ≤ r.poolNum m flag := by
  rw [h.num m]
  omega

/-! The shard function and the switching flag are not looked at. -/

/-- The two states have the same slots, counts and pools. -/
structure SameSlots (r r' : RouterState σ) : Prop where
  poolMap : r'.poolMap = r.poolMap
  poolNum : r'.poolNum = r.poolNum
  heap : r'.heap = r.heap
  brk : r'.brk = r.brk

theorem SlotInv.congr {r' : RouterState σ} (h : SlotInv r) (hs : SameSlots r r') : SlotInv r' := by
  refine ⟨?_, ?_, ?_, ?_, ?_, ?_, ?_⟩
  · rw [hs.poolMap, hs.heap]
    exact h.held
  · rw [hs.poolMap, hs.heap]
    exact h.own
  · rw [hs.poolMap]
    exact h.halves
  · rw [hs.heap, hs.brk]
    exact h.brk
  · rw [hs.heap]
    exact h.counted
  · rw [hs.heap]
    exact h.alive
  · rw [hs.heap]
    exact h.gone

theorem HalfInv.congr {r' : RouterState σ} {flag : Int} {n : Mode → Nat} (h : HalfInv r flag n db)
    (hs : SameSlots r r') : HalfInv r' flag n db := by
  refine ⟨h.le, ?_, ?_, ?_, ?_⟩
  · rw [hs.poolMap]
    exact h.rest
  · rw [hs.poolMap, hs.heap]
    exact h.servers
  · rw [hs.poolMap, hs.poolNum]
    exact h.num
  · rw [hs.poolMap]
    exact h.kept

theorem HoldsIn.congr {r' : RouterState σ} {P : RouterPool σ → Prop} {flag : Int} {m : Mode} {i : Nat}
    (h : HoldsIn P r flag m i) (hs : SameSlots r r') : HoldsIn P r' flag m i := by
  unfold HoldsIn
  rw [hs.poolMap, hs.heap]
  exact h

theorem BuffersInv.congr {r' : RouterState σ} (h : BuffersInv r db old) (hs : SameSlots r r')
    (hflag : r'.routerFlag = r.routerFlag) (hnext : r'.routerNextFlag = r.routerNextFlag) :
    BuffersInv r' db old := by
  refine ⟨?_, h.slots.congr hs, ?_, ?_, ?_⟩
  · rw [hflag, hnext]
    exact h.flags
  · rw [hflag]
    exact h.active.congr hs
  · rw [hnext]
    exact h.inactive.congr hs
  · rw [hflag]
    exact fun m i hi => (h.inUse m i hi).congr hs

/-! ## §3. A pool changes, or comes to its end. -/

/-- The pool at `a` after what `onServer` or `pool_destroy` did to it. -/
def RouterState.setPool (r : RouterState σ) (a : Nat) (pool : RouterPool σ) : RouterState σ :=
  { r with heap := Function.update r.heap a (some pool) }

/-- The pool of slot `k` is gone: `pool` is what it was last. -/
def RouterState.dropPool (r : RouterState σ) (m : Mode) (k : Int) (a : Nat) (pool : RouterPool σ) :
    RouterState σ :=
  { r with
    poolMap := Function.update r.poolMap m (Function.update (r.poolMap m) k none)
    poolNum := Function.update r.poolNum m
      (Function.update (r.poolNum m) r.routerNextFlag (r.poolNum m r.routerNextFlag - 1))
    heap := Function.update r.heap a (some { pool with freed := true }) }

theorem RouterState.onPool_kept {a : Nat} {pool : RouterPool σ} {res : PoolInfo σ × Calls σ}
    (h : ¬ OwnerTold res.2) :
    r.onPool a pool res = r.setPool a { pool with info := res.1 } := by
  unfold RouterState.onPool
  exact if_neg h

/-- **`_router_on_destroy` clears the slot of the pool it is called for.** -/
theorem RouterState.onPool_gone {a : Nat} {pool : RouterPool σ} {res : PoolInfo σ × Calls σ}
    {m : Mode} {k : Int} (hk : 0 ≤ k) (hidx : pool.poolIdx = m.poolIdx k) (h : OwnerTold res.2) :
    r.onPool a pool res
      = { r.dropPool m k a { pool with info := res.1 } with
          routerSwitching :=
            if (r.dropPool m k a { pool with info := res.1 }).poolNum .r r.routerNextFlag = 0
              ∧ (r.dropPool m k a { pool with info := res.1 }).poolNum .w r.routerNextFlag = 0
            then false
            else r.routerSwitching } := by
  unfold RouterState.onPool
  have h : res.2.any (fun c => c.2.isPoolDestroyed) = true := h
  simp only [h, if_true]
  unfold RouterState.onDestroy
  simp only [hidx, slotOf_poolIdx m hk, Function.update_idem]
  unfold RouterState.dropPool
  split <;> rfl

/-! ### A pool that changes. -/

theorem RouterState.setPool_heap {a b : Nat} {pool' p : RouterPool σ} :
    (r.setPool a pool').heap b = some p ↔ b = a ∧ p = pool' ∨ b ≠ a ∧ r.heap b = some p := by
  show Function.update r.heap a (some pool') b = some p ↔ _
  by_cases hba : b = a
  · subst hba
    rw [Function.update_self]
    simp [eq_comm]
  · rw [Function.update_of_ne hba]
    simp [hba]

theorem SlotInv.setPool (h : SlotInv r) {a : Nat} {pool pool' : RouterPool σ}
    (ha : r.heap a = some pool) (hup : pool.freed = false) (hidx : pool'.poolIdx = pool.poolIdx)
    (hup' : pool'.freed = false) (hcounted : pool'.info.Counted pool'.servers.length)
    (halive : pool'.servers ≠ [] → pool'.info.serverCount ≠ 0) : SlotInv (r.setPool a pool') where
  held m k b hb := by
    obtain ⟨p, hp, hpup, hpidx⟩ := h.held m k b hb
    by_cases hba : b = a
    · subst hba
      rw [ha] at hp
      cases hp
      exact ⟨pool', Function.update_self _ _ _, hup', hidx.trans hpidx⟩
    · exact ⟨p, (Function.update_of_ne hba _ _).trans hp, hpup, hpidx⟩
  own b p hb hpup := by
    rcases RouterState.setPool_heap.1 hb with ⟨rfl, rfl⟩ | ⟨-, hb⟩
    · rw [hidx]
      exact h.own b pool ha hup
    · exact h.own b p hb hpup
  halves := h.halves
  brk b hb := by
    have hne : b ≠ a := by
      intro he
      have hnone := h.brk b hb
      rw [he, ha] at hnone
      cases hnone
    exact (Function.update_of_ne hne _ _).trans (h.brk b hb)
  counted b p hb := by
    rcases RouterState.setPool_heap.1 hb with ⟨rfl, rfl⟩ | ⟨-, hb⟩
    · exact hcounted
    · exact h.counted b p hb
  alive b p hb hpup := by
    rcases RouterState.setPool_heap.1 hb with ⟨rfl, rfl⟩ | ⟨-, hb⟩
    · exact halive
    · exact h.alive b p hb hpup
  gone b p hb hpdown := by
    rcases RouterState.setPool_heap.1 hb with ⟨rfl, rfl⟩ | ⟨-, hb⟩
    · rw [hup'] at hpdown
      cases hpdown
    · exact h.gone b p hb hpdown

theorem HalfInv.setPool {flag : Int} {n : Mode → Nat} (h : HalfInv r flag n db) {a : Nat}
    {pool pool' : RouterPool σ} (ha : r.heap a = some pool) (hserv : pool'.servers = pool.servers) :
    HalfInv (r.setPool a pool') flag n db where
  le := h.le
  rest := h.rest
  servers m i b p hi hb hp := by
    rcases RouterState.setPool_heap.1 hp with ⟨rfl, rfl⟩ | ⟨-, hp⟩
    · rw [hserv]
      exact h.servers m i b pool hi hb ha
    · exact h.servers m i b p hi hb hp
  num := h.num
  kept := h.kept

/-- Other slots do not notice. -/
theorem HoldsIn.setPool {P : RouterPool σ → Prop} {flag : Int} {m : Mode} {i : Nat}
    (h : HoldsIn P r flag m i) {a : Nat} {pool' : RouterPool σ}
    (hne : r.poolMap m (slotIn flag i) ≠ some a) : HoldsIn P (r.setPool a pool') flag m i := by
  obtain ⟨b, p, hb, hp, hun⟩ := h
  have hba : b ≠ a := by
    intro he
    rw [he] at hb
    exact hne hb
  exact ⟨b, p, hb, (Function.update_of_ne hba _ _).trans hp, hun⟩

/-! ### A pool that is gone. -/

theorem RouterState.dropPool_poolMap (r : RouterState σ) (m : Mode) (k : Int) (a : Nat)
    (pool : RouterPool σ) (m' : Mode) (k' : Int) :
    (r.dropPool m k a pool).poolMap m' k'
      = if m' = m ∧ k' = k then none else r.poolMap m' k' := update_slot r.poolMap m m' k k' none

theorem RouterState.dropPool_poolNum (r : RouterState σ) (m : Mode) (k : Int) (a : Nat)
    (pool : RouterPool σ) (m' : Mode) (flag : Int) :
    (r.dropPool m k a pool).poolNum m' flag
      = if m' = m ∧ flag = r.routerNextFlag then r.poolNum m r.routerNextFlag - 1
        else r.poolNum m' flag :=
  update_slot r.poolNum m m' r.routerNextFlag flag _

theorem RouterState.dropPool_heap {m : Mode} {k : Int} {a b : Nat} {pool p : RouterPool σ} :
    (r.dropPool m k a pool).heap b = some p
      ↔ b = a ∧ p = { pool with freed := true } ∨ b ≠ a ∧ r.heap b = some p := by
  show Function.update r.heap a (some { pool with freed := true }) b = some p ↔ _
  by_cases hba : b = a
  · subst hba
    rw [Function.update_self]
    simp [eq_comm]
  · rw [Function.update_of_ne hba]
    simp [hba]

theorem SlotInv.dropPool (h : SlotInv r) {m : Mode} {k : Int} {a : Nat} {pool : RouterPool σ}
    (ha : r.poolMap m k = some a) (hcounted : pool.info.Counted pool.servers.length)
    (hz : pool.info.serverCount = 0) : SlotInv (r.dropPool m k a pool) where
  held m' k' b hb := by
    rw [r.dropPool_poolMap] at hb
    split at hb
    · cases hb
    · rename_i hne
      obtain ⟨p, hp, hup, hidx⟩ := h.held m' k' b hb
      have hba : b ≠ a := by
        intro he
        subst he
        exact hne (h.unique hb ha)
      exact ⟨p, RouterState.dropPool_heap.2 (Or.inr ⟨hba, hp⟩), hup, hidx⟩
  own b p hb hup := by
    rcases RouterState.dropPool_heap.1 hb with ⟨-, rfl⟩ | ⟨hba, hb⟩
    · cases hup
    · obtain ⟨m', k', hidx, hmap⟩ := h.own b p hb hup
      refine ⟨m', k', hidx, ?_⟩
      rw [r.dropPool_poolMap, if_neg ?_]
      · exact hmap
      · rintro ⟨rfl, rfl⟩
        rw [ha] at hmap
        cases hmap
        exact hba rfl
  halves m' k' hk := by
    rw [r.dropPool_poolMap] at hk
    split at hk
    · exact absurd rfl hk
    · exact h.halves m' k' hk
  brk b hb := by
    have hne : b ≠ a := by
      intro he
      obtain ⟨p, hp, -⟩ := h.held m k a ha
      rw [← he, h.brk b hb] at hp
      cases hp
    exact (Function.update_of_ne hne _ _).trans (h.brk b hb)
  counted b p hb := by
    rcases RouterState.dropPool_heap.1 hb with ⟨-, rfl⟩ | ⟨-, hb⟩
    · exact hcounted
    · exact h.counted b p hb
  alive b p hb hup := by
    rcases RouterState.dropPool_heap.1 hb with ⟨-, rfl⟩ | ⟨-, hb⟩
    · cases hup
    · exact h.alive b p hb hup
  gone b p hb hdown := by
    rcases RouterState.dropPool_heap.1 hb with ⟨-, rfl⟩ | ⟨-, hb⟩
    · exact hz
    · exact h.gone b p hb hdown

/-- The half the pool was in: one slot less, and one counted off. -/
theorem HalfInv.dropPool {n : Mode → Nat} (h : HalfInv r r.routerNextFlag n db) (hslots : SlotInv r)
    {m : Mode} {i : Nat} {a : Nat} {pool : RouterPool σ} (hi : i < n m)
    (ha : r.poolMap m (slotIn r.routerNextFlag i) = some a)
    (hne : db.partitionService m i ≠ []) :
    HalfInv (r.dropPool m (slotIn r.routerNextFlag i) a pool) r.routerNextFlag n db where
  le := h.le
  rest m' i' hi' hlt := by
    rw [r.dropPool_poolMap]
    split
    · rfl
    · exact h.rest m' i' hi' hlt
  servers m' i' b p hi' hb hp := by
    rw [r.dropPool_poolMap] at hb
    split at hb
    · cases hb
    · rename_i hslot
      rcases RouterState.dropPool_heap.1 hp with ⟨rfl, -⟩ | ⟨-, hp⟩
      · exact absurd (hslots.unique hb ha) hslot
      · exact h.servers m' i' b p hi' hb hp
  num m' := by
    rw [r.dropPool_poolNum]
    by_cases hm : m' = m
    · subst hm
      rw [if_pos ⟨rfl, rfl⟩, h.num m']
      -- the map restricted to the half changes at `i` alone
      have hupd := countP_update List.nodup_range (List.mem_range.2 hi)
        (fun j => r.poolMap m' (slotIn r.routerNextFlag j)) none Option.isSome
      simp only [ha, Option.isSome_some, Option.isSome_none, if_true, Bool.false_eq_true, if_false,
        Nat.add_zero] at hupd
      have hsame : (List.range (n m')).countP (fun j =>
            ((r.dropPool m' (slotIn r.routerNextFlag i) a pool).poolMap m'
              (slotIn r.routerNextFlag j)).isSome)
          = (List.range (n m')).countP (fun j =>
            (Function.update (fun j => r.poolMap m' (slotIn r.routerNextFlag j)) i none j).isSome) := by
        apply List.countP_congr
        intro j _
        rw [r.dropPool_poolMap, Function.update_apply]
        by_cases hji : j = i
        · subst hji
          simp
        · have hslot : slotIn r.routerNextFlag j ≠ slotIn r.routerNextFlag i := by
            unfold slotIn
            omega
          simp [hji, hslot]
      rw [hsame]
      omega
    · rw [if_neg (fun hx => hm hx.1), h.num m']
      refine congrArg Nat.cast (List.countP_congr ?_)
      intro j _
      rw [r.dropPool_poolMap, if_neg (fun hx => hm hx.1)]
  kept m' i' hi' hs := by
    rw [r.dropPool_poolMap, if_neg ?_]
    · exact h.kept m' i' hi' hs
    · rintro ⟨rfl, hslot⟩
      have hii : i' = i := by
        unfold slotIn at hslot
        omega
      rw [hii] at hs
      exact hne hs

/-- A half whose slots, counts and pools are what they were. -/
theorem HalfInv.frame {r' : RouterState σ} {flag : Int} {n : Mode → Nat} (h : HalfInv r flag n db)
    (hmap : ∀ m j, j < partitionModKeyNat →
      r'.poolMap m (slotIn flag j) = r.poolMap m (slotIn flag j))
    (hnum : ∀ m, r'.poolNum m flag = r.poolNum m flag)
    (hheap : ∀ m j a p, j < n m → r.poolMap m (slotIn flag j) = some a → r'.heap a = some p →
      r.heap a = some p) : HalfInv r' flag n db := by
  refine ⟨h.le, ?_, ?_, ?_, ?_⟩
  · intro m j hj hlt
    rw [hmap m j hlt]
    exact h.rest m j hj hlt
  · intro m j b p hj hb hp
    rw [hmap m j (Nat.lt_of_lt_of_le hj (h.le m))] at hb
    exact h.servers m j b p hj hb (hheap m j b p hj hb hp)
  · intro m
    rw [hnum m, h.num m]
    refine congrArg Nat.cast (List.countP_congr ?_)
    intro j hj
    rw [hmap m j (Nat.lt_of_lt_of_le (List.mem_range.1 hj) (h.le m))]
  · intro m j hj hs
    rw [hmap m j (Nat.lt_of_lt_of_le hj (h.le m))]
    exact h.kept m j hj hs

/-- The other half does not notice. -/
theorem HalfInv.dropPool_other {flag : Int} {n : Mode → Nat} (h : HalfInv r flag n db)
    (hslots : SlotInv r) {m : Mode} {i : Nat} {a : Nat} {pool : RouterPool σ}
    (hflag : flag ≠ r.routerNextFlag) (hi : i < partitionModKeyNat)
    (ha : r.poolMap m (slotIn r.routerNextFlag i) = some a) :
    HalfInv (r.dropPool m (slotIn r.routerNextFlag i) a pool) flag n db := by
  refine h.frame ?_ ?_ ?_
  · intro m' j hj
    rw [r.dropPool_poolMap, if_neg]
    rintro ⟨-, he⟩
    exact hflag (slotIn_inj hj hi he).1
  · intro m'
    rw [r.dropPool_poolNum, if_neg (fun hx => hflag hx.2)]
  · intro m' j b p hj hb hp
    rcases RouterState.dropPool_heap.1 hp with ⟨rfl, -⟩ | ⟨-, hp⟩
    · have hslot := (hslots.unique hb ha).2
      exact absurd (slotIn_inj (Nat.lt_of_lt_of_le hj (h.le m')) hi hslot).1 hflag
    · exact hp

/-- Nor do other slots. -/
theorem HoldsIn.dropPool {P : RouterPool σ → Prop} {flag : Int} {m m' : Mode} {i : Nat} {k : Int}
    {a : Nat} {pool : RouterPool σ} (h : HoldsIn P r flag m' i) (hslots : SlotInv r)
    (ha : r.poolMap m k = some a) (hne : ¬ (m' = m ∧ slotIn flag i = k)) :
    HoldsIn P (r.dropPool m k a pool) flag m' i := by
  obtain ⟨b, p, hb, hp, hun⟩ := h
  have hba : b ≠ a := by
    intro he
    subst he
    exact hne (hslots.unique hb ha)
  refine ⟨b, p, ?_, (Function.update_of_ne hba _ _).trans hp, hun⟩
  rw [r.dropPool_poolMap, if_neg hne]
  exact hb

/-! ### The memory of the pools. -/

/-- The servers of every pool are in memory of its own, as far as they are not torn
down. -/
def HeapIntact (r : RouterState σ) : Prop :=
  ∀ a pool, r.heap a = some pool →
    pool.info.MemInv pool.servers.length ∧ pool.info.Intact pool.servers.length

theorem HeapIntact.congr {r' : RouterState σ} (h : HeapIntact r) (hs : SameSlots r r') :
    HeapIntact r' := by
  unfold HeapIntact
  rw [hs.heap]
  exact h

/-- Only the pool at `a` is stored again. -/
theorem RouterState.onPool_heap {a b : Nat} {pool p : RouterPool σ} {res : PoolInfo σ × Calls σ}
    (hb : (r.onPool a pool res).heap b = some p) :
    (p.info = res.1 ∧ p.servers = pool.servers) ∨ r.heap b = some p := by
  have honDestroy : ∀ (r : RouterState σ) (pool : RouterPool σ), (r.onDestroy a pool).heap
      = Function.update r.heap a (some { pool with freed := true }) := by
    intro r pool
    unfold RouterState.onDestroy
    simp only
    split <;> rfl
  have hheap : ∃ q : RouterPool σ, (r.onPool a pool res).heap = Function.update r.heap a (some q)
      ∧ q.info = res.1 ∧ q.servers = pool.servers := by
    unfold RouterState.onPool
    simp only
    split
    · rw [honDestroy]
      exact ⟨_, Function.update_idem _ _ _, rfl, rfl⟩
    · exact ⟨_, rfl, rfl, rfl⟩
  obtain ⟨q, hq, hinfo, hserv⟩ := hheap
  rw [hq] at hb
  by_cases hba : b = a
  · subst hba
    rw [Function.update_self] at hb
    cases hb
    exact Or.inl ⟨hinfo, hserv⟩
  · rw [Function.update_of_ne hba] at hb
    exact Or.inr hb

/-- What happened to the pool at `a` concerns its own memory only. -/
theorem HeapIntact.onPool (h : HeapIntact r) {a : Nat} {pool : RouterPool σ}
    {res : PoolInfo σ × Calls σ}
    (hres : res.1.MemInv pool.servers.length ∧ res.1.Intact pool.servers.length) :
    HeapIntact (r.onPool a pool res) := by
  intro b p hb
  rcases RouterState.onPool_heap hb with ⟨hinfo, hserv⟩ | hold
  · rw [hinfo, hserv]
    exact hres
  · exact h b p hold

/-! ## §4. A new pool. -/

/-- Both halves while the inactive one is filled for `new`: so far with `n .r` read
pools and `n .w` write pools. -/
structure FillInv (r : RouterState σ) (db new : MetaDbInfo) (n : Mode → Nat) : Prop where
  flags : IsFlag r.routerFlag ∧ r.routerNextFlag = 1 - r.routerFlag
  slots : SlotInv r
  active : HalfInv r r.routerFlag (fun _ => db.passes) db
  inactive : HalfInv r r.routerNextFlag n new
  inUse : ∀ m i, i < db.passes → InUse r r.routerFlag m i
  filled : ∀ m i, i < n m → InUse r r.routerNextFlag m i

/-- What `pool_build` makes is in use. -/
theorem poolBuild_untouched (n : Nat) (connectPerServer connectRetry : Int) :
    (poolBuild n connectPerServer connectRetry : PoolInfo σ).Untouched n := by
  refine ⟨rfl, rfl, ?_⟩
  intro i
  obtain ⟨k, e, hb, -⟩ := serverBuild_spec (σ := σ) connectPerServer
  have harr : (poolBuild n connectPerServer connectRetry : PoolInfo σ).serverArr i
      = serverBuild connectPerServer := rfl
  rw [harr, hb]
  exact ⟨rfl, rfl⟩

/-- The pool `_shard_build_pool` makes for partition `i`. -/
def RouterState.made (r : RouterState σ) (table : Nat) (db : MetaDbInfo) (m : Mode) (i : Nat) :
    RouterPool σ where
  poolIdx := m.poolIdx (slotIn r.routerNextFlag i)
  servers := (db.partitionService m i).map poolServiceConf
  machineRoom := table
  cTimeOutMs := db.timeout.toInt32.toInt
  longConnect := db.longConnect
  info := poolBuild ((db.partitionService m i).map poolServiceConf).length
    db.connectPerService.toInt32.toInt db.getConnectRetry.toInt32.toInt
  freed := false

theorem RouterState.newPool_heap {m : Mode} {i a : Nat} {p : RouterPool σ} :
    (r.newPool table db m i).heap a = some p
      ↔ a = r.brk ∧ p = r.made table db m i ∨ a ≠ r.brk ∧ r.heap a = some p := by
  show Function.update r.heap r.brk (some (r.made table db m i)) a = some p ↔ _
  by_cases ha : a = r.brk
  · subst ha
    rw [Function.update_self]
    simp [eq_comm]
  · rw [Function.update_of_ne ha]
    simp [ha]

theorem RouterState.newPool_poolMap (r : RouterState σ) (table : Nat) (db : MetaDbInfo) (m : Mode)
    (i : Nat) (m' : Mode) (k : Int) :
    (r.newPool table db m i).poolMap m' k
      = if m' = m ∧ k = slotIn r.routerNextFlag i then some r.brk else r.poolMap m' k :=
  update_slot r.poolMap m m' (slotIn r.routerNextFlag i) k (some r.brk)

theorem RouterState.newPool_poolNum (r : RouterState σ) (table : Nat) (db : MetaDbInfo) (m : Mode)
    (i : Nat) (m' : Mode) (flag : Int) :
    (r.newPool table db m i).poolNum m' flag
      = if m' = m ∧ flag = r.routerNextFlag then r.poolNum m r.routerNextFlag + 1
        else r.poolNum m' flag :=
  update_slot r.poolNum m m' r.routerNextFlag flag _

theorem HeapIntact.newPool (h : HeapIntact r) (m : Mode) (i : Nat) :
    HeapIntact (r.newPool table db m i) := by
  intro b p hb
  rcases RouterState.newPool_heap.1 hb with ⟨-, rfl⟩ | ⟨-, hb⟩
  · exact PoolState.start_mem _ _ _
  · exact h b p hb

theorem SlotInv.newPool (h : SlotInv r) (hflag : IsFlag r.routerNextFlag) {m : Mode} {i : Nat}
    (hi : i < partitionModKeyNat) (hfree : r.poolMap m (slotIn r.routerNextFlag i) = none) :
    SlotInv (r.newPool table db m i) where
  held m' k b hb := by
    rw [r.newPool_poolMap] at hb
    split at hb
    · rename_i hslot
      cases hb
      refine ⟨r.made table db m i, RouterState.newPool_heap.2 (Or.inl ⟨rfl, rfl⟩), rfl, ?_⟩
      rw [hslot.1, hslot.2]
      rfl
    · obtain ⟨p, hp, hup, hidx⟩ := h.held m' k b hb
      have hne : b ≠ r.brk := by
        intro he
        rw [he, h.brk r.brk (Nat.le_refl _)] at hp
        cases hp
      exact ⟨p, RouterState.newPool_heap.2 (Or.inr ⟨hne, hp⟩), hup, hidx⟩
  own b p hb hup := by
    rcases RouterState.newPool_heap.1 hb with ⟨rfl, rfl⟩ | ⟨-, hb⟩
    · refine ⟨m, slotIn r.routerNextFlag i, rfl, ?_⟩
      rw [r.newPool_poolMap, if_pos ⟨rfl, rfl⟩]
    · obtain ⟨m', k, hidx, hmap⟩ := h.own b p hb hup
      refine ⟨m', k, hidx, ?_⟩
      rw [r.newPool_poolMap, if_neg]
      · exact hmap
      · rintro ⟨rfl, rfl⟩
        rw [hfree] at hmap
        cases hmap
  halves m' k hk := by
    rw [r.newPool_poolMap] at hk
    split at hk
    · rename_i hslot
      exact ⟨r.routerNextFlag, i, hflag, hi, hslot.2⟩
    · exact h.halves m' k hk
  brk a ha := by
    have ha : r.brk + 1 ≤ a := ha
    have hne : a ≠ r.brk := by omega
    exact (Function.update_of_ne hne _ _).trans (h.brk a (by omega))
  counted b p hb := by
    rcases RouterState.newPool_heap.1 hb with ⟨rfl, rfl⟩ | ⟨-, hb⟩
    · exact (poolBuild_untouched _ _ _).counted
    · exact h.counted b p hb
  alive b p hb hup hne := by
    rcases RouterState.newPool_heap.1 hb with ⟨rfl, rfl⟩ | ⟨-, hb⟩
    · intro hz
      have hz : (((db.partitionService m i).map poolServiceConf).length : Int) = 0 := hz
      exact hne (List.length_eq_zero_iff.1 (Int.ofNat_eq_zero.1 hz))
    · exact h.alive b p hb hup hne
  gone b p hb hdown := by
    rcases RouterState.newPool_heap.1 hb with ⟨rfl, rfl⟩ | ⟨-, hb⟩
    · cases hdown
    · exact h.gone b p hb hdown

/-- The next slot of the half is filled. -/
theorem HalfInv.newPool {n : Mode → Nat} (h : HalfInv r r.routerNextFlag n db) (hslots : SlotInv r)
    {m : Mode} (hi : n m < partitionModKeyNat) :
    HalfInv (r.newPool table db m (n m)) r.routerNextFlag (Function.update n m (n m + 1)) db := by
  have hle : ∀ m', n m' ≤ Function.update n m (n m + 1) m'
      ∧ ∀ j, j < Function.update n m (n m + 1) m' → j < n m' ∨ m' = m ∧ j = n m := by
    intro m'
    by_cases hm : m' = m
    · subst hm
      rw [Function.update_self]
      refine ⟨Nat.le_succ _, ?_⟩
      intro j hj
      rcases Nat.lt_or_eq_of_le (Nat.le_of_lt_succ hj) with hlt | he
      · exact Or.inl hlt
      · exact Or.inr ⟨rfl, he⟩
    · rw [Function.update_of_ne hm]
      exact ⟨Nat.le_refl _, fun j hj => Or.inl hj⟩
  have hold : ∀ m' j, j ≠ n m ∨ m' ≠ m → (r.newPool table db m (n m)).poolMap m' (slotIn r.routerNextFlag j)
      = r.poolMap m' (slotIn r.routerNextFlag j) := by
    intro m' j hne
    rw [r.newPool_poolMap, if_neg]
    rintro ⟨rfl, hslot⟩
    unfold slotIn at hslot
    rcases hne with hne | hne
    · omega
    · exact hne rfl
  have hnew : (r.newPool table db m (n m)).poolMap m (slotIn r.routerNextFlag (n m)) = some r.brk := by
    rw [r.newPool_poolMap, if_pos ⟨rfl, rfl⟩]
  refine ⟨?_, ?_, ?_, ?_, ?_⟩
  · intro m'
    by_cases hm : m' = m
    · subst hm
      rw [Function.update_self]
      exact hi
    · rw [Function.update_of_ne hm]
      exact h.le m'
  · intro m' j hj hlt
    have hne : j ≠ n m ∨ m' ≠ m := by
      by_cases hm : m' = m
      · subst hm
        rw [Function.update_self] at hj
        exact Or.inl (by omega)
      · exact Or.inr hm
    rw [hold m' j hne]
    exact h.rest m' j (Nat.le_trans (hle m').1 hj) hlt
  · intro m' j b p hj hb hp
    by_cases hnm : m' = m ∧ j = n m
    · obtain ⟨rfl, rfl⟩ := hnm
      rw [hnew] at hb
      cases hb
      rcases RouterState.newPool_heap.1 hp with ⟨-, rfl⟩ | ⟨hne, -⟩
      · rfl
      · exact absurd rfl hne
    · have hjn := ((hle m').2 j hj).resolve_right hnm
      rw [hold m' j (by
        by_cases hm : m' = m
        · exact Or.inl (fun he => hnm ⟨hm, he⟩)
        · exact Or.inr hm)] at hb
      rcases RouterState.newPool_heap.1 hp with ⟨rfl, -⟩ | ⟨-, hp⟩
      · obtain ⟨q, hq, -⟩ := hslots.held m' _ _ hb
        rw [hslots.brk r.brk (Nat.le_refl _)] at hq
        cases hq
      · exact h.servers m' j b p hjn hb hp
  · intro m'
    rw [r.newPool_poolNum]
    by_cases hm : m' = m
    · subst hm
      rw [if_pos ⟨rfl, rfl⟩, Function.update_self, List.range_succ, List.countP_append, h.num m']
      have hsame : (List.range (n m')).countP
            (fun j => ((r.newPool table db m' (n m')).poolMap m' (slotIn r.routerNextFlag j)).isSome)
          = (List.range (n m')).countP
            (fun j => (r.poolMap m' (slotIn r.routerNextFlag j)).isSome) := by
        apply List.countP_congr
        intro j hj
        have hlt := List.mem_range.1 hj
        rw [hold m' j (Or.inl (by omega))]
      rw [hsame, List.countP_singleton, hnew]
      rfl
    · rw [if_neg (fun hx => hm hx.1), Function.update_of_ne hm, h.num m']
      refine congrArg Nat.cast (List.countP_congr ?_)
      intro j _
      rw [hold m' j (Or.inr hm)]
  · intro m' j hj hs
    by_cases hnm : m' = m ∧ j = n m
    · obtain ⟨rfl, rfl⟩ := hnm
      rw [hnew]
      exact Option.some_ne_none _
    · have hjn := ((hle m').2 j hj).resolve_right hnm
      rw [hold m' j (by
        by_cases hm : m' = m
        · exact Or.inl (fun he => hnm ⟨hm, he⟩)
        · exact Or.inr hm)]
      exact h.kept m' j hjn hs

/-- Other slots do not notice. -/
theorem HoldsIn.newPool {P : RouterPool σ → Prop} {flag : Int} {m m' : Mode} {i j : Nat}
    (h : HoldsIn P r flag m' j) (hslots : SlotInv r)
    (hfree : r.poolMap m (slotIn r.routerNextFlag i) = none) :
    HoldsIn P (r.newPool table db m i) flag m' j := by
  obtain ⟨b, p, hb, hp, hun⟩ := h
  refine ⟨b, p, ?_, RouterState.newPool_heap.2 (Or.inr ⟨?_, hp⟩), hun⟩
  · rw [r.newPool_poolMap, if_neg]
    · exact hb
    · rintro ⟨rfl, hslot⟩
      rw [hslot, hfree] at hb
      cases hb
  · intro he
    rw [he, hslots.brk r.brk (Nat.le_refl _)] at hp
    cases hp

/-- **One pass** of a loop of `_shard_build_pool`. -/
theorem FillInv.newPool {new : MetaDbInfo} {n : Mode → Nat} (h : FillInv r db new n) (table : Nat)
    {m : Mode} (hi : n m < partitionModKeyNat) :
    FillInv (r.newPool table new m (n m)) db new (Function.update n m (n m + 1)) := by
  have hne : r.routerFlag ≠ r.routerNextFlag := by
    obtain ⟨hf, hn⟩ := h.flags
    unfold IsFlag at hf
    omega
  have hnext : IsFlag r.routerNextFlag := by
    obtain ⟨hf, hn⟩ := h.flags
    unfold IsFlag at hf ⊢
    omega
  have hfree := h.inactive.rest m (n m) (Nat.le_refl _) hi
  refine ⟨h.flags, h.slots.newPool hnext hi hfree, ?_, h.inactive.newPool h.slots hi, ?_, ?_⟩
  · refine h.active.frame ?_ ?_ ?_
    · intro m' j hj
      rw [r.newPool_poolMap, if_neg]
      rintro ⟨-, hslot⟩
      exact hne (slotIn_inj hj hi hslot).1
    · intro m'
      rw [r.newPool_poolNum, if_neg (fun hx => hne hx.2)]
    · intro m' j b p _ hb hp
      rcases RouterState.newPool_heap.1 hp with ⟨rfl, -⟩ | ⟨-, hp⟩
      · obtain ⟨q, hq, -⟩ := h.slots.held m' _ _ hb
        rw [h.slots.brk r.brk (Nat.le_refl _)] at hq
        cases hq
      · exact hp
  · exact fun m' j hj => (h.inUse m' j hj).newPool h.slots hfree
  · intro m' j hj
    by_cases hnm : m' = m ∧ j = n m
    · obtain ⟨rfl, rfl⟩ := hnm
      refine ⟨r.brk, r.made table new m' (n m'), ?_, RouterState.newPool_heap.2 (Or.inl ⟨rfl, rfl⟩),
        poolBuild_untouched _ _ _⟩
      rw [r.newPool_poolMap, if_pos ⟨rfl, rfl⟩]
    · have hjn : j < n m' := by
        by_cases hm : m' = m
        · subst hm
          rw [Function.update_self] at hj
          have hjne : j ≠ n m' := fun he => hnm ⟨rfl, he⟩
          exact Nat.lt_of_le_of_ne (Nat.le_of_lt_succ hj) hjne
        · rw [Function.update_of_ne hm] at hj
          exact hj
      exact (h.filled m' j hjn).newPool h.slots hfree

end RedisAgent
