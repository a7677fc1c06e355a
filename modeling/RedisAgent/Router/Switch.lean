/-
  RedisAgent.Router.Switch — pool events, `router_destroy` and `router_build`.

  Each of them keeps the invariant of the router (`RouterInv`).  What happens to
  the slots is read off the pools: a slot is cleared when its pool is gone, only
  then, and only in the inactive half (`ClearsExactly.of_shrinks`).

  Main results:
    • `RouterInv.onServer` — an entry into a server of any pool;
    • `BuffersInv.destroy` — the two loops of `router_destroy`;
    • `RouterInv.build` — `router_build`.
-/
import RedisAgent.Router.Halves

namespace RedisAgent

variable {σ : Type*} {r : RouterState σ} {table : Nat} {db old : MetaDbInfo}

/-! ## §1. What pool events do to the slots. -/

/-- Only pools changed: none was made, and those that are gone stay so. -/
structure Shrinks (r r' : RouterState σ) : Prop where
  flag : r'.routerFlag = r.routerFlag
  next : r'.routerNextFlag = r.routerNextFlag
  back : ∀ a pool', r'.heap a = some pool' → ∃ pool, r.heap a = some pool
    ∧ pool'.poolIdx = pool.poolIdx ∧ pool'.servers = pool.servers
    ∧ (pool.freed = true → pool'.freed = true)
  forth : ∀ a pool, r.heap a = some pool → ∃ pool', r'.heap a = some pool'

theorem Shrinks.refl (r : RouterState σ) : Shrinks r r :=
  ⟨rfl, rfl, fun _ pool h => ⟨pool, h, rfl, rfl, id⟩, fun _ pool h => ⟨pool, h⟩⟩

theorem Shrinks.trans {r' r'' : RouterState σ} (h : Shrinks r r') (h' : Shrinks r' r'') :
    Shrinks r r'' := by
  refine ⟨h'.flag.trans h.flag, h'.next.trans h.next, ?_, ?_⟩
  · intro a pool'' hp''
    obtain ⟨pool', hp', hidx', hserv', hfreed'⟩ := h'.back a pool'' hp''
    obtain ⟨pool, hp, hidx, hserv, hfreed⟩ := h.back a pool' hp'
    exact ⟨pool, hp, hidx'.trans hidx, hserv'.trans hserv, fun hf => hfreed' (hfreed hf)⟩
  · intro a pool hp
    obtain ⟨pool', hp'⟩ := h.forth a pool hp
    exact h'.forth a pool' hp'

theorem Shrinks.setPool {a : Nat} {pool pool' : RouterPool σ} (ha : r.heap a = some pool)
    (hup : pool.freed = false) (hidx : pool'.poolIdx = pool.poolIdx)
    (hserv : pool'.servers = pool.servers) : Shrinks r (r.setPool a pool') := by
  refine ⟨rfl, rfl, ?_, ?_⟩
  · intro b p hp
    rcases RouterState.setPool_heap.1 hp with ⟨rfl, rfl⟩ | ⟨-, hp⟩
    · refine ⟨pool, ha, hidx, hserv, ?_⟩
      intro hdown
      rw [hup] at hdown
      cases hdown
    · exact ⟨p, hp, rfl, rfl, id⟩
  · intro b p hp
    by_cases hba : b = a
    · exact ⟨pool', RouterState.setPool_heap.2 (Or.inl ⟨hba, rfl⟩)⟩
    · exact ⟨p, RouterState.setPool_heap.2 (Or.inr ⟨hba, hp⟩)⟩

theorem Shrinks.dropPool {m : Mode} {k : Int} {a : Nat} {pool pool' : RouterPool σ}
    (ha : r.heap a = some pool) (hidx : pool'.poolIdx = pool.poolIdx)
    (hserv : pool'.servers = pool.servers) : Shrinks r (r.dropPool m k a pool') := by
  refine ⟨rfl, rfl, ?_, ?_⟩
  · intro b p hp
    rcases RouterState.dropPool_heap.1 hp with ⟨rfl, rfl⟩ | ⟨-, hp⟩
    · exact ⟨pool, ha, hidx, hserv, fun _ => rfl⟩
    · exact ⟨p, hp, rfl, rfl, id⟩
  · intro b p hp
    by_cases hba : b = a
    · exact ⟨_, RouterState.dropPool_heap.2 (Or.inl ⟨hba, rfl⟩)⟩
    · exact ⟨p, RouterState.dropPool_heap.2 (Or.inr ⟨hba, hp⟩)⟩

theorem Shrinks.congr {r' r'' : RouterState σ} (h : Shrinks r r') (hs : SameSlots r' r'')
    (hflag : r''.routerFlag = r'.routerFlag) (hnext : r''.routerNextFlag = r'.routerNextFlag) :
    Shrinks r r'' := by
  refine ⟨hflag.trans h.flag, hnext.trans h.next, ?_, ?_⟩
  · rw [hs.heap]
    exact h.back
  · rw [hs.heap]
    exact h.forth

/-- The pool at `a` came to its end: `_router_on_destroy` was called for it. -/
def Finished (r r' : RouterState σ) (a : Nat) : Prop :=
  ∃ pool pool', r.heap a = some pool ∧ pool.freed = false ∧ r'.heap a = some pool'
    ∧ pool'.freed = true

/-- From `r` to `r'` the slots of the finished pools were cleared, all of them in the
inactive half, and no other slot changed. -/
structure ClearsExactly (r r' : RouterState σ) : Prop where
  cleared : ∀ m k a, r.poolMap m k = some a → Finished r r' a → r'.poolMap m k = none
  others : ∀ m k, (∀ a, r.poolMap m k = some a → ¬ Finished r r' a) →
    r'.poolMap m k = r.poolMap m k
  side : ∀ a, Finished r r' a → ∃ m i, i < partitionModKeyNat
    ∧ r.poolMap m (slotIn r.routerNextFlag i) = some a

/-- Going back, a filled slot was filled with the same pool. -/
theorem SlotInv.back {r' : RouterState σ} (h : SlotInv r) (h' : SlotInv r') (hs : Shrinks r r')
    {m : Mode} {k : Int} {a : Nat} (ha : r'.poolMap m k = some a) : r.poolMap m k = some a := by
  obtain ⟨pool', hp', hup', hidx'⟩ := h'.held m k a ha
  obtain ⟨pool, hp, hidx, -, hfreed⟩ := hs.back a pool' hp'
  have hup : pool.freed = false := by
    cases hf : pool.freed with
    | false => rfl
    | true =>
        rw [hfreed hf] at hup'
        cases hup'
  obtain ⟨m₀, k₀, hidx₀, hmap⟩ := h.own a pool hp hup
  obtain ⟨rfl, rfl⟩ := poolIdx_inj (h.nonneg hmap) (h'.nonneg ha)
    (hidx₀.symm.trans (hidx.symm.trans hidx'))
  exact hmap

/-- **A slot is cleared when its pool is gone.** -/
theorem ClearsExactly.of_shrinks {r' : RouterState σ} (h : BuffersInv r db old)
    (h' : BuffersInv r' db old) (hs : Shrinks r r') : ClearsExactly r r' := by
  have hcleared : ∀ m k a, r.poolMap m k = some a → Finished r r' a → r'.poolMap m k = none := by
    intro m k a ha hfin
    cases hb : r'.poolMap m k with
    | none => rfl
    | some b =>
        have hab := h.slots.back h'.slots hs hb
        rw [ha] at hab
        cases hab
        -- the slot holds a pool that is gone
        obtain ⟨_, pool', -, -, hp', hdown⟩ := hfin
        obtain ⟨p, hp, hup, -⟩ := h'.slots.held m k a hb
        rw [hp'] at hp
        cases hp
        rw [hdown] at hup
        cases hup
  refine ⟨hcleared, ?_, ?_⟩
  · intro m k hno
    cases ha : r.poolMap m k with
    | none =>
        cases hb : r'.poolMap m k with
        | none => rfl
        | some b =>
            have hab := h.slots.back h'.slots hs hb
            rw [ha] at hab
            cases hab
    | some a =>
        obtain ⟨pool, hp, hup, hidx⟩ := h.slots.held m k a ha
        obtain ⟨pool', hp'⟩ := hs.forth a pool hp
        obtain ⟨p, hpp, hidx', -⟩ := hs.back a pool' hp'
        rw [hp] at hpp
        cases hpp
        have hup' : pool'.freed = false := by
          cases hf : pool'.freed with
          | false => rfl
          | true => exact absurd ⟨pool, pool', hp, hup, hp', hf⟩ (hno a ha)
        obtain ⟨m', k', hidx'', hmap⟩ := h'.slots.own a pool' hp' hup'
        obtain ⟨rfl, rfl⟩ := poolIdx_inj (h.slots.nonneg ha) (h'.slots.nonneg hmap)
          (hidx.symm.trans (hidx'.symm.trans hidx''))
        exact hmap
  · intro a hfin
    obtain ⟨pool, _, hp, hup, -⟩ := id hfin
    obtain ⟨m, k, -, hmap⟩ := h.slots.own a pool hp hup
    obtain ⟨flag, i, hflag, hi, rfl⟩ := h.slots.halves m k (by simp [hmap])
    refine ⟨m, i, hi, ?_⟩
    have hside : flag = r.routerNextFlag ∨ flag = r.routerFlag := by
      obtain ⟨hf, hn⟩ := h.flags
      unfold IsFlag at hf hflag
      omega
    rcases hside with rfl | rfl
    · exact hmap
    · -- a pool in force does not come to its end
      have hlt : i < db.passes := by
        by_contra hge
        have hnone := h.active.rest m i (by omega) hi
        rw [hmap] at hnone
        cases hnone
      obtain ⟨b, p, hb, -⟩ := h'.inUse m i hlt
      rw [hs.flag, hcleared m _ a hmap hfin] at hb
      cases hb

/-! ## §2. One pool event. -/

/-- Two slots of the halves are different. -/
theorem slotIn_ne {m m' : Mode} {flag flag' : Int} {i j : Nat} (hi : i < partitionModKeyNat)
    (hj : j < partitionModKeyNat) (hne : flag' = flag → (m', j) ≠ (m, i)) :
    ¬ (m' = m ∧ slotIn flag' j = slotIn flag i) := by
  rintro ⟨rfl, hslot⟩
  obtain ⟨rfl, rfl⟩ := slotIn_inj hj hi hslot
  exact hne rfl rfl

/-- A pool of the inactive half is gone. -/
theorem BuffersInv.dropPool (h : BuffersInv r db old) {m : Mode} {i a : Nat}
    {pool : RouterPool σ} (hi : i < old.passes)
    (ha : r.poolMap m (slotIn r.routerNextFlag i) = some a)
    (hcounted : pool.info.Counted pool.servers.length) (hz : pool.info.serverCount = 0)
    (hne : old.partitionService m i ≠ []) :
    BuffersInv (r.dropPool m (slotIn r.routerNextFlag i) a pool) db old where
  flags := h.flags
  slots := h.slots.dropPool ha hcounted hz
  active := h.active.dropPool_other h.slots (fun he => h.flags_ne he.symm)
    (Nat.lt_of_lt_of_le hi (h.inactive.le m)) ha
  inactive := h.inactive.dropPool h.slots hi ha hne
  inUse m' j hj := by
    refine (h.inUse m' j hj).dropPool h.slots ha (slotIn_ne ?_ ?_ ?_)
    · exact Nat.lt_of_lt_of_le hi (h.inactive.le m)
    · exact Nat.lt_of_lt_of_le hj (h.active.le m')
    · exact fun he => absurd he.symm h.flags_ne

/-- A pool of the inactive half changes. -/
theorem BuffersInv.setPool (h : BuffersInv r db old) {a : Nat} {pool pool' : RouterPool σ}
    (hp : r.heap a = some pool) (hup : pool.freed = false) (hidx : pool'.poolIdx = pool.poolIdx)
    (hserv : pool'.servers = pool.servers) (hup' : pool'.freed = false)
    (hcounted : pool'.info.Counted pool'.servers.length)
    (halive : pool'.servers ≠ [] → pool'.info.serverCount ≠ 0)
    (hin : ∀ m i, i < db.passes → r.poolMap m (slotIn r.routerFlag i) = some a →
      pool'.info.Untouched pool'.servers.length) :
    BuffersInv (r.setPool a pool') db old where
  flags := h.flags
  slots := h.slots.setPool hp hup hidx hup' hcounted halive
  active := h.active.setPool hp hserv
  inactive := h.inactive.setPool hp hserv
  inUse m i hi := by
    by_cases ha : r.poolMap m (slotIn r.routerFlag i) = some a
    · exact ⟨a, pool', ha, RouterState.setPool_heap.2 (Or.inl ⟨rfl, rfl⟩), hin m i hi ha⟩
    · exact (h.inUse m i hi).setPool ha

/-- A pool in the inactive half: it changes, or it is gone and counted off. -/
theorem RouterInv.onPool_old (h : RouterInv r db old) {m : Mode} {i a : Nat} {pool : RouterPool σ}
    {res : PoolInfo σ × Calls σ} (hi : i < old.passes)
    (ha : r.poolMap m (slotIn r.routerNextFlag i) = some a) (hp : r.heap a = some pool)
    (hcounted : res.1.Counted pool.servers.length)
    (htold : OwnerTold res.2 ↔ pool.servers ≠ [] ∧ res.1.serverCount = 0) :
    RouterInv (r.onPool a pool res) db old ∧ Shrinks r (r.onPool a pool res)
      ∧ ∀ (P : RouterPool σ → Prop) m' j, j < partitionModKeyNat → (m', j) ≠ (m, i) →
        HoldsIn P r r.routerNextFlag m' j → HoldsIn P (r.onPool a pool res) r.routerNextFlag m' j := by
  have hik : i < partitionModKeyNat := Nat.lt_of_lt_of_le hi (h.inactive.le m)
  obtain ⟨p, hp₀, hup, hidx⟩ := h.slots.held m _ a ha
  rw [hp] at hp₀
  cases hp₀
  by_cases ht : OwnerTold res.2
  · -- the pool is gone
    obtain ⟨hne, hz⟩ := htold.1 ht
    have hserv := h.inactive.servers m i a pool hi ha hp
    have hne' : old.partitionService m i ≠ [] := by
      intro he
      rw [he] at hserv
      exact hne hserv
    have hdrop : BuffersInv (r.dropPool m (slotIn r.routerNextFlag i) a
        { pool with info := res.1 }) db old := h.toBuffersInv.dropPool hi ha hcounted hz hne'
    have hsame : ∀ b, SameSlots (r.dropPool m (slotIn r.routerNextFlag i) a
        { pool with info := res.1 }) { r.dropPool m (slotIn r.routerNextFlag i) a
        { pool with info := res.1 } with routerSwitching := b } :=
      fun b => ⟨rfl, rfl, rfl, rfl⟩
    rw [RouterState.onPool_gone (slotIn_nonneg h.nextFlag i) hidx ht]
    have hshrinks : Shrinks r (r.dropPool m (slotIn r.routerNextFlag i) a
        { pool with info := res.1 }) := Shrinks.dropPool hp rfl rfl
    refine ⟨⟨hdrop.congr (hsame _) rfl rfl, ?_⟩, hshrinks.congr (hsame _) rfl rfl, ?_⟩
    · -- the switch was not over, since the slot was counted
      have hbusy : ¬ r.routerSwitching = false := by
        intro hsw
        have hnone := (h.inactive.num_zero_iff m).1 (h.switching.1 hsw m) i hik
        rw [ha] at hnone
        cases hnone
      rw [Mode.forall_iff]
      show (if _ then false else r.routerSwitching) = false ↔ _
      split
      · rename_i hboth
        exact iff_of_true rfl hboth
      · rename_i hboth
        exact iff_of_false hbusy hboth
    · intro P m' j hj hne hin
      refine HoldsIn.congr (hin.dropPool h.slots ha (slotIn_ne hik hj ?_)) (hsame _)
      exact fun _ => hne
  · rw [RouterState.onPool_kept ht]
    refine ⟨⟨h.toBuffersInv.setPool hp hup rfl rfl hup hcounted ?_ ?_, h.switching⟩,
      Shrinks.setPool hp hup rfl rfl, ?_⟩
    · exact fun hne hz => ht (htold.2 ⟨hne, hz⟩)
    · intro m' j hj hj'
      have hslot := (h.slots.unique ha hj').2
      exact absurd (slotIn_inj hik (Nat.lt_of_lt_of_le hj (h.active.le m')) hslot).1 h.flags_ne
    · intro P m' j hj hne hin
      refine hin.setPool ?_
      intro hj'
      obtain ⟨rfl, hslot⟩ := h.slots.unique hj' ha
      rw [(slotIn_inj hj hik hslot).2] at hne
      exact hne rfl

/-- A pool in use, after an operation that tears nothing down. -/
theorem RouterInv.onPool_inUse (h : RouterInv r db old) {m : Mode} {i a : Nat}
    {pool : RouterPool σ} {res : PoolInfo σ × Calls σ}
    (ha : r.poolMap m (slotIn r.routerFlag i) = some a) (hp : r.heap a = some pool)
    (hun : res.1.Untouched pool.servers.length) (hno : ¬ OwnerTold res.2) :
    RouterInv (r.onPool a pool res) db old ∧ Shrinks r (r.onPool a pool res) := by
  obtain ⟨p, hp₀, hup, -⟩ := h.slots.held m _ a ha
  rw [hp] at hp₀
  cases hp₀
  rw [RouterState.onPool_kept hno]
  refine ⟨⟨h.toBuffersInv.setPool hp hup rfl rfl hup hun.counted ?_ (fun _ _ _ _ => hun),
    h.switching⟩, Shrinks.setPool hp hup rfl rfl⟩
  intro hne hz
  have hlen := hun.count.symm.trans hz
  exact hne (List.length_eq_zero_iff.1 (Int.ofNat_eq_zero.1 hlen))

/-- **An entry into a server**, of whatever pool. -/
theorem RouterInv.onServer (h : RouterInv r db old) {a i : Nat} {op : SrvOp σ}
    {pool : RouterPool σ} (hop : op ≠ .destroy) (hp : r.heap a = some pool)
    (hi : i < pool.servers.length) (hfreed : (pool.info.serverArr i).freed = false) :
    RouterInv (r.onPool a pool
        (pool.info.onServer i (op.code pool.info.conf (pool.info.serverArr i)))) db old
      ∧ Shrinks r (r.onPool a pool
        (pool.info.onServer i (op.code pool.info.conf (pool.info.serverArr i)))) := by
  have hcounted := h.slots.counted a pool hp
  have hup : pool.freed = false := by
    cases hf : pool.freed with
    | false => rfl
    | true =>
        have hpos := hcounted.pos hi hfreed
        have hz := h.slots.gone a pool hp hf
        omega
  obtain ⟨m, k, -, hmap⟩ := h.slots.own a pool hp hup
  obtain ⟨flag, j, hflag, hj, rfl⟩ := h.slots.halves m k (by simp [hmap])
  have hside : flag = r.routerNextFlag ∨ flag = r.routerFlag := by
    obtain ⟨hf, hn⟩ := h.flags
    unfold IsFlag at hf hflag
    omega
  rcases hside with rfl | rfl
  · have hlt : j < old.passes := by
      by_contra hge
      have hnone := h.inactive.rest m j (by omega) hj
      rw [hmap] at hnone
      cases hnone
    obtain ⟨hc, ht⟩ := hcounted.onServer hi hfreed op
    have hne : pool.servers ≠ [] := by
      intro he
      rw [he] at hi
      cases hi
    obtain ⟨h1, h2, -⟩ := h.onPool_old hlt hmap hp hc (ht.trans (and_iff_right hne).symm)
    exact ⟨h1, h2⟩
  · have hlt : j < db.passes := by
      by_contra hge
      have hnone := h.active.rest m j (by omega) hj
      rw [hmap] at hnone
      cases hnone
    obtain ⟨b, p, hb, hpb, hun⟩ := h.inUse m j hlt
    rw [hmap] at hb
    cases hb
    rw [hp] at hpb
    cases hpb
    obtain ⟨hun', hno⟩ := hun.onServer i hop
    exact h.onPool_inUse hmap hp hun' hno

/-! ## §3. `router_destroy`. -/

/-- `pool_destroy` tears down no server of several of this pool. -/
def RouterPool.DestroysSafely (pool : RouterPool σ) : Prop :=
  ∀ k, k < pool.servers.length → ¬ pool.info.FaultsAt pool.servers.length k .destroy

/-- The memory of a pool in use, after `pool_destroy`. -/
theorem RouterPool.Untouched.poolDestroy_mem {pool : RouterPool σ} (h : pool.Untouched)
    (hmem : pool.info.MemInv pool.servers.length) (hsafe : pool.DestroysSafely) :
    (RedisAgent.poolDestroy pool.info).1.MemInv pool.servers.length
      ∧ (RedisAgent.poolDestroy pool.info).1.Intact pool.servers.length := by
  obtain ⟨h1, h2⟩ := hmem.poolDestroy
  refine ⟨h1, h2.2 ⟨hmem.intact_iff.2 (Or.inl h.mem), ?_⟩⟩
  intro k hk
  have hcount := h.count
  exact hsafe k (by omega)

/-- One of the loops of `router_destroy`, over slots that hold pools in use. -/
theorem RouterInv.destroyLoop (m : Mode) {P : RouterPool σ → Prop}
    (hP : ∀ pool, P pool → pool.Untouched) (l : List Nat) :
    ∀ {r : RouterState σ}, RouterInv r db old → l.Nodup →
      (∀ i ∈ l, i < old.passes ∧ HoldsIn P r r.routerNextFlag m i) →
      ∃ r', l.foldl (fun r (i : Nat) => r.poolDestroy
            (r.poolMap m (partitionModKey * r.routerNextFlag + i))) r = r'
        ∧ RouterInv r' db old ∧ Shrinks r r'
        ∧ (∀ m' j, j < partitionModKeyNat → (m' = m → j ∉ l) → HoldsIn P r r.routerNextFlag m' j →
          HoldsIn P r' r.routerNextFlag m' j)
        ∧ ((∀ pool, P pool → pool.DestroysSafely) → HeapIntact r → HeapIntact r') := by
  induction l with
  | nil =>
      intro r h _ _
      exact ⟨r, rfl, h, .refl r, fun _ _ _ _ hin => hin, fun _ hmem => hmem⟩
  | cons i l ih =>
      intro r h hnd hl
      obtain ⟨hil, hnd⟩ := List.nodup_cons.1 hnd
      obtain ⟨hi, a, pool, ha, hp, hpool⟩ := hl i (by simp)
      have hun : pool.info.Untouched pool.servers.length := hP pool hpool
      have hik : i < partitionModKeyNat := Nat.lt_of_lt_of_le hi (h.inactive.le m)
      obtain ⟨hc, ht⟩ := hun.poolDestroy
      have htold : OwnerTold (RedisAgent.poolDestroy pool.info).2
          ↔ pool.servers ≠ [] ∧ (RedisAgent.poolDestroy pool.info).1.serverCount = 0 := by
        rw [ht, ne_eq, List.length_eq_zero_iff]
      obtain ⟨h1, hs1, hin1⟩ := h.onPool_old hi ha hp hc htold
      have hone : r.poolDestroy (r.poolMap m (partitionModKey * r.routerNextFlag + i))
          = r.onPool a pool (RedisAgent.poolDestroy pool.info) := by
        have ha : r.poolMap m (partitionModKey * r.routerNextFlag + i) = some a := ha
        simp only [RouterState.poolDestroy, ha, hp]
      rw [← hs1.next] at hin1
      obtain ⟨r', hr', h', hs', hin', hmem'⟩ := ih h1 hnd (by
        intro j hj
        obtain ⟨hjlt, hjin⟩ := hl j (List.mem_cons_of_mem _ hj)
        refine ⟨hjlt, hin1 P m j (Nat.lt_of_lt_of_le hjlt (h.inactive.le m)) ?_ (hs1.next ▸ hjin)⟩
        rintro ⟨⟩
        exact hil hj)
      refine ⟨r', ?_, h', hs1.trans hs', ?_, ?_⟩
      · rw [List.foldl_cons, hone]
        exact hr'
      · intro m' j hj hjl hjin
        rw [← hs1.next] at hjin ⊢
        refine hin' m' j hj (fun he hjmem => hjl he (List.mem_cons_of_mem _ hjmem))
          (hin1 P m' j hj ?_ hjin)
        rintro ⟨⟩
        exact hjl rfl (by simp)
      · intro hsafe hmem
        refine hmem' hsafe (hmem.onPool ?_)
        exact RouterPool.Untouched.poolDestroy_mem (hP pool hpool) (hmem a pool hp).1
          (hsafe pool hpool)

/-- The count of a half whose slots are all filled. -/
theorem HalfInv.num_holds {flag : Int} {n : Mode → Nat} (h : HalfInv r flag n db) {m : Mode}
    {P : RouterPool σ → Prop} (hin : ∀ i, i < n m → HoldsIn P r flag m i) :
    r.poolNum m flag = n m := by
  have hall : (List.range (n m)).countP (fun i => (r.poolMap m (slotIn flag i)).isSome) = n m := by
    conv => rhs; rw [← List.length_range (n := n m)]
    rw [List.countP_eq_length]
    intro i hi
    obtain ⟨a, -, ha, -⟩ := hin i (List.mem_range.1 hi)
    rw [ha]
    rfl
  rw [h.num m, hall]

/-- **`router_destroy`**, after the switch: all pools of the inactive half are in use. -/
theorem BuffersInv.destroy (h : BuffersInv r db old) (hsw : r.routerSwitching = true)
    {P : RouterPool σ → Prop} (hP : ∀ pool, P pool → pool.Untouched)
    (hin : ∀ m i, i < old.passes → HoldsIn P r r.routerNextFlag m i) :
    RouterInv r.destroy db old ∧ Shrinks r r.destroy
      ∧ ((∀ pool, P pool → pool.DestroysSafely) → HeapIntact r → HeapIntact r.destroy) := by
  have hnum : ∀ m, r.poolNum m r.routerNextFlag = old.passes :=
    fun m => h.inactive.num_holds (hin m)
  unfold RouterState.destroy
  simp only [hnum, and_self]
  by_cases hz : (old.passes : Int) = 0
  · -- there was no pool
    rw [if_pos hz]
    have hsame : SameSlots r { r with routerSwitching := false } := ⟨rfl, rfl, rfl, rfl⟩
    refine ⟨⟨h.congr hsame rfl rfl, ?_⟩, (Shrinks.refl r).congr hsame rfl rfl,
      fun _ hmem => hmem.congr hsame⟩
    exact iff_of_true rfl (fun m => (hnum m).trans hz)
  · rw [if_neg hz]
    have hinv : RouterInv r db old := by
      refine ⟨h, ?_⟩
      rw [hsw]
      exact iff_of_false (fun hx => Bool.false_ne_true hx.symm) (fun hx => hz ((hnum .r).symm.trans (hx .r)))
    have hk : ∀ i, i < old.passes → i < partitionModKeyNat :=
      fun i hi => Nat.lt_of_lt_of_le hi (h.inactive.le .r)
    obtain ⟨r₁, he₁, h₁, hs₁, hin₁, hmem₁⟩ := hinv.destroyLoop .r hP (List.range old.passes)
      List.nodup_range (fun i hi => ⟨List.mem_range.1 hi, hin .r i (List.mem_range.1 hi)⟩)
    obtain ⟨r₂, he₂, h₂, hs₂, -, hmem₂⟩ := h₁.destroyLoop .w hP (List.range old.passes)
      List.nodup_range (by
      intro i hi
      have hlt := List.mem_range.1 hi
      refine ⟨hlt, ?_⟩
      rw [hs₁.next]
      exact hin₁ .w i (hk i hlt) (fun he => by cases he) (hin .w i hlt))
    unfold RouterState.destroyLoop
    rw [Int.toNat_natCast, he₁, he₂]
    exact ⟨h₂, hs₁.trans hs₂, fun hsafe hmem => hmem₂ hsafe (hmem₁ hsafe hmem)⟩

/-! ## §4. `router_build`. -/

/-- Pools were made, and the others are as they were. -/
structure Fills (r r' : RouterState σ) : Prop where
  holds : ∀ (P : RouterPool σ → Prop) flag m i, HoldsIn P r flag m i → HoldsIn P r' flag m i
  intact : HeapIntact r → HeapIntact r'

theorem Fills.refl (r : RouterState σ) : Fills r r := ⟨fun _ _ _ _ hin => hin, fun hmem => hmem⟩

theorem Fills.trans {r' r'' : RouterState σ} (h : Fills r r') (h' : Fills r' r'') : Fills r r'' :=
  ⟨fun P flag m i hin => h'.holds P flag m i (h.holds P flag m i hin),
    fun hmem => h'.intact (h.intact hmem)⟩

theorem Fills.newPool {new : MetaDbInfo} {n : Mode → Nat} (h : FillInv r db new n) (table : Nat)
    {m : Mode} (hi : n m < partitionModKeyNat) : Fills r (r.newPool table new m (n m)) :=
  ⟨fun _ _ _ _ hin => hin.newPool h.slots (h.inactive.rest m (n m) (Nat.le_refl _) hi),
    fun hmem => hmem.newPool m (n m)⟩

/-- A loop of `_shard_build_pool`. -/
theorem FillInv.fill {new : MetaDbInfo} {n : Mode → Nat} (h : FillInv r db new n) (table : Nat)
    {m : Mode} (hm : n m = 0) (k : Nat) :
    k ≤ partitionModKeyNat →
      FillInv ((List.range k).foldl (fun r i => r.newPool table new m i) r) db new
          (Function.update n m k)
        ∧ Fills r ((List.range k).foldl (fun r i => r.newPool table new m i) r) := by
  induction k with
  | zero =>
      intro _
      have hsame : Function.update n m 0 = n := by
        rw [← hm]
        exact Function.update_eq_self m n
      rw [hsame]
      exact ⟨h, .refl r⟩
  | succ k ih =>
      intro hk
      obtain ⟨hprev, hfills⟩ := ih (by omega)
      have hn : Function.update n m k m = k := Function.update_self m k n
      have hlt : Function.update n m k m < partitionModKeyNat := by
        rw [hn]
        omega
      rw [List.range_succ, List.foldl_append]
      have hstep := hprev.newPool table hlt
      have hnext := hfills.trans (.newPool hprev table hlt)
      rw [hn] at hstep hnext
      rw [Function.update_idem] at hstep
      exact ⟨hstep, hnext⟩

/-- Filling leaves the flags alone. -/
theorem RouterState.fill_flags (table : Nat) (db : MetaDbInfo) (m : Mode) (l : List Nat) :
    ∀ r : RouterState σ, (l.foldl (fun r i => r.newPool table db m i) r).routerSwitching
        = r.routerSwitching
      ∧ (l.foldl (fun r i => r.newPool table db m i) r).routerFlag = r.routerFlag := by
  induction l with
  | nil => exact fun r => ⟨rfl, rfl⟩
  | cons i l ih => exact fun r => ih (r.newPool table db m i)

theorem FillInv.shardBuildPool {new : MetaDbInfo} {r' : RouterState σ}
    (h : FillInv r db new (fun _ => 0)) (hle : new.passes ≤ partitionModKeyNat)
    (hb : r.shardBuildPool table new = some r') :
    FillInv r' db new (fun _ => new.passes) ∧ r'.routerSwitching = r.routerSwitching
      ∧ r'.routerFlag = r.routerFlag ∧ Fills r r' := by
  unfold RouterState.shardBuildPool at hb
  split at hb
  · cases hb
    obtain ⟨h₁, hf₁⟩ := h.fill table (m := .r) rfl new.passes hle
    obtain ⟨h₂, hf₂⟩ := h₁.fill table (m := .w) rfl new.passes hle
    refine ⟨?_, ?_, ?_, hf₁.trans hf₂⟩
    · have hall : Function.update (Function.update (fun _ => 0) Mode.r new.passes) Mode.w new.passes
          = fun _ => new.passes := by
        funext m
        cases m <;> rfl
      rw [hall] at h₂
      exact h₂
    · exact (RouterState.fill_flags table new .w _ _).1.trans
        (RouterState.fill_flags table new .r _ _).1
    · exact (RouterState.fill_flags table new .w _ _).2.trans
        (RouterState.fill_flags table new .r _ _).2
  · cases hb

/-- **The switch**: the filled half is in force, and the other is to be destroyed. -/
theorem FillInv.switch {new : MetaDbInfo} (h : FillInv r db new (fun _ => new.passes)) :
    BuffersInv r.switch new db ∧ r.switch.routerNextFlag = r.routerFlag := by
  have hsame : SameSlots r r.switch := ⟨rfl, rfl, rfl, rfl⟩
  have hflag : r.switch.routerFlag = r.routerNextFlag := rfl
  have hnext : r.switch.routerNextFlag = r.routerFlag := by
    obtain ⟨hf, hn⟩ := h.flags
    show (if r.routerNextFlag = 0 then (1 : Int) else 0) = r.routerFlag
    rcases hf with hf | hf
    · rw [if_neg (by omega), hf]
    · rw [if_pos (by omega), hf]
  refine ⟨⟨?_, h.slots.congr hsame, ?_, ?_, ?_⟩, hnext⟩
  · obtain ⟨hf, hn⟩ := h.flags
    rw [hflag, hnext]
    unfold IsFlag at hf ⊢
    omega
  · rw [hflag]
    exact h.inactive.congr hsame
  · rw [hnext]
    exact h.active.congr hsame
  · rw [hflag]
    exact fun m i hi => (h.filled m i hi).congr hsame

/-- When nothing is being switched, the inactive half is free. -/
theorem RouterInv.start_fill (h : RouterInv r db old) (hsw : r.routerSwitching = false)
    (new : MetaDbInfo) (r' : RouterState σ) (hs : SameSlots r r')
    (hflag : r'.routerFlag = r.routerFlag) (hnext : r'.routerNextFlag = r.routerNextFlag) :
    FillInv r' db new (fun _ => 0) := by
  have hb := h.toBuffersInv.congr hs hflag hnext
  have hz : ∀ m i, i < partitionModKeyNat → r'.poolMap m (slotIn r'.routerNextFlag i) = none := by
    intro m
    refine (hb.inactive.num_zero_iff m).1 ?_
    rw [hs.poolNum, hnext]
    exact h.switching.1 hsw m
  refine ⟨hb.flags, hb.slots, hb.active, ⟨fun _ => Nat.zero_le _, fun m i _ hi => hz m i hi, ?_, ?_, ?_⟩,
    hb.inUse, ?_⟩
  · intro m i a pool hi
    exact absurd hi (Nat.not_lt_zero i)
  · intro m
    rw [hs.poolNum, hnext]
    exact h.switching.1 hsw m
  · intro m i hi
    exact absurd hi (Nat.not_lt_zero i)
  · intro m i hi
    exact absurd hi (Nat.not_lt_zero i)

/-- `_shard_init_part` writes `router_map` only. -/
theorem RouterState.shardInitPart_eq {ret : Int} {r' : RouterState σ}
    (h : r.shardInitPart db = some (ret, r')) : ∃ f, r' = { r with routerMap := f } := by
  unfold RouterState.shardInitPart at h
  rw [Option.map_eq_some_iff] at h
  obtain ⟨⟨done, m⟩, -, he⟩ := h
  simp only at he
  refine ⟨Function.update r.routerMap r.routerNextFlag m.routerMap, ?_⟩
  split at he <;> cases he <;> rfl

/-- A `router_build` that succeeds. -/
theorem RouterState.build_cases {r' : RouterState σ} (h : r.build table db = some (0, r')) :
    ∃ mid, r.buildSwitch table db = some (0, mid) ∧ r' = mid.destroy := by
  unfold RouterState.build at h
  rw [Option.map_eq_some_iff] at h
  obtain ⟨⟨ret, mid⟩, hmid, he⟩ := h
  simp only at he
  split at he
  · rename_i hret
    subst hret
    cases he
    exact ⟨mid, hmid, rfl⟩
  · cases he
    rename_i hret
    exact absurd rfl hret

theorem RouterState.buildSwitch_cases {mid : RouterState σ} (h : r.buildSwitch table db = some (0, mid)) :
    ∃ f r₁, ({ r with routerSwitching := true, routerMap := f } : RouterState σ).shardBuildPool table db
      = some r₁ ∧ mid = r₁.switch := by
  unfold RouterState.buildSwitch at h
  simp only at h
  split at h
  · split at h
    · cases h
    · rename_i ret r₀ hinit
      obtain ⟨f, rfl⟩ := RouterState.shardInitPart_eq hinit
      split at h
      · rename_i hret
        cases h
        exact absurd rfl hret
      · rw [Option.map_eq_some_iff] at h
        obtain ⟨r₁, hb, he⟩ := h
        cases he
        exact ⟨f, r₁, hb, rfl⟩
  · cases h

/-- The pools in force can be destroyed. -/
def RouterState.DestroysSafely (r : RouterState σ) : Prop :=
  ∀ m i a pool, i < partitionModKeyNat → r.poolMap m (slotIn r.routerFlag i) = some a →
    r.heap a = some pool → pool.DestroysSafely

/-- Pools of one server at most can be. -/
theorem RouterInv.destroysSafely (h : RouterInv r db old)
    (hone : ∀ m i, i < db.passes → (db.partitionService m i).length ≤ 1) : r.DestroysSafely := by
  intro m i a pool hi ha hp k _
  have hlt : i < db.passes := by
    by_contra hge
    have hnone := h.active.rest m i (by omega) hi
    rw [ha] at hnone
    cases hnone
  obtain ⟨b, p, hb, hpb, hun⟩ := h.inUse m i hlt
  rw [ha] at hb
  cases hb
  rw [hp] at hpb
  cases hpb
  rintro (hfreed | ⟨hmany, -⟩)
  · have hup := (hun.flags k).2
    rw [hfreed] at hup
    cases hup
  · have hle := hone m i hlt
    rw [h.active.servers m i a pool hlt ha hp, List.length_map] at hmany
    omega

/-- **`router_build`**: the old configuration in force is now the replaced one. -/
theorem RouterInv.build (h : RouterInv r db old) (hsw : r.routerSwitching = false)
    {new : MetaDbInfo} (hle : new.passes ≤ partitionModKeyNat) {r' : RouterState σ}
    (hb : r.build table new = some (0, r')) :
    ∃ mid, r.buildSwitch table new = some (0, mid) ∧ BuffersInv mid new db ∧ RouterInv r' new db
      ∧ Shrinks mid r' ∧ (r.DestroysSafely → HeapIntact r → HeapIntact r') := by
  obtain ⟨mid, hmid, rfl⟩ := RouterState.build_cases hb
  obtain ⟨f, r₁, hr₁, rfl⟩ := RouterState.buildSwitch_cases hmid
  have hsame : SameSlots r { r with routerSwitching := true, routerMap := f } := ⟨rfl, rfl, rfl, rfl⟩
  have hfill := h.start_fill hsw new { r with routerSwitching := true, routerMap := f }
    hsame rfl rfl
  obtain ⟨hfull, hsw₁, hflag₁, hfills⟩ := hfill.shardBuildPool hle hr₁
  obtain ⟨hbuf, hnext⟩ := hfull.switch
  have hswitch : SameSlots r₁ r₁.switch := ⟨rfl, rfl, rfl, rfl⟩
  -- a pool that was in force is to be destroyed as it was
  have hin : ∀ {P : RouterPool σ → Prop}, (∀ m i, i < db.passes → HoldsIn P r r.routerFlag m i) →
      ∀ m i, i < db.passes → HoldsIn P r₁.switch r₁.switch.routerNextFlag m i := by
    intro P hP m i hi
    rw [hnext, hflag₁]
    exact (hfills.holds P _ m i ((hP m i hi).congr hsame)).congr hswitch
  obtain ⟨hinv, hs, -⟩ := hbuf.destroy hsw₁ (fun _ hun => hun) (hin h.inUse)
  refine ⟨_, hmid, hbuf, hinv, hs, ?_⟩
  intro hsafe hmem
  have hboth : ∀ m i, i < db.passes →
      HoldsIn (fun pool => pool.Untouched ∧ pool.DestroysSafely) r r.routerFlag m i := by
    intro m i hi
    obtain ⟨a, pool, ha, hp, hun⟩ := h.inUse m i hi
    exact ⟨a, pool, ha, hp, hun, hsafe m i a pool (Nat.lt_of_lt_of_le hi (h.active.le m)) ha hp⟩
  obtain ⟨-, -, hkeeps⟩ := hbuf.destroy hsw₁ (fun _ hpool => hpool.1) (hin hboth)
  exact hkeeps (fun _ hpool => hpool.2) ((hfills.intact (hmem.congr hsame)).congr hswitch)

/-- The memory of the pools, after an entry into a server. -/
theorem HeapIntact.onServer (h : HeapIntact r) {a i : Nat} {op : SrvOp σ} {pool : RouterPool σ}
    (hp : r.heap a = some pool) (hi : i < pool.servers.length)
    (hsafe : ¬ pool.info.FaultsAt pool.servers.length i op) :
    HeapIntact (r.onPool a pool
      (pool.info.onServer i (op.code pool.info.conf (pool.info.serverArr i)))) := by
  obtain ⟨hmem, hin⟩ := h a pool hp
  have hfrees := SrvOp.code_frees pool.info.conf (pool.info.serverArr i) op
  refine h.onPool ⟨hmem.onServer hfrees, ?_⟩
  rw [hmem.onServer_intact hi hfrees, SrvOp.torn_iff]
  exact ⟨hin, hsafe⟩

end RedisAgent
