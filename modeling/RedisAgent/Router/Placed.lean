/-
  RedisAgent.Router.Placed — which servers stand behind which slot.

  `_shard_build_pool` puts a pool of the services of partition `j` into slot `j` of the
  half it fills, and nothing that happens to a pool afterwards changes its servers: they
  are torn down, those that wait at them are served, and at the end the slot is cleared
  (`Drains`).  So the pools a request finds are those of the configuration in force
  (`ServesBy`), and whoever waits at a server has asked for it there (`HeapInv`).

  Main results:
    • `Drains.onPool`, `Drains.destroy` — what pool events and `router_destroy` leave;
    • `HeapInv.build`, `ServesBy.build` — `router_build` with an accepted table;
    • `RouterState.build_kept` — and with a refused one.
-/
import RedisAgent.Pool.Served
import RedisAgent.Router.ShardMap

namespace RedisAgent

variable {σ : Type*} {r r' r'' : RouterState σ} {table : Nat} {db : MetaDbInfo}

/-! ## §1. What pool events leave of the router. -/

/-- What is left of a pool: its servers and settings are the same, at most as many servers
are there, and who waits at server `i` did so before or is `new`. -/
structure PoolRest (new : Nat → σ → Prop) (p p' : RouterPool σ) : Prop where
  servers : p'.servers = p.servers
  machineRoom : p'.machineRoom = p.machineRoom
  cTimeOutMs : p'.cTimeOutMs = p.cTimeOutMs
  longConnect : p'.longConnect = p.longConnect
  conf : p'.info.conf = p.info.conf
  count : p'.info.serverCount ≤ p.info.serverCount
  waits : ∀ i wq sub, (p'.info.serverArr i).waitSub wq = some sub →
    (p.info.serverArr i).waitSub wq = some sub ∨ new i sub

/-- Pools changed and slots were cleared, nothing else; `new a i sub` says that `sub` asks
server `i` of the pool at `a`. -/
structure Drains (new : Nat → Nat → σ → Prop) (r r' : RouterState σ) : Prop where
  map : SameMap r r'
  brk : r'.brk = r.brk
  slot : ∀ m k a, r'.poolMap m k = some a → r.poolMap m k = some a
  pool : ∀ a p', r'.heap a = some p' → ∃ p, r.heap a = some p ∧ PoolRest (new a) p p'

variable {new : Nat → Nat → σ → Prop}

theorem PoolRest.refl (new : Nat → σ → Prop) (p : RouterPool σ) : PoolRest new p p :=
  ⟨rfl, rfl, rfl, rfl, rfl, Int.le_refl _, fun _ _ _ h => Or.inl h⟩

theorem PoolRest.trans {new : Nat → σ → Prop} {p p' p'' : RouterPool σ} (h : PoolRest new p p')
    (h' : PoolRest new p' p'') : PoolRest new p p'' := by
  refine ⟨h'.servers.trans h.servers, h'.machineRoom.trans h.machineRoom,
    h'.cTimeOutMs.trans h.cTimeOutMs, h'.longConnect.trans h.longConnect, h'.conf.trans h.conf,
    Int.le_trans h'.count h.count, ?_⟩
  intro i wq sub hsub
  rcases h'.waits i wq sub hsub with hold | hnew
  · exact h.waits i wq sub hold
  · exact Or.inr hnew

theorem Drains.refl (new : Nat → Nat → σ → Prop) (r : RouterState σ) : Drains new r r :=
  ⟨⟨rfl, rfl, rfl⟩, rfl, fun _ _ _ h => h, fun a p h => ⟨p, h, .refl (new a) p⟩⟩

theorem Drains.trans (h : Drains new r r') (h' : Drains new r' r'') : Drains new r r'' := by
  refine ⟨h.map.trans h'.map, h'.brk.trans h.brk, ?_, ?_⟩
  · intro m k a hk
    exact h.slot m k a (h'.slot m k a hk)
  · intro a p'' hp''
    obtain ⟨p', hp', hrest'⟩ := h'.pool a p'' hp''
    obtain ⟨p, hp, hrest⟩ := h.pool a p' hp'
    exact ⟨p, hp, hrest.trans hrest'⟩

/-- The pool at `a` is stored back. -/
theorem Drains.store {a : Nat} {p p' : RouterPool σ} (ha : r.heap a = some p)
    (hrest : PoolRest (new a) p p') :
    Drains new r { r with heap := Function.update r.heap a (some p') } := by
  refine ⟨⟨rfl, rfl, rfl⟩, rfl, fun _ _ _ h => h, ?_⟩
  intro b q hq
  by_cases hb : b = a
  · subst hb
    have he : some p' = some q := (Function.update_self b (some p') r.heap).symm.trans hq
    cases he
    exact ⟨p, ha, hrest⟩
  · have hold : r.heap b = some q := (Function.update_of_ne hb (some p') r.heap).symm.trans hq
    exact ⟨q, hold, .refl (new b) q⟩

/-- `_router_on_destroy` clears a slot and frees its pool. -/
theorem Drains.onDestroy {a : Nat} {p : RouterPool σ} (ha : r.heap a = some p) :
    Drains new r (r.onDestroy a p) := by
  have hstore : Drains new r { r with heap := Function.update r.heap a (some { p with freed := true }) } :=
    .store ha ⟨rfl, rfl, rfl, rfl, rfl, Int.le_refl _, fun _ _ _ h => Or.inl h⟩
  have hslot : ∀ m k b, (r.onDestroy a p).poolMap m k = some b → r.poolMap m k = some b := by
    intro m k b hk
    have hk : Function.update r.poolMap (slotOf p.poolIdx).1
        (Function.update (r.poolMap (slotOf p.poolIdx).1) (slotOf p.poolIdx).2 none) m k = some b := by
      unfold RouterState.onDestroy at hk
      simp only at hk
      split at hk <;> exact hk
    rw [update_slot] at hk
    split at hk
    · cases hk
    · exact hk
  refine ⟨SameMap.onDestroy r a p, ?_, hslot, ?_⟩
  · unfold RouterState.onDestroy
    simp only
    split <;> rfl
  · have hheap : (r.onDestroy a p).heap
        = Function.update r.heap a (some { p with freed := true }) := by
      unfold RouterState.onDestroy
      simp only
      split <;> rfl
    rw [hheap]
    exact hstore.pool

/-- **An entry into the pool at `a`.** -/
theorem Drains.onPool {a : Nat} {p : RouterPool σ} {res : PoolInfo σ × Calls σ}
    (ha : r.heap a = some p) (h : PoolServes (new a) p.info res) :
    Drains new r (r.onPool a p res) := by
  have hstore : Drains new r { r with heap := Function.update r.heap a (some { p with info := res.1 }) } :=
    .store ha ⟨rfl, rfl, rfl, rfl, h.conf, h.count, h.waits⟩
  unfold RouterState.onPool
  simp only
  split
  · refine hstore.trans (.onDestroy ?_)
    exact Function.update_self _ _ _
  · exact hstore

/-- `pool_destroy` serves nobody. -/
theorem Drains.poolDestroy (r : RouterState σ) (p : Option Nat) :
    Drains new r (r.poolDestroy p) := by
  unfold RouterState.poolDestroy
  cases p with
  | none => exact .refl new r
  | some a =>
      simp only
      cases ha : r.heap a with
      | none => exact .refl new r
      | some pool =>
          have h := poolDestroy_serves pool.info
          exact .onPool ha ⟨h.conf, h.count, fun i wq sub hsub => (h.waits i wq sub hsub).imp_right
            False.elim, fun i hd sub hmem => (h.calls i hd sub hmem).imp_right False.elim⟩

/-- A loop whose passes drain drains. -/
theorem Drains.foldl {f : RouterState σ → Nat → RouterState σ} (hf : ∀ r i, Drains new r (f r i))
    (l : List Nat) : ∀ r, Drains new r (l.foldl f r) := by
  induction l with
  | nil => exact fun r => .refl new r
  | cons i l ih => exact fun r => (hf r i).trans (ih (f r i))

/-- **`router_destroy`.** -/
theorem Drains.destroy (r : RouterState σ) : Drains new r r.destroy := by
  have hloop : ∀ (m : Mode) (n : Nat) (r : RouterState σ), Drains new r (r.destroyLoop m n) :=
    fun m n r => Drains.foldl (fun r i => Drains.poolDestroy r _) _ r
  unfold RouterState.destroy
  simp only
  split
  · exact ⟨⟨rfl, rfl, rfl⟩, rfl, fun _ _ _ h => h, fun a p h => ⟨p, h, .refl (new a) p⟩⟩
  · exact (hloop .r _ r).trans (hloop .w _ _)

/-! ## §2. The pools and those that wait. -/

/-- Every pool is one that was made, with no more servers than it was built with, and
whoever waits at one of its servers has `asked` for it. -/
structure HeapInv (asked : Nat → Nat → σ → Prop) (r : RouterState σ) : Prop where
  heap : ∀ a p, r.heap a = some p → a < r.brk
  slots : ∀ m k a, r.poolMap m k = some a → a < r.brk
  count : ∀ a p, r.heap a = some p → p.info.serverCount ≤ p.servers.length
  waits : ∀ a p, r.heap a = some p → ∀ i wq sub,
    (p.info.serverArr i).waitSub wq = some sub → asked a i sub

variable {asked : Nat → Nat → σ → Prop}

theorem HeapInv.mono {asked' : Nat → Nat → σ → Prop} (h : HeapInv asked r)
    (himp : ∀ a i sub, asked a i sub → asked' a i sub) : HeapInv asked' r :=
  ⟨h.heap, h.slots, h.count, fun a p hp i wq sub hsub => himp a i sub (h.waits a p hp i wq sub hsub)⟩

/-- Who asks is recorded. -/
theorem HeapInv.drains (h : HeapInv asked r) (hd : Drains new r r')
    (hnew : ∀ a i sub, new a i sub → asked a i sub) : HeapInv asked r' := by
  refine ⟨?_, ?_, ?_, ?_⟩
  · intro a p' hp'
    obtain ⟨p, hp, -⟩ := hd.pool a p' hp'
    rw [hd.brk]
    exact h.heap a p hp
  · intro m k a hk
    rw [hd.brk]
    exact h.slots m k a (hd.slot m k a hk)
  · intro a p' hp'
    obtain ⟨p, hp, hrest⟩ := hd.pool a p' hp'
    rw [hrest.servers]
    exact Int.le_trans hrest.count (h.count a p hp)
  · intro a p' hp' i wq sub hsub
    obtain ⟨p, hp, hrest⟩ := hd.pool a p' hp'
    rcases hrest.waits i wq sub hsub with hold | hasks
    · exact h.waits a p hp i wq sub hold
    · exact hnew a i sub hasks

/-- The map and the flags are not looked at. -/
theorem HeapInv.congr (h : HeapInv asked r) (hs : SameSlots r r') : HeapInv asked r' := by
  refine ⟨?_, ?_, ?_, ?_⟩
  · rw [hs.heap, hs.brk]
    exact h.heap
  · rw [hs.poolMap, hs.brk]
    exact h.slots
  · rw [hs.heap]
    exact h.count
  · rw [hs.heap]
    exact h.waits

/-- A new pool has its servers, and nobody waits. -/
theorem HeapInv.newPool (h : HeapInv asked r) (m : Mode) (i : Nat) :
    HeapInv asked (r.newPool table db m i) := by
  have hbrk : (r.newPool table db m i).brk = r.brk + 1 := rfl
  refine ⟨?_, ?_, ?_, ?_⟩
  · intro a p hp
    rw [hbrk]
    rcases RouterState.newPool_heap.1 hp with ⟨ha, -⟩ | ⟨-, hp⟩
    · omega
    · have hlt := h.heap a p hp
      omega
  · intro m' k a hk
    rw [r.newPool_poolMap] at hk
    rw [hbrk]
    split at hk
    · cases hk
      omega
    · have hlt := h.slots m' k a hk
      omega
  · intro a p hp
    rcases RouterState.newPool_heap.1 hp with ⟨-, rfl⟩ | ⟨-, hp⟩
    · exact Int.le_refl _
    · exact h.count a p hp
  · intro a p hp k wq sub hsub
    rcases RouterState.newPool_heap.1 hp with ⟨-, rfl⟩ | ⟨-, hp⟩
    · obtain ⟨nodes, ends, hbuild, -⟩ := serverBuild_spec (σ := σ) db.connectPerService.toInt32.toInt
      have hnone : (serverBuild db.connectPerService.toInt32.toInt : ServerInfo σ).waitSub wq
        = some sub := hsub
      rw [hbuild] at hnone
      cases hnone
    · exact h.waits a p hp k wq sub hsub

/-- Whatever pool stands at an address has the servers of the one that stood there. -/
structure KeepsServers (r r' : RouterState σ) : Prop where
  brk : r.brk ≤ r'.brk
  servers : ∀ a < r.brk, ∀ p', r'.heap a = some p' → ∃ p, r.heap a = some p ∧ p'.servers = p.servers

theorem KeepsServers.refl (r : RouterState σ) : KeepsServers r r :=
  ⟨Nat.le_refl _, fun _ _ p h => ⟨p, h, rfl⟩⟩

theorem KeepsServers.trans (h : KeepsServers r r') (h' : KeepsServers r' r'') :
    KeepsServers r r'' := by
  refine ⟨Nat.le_trans h.brk h'.brk, ?_⟩
  intro a ha p'' hp''
  obtain ⟨p', hp', hs'⟩ := h'.servers a (Nat.lt_of_lt_of_le ha h.brk) p'' hp''
  obtain ⟨p, hp, hs⟩ := h.servers a ha p' hp'
  exact ⟨p, hp, hs'.trans hs⟩

theorem Drains.keepsServers (h : Drains new r r') : KeepsServers r r' := by
  refine ⟨Nat.le_of_eq h.brk.symm, ?_⟩
  intro a _ p' hp'
  obtain ⟨p, hp, hrest⟩ := h.pool a p' hp'
  exact ⟨p, hp, hrest.servers⟩

/-- A new pool gets an address of its own. -/
theorem KeepsServers.newPool (r : RouterState σ) (db : MetaDbInfo) (m : Mode) (i : Nat) :
    KeepsServers r (r.newPool table db m i) := by
  refine ⟨Nat.le_succ _, ?_⟩
  intro a ha p' hp'
  rcases RouterState.newPool_heap.1 hp' with ⟨hbrk, -⟩ | ⟨-, hp⟩
  · omega
  · exact ⟨p', hp, rfl⟩

/-! ## §3. The pools of a half. -/

/-- The pool has the services of partition `j`, the settings of the configuration, and
looks its machine room up in the table it was built from. -/
structure RouterPool.BuiltFrom (p : RouterPool σ) (table : Nat) (db : MetaDbInfo) (m : Mode)
    (j : Nat) : Prop where
  servers : p.servers = (db.partitionService m j).map poolServiceConf
  machineRoom : p.machineRoom = table
  cTimeOutMs : p.cTimeOutMs = db.timeout.toInt32.toInt
  longConnect : p.longConnect = db.longConnect
  conf : p.info.conf
    = buildConf db.connectPerService.toInt32.toInt db.getConnectRetry.toInt32.toInt

/-- What happens to a pool does not change what it was built from. -/
theorem RouterPool.BuiltFrom.rest {new : Nat → σ → Prop} {p p' : RouterPool σ} {m : Mode} {j : Nat}
    (h : p.BuiltFrom table db m j) (hrest : PoolRest new p p') : p'.BuiltFrom table db m j :=
  ⟨hrest.servers.trans h.servers, hrest.machineRoom.trans h.machineRoom,
    hrest.cTimeOutMs.trans h.cTimeOutMs, hrest.longConnect.trans h.longConnect,
    hrest.conf.trans h.conf⟩

/-- The pools in the first `n` slots of the half of `flag` are those of the partitions. -/
def Placed (r : RouterState σ) (flag : Int) (table : Nat) (db : MetaDbInfo) (m : Mode) (n : Nat) :
    Prop :=
  ∀ j < n, ∀ a p, r.poolMap m (slotIn flag j) = some a → r.heap a = some p →
    p.BuiltFrom table db m j

theorem Placed.drains {flag : Int} {m : Mode} {n : Nat} (h : Placed r flag table db m n)
    (hd : Drains new r r') : Placed r' flag table db m n := by
  intro j hj a p' ha hp'
  obtain ⟨p, hp, hrest⟩ := hd.pool a p' hp'
  exact (h j hj a p (hd.slot m _ a ha) hp).rest hrest

theorem Placed.congr {flag : Int} {m : Mode} {n : Nat} (h : Placed r flag table db m n)
    (hs : SameSlots r r') : Placed r' flag table db m n := by
  unfold Placed
  rw [hs.poolMap, hs.heap]
  exact h

/-- A pool is made for another slot. -/
theorem Placed.newPool {flag : Int} {m m' : Mode} {n i : Nat} (h : Placed r flag table db m n)
    (hheap : HeapInv asked r) (hother : ∀ j < n, m = m' → slotIn flag j ≠ slotIn r.routerNextFlag i) :
    Placed (r.newPool table db m' i) flag table db m n := by
  intro j hj a p ha hp
  rw [r.newPool_poolMap, if_neg (fun hx => hother j hj hx.1 hx.2)] at ha
  have hlt := hheap.slots m _ a ha
  rcases RouterState.newPool_heap.1 hp with ⟨hbrk, -⟩ | ⟨-, hp⟩
  · omega
  · exact h j hj a p ha hp

/-- **A loop of `_shard_build_pool`**: the slots it fills, and those of the other mode. -/
theorem Placed.fill (table : Nat) (db : MetaDbInfo) (hheap : HeapInv asked r) (m : Mode) (n : Nat) :
    ∃ r', (List.range n).foldl (fun r i => r.newPool table db m i) r = r'
      ∧ r'.routerNextFlag = r.routerNextFlag ∧ HeapInv asked r' ∧ KeepsServers r r'
      ∧ Placed r' r.routerNextFlag table db m n
      ∧ ∀ m' k, m' ≠ m → Placed r r.routerNextFlag table db m' k →
        Placed r' r.routerNextFlag table db m' k := by
  induction n with
  | zero =>
      exact ⟨r, rfl, rfl, hheap, .refl r, fun j hj => absurd hj (Nat.not_lt_zero j), fun _ _ _ h => h⟩
  | succ n ih =>
      obtain ⟨r₁, hr₁, hnext, hheap₁, hkeeps, hown, hrest⟩ := ih
      refine ⟨r₁.newPool table db m n, ?_, hnext, hheap₁.newPool m n,
        hkeeps.trans (.newPool r₁ db m n), ?_, ?_⟩
      · rw [List.range_succ, List.foldl_append, hr₁]
        rfl
      · intro j hj a p ha hp
        by_cases hjn : j = n
        · -- the slot just filled
          subst hjn
          rw [r₁.newPool_poolMap, hnext, if_pos ⟨rfl, rfl⟩] at ha
          cases ha
          rcases RouterState.newPool_heap.1 hp with ⟨-, rfl⟩ | ⟨hne, -⟩
          · exact ⟨rfl, rfl, rfl, rfl, rfl⟩
          · exact absurd rfl hne
        · refine (hown.newPool hheap₁ ?_) j (by omega) a p ha hp
          intro i hi _ he
          rw [hnext] at he
          unfold slotIn at he
          omega
      · intro m' k hm hk
        exact (hrest m' k hm hk).newPool hheap₁ (fun _ _ he => absurd he hm)

/-! ## §4. `router_build`. -/

/-- **The configuration in force**: a key goes to its partition, and the partition's slot
holds its services. -/
structure ServesBy (r : RouterState σ) (table : Nat) (db : MetaDbInfo) : Prop where
  routes : RoutesBy r db
  placed : ∀ m, Placed r r.routerFlag table db m db.partitionNum.toNat

theorem ServesBy.drains (h : ServesBy r table db) (hd : Drains new r r') : ServesBy r' table db := by
  refine ⟨hd.map.routesBy h.routes, ?_⟩
  intro m
  rw [hd.map.flag]
  exact (h.placed m).drains hd

/-- The two flags after the switch. -/
theorem RouterState.switch_flags (r : RouterState σ) :
    r.switch.routerFlag ≠ r.switch.routerNextFlag := by
  show r.routerNextFlag ≠ if r.routerNextFlag = 0 then (1 : Int) else 0
  split <;> omega

/-- **An accepted table.** -/
theorem ServesBy.build {out : RouterState σ} (hheap : HeapInv asked r)
    (h : r.build table db = some (0, out)) :
    ServesBy out table db ∧ HeapInv asked out ∧ KeepsServers r out
      ∧ out.routerFlag ≠ out.routerNextFlag := by
  have hpasses := MetaDbInfo.passes_of_small (MetaDbInfo.Covers.of_build h).small
  have hroutes := RoutesBy.build h
  obtain ⟨mid, hmid, rfl⟩ := RouterState.build_cases h
  obtain ⟨f, r₁, hbuild, rfl⟩ := RouterState.buildSwitch_cases hmid
  unfold RouterState.shardBuildPool at hbuild
  split at hbuild
  · have hstart : HeapInv asked { r with routerSwitching := true, routerMap := f } :=
      hheap.congr ⟨rfl, rfl, rfl, rfl⟩
    obtain ⟨r₂, hr₂, hnext₂, hheap₂, hkeeps₂, hread, -⟩ := Placed.fill table db hstart .r db.passes
    obtain ⟨r₃, hr₃, hnext₃, hheap₃, hkeeps₃, hwrite, hkeep⟩ := Placed.fill table db hheap₂ .w db.passes
    simp only [hr₂, hr₃] at hbuild
    obtain rfl := Option.some_inj.1 hbuild
    rw [hnext₂] at hwrite hkeep
    have hdrains : Drains (fun _ _ _ => False) r₃.switch r₃.switch.destroy := .destroy r₃.switch
    have hsame : SameSlots r₃ r₃.switch := ⟨rfl, rfl, rfl, rfl⟩
    have hflag : r₃.switch.routerFlag = r.routerNextFlag := hnext₃.trans hnext₂
    have hall : KeepsServers r r₃.switch := ⟨(hkeeps₂.trans hkeeps₃).brk, (hkeeps₂.trans hkeeps₃).servers⟩
    refine ⟨⟨hroutes, ?_⟩, (hheap₃.congr hsame).drains hdrains (fun _ _ _ => False.elim),
      hall.trans hdrains.keepsServers, ?_⟩
    · intro m
      rw [hdrains.map.flag, hflag, ← hpasses]
      refine Placed.drains (Placed.congr ?_ hsame) hdrains
      cases m with
      | r => exact hkeep .r db.passes (fun he => by cases he) hread
      | w => exact hwrite
    · rw [hdrains.map.flag, hdrains.map.nextFlag]
      exact r₃.switch_flags
  · cases hbuild

/-- **A refused table** leaves the pools and the half in force. -/
theorem RouterState.build_kept {ret : Int} {out : RouterState σ} (h : r.build table db = some (ret, out))
    (hret : ret ≠ 0) : ∃ sw f, out = { r with
      routerSwitching := sw
      routerMap := Function.update r.routerMap r.routerNextFlag f } := by
  unfold RouterState.build RouterState.buildSwitch RouterState.shardInitPart at h
  obtain ⟨⟨ret', mid⟩, hmid, he⟩ := Option.map_eq_some_iff.1 h
  by_cases hzero : ret' = 0
  · -- a table that is accepted is not refused
    simp only [if_pos hzero] at he
    cases he
    exact absurd rfl hret
  · simp only [if_neg hzero] at he
    cases he
    by_cases hmode : db.shardMode = 0
    · simp only [if_pos hmode] at hmid
      cases hparts : shardInitParts db (List.range db.passes) ⟨fun _ => 0, fun _ => false⟩ with
      | none =>
          rw [hparts] at hmid
          cases hmid
      | some res =>
          obtain ⟨done, m⟩ := res
          simp only [hparts, Option.map_some] at hmid
          by_cases hok : (done && (List.range partitionModKeyNat).all m.partitionCheck) = true
          · simp only [if_pos hok, ne_eq, not_true_eq_false, if_false] at hmid
            obtain ⟨r₂, -, hr₂⟩ := Option.map_eq_some_iff.1 hmid
            cases hr₂
            exact absurd rfl hzero
          · simp only [if_neg hok] at hmid
            cases hmid
            exact ⟨false, m.routerMap, rfl⟩
    · simp only [if_neg hmode] at hmid
      cases hmid
      refine ⟨true, r.routerMap r.routerNextFlag, ?_⟩
      rw [Function.update_eq_self]

theorem ServesBy.refused {ret : Int} {out : RouterState σ} {table' : Nat} {new : MetaDbInfo}
    (h : ServesBy r table db) (hflags : r.routerFlag ≠ r.routerNextFlag)
    (hb : r.build table' new = some (ret, out)) (hret : ret ≠ 0) : ServesBy out table db := by
  obtain ⟨sw, f, rfl⟩ := RouterState.build_kept hb hret
  refine ⟨?_, h.placed⟩
  intro key
  obtain ⟨i, hi, honly, hkey⟩ := h.routes key
  exact ⟨i, hi, honly, (RouterState.shardKeyOf_other hflags f key).trans hkey⟩

end RedisAgent
