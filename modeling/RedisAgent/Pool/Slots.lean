/-
  RedisAgent.Pool.Slots — how long the slots and the counters of a server can be
  relied on.

  `Pool.Ownership` says what the fields of a server hold; whether these fields are
  still the pool's memory is a question of its own.  Tearing down one server of a
  pool that has several gives back the memory of all of them, so from there on the
  slots of the others are in no place at all.

  Main results, for every run of a pool and a server not torn down:
    • `pool_slot_ownership` — its slots are in allocated memory, each in exactly one
      of the five places, if and only if no step so far went wrong in the sense of
      `PoolState.Faults`;
    • `pool_counters_agree_iff` — so do its counters agree with its queues, if
      besides no `m_destroyCb` of the server was answered yet.
-/
import RedisAgent.Pool.Array

namespace RedisAgent

open Links

variable {σ : Type*}

/-- **Slot ownership.**  Up to its tear-down, a server of a pool keeps every slot in
exactly one place, in memory the pool has, as long as no server of a pool of two
or more was torn down, and no longer. -/
theorem pool_slot_ownership {serverCount : Nat} {c retry : Int}
    {tr : List (PoolState σ × PoolOp σ)} {p : PoolState σ}
    (h : (poolLts σ serverCount c retry).Run tr p) {i : Nat} (hi : i < serverCount)
    (hup : (p.pool.serverArr i).freed = false) :
    (p.pool.mem = .allocated ∧ ∃ U F, SlotOwnership c.toNat (p.srv i) U F)
      ↔ ∀ q ∈ tr, ¬ q.1.Faults q.2 := by
  rw [← PoolState.allocated_iff (PoolState.run_env h) hi hup]
  exact and_iff_left (PoolState.slotOwnership h i)

theorem pool_slot_ownership_witness :
    ((oneSlotPool errorReleaseOps).pool.mem = .allocated
        ∧ ∃ U F, SlotOwnership 1 ((oneSlotPool errorReleaseOps).srv 0) U F)
      ↔ ∀ q ∈ Lts.traceAll PoolState.exec (PoolState.start 1 1 0) errorReleaseOps,
        ¬ q.1.Faults q.2 :=
  pool_slot_ownership (PoolState.run_of_allEnabled errorReleaseOps_enabled) (by decide) rfl

/-- A pool of two servers with one slot each: the second makes a connection, and
`pool_destroy` comes before the answer. -/
def secondBusyOps : List (PoolOp Nat) := [.server 1 .monitor, .destroy]

theorem secondBusyOps_enabled :
    (PoolState.start 2 1 0 : PoolState Nat).AllEnabled secondBusyOps := by
  refine ⟨⟨trivial, ⟨by decide, rfl⟩, rfl⟩, ⟨rfl, ?_⟩, trivial⟩
  intro i hi
  have hi2 : i < 2 := hi
  have hcases : i = 0 ∨ i = 1 := by omega
  rcases hcases with rfl | rfl
  · exact ⟨⟨by decide, rfl⟩, rfl⟩
  · exact ⟨⟨by decide, rfl⟩, rfl⟩

/-- **The first tear-down takes the other server along**, whose creation is still
to be answered. -/
theorem pool_slots_gone :
    ¬ ∀ (tr : List (PoolState Nat × PoolOp Nat)) (p : PoolState Nat) (i : Nat),
      (poolLts Nat 2 1 0).Run tr p → i < 2 → (p.pool.serverArr i).freed = false →
        p.pool.mem = .allocated ∧ ∃ U F, SlotOwnership 1 (p.srv i) U F := by
  intro hall
  obtain ⟨hmem, -⟩ :=
    hall _ _ 1 (PoolState.run_of_allEnabled secondBusyOps_enabled) (by decide) rfl
  have hgone : ArrayMem.fault = .allocated := hmem
  cases hgone

/-- **When the counters agree.**  Up to its tear-down, the counters of a server are
there and are the lengths of its queues if and only if no server of a pool of two
or more was torn down, and no `m_destroyCb` of this server was answered. -/
theorem pool_counters_agree_iff {serverCount : Nat} {c retry : Int}
    {tr : List (PoolState σ × PoolOp σ)} {p : PoolState σ}
    (h : (poolLts σ serverCount c retry).Run tr p) {i : Nat} (hi : i < serverCount)
    (hup : (p.pool.serverArr i).freed = false) :
    (p.pool.mem = .allocated ∧ (p.pool.serverArr i).CountersAgree)
      ↔ ∀ q ∈ tr, ¬ q.1.Faults q.2 ∧ ¬ AnswersDestroyCb i q := by
  rw [PoolState.allocated_iff (PoolState.run_env h) hi hup, PoolState.countersAgree_iff h i]
  exact forall₂_and.symm

/-- With the slot unconnected again and nothing free, the counter stands at -1. -/
theorem pool_counters_disagree :
    ¬ ∀ (tr : List (PoolState Nat × PoolOp Nat)) (p : PoolState Nat) (i : Nat),
      (poolLts Nat 1 1 0).Run tr p → i < 1 → (p.pool.serverArr i).freed = false →
        p.pool.mem = .allocated ∧ (p.pool.serverArr i).CountersAgree := by
  intro hall
  obtain ⟨-, U, F, W, -, -, -, -, hfree, -⟩ :=
    hall _ _ 0 (PoolState.run_of_allEnabled errorReleaseOps_enabled) (by decide) rfl
  have hneg : (-1 : Int) = F.length := hfree
  omega

/-- The first two entries answer no `m_destroyCb` and tear nothing down. -/
theorem pool_counters_agree_iff_witness :
    ((oneSlotPool (errorReleaseOps.take 2)).pool.mem = .allocated
        ∧ ((oneSlotPool (errorReleaseOps.take 2)).pool.serverArr 0).CountersAgree)
      ↔ ∀ q ∈ Lts.traceAll PoolState.exec (PoolState.start 1 1 0 : PoolState Nat)
          (errorReleaseOps.take 2), ¬ q.1.Faults q.2 ∧ ¬ AnswersDestroyCb 0 q := by
  have hen : (PoolState.start 1 1 0 : PoolState Nat).AllEnabled (errorReleaseOps.take 2) :=
    ⟨⟨trivial, ⟨by decide, rfl⟩, rfl⟩, ⟨trivial, ⟨by decide, rfl⟩, rfl⟩, trivial⟩
  exact pool_counters_agree_iff (PoolState.run_of_allEnabled hen) (by decide) rfl

end RedisAgent
