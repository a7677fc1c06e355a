/-
  RedisAgent.Pool.Invariant — the invariant of one server, and what every
  operation does to it.

  `SrvInv N d x t g U F W` says: the pointers of `t` spell the unconnected slots
  `U`, the free connections `F` and the waiting nodes `W`; every slot stands
  where the plugin and the callers think it does; and the counters count.  Two
  parameters make one invariant serve every intermediate state:

    • `x` is the slot the code has in hand (taken from one queue, not yet in
      the next), about which `slot` says nothing;
    • `d` is the drift of `m_freeConnectCount`: how often a node that was in no
      queue has been counted off by `_pool_connect_queue_rm`.

  §2 has one rule per piece of code that several operations share, §3 one rule
  per operation, §4 the run lemma.
-/
import Mathlib.Data.List.Range
import Mathlib.Data.List.Perm.Subperm
import RedisAgent.Lib.Counting
import RedisAgent.Pool.Queues
import RedisAgent.Pool.Machine

namespace RedisAgent

open Links

variable {σ : Type*}

/-! ## §1. The invariant. -/

/-- Slot `j` stands in the queues and in its `connect_info_t` as the plugin's
view `c` and the callbacks `given` since it was last put back require. -/
def SlotOk (N : Nat) (U F : List Nat) (j : Nat) (c : Conn) (ci : ConnectInfo)
    (given : List (Handle × σ)) : Prop :=
  match c with
  | .idle => (j ∈ U ↔ j < N) ∧ j ∉ F ∧ ci.handle = none ∧ ci.inUse = false ∧ given = []
  | .creating h =>
      (j < N ∧ j ∉ U ∧ j ∉ F) ∧ (ci.handle = some h ∧ h.poolData = j) ∧ ci.inUse = false
        ∧ given = []
  | .up h =>
      (j < N ∧ j ∉ U) ∧ (ci.handle = some h ∧ h.poolData = j) ∧ ci.toBeDestroyed = false
        ∧ ((j ∈ F ∧ ci.inUse = false ∧ given = [])
          ∨ (j ∉ F ∧ ci.inUse = true ∧ ∃ x, given = [(h, x)]))
  | .lost h =>
      (j < N ∧ j ∉ U ∧ j ∉ F) ∧ (ci.handle = some h ∧ h.poolData = j)
        ∧ ci.toBeDestroyed = true ∧ ci.inUse = true ∧ ∃ x, given = [(h, x)]
  | .destroying h =>
      (j < N ∧ j ∉ U ∧ j ∉ F) ∧ (ci.handle = some h ∧ h.poolData = j) ∧ ci.inUse = false
        ∧ given = []

/-- The invariant of one server; see the head of the file. -/
structure SrvInv (N d : Nat) (x : Option Nat) (t : ServerInfo σ) (g : Ghost σ)
    (U F W : List Nat) : Prop where
  unconn : IsQueue t.node t.unconnectQueue U
  free : IsQueue t.node t.connectQueue F
  wait : IsQueue t.waitLinks t.waitingQueue W
  detached : ∀ j, j ∉ U → j ∉ F → t.node.next j = none ∧ t.node.prev j = none
  slot : ∀ j, x ≠ some j → SlotOk N U F j (g.conn j) (t.connectArr j) (g.given j)
  hand : ∀ j, x = some j → j < N ∧ j ∉ U ∧ j ∉ F
  waitSub : ∀ a, t.waitSub a ≠ none ↔ a ∈ W
  idle : W = [] ∨ F = []
  unconnectCount : t.unconnectCount = U.length
  freeConnectCount : t.freeConnectCount = F.length - d
  waitingCount : t.waitingCount = W.length
  connectCount : t.connectCount = (List.range N).countP (fun j => (g.conn j).connected)

/-- A slot only looks at its own place in the queues. -/
theorem SlotOk.congr {N : Nat} {U F U' F' : List Nat} {j : Nat} {c : Conn} {ci : ConnectInfo}
    {given : List (Handle × σ)} (h : SlotOk N U F j c ci given) (hU : j ∈ U' ↔ j ∈ U)
    (hF : j ∈ F' ↔ j ∈ F) : SlotOk N U' F' j c ci given := by
  cases c <;> simp only [SlotOk, hU, hF] at h ⊢ <;> exact h

/-- An unconnected slot is in no other queue. -/
theorem SlotOk.of_mem_unconn {N : Nat} {U F : List Nat} {j : Nat} {c : Conn}
    {ci : ConnectInfo} {given : List (Handle × σ)} (h : SlotOk N U F j c ci given)
    (hj : j ∈ U) : c = .idle ∧ j < N ∧ j ∉ F := by
  cases c <;> simp only [SlotOk, hj, true_iff, not_true_eq_false, and_false, false_and] at h
  exact ⟨rfl, h.1, h.2.1⟩

/-- A queued free connection is established and held by nobody. -/
theorem SlotOk.of_mem_free {N : Nat} {U F : List Nat} {j : Nat} {c : Conn}
    {ci : ConnectInfo} {given : List (Handle × σ)} (h : SlotOk N U F j c ci given)
    (hj : j ∈ F) :
    ∃ hd, c = .up hd ∧ j < N ∧ j ∉ U ∧ ci.handle = some hd ∧ hd.poolData = j
      ∧ ci.toBeDestroyed = false ∧ ci.inUse = false ∧ given = [] := by
  cases c <;>
    simp only [SlotOk, hj, not_true_eq_false, and_false, false_and, true_and, or_false] at h
  obtain ⟨⟨h1, h2⟩, ⟨h3, h4⟩, h5, h6, h7⟩ := h
  exact ⟨_, rfl, h1, h2, h3, h4, h5, h6, h7⟩

/-- Counting over `range N` after one entry changed. -/
theorem countP_range_update (N : Nat) (f : Nat → Conn) (j : Nat) (c : Conn) (hj : j < N) :
    (List.range N).countP (fun i => (Function.update f j c i).connected)
        + (if (f j).connected then 1 else 0)
      = (List.range N).countP (fun i => (f i).connected) + (if c.connected then 1 else 0) :=
  countP_update List.nodup_range (List.mem_range.2 hj) f c Conn.connected

/-- Nothing a sub-request could notice has changed. -/
structure Quiet (t : ServerInfo σ) (g : Ghost σ) (t' : ServerInfo σ) (g' : Ghost σ) : Prop where
  waitSub : t'.waitSub = t.waitSub
  given : g'.given = g.given
  hist : g'.hist = g.hist

theorem Quiet.refl (t : ServerInfo σ) (g : Ghost σ) : Quiet t g t g := ⟨rfl, rfl, rfl⟩

theorem Quiet.trans {t t' t'' : ServerInfo σ} {g g' g'' : Ghost σ} (h : Quiet t g t' g')
    (h' : Quiet t' g' t'' g'') : Quiet t g t'' g'' :=
  ⟨h'.waitSub.trans h.waitSub, h'.given.trans h.given, h'.hist.trans h.hist⟩

/-- What the environment learns from all calls of an operation. -/
def Ghost.absorbAll (g : Ghost σ) (calls : List (Call σ)) : Ghost σ := calls.foldl Ghost.absorb g

@[simp] theorem Ghost.absorbAll_nil (g : Ghost σ) : g.absorbAll [] = g := rfl

@[simp] theorem Ghost.absorbAll_cons (g : Ghost σ) (c : Call σ) (calls : List (Call σ)) :
    g.absorbAll (c :: calls) = (g.absorb c).absorbAll calls := rfl

/-- **One slot moves.**  If an operation touches slot `j` alone, the invariant
has to be looked at there and in the queues; every other slot is as before. -/
theorem SrvInv.move {N d d' : Nat} {x x' : Option Nat} {t t' : ServerInfo σ} {g g' : Ghost σ}
    {U F W U' F' : List Nat} (h : SrvInv N d x t g U F W) (j : Nat)
    (hx : ∀ i, i ≠ j → x ≠ some i) (hx' : ∀ i, i ≠ j → x' ≠ some i)
    (hU : IsQueue t'.node t'.unconnectQueue U') (hF : IsQueue t'.node t'.connectQueue F')
    (hmem : ∀ i, i ≠ j → (i ∈ U' ↔ i ∈ U) ∧ (i ∈ F' ↔ i ∈ F))
    (hnode : ∀ i, i ≠ j → i ∉ U → i ∉ F →
      t'.node.next i = t.node.next i ∧ t'.node.prev i = t.node.prev i)
    (hdet : j ∉ U' → j ∉ F' → t'.node.next j = none ∧ t'.node.prev j = none)
    (hother : ∀ i, i ≠ j → g'.conn i = g.conn i ∧ t'.connectArr i = t.connectArr i
      ∧ g'.given i = g.given i)
    (hslot : x' ≠ some j → SlotOk N U' F' j (g'.conn j) (t'.connectArr j) (g'.given j))
    (hhand : x' = some j → j < N ∧ j ∉ U' ∧ j ∉ F')
    (hW : t'.waitLinks = t.waitLinks ∧ t'.waitingQueue = t.waitingQueue
      ∧ t'.waitSub = t.waitSub ∧ t'.waitingCount = t.waitingCount)
    (hidle : W = [] ∨ F' = [])
    (hUc : t'.unconnectCount = U'.length) (hFc : t'.freeConnectCount = F'.length - d')
    (hCc : t'.connectCount = (List.range N).countP (fun j => (g'.conn j).connected)) :
    SrvInv N d' x' t' g' U' F' W := by
  obtain ⟨hW1, hW2, hW3, hW4⟩ := hW
  refine ⟨hU, hF, ?_, ?_, ?_, ?_, ?_, hidle, hUc, hFc, hW4.trans h.waitingCount, hCc⟩
  · rw [hW1, hW2]
    exact h.wait
  · intro i hiU hiF
    by_cases hij : i = j
    · subst hij
      exact hdet hiU hiF
    · obtain ⟨hm1, hm2⟩ := hmem i hij
      have hiU' : i ∉ U := fun hm => hiU (hm1.2 hm)
      have hiF' : i ∉ F := fun hm => hiF (hm2.2 hm)
      obtain ⟨h1, h2⟩ := hnode i hij hiU' hiF'
      obtain ⟨h3, h4⟩ := h.detached i hiU' hiF'
      exact ⟨h1.trans h3, h2.trans h4⟩
  · intro i hxi
    by_cases hij : i = j
    · subst hij
      exact hslot hxi
    · obtain ⟨hm1, hm2⟩ := hmem i hij
      obtain ⟨h1, h2, h3⟩ := hother i hij
      rw [h1, h2, h3]
      exact (h.slot i (hx i hij)).congr hm1 hm2
  · intro i hxi
    by_cases hij : i = j
    · subst hij
      exact hhand hxi
    · exact absurd hxi (hx' i hij)
  · intro a
    rw [hW3]
    exact h.waitSub a

/-- The two slot queues hold different slots. -/
theorem SrvInv.disjoint {N d : Nat} {x : Option Nat} {t : ServerInfo σ} {g : Ghost σ}
    {U F W : List Nat} (h : SrvInv N d x t g U F W) {j : Nat} (hU : j ∈ U) : j ∉ F := by
  by_cases hx : x = some j
  · exact (h.hand j hx).2.2
  · exact ((h.slot j hx).of_mem_unconn hU).2.2

/-! ## §2. Rules for the shared pieces of code. -/

/-- `_pool_create_new_connect` moves the first unconnected slot, if there is one,
to "creation pending". -/
theorem poolCreateNewConnect_inv {N d : Nat} {t : ServerInfo σ} {g : Ghost σ} {U F W : List Nat}
    (h : SrvInv N d none t g U F W) :
    SrvInv N d none (poolCreateNewConnect t).1 (g.absorbAll (poolCreateNewConnect t).2) U.tail F W
      ∧ Quiet t g (poolCreateNewConnect t).1 (g.absorbAll (poolCreateNewConnect t).2)
      ∧ callbacks (poolCreateNewConnect t).2 = []
      ∧ (poolCreateNewConnect t).1.freed = t.freed
      ∧ (U ≠ [] → ∃ hd, Call.createCb hd ∈ (poolCreateNewConnect t).2) := by
  cases U with
  | nil =>
      have hc : poolCreateNewConnect t = (t, []) := by
        unfold poolCreateNewConnect
        rw [poolUnconnectQueueGet_nil h.unconn]
      rw [hc]
      exact ⟨h, Quiet.refl t g, rfl, rfl, fun hne => absurd rfl hne⟩
  | cons j U =>
      obtain ⟨k, e, hget, hU, hoff, hn, hp⟩ := poolUnconnectQueueGet_cons h.unconn
      have hslot := h.slot j (by simp)
      obtain ⟨hidle, hjN, hjF⟩ := hslot.of_mem_unconn List.mem_cons_self
      have hjU : j ∉ U := (List.nodup_cons.1 h.unconn.nodup).1
      rw [hidle] at hslot
      have hc : poolCreateNewConnect t
          = ({ t with
                node := k
                unconnectQueue := e
                unconnectCount := t.unconnectCount - 1
                connectArr := Function.update t.connectArr j
                  { t.connectArr j with handle := some ⟨j, t.serial⟩ }
                serial := t.serial + 1 }, [.createCb ⟨j, t.serial⟩]) := by
        unfold poolCreateNewConnect
        rw [hget]
        rfl
      rw [hc]
      refine ⟨?_, ⟨rfl, rfl, rfl⟩, rfl, rfl, fun _ => ⟨_, List.mem_cons_self⟩⟩
      apply h.move j
      · simp
      · simp
      · exact hU
      · exact h.free.of_sameOff hoff (fun i hi hi' => h.disjoint hi' hi)
      · intro i hij
        simp [hij]
      · intro i hij hiU _
        exact hoff i hiU
      · intro _ _
        exact ⟨hn, hp⟩
      · intro i hij
        simp [Ghost.absorb, hij]
      · intro _
        simp only [Ghost.absorbAll_cons, Ghost.absorbAll_nil, Ghost.absorb, Function.update_self]
        exact ⟨⟨hjN, hjU, hjF⟩, ⟨rfl, rfl⟩, hslot.2.2.2.1, hslot.2.2.2.2⟩
      · simp
      · exact ⟨rfl, rfl, rfl, rfl⟩
      · exact h.idle
      · have hlen := h.unconnectCount
        rw [List.length_cons] at hlen
        show t.unconnectCount - 1 = (U.length : Int)
        omega
      · exact h.freeConnectCount
      · have hcount := countP_range_update N g.conn j (.creating ⟨j, t.serial⟩) hjN
        have hold := h.connectCount
        simp only [hidle, Conn.connected_idle, Conn.connected_creating, Bool.false_eq_true,
          if_false, Nat.add_zero] at hcount
        show t.connectCount = _
        rw [hold]
        exact congrArg Nat.cast hcount.symm

/-- `_pool_connect_queue_get` takes the first free connection in hand. -/
theorem poolConnectQueueGet_inv {N d : Nat} {t : ServerInfo σ} {g : Ghost σ} {U F W : List Nat}
    {j : Nat} (h : SrvInv N d none t g U (j :: F) W) :
    ∃ k e, poolConnectQueueGet t
        = (some j, { t with node := k, connectQueue := e,
                            freeConnectCount := t.freeConnectCount - 1 })
      ∧ SrvInv N d (some j) { t with node := k, connectQueue := e,
                                     freeConnectCount := t.freeConnectCount - 1 } g U F W
      ∧ SlotOk N U (j :: F) j (g.conn j) (t.connectArr j) (g.given j) := by
  obtain ⟨k, e, hget, hF, hoff, hn, hp⟩ := poolConnectQueueGet_cons h.free
  have hslot := h.slot j (by simp)
  obtain ⟨hd, hup, hjN, hjU, -⟩ := hslot.of_mem_free List.mem_cons_self
  have hjF : j ∉ F := (List.nodup_cons.1 h.free.nodup).1
  refine ⟨k, e, hget, ?_, hslot⟩
  apply h.move j
  · simp
  · intro i hij
    simpa using hij.symm
  · exact h.unconn.of_sameOff hoff (fun i hi => h.disjoint hi)
  · exact hF
  · intro i hij
    simp [hij]
  · intro i hij _ hiF
    exact hoff i hiF
  · intro _ _
    exact ⟨hn, hp⟩
  · intro i _
    exact ⟨rfl, rfl, rfl⟩
  · intro hne
    exact absurd rfl hne
  · intro _
    exact ⟨hjN, hjU, hjF⟩
  · exact ⟨rfl, rfl, rfl, rfl⟩
  · rcases h.idle with hw | hf
    · exact Or.inl hw
    · exact absurd hf (List.cons_ne_nil j F)
  · exact h.unconnectCount
  · have hlen := h.freeConnectCount
    rw [List.length_cons] at hlen
    show t.freeConnectCount - 1 = _
    omega
  · exact h.connectCount

/-- Calling `m_destroyCb` for the connection in hand. -/
theorem destroyCb_inv {N d : Nat} {t : ServerInfo σ} {g : Ghost σ} {U F W : List Nat}
    {j : Nat} {hd : Handle} (h : SrvInv N d (some j) t g U F W)
    (hc : (g.conn j).connected = true)
    (hh : (t.connectArr j).handle = some hd) (hp : hd.poolData = j)
    (hu : (t.connectArr j).inUse = false) (hg : g.given j = []) :
    SrvInv N d none t (g.absorb (.destroyCb (t.connectArr j).handle)) U F W := by
  obtain ⟨hjN, hjU, hjF⟩ := h.hand j rfl
  rw [hh]
  subst hp
  apply h.move hd.poolData
  · intro i hij
    simpa using hij.symm
  · simp
  · exact h.unconn
  · exact h.free
  · intro i _
    exact ⟨Iff.rfl, Iff.rfl⟩
  · intro i _ _ _
    exact ⟨rfl, rfl⟩
  · exact h.detached _
  · intro i hij
    simp [Ghost.absorb, hij]
  · intro _
    simp only [Ghost.absorb, Function.update_self]
    exact ⟨⟨hjN, hjU, hjF⟩, ⟨hh, rfl⟩, hu, hg⟩
  · simp
  · exact ⟨rfl, rfl, rfl, rfl⟩
  · exact h.idle
  · exact h.unconnectCount
  · exact h.freeConnectCount
  · have hcount := countP_range_update N g.conn hd.poolData (.destroying hd) hjN
    rw [hc, Conn.connected_destroying] at hcount
    rw [h.connectCount]
    exact congrArg Nat.cast (Nat.add_right_cancel hcount).symm

/-- The loop of `_pool_server_destroy` empties the queue of free connections when
it is given a pass for each of them. -/
theorem poolServerDestroyLoop_inv {N d : Nat} {U W : List Nat} :
    ∀ (fuel : Nat) (F : List Nat) (j : Nat) (t : ServerInfo σ) (g : Ghost σ),
      F.length < fuel → SrvInv N d (some j) t g U F W →
      SlotOk N U (j :: F) j (g.conn j) (t.connectArr j) (g.given j) →
      SrvInv N d none (poolServerDestroyLoop fuel (some j) t).1
          (g.absorbAll (poolServerDestroyLoop fuel (some j) t).2) U [] W
        ∧ Quiet t g (poolServerDestroyLoop fuel (some j) t).1
          (g.absorbAll (poolServerDestroyLoop fuel (some j) t).2)
        ∧ callbacks (poolServerDestroyLoop fuel (some j) t).2 = []
        ∧ (poolServerDestroyLoop fuel (some j) t).1.freed = t.freed := by
  intro fuel
  induction fuel with
  | zero => intro F j t g hlen; omega
  | succ fuel ih =>
      intro F j t g hlen h hslot
      obtain ⟨hd, hup, hjN, hjU, hh, hp, -, hu, hg⟩ := hslot.of_mem_free List.mem_cons_self
      have h1 := destroyCb_inv h (by rw [hup]; rfl) hh hp hu hg
      have hq1 : Quiet t g t (g.absorb (.destroyCb (t.connectArr j).handle)) := by
        rw [hh]
        exact ⟨rfl, rfl, rfl⟩
      cases F with
      | nil =>
          have hloop : poolServerDestroyLoop (fuel + 1) (some j) t
              = (t, [.destroyCb (t.connectArr j).handle]) := by
            unfold poolServerDestroyLoop
            rw [poolConnectQueueGet_nil h.free]
            cases fuel <;> rfl
          rw [hloop]
          exact ⟨h1, hq1, rfl, rfl⟩
      | cons j' F =>
          obtain ⟨k, e, hget, h2, hslot'⟩ := poolConnectQueueGet_inv h1
          rw [List.length_cons] at hlen
          obtain ⟨h3, hq3, hc3, hf3⟩ := ih F j' _ _ (by omega) h2 hslot'
          have hloop : poolServerDestroyLoop (fuel + 1) (some j) t
              = ((poolServerDestroyLoop fuel (some j') { t with
                    node := k, connectQueue := e,
                    freeConnectCount := t.freeConnectCount - 1 }).1,
                  .destroyCb (t.connectArr j).handle ::
                    (poolServerDestroyLoop fuel (some j') { t with
                      node := k, connectQueue := e,
                      freeConnectCount := t.freeConnectCount - 1 }).2) := by
            rw [poolServerDestroyLoop, hget]
          rw [hloop]
          exact ⟨h3, hq1.trans ⟨hq3.waitSub, hq3.given, hq3.hist⟩, hc3, hf3⟩

/-- `_pool_server_destroy` asks the plugin to close every free connection, or
tears the server down when there is none. -/
theorem poolServerDestroy_inv {pool : PoolConf} {d : Nat} {t : ServerInfo σ} {g : Ghost σ}
    {U F W : List Nat} (h : SrvInv pool.slots d none t g U F W) :
    SrvInv pool.slots d none (poolServerDestroy pool t).1
        (g.absorbAll (poolServerDestroy pool t).2) U [] W
      ∧ Quiet t g (poolServerDestroy pool t).1 (g.absorbAll (poolServerDestroy pool t).2)
      ∧ callbacks (poolServerDestroy pool t).2 = []
      ∧ ((poolServerDestroy pool t).1.freed = true ↔ t.freed = true ∨ F = []) := by
  cases F with
  | nil =>
      have hd : poolServerDestroy pool t = ({ t with freed := true }, [.serverDestroyed]) := by
        unfold poolServerDestroy
        rw [poolConnectQueueGet_nil h.free]
        rfl
      rw [hd]
      exact ⟨⟨h.unconn, h.free, h.wait, h.detached, h.slot, h.hand, h.waitSub, h.idle,
        h.unconnectCount, h.freeConnectCount, h.waitingCount, h.connectCount⟩,
        ⟨rfl, rfl, rfl⟩, rfl, by simp⟩
  | cons j F =>
      obtain ⟨k, e, hget, h1, hslot⟩ := poolConnectQueueGet_inv h
      have hlen : F.length < pool.slots := by
        have hsub : (j :: F).length ≤ (List.range pool.slots).length := by
          apply List.Subperm.length_le
          apply List.subperm_of_subset h.free.nodup
          intro i hi
          obtain ⟨_, -, hiN, -⟩ := (h.slot i (by simp)).of_mem_free hi
          exact List.mem_range.2 hiN
        rw [List.length_cons, List.length_range] at hsub
        omega
      obtain ⟨h2, hq, hc, hf⟩ := poolServerDestroyLoop_inv _ F j _ g hlen h1 hslot
      have hd : poolServerDestroy pool t = poolServerDestroyLoop pool.slots (some j)
          { t with node := k, connectQueue := e, freeConnectCount := t.freeConnectCount - 1 } := by
        unfold poolServerDestroy
        rw [hget]
      rw [hd]
      refine ⟨h2, ⟨hq.waitSub, hq.given, hq.hist⟩, hc, ?_⟩
      rw [hf]
      simp

end RedisAgent
