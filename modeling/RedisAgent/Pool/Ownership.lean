/-
  RedisAgent.Pool.Ownership — who holds a slot, and what the counters say.

  Here the fields of the servers are looked at, not the memory they stand in; that
  is `Pool.Array`.

  Main results, for every run of a pool from `pool_build` on:
    • `PoolState.slotOwnership` — every slot is in exactly one of the five places,
      the queues are well formed, `m_connectCount` counts;
    • `PoolState.countersAgree_iff` — the three queue counters agree with the queues
      until the plugin answers an `m_destroyCb`, and not after;
    • `pool_wait_not_orphaned` — nobody waits beside a free connection, and a
      waiting sub-request has something to wait for.
-/
import RedisAgent.Pool.Reach

namespace RedisAgent

open Links

variable {σ : Type*}

/-! ## §1. Slot ownership. -/

/-- The five places a slot can be in. -/
inductive Place
  | unconnected
  | creating
  | free
  | inUse
  | destroying
  deriving Repr, DecidableEq

/-- Slot `j` is at a place; `U` and `F` are what the two queues spell. -/
def Srv.SlotAt (s : Srv σ) (U F : List Nat) (j : Nat) : Place → Prop
  | .unconnected => j ∈ U
  | .creating => ∃ h, s.ghost.conn j = .creating h
  | .free => j ∈ F
  | .inUse => (s.info.connectArr j).inUse = true
  | .destroying => ∃ h, s.ghost.conn j = .destroying h

/-- `m_destroyCb` was called for the connection and not answered yet. -/
def Conn.isDestroying : Conn → Bool
  | .destroying _ => true
  | _ => false

/-- What holds of the slots of one server. -/
structure SlotOwnership (N : Nat) (s : Srv σ) (U F : List Nat) : Prop where
  unconnectQueue : IsQueue s.info.node s.info.unconnectQueue U
  connectQueue : IsQueue s.info.node s.info.connectQueue F
  place : ∀ j, j < N → ∃! p : Place, s.SlotAt U F j p
  /-- in use is in use by one callback, and only then is a callback holding it -/
  holder : ∀ j, ((s.info.connectArr j).inUse = true → ∃ h y, s.ghost.given j = [(h, y)])
    ∧ ((s.info.connectArr j).inUse = false → s.ghost.given j = [])
  unconnected : ∀ j, j ∈ U ↔ j < N ∧ s.ghost.conn j = .idle
  freeBound : ∀ j, j ∈ F → j < N
  connectCount : s.info.connectCount
    = F.length + (List.range N).countP (fun j => (s.info.connectArr j).inUse)
        + (List.range N).countP (fun j => (s.ghost.conn j).isDestroying)
  connectBound : s.info.connectCount ≤ N

/-- A slot the invariant speaks about is in exactly one place. -/
theorem SlotOk.place {N : Nat} {s : Srv σ} {U F : List Nat} {j : Nat}
    (h : SlotOk N U F j (s.ghost.conn j) (s.info.connectArr j) (s.ghost.given j)) (hj : j < N) :
    ∃! p : Place, s.SlotAt U F j p := by
  cases hc : s.ghost.conn j with
  | idle =>
      rw [hc] at h
      obtain ⟨hU, hF, -, hu, -⟩ := h
      refine ⟨.unconnected, hU.2 hj, ?_⟩
      intro p hp
      cases p <;> simp [Srv.SlotAt, hc, hF, hu] at hp ⊢
  | creating hd =>
      rw [hc] at h
      obtain ⟨⟨-, hU, hF⟩, -, hu, -⟩ := h
      refine ⟨.creating, ⟨hd, hc⟩, ?_⟩
      intro p hp
      cases p <;> simp [Srv.SlotAt, hc, hU, hF, hu] at hp ⊢
  | up hd =>
      rw [hc] at h
      obtain ⟨⟨-, hU⟩, -, -, ⟨hF, hu, -⟩ | ⟨hF, hu, -⟩⟩ := h
      · refine ⟨.free, hF, ?_⟩
        intro p hp
        cases p <;> simp [Srv.SlotAt, hc, hU, hu] at hp ⊢
      · refine ⟨.inUse, hu, ?_⟩
        intro p hp
        cases p <;> simp [Srv.SlotAt, hc, hU, hF] at hp ⊢
  | lost hd =>
      rw [hc] at h
      obtain ⟨⟨-, hU, hF⟩, -, -, hu, -⟩ := h
      refine ⟨.inUse, hu, ?_⟩
      intro p hp
      cases p <;> simp [Srv.SlotAt, hc, hU, hF] at hp ⊢
  | destroying hd =>
      rw [hc] at h
      obtain ⟨⟨-, hU, hF⟩, -, hu, -⟩ := h
      refine ⟨.destroying, ⟨hd, hc⟩, ?_⟩
      intro p hp
      cases p <;> simp [Srv.SlotAt, hc, hU, hF, hu] at hp ⊢

/-- The flag says who holds the slot. -/
theorem SlotOk.holder {N : Nat} {U F : List Nat} {j : Nat} {c : Conn} {ci : ConnectInfo}
    {given : List (Handle × σ)} (h : SlotOk N U F j c ci given) :
    (ci.inUse = true → ∃ hd y, given = [(hd, y)]) ∧ (ci.inUse = false → given = []) := by
  cases c with
  | idle => simp [h.2.2.2.1, h.2.2.2.2]
  | creating hd => simp [h.2.2.1, h.2.2.2]
  | destroying hd => simp [h.2.2.1, h.2.2.2]
  | up hd =>
      obtain ⟨-, -, -, ⟨-, hu, hg⟩ | ⟨-, hu, y, hg⟩⟩ := h
      · simp [hu, hg]
      · simp [hu, hg]
  | lost hd =>
      obtain ⟨-, -, -, hu, y, hg⟩ := h
      simp [hu, hg]

/-- Counting the members of a list that has no repetition. -/
theorem countP_mem_range {N : Nat} {F : List Nat} (hF : F.Nodup) (hN : ∀ j ∈ F, j < N) :
    (List.range N).countP (fun j => decide (j ∈ F)) = F.length := by
  rw [List.countP_eq_length_filter]
  apply List.Perm.length_eq
  rw [List.perm_ext_iff_of_nodup (List.nodup_range.filter _) hF]
  intro j
  simp only [List.mem_filter, List.mem_range, decide_eq_true_eq]
  exact ⟨fun h => h.2, fun h => ⟨hN j h, h⟩⟩

/-- Every slot that counts as connected is free, in use or being destroyed. -/
theorem SlotOk.connected {N : Nat} {U F : List Nat} {j : Nat} {c : Conn} {ci : ConnectInfo}
    {given : List (Handle × σ)} (h : SlotOk N U F j c ci given) :
    (if c.connected then 1 else 0)
      = (if decide (j ∈ F) then 1 else 0) + (if ci.inUse then 1 else 0)
        + (if c.isDestroying then 1 else 0) := by
  cases c with
  | idle => simp [Conn.isDestroying, h.2.1, h.2.2.2.1]
  | creating hd => simp [Conn.isDestroying, h.1.2.2, h.2.2.1]
  | destroying hd => simp [Conn.isDestroying, h.1.2.2, h.2.2.1]
  | up hd =>
      obtain ⟨-, -, -, ⟨hF, hu, -⟩ | ⟨hF, hu, -⟩⟩ := h
      · simp [Conn.isDestroying, hF, hu]
      · simp [Conn.isDestroying, hF, hu]
  | lost hd =>
      obtain ⟨⟨-, -, hF⟩, -, -, hu, -⟩ := h
      simp [Conn.isDestroying, hF, hu]

theorem countP_add_three (l : List Nat) (p q r u : Nat → Bool)
    (h : ∀ j ∈ l, (if p j then 1 else 0)
      = (if q j then 1 else 0) + (if r j then 1 else 0) + (if u j then 1 else 0)) :
    l.countP p = l.countP q + l.countP r + l.countP u := by
  induction l with
  | nil => rfl
  | cons j l ih =>
      have h1 := h j List.mem_cons_self
      have h2 := ih (fun i hi => h i (List.mem_cons_of_mem j hi))
      simp only [List.countP_cons]
      omega

/-- The invariant gives the slot picture. -/
theorem Srv.Inv.slotOwnership {pool : PoolConf} {d : Nat} {s : Srv σ} {U F W : List Nat}
    (h : s.Inv pool d U F W) : SlotOwnership pool.slots s U F where
  unconnectQueue := h.unconn
  connectQueue := h.free
  place j hj := (h.slot j (by simp)).place hj
  holder j := (h.slot j (by simp)).holder
  unconnected j := by
    have hslot := h.slot j (by simp)
    constructor
    · intro hU
      obtain ⟨hc, hjN, -⟩ := hslot.of_mem_unconn hU
      exact ⟨hjN, hc⟩
    · intro hc
      rw [hc.2] at hslot
      exact hslot.1.2 hc.1
  freeBound j hj := by
    obtain ⟨_, -, hjN, -⟩ := (h.slot j (by simp)).of_mem_free hj
    exact hjN
  connectCount := by
    have hF : ∀ j ∈ F, j < pool.slots := by
      intro j hj
      obtain ⟨_, -, hjN, -⟩ := (h.slot j (by simp)).of_mem_free hj
      exact hjN
    have hsum := countP_add_three (List.range pool.slots)
      (fun j => (s.ghost.conn j).connected) (fun j => decide (j ∈ F))
      (fun j => (s.info.connectArr j).inUse) (fun j => (s.ghost.conn j).isDestroying)
      (fun j _ => (h.slot j (by simp)).connected)
    rw [h.connectCount, hsum, countP_mem_range h.free.nodup hF]
    omega
  connectBound := by
    have hle := List.countP_le_length (p := fun j => (s.ghost.conn j).connected)
      (l := List.range pool.slots)
    rw [List.length_range] at hle
    rw [h.connectCount]
    exact_mod_cast hle

/-- **Slot ownership.**  In every state a pool can reach, at each of its servers:
every slot is in exactly one place, the queues are doubly linked lists without
repetition, the unconnected queue holds exactly the unconnected slots, and
`m_connectCount` is free + in use + being destroyed, at most the number of slots. -/
theorem PoolState.slotOwnership {serverCount : Nat} {c retry : Int}
    {tr : List (PoolState σ × PoolOp σ)} {p : PoolState σ}
    (h : (poolLts σ serverCount c retry).Run tr p) (i : Nat) :
    ∃ U F, SlotOwnership c.toNat (p.srv i) U F := by
  obtain ⟨U, F, W, hinv⟩ := Srv.run_inv (PoolState.run_srv h i).1
  exact ⟨U, F, hinv.slotOwnership⟩

/-- A pool of one server with one slot, after some entries. -/
def oneSlotPool (ops : List (PoolOp Nat)) : PoolState Nat := (PoolState.start 1 1 0).execAll ops

/-- A connection is opened, handed out, released with an error, and its
destruction answered. -/
def errorReleaseOps : List (PoolOp Nat) :=
  [.server 0 .monitor, .server 0 (.created ⟨0, 0⟩ 0 {}), .fetch 7 0 {} (fun _ => 0) 0,
    .server 0 (.release ⟨0, 0⟩ true {}), .server 0 (.destroyed ⟨0, 0⟩)]

theorem errorReleaseOps_enabled :
    (PoolState.start 1 1 0 : PoolState Nat).AllEnabled errorReleaseOps := by
  refine ⟨⟨trivial, ⟨by decide, rfl⟩, rfl⟩, ⟨trivial, ⟨by decide, rfl⟩, rfl⟩, ?_,
    ⟨trivial, ⟨by decide, rfl⟩, 7, List.mem_singleton_self _⟩,
    ⟨trivial, ⟨by decide, rfl⟩, Or.inr rfl⟩, trivial⟩
  intro i hi
  have hi0 : some 0 = some i := hi
  cases hi0
  refine ⟨⟨by decide, rfl⟩, rfl, ?_⟩
  intro k hk
  cases k <;> cases hk

/-! ## §2. The counters. -/

/-- The three counters are the lengths of the three queues. -/
def ServerInfo.CountersAgree (t : ServerInfo σ) : Prop :=
  ∃ U F W, IsQueue t.node t.unconnectQueue U ∧ IsQueue t.node t.connectQueue F
    ∧ IsQueue t.waitLinks t.waitingQueue W
    ∧ t.unconnectCount = U.length ∧ t.freeConnectCount = F.length ∧ t.waitingCount = W.length

/-- A step in which the plugin answers an `m_destroyCb` of server `i`. -/
def AnswersDestroyCb (i : Nat) (q : PoolState σ × PoolOp σ) : Prop :=
  ∃ h, q.2 = .server i (.destroyed h) ∧ (q.1.ghost i).conn h.poolData = .destroying h

/-- The counters agree exactly when there was no drift. -/
theorem Srv.Inv.countersAgree_iff {pool : PoolConf} {d : Nat} {s : Srv σ} {U F W : List Nat}
    (h : s.Inv pool d U F W) : s.info.CountersAgree ↔ d = 0 := by
  constructor
  · intro hagree
    obtain ⟨U', F', W', hU, hF, hW, -, hcount, -⟩ := hagree
    have hFF : F' = F := hF.unique h.free
    have hfree := h.freeConnectCount
    rw [hFF] at hcount
    omega
  · intro hd
    have hfree := h.freeConnectCount
    rw [hd] at hfree
    refine ⟨U, F, W, h.unconn, h.free, h.wait, h.unconnectCount, ?_, h.waitingCount⟩
    simpa using hfree

/-- An operation drifts exactly when it is the answer to an `m_destroyCb`. -/
theorem SrvOp.drift_eq_zero_iff (g : Ghost σ) (op : SrvOp σ) :
    op.drift g = 0 ↔ ¬ ∃ h, op = .destroyed h ∧ g.conn h.poolData = .destroying h := by
  cases op with
  | destroyed h =>
      show (if g.conn h.poolData = .destroying h then 1 else 0) = 0 ↔ _
      by_cases hc : g.conn h.poolData = .destroying h
      · simp [hc]
      · simp [hc]
  | fetch y wq now => simp [SrvOp.drift]
  | release h errclose now => simp [SrvOp.drift]
  | created h status now => simp [SrvOp.drift]
  | waitRm wq => simp [SrvOp.drift]
  | monitor => simp [SrvOp.drift]
  | destroy => simp [SrvOp.drift]

/-- Only an answered `m_destroyCb` makes server `i` drift. -/
theorem driftOf_srvTrace_eq_zero_iff (i : Nat) (tr : List (PoolState σ × PoolOp σ)) :
    driftOf (srvTrace i tr) = 0 ↔ ∀ q ∈ tr, ¬ AnswersDestroyCb i q := by
  induction tr with
  | nil => simp [driftOf, srvTrace]
  | cons q tr ih =>
      obtain ⟨p, op⟩ := q
      have hcons : driftOf (srvTrace i ((p, op) :: tr))
          = ((op.onto p i).map (SrvOp.drift (p.ghost i))).getD 0 + driftOf (srvTrace i tr) := by
        unfold driftOf srvTrace
        rw [List.filterMap_cons]
        cases hop : op.onto p i with
        | none => simp
        | some sop => simp [PoolState.srv]
      have hhead : ((op.onto p i).map (SrvOp.drift (p.ghost i))).getD 0 = 0
          ↔ ¬ AnswersDestroyCb i (p, op) := by
        cases op with
        | fetch y wq now balance serverid =>
            by_cases hp : p.pool.pickServer balance serverid = some i
            · simp [PoolOp.onto, hp, AnswersDestroyCb, SrvOp.drift]
            · simp [PoolOp.onto, hp, AnswersDestroyCb]
        | server k sop =>
            by_cases hk : k = i
            · subst hk
              simp only [PoolOp.onto, if_true, Option.map_some, Option.getD_some,
                SrvOp.drift_eq_zero_iff, AnswersDestroyCb,
                PoolOp.server.injEq, true_and]
            · simp [PoolOp.onto, hk, AnswersDestroyCb]
        | destroy =>
            by_cases hi : i < p.pool.serverCount.toNat
            · simp [PoolOp.onto, hi, AnswersDestroyCb, SrvOp.drift]
            · simp [PoolOp.onto, hi, AnswersDestroyCb]
      rw [hcons, Nat.add_eq_zero_iff, hhead, ih, List.forall_mem_cons]

/-- **When the counters agree.**  In any run of a pool, the counters of a server
are the lengths of its queues if and only if no `m_destroyCb` of that server has
been answered yet: `_pool_connect_queue_rm` counts the answered connection off
the free ones although it is in no queue. -/
theorem PoolState.countersAgree_iff {serverCount : Nat} {c retry : Int}
    {tr : List (PoolState σ × PoolOp σ)} {p : PoolState σ}
    (h : (poolLts σ serverCount c retry).Run tr p) (i : Nat) :
    (p.pool.serverArr i).CountersAgree ↔ ∀ q ∈ tr, ¬ AnswersDestroyCb i q := by
  obtain ⟨U, F, W, hinv⟩ := Srv.run_inv (PoolState.run_srv h i).1
  rw [← driftOf_srvTrace_eq_zero_iff]
  exact hinv.countersAgree_iff

/-! ## §3. Nobody waits for nothing. -/

/-- None of the three flags of a server differs. -/
def SameFlags (t t' : ServerInfo σ) : Prop :=
  t'.destroyFlag = t.destroyFlag ∧ t'.monitorEvent = t.monitorEvent ∧ t'.freed = t.freed

theorem poolCreateNewConnect_flags (t : ServerInfo σ) : SameFlags t (poolCreateNewConnect t).1 := by
  unfold poolCreateNewConnect poolUnconnectQueueGet
  rcases t.node.popFront t.unconnectQueue with ⟨_ | j, k, e⟩ <;> exact ⟨rfl, rfl, rfl⟩

theorem poolPutBackConnect_flags (pool : PoolConf) (t : ServerInfo σ) (j : Nat) (now : Timeval)
    (h : t.destroyFlag = false) : SameFlags t (poolPutBackConnect pool t j now).1 := by
  unfold poolPutBackConnect poolWaitingQueueGet
  cases t.waitingQueue.head with
  | none =>
      have hflag : (poolConnectQueuePut t j).destroyFlag = false := h
      simp only [hflag, Bool.false_eq_true, false_and, if_false]
      exact ⟨rfl, rfl, rfl⟩
  | some a =>
      cases hsub : t.waitSub a with
      | none =>
          simp only [hsub, poolConnectQueuePut, h, Bool.false_eq_true, false_and, if_false]
          exact ⟨h.symm, rfl, rfl⟩
      | some y =>
          simp only [hsub]
          exact ⟨rfl, rfl, rfl⟩

/-- **Only `pool_destroy` begins a tear-down.**  On a server it has not been called
for, no operation touches the flags. -/
theorem SrvOp.code_flags (pool : PoolConf) (t : ServerInfo σ) (op : SrvOp σ)
    (h : t.destroyFlag = false) (hop : op ≠ .destroy) : SameFlags t (op.code pool t).1 := by
  cases op with
  | fetch y wq now =>
      show SameFlags t (serverFetchConnect pool t y wq now).2.1
      unfold serverFetchConnect poolFetchConnectFromConnectqueue poolConnectQueueGet
      by_cases hhead : t.connectQueue.head ≠ none
      · rw [if_pos hhead]
        rcases t.node.popFront t.connectQueue with ⟨_ | j, k, e⟩ <;> exact ⟨rfl, rfl, rfl⟩
      · rw [if_neg hhead]
        by_cases hlt : t.connectCount < pool.connectPerServer
        · rw [if_pos hlt]
          exact poolCreateNewConnect_flags t
        · rw [if_neg hlt]
          exact ⟨rfl, rfl, rfl⟩
  | release hd errclose now =>
      show SameFlags t (poolReleaseConnect pool t hd errclose now).1
      unfold poolReleaseConnect
      simp only
      split
      · exact poolPutBackConnect_flags pool _ hd.poolData now h
      · exact ⟨rfl, rfl, rfl⟩
  | created hd status now =>
      show SameFlags t (poolOnConnectCreated pool t hd status now).1
      unfold poolOnConnectCreated
      simp only
      split
      · exact poolPutBackConnect_flags pool _ hd.poolData now h
      · rw [if_neg]
        · exact ⟨rfl, rfl, rfl⟩
        · intro hdes
          have hflag : t.destroyFlag = true := hdes.1
          rw [h] at hflag
          cases hflag
  | destroyed hd =>
      show SameFlags t (poolOnConnectDestroyed t hd).1
      unfold poolOnConnectDestroyed
      simp only
      split
      · exact ⟨rfl, rfl, rfl⟩
      · rw [if_neg]
        · split <;> exact ⟨rfl, rfl, rfl⟩
        · intro hdes
          have hflag : t.destroyFlag = true := by
            have := hdes.1
            split at this <;> exact this
          rw [h] at hflag
          cases hflag
  | waitRm wq =>
      show SameFlags t (poolWaitingQueueRm pool t wq).1
      unfold poolWaitingQueueRm
      rw [if_neg]
      · exact ⟨rfl, rfl, rfl⟩
      · intro hdes
        have hflag : t.destroyFlag = true := hdes.1
        rw [h] at hflag
        cases hflag
  | monitor =>
      show SameFlags t (serverConnectMonitor pool t).1
      unfold serverConnectMonitor
      split
      · exact poolCreateNewConnect_flags t
      · exact ⟨rfl, rfl, rfl⟩
  | destroy => exact absurd rfl hop

/-- Only `pool_destroy` runs the tear-down loop at a server. -/
theorem PoolOp.onto_ne_destroy {p : PoolState σ} {op : PoolOp σ}
    (hcb : ∀ k sop, op = .server k sop → sop.IsCallback) (hop : op ≠ .destroy) {i : Nat}
    {sop : SrvOp σ} (h : op.onto p i = some sop) : sop ≠ .destroy := by
  intro hdes
  subst hdes
  cases op with
  | fetch y wq now balance serverid =>
      simp only [PoolOp.onto] at h
      split at h <;> cases h
  | server k sop =>
      simp only [PoolOp.onto] at h
      split at h <;> cases h
      exact hcb k _ rfl
  | destroy => exact hop rfl

/-- The guard of a pool lets only callbacks through to a server. -/
theorem PoolState.Enabled.isCallback {p : PoolState σ} {op : PoolOp σ} (h : p.Enabled op)
    (k : Nat) (sop : SrvOp σ) (hop : op = .server k sop) : sop.IsCallback := by
  subst hop
  exact h.1

/-- As long as `pool_destroy` was not called, every server is up and its monitor
timer is set. -/
theorem PoolState.run_flags {serverCount N : Nat} {retry : Int}
    {tr : List (PoolState σ × PoolOp σ)} {p : PoolState σ}
    (h : (poolLts σ serverCount N retry).Run tr p) (hno : ∀ q ∈ tr, q.2 ≠ .destroy) (i : Nat) :
    (p.pool.serverArr i).destroyFlag = false ∧ (p.pool.serverArr i).monitorEvent = true
      ∧ (p.pool.serverArr i).freed = false := by
  revert hno
  refine h.history (P := fun tr p => (∀ q ∈ tr, q.2 ≠ .destroy) →
    (p.srv i).info.destroyFlag = false ∧ (p.srv i).info.monitorEvent = true
      ∧ (p.srv i).info.freed = false) ?_ ?_
  · intro p hp _
    obtain ⟨k, e, hb, -⟩ := serverBuild_spec (σ := σ) N
    have hsrv : (p.srv i).info = serverBuild N := by
      rw [hp]
      rfl
    rw [hsrv, hb]
    exact ⟨rfl, rfl, rfl⟩
  · intro tr p op p' _ ih hstep hno
    obtain ⟨hflag, hmon, hfreed⟩ := ih (fun q hq => hno q (List.mem_append_left _ hq))
    obtain ⟨hen, rfl⟩ := hstep
    have hop : op ≠ .destroy := hno (p, op) (by simp)
    rw [(p.exec_srv op i).1]
    cases hon : op.onto p i with
    | none => exact ⟨hflag, hmon, hfreed⟩
    | some sop =>
        obtain ⟨h1, h2, h3⟩ := sop.code_flags p.pool.conf (p.srv i).info hflag
          (PoolOp.onto_ne_destroy hen.isCallback hop hon)
        exact ⟨h1.trans hflag, h2.trans hmon, h3.trans hfreed⟩

/-- Somebody waiting at this server will be served by a connection that is being
created, used or closed, or by one the next monitor tick starts. -/
def Srv.WaitIsServed (pool : PoolConf) (s : Srv σ) : Prop :=
  (∃ j, j < pool.slots ∧ ((∃ h, s.ghost.conn j = .creating h)
      ∨ (s.info.connectArr j).inUse = true ∨ ∃ h, s.ghost.conn j = .destroying h))
    ∨ (s.Enabled .monitor ∧ ∃ h, .createCb h ∈ (serverConnectMonitor pool s.info).2)

theorem Srv.Inv.waitIsServed {pool : PoolConf} {d : Nat} {s : Srv σ} {U W : List Nat}
    (h : s.Inv pool d U [] W) (hN : 0 < pool.slots)
    (hlow : 0 < pool.lowConnectPerServer) (hmon : s.info.monitorEvent = true) :
    s.WaitIsServed pool := by
  by_cases hall : ∀ j, j < pool.slots → s.ghost.conn j = .idle
  · -- every slot is unconnected: the count is 0, below the threshold
    right
    have hcount : s.info.connectCount = 0 := by
      rw [h.connectCount]
      have : (List.range pool.slots).countP (fun j => (s.ghost.conn j).connected) = 0 := by
        rw [List.countP_eq_zero]
        intro j hj
        rw [hall j (List.mem_range.1 hj)]
        simp
      rw [this]
      rfl
    have hU : U ≠ [] := by
      intro hnil
      have h0 := (h.slotOwnership.unconnected 0).2 ⟨hN, hall 0 hN⟩
      rw [hnil] at h0
      cases h0
    refine ⟨hmon, ?_⟩
    unfold serverConnectMonitor
    rw [if_pos (by omega)]
    exact (poolCreateNewConnect_inv h).2.2.2.2 hU
  · -- some slot is not: it is neither unconnected nor free
    left
    push Not at hall
    obtain ⟨j, hj, hne⟩ := hall
    refine ⟨j, hj, ?_⟩
    have hslot := h.slot j (by simp)
    cases hc : s.ghost.conn j with
    | idle => exact absurd hc hne
    | creating hd => exact Or.inl ⟨hd, rfl⟩
    | up hd =>
        rw [hc] at hslot
        obtain ⟨-, -, -, ⟨hF, -⟩ | ⟨-, hu, -⟩⟩ := hslot
        · cases hF
        · exact Or.inr (Or.inl hu)
    | lost hd =>
        rw [hc] at hslot
        exact Or.inr (Or.inl hslot.2.2.2.1)
    | destroying hd => exact Or.inr (Or.inr ⟨hd, rfl⟩)

/-- **No request waits beside an idle connection, and no wait is orphaned.** -/
theorem pool_wait_not_orphaned {serverCount N : Nat} {retry : Int}
    {tr : List (PoolState σ × PoolOp σ)} {p : PoolState σ}
    (h : (poolLts σ serverCount N retry).Run tr p) (hN : 1 ≤ N)
    (hno : ∀ q ∈ tr, q.2 ≠ .destroy) (i : Nat) :
    ∃ F W, IsQueue (p.pool.serverArr i).node (p.pool.serverArr i).connectQueue F
      ∧ IsQueue (p.pool.serverArr i).waitLinks (p.pool.serverArr i).waitingQueue W
      ∧ (W ≠ [] → F = [] ∧ (p.srv i).WaitIsServed (buildConf N retry)) := by
  have hrun := (PoolState.run_srv h i).1
  obtain ⟨U, F, W, hinv⟩ := Srv.run_inv hrun
  refine ⟨F, W, hinv.free, hinv.wait, ?_⟩
  intro hW
  have hF : F = [] := by
    rcases hinv.idle with hw | hf
    · exact absurd hw hW
    · exact hf
  subst hF
  refine ⟨rfl, hinv.waitIsServed hN ?_ ?_⟩
  · simp only [buildConf, poolBuild]
    split <;> omega
  · exact (PoolState.run_flags h hno i).2.1

/-- The first sub-request of a one-slot pool waits for the connection it started. -/
theorem pool_wait_not_orphaned_witness :
    ∃ F W, IsQueue ((oneSlotPool [.fetch 7 0 {} (fun _ => 0) 0]).pool.serverArr 0).node
        ((oneSlotPool [.fetch 7 0 {} (fun _ => 0) 0]).pool.serverArr 0).connectQueue F
      ∧ IsQueue ((oneSlotPool [.fetch 7 0 {} (fun _ => 0) 0]).pool.serverArr 0).waitLinks
        ((oneSlotPool [.fetch 7 0 {} (fun _ => 0) 0]).pool.serverArr 0).waitingQueue W
      ∧ (W ≠ [] → F = []
        ∧ ((oneSlotPool [.fetch 7 0 {} (fun _ => 0) 0]).srv 0).WaitIsServed (buildConf 1 0)) := by
  have hen : (PoolState.start 1 1 0 : PoolState Nat).AllEnabled
      [.fetch 7 0 {} (fun _ => 0) 0] := by
    refine ⟨?_, trivial⟩
    intro i hi
    have hi0 : some 0 = some i := hi
    cases hi0
    exact ⟨⟨by decide, rfl⟩, rfl, fun k => List.not_mem_nil⟩
  refine pool_wait_not_orphaned (PoolState.run_of_allEnabled hen) (by decide) ?_ 0
  intro q hq
  simp only [Lts.traceAll, List.mem_cons, List.not_mem_nil, or_false] at hq
  rw [hq]
  simp

end RedisAgent
