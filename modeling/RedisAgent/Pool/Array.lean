/-
  RedisAgent.Pool.Array — the block of memory the servers of a pool share.

  `pool_build` makes one `calloc` for all servers, and `_pool_server_destroyed` calls
  `free` with the address of one of them.  For server 0 that is the address of the
  block, and all servers go with it; for any other it is no address `free` may be
  given.

  Main results:
    • `SrvOp.torn_iff` — which operations tear a server down, read on the state
      before them;
    • `PoolState.intact_iff` — in any run the servers that are not torn down are in
      allocated memory if and only if no step so far was one of `Faults`: a
      tear-down in a pool of two servers or more, or an entry into a server that is
      torn down.
-/
import RedisAgent.Pool.Env

namespace RedisAgent

open Links

variable {σ : Type*}

/-! ## §1. Which operations tear a server down. -/

/-- `_pool_server_destroyed` is among the calls. -/
abbrev TornBy (calls : List (Call σ)) : Prop := calls.any Call.isServerDestroyed = true

/-- The operation finds its test fulfilled and no free connection to close. -/
def SrvOp.Tears (pool : PoolConf) (t : ServerInfo σ) : SrvOp σ → Prop
  | .created _ status _ =>
      status ≠ 0 ∧ t.destroyFlag = true
        ∧ t.freeConnectCount + t.unconnectCount + 1 = pool.connectPerServer
        ∧ t.connectQueue.head = none
  | .destroyed hd =>
      ((t.connectArr hd.poolData).inUse = false ∨ (t.connectArr hd.poolData).toBeDestroyed = true)
        ∧ t.destroyFlag = true ∧ t.connectCount = 1
  | .waitRm _ =>
      t.destroyFlag = true ∧ t.waitingCount = 1
        ∧ t.freeConnectCount + t.unconnectCount = pool.connectPerServer
        ∧ t.connectQueue.head = none
  | .destroy =>
      t.connectCount = t.freeConnectCount
        ∧ t.freeConnectCount + t.unconnectCount = pool.connectPerServer ∧ t.waitingCount = 0
        ∧ t.connectQueue.head = none
  | _ => False

/-- The loop of `_pool_server_destroy` tears nothing down. -/
theorem poolServerDestroyLoop_not_torn (fuel : Nat) :
    ∀ (j : Option Nat) (t : ServerInfo σ), ¬ TornBy (poolServerDestroyLoop fuel j t).2 := by
  induction fuel with
  | zero =>
      intro j t
      simp [poolServerDestroyLoop, TornBy]
  | succ fuel ih =>
      intro j t
      cases j with
      | none => simp [poolServerDestroyLoop, TornBy]
      | some j =>
          rw [poolServerDestroyLoop]
          intro htorn
          simp only [TornBy, List.any_cons, Call.isServerDestroyed, Bool.false_or] at htorn
          exact ih _ _ htorn

/-- `_pool_server_destroy` tears down when there is nothing to close. -/
theorem poolServerDestroy_torn (pool : PoolConf) (t : ServerInfo σ) :
    TornBy (poolServerDestroy pool t).2 ↔ t.connectQueue.head = none := by
  unfold poolServerDestroy poolConnectQueueGet popFront
  cases hh : t.connectQueue.head with
  | none => simp [poolServerDestroyed, TornBy, Call.isServerDestroyed]
  | some j =>
      refine iff_of_false (poolServerDestroyLoop_not_torn _ _ _) ?_
      intro hn
      cases hn

/-- The test before it. -/
theorem destroyIf_torn (pool : PoolConf) (t : ServerInfo σ) (cond : Prop) [Decidable cond] :
    TornBy (if cond then poolServerDestroy pool t else (t, [])).2
      ↔ cond ∧ t.connectQueue.head = none := by
  by_cases hc : cond
  · rw [if_pos hc, poolServerDestroy_torn]
    exact ⟨fun hh => ⟨hc, hh⟩, fun hh => hh.2⟩
  · rw [if_neg hc]
    exact iff_of_false (by simp [TornBy]) (fun hh => hc hh.1)

/-- A call that is no tear-down, made first. -/
theorem tornBy_cons {c : Call σ} {calls : List (Call σ)} (hc : c.isServerDestroyed = false) :
    TornBy (c :: calls) ↔ TornBy calls := by
  simp only [TornBy, List.any_cons, hc, Bool.false_or]

/-- A slot that is put back is there to be closed. -/
theorem poolConnectQueuePut_head (t : ServerInfo σ) (j : Nat) :
    (poolConnectQueuePut t j).connectQueue.head ≠ none := by
  unfold poolConnectQueuePut pushBack
  cases hh : t.connectQueue.head with
  | none => simp
  | some a => simp

theorem poolPutBackConnect_not_torn (pool : PoolConf) (t : ServerInfo σ) (j : Nat) (now : Timeval) :
    ¬ TornBy (poolPutBackConnect pool t j now).2 := by
  unfold poolPutBackConnect
  rcases poolWaitingQueueGet t with ⟨_ | sub, t'⟩
  · have hput := poolConnectQueuePut_head t' j
    simp only
    split
    · rw [tornBy_cons rfl, poolServerDestroy_torn]
      exact hput
    · simp [TornBy, Call.isServerDestroyed]
  · simp [TornBy, Call.isServerDestroyed]

theorem poolCreateNewConnect_not_torn (t : ServerInfo σ) : ¬ TornBy (poolCreateNewConnect t).2 := by
  unfold poolCreateNewConnect
  rcases poolUnconnectQueueGet t with ⟨_ | j, t'⟩ <;> simp [TornBy, Call.isServerDestroyed]

/-- A fetch tears nothing down. -/
theorem serverFetchConnect_not_torn (pool : PoolConf) (t : ServerInfo σ) (y : σ) (wq : Nat)
    (now : Timeval) : ¬ TornBy (serverFetchConnect pool t y wq now).2.2 := by
  unfold serverFetchConnect poolFetchConnectFromConnectqueue
  split
  · rcases poolConnectQueueGet t with ⟨_ | j, t'⟩ <;> simp [TornBy, Call.isServerDestroyed]
  · simp only
    split
    · exact poolCreateNewConnect_not_torn t
    · simp [TornBy]

/-- The monitor tears nothing down. -/
theorem serverConnectMonitor_not_torn (pool : PoolConf) (t : ServerInfo σ) :
    ¬ TornBy (serverConnectMonitor pool t).2 := by
  unfold serverConnectMonitor
  split
  · exact poolCreateNewConnect_not_torn t
  · simp [TornBy]

/-- A failed creation. -/
theorem poolOnConnectCreated_torn (pool : PoolConf) (t : ServerInfo σ) (hd : Handle) (status : Int)
    (now : Timeval) : TornBy (poolOnConnectCreated pool t hd status now).2
      ↔ SrvOp.Tears pool t (.created hd status now) := by
  unfold poolOnConnectCreated
  simp only
  by_cases hst : status = 0
  · rw [if_pos hst]
    refine iff_of_false (poolPutBackConnect_not_torn _ _ _ _) ?_
    intro ht
    exact ht.1 hst
  · rw [if_neg hst, destroyIf_torn]
    show (t.destroyFlag = true ∧ t.freeConnectCount + (t.unconnectCount + 1) = _)
      ∧ t.connectQueue.head = none ↔ _
    rw [← Int.add_assoc]
    exact ⟨fun hx => ⟨hst, hx.1.1, hx.1.2, hx.2⟩, fun hx => ⟨⟨hx.2.1, hx.2.2.1⟩, hx.2.2.2⟩⟩

/-- The test behind `m_connectCount --`. -/
theorem countOff_torn (t : ServerInfo σ) :
    TornBy (if t.destroyFlag = true ∧ t.connectCount - 1 = 0 then
        ((poolServerDestroyed { t with connectCount := t.connectCount - 1 }).1,
          .argAfterConn (-1) ::
            (poolServerDestroyed { t with connectCount := t.connectCount - 1 }).2)
      else ({ t with connectCount := t.connectCount - 1 }, [.argAfterConn (-1)])).2
      ↔ t.destroyFlag = true ∧ t.connectCount - 1 = 0 := by
  by_cases hc : t.destroyFlag = true ∧ t.connectCount - 1 = 0
  · rw [if_pos hc]
    exact iff_of_true (by simp [poolServerDestroyed, TornBy, Call.isServerDestroyed]) hc
  · rw [if_neg hc]
    exact iff_of_false (by simp [TornBy, Call.isServerDestroyed]) hc

/-- A report from the plugin. -/
theorem poolOnConnectDestroyed_torn (pool : PoolConf) (t : ServerInfo σ) (hd : Handle) :
    TornBy (poolOnConnectDestroyed t hd).2 ↔ SrvOp.Tears pool t (.destroyed hd) := by
  unfold poolOnConnectDestroyed
  simp only
  by_cases hmark : (t.connectArr hd.poolData).inUse = true
      ∧ ¬ (t.connectArr hd.poolData).toBeDestroyed = true
  · rw [if_pos hmark]
    refine iff_of_false (by simp [TornBy, Call.isServerDestroyed]) ?_
    intro ht
    rcases ht.1 with hu | hb
    · rw [hu] at hmark
      exact Bool.false_ne_true hmark.1
    · exact hmark.2 hb
  · rw [if_neg hmark]
    have hslot : (t.connectArr hd.poolData).inUse = false
        ∨ (t.connectArr hd.poolData).toBeDestroyed = true := by
      cases hu : (t.connectArr hd.poolData).inUse with
      | false => exact Or.inl rfl
      | true =>
          right
          by_contra hb
          exact hmark ⟨hu, hb⟩
    -- the queue surgery in between leaves the flag and the counter alone
    generalize hrm : (if (t.connectArr hd.poolData).inUse = true then t
      else poolConnectQueueRm t hd.poolData) = t'
    have hflag : t'.destroyFlag = t.destroyFlag := by
      rw [← hrm]
      split <;> rfl
    have hcount : t'.connectCount = t.connectCount := by
      rw [← hrm]
      split <;> rfl
    have hiff : (t'.destroyFlag = true ∧ t'.connectCount - 1 = 0)
        ↔ SrvOp.Tears pool t (.destroyed hd) := by
      rw [hflag, hcount]
      constructor
      · intro hx
        exact ⟨hslot, hx.1, by omega⟩
      · intro hx
        refine ⟨hx.2.1, ?_⟩
        have hone : t.connectCount = 1 := hx.2.2
        omega
    refine Iff.trans ?_ hiff
    exact countOff_torn _

/-- **Which operations tear a server down.** -/
theorem SrvOp.torn_iff (pool : PoolConf) (t : ServerInfo σ) (op : SrvOp σ) :
    TornBy (op.code pool t).2 ↔ op.Tears pool t := by
  cases op with
  | fetch y wq now => exact iff_of_false (serverFetchConnect_not_torn pool t y wq now) id
  | release hd errclose now =>
      refine iff_of_false ?_ id
      show ¬ TornBy (poolReleaseConnect pool t hd errclose now).2
      unfold poolReleaseConnect
      simp only
      split
      · rw [tornBy_cons rfl]
        exact poolPutBackConnect_not_torn _ _ _ _
      · simp [TornBy, Call.isServerDestroyed]
  | created hd status now => exact poolOnConnectCreated_torn pool t hd status now
  | destroyed hd => exact poolOnConnectDestroyed_torn pool t hd
  | waitRm wq =>
      show TornBy (poolWaitingQueueRm pool t wq).2 ↔ _
      unfold poolWaitingQueueRm
      rw [destroyIf_torn]
      show (t.destroyFlag = true ∧ t.waitingCount - 1 = 0 ∧ _) ∧ t.connectQueue.head = none ↔ _
      rw [Int.sub_eq_zero]
      exact ⟨fun hx => ⟨hx.1.1, hx.1.2.1, hx.1.2.2, hx.2⟩,
        fun hx => ⟨⟨hx.1, hx.2.1, hx.2.2.1⟩, hx.2.2.2⟩⟩
  | monitor => exact iff_of_false (serverConnectMonitor_not_torn pool t) id
  | destroy =>
      show TornBy (serverDestroy pool t).2 ↔ _
      unfold serverDestroy
      have h := destroyIf_torn pool { t with monitorEvent := false, destroyFlag := true }
        (t.connectCount = t.freeConnectCount
          ∧ t.freeConnectCount + t.unconnectCount = pool.connectPerServer ∧ t.waitingCount = 0)
      exact h.trans ⟨fun hx => ⟨hx.1.1, hx.1.2.1, hx.1.2.2, hx.2⟩,
        fun hx => ⟨⟨hx.1, hx.2.1, hx.2.2.1⟩, hx.2.2.2⟩⟩

/-! ## §2. The block. -/

/-- Nothing undefined has happened, and the servers that are not torn down are in
allocated memory. -/
structure PoolInfo.Intact (n : Nat) (pool : PoolInfo σ) : Prop where
  noFault : pool.mem ≠ .fault
  allocated : ∀ i, i < n → (pool.serverArr i).freed = false → pool.mem = .allocated

/-- What the tear-downs so far say about the block. -/
structure PoolInfo.MemInv (n : Nat) (pool : PoolInfo σ) : Prop where
  le : pool.serverCount ≤ n
  allocated : pool.mem = .allocated → ∀ i, (pool.serverArr i).freed = false
  first : pool.mem = .released → (pool.serverArr 0).freed = true
  others : pool.mem = .released → ∀ i, i ≠ 0 → (pool.serverArr i).freed = false
  counted : pool.mem = .released → pool.serverCount < n

/-- The entry into server `i` goes wrong: the server is torn down, or tears itself
down and is not the only one of its pool. -/
def PoolInfo.FaultsAt (n : Nat) (pool : PoolInfo σ) (i : Nat) (op : SrvOp σ) : Prop :=
  (pool.serverArr i).freed = true ∨ 1 < n ∧ op.Tears pool.conf (pool.serverArr i)

/-- What an operation leaves in `freed`. -/
def SrvOp.Frees (t : ServerInfo σ) (r : Out σ) : Prop :=
  r.1.freed = (t.freed || r.2.any Call.isServerDestroyed)

theorem SrvOp.code_frees (pool : PoolConf) (t : ServerInfo σ) (op : SrvOp σ) :
    SrvOp.Frees t (op.code pool t) := by
  have h := (op.code_tells pool t).freed
  rw [op.mark_freed] at h
  exact h

section OnServer

variable {n : Nat} {pool : PoolInfo σ} {i : Nat} {r : Out σ}

theorem PoolInfo.onServer_mem (pool : PoolInfo σ) (i : Nat) (r : Out σ) :
    (pool.onServer i r).1.mem
      = if r.2.any Call.isServerDestroyed then pool.mem.use.free i else pool.mem.use := by
  unfold PoolInfo.onServer
  split <;> rfl

theorem PoolInfo.onServer_arr (pool : PoolInfo σ) (i : Nat) (r : Out σ) :
    (pool.onServer i r).1.serverArr = Function.update pool.serverArr i r.1 := by
  unfold PoolInfo.onServer
  split <;> rfl

theorem PoolInfo.onServer_serverCount (pool : PoolInfo σ) (i : Nat) (r : Out σ) :
    (pool.onServer i r).1.serverCount
      = if r.2.any Call.isServerDestroyed then pool.serverCount - 1 else pool.serverCount := by
  unfold PoolInfo.onServer
  split <;> rfl

/-- A block that was released once is used no more without a fault. -/
theorem ArrayMem.use_free_of_ne {mem : ArrayMem} (h : mem ≠ .allocated) (i : Nat) :
    mem.use = .fault ∧ mem.use.free i = .fault := by
  cases mem with
  | allocated => exact absurd rfl h
  | released => exact ⟨rfl, rfl⟩
  | fault => exact ⟨rfl, rfl⟩

/-- **One operation** keeps what is known of the block. -/
theorem PoolInfo.MemInv.onServer (h : pool.MemInv n) (hr : SrvOp.Frees (pool.serverArr i) r) :
    (pool.onServer i r).1.MemInv n := by
  have hle : (pool.onServer i r).1.serverCount ≤ pool.serverCount := by
    rw [pool.onServer_serverCount]
    split <;> omega
  by_cases hal : pool.mem = .allocated
  · have hup := h.allocated hal
    have hfreed : r.1.freed = r.2.any Call.isServerDestroyed := by
      rw [hr, hup i, Bool.false_or]
    have hmem := pool.onServer_mem i r
    have hcount := pool.onServer_serverCount i r
    cases htorn : r.2.any Call.isServerDestroyed with
    | false =>
        rw [htorn, hal] at hmem
        refine ⟨Int.le_trans hle h.le, ?_, ?_, ?_, ?_⟩
        · intro _ k
          rw [pool.onServer_arr]
          by_cases hk : k = i
          · rw [hk, Function.update_self, hfreed, htorn]
          · rw [Function.update_of_ne hk]
            exact hup k
        all_goals
          intro hrel
          rw [hmem] at hrel
          cases hrel
    | true =>
        rw [htorn, hal] at hmem
        rw [htorn] at hcount
        have hmem : (pool.onServer i r).1.mem = if i = 0 then .released else .fault := hmem
        have hzero : (pool.onServer i r).1.mem = .released → i = 0 := by
          intro hrel
          by_contra hi
          rw [hmem, if_neg hi] at hrel
          cases hrel
        refine ⟨Int.le_trans hle h.le, ?_, ?_, ?_, ?_⟩
        · intro hno
          rw [hmem] at hno
          split at hno <;> cases hno
        · intro hrel
          rw [pool.onServer_arr, hzero hrel, Function.update_self, hfreed, htorn]
        · intro hrel k hk
          rw [pool.onServer_arr, hzero hrel, Function.update_of_ne hk]
          exact hup k
        · intro _
          have hold := h.le
          simp only [if_true] at hcount
          omega
  · have hfault : (pool.onServer i r).1.mem = .fault := by
      rw [pool.onServer_mem]
      split
      · exact (ArrayMem.use_free_of_ne hal i).2
      · exact (ArrayMem.use_free_of_ne hal i).1
    refine ⟨Int.le_trans hle h.le, ?_, ?_, ?_, ?_⟩
    all_goals
      intro hmem
      rw [hfault] at hmem
      cases hmem

/-- A block that was released holds no second server. -/
theorem PoolInfo.MemInv.intact_iff (h : pool.MemInv n) :
    pool.Intact n ↔ pool.mem = .allocated ∨ pool.mem = .released ∧ n ≤ 1 := by
  constructor
  · intro hin
    cases hmem : pool.mem with
    | allocated => exact Or.inl rfl
    | fault => exact absurd hmem hin.noFault
    | released =>
        refine Or.inr ⟨rfl, ?_⟩
        by_contra hn
        have hone := hin.allocated 1 (by omega) (h.others hmem 1 (by decide))
        rw [hmem] at hone
        cases hone
  · rintro (hmem | ⟨hmem, hn⟩)
    · refine ⟨?_, fun _ _ _ => hmem⟩
      rw [hmem]
      exact fun hf => by cases hf
    · refine ⟨?_, ?_⟩
      · rw [hmem]
        exact fun hf => by cases hf
      · intro i hi hup
        have hi0 : i = 0 := by omega
        rw [hi0, h.first hmem] at hup
        cases hup

/-- **One operation** leaves the block intact unless it goes wrong. -/
theorem PoolInfo.MemInv.onServer_intact (h : pool.MemInv n) (hi : i < n)
    (hr : SrvOp.Frees (pool.serverArr i) r) :
    (pool.onServer i r).1.Intact n
      ↔ pool.Intact n ∧ ¬ ((pool.serverArr i).freed = true ∨ 1 < n ∧ TornBy r.2) := by
  rw [(h.onServer hr).intact_iff, h.intact_iff, pool.onServer_mem]
  cases hmem : pool.mem with
  | allocated =>
      have hup := h.allocated hmem i
      cases htorn : r.2.any Call.isServerDestroyed with
      | false =>
          refine iff_of_true (Or.inl rfl) ⟨Or.inl rfl, ?_⟩
          rintro (hf | ⟨-, ht⟩)
          · rw [hup] at hf
            cases hf
          · rw [TornBy, htorn] at ht
            cases ht
      | true =>
          show ((if i = 0 then ArrayMem.released else .fault) = .allocated
            ∨ (if i = 0 then ArrayMem.released else .fault) = .released ∧ n ≤ 1) ↔ _
          by_cases hn : 1 < n
          · refine iff_of_false ?_ (fun hx => hx.2 (Or.inr ⟨hn, htorn⟩))
            rintro (hx | ⟨-, hx⟩)
            · split at hx <;> cases hx
            · omega
          · -- the only server is the first, and `free` gets the address of the block
            have hi0 : i = 0 := by omega
            rw [if_pos hi0]
            refine iff_of_true (Or.inr ⟨rfl, by omega⟩) ⟨Or.inl rfl, ?_⟩
            rintro (hf | ⟨hx, -⟩)
            · rw [hup] at hf
              cases hf
            · exact hn hx
  | released =>
      refine iff_of_false ?_ ?_
      · split <;> exact fun hx => by rcases hx with hx | ⟨hx, -⟩ <;> cases hx
      · rintro ⟨hin, hno⟩
        rcases hin with hx | ⟨-, hn⟩
        · cases hx
        · have hi0 : i = 0 := by omega
          rw [hi0] at hno
          exact hno (Or.inl (h.first hmem))
  | fault =>
      refine iff_of_false ?_ ?_
      · split <;> exact fun hx => by rcases hx with hx | ⟨hx, -⟩ <;> cases hx
      · rintro ⟨hx | ⟨hx, -⟩, -⟩ <;> cases hx

/-- Looking at the servers does no harm while there are any. -/
theorem PoolInfo.MemInv.balanced (h : pool.MemInv n) : pool.balanced.MemInv n := by
  unfold PoolInfo.balanced
  split
  · exact h
  · refine ⟨h.le, ?_, ?_, ?_, ?_⟩
    · intro hmem
      refine h.allocated ?_
      cases hm : pool.mem with
      | allocated => rfl
      | released => simp [ArrayMem.use, hm] at hmem
      | fault => simp [ArrayMem.use, hm] at hmem
    all_goals
      intro hmem
      cases hm : pool.mem <;> simp [ArrayMem.use, hm] at hmem

theorem PoolInfo.MemInv.balanced_intact (h : pool.MemInv n) :
    pool.balanced.Intact n ↔ pool.Intact n := by
  rw [h.balanced.intact_iff, h.intact_iff]
  unfold PoolInfo.balanced
  split
  · exact Iff.rfl
  · rename_i hpos
    cases hm : pool.mem with
    | allocated => exact Iff.rfl
    | fault => exact Iff.rfl
    | released =>
        -- the only server is gone, so there would be nothing to look at
        have hlt := h.counted hm
        refine iff_of_false (by simp [ArrayMem.use]) ?_
        rintro (hx | ⟨-, hn⟩)
        · cases hx
        · refine hpos (Or.inl ?_)
          omega

end OnServer

/-! ## §3. Runs. -/

/-- The entry goes wrong at one of the servers it enters. -/
def PoolState.Faults (p : PoolState σ) (op : PoolOp σ) : Prop :=
  ∃ i sop, op.onto p i = some sop ∧ p.pool.FaultsAt p.built i sop

/-- In a pool of one server nothing goes wrong before it is torn down. -/
theorem PoolState.not_faults {p : PoolState σ} (hone : p.built ≤ 1)
    (hup : ∀ i, (p.pool.serverArr i).freed = false) (op : PoolOp σ) : ¬ p.Faults op := by
  rintro ⟨i, sop, -, hfreed | ⟨hn, -⟩⟩
  · rw [hup i] at hfreed
    cases hfreed
  · omega

/-- `pool_destroy` over the servers `l`. -/
theorem PoolState.destroyLoop_mem (l : List Nat) (hnd : l.Nodup) :
    ∀ p : PoolState σ, p.pool.MemInv p.built → (∀ i ∈ l, i < p.built) →
      (l.foldl (fun p i => (p.onServer i .destroy).1) p).pool.MemInv p.built
        ∧ ((l.foldl (fun p i => (p.onServer i .destroy).1) p).pool.Intact p.built
          ↔ p.pool.Intact p.built ∧ ∀ i ∈ l, ¬ p.pool.FaultsAt p.built i .destroy) := by
  induction l with
  | nil =>
      intro p h _
      exact ⟨h, ⟨fun hin => ⟨hin, fun i hi => by cases hi⟩, fun hx => hx.1⟩⟩
  | cons i l ih =>
      obtain ⟨hil, hnd⟩ := List.nodup_cons.1 hnd
      intro p h hlt
      have hfrees := SrvOp.code_frees p.pool.conf (p.pool.serverArr i) .destroy
      have hinv : (p.onServer i .destroy).1.pool.MemInv p.built := h.onServer hfrees
      obtain ⟨h1, h2⟩ := ih hnd (p.onServer i .destroy).1 hinv
        (fun k hk => hlt k (List.mem_cons_of_mem i hk))
      have hone : (p.onServer i .destroy).1.pool.Intact p.built ↔ _ :=
        h.onServer_intact (hlt i List.mem_cons_self) hfrees
      -- the other servers are as they were
      have hrest : ∀ k ∈ l, (p.onServer i .destroy).1.pool.FaultsAt p.built k .destroy
          ↔ p.pool.FaultsAt p.built k .destroy := by
        intro k hk
        have hki : k ≠ i := fun he => hil (he ▸ hk)
        have harr : (p.onServer i .destroy).1.pool.serverArr k = p.pool.serverArr k := by
          show (p.pool.onServer i _).1.serverArr k = _
          rw [PoolInfo.onServer_arr, Function.update_of_ne hki]
        unfold PoolInfo.FaultsAt
        rw [harr, p.onServer_conf i .destroy]
      refine ⟨h1, h2.trans ?_⟩
      show (p.onServer i .destroy).1.pool.Intact p.built ∧ _ ↔ _
      rw [hone, SrvOp.torn_iff, List.forall_mem_cons, and_assoc]
      refine and_congr_right (fun _ => and_congr_right (fun _ => ?_))
      exact forall₂_congr (fun k hk => not_congr (hrest k hk))

/-- **One entry.** -/
theorem PoolState.exec_mem {p : PoolState σ} (h : p.pool.MemInv p.built) {op : PoolOp σ}
    (hlt : ∀ i sop, op.onto p i = some sop → i < p.built) :
    (p.exec op).pool.MemInv p.built
      ∧ ((p.exec op).pool.Intact p.built ↔ p.pool.Intact p.built ∧ ¬ p.Faults op) := by
  have hserver : ∀ k sop, k < p.built →
      (p.onServer k sop).1.pool.MemInv p.built
        ∧ ((p.onServer k sop).1.pool.Intact p.built
          ↔ p.pool.Intact p.built ∧ ¬ p.pool.FaultsAt p.built k sop) := by
    intro k sop hk
    have hfrees := SrvOp.code_frees p.pool.conf (p.pool.serverArr k) sop
    refine ⟨h.onServer hfrees, ?_⟩
    have hone := h.onServer_intact hk hfrees
    rw [SrvOp.torn_iff] at hone
    exact hone
  cases op with
  | fetch y wq now balance serverid =>
      simp only [PoolState.exec, PoolState.Faults, PoolOp.onto] at hlt ⊢
      cases hpick : p.pool.pickServer balance serverid with
      | none =>
          refine ⟨h.balanced, h.balanced_intact.trans ?_⟩
          simp
      | some k =>
          obtain ⟨h1, h2⟩ := hserver k (.fetch y wq now) (hlt k _ (by rw [if_pos hpick]))
          refine ⟨h1, h2.trans (and_congr_right (fun _ => not_congr ?_))⟩
          simp
  | server k sop =>
      obtain ⟨h1, h2⟩ := hserver k sop (hlt k sop (if_pos rfl))
      refine ⟨h1, h2.trans (and_congr_right (fun _ => not_congr ?_))⟩
      simp [PoolState.Faults, PoolOp.onto]
  | destroy =>
      have hrange : ∀ i ∈ List.range p.pool.serverCount.toNat, i < p.built :=
        fun i hi => hlt i .destroy (if_pos (List.mem_range.1 hi))
      obtain ⟨h1, h2⟩ := PoolState.destroyLoop_mem _ List.nodup_range p h hrange
      refine ⟨h1, h2.trans (and_congr_right (fun _ => ?_))⟩
      simp [PoolState.Faults, PoolOp.onto]

/-- As `pool_build` leaves it. -/
theorem PoolState.start_mem (n : Nat) (c retry : Int) :
    (PoolState.start n c retry : PoolState σ).pool.MemInv n
      ∧ (PoolState.start n c retry : PoolState σ).pool.Intact n := by
  obtain ⟨k, e, hb, -⟩ := serverBuild_spec (σ := σ) c
  have hup : ∀ i, ((PoolState.start n c retry : PoolState σ).pool.serverArr i).freed = false := by
    intro i
    show (serverBuild c : ServerInfo σ).freed = false
    rw [hb]
    rfl
  refine ⟨⟨Int.le_refl _, fun _ => hup, ?_, ?_, ?_⟩, ⟨(fun hf => by cases hf), fun _ _ _ => rfl⟩⟩
  all_goals
    intro hrel
    cases hrel

/-- **`pool_destroy`** goes wrong where it tears down one of several servers. -/
theorem PoolInfo.MemInv.poolDestroy {n : Nat} {pool : PoolInfo σ} (h : pool.MemInv n) :
    (RedisAgent.poolDestroy pool).1.MemInv n
      ∧ ((RedisAgent.poolDestroy pool).1.Intact n ↔ pool.Intact n
        ∧ ∀ i, i < pool.serverCount.toNat → ¬ pool.FaultsAt n i .destroy) := by
  -- the loop passes through the states of a pool with histories
  have hle := h.le
  obtain ⟨h1, h2⟩ := PoolState.destroyLoop_mem (List.range pool.serverCount.toNat) List.nodup_range
    ⟨pool, n, fun _ => Ghost.start⟩ h (fun i hi => by
      have hlt := List.mem_range.1 hi
      show i < n
      omega)
  have hpool := congrArg Prod.fst (poolDestroy_foldl (List.range pool.serverCount.toNat)
    (⟨pool, n, fun _ => Ghost.start⟩ : PoolState σ) [])
  have hpool : (RedisAgent.poolDestroy pool).1 = _ := hpool
  rw [hpool]
  refine ⟨h1, h2.trans (and_congr_right fun _ => ?_)⟩
  simp only [List.mem_range]

/-- **A whole run**: the block is intact exactly as long as no entry goes wrong. -/
theorem PoolState.intact_iff {n : Nat} {c retry : Int} {tr : List (PoolState σ × PoolOp σ)}
    {p : PoolState σ} (h : (poolEnvLts σ n c retry).Run tr p) :
    p.pool.Intact n ↔ ∀ q ∈ tr, ¬ q.1.Faults q.2 := by
  have hrun : p.pool.MemInv n ∧ (p.pool.Intact n ↔ ∀ q ∈ tr, ¬ q.1.Faults q.2) := by
    refine h.history (P := fun tr p =>
      p.pool.MemInv n ∧ (p.pool.Intact n ↔ ∀ q ∈ tr, ¬ q.1.Faults q.2)) ?_ ?_
    · intro p hp
      obtain ⟨h1, h2⟩ := PoolState.start_mem (σ := σ) n c retry
      rw [hp]
      exact ⟨h1, iff_of_true h2 (fun q hq => by cases hq)⟩
    · intro tr p op p' hrun ih hstep
      obtain ⟨hen, rfl⟩ := hstep
      obtain ⟨-, -, hbuilt, hcount⟩ := PoolState.env_srv hrun 0
      subst hbuilt
      have hlt : ∀ i sop, op.onto p i = some sop → i < p.built :=
        fun i sop hon => (hen.onto hcount hon).1
      obtain ⟨h1, h2⟩ := PoolState.exec_mem ih.1 hlt
      refine ⟨h1, h2.trans ?_⟩
      rw [ih.2]
      simp only [List.forall_mem_append, List.forall_mem_singleton]
  exact hrun.2

/-- A server that is still there is in allocated memory exactly as long. -/
theorem PoolState.allocated_iff {n : Nat} {c retry : Int} {tr : List (PoolState σ × PoolOp σ)}
    {p : PoolState σ} (h : (poolEnvLts σ n c retry).Run tr p) {i : Nat} (hi : i < n)
    (hup : (p.pool.serverArr i).freed = false) :
    p.pool.mem = .allocated ↔ ∀ q ∈ tr, ¬ q.1.Faults q.2 := by
  rw [← PoolState.intact_iff h]
  constructor
  · intro hmem
    refine ⟨?_, fun _ _ _ => hmem⟩
    rw [hmem]
    exact fun hf => by cases hf
  · intro hin
    exact hin.allocated i hi hup

/-! ## §4. Runs that stop at a tear-down are such runs. -/

/-- `poolLts` asks for more than the promises. -/
theorem PoolState.Enabled.promised {p : PoolState σ} {op : PoolOp σ} (h : p.Enabled op) :
    p.Promised op := by
  cases op with
  | fetch y wq now balance serverid =>
      intro i hpick
      obtain ⟨hlive, hwait, hnew⟩ := h i hpick
      exact ⟨hlive.1, hwait, hnew⟩
  | server i op => exact ⟨h.1, h.2.1.1, h.2.2⟩
  | destroy => exact fun i hi => (h.2 i hi).2

theorem PoolState.run_env {n : Nat} {c retry : Int} {tr : List (PoolState σ × PoolOp σ)}
    {p : PoolState σ} (h : (poolLts σ n c retry).Run tr p) : (poolEnvLts σ n c retry).Run tr p := by
  have hinit : ∀ p, (poolLts σ n c retry).init p → (poolEnvLts σ n c retry).init p :=
    fun _ hp => hp
  refine h.mono hinit ?_
  intro p op p' hstep
  exact ⟨hstep.1.promised, hstep.2⟩

end RedisAgent
