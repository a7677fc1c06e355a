/-
  RedisAgent.Pool.Handles — a dead connection is never handed out.

  Every `m_createCb` gets a handle of its own: `Fresh` says that an operation
  keeps the handles of the slots, clears them, or allocates the next one.  So a
  handle that was reported destroyed can never be established again
  (`HandleInv.reported`), and an established one goes back to a creation with no
  report after it (`HandleInv.created`).

  All this is about a server whose fields are still the pool's memory.  An entry
that uses memory already given back, or gives it back wrongly, may pass anything
(`PoolState.MayPass`).

  Main result: `pool_dead_handle_not_reissued`, for the runs in which no step is one
of `PoolState.Faults`.
-/
import RedisAgent.Pool.Array

namespace RedisAgent

open Links

variable {σ : Type*}

/-! ## §1. What an operation does to the handles. -/

/-- The handles of the slots are those of `t`, or cleared, or the one handle the
operation allocated. -/
structure Fresh (t : ServerInfo σ) (r : Out σ) : Prop where
  serial : t.serial ≤ r.1.serial
  handle : ∀ j hd, (r.1.connectArr j).handle = some hd →
    (t.connectArr j).handle = some hd ∨ (hd.serial = t.serial ∧ t.serial < r.1.serial)
  create : ∀ hd, Call.createCb hd ∈ r.2 → hd.serial = t.serial ∧ t.serial < r.1.serial

/-- The handles of the slots are those of `t`, or cleared. -/
def KeepsHandles (t t' : ServerInfo σ) : Prop :=
  t'.serial = t.serial
    ∧ ∀ j hd, (t'.connectArr j).handle = some hd → (t.connectArr j).handle = some hd

theorem KeepsHandles.refl (t : ServerInfo σ) : KeepsHandles t t := ⟨rfl, fun _ _ h => h⟩

theorem KeepsHandles.trans {t t' t'' : ServerInfo σ} (h : KeepsHandles t t')
    (h' : KeepsHandles t' t'') : KeepsHandles t t'' :=
  ⟨h'.1.trans h.1, fun j hd hh => h.2 j hd (h'.2 j hd hh)⟩

/-- Writing a slot back with its handle, or with none. -/
theorem KeepsHandles.setConn (t : ServerInfo σ) (j : Nat) (ci : ConnectInfo)
    (h : ci.handle = (t.connectArr j).handle ∨ ci.handle = none) :
    KeepsHandles t (t.setConn j ci) := by
  refine ⟨rfl, ?_⟩
  intro i hd hh
  by_cases hij : i = j
  · subst hij
    simp only [ServerInfo.setConn, Function.update_self] at hh
    rcases h with hsame | hnone
    · exact hsame ▸ hh
    · rw [hnone] at hh
      cases hh
  · simpa only [ServerInfo.setConn, Function.update_of_ne hij] using hh

/-- An operation that allocates nothing. -/
theorem Fresh.of_keeps {t : ServerInfo σ} {r : Out σ} (h : KeepsHandles t r.1)
    (hc : ∀ hd, Call.createCb hd ∉ r.2) : Fresh t r :=
  ⟨h.1.ge, fun j hd hh => Or.inl (h.2 j hd hh), fun hd hm => absurd hm (hc hd)⟩

/-- Queues, flags and counters are no handles. -/
theorem poolConnectQueueGet_keeps (t : ServerInfo σ) :
    KeepsHandles t (poolConnectQueueGet t).2 := by
  unfold poolConnectQueueGet
  rcases t.node.popFront t.connectQueue with ⟨_ | j, k, e⟩ <;> exact ⟨rfl, fun _ _ h => h⟩

/-- No connection is made while a server is torn down. -/
def NoCreate (r : Out σ) : Prop := ∀ hd, Call.createCb hd ∉ r.2

theorem poolServerDestroyLoop_keeps (fuel : Nat) :
    ∀ (j : Option Nat) (t : ServerInfo σ), KeepsHandles t (poolServerDestroyLoop fuel j t).1
      ∧ NoCreate (poolServerDestroyLoop fuel j t) := by
  induction fuel with
  | zero =>
      intro j t
      exact ⟨.refl t, fun hd => List.not_mem_nil⟩
  | succ fuel ih =>
      intro j t
      cases j with
      | none => exact ⟨.refl t, fun hd => List.not_mem_nil⟩
      | some j =>
          obtain ⟨h1, h2⟩ := ih (poolConnectQueueGet t).1 (poolConnectQueueGet t).2
          rw [poolServerDestroyLoop]
          refine ⟨(poolConnectQueueGet_keeps t).trans h1, ?_⟩
          intro hd hm
          rcases List.mem_cons.1 hm with he | hm
          · cases he
          · exact h2 hd hm

theorem poolServerDestroy_keeps (pool : PoolConf) (t : ServerInfo σ) :
    KeepsHandles t (poolServerDestroy pool t).1 ∧ NoCreate (poolServerDestroy pool t) := by
  have hget := poolConnectQueueGet_keeps t
  unfold poolServerDestroy
  rcases hg : poolConnectQueueGet t with ⟨_ | j, t'⟩
  · rw [hg] at hget
    exact ⟨hget, fun hd hm => by cases List.mem_singleton.1 hm⟩
  · rw [hg] at hget
    obtain ⟨h1, h2⟩ := poolServerDestroyLoop_keeps pool.slots (some j) t'
    exact ⟨hget.trans h1, h2⟩

theorem poolPutBackConnect_keeps (pool : PoolConf) (t : ServerInfo σ) (j : Nat) (now : Timeval) :
    KeepsHandles t (poolPutBackConnect pool t j now).1
      ∧ NoCreate (poolPutBackConnect pool t j now) := by
  have hget : KeepsHandles t (poolWaitingQueueGet t).2 := by
    unfold poolWaitingQueueGet
    cases t.waitingQueue.head <;> exact ⟨rfl, fun _ _ h => h⟩
  unfold poolPutBackConnect
  rcases hg : poolWaitingQueueGet t with ⟨_ | y, t'⟩
  · rw [hg] at hget
    simp only
    split
    · obtain ⟨h1, h2⟩ := poolServerDestroy_keeps pool (poolConnectQueuePut t' j)
      refine ⟨hget.trans h1, ?_⟩
      intro hd hm
      rcases List.mem_cons.1 hm with he | hm
      · cases he
      · exact h2 hd hm
    · exact ⟨hget, fun hd hm => by cases List.mem_singleton.1 hm⟩
  · rw [hg] at hget
    refine ⟨hget.trans (KeepsHandles.setConn t' j _ (Or.inl rfl)), ?_⟩
    intro hd hm
    rcases List.mem_cons.1 hm with he | hm
    · cases he
    · cases List.mem_singleton.1 hm

/-- `_pool_create_new_connect` allocates the next handle. -/
theorem poolCreateNewConnect_fresh (t : ServerInfo σ) : Fresh t (poolCreateNewConnect t) := by
  unfold poolCreateNewConnect poolUnconnectQueueGet
  rcases t.node.popFront t.unconnectQueue with ⟨_ | j, k, e⟩
  · exact .of_keeps (.refl t) (fun hd => List.not_mem_nil)
  · refine ⟨Nat.le_succ _, ?_, ?_⟩
    · intro i hd hh
      by_cases hij : i = j
      · subst hij
        simp only [ServerInfo.setConn, Function.update_self, Option.some.injEq] at hh
        subst hh
        exact Or.inr ⟨rfl, Nat.lt_succ_self _⟩
      · simp only [ServerInfo.setConn, Function.update_of_ne hij] at hh
        exact Or.inl hh
    · intro hd hm
      have he := List.mem_singleton.1 hm
      cases he
      exact ⟨rfl, Nat.lt_succ_self _⟩

/-- **Every operation** keeps, clears, or allocates the next handle. -/
theorem SrvOp.code_fresh (pool : PoolConf) (t : ServerInfo σ) (op : SrvOp σ) :
    Fresh t (op.code pool t) := by
  cases op with
  | fetch y wq now =>
      show Fresh t (serverFetchConnect pool t y wq now).2
      unfold serverFetchConnect poolFetchConnectFromConnectqueue
      split
      · have hget := poolConnectQueueGet_keeps t
        rcases hg : poolConnectQueueGet t with ⟨_ | j, t'⟩
        · rw [hg] at hget
          exact .of_keeps hget (fun hd => List.not_mem_nil)
        · rw [hg] at hget
          refine .of_keeps (hget.trans (KeepsHandles.setConn t' j _ (Or.inl rfl))) ?_
          intro hd hm
          cases List.mem_singleton.1 hm
      · simp only
        split
        · have h := poolCreateNewConnect_fresh t
          exact ⟨h.serial, h.handle, h.create⟩
        · exact .of_keeps ⟨rfl, fun _ _ h => h⟩ (fun hd => List.not_mem_nil)
  | release hd errclose now =>
      show Fresh t (poolReleaseConnect pool t hd errclose now)
      have h1 := KeepsHandles.setConn t hd.poolData
        { t.connectArr hd.poolData with inUse := false } (Or.inl rfl)
      unfold poolReleaseConnect
      simp only
      split
      · obtain ⟨h2, h3⟩ := poolPutBackConnect_keeps pool (t.setConn hd.poolData
          { t.connectArr hd.poolData with inUse := false }) hd.poolData now
        refine .of_keeps (h1.trans h2) ?_
        intro h hm
        rcases List.mem_cons.1 hm with he | hm
        · cases he
        · exact h3 h hm
      · refine .of_keeps h1 ?_
        intro h hm
        rcases List.mem_cons.1 hm with he | hm
        · cases he
        · cases List.mem_singleton.1 hm
  | created hd status now =>
      show Fresh t (poolOnConnectCreated pool t hd status now)
      have h1 := KeepsHandles.setConn t hd.poolData
        { t.connectArr hd.poolData with inUse := false, toBeDestroyed := false } (Or.inl rfl)
      unfold poolOnConnectCreated
      simp only
      generalize t.setConn hd.poolData
        { t.connectArr hd.poolData with inUse := false, toBeDestroyed := false } = t1 at h1 ⊢
      split
      · obtain ⟨h2, h3⟩ := poolPutBackConnect_keeps pool
          { t1 with connectCount := t1.connectCount + 1 } hd.poolData now
        exact .of_keeps (h1.trans h2) h3
      · have h2 : KeepsHandles t ((poolUnconnectQueuePut t1 hd.poolData).setConn hd.poolData
            { (poolUnconnectQueuePut t1 hd.poolData).connectArr hd.poolData with
              handle := none }) :=
          h1.trans (KeepsHandles.setConn (poolUnconnectQueuePut t1 hd.poolData) hd.poolData _
            (Or.inr rfl))
        split
        · obtain ⟨h3, h4⟩ := poolServerDestroy_keeps pool
            ((poolUnconnectQueuePut t1 hd.poolData).setConn hd.poolData
              { (poolUnconnectQueuePut t1 hd.poolData).connectArr hd.poolData with
                handle := none })
          exact .of_keeps (h2.trans h3) h4
        · exact .of_keeps h2 (fun h => List.not_mem_nil)
  | destroyed hd =>
      show Fresh t (poolOnConnectDestroyed t hd)
      unfold poolOnConnectDestroyed
      simp only
      split
      · refine .of_keeps (KeepsHandles.setConn t hd.poolData _ (Or.inl rfl)) ?_
        intro h hm
        cases List.mem_singleton.1 hm
      · generalize hrm : (if (t.connectArr hd.poolData).inUse = true then t
          else poolConnectQueueRm t hd.poolData) = t1
        have h1 : KeepsHandles t t1 := by
          rw [← hrm]
          split
          · exact .refl t
          · exact ⟨rfl, fun _ _ h => h⟩
        have h2 := h1.trans (KeepsHandles.setConn t1 hd.poolData
          { t.connectArr hd.poolData with handle := none } (Or.inr rfl))
        split
        · refine .of_keeps h2 ?_
          intro h hm
          rcases List.mem_cons.1 hm with he | hm
          · cases he
          · cases List.mem_singleton.1 hm
        · refine .of_keeps h2 ?_
          intro h hm
          cases List.mem_singleton.1 hm
  | waitRm wq =>
      show Fresh t (poolWaitingQueueRm pool t wq)
      unfold poolWaitingQueueRm
      simp only
      split
      · obtain ⟨h1, h2⟩ := poolServerDestroy_keeps pool (poolWaitingQueueUnlink t wq)
        exact .of_keeps h1 h2
      · exact .of_keeps ⟨rfl, fun _ _ h => h⟩ (fun h => List.not_mem_nil)
  | monitor =>
      show Fresh t (serverConnectMonitor pool t)
      unfold serverConnectMonitor
      split
      · exact poolCreateNewConnect_fresh t
      · exact .of_keeps (.refl t) (fun h => List.not_mem_nil)
  | destroy =>
      show Fresh t (serverDestroy pool t)
      unfold serverDestroy
      simp only
      split
      · obtain ⟨h1, h2⟩ := poolServerDestroy_keeps pool
          { t with monitorEvent := false, destroyFlag := true }
        exact .of_keeps h1 h2
      · exact .of_keeps ⟨rfl, fun _ _ h => h⟩ (fun h => List.not_mem_nil)

/-! ## §2. Where an established connection comes from. -/

/-- The calls of an operation only open and close connections. -/
theorem Ghost.absorbAll_conn (calls : List (Call σ)) (j : Nat) : ∀ g : Ghost σ,
    (g.absorbAll calls).conn j = g.conn j
      ∨ (∃ hd, Call.createCb hd ∈ calls ∧ (g.absorbAll calls).conn j = .creating hd)
      ∨ ∃ hd, (g.absorbAll calls).conn j = .destroying hd := by
  induction calls with
  | nil =>
      intro g
      exact Or.inl rfl
  | cons c calls ih =>
      intro g
      rw [Ghost.absorbAll_cons]
      rcases ih (g.absorb c) with hsame | ⟨hd, hm, hc⟩ | hdes
      · -- the later calls leave the slot as `c` left it
        rw [hsame]
        cases c with
        | createCb hd =>
            by_cases hj : j = hd.poolData
            · subst hj
              refine Or.inr (Or.inl ⟨hd, List.mem_cons_self, ?_⟩)
              simp [Ghost.absorb]
            · exact Or.inl (Function.update_of_ne hj _ _)
        | destroyCb h =>
            cases h with
            | none => exact Or.inl rfl
            | some hd =>
                by_cases hj : j = hd.poolData
                · subst hj
                  refine Or.inr (Or.inr ⟨hd, ?_⟩)
                  simp [Ghost.absorb]
                · exact Or.inl (Function.update_of_ne hj _ _)
        | callback h sub => cases h <;> exact Or.inl rfl
        | argAfterConn ret => exact Or.inl rfl
        | serverArg timecost => exact Or.inl rfl
        | serverDestroyed => exact Or.inl rfl
        | poolDestroyed => exact Or.inl rfl
      · exact Or.inr (Or.inl ⟨hd, List.mem_cons_of_mem c hm, hc⟩)
      · exact Or.inr (Or.inr hdes)

/-- The waiting queue's history is no connection. -/
theorem Srv.exec_conn (pool : PoolConf) (s : Srv σ) (op : SrvOp σ) :
    (s.exec pool op).ghost.conn
      = ((op.enter s.ghost).absorbAll (op.code pool s.info).2).conn := by
  cases op with
  | fetch y wq now =>
      simp only [Srv.exec, SrvOp.leave]
      split <;> rfl
  | waitRm wq =>
      simp only [Srv.exec, SrvOp.leave]
      split <;> rfl
  | release hd errclose now => rfl
  | created hd status now => rfl
  | destroyed hd => rfl
  | monitor => rfl
  | destroy => rfl

/-- What a call itself tells about slot `j`: nothing, the plugin's answer to a
creation, or its report that the connection is gone. -/
theorem SrvOp.enter_conn (g : Ghost σ) (op : SrvOp σ) (j : Nat) :
    ((op.enter g).conn j = g.conn j ∧ ∀ hd, op = .destroyed hd → hd.poolData ≠ j)
      ∨ (∃ hd status now, op = .created hd status now ∧ hd.poolData = j
        ∧ (op.enter g).conn j = if status = 0 then .up hd else .idle)
      ∨ ∃ hd, op = .destroyed hd ∧ hd.poolData = j
        ∧ ((op.enter g).conn j = .lost hd ∨ (op.enter g).conn j = .idle) := by
  cases op with
  | created hd status now =>
      by_cases hj : j = hd.poolData
      · subst hj
        exact Or.inr (Or.inl ⟨hd, status, now, rfl, rfl, Function.update_self ..⟩)
      · exact Or.inl ⟨Function.update_of_ne hj _ _, fun _ he => by cases he⟩
  | destroyed hd =>
      by_cases hj : j = hd.poolData
      · subst hj
        refine Or.inr (Or.inr ⟨hd, rfl, rfl, ?_⟩)
        simp only [SrvOp.enter, Function.update_self]
        split
        · exact Or.inl rfl
        · exact Or.inr rfl
      · refine Or.inl ⟨Function.update_of_ne hj _ _, ?_⟩
        intro hd' he hp
        cases he
        exact hj hp.symm
  | fetch y wq now => exact Or.inl ⟨rfl, fun _ he => by cases he⟩
  | release hd errclose now => exact Or.inl ⟨rfl, fun _ he => by cases he⟩
  | waitRm wq => exact Or.inl ⟨rfl, fun _ he => by cases he⟩
  | monitor => exact Or.inl ⟨rfl, fun _ he => by cases he⟩
  | destroy => exact Or.inl ⟨rfl, fun _ he => by cases he⟩

/-- The connection of slot `j` after an operation: as the call itself left it, or
opened with a new handle, or being closed. -/
theorem Srv.exec_conn_cases (pool : PoolConf) (s : Srv σ) (op : SrvOp σ) (j : Nat) :
    (s.exec pool op).ghost.conn j = (op.enter s.ghost).conn j
      ∨ (∃ hd, hd.serial = s.info.serial ∧ (s.exec pool op).ghost.conn j = .creating hd)
      ∨ ∃ hd, (s.exec pool op).ghost.conn j = .destroying hd := by
  rw [Srv.exec_conn]
  rcases Ghost.absorbAll_conn (op.code pool s.info).2 j (op.enter s.ghost) with
    hsame | ⟨hd, hm, hc⟩ | hdes
  · exact Or.inl hsame
  · exact Or.inr (Or.inl ⟨hd, ((op.code_fresh pool s.info).create hd hm).1, hc⟩)
  · exact Or.inr (Or.inr hdes)

/-- **An established connection** was established before, and not reported by this
operation, or this operation is the answer that it is up. -/
theorem Srv.exec_up {pool : PoolConf} {s : Srv σ} {op : SrvOp σ} (hen : s.Enabled op) {j : Nat}
    {hd : Handle} (h : (s.exec pool op).ghost.conn j = .up hd) :
    (s.ghost.conn j = .up hd ∧ ∀ h', op = .destroyed h' → h'.poolData ≠ j)
      ∨ ((∃ now, op = .created hd 0 now) ∧ s.ghost.conn j = .creating hd) := by
  rcases s.exec_conn_cases pool op j with hent | ⟨h', -, hc⟩ | ⟨h', hc⟩
  · rw [h] at hent
    rcases op.enter_conn s.ghost j with ⟨hsame, hno⟩ | ⟨h', status, now, rfl, rfl, hc⟩ |
      ⟨h', -, -, hc | hc⟩
    · exact Or.inl ⟨hsame.symm.trans hent.symm, hno⟩
    · rw [hc] at hent
      by_cases hst : status = 0
      · subst hst
        cases hent
        exact Or.inr ⟨⟨now, rfl⟩, hen⟩
      · rw [if_neg hst] at hent
        cases hent
    · rw [hc] at hent
      cases hent
    · rw [hc] at hent
      cases hent
  · rw [hc] at h
    cases h
  · rw [hc] at h
    cases h

/-- A connection that is being created was being created before, or has the
handle this operation allocated. -/
theorem Srv.exec_creating {pool : PoolConf} {s : Srv σ} {op : SrvOp σ} {j : Nat} {hd : Handle}
    (h : (s.exec pool op).ghost.conn j = .creating hd) :
    s.ghost.conn j = .creating hd ∨ hd.serial = s.info.serial := by
  rcases s.exec_conn_cases pool op j with hent | ⟨h', hs, hc⟩ | ⟨h', hc⟩
  · rw [h] at hent
    rcases op.enter_conn s.ghost j with ⟨hsame, -⟩ | ⟨h', status, now, -, -, hc⟩ |
      ⟨h', -, -, hc | hc⟩
    · exact Or.inl (hsame.symm.trans hent.symm)
    · rw [hc] at hent
      split at hent <;> cases hent
    · rw [hc] at hent
      cases hent
    · rw [hc] at hent
      cases hent
  · rw [hc] at h
    cases h
    exact Or.inr hs
  · rw [hc] at h
    cases h

/-- What a run of a server knows about its handles. -/
structure HandleInv (tr : List (Srv σ × SrvOp σ)) (s : Srv σ) : Prop where
  /-- every handle a slot holds was allocated before -/
  bound : ∀ j hd, (s.info.connectArr j).handle = some hd → hd.serial < s.info.serial
  /-- a reported handle is neither established nor being created -/
  reported : ∀ q ∈ tr, ∀ hd, q.2 = .destroyed hd → hd.serial < s.info.serial
    ∧ s.ghost.conn hd.poolData ≠ .up hd ∧ s.ghost.conn hd.poolData ≠ .creating hd
  /-- an established connection was created, and its slot not reported since -/
  created : ∀ j hd, s.ghost.conn j = .up hd → ∃ tr1 q tr2 now,
    tr = tr1 ++ (q, .created hd 0 now) :: tr2
      ∧ ∀ q' ∈ tr2, ∀ h', q'.2 = .destroyed h' → h'.poolData ≠ j

/-- **Step.** -/
theorem HandleInv.step {pool : PoolConf} {d : Nat} {tr : List (Srv σ × SrvOp σ)} {s : Srv σ}
    {U F W : List Nat} (h : HandleInv tr s) (hinv : s.Inv pool d U F W) {op : SrvOp σ}
    (hen : s.Enabled op) : HandleInv (tr ++ [(s, op)]) (s.exec pool op) := by
  have hfresh := op.code_fresh pool s.info
  refine ⟨?_, ?_, ?_⟩
  · intro j hd hh
    rcases hfresh.handle j hd hh with hold | ⟨hs, hlt⟩
    · exact lt_of_lt_of_le (h.bound j hd hold) hfresh.serial
    · rw [hs]
      exact hlt
  · -- the report itself, then a report made earlier
    intro q hq hd hop
    have hbefore : hd.serial < s.info.serial ∧ ((s.exec pool op).ghost.conn hd.poolData ≠ .up hd
        ∧ (s.exec pool op).ghost.conn hd.poolData ≠ .creating hd) := by
      rcases List.mem_append.1 hq with hq | hq
      · obtain ⟨hlt, hup, hcr⟩ := h.reported q hq hd hop
        refine ⟨hlt, ?_, ?_⟩
        · intro hc
          rcases Srv.exec_up hen hc with ⟨hold, -⟩ | ⟨-, hold⟩
          · exact hup hold
          · exact hcr hold
        · intro hc
          rcases Srv.exec_creating hc with hold | hs
          · exact hcr hold
          · omega
      · rw [List.mem_singleton.1 hq] at hop
        subst hop
        have hslot := hinv.slot hd.poolData (by simp)
        have hhandle : (s.info.connectArr hd.poolData).handle = some hd := by
          rcases hen with hc | hc
          · rw [hc] at hslot
            exact hslot.2.1.1
          · rw [hc] at hslot
            exact hslot.2.1.1
        have hlt := h.bound _ _ hhandle
        refine ⟨hlt, ?_, ?_⟩
        · intro hc
          rcases Srv.exec_up hen hc with ⟨-, hno⟩ | ⟨⟨now, he⟩, -⟩
          · exact hno hd rfl rfl
          · cases he
        · intro hc
          rcases Srv.exec_creating hc with hold | hs
          · rcases hen with hc' | hc'
            · rw [hc'] at hold
              cases hold
            · rw [hc'] at hold
              cases hold
          · omega
    exact ⟨lt_of_lt_of_le hbefore.1 hfresh.serial, hbefore.2⟩
  · intro j hd hc
    rcases Srv.exec_up hen hc with ⟨hold, hno⟩ | ⟨⟨now, he⟩, hcr⟩
    · obtain ⟨tr1, q, tr2, now, rfl, hrest⟩ := h.created j hd hold
      refine ⟨tr1, q, tr2 ++ [(s, op)], now, by simp, ?_⟩
      intro q' hq' h' hop
      rcases List.mem_append.1 hq' with hm | hm
      · exact hrest q' hm h' hop
      · rw [List.mem_singleton.1 hm] at hop
        exact hno h' hop
    · subst he
      exact ⟨tr, s, [], now, rfl, fun _ hq' => by cases hq'⟩

/-- **Run.** -/
theorem HandleInv.of_run {pool : PoolConf} {tr : List (Srv σ × SrvOp σ)} {s : Srv σ}
    (h : (srvEnvLts pool σ).Run tr s) : HandleInv tr s := by
  refine h.history (P := HandleInv) ?_ ?_
  · intro s hs
    obtain ⟨k, e, hb, -⟩ := serverBuild_spec (σ := σ) pool.connectPerServer
    rw [hs, hb]
    refine ⟨?_, (fun _ hq => by cases hq), ?_⟩
    · intro j hd hh
      cases hh
    · intro j hd hc
      cases hc
  · intro tr s op s' hrun ih hstep
    obtain ⟨hen, rfl⟩ := hstep
    obtain ⟨U, F, W, hinv⟩ := Srv.env_inv hrun
    exact ih.step hinv hen

/-- The promises, kept one after the other. -/
abbrev PoolState.AllPromised (p : PoolState σ) (ops : List (PoolOp σ)) : Prop :=
  Lts.AllEnabled PoolState.exec PoolState.Promised p ops

/-- The run from `pool_build` on. -/
theorem PoolState.envRun_of_allPromised {n : Nat} {N r : Int} {ops : List (PoolOp σ)}
    (h : (PoolState.start n N r : PoolState σ).AllPromised ops) :
    (poolEnvLts σ n N r).Run (Lts.traceAll PoolState.exec (PoolState.start n N r) ops)
      ((PoolState.start n N r).execAll ops) := by
  have hstep : ∀ (p : PoolState σ) op, p.Promised op → (poolEnvLts σ n N r).step p op (p.exec op) :=
    fun _ _ hen => ⟨hen, rfl⟩
  exact Lts.Run.execAll hstep ops (.init rfl) h

end RedisAgent
