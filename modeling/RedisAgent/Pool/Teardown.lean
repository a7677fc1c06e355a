/-
  RedisAgent.Pool.Teardown — is a server torn down once, and only when it is quiet?

  After `pool_destroy` no request fetches from the pool any more (`NoLateFetch`);
  the answers and releases that are still to come may arrive in any order.  A
  server that was torn down at rest is finished: nothing is outstanding, so
  nothing more can happen to it, and there is no second tear-down.  What is left
  is the question whether it was at rest, and `SrvOp.Early` answers it step by step.
-/
import RedisAgent.Pool.Outcomes

namespace RedisAgent

open Links

variable {σ : Type*}

/-! ## §1. One server. -/

/-- The flag of `pool_destroy` and the monitor timer exclude each other. -/
theorem Srv.env_monitor {pool : PoolConf} {tr : List (Srv σ × SrvOp σ)} {s : Srv σ}
    (h : (srvEnvLts pool σ).Run tr s) : s.info.destroyFlag = true → s.info.monitorEvent = false := by
  refine h.history (P := fun _ s => s.info.destroyFlag = true → s.info.monitorEvent = false) ?_ ?_
  · intro s hs
    obtain ⟨k, e, hb, -⟩ := serverBuild_spec (σ := σ) pool.connectPerServer
    rw [hs, hb]
    intro hflag
    cases hflag
  · intro tr s op s' _ ih hstep
    obtain ⟨-, rfl⟩ := hstep
    have hflags := (op.code_tells pool s.info).flags
    have hinfo : (s.exec pool op).info = (op.code pool s.info).1 := rfl
    rw [hinfo, hflags.1, hflags.2]
    cases op with
    | destroy => exact fun _ => rfl
    | _ => exact ih

/-- Nothing is outstanding at the server, and `pool_destroy` has come and gone. -/
structure Srv.Finished (N : Nat) (s : Srv σ) : Prop where
  idle : ∀ j, j < N → s.ghost.conn j = .idle
  wait : s.info.waitingQueue.head = none
  flag : s.info.destroyFlag = true
  monitor : s.info.monitorEvent = false

/-- Only a fetch can still come. -/
theorem Srv.Finished.not_enabled {pool : PoolConf} {d : Nat} {s : Srv σ} {U F W : List Nat}
    (hf : s.Finished pool.slots) (h : s.Inv pool d U F W) {op : SrvOp σ}
    (hen : s.Enabled op) : ∃ y wq now, op = .fetch y wq now := by
  have hslot : ∀ j, s.ghost.conn j = .idle := by
    intro j
    by_cases hj : j < pool.slots
    · exact hf.idle j hj
    · have hs := h.slot j (by simp)
      cases hc : s.ghost.conn j with
      | idle => rfl
      | creating hd => rw [hc] at hs; exact absurd hs.1.1 hj
      | up hd => rw [hc] at hs; exact absurd hs.1.1 hj
      | lost hd => rw [hc] at hs; exact absurd hs.1.1 hj
      | destroying hd => rw [hc] at hs; exact absurd hs.1.1 hj
  cases op with
  | fetch y wq now => exact ⟨y, wq, now, rfl⟩
  | release hd errclose now =>
      obtain ⟨y, hy⟩ := hen
      have hs := h.slot hd.poolData (by simp)
      rw [hslot] at hs
      rw [hs.2.2.2.2] at hy
      cases hy
  | created hd status now =>
      have hc : s.ghost.conn hd.poolData = .creating hd := hen
      rw [hslot] at hc
      cases hc
  | destroyed hd =>
      rcases hen with hc | hc
      · rw [hslot] at hc
        cases hc
      · rw [hslot] at hc
        cases hc
  | waitRm wq =>
      have hm := (h.waitSub wq).1 hen
      rw [h.wait.head_eq_none.1 hf.wait] at hm
      cases hm
  | monitor =>
      have hm : s.info.monitorEvent = true := hen
      rw [hf.monitor] at hm
      cases hm
  | destroy =>
      have hm : s.info.monitorEvent = true := hen
      rw [hf.monitor] at hm
      cases hm

/-- All calls of a run of one server. -/
def srvCalls (pool : PoolConf) (tr : List (Srv σ × SrvOp σ)) : List (Call σ) :=
  tr.flatMap (fun q => (q.2.code pool q.1.info).2)

/-- A step after `pool_destroy` is no fetch. -/
def Srv.NoLateFetch (q : Srv σ × SrvOp σ) : Prop :=
  (∃ y wq now, q.2 = .fetch y wq now) → q.1.info.destroyFlag = false

/-- **One step**: it tears down a server that is not at rest exactly when `Early`
says so. -/
theorem Srv.early_iff {pool : PoolConf} {d : Nat} {s : Srv σ} {U F W : List Nat}
    (h : s.Inv pool d U F W) {op : SrvOp σ} (hen : s.Enabled op) :
    TornBy (op.code pool s.info).2 ∧ ¬ (s.exec pool op).AtRest pool.slots
      ↔ op.Early pool.connectPerServer s := by
  by_cases hop : op = .monitor
  · subst hop
    exact iff_of_false (fun hx => serverConnectMonitor_not_torn pool s.info hx.1) (fun he => he)
  · exact (Srv.exec_outcome h hen hop).early

/-- A tear-down happens only after `pool_destroy`. -/
theorem SrvOp.torn_flag {pool : PoolConf} {t : ServerInfo σ} {op : SrvOp σ}
    (hfreed : t.freed = false) (h : TornBy (op.code pool t).2) :
    (op.code pool t).1.destroyFlag = true := by
  by_cases hop : op = .destroy
  · subst hop
    exact (SrvOp.code_tells pool t .destroy).flags.1
  · cases hflag : t.destroyFlag with
    | false =>
        -- without the flag nothing is torn down
        have hsame := (op.code_flags pool t hflag hop).2.2
        have hno := SrvOp.code_not_destroyed (hsame.trans hfreed)
        exact absurd (hno.symm.trans h) Bool.false_ne_true
    | true =>
        have hflags := (op.code_tells pool t).flags.1
        rw [op.mark_of_ne t hop] at hflags
        exact hflags.trans hflag

/-- A tear-down at rest finishes the server. -/
theorem Srv.finished_of_torn {pool : PoolConf} {d : Nat} {tr : List (Srv σ × SrvOp σ)} {s : Srv σ}
    {U F W : List Nat} (hrun : (srvEnvLts pool σ).Run tr s) (h : s.Inv pool d U F W) {op : SrvOp σ}
    (hen : s.Enabled op) (hfreed : s.info.freed = false) (ht : TornBy (op.code pool s.info).2)
    (hrest : (s.exec pool op).AtRest pool.slots) :
    (s.exec pool op).Finished pool.slots := by
  have hop : op ≠ .monitor := by
    rintro rfl
    exact serverConnectMonitor_not_torn pool s.info ht
  have hdown := (Srv.exec_outcome h hen hop).down ht
  have hflag : (s.exec pool op).info.destroyFlag = true := SrvOp.torn_flag hfreed ht
  refine ⟨?_, hrest.wait, hflag, Srv.env_monitor (hrun.step ⟨hen, rfl⟩) hflag⟩
  intro j hj
  exact Conn.of_not_connected (hdown j hj) (hrest.slots j hj).notCreating

/-- What a run without an early tear-down keeps. -/
structure TeardownInv (pool : PoolConf) (tr : List (Srv σ × SrvOp σ)) (s : Srv σ) : Prop where
  once : (srvCalls pool tr).countP Call.isServerDestroyed = if s.info.freed then 1 else 0
  finished : s.info.freed = true → s.Finished pool.slots

/-- **Run.** -/
theorem TeardownInv.of_run {pool : PoolConf} {tr : List (Srv σ × SrvOp σ)} {s : Srv σ}
    (h : (srvEnvLts pool σ).Run tr s) (hlate : ∀ q ∈ tr, Srv.NoLateFetch q)
    (hearly : ∀ q ∈ tr, ¬ q.2.Early pool.connectPerServer q.1) : TeardownInv pool tr s := by
  revert hlate hearly
  refine h.history (P := fun tr s => (∀ q ∈ tr, Srv.NoLateFetch q) →
    (∀ q ∈ tr, ¬ q.2.Early pool.connectPerServer q.1) → TeardownInv pool tr s) ?_ ?_
  · intro s hs _ _
    obtain ⟨k, e, hb, -⟩ := serverBuild_spec (σ := σ) pool.connectPerServer
    rw [hs, hb]
    refine ⟨rfl, ?_⟩
    intro hfreed
    cases hfreed
  · intro tr s op s' hrun ih hstep hlate hearly
    obtain ⟨U, F, W, hinv⟩ := Srv.env_inv hrun
    obtain ⟨hen, rfl⟩ := hstep
    have hl : ∀ q ∈ tr, Srv.NoLateFetch q := fun q hq => hlate q (List.mem_append_left _ hq)
    have he : ∀ q ∈ tr, ¬ q.2.Early pool.connectPerServer q.1 :=
      fun q hq => hearly q (List.mem_append_left _ hq)
    have hold := ih hl he
    -- a finished server sees no further step
    have hup : s.info.freed = false := by
      cases hfreed : s.info.freed with
      | false => rfl
      | true =>
          have hf := hold.finished hfreed
          have hnot := hlate (s, op) (by simp) (hf.not_enabled hinv hen)
          rw [hf.flag] at hnot
          cases hnot
    have htells := op.code_tells pool s.info
    have hfreed : (s.exec pool op).info.freed
        = (op.code pool s.info).2.any Call.isServerDestroyed := by
      have hf := htells.freed
      rw [op.mark_freed, hup, Bool.false_or] at hf
      exact hf
    refine ⟨?_, ?_⟩
    · have hcalls : srvCalls pool (tr ++ [(s, op)])
          = srvCalls pool tr ++ (op.code pool s.info).2 := by
        unfold srvCalls
        rw [List.flatMap_append, List.flatMap_singleton]
      rw [hcalls, List.countP_append, hold.once, hup, hfreed]
      have hle := htells.once
      cases hany : (op.code pool s.info).2.any Call.isServerDestroyed with
      | false =>
          have hzero : (op.code pool s.info).2.countP Call.isServerDestroyed = 0 := by
            rw [List.countP_eq_zero]
            exact fun c hc hd => by
              rw [List.any_eq_false] at hany
              exact hany c hc hd
          rw [hzero]
          rfl
      | true =>
          have hpos : 0 < (op.code pool s.info).2.countP Call.isServerDestroyed := by
            rw [List.countP_pos_iff]
            exact List.any_eq_true.1 hany
          have hone : (op.code pool s.info).2.countP Call.isServerDestroyed = 1 := by omega
          rw [hone]
          rfl
    · intro hf
      rw [hfreed] at hf
      refine Srv.finished_of_torn hrun hinv hen hup hf ?_
      by_contra hrest
      exact hearly (s, op) (by simp) ((Srv.early_iff hinv hen).1 ⟨hf, hrest⟩)

/-! ## §2. The pool. -/

/-- Once `pool_destroy` was called, nobody fetches from the server. -/
def PoolState.NoLateFetch (p : PoolState σ) : PoolOp σ → Prop
  | .fetch _ _ _ balance serverid =>
      ∀ i, p.pool.pickServer balance serverid = some i → (p.pool.serverArr i).destroyFlag = false
  | _ => True

/-- The entry makes a server tear itself down too early. -/
def PoolState.TearsDownEarly (c : Int) (p : PoolState σ) : PoolOp σ → Prop
  | .server i op => op.Early c (p.srv i)
  | _ => False

/-- Server `i` was torn down at most once in the run `tr`, and only at rest. -/
def TornOnceAtRest (N : Nat) (i : Nat) (tr : List (PoolState σ × PoolOp σ)) : Prop :=
  (serverCalls i (runCalls tr)).countP Call.isServerDestroyed ≤ 1
    ∧ ∀ q ∈ tr, (i, Call.serverDestroyed) ∈ q.1.callsOf q.2 →
      ((q.1.exec q.2).srv i).AtRest N

/-- What server `i` calls in a run is what its own run calls. -/
theorem serverCalls_runCalls {conf : PoolConf} (i : Nat) {tr : List (PoolState σ × PoolOp σ)}
    (hconf : ∀ q ∈ tr, q.1.pool.conf = conf) :
    serverCalls i (runCalls tr) = srvCalls conf (srvTrace i tr) := by
  induction tr with
  | nil => rfl
  | cons q tr ih =>
      have ih := ih (fun q' hq' => hconf q' (List.mem_cons_of_mem q hq'))
      have hq := hconf q List.mem_cons_self
      unfold runCalls srvCalls srvTrace at ih ⊢
      rw [List.flatMap_cons, serverCalls_append, ih, q.1.callsOf_serverCalls q.2 i, hq,
        List.filterMap_cons]
      cases q.2.onto q.1 i with
      | none => rfl
      | some sop => rfl

/-- The settings of a pool never change. -/
theorem PoolState.env_conf {n : Nat} {N retry : Int} {tr : List (PoolState σ × PoolOp σ)}
    {p : PoolState σ} (h : (poolEnvLts σ n N retry).Run tr p) :
    ∀ q ∈ tr, q.1.pool.conf = buildConf N retry := by
  refine h.history (P := fun tr _ => ∀ q ∈ tr, q.1.pool.conf = buildConf N retry) ?_ ?_
  · intro p _ q hq
    cases hq
  · intro tr p op p' hrun ih _ q hq
    rcases List.mem_append.1 hq with hq | hq
    · exact ih q hq
    · rw [List.mem_singleton.1 hq]
      exact (PoolState.env_srv hrun 0).2.1

/-- A step of server `i` is a step of the pool. -/
theorem mem_srvTrace {i : Nat} {tr : List (PoolState σ × PoolOp σ)} {q : Srv σ × SrvOp σ} :
    q ∈ srvTrace i tr ↔ ∃ q' ∈ tr, q'.2.onto q'.1 i = some q.2 ∧ q.1 = q'.1.srv i := by
  unfold srvTrace
  rw [List.mem_filterMap]
  constructor
  · rintro ⟨q', hq', hmap⟩
    obtain ⟨sop, hon, rfl⟩ := Option.map_eq_some_iff.1 hmap
    exact ⟨q', hq', hon, rfl⟩
  · rintro ⟨q', hq', hon, hs⟩
    refine ⟨q', hq', ?_⟩
    rw [hon, Option.map_some, ← hs]

/-- An early tear-down of server `i` is one of the pool. -/
theorem PoolState.tearsDownEarly_iff {c : Int} {p : PoolState σ} {op : PoolOp σ} :
    p.TearsDownEarly c op ↔ ∃ i sop, op.onto p i = some sop ∧ sop.Early c (p.srv i) := by
  cases op with
  | fetch y wq now balance serverid =>
      refine iff_of_false (fun h => h) ?_
      rintro ⟨i, sop, hon, he⟩
      simp only [PoolOp.onto] at hon
      split at hon <;> cases hon
      exact he
  | server k op =>
      simp only [PoolOp.onto, PoolState.TearsDownEarly]
      constructor
      · intro he
        exact ⟨k, op, if_pos rfl, he⟩
      · rintro ⟨i, sop, hon, he⟩
        split at hon
        · rename_i hk
          cases hon
          rw [hk]
          exact he
        · cases hon
  | destroy =>
      refine iff_of_false (fun h => h) ?_
      rintro ⟨i, sop, hon, he⟩
      simp only [PoolOp.onto] at hon
      split at hon <;> cases hon
      exact he

/-- Server `i` tears itself down in its own step. -/
theorem PoolState.mem_callsOf_torn {p : PoolState σ} {op : PoolOp σ} {i : Nat} :
    (i, Call.serverDestroyed) ∈ p.callsOf op
      ↔ ∃ sop, op.onto p i = some sop ∧ TornBy (sop.code p.pool.conf (p.srv i).info).2 := by
  rw [p.mem_callsOf op i rfl]
  have hany : ∀ calls : List (Call σ), Call.serverDestroyed ∈ calls ↔ TornBy calls := by
    intro calls
    rw [TornBy, List.any_eq_true]
    constructor
    · intro hm
      exact ⟨_, hm, rfl⟩
    · rintro ⟨c, hm, hc⟩
      cases c with
      | serverDestroyed => exact hm
      | _ => cases hc
  simp only [hany]
  exact Iff.rfl

/-- What the callers promise a pool, they promise the server it picks. -/
theorem PoolState.NoLateFetch.onto {p : PoolState σ} {op : PoolOp σ} (h : p.NoLateFetch op)
    {i : Nat} {y : σ} {wq : Nat} {now : Timeval} (hon : op.onto p i = some (.fetch y wq now))
    (hcb : ∀ k sop, op = .server k sop → sop.IsCallback) :
    (p.srv i).info.destroyFlag = false := by
  cases op with
  | fetch y' wq' now' balance serverid =>
      simp only [PoolOp.onto] at hon
      split at hon
      · rename_i hpick
        exact h i hpick
      · cases hon
  | server k sop =>
      simp only [PoolOp.onto] at hon
      split at hon
      · cases hon
        exact absurd (hcb k _ rfl) id
      · cases hon
  | destroy =>
      simp only [PoolOp.onto] at hon
      split at hon <;> cases hon

/-- Every step of a run finds server `i` in order, is promised to it, and leaves
what the server's own step leaves. -/
theorem PoolState.env_step {n : Nat} {N retry : Int} {tr : List (PoolState σ × PoolOp σ)}
    {p : PoolState σ} (h : (poolEnvLts σ n N retry).Run tr p) :
    ∀ {q : PoolState σ × PoolOp σ}, q ∈ tr → ∀ {i : Nat} {sop : SrvOp σ},
      q.2.onto q.1 i = some sop →
      (∃ d U F W, (q.1.srv i).Inv (buildConf N retry) d U F W) ∧ (q.1.srv i).Enabled sop
        ∧ (q.1.exec q.2).srv i = (q.1.srv i).exec (buildConf N retry) sop
        ∧ q.1.Promised q.2 := by
  refine h.history (P := fun tr _ => ∀ {q : PoolState σ × PoolOp σ}, q ∈ tr →
    ∀ {i : Nat} {sop : SrvOp σ}, q.2.onto q.1 i = some sop →
      (∃ d U F W, (q.1.srv i).Inv (buildConf N retry) d U F W) ∧ (q.1.srv i).Enabled sop
        ∧ (q.1.exec q.2).srv i = (q.1.srv i).exec (buildConf N retry) sop
        ∧ q.1.Promised q.2) ?_ ?_
  · intro p _ q hq
    cases hq
  · intro tr p op p' hrun ih hstep q hq i sop hon
    rcases List.mem_append.1 hq with hq | hq
    · exact ih hq hon
    · rw [List.mem_singleton.1 hq] at hon ⊢
      obtain ⟨hsrv, hconf, hbuilt, hcount⟩ := PoolState.env_srv hrun i
      obtain ⟨hen, -⟩ := hstep
      rw [← hbuilt] at hcount
      obtain ⟨U, F, W, hinv⟩ := Srv.env_inv hsrv
      refine ⟨⟨_, U, F, W, hinv⟩, (hen.onto hcount hon).2, ?_, hen⟩
      rw [(p.exec_srv op i).1, hon, hconf]
      rfl

/-- Each server is torn down once and only at rest, if no step tears it down early. -/
theorem PoolState.torn_quiet_iff {n : Nat} {c retry : Int} {tr : List (PoolState σ × PoolOp σ)}
    {p : PoolState σ} (h : ((poolEnvLts σ n c retry).restrict PoolState.NoLateFetch).Run tr p) :
    (∀ i, TornOnceAtRest c.toNat i tr) ↔ ∀ q ∈ tr, ¬ q.1.TearsDownEarly c q.2 := by
  obtain ⟨hrun, hlate⟩ := h.of_restrict
  constructor
  · intro hall q hq he
    obtain ⟨i, sop, hon, he⟩ := PoolState.tearsDownEarly_iff.1 he
    obtain ⟨⟨d, U, F, W, hinv⟩, hen, hexec, -⟩ := PoolState.env_step hrun hq hon
    obtain ⟨ht, hrest⟩ := (Srv.early_iff hinv hen).2 he
    have hconf := PoolState.env_conf hrun q hq
    refine hrest ?_
    rw [← hexec]
    refine (hall i).2 q hq (PoolState.mem_callsOf_torn.2 ⟨sop, hon, ?_⟩)
    rw [hconf]
    exact ht
  · intro hno i
    have hsrv := (PoolState.env_srv hrun i).1
    have hinv := TeardownInv.of_run hsrv ?_ ?_
    · refine ⟨?_, ?_⟩
      · rw [serverCalls_runCalls i (PoolState.env_conf hrun), hinv.once]
        split <;> omega
      · intro q hq hc
        obtain ⟨sop, hon, ht⟩ := PoolState.mem_callsOf_torn.1 hc
        obtain ⟨⟨d, U, F, W, hinv⟩, hen, hexec, -⟩ := PoolState.env_step hrun hq hon
        rw [PoolState.env_conf hrun q hq] at ht
        rw [hexec]
        by_contra hrest
        have he := (Srv.early_iff hinv hen).1 ⟨ht, hrest⟩
        exact hno q hq (PoolState.tearsDownEarly_iff.2 ⟨i, sop, hon, he⟩)
    · intro q hq
      obtain ⟨q', hq', hon, hs⟩ := mem_srvTrace.1 hq
      rintro ⟨y, wq, now, hop⟩
      rw [hop] at hon
      rw [hs]
      exact (hlate q' hq').onto hon (PoolState.env_step hrun hq' hon).2.2.2.isCallback
    · intro q hq he
      obtain ⟨q', hq', hon, hs⟩ := mem_srvTrace.1 hq
      rw [hs] at he
      exact hno q' hq' (PoolState.tearsDownEarly_iff.2 ⟨i, q.2, hon, he⟩)

/-- **A server is torn down once and only when it is quiet, and alone, if and only if
no step tears it down early and none tears down one of several.**  In every run of a
pool that is not fetched from after `pool_destroy`: a failed creation must not find
somebody waiting when it returns the last slot, the report on the last connection
must find neither somebody waiting nor a creation pending, and the pool must have
one server, for the first tear-down releases the others with it. -/
theorem pool_torn_quiet_iff {n : Nat} {c retry : Int} {tr : List (PoolState σ × PoolOp σ)}
    {p : PoolState σ} (h : ((poolEnvLts σ n c retry).restrict PoolState.NoLateFetch).Run tr p) :
    ((∀ i, TornOnceAtRest c.toNat i tr) ∧ p.pool.Intact n)
      ↔ ∀ q ∈ tr, ¬ q.1.TearsDownEarly c q.2 ∧ ¬ q.1.Faults q.2 := by
  rw [PoolState.torn_quiet_iff h, PoolState.intact_iff h.of_restrict.1]
  exact forall₂_and.symm

/-- A request waits for the only slot, `pool_destroy` is called, and the creation
fails. -/
def lateFailOps : List (PoolOp Nat) :=
  [.fetch 7 0 {} (fun _ => 0) 0, .destroy, .server 0 (.created ⟨0, 0⟩ 1 {})]

theorem lateFailOps_run : ((poolEnvLts Nat 1 1 0).restrict PoolState.NoLateFetch).Run
    (Lts.traceAll PoolState.exec (PoolState.start 1 1 0) lateFailOps) (oneSlotPool lateFailOps) := by
  have hfetch : (PoolState.start 1 1 0 : PoolState Nat).Promised (.fetch 7 0 {} (fun _ => 0) 0) := by
    intro i hi
    have hi0 : some 0 = some i := hi
    cases hi0
    refine ⟨by decide, rfl, ?_⟩
    intro k hk
    cases hk
  have hlate : (PoolState.start 1 1 0 : PoolState Nat).NoLateFetch (.fetch 7 0 {} (fun _ => 0) 0) := by
    intro i hi
    have hi0 : some 0 = some i := hi
    cases hi0
    rfl
  have hdes : (oneSlotPool (lateFailOps.take 1)).Promised .destroy := by
    intro i hi
    have hi0 : i = 0 := Nat.lt_one_iff.1 hi
    rw [hi0]
    rfl
  have hall : Lts.AllEnabled PoolState.exec (fun p op => p.Promised op ∧ p.NoLateFetch op)
      (PoolState.start 1 1 0) lateFailOps :=
    ⟨⟨hfetch, hlate⟩, ⟨hdes, trivial⟩, ⟨⟨trivial, by decide, rfl⟩, trivial⟩, trivial⟩
  have hstep : ∀ (p : PoolState Nat) op, p.Promised op ∧ p.NoLateFetch op →
      ((poolEnvLts Nat 1 1 0).restrict PoolState.NoLateFetch).step p op (p.exec op) :=
    fun _ _ hen => ⟨⟨hen.1, rfl⟩, hen.2⟩
  exact Lts.Run.execAll hstep lateFailOps (.init rfl) hall

/-- The failed creation tears the server down although the request still waits. -/
theorem pool_torn_while_waiting :
    ¬ ∀ (tr : List (PoolState Nat × PoolOp Nat)) (p : PoolState Nat),
      ((poolEnvLts Nat 1 1 0).restrict PoolState.NoLateFetch).Run tr p →
        (∀ i, TornOnceAtRest 1 i tr) ∧ p.pool.Intact 1 := by
  intro hall
  have hrest := ((hall _ _ lateFailOps_run).1 0).2
    (oneSlotPool (lateFailOps.take 2), .server 0 (.created ⟨0, 0⟩ 1 {}))
    (List.mem_cons_of_mem _ (List.mem_cons_of_mem _ (List.mem_singleton_self _)))
    (List.mem_cons_self)
  have hwait : (some 0 : Option Nat) = none := hrest.wait
  cases hwait

/-- Nothing is outstanding when `pool_destroy` comes: the run has one quiet
tear-down. -/
theorem pool_torn_quiet_iff_witness :
    ((∀ i, TornOnceAtRest 1 i [((PoolState.start 1 1 0 : PoolState Nat), PoolOp.destroy)])
        ∧ (oneSlotPool [.destroy]).pool.Intact 1)
      ↔ ∀ q ∈ [((PoolState.start 1 1 0 : PoolState Nat), PoolOp.destroy)],
        ¬ q.1.TearsDownEarly 1 q.2 ∧ ¬ q.1.Faults q.2 := by
  have hdes : (PoolState.start 1 1 0 : PoolState Nat).Promised .destroy := by
    intro i _
    rfl
  exact pool_torn_quiet_iff ((Lts.Run.init
    (M := (poolEnvLts Nat 1 1 0).restrict PoolState.NoLateFetch) rfl).step ⟨⟨hdes, rfl⟩, trivial⟩)

end RedisAgent
