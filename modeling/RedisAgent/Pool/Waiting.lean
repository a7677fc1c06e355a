/-
  RedisAgent.Pool.Waiting — the waiting queue of a server is a first-in first-out
  queue.

  `FifoLog` says what a queue must hold after a history.  Here it is proved that
  the pointers of the waiting queue spell exactly that, after any run of a pool:
  a simulation of the pointer code by the abstract queue, one `FifoLog` rule for
  each `Effect`.
-/
import RedisAgent.Pool.Reach

namespace RedisAgent

open Links

variable {σ : Type*}

/-- Writing one entry of `waitSub` is not seen by the other nodes. -/
theorem map_update_of_not_mem {W : List Nat} {f : Nat → Option σ} {a : Nat} {v : Option σ}
    (ha : a ∉ W) : W.map (Function.update f a v) = W.map f := by
  apply List.map_congr_left
  intro b hb
  have hba : b ≠ a := fun he => ha (he ▸ hb)
  rw [Function.update_of_ne hba]

variable [DecidableEq σ]

/-- The waiting nodes `W` hold the sub-requests a queue must hold after what
happened at the server. -/
def Srv.WaitsInOrder (s : Srv σ) (W : List Nat) : Prop :=
  ∃ ws, W.map s.info.waitSub = ws.map some ∧ FifoLog s.ghost.hist ws

/-- **One step** of the simulation. -/
theorem Effect.waitsInOrder {s s' : Srv σ} {op : SrvOp σ} {calls : List (Call σ)}
    {W W' : List Nat} (h : Effect s op s' calls W W') (hen : s.Enabled op)
    (hW : ∀ a, s.info.waitSub a ≠ none ↔ a ∈ W) (hnd : W.Nodup) (hinv : s.WaitsInOrder W) :
    s'.WaitsInOrder W' := by
  obtain ⟨ws, hmap, hlog⟩ := hinv
  cases h with
  | quiet _ hws _ hhist _ => exact ⟨ws, by rw [hws]; exact hmap, by rw [hhist]; exact hlog⟩
  | granted a hd y _ hy _ hws _ hhist _ =>
      obtain ⟨haW, -⟩ := List.nodup_cons.1 hnd
      cases ws with
      | nil => simp at hmap
      | cons x ws =>
          rw [List.map_cons, List.map_cons, List.cons.injEq] at hmap
          obtain ⟨hx, hmap⟩ := hmap
          rw [hy, Option.some.injEq] at hx
          subst hx
          refine ⟨ws, ?_, by rw [hhist]; exact hlog.serve⟩
          rw [hws, map_update_of_not_mem haW]
          exact hmap
  | direct hd y wq now _ hws _ hhist _ =>
      have hnil : ws = [] := List.map_eq_nil_iff.1 hmap.symm
      subst hnil
      exact ⟨[], rfl, by rw [hhist]; exact hlog.serveNew hen.2⟩
  | queued y wq now hws _ hhist _ =>
      have haW : wq ∉ W := by
        intro hm
        exact (hW wq).2 hm hen.1
      refine ⟨ws ++ [y], ?_, by rw [hhist]; exact hlog.queue hen.2⟩
      rw [hws, List.map_append, List.map_append, map_update_of_not_mem haW, hmap]
      simp
  | removed wq y hy hws _ hhist _ =>
      have hm : wq ∈ W := (hW wq).1 (by rw [hy]; simp)
      obtain ⟨l, r, rfl⟩ := List.append_of_mem hm
      obtain ⟨-, hcons, hdisj⟩ := List.nodup_append.1 hnd
      have hl : wq ∉ l := fun hm => hdisj wq hm wq List.mem_cons_self rfl
      have hr : wq ∉ r := (List.nodup_cons.1 hcons).1
      -- the sub-requests split where the nodes do
      rw [List.map_append, List.map_cons, hy] at hmap
      obtain ⟨xs, zs, rfl, hxs, hzs⟩ := List.append_eq_map_iff.1 hmap
      cases zs with
      | nil => simp at hzs
      | cons x ys =>
          rw [List.map_cons, List.cons.injEq, Option.some.injEq] at hzs
          obtain ⟨rfl, hys⟩ := hzs
          refine ⟨xs ++ ys, ?_, by rw [hhist]; exact hlog.remove⟩
          rw [List.erase_append_right _ hl, List.erase_cons_head, hws, List.map_append,
            map_update_of_not_mem hl, map_update_of_not_mem hr, List.map_append, hxs, hys]

/-- **A whole run** of one server. -/
theorem Srv.run_waitsInOrder {pool : PoolConf} {tr : List (Srv σ × SrvOp σ)} {s : Srv σ}
    (h : (srvLts pool σ).Run tr s) :
    ∃ d U F W, s.Inv pool d U F W ∧ s.WaitsInOrder W := by
  refine h.history (P := fun _ s => ∃ d U F W, s.Inv pool d U F W ∧ s.WaitsInOrder W) ?_ ?_
  · intro s hs
    rw [hs]
    exact ⟨_, _, _, _, serverBuild_inv pool, [], rfl, FifoLog.nil⟩
  · intro tr s op s' _ ih hstep
    obtain ⟨d, U, F, W, hinv, hord⟩ := ih
    obtain ⟨-, hen, rfl⟩ := hstep
    obtain ⟨U', F', W', h1, heff⟩ := Srv.exec_inv hinv hen
    exact ⟨_, U', F', W', h1, heff.waitsInOrder hen hinv.waitSub hinv.wait.nodup hord⟩

/-- **Waiting requests are served in order and exactly once.**  At every server,
after every run of a pool: the waiting queue holds, in arrival order, the
sub-requests queued so far less those called and those removed (`waiting`); no
callback runs twice, and none for a removed sub-request (`FifoLog`); and the
callbacks of queued sub-requests ran in arrival order (`FifoLog.inOrder`). -/
theorem pool_waiting_fifo {serverCount N : Nat} {retry : Int}
    {tr : List (PoolState σ × PoolOp σ)} {p : PoolState σ}
    (h : (poolLts σ serverCount N retry).Run tr p) (i : Nat) :
    ∃ W ws, IsQueue (p.pool.serverArr i).waitLinks (p.pool.serverArr i).waitingQueue W
      ∧ W.map (p.pool.serverArr i).waitSub = ws.map some
      ∧ ws = (WaitEvent.queuedSubs (p.ghost i).hist).filter (fun x =>
          x ∉ WaitEvent.calledSubs (p.ghost i).hist ∧ x ∉ WaitEvent.removedSubs (p.ghost i).hist)
      ∧ FifoLog (p.ghost i).hist ws := by
  obtain ⟨d, U, F, W, hinv, ws, hmap, hlog⟩ := Srv.run_waitsInOrder (PoolState.run_srv h i).1
  exact ⟨W, ws, hinv.wait, hmap, hlog.waiting, hlog⟩

/-- Two sub-requests wait at a one-slot pool; the first is removed, and the
connection goes to the second. -/
def removeFirstOps : List (PoolOp Nat) :=
  [.fetch 7 0 {} (fun _ => 0) 0, .fetch 8 1 {} (fun _ => 0) 0, .server 0 (.waitRm 0),
    .server 0 (.created ⟨0, 0⟩ 0 {})]

theorem removeFirstOps_enabled :
    (PoolState.start 1 1 0 : PoolState Nat).AllEnabled removeFirstOps := by
  refine ⟨?_, ?_, ⟨trivial, ⟨by decide, rfl⟩, Option.some_ne_none 7⟩,
    ⟨trivial, ⟨by decide, rfl⟩, rfl⟩, trivial⟩
  · intro i hi
    have hi0 : some 0 = some i := hi
    cases hi0
    exact ⟨⟨by decide, rfl⟩, rfl, fun k => List.not_mem_nil⟩
  · intro i hi
    have hi0 : some 0 = some i := hi
    cases hi0
    refine ⟨⟨by decide, rfl⟩, rfl, ?_⟩
    intro k
    cases k with
    | zero =>
        show 8 ∉ [7]
        decide
    | succ k => exact List.not_mem_nil

theorem pool_waiting_fifo_witness :
    ∃ W ws, IsQueue (((PoolState.start 1 1 0 : PoolState Nat).execAll
          removeFirstOps).pool.serverArr 0).waitLinks
        (((PoolState.start 1 1 0 : PoolState Nat).execAll
          removeFirstOps).pool.serverArr 0).waitingQueue W
      ∧ W.map (((PoolState.start 1 1 0 : PoolState Nat).execAll
          removeFirstOps).pool.serverArr 0).waitSub = ws.map some
      ∧ ws = ([7, 8] : List Nat).filter (fun x => x ∉ [8] ∧ x ∉ [7])
      ∧ FifoLog [.queued 7, .queued 8, .removed 7, .called 8] ws :=
  pool_waiting_fifo (PoolState.run_of_allEnabled removeFirstOps_enabled) 0

end RedisAgent
