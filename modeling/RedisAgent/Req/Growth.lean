/-
  RedisAgent.Req.Growth — what a step of the proxy adds to the history.

  The history only grows, and request names are given out by `req_ready` alone.  With the
  invariant of the table this says which requests are in memory: those that were made
  and not answered, and a step takes out exactly those it answers.

  Main results:
    • `Proxy.exec_grows`, `Proxy.exec_creates` — the two kinds of steps;
    • `Proxy.Inv.alive_iff` — who is in memory;
    • `Proxy.Inv.answers` — what a step answers was in memory, and leaves it.
-/
import RedisAgent.Req.Standing

namespace RedisAgent

variable {ν : Type*}

/-! ## §1. The history grows. -/

/-- Nothing is forgotten, and no name given out. -/
structure ReqTable.Grows (t t' : ReqTable ν) : Prop where
  hist : t.hist <+: t'.hist
  nextReq : t'.nextReq = t.nextReq

namespace ReqTable.Grows

variable {t t' t'' : ReqTable ν}

theorem refl (t : ReqTable ν) : t.Grows t := ⟨List.prefix_rfl, rfl⟩

theorem note (h : t.Grows t') (e : Event) : t.Grows (t'.note e) :=
  ⟨h.hist.trans (List.prefix_append _ _), h.nextReq⟩

/-- The events and the names are those of another table. -/
theorem same (h : t.Grows t') (hhist : t''.hist = t'.hist) (hnext : t''.nextReq = t'.nextReq) :
    t.Grows t'' := by
  refine ⟨?_, hnext.trans h.nextReq⟩
  rw [hhist]
  exact h.hist

theorem reqDone (h : t.Grows t') (r : Nat) : t.Grows (t'.reqDone r) := by
  unfold ReqTable.reqDone
  split
  · exact h
  · rename_i q _
    split
    · exact h
    · have hset : t.Grows (t'.setReq r (some { q with reqDoneCalled := true })) := h.same rfl rfl
      exact (hset.note (.done r q.errNo)).same rfl rfl

theorem reqFail (h : t.Grows t') (r : Nat) : t.Grows (t'.reqFail r) := by
  unfold ReqTable.reqFail
  have hmod : t.Grows (t'.modReq r fun q =>
      { q with errNo := if q.errNo = 0 then storeErrInternalError else q.errNo }) := h.same rfl rfl
  exact hmod.reqDone r

theorem shardCountDown (h : t.Grows t') (r : Nat) : t.Grows (t'.shardCountDown r) := by
  unfold ReqTable.shardCountDown
  split
  · exact h
  · rename_i q _
    have hset : t.Grows (t'.setReq r (some { q with shardCount := q.shardCount - 1 })) :=
      h.same rfl rfl
    simp only
    split
    · exact hset.reqDone r
    · exact hset

theorem reqOnAcquired (h : t.Grows t') (handle : Option ConnRef) (sub : Nat) :
    t.Grows (t'.reqOnAcquired handle sub) := by
  unfold ReqTable.reqOnAcquired
  have hmod : t.Grows (t'.modSub sub fun sr =>
      { sr with handle := handle, state := .poolReturned }) := h.same rfl rfl
  exact (hmod.note _).same rfl rfl

/-- The callbacks of a pool, one after the other. -/
theorem onPool {s : Proxy ν} (h : t.Grows s.table) (k i : Nat) (op : SrvOp Nat) :
    t.Grows (s.onPool k i op).table := by
  have hall : ∀ (calls : List (Option Handle × Nat)) (t' : ReqTable ν), t.Grows t' →
      t.Grows (calls.foldl (fun t c => t.reqOnAcquired (c.1.map (ConnRef.mk k i)) c.2) t') := by
    intro calls
    induction calls with
    | nil =>
        intro t' ht
        exact ht
    | cons c calls ih =>
        intro t' ht
        exact ih _ (ht.reqOnAcquired _ _)
  rw [Proxy.onPool_table]
  exact hall _ _ h

end ReqTable.Grows

/-! ## §2. One step. -/

/-- The two ways into `req_ready`. -/
def ProxyStep.Creates : ProxyStep ν → Prop
  | .ready .. | .reject _ => True
  | _ => False

open ReqTable

theorem Proxy.reqOnGetshards_grows (s : Proxy ν) (r : Nat) (c : ShardCall ν Nat)
    (env : Proxy.FetchEnv) : s.table.Grows (s.reqOnGetshards r c env).table := by
  unfold reqOnGetshards
  split
  · exact Grows.refl _
  · rename_i q _
    have hissue : s.table.Grows (s.table.issue r q c) := ⟨List.prefix_append _ _, rfl⟩
    simp only
    split
    · have hmod : s.table.Grows ((s.table.issue r q c).modReq r fun q =>
          { q with errNo := storeErrServiceUnavailable }) := hissue.same rfl rfl
      exact (hmod.note _).shardCountDown _
    · unfold poolFetchConnect
      refine Grows.onPool ?_ _ _ _
      exact hissue.same rfl rfl

theorem Proxy.acquireStep_grows (s : Proxy ν) (r : Nat) (env : Proxy.FetchEnv)
    (todo : List (ShardEvent ν Nat)) : s.table.Grows (s.acquireStep r env todo).table := by
  unfold acquireStep
  split
  · exact ⟨List.prefix_rfl, rfl⟩
  · exact ⟨List.prefix_rfl, rfl⟩
  · rename_i c todo
    have hcall := reqOnGetshards_grows { s with table := { s.table with
        handler := .acquireShards r todo } } r c env
    exact ⟨hcall.hist, hcall.nextReq⟩

theorem Proxy.reqOnShardDone_grows (s : Proxy ν) (sub : Nat) (errNo : Int) (now : Timeval) :
    s.table.Grows (s.reqOnShardDone sub errNo now).table := by
  unfold reqOnShardDone
  split
  · exact Grows.refl _
  · split
    · exact Grows.refl _
    · rename_i sr _ _ q _
      have hbegin : s.table.Grows (s.table.shardDoneBegin sub sr q) :=
        ⟨List.prefix_append _ _, rfl⟩
      simp only
      split
      · exact hbegin
      · exact Grows.onPool (hbegin.note _) _ _ _

theorem Proxy.cleanupPass_grows (s : Proxy ν) (r : Nat) :
    s.table.Grows (s.cleanupPass r).table := by
  unfold cleanupPass
  split
  · exact Grows.refl _
  · rename_i q _
    split
    · exact ((Grows.refl _).reqFail r).same rfl rfl
    · rename_i x _
      have hpop : s.table.Grows (s.table.pop r q x) := ⟨List.prefix_append _ _, rfl⟩
      simp only
      split
      · exact hpop
      · split
        · unfold cleanupWaiting
          split
          · exact (hpop.note _).same rfl rfl
          · exact ((Grows.onPool (hpop.note _) _ _ _).note _).same rfl rfl
        · exact hpop.same rfl rfl
        · exact hpop

/-- **A step that makes no request.** -/
theorem Proxy.exec_grows {s : Proxy ν} {l : ProxyStep ν} (hl : ¬ l.Creates) :
    s.table.Grows (s.exec l).table := by
  cases l with
  | ready g m keyNum isRead => exact absurd trivial hl
  | reject errNo => exact absurd trivial hl
  | acquire env =>
      unfold exec
      simp only
      split
      · exact s.acquireStep_grows _ _ _
      · exact Grows.refl _
  | callReturn ret =>
      unfold exec
      simp only
      split
      · unfold ReqTable.callReturned
        split
        · exact ⟨List.prefix_append _ _, rfl⟩
        · exact ⟨List.prefix_rfl, rfl⟩
      · exact Grows.refl _
  | shardDone x errNo now => exact s.reqOnShardDone_grows x errNo now
  | releaseReturn =>
      unfold exec
      simp only
      split
      · rename_i r x stack _
        have hset : s.table.Grows ({ s.table with stack := stack }.setSub x none) :=
          ⟨List.prefix_rfl, rfl⟩
        exact hset.shardCountDown r
      · exact Grows.refl _
  | timeout r => exact ⟨List.prefix_append _ _, rfl⟩
  | cleanup =>
      unfold exec
      simp only
      split
      · exact s.cleanupPass_grows _
      · exact Grows.refl _
  | timeoutReturn =>
      unfold exec
      simp only
      split
      · exact ⟨List.prefix_rfl, rfl⟩
      · exact Grows.refl _
  | pool k i op => exact Grows.onPool (Grows.refl _) k i op
  | poolDestroy k => exact Grows.refl _

/-- **A step that makes one.** -/
theorem Proxy.exec_creates {s : Proxy ν} {l : ProxyStep ν} (hl : l.Creates) :
    s.table.hist <+: (s.exec l).table.hist
      ∧ (s.exec l).table.nextReq = s.table.nextReq + 1 := by
  have hmade : s.table.hist <+: s.table.reqCreate.hist := List.prefix_append _ _
  cases l with
  | ready g m keyNum isRead => exact ⟨hmade, rfl⟩
  | reject errNo =>
      have hmod : s.table.reqCreate.Grows (s.table.reqCreate.modReq s.table.nextReq fun q =>
          { q with errNo := errNo }) := ⟨List.prefix_rfl, rfl⟩
      have hfail := hmod.reqFail s.table.nextReq
      exact ⟨hmade.trans hfail.hist, hfail.nextReq⟩
  | _ => exact hl.elim

/-! ## §3. Who is in memory. -/

/-- The request that `req_done` has answered. -/
def Event.doneOf : Event → Option Nat
  | .done r _ => some r
  | _ => none

/-- The requests answered so far, in order. -/
def answeredIn (hist : List Event) : List Nat := hist.filterMap Event.doneOf

/-- Those that a step has answered. -/
def answeredBetween (hist hist' : List Event) : List Nat := answeredIn (hist'.drop hist.length)

theorem answeredIn_between {hist hist' : List Event} (h : hist <+: hist') :
    answeredIn hist' = answeredIn hist ++ answeredBetween hist hist' := by
  obtain ⟨new, rfl⟩ := h
  unfold answeredBetween answeredIn
  rw [List.drop_left, List.filterMap_append]

theorem count_answeredIn (hist : List Event) (r : Nat) :
    (answeredIn hist).count r = hist.countP (Event.isDone r) := by
  induction hist with
  | nil => rfl
  | cons e hist ih =>
      unfold answeredIn at ih ⊢
      cases e with
      | done r' err =>
          rw [List.filterMap_cons_some (by rfl), List.count_cons, List.countP_cons, ih]
          simp only [Event.isDone, decide_eq_true_eq, beq_iff_eq]
      | _ =>
          rw [List.filterMap_cons_none (by rfl), List.countP_cons_of_neg (by exact Bool.false_ne_true)]
          exact ih

namespace Proxy

variable {s : Proxy ν} {L : Nat → List Nat}

theorem Inv.answered_iff (h : s.Inv L) (r : Nat) :
    r ∈ answeredIn s.table.hist ↔ ∃ late, s.table.reqFate r = .answered late := by
  have hcount := count_done h.table.reqLawful r
  have hlife : reqLife.life s.table.hist r = s.table.reqFate r := rfl
  rw [← List.count_pos_iff, count_answeredIn, hcount, hlife]
  cases s.table.reqFate r with
  | answered late => exact iff_of_true Nat.one_pos ⟨late, rfl⟩
  | _ =>
      refine iff_of_false (Nat.lt_irrefl 0) ?_
      rintro ⟨late, hlate⟩
      cases hlate

/-- A request is answered once. -/
theorem Inv.answered_nodup (h : s.Inv L) : (answeredIn s.table.hist).Nodup := by
  refine List.nodup_iff_count_le_one.2 (fun r => ?_)
  rw [count_answeredIn, count_done h.table.reqLawful]
  split
  · exact Nat.le_refl 1
  · exact Nat.zero_le 1

/-- **Who is in memory**: who was made and not answered. -/
theorem Inv.alive_iff (h : s.Inv L) (r : Nat) :
    s.table.reqs r ≠ none ↔ r < s.table.nextReq ∧ r ∉ answeredIn s.table.hist := by
  rw [h.answered_iff]
  have hfresh := h.table.reqFresh r
  cases h.table.req r with
  | gone hnone _ _ hfate =>
      refine iff_of_false (fun hne => hne hnone) ?_
      rintro ⟨hlt, hno⟩
      rcases hfate with hunborn | hanswered
      · have := hfresh.1 hunborn
        omega
      · exact hno hanswered
  | running q hsome _ _ _ hfate _ _ =>
      refine iff_of_true (by rw [hsome]; exact Option.some_ne_none q) ⟨?_, ?_⟩
      · by_contra hge
        have hunborn := hfresh.2 (by omega)
        rw [hfate] at hunborn
        cases hunborn
      · rintro ⟨late, hlate⟩
        rw [hfate] at hlate
        cases hlate
  | late q hsome _ _ hfate _ =>
      refine iff_of_true (by rw [hsome]; exact Option.some_ne_none q) ⟨?_, ?_⟩
      · by_contra hge
        have hunborn := hfresh.2 (by omega)
        rw [hfate] at hunborn
        cases hunborn
      · rintro ⟨late, hlate⟩
        rw [hfate] at hlate
        cases hlate

/-- An answered request was made. -/
theorem Inv.answered_lt (h : s.Inv L) {r : Nat} (hr : r ∈ answeredIn s.table.hist) :
    r < s.table.nextReq := by
  obtain ⟨late, hlate⟩ := (h.answered_iff r).1 hr
  by_contra hge
  have hunborn := (h.table.reqFresh r).2 (by omega)
  rw [hlate] at hunborn
  cases hunborn

/-- **What a step answers** was in memory or was just made, and is answered once; who is
in memory afterwards is the rest. -/
theorem Inv.answers {s' : Proxy ν} {L' : Nat → List Nat} (h' : s'.Inv L')
    (hhist : s.table.hist <+: s'.table.hist) :
    (answeredBetween s.table.hist s'.table.hist).Nodup
      ∧ (∀ r ∈ answeredBetween s.table.hist s'.table.hist,
          r < s'.table.nextReq ∧ r ∉ answeredIn s.table.hist)
      ∧ ∀ r, s'.table.reqs r ≠ none ↔ (r < s'.table.nextReq ∧ r ∉ answeredIn s.table.hist)
          ∧ r ∉ answeredBetween s.table.hist s'.table.hist := by
  have hsplit := answeredIn_between hhist
  have hnodup := h'.answered_nodup
  rw [hsplit, List.nodup_append] at hnodup
  obtain ⟨-, hnew, hapart⟩ := hnodup
  refine ⟨hnew, fun r hr => ⟨?_, fun hold => hapart r hold r hr rfl⟩, fun r => ?_⟩
  · refine h'.answered_lt ?_
    rw [hsplit]
    exact List.mem_append_right _ hr
  · rw [h'.alive_iff, hsplit, List.mem_append, not_or, and_assoc]

end Proxy

end RedisAgent
