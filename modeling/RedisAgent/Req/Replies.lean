/-
  RedisAgent.Req.Replies — one reply for each request.

  Main result: `proxy_one_reply`.  It holds of every run in which the clean-up
  loop never takes off a sub-request that still waits for a connection: such a
  pass reads the waiting node after it was freed, or dereferences null where the
  fetch had failed (`proxy_touches_absent_node`).
-/
import RedisAgent.Req.Standing

namespace RedisAgent

open Links

variable {ν : Type*}

/-! ## §1. One reply, in a state and its history. -/

/-- Sub-request `x` has completed: `req_on_shard_done` was called for it. -/
def Completed (hist : List Event) (x : Nat) : Prop :=
  .shardDone x ∈ hist ∨ ∃ r, .fetchFailed r x ∈ hist

/-- Every request is answered exactly once. -/
structure OneReply (s : Proxy ν) : Prop where
  /-- the body of `req_done` never runs twice -/
  atMostOnce : ∀ r, s.table.hist.countP (Event.isDone r) ≤ 1
  /-- it has run, once the event loop is back and there is nothing to wait for -/
  once : ∀ r, s.Waiting → .ready r ∈ s.table.hist →
    (.timeout r ∈ s.table.hist ∨ ∀ x, .issued r x ∈ s.table.hist → Completed s.table.hist x) →
      s.table.hist.countP (Event.isDone r) = 1
  noAbsentNode : ∀ x, .absentNode x ∉ s.table.hist
  /-- without a timeout it runs after everything else -/
  afterAll : ∀ r err, .done r err ∈ s.table.hist → .timeout r ∉ s.table.hist →
    s.table.handler.todo r = 0
      ∧ ∀ x, .issued r x ∈ s.table.hist → Completed s.table.hist x
  /-- the clean-up loop ends: it takes off no more than was put on -/
  loopEnds : ∀ r, s.table.hist.countP (Event.isPopped r) ≤ s.table.hist.countP (Event.isIssued r)

/-- A pass of the clean-up loop that finds a sub-request still waiting for a
connection. -/
def Proxy.CleansWaiting (s : Proxy ν) (l : ProxyStep ν) : Prop :=
  l = .cleanup ∧ ∃ r q x sr, s.table.handler = .timeoutCleanup r ∧ s.table.reqs r = some q
    ∧ q.subReqNotDone = some x ∧ s.table.subs x = some sr ∧ sr.state = .beforeRequestPool

/-! ## §2. What the invariant gives. -/

section Invariant

variable {t : ReqTable ν} {L : Nat → List Nat} {v : View}

theorem TableInv.completed_of (h : TableInv t L v none none) {r x : Nat} {f : Fate}
    (hf : t.fate x = some (r, f)) (hset : f.Settled) (hc : f.Complete) : Completed t.hist x := by
  have hf' : subLife.life t.hist x = some (r, f) := hf
  cases f with
  | failed =>
      refine Or.inr ⟨r, ?_⟩
      rw [← List.count_pos_iff, count_fetchFailed h.lawful, hf']
      show 0 < if r = r then 1 else 0
      rw [if_pos rfl]
      exact Nat.one_pos
  | finished c =>
      refine Or.inl ?_
      rw [← List.count_pos_iff, count_shardDone h.lawful, hf']
      exact Nat.one_pos
  | _ => exact hc.elim

/-- A sub-request that counts has not completed. -/
theorem TableInv.not_completed (h : TableInv t L v none none) {r x : Nat} {f : Fate}
    (hf : t.fate x = some (r, f)) (hc : f.Counted) : ¬ Completed t.hist x := by
  have hf' : subLife.life t.hist x = some (r, f) := hf
  intro hcompleted
  rcases hcompleted with hdone | ⟨r', hfailed⟩
  · have hpos := List.count_pos_iff.2 hdone
    rw [count_shardDone h.lawful, hf'] at hpos
    cases f with
    | answered _ => exact hc
    | finished _ => exact hc
    | _ => exact absurd hpos (Nat.lt_irrefl 0)
  · have hpos := List.count_pos_iff.2 hfailed
    rw [count_fetchFailed h.lawful, hf'] at hpos
    cases f with
    | failed => exact hc
    | _ => exact absurd hpos (Nat.lt_irrefl 0)

/-- **While a request is there, something is still to come.** -/
theorem TableInv.pending_of_running (h : TableInv t L v none none) {r : Nat} {q : Req}
    (hr : t.reqs r = some q) (ht : q.timeout = false) (htodo : t.handler.todo r = 0)
    (hstack : t.stack = []) : ∃ x, .issued r x ∈ t.hist ∧ ¬ Completed t.hist x := by
  obtain ⟨-, -, -, hcount, hpos⟩ := h.running hr ht
  have hhalf : t.halfDone r = 0 := by
    unfold ReqTable.halfDone
    rw [hstack]
    rfl
  unfold ReqTable.expected at hcount
  rw [htodo, hhalf] at hcount
  have hlisted : 0 < (L r).countP (fun x => isCounted (t.fate x)) := by
    have hnone : (if none = some r then 1 else 0) = 0 := rfl
    omega
  obtain ⟨x, hx, hcounted⟩ := List.countP_pos_iff.1 hlisted
  obtain ⟨f, hf, -⟩ := h.owner hx
  rw [hf] at hcounted
  exact ⟨x, (h.issued_iff r x).2 ⟨f, hf⟩, h.not_completed hf (of_decide_eq_true hcounted)⟩

end Invariant

/-- What needs no condition. -/
theorem Proxy.Inv.replies {s : Proxy ν} {L : Nat → List Nat} (h : s.Inv L)
    (hnode : ∀ x, .absentNode x ∉ s.table.hist) : OneReply s := by
  have hreqLawful := h.table.reqLawful
  refine ⟨?_, ?_, hnode, ?_, ?_⟩
  · intro r
    rw [count_done hreqLawful]
    split <;> omega
  · intro r hwaiting hready hover
    obtain ⟨hh, hstack⟩ := hwaiting
    have hpos := List.count_pos_iff.2 hready
    rw [count_ready hreqLawful] at hpos
    have hdone := count_done hreqLawful r
    cases h.table.req r with
    | gone _ _ _ h4 =>
        rcases h4 with hunborn | ⟨late, hlate⟩
        · have hunborn' : reqLife.life s.table.hist r = .unborn := hunborn
          rw [hunborn'] at hpos
          exact absurd hpos (Nat.lt_irrefl 0)
        · have hlate' : reqLife.life s.table.hist r = .answered late := hlate
          rw [hdone, hlate']
    | late q _ _ _ _ h5 =>
        rw [hh] at h5
        exact h5.elim
    | running q h1 _ _ h4 h5 _ _ =>
        -- it is not late, and not all of its sub-requests have completed
        have hfate : reqLife.life s.table.hist r = .running := h5
        rcases hover with htimeout | hall
        · have hcount := List.count_pos_iff.2 htimeout
          rw [count_timeout hreqLawful, hfate] at hcount
          exact absurd hcount (Nat.lt_irrefl 0)
        · obtain ⟨x, hissued, hnot⟩ := h.table.pending_of_running h1 h4 (by rw [hh]; rfl) hstack
          exact absurd (hall x hissued) hnot
  · intro r err hdone htimeout
    obtain ⟨late, hlate, -, htodo, hset⟩ := h.table.answered hdone
    have hfalse : late = false := by
      cases late with
      | false => rfl
      | true =>
          have hlate' : reqLife.life s.table.hist r = .answered true := hlate
          have hcount : 0 < s.table.hist.count (.timeout r) := by
            rw [count_timeout hreqLawful, hlate']
            exact Nat.one_pos
          exact absurd (List.count_pos_iff.1 hcount) htimeout
    refine ⟨htodo, ?_⟩
    intro x hissued
    obtain ⟨f, hf⟩ := (h.table.issued_iff r x).1 hissued
    obtain ⟨hsettled, hcomplete⟩ := hset x f hf
    exact h.table.completed_of hf hsettled (hcomplete hfalse)
  · intro r
    have hp := h.table.passes r
    omega

/-! ## §3. The nodes. -/

/-- No absent node has been touched. -/
def ReqTable.Intact (t : ReqTable ν) : Prop := ∀ x, .absentNode x ∉ t.hist

theorem ReqTable.Intact.note {t : ReqTable ν} {e : Event} (h : t.Intact)
    (he : ∀ x, e ≠ .absentNode x) : (t.note e).Intact := by
  intro x hx
  rcases List.mem_append.1 hx with hold | hnew
  · exact h x hold
  · exact he x (List.mem_singleton.1 hnew).symm

theorem ReqTable.Intact.reqDone {t : ReqTable ν} (h : t.Intact) (r : Nat) :
    (t.reqDone r).Intact := by
  unfold ReqTable.reqDone
  split
  · exact h
  · rename_i q _
    split
    · exact h
    · have hnoted : ((t.setReq r (some { q with reqDoneCalled := true })).note
          (.done r q.errNo)).Intact :=
        ReqTable.Intact.note (t := t.setReq r (some { q with reqDoneCalled := true })) h nofun
      exact hnoted

theorem ReqTable.Intact.shardCountDown {t : ReqTable ν} (h : t.Intact) (r : Nat) :
    (t.shardCountDown r).Intact := by
  unfold ReqTable.shardCountDown
  split
  · exact h
  · rename_i q _
    simp only
    split
    · exact ReqTable.Intact.reqDone (t := t.setReq r (some { q with
        shardCount := q.shardCount - 1 })) h r
    · exact h

theorem Proxy.onPool_intact {s : Proxy ν} (h : s.table.Intact) (k i : Nat) (op : SrvOp Nat) :
    (s.onPool k i op).table.Intact := by
  have hall : ∀ (calls : List (Option Handle × Nat)) (t : ReqTable ν), t.Intact →
      (calls.foldl (fun t c => t.reqOnAcquired (c.1.map (ConnRef.mk k i)) c.2) t).Intact := by
    intro calls
    induction calls with
    | nil =>
        intro t ht
        exact ht
    | cons c calls ih =>
        intro t ht
        have hnoted : (t.reqOnAcquired (c.1.map (ConnRef.mk k i)) c.2).Intact :=
          ReqTable.Intact.note (t := t.modSub c.2 fun sr =>
            { sr with handle := c.1.map (ConnRef.mk k i), state := .poolReturned }) ht nofun
        exact ih _ hnoted
  rw [Proxy.onPool_table]
  exact hall _ _ h

/-- **One step** touches no absent node, except where the clean-up loop finds a
waiting sub-request. -/
theorem Proxy.exec_intact {s : Proxy ν} {l : ProxyStep ν} (h : s.table.Intact)
    (hl : ¬ s.CleansWaiting l) : (s.exec l).table.Intact := by
  cases l with
  | ready g m keyNum isRead => exact h.note (fun _ he => by cases he)
  | reject errNo =>
      have hmade : s.table.reqCreate.Intact := h.note (fun _ he => by cases he)
      exact ReqTable.Intact.reqDone (t := (s.table.reqCreate.modReq _ _).modReq _ _) hmade _
  | acquire env =>
      unfold exec
      simp only
      split
      · rename_i r todo _
        unfold acquireStep
        split
        · exact h
        · exact h
        · unfold reqOnGetshards
          split
          · exact h
          · simp only
            split
            · refine ReqTable.Intact.shardCountDown ?_ _
              exact (ReqTable.Intact.note (h.note (fun _ he => by cases he)) (fun _ he => by cases he))
            · refine onPool_intact ?_ _ _ _
              exact h.note (fun _ he => by cases he)
      · exact h
  | callReturn ret =>
      unfold exec
      simp only
      split
      · unfold ReqTable.callReturned
        split
        · exact h.note (fun _ he => by cases he)
        · exact h
      · exact h
  | shardDone x errNo now =>
      show (s.reqOnShardDone x errNo now).table.Intact
      unfold reqOnShardDone
      split
      · exact h
      · split
        · exact h
        · simp only
          split
          · exact h.note (fun _ he => by cases he)
          · refine onPool_intact ?_ _ _ _
            exact ReqTable.Intact.note (h.note (fun _ he => by cases he)) (fun _ he => by cases he)
  | releaseReturn =>
      unfold exec
      simp only
      split
      · rename_i r x stack _
        exact ReqTable.Intact.shardCountDown
          (t := { s.table with stack := stack }.setSub x none) h r
      · exact h
  | timeout r => exact h.note (fun _ he => by cases he)
  | cleanup =>
      unfold exec
      simp only
      split
      · rename_i r hh
        unfold cleanupPass
        split
        · exact h
        · rename_i q hr
          split
          · exact ReqTable.Intact.reqDone (t := s.table.modReq r _) h r
          · rename_i x hx
            simp only
            split
            · exact h.note (fun _ he => by cases he)
            · rename_i sr hs
              split
              · rename_i hstate
                exact absurd ⟨rfl, r, q, x, sr, hh, hr, hx, hs, hstate⟩ hl
              · exact h.note (fun _ he => by cases he)
              · exact h.note (fun _ he => by cases he)
      · exact h
  | timeoutReturn =>
      unfold exec
      simp only
      split
      · exact h
      · exact h
  | pool k i op => exact onPool_intact h k i op
  | poolDestroy k => exact h

/-- **Exactly one reply per request.**  In every run of a proxy in which no pass of
the clean-up loop finds a sub-request that still waits for a connection, every
state reached has: the body of `req_done` run at most once for each request, and
exactly once when the event loop is back and the time is over or all
sub-requests are complete; no absent waiting node touched; and, without a
timeout, `req_done` only after every sub-request has completed. -/
theorem proxy_one_reply {sizes : Nat → Proxy.PoolSize} {s : Proxy ν}
    (h : ((proxyLts ν sizes).restrict (fun s l => ¬ s.CleansWaiting l)).Reachable s) :
    OneReply s := by
  have hintact : s.table.Intact := by
    refine h.invariant (P := fun s => s.table.Intact) ?_ ?_
    · intro s hs
      rw [hs]
      exact fun x => List.not_mem_nil
    · intro s l s' _ ih hstep
      obtain ⟨⟨-, -, rfl⟩, hcond⟩ := hstep
      exact Proxy.exec_intact ih hcond
  obtain ⟨tr, hrun⟩ := h
  obtain ⟨L, hinv⟩ := Proxy.reachable_inv ⟨tr, hrun.of_restrict.1⟩
  exact hinv.replies hintact

/-- The connection is made and used when the time is over; `backend_timeout` calls
back. -/
def timeoutSteps : List (ProxyStep Unit) :=
  [.acquire (firstServer 0), .acquire (firstServer 0), .pool 1 0 (.created ⟨0, 0⟩ 0 {}),
    .callReturn 0, .timeout 0, .cleanup, .shardDone 0 0 {}, .releaseReturn, .timeoutReturn,
    .cleanup]

theorem timeoutSteps_enabled : Lts.AllEnabled Proxy.exec
    (fun s l => (s.table.handler ≠ .crashed ∧ s.Enabled l) ∧ ¬ s.CleansWaiting l) oneKeyProxy
      timeoutSteps := by
  have hother : ∀ {s : Proxy Unit} {l : ProxyStep Unit}, l ≠ .cleanup → ¬ s.CleansWaiting l :=
    fun hne hc => hne hc.1
  refine ⟨⟨⟨nofun, rfl, 0, _, rfl, ?_⟩, hother nofun⟩,
    ⟨⟨nofun, rfl, 0, _, rfl, nofun⟩, hother nofun⟩,
    ⟨⟨nofun, trivial, ⟨by decide, rfl⟩, rfl⟩, hother nofun⟩,
    ⟨⟨nofun, 0, [], rfl, fun h => absurd rfl h⟩, hother nofun⟩,
    ⟨⟨nofun, ⟨rfl, rfl⟩, _, rfl, rfl⟩, hother nofun⟩, ⟨⟨nofun, rfl, 0, rfl⟩, ?_⟩,
    ⟨⟨nofun, _, rfl, rfl⟩, hother nofun⟩, ⟨⟨nofun, 0, 0, [], rfl⟩, hother nofun⟩,
    ⟨⟨nofun, rfl, 0, 0, rfl, rfl⟩, hother nofun⟩, ⟨⟨nofun, rfl, 0, rfl⟩, ?_⟩, trivial⟩
  · intro c i hc hi
    cases hc
    have hi0 : some 0 = some i := hi
    cases hi0
    exact ⟨⟨by decide, rfl⟩, rfl⟩
  · -- the sub-request it finds has a connection
    intro hc
    obtain ⟨-, r, q, x, sr, hh, hr, hx, hs, hstate⟩ := hc
    have hh' : (Handler.timeoutCleanup 0 : Handler Unit) = .timeoutCleanup r := hh
    cases hh'
    have hr' : some (⟨1, some 0, true, false, 504, true⟩ : Req) = some q := hr
    cases hr'
    cases hx
    have hs' : some (⟨oneCall.reqs, oneCall.num, 0, some ⟨1, 0, ⟨0, 0⟩⟩, .poolReturned,
      some ⟨1, 0, 0⟩⟩ : SubReq Unit) = some sr := hs
    cases hs'
    cases hstate
  · -- the list is empty
    intro hc
    obtain ⟨-, r, q, x, sr, hh, hr, hx, -⟩ := hc
    have hh' : (Handler.timeoutCleanup 0 : Handler Unit) = .timeoutCleanup r := hh
    cases hh'
    have hr' : some (⟨-1, none, true, false, 504, true⟩ : Req) = some q := hr
    cases hr'
    cases hx

theorem proxy_one_reply_witness : OneReply (oneKeyProxy.execAll timeoutSteps) := by
  have hfirst : ((proxyLts Unit smallPools).restrict (fun s l => ¬ s.CleansWaiting l)).Reachable
      oneKeyProxy :=
    (Lts.Reachable.init rfl).step ⟨oneKeyProxy_step, fun hc => nomatch hc.1⟩
  have hstep : ∀ (s : Proxy Unit) l,
      (s.table.handler ≠ .crashed ∧ s.Enabled l) ∧ ¬ s.CleansWaiting l →
        ((proxyLts Unit smallPools).restrict (fun s l => ¬ s.CleansWaiting l)).step s l (s.exec l) :=
    fun _ _ h => ⟨⟨h.1.1, h.1.2, rfl⟩, h.2⟩
  obtain ⟨tr, hrun⟩ := hfirst
  exact proxy_one_reply ⟨_, Lts.Run.execAll hstep timeoutSteps hrun timeoutSteps_enabled⟩

/-- The time is over while the sub-request waits. -/
def waitingTimeoutSteps : List (ProxyStep Unit) :=
  [.acquire (firstServer 0), .acquire (firstServer 0), .timeout 0, .cleanup]

theorem waitingTimeoutSteps_enabled : oneKeyProxy.AllEnabled waitingTimeoutSteps := by
  refine ⟨⟨nofun, rfl, 0, _, rfl, ?_⟩, ⟨nofun, rfl, 0, _, rfl, nofun⟩,
    ⟨nofun, ⟨rfl, rfl⟩, _, rfl, rfl⟩, ⟨nofun, rfl, 0, rfl⟩, trivial⟩
  intro c i hc hi
  cases hc
  have hi0 : some 0 = some i := hi
  cases hi0
  exact ⟨⟨by decide, rfl⟩, rfl⟩

/-- The clean-up loop reads the node it has just freed. -/
theorem proxy_touches_absent_node :
    ¬ ∀ s : Proxy Unit, (proxyLts Unit smallPools).Reachable s → OneReply s := by
  intro hall
  have hreply := hall _ (Proxy.reachable_execAll oneKeyProxy_reachable waitingTimeoutSteps_enabled)
  have hhist : (oneKeyProxy.execAll waitingTimeoutSteps).table.hist
      = [.ready 0, .issued 0 0, .timeout 0, .popped 0 0, .removed 0, .absentNode 0] := rfl
  have hnot := hreply.noAbsentNode 0
  rw [hhist] at hnot
  exact hnot (by simp)

end RedisAgent
