/-
  RedisAgent.Req.Entries — where the event loop enters req.cpp and leaves it.

  A request begins in `req_ready`; `router_acquire_shards` works through its
  shards; the timer may cut it short in `req_timeout`.
-/
import RedisAgent.Req.ReqMoves
import RedisAgent.Router.Shards

namespace RedisAgent

open Links

variable {ν : Type*} {t t' : ReqTable ν} {L L' : Nat → List Nat} {v v' : View}
  {hole hole' owed owed' : Option Nat}

/-! ## §1. The beginning of a request. -/

/-- No sub-request belongs to a request that has not begun. -/
theorem TableInv.nextReq_fresh (h : TableInv t L v hole owed) :
    t.reqFate t.nextReq = .unborn ∧ t.reqs t.nextReq = none ∧ L t.nextReq = []
      ∧ t.halfDone t.nextReq = 0 ∧ ∀ x f, t.fate x ≠ some (t.nextReq, f) := by
  have hunborn : t.reqFate t.nextReq = .unborn := (h.reqFresh _).2 (Nat.le_refl _)
  obtain ⟨hnone, hhalf⟩ : t.reqs t.nextReq = none ∧ t.halfDone t.nextReq = 0 := by
    cases h.req t.nextReq with
    | gone h1 _ h3 _ => exact ⟨h1, h3⟩
    | running q _ _ _ _ h5 _ _ =>
        rw [hunborn] at h5
        cases h5
    | late q _ _ _ h4 _ =>
        rw [hunborn] at h4
        cases h4
  have hheads : t.heads t.nextReq = none := by
    unfold ReqTable.heads
    rw [hnone]
    rfl
  refine ⟨hunborn, hnone, h.lists.gone _ hheads, hhalf, ?_⟩
  intro x f hf
  cases h.sub x with
  | unborn h1 _ _ =>
      rw [hf] at h1
      cases h1
  | gone r' f' late h1 _ h3 _ _ _ _ =>
      rw [hf] at h1
      cases h1
      rw [hunborn] at h3
      cases h3
  | alive r' f' q h1 h2 _ _ _ _ =>
      rw [hf] at h1
      cases h1
      rw [hnone] at h2
      cases h2

/-- **A request is made.**  What the router has to do for it, and what is owed to
it, is what its counter says. -/
theorem TableInv.create {q : Req} (h : TableInv t L v none none) (hh : t.handler = .eventLoop)
    (hq : q.subReqNotDone = none ∧ q.timeout = false ∧ q.reqDoneCalled = false
      ∧ q.timeoutEvent = true)
    (hreqs : t'.reqs = Function.update t.reqs t.nextReq (some q))
    (hhist : t'.hist = t.hist ++ [.ready t.nextReq])
    (hrest : t'.subs = t.subs ∧ t'.links = t.links ∧ t'.nextReq = t.nextReq + 1
      ∧ t'.nextSub = t.nextSub ∧ t'.stack = t.stack)
    (howed : owed' = none ∨ owed' = some t.nextReq)
    (htodo : ∀ r, r ≠ t.nextReq → t'.handler.todo r = 0) (hhandler : HandlerInv t' L t'.handler)
    (hcount : q.shardCount
      = (t'.handler.todo t.nextReq + (if owed' = some t.nextReq then 1 else 0) : Nat))
    (hpos : 0 < q.shardCount) : TableInv t' L v none owed' := by
  obtain ⟨hunborn, hnone, hempty, hhalf, hno⟩ := h.nextReq_fresh
  obtain ⟨hsubs, hlinks, hnextReq, hnextSub, hstack⟩ := hrest
  have hstep : reqNext (t.reqFate t.nextReq) (.ready t.nextReq) = some .running := by
    rw [hunborn]
    rfl
  have hfate : t'.fate = t.fate := by
    unfold ReqTable.fate
    rw [hhist]
    exact LifeRule.life_append_other rfl
  have hreqFate : t'.reqFate = Function.update t.reqFate t.nextReq .running := by
    unfold ReqTable.reqFate
    rw [hhist]
    exact LifeRule.life_append rfl hstep
  have hheads : t.heads t.nextReq = none := by
    unfold ReqTable.heads
    rw [hnone]
    rfl
  refine h.moveReq _
    { reqs := hreqs
      subs := hsubs
      nextSub := hnextSub
      fate := hfate
      lawful := by rw [hhist]; exact h.lawful.other rfl
      reqLawful := by rw [hhist]; exact h.reqLawful.step rfl hstep
      reqFate := fun r hr => by rw [hreqFate, Function.update_of_ne hr]
      reqFresh := ?_
      lists := by rw [heads_update hreqs, hq.1, hlinks]; exact h.lists.create hheads
      own := fun x f hf => absurd hf (hno x f)
      inTimeout := ?_
      inv := ?_
      owes := ?_
      todo := fun r hr => by rw [htodo r hr, hh]; rfl
      halfDone := fun r _ => by unfold ReqTable.halfDone; rw [hstack]
      cleans := ?_
      frames := fun r y hy => by rw [← hstack]; exact hy
      handler := hhandler
      passes := ?_ }
  · intro r
    rw [hreqFate, hnextReq]
    by_cases hr : r = t.nextReq
    · rw [hr, Function.update_self]
      constructor
      · intro heq
        cases heq
      · intro hle
        omega
    · rw [Function.update_of_ne hr, h.reqFresh r]
      omega
  · intro r x f _ _ hb
    rw [hh] at hb
    cases hb
  · refine .running q (by rw [hreqs, Function.update_self]) hq.2.2.1 hq.2.2.2 hq.2.1
      (by rw [hreqFate, Function.update_self]) ?_ hpos
    -- an empty list and no call under way: only the router's work counts
    have hhalf' : t'.halfDone t.nextReq = 0 := by
      unfold ReqTable.halfDone
      rw [hstack]
      exact hhalf
    unfold ReqTable.expected
    rw [hempty, hhalf', hcount, List.countP_nil, Nat.zero_add]
  · intro r hr
    constructor
    · intro heq
      rcases howed with hn | hs
      · rw [hn] at heq
        cases heq
      · rw [hs] at heq
        exact absurd (Option.some.inj heq).symm hr
    · intro heq
      cases heq
  · intro r _ hc
    rw [hh] at hc
    exact hc.elim
  · intro r
    rw [hhist, List.countP_append, List.countP_append]
    exact ⟨rfl, rfl⟩

/-- **`req_ready`** of a request with keys. -/
theorem TableInv.ready (h : TableInv t L v none none) (hh : t.handler = .eventLoop)
    (g : Router Nat) (m : Int → BackendReq ν) (keyNum : Nat) (isRead : Bool) (hpos : 1 ≤ keyNum)
    (hnn : ∀ i : Int, 0 ≤ i → i < keyNum → 0 ≤ g.shardKeyOf (m i).key) :
    TableInv (t.reqReady g m keyNum isRead) L v none none := by
  have hlen := shardEvents_length_keyNum g m keyNum isRead hpos hnn
  obtain ⟨l, c, hlast⟩ := shardEvents_last g (sortShards g m keyNum) isRead keyNum ShardLoop.init
  have hreqs : (t.reqReady g m keyNum isRead).reqs = Function.update t.reqs t.nextReq (some
      { shardCount := keyNum, subReqNotDone := none, timeout := false, reqDoneCalled := false,
        errNo := 0, timeoutEvent := true }) := by
    show Function.update (Function.update t.reqs t.nextReq _) t.nextReq
      ((Function.update t.reqs t.nextReq _ t.nextReq).map _) = _
    rw [Function.update_idem, Function.update_self]
    rfl
  have htodo : ∀ r, (t.reqReady g m keyNum isRead).handler.todo r
      = if t.nextReq = r then keyNum else 0 := by
    intro r
    show (if t.nextReq = r then (shardEvents g (sortShards g m keyNum) isRead keyNum
      ShardLoop.init).length else 0) = _
    rw [hlen]
  refine h.create hh ⟨rfl, rfl, rfl, rfl⟩ hreqs rfl ⟨rfl, rfl, rfl, rfl, rfl⟩ (Or.inl rfl) ?_
    ⟨Or.inr ⟨l, c, hlast⟩, fun _ => ⟨_, by rw [hreqs, Function.update_self], rfl⟩⟩ ?_ ?_
  · intro r hr
    rw [htodo r, if_neg (Ne.symm hr)]
  · rw [htodo, if_pos rfl]
    rfl
  · show (0 : Int) < keyNum
    omega

/-- What `req_fail` leaves of a request that is there. -/
theorem reqFail_of {r : Nat} {q : Req} (hr : t.reqs r = some q) (hc : q.reqDoneCalled = false) :
    ∃ err, (t.reqFail r).reqs = Function.update t.reqs r none
      ∧ (t.reqFail r).subs = (fun x => (t.subs x).filter (fun sr => sr.r ≠ r))
      ∧ (t.reqFail r).hist = t.hist ++ [.done r err]
      ∧ (t.reqFail r).links = t.links ∧ (t.reqFail r).nextReq = t.nextReq
      ∧ (t.reqFail r).nextSub = t.nextSub ∧ (t.reqFail r).handler = t.handler
      ∧ (t.reqFail r).stack = t.stack := by
  have hr' := modReq_at hr (fun q =>
    { q with errNo := if q.errNo = 0 then storeErrInternalError else q.errNo })
  obtain ⟨h1, h2, h3, h4, h5, h6, h7, h8⟩ := reqDone_of hr' hc
  refine ⟨_, ?_, h2, h3, h4, h5, h6, h7, h8⟩
  show (ReqTable.reqDone _ r).reqs = _
  rw [h1, modReq_reqs hr, Function.update_idem]

/-- **`req_ready`** of a request that is turned down. -/
theorem TableInv.reject (h : TableInv t L v none none) (hh : t.handler = .eventLoop)
    (errNo : Int) : ∃ L', TableInv (t.reqReject errNo) L' v none none := by
  -- as if one call were owed to it, which `req_done` then cancels
  have hmade : TableInv
      ({ t.setReq t.nextReq (some
          { shardCount := 1, subReqNotDone := none, timeout := false, reqDoneCalled := false,
            errNo := 0, timeoutEvent := true }) with
        nextReq := t.nextReq + 1 }.note (.ready t.nextReq)) L v none (some t.nextReq) := by
    refine h.create hh ⟨rfl, rfl, rfl, rfl⟩ rfl rfl ⟨rfl, rfl, rfl, rfl, rfl⟩ (Or.inr rfl) ?_ ?_ ?_
      Int.one_pos
    · intro r _
      show t.handler.todo r = 0
      rw [hh]
      rfl
    · show HandlerInv _ L t.handler
      rw [hh]
      trivial
    · show (1 : Int) = (t.handler.todo t.nextReq + (if some t.nextReq = some t.nextReq then 1 else 0)
        : Nat)
      rw [hh, if_pos rfl]
      rfl
  obtain ⟨-, -, hempty, hhalf, hno⟩ := h.nextReq_fresh
  have hno' : ∀ x f, subLife.life (t.hist ++ [.ready t.nextReq]) x ≠ some (t.nextReq, f) := by
    rw [LifeRule.life_append_other rfl]
    exact hno
  have hqreqs := modReq_reqs (t := t.reqCreate) (Function.update_self ..)
    (fun q => { q with errNo := errNo })
  have hq := modReq_at (t := t.reqCreate) (Function.update_self ..)
    (fun q => { q with errNo := errNo })
  obtain ⟨err, h1, h2, h3, h4, h5, h6, h7, h8⟩ := reqFail_of hq rfl
  have hreqs : (t.reqReject errNo).reqs = Function.update t.reqs t.nextReq none := by
    show ((t.reqCreate.modReq t.nextReq fun q => { q with errNo := errNo }).reqFail
      t.nextReq).reqs = _
    rw [h1, hqreqs, Function.update_idem]
    show Function.update (Function.update t.reqs t.nextReq _) t.nextReq none = _
    rw [Function.update_idem]
  have hhandler : (t.reqReject errNo).handler = .eventLoop := h7.trans hh
  refine ⟨_, hmade.done (Or.inr rfl) (Function.update_self ..) (fun x f hf => absurd hf (hno' x f))
    hhalf ?_ h2 h3 ⟨h4, h5, h6, h8⟩ ?_ ?_ ?_⟩
  · rw [hreqs]
    show _ = Function.update (Function.update t.reqs t.nextReq _) t.nextReq none
    rw [Function.update_idem]
  · rw [hhandler]
    rfl
  · intro r _
    rw [hhandler]
    show _ = t.handler.todo r ∧ (t.handler.Cleans r → _) ∧ ∀ x, t.handler = _ → _
    rw [hh]
    exact ⟨rfl, fun hc => hc, fun _ hb => nomatch hb⟩
  · rw [hhandler]
    trivial

/-! ## §2. The router's loop. -/

/-- **The router takes up the next thing it has to do.** -/
theorem TableInv.nextEvent {r : Nat} {e : ShardEvent ν Nat} {todo : List (ShardEvent ν Nat)}
    (h : TableInv t L v none none) (hh : t.handler = .acquireShards r (e :: todo)) :
    ∃ q, t.reqs r = some q ∧ q.timeout = false
      ∧ (e = .duplicate → 1 < q.shardCount)
      ∧ TableInv { t with handler := .acquireShards r todo } L v none (some r) := by
  have hinv := h.handler
  rw [hh] at hinv
  obtain ⟨hlast, hreq⟩ := hinv
  obtain ⟨q, hr, ht⟩ := hreq nofun
  obtain ⟨hcalled, hevent, hfate, hcount, hpos⟩ := h.running hr ht
  obtain ⟨l, c, hlc⟩ := hlast.resolve_left nofun
  -- the work that is left still ends in a call
  have hlast' : todo = [] ∨ ∃ l c, todo = l ++ [.call c] := by
    cases l with
    | nil =>
        rw [List.nil_append] at hlc
        exact Or.inl (List.cons.inj hlc).2
    | cons a l =>
        rw [List.cons_append] at hlc
        exact Or.inr ⟨l, c, (List.cons.inj hlc).2⟩
  have htodo : ∀ r', r' ≠ r →
      (Handler.acquireShards r todo).todo r' = t.handler.todo r' := by
    intro r' hrr
    rw [hh]
    show (if r = r' then _ else 0) = (if r = r' then _ else 0)
    rw [if_neg (Ne.symm hrr), if_neg (Ne.symm hrr)]
  have hown : t.handler.todo r = todo.length + 1 := by
    rw [hh]
    show (if r = r then _ else 0) = _
    rw [if_pos rfl, List.length_cons]
  have hexp : ({ t with handler := .acquireShards r todo } : ReqTable ν).expected L (some r) r
      = t.expected L none r := by
    unfold ReqTable.expected
    rw [hown, if_pos rfl]
    show _ + _ + (if r = r then todo.length else 0) + 1 = _ + _ + (todo.length + 1) + 0
    rw [if_pos rfl]
    rfl
  refine ⟨q, hr, ht, ?_, ?_⟩
  · intro he
    have hne : todo ≠ [] := by
      intro hnil
      rw [he, hnil] at hlc
      cases l with
      | nil => cases hlc
      | cons a l =>
          rw [List.cons_append] at hlc
          exact List.append_ne_nil_of_right_ne_nil l (List.cons_ne_nil _ _)
            (List.cons.inj hlc).2.symm
    have hlen := List.length_pos_iff.2 hne
    unfold ReqTable.expected at hcount
    rw [hown] at hcount
    omega
  · refine h.moveReq (r := r) q
      { reqs := by rw [← hr, Function.update_eq_self]
        subs := rfl
        nextSub := rfl
        fate := rfl
        lawful := h.lawful
        reqLawful := h.reqLawful
        reqFate := fun _ _ => rfl
        reqFresh := h.reqFresh
        lists := h.lists
        own := fun _ _ _ => ⟨q, hr, fun hlate => hlate⟩
        inTimeout := fun _ _ _ _ _ hb => by rw [hh] at hb; cases hb
        inv := .running q hr hcalled hevent ht hfate (by rw [hexp]; exact hcount) hpos
        owes := ?_
        todo := htodo
        halfDone := fun _ _ => rfl
        cleans := fun _ _ hc => by rw [hh] at hc; exact hc.elim
        frames := fun _ _ hm => hm
        handler := ⟨hlast', fun _ => ⟨q, hr, ht⟩⟩
        passes := fun _ => ⟨rfl, rfl⟩ }
    intro r' hrr
    constructor
    · intro heq
      exact absurd (Option.some.inj heq).symm hrr
    · intro heq
      cases heq

/-- **A second key of the same shard**: the counter goes down. -/
theorem TableInv.duplicate {r : Nat} {todo : List (ShardEvent ν Nat)}
    (h : TableInv t L v none none) (hh : t.handler = .acquireShards r (.duplicate :: todo)) :
    TableInv { t.modReq r fun q => { q with shardCount := q.shardCount - 1 } with
      handler := .acquireShards r todo } L v none none := by
  obtain ⟨q, hr, -, hmore, hnext⟩ := h.nextEvent hh
  have hpaid := hnext.pay hr (Or.inr (hmore rfl))
  have heq : ({ t.modReq r fun q => { q with shardCount := q.shardCount - 1 } with
      handler := .acquireShards r todo } : ReqTable ν)
      = { t with handler := .acquireShards r todo }.setReq r
        (some { q with shardCount := q.shardCount - 1 }) := by
    unfold ReqTable.modReq
    rw [hr]
    rfl
  rw [heq]
  exact hpaid

/-- **`router_acquire_shards` returns.** -/
theorem TableInv.routerReturn {r : Nat} (h : TableInv t L v none none)
    (hh : t.handler = .acquireShards r []) :
    TableInv { t with handler := .eventLoop } L v none none := by
  refine h.control rfl rfl h.lawful h.reqLawful ?_ ?_ (fun _ => rfl) ?_ (fun _ _ hm => hm) trivial
    (fun _ => ⟨rfl, rfl⟩)
  · intro r' x hb
    rw [hh] at hb
    cases hb
  · intro r'
    rw [hh]
    show 0 = (if r = r' then ([] : List (ShardEvent ν Nat)).length else 0)
    split <;> rfl
  · intro r' hc
    rw [hh] at hc
    exact hc.elim

/-! ## §3. The timer. -/

/-- **The time of a request is over.** -/
theorem TableInv.timeout {r : Nat} {q : Req} (h : TableInv t L v none none)
    (hh : t.handler = .eventLoop) (hr : t.reqs r = some q) :
    TableInv (t.reqTimeout r) L v none none := by
  have ht : q.timeout = false := by
    rcases ht : q.timeout with _ | _
    · rfl
    · obtain ⟨-, -, hc⟩ := h.late hr ht
      rw [hh] at hc
      exact hc.elim
  obtain ⟨hcalled, -, hfate, -, -⟩ := h.running hr ht
  have hreqs : (t.reqTimeout r).reqs = _ :=
    modReq_reqs hr (fun q => { q with timeout := true, errNo := storeErrServiceTimeout })
  have hr' : (t.reqTimeout r).reqs r = _ := modReq_at hr _
  have hstep : reqNext (t.reqFate r) (.timeout r) = some .late := by
    rw [hfate]
    rfl
  have hreqFate : (t.reqTimeout r).reqFate = Function.update t.reqFate r .late :=
    LifeRule.life_append (R := reqLife) rfl hstep
  refine h.moveReq _
    { reqs := hreqs
      subs := rfl
      nextSub := rfl
      fate := LifeRule.life_append_other (R := subLife) rfl
      lawful := h.lawful.other rfl
      reqLawful := h.reqLawful.step rfl hstep
      reqFate := fun r' hrr => by rw [hreqFate, Function.update_of_ne hrr]
      reqFresh := ?_
      lists := h.lists.of_sameHead hr hreqs rfl rfl
      own := fun _ _ _ => ⟨q, hr, fun _ => rfl⟩
      inTimeout := fun _ _ _ _ _ hb => by rw [hh] at hb; cases hb
      inv := .late _ hr' hcalled rfl (by rw [hreqFate, Function.update_self]) rfl
      owes := fun _ _ => Iff.rfl
      todo := fun r' _ => by rw [hh]; rfl
      halfDone := fun _ _ => rfl
      cleans := fun r' _ hc => by rw [hh] at hc; exact hc.elim
      frames := fun _ _ hm => hm
      handler := ⟨_, hr', rfl⟩
      passes := ?_ }
  · intro r'
    show _ ↔ t.nextReq ≤ r'
    rw [hreqFate]
    by_cases hrr : r' = r
    · subst hrr
      rw [Function.update_self, ← h.reqFresh r', hfate]
      constructor
      · intro heq
        cases heq
      · intro heq
        cases heq
    · rw [Function.update_of_ne hrr]
      exact h.reqFresh r'
  · intro r'
    show (t.hist ++ [Event.timeout r]).countP (Event.isPopped r') = _
      ∧ (t.hist ++ [Event.timeout r]).countP (Event.isIssued r') = _
    rw [List.countP_append, List.countP_append]
    exact ⟨rfl, rfl⟩

/-- **`backend_timeout` has returned**, and the sub-request is gone. -/
theorem TableInv.timeoutReturned {r x : Nat} (h : TableInv t L v none none)
    (hh : t.handler = .backendTimeout r x) (hx : t.subs x = none) :
    TableInv (t.timeoutReturned r) L v none none := by
  have hinv := h.handler
  rw [hh] at hinv
  obtain ⟨⟨q, hr, ht⟩, -⟩ := hinv
  obtain ⟨hcalled, hfate, -⟩ := h.late hr ht
  have hreqs : (t.timeoutReturned r).reqs = _ :=
    modReq_reqs hr (fun q => { q with shardCount := q.shardCount - 1 })
  have hr' : (t.timeoutReturned r).reqs r = _ := modReq_at hr _
  refine h.moveReq _
    { reqs := hreqs
      subs := rfl
      nextSub := rfl
      fate := rfl
      lawful := h.lawful
      reqLawful := h.reqLawful
      reqFate := fun _ _ => rfl
      reqFresh := h.reqFresh
      lists := h.lists.of_sameHead hr hreqs rfl rfl
      own := fun _ _ _ => ⟨q, hr, fun hlate => hlate⟩
      inTimeout := ?_
      inv := .late _ hr' hcalled ht hfate rfl
      owes := fun _ _ => Iff.rfl
      todo := fun _ _ => by rw [hh]; rfl
      halfDone := fun _ _ => rfl
      cleans := ?_
      frames := fun _ _ hm => hm
      handler := ⟨_, hr', ht⟩
      passes := fun _ => ⟨rfl, rfl⟩ }
  · intro r' y f hf hp hb
    -- only `x` was in the plugin's hands, and `x` is freed
    rw [hh] at hb
    cases hb
    obtain ⟨hat, -⟩ := h.alive hf hr
    rw [hx] at hat
    cases hat (fun hc => by cases hc) with
    | waiting _ _ ho _ _ _ _ => cases ho
    | failed _ _ _ _ _ => exact hp.elim
    | held _ _ ho _ _ _ _ => cases ho
    | refused _ _ _ _ _ => exact hp.elim
    | finished _ _ => exact hp.elim
    | removed _ => exact hp.elim
  · intro r' hrr hc
    rw [hh] at hc
    exact absurd hc.symm hrr

/-- **The clean-up loop is through**: the request is failed. -/
theorem TableInv.cleanupEnd {r : Nat} {q : Req} (h : TableInv t L v none none)
    (hh : t.handler = .timeoutCleanup r) (hstack : t.stack = []) (hr : t.reqs r = some q)
    (hx : q.subReqNotDone = none) :
    ∃ L', TableInv { t.reqFail r with handler := .eventLoop } L' v none none := by
  have ht : q.timeout = true := by
    have hinv := h.handler
    rw [hh] at hinv
    obtain ⟨q', hr', ht'⟩ := hinv
    rw [hr] at hr'
    cases hr'
    exact ht'
  obtain ⟨hcalled, -, -⟩ := h.late hr ht
  have hempty : L r = [] := by
    have hhead := (h.lists.queue r _ (heads_of hr)).head
    rw [hx] at hhead
    exact List.head?_eq_none_iff.1 hhead.symm
  have hhalf : t.halfDone r = 0 := by
    unfold ReqTable.halfDone
    rw [hstack]
    rfl
  obtain ⟨err, h1, h2, h3, h4, h5, h6, -, h8⟩ := reqFail_of hr hcalled
  refine ⟨_, h.done (Or.inl rfl) hr ?_ hhalf h1 h2 h3 ⟨h4, h5, h6, h8⟩ rfl ?_ trivial⟩
  · intro x f hf
    obtain ⟨hat, -, hlist, -⟩ := h.alive hf hr
    have hpending : f.Listed → ¬ f.Pending := by
      intro hl hp
      rcases hlist hl with hm | ⟨-, hb⟩
      · rw [hempty] at hm
        cases hm
      · have hbt := hb hp
        rw [hh] at hbt
        cases hbt
    refine ⟨?_, fun hfalse => by rw [ht] at hfalse; cases hfalse⟩
    cases hat (fun hc => by cases hc) with
    | waiting _ _ _ _ _ _ _ => exact hpending trivial trivial
    | failed _ _ _ _ _ => trivial
    | held _ _ _ _ _ _ _ => exact hpending trivial trivial
    | refused _ _ _ _ _ => trivial
    | finished _ _ => trivial
    | removed _ => trivial
  · intro r' hrr
    rw [hh]
    exact ⟨rfl, fun hc => absurd hc.symm hrr, fun _ hb => (by cases hb)⟩

/-- **A null node is dereferenced.** -/
theorem TableInv.crash {x : Nat} (h : TableInv t L v none none) (hh : t.handler = .crashed) :
    TableInv { t.note (.absentNode x) with handler := .crashed } L v none none := by
  refine h.control (LifeRule.life_append_other (R := subLife) rfl)
    (LifeRule.life_append_other (R := reqLife) rfl) (h.lawful.other rfl) (h.reqLawful.other rfl)
    ?_ (fun _ => by rw [hh]) (fun _ => rfl) (fun _ _ => trivial) (fun _ _ hm => hm) trivial ?_
  · intro r y hb
    rw [hh] at hb
    cases hb
  · intro r
    show (t.hist ++ [Event.absentNode x]).countP (Event.isPopped r) = _
      ∧ (t.hist ++ [Event.absentNode x]).countP (Event.isIssued r) = _
    rw [List.countP_append, List.countP_append]
    exact ⟨rfl, rfl⟩

/-! ## §4. Calls return. -/

/-- **`backend_call` returns.** -/
theorem TableInv.callReturned {x : Nat} {stack : List CallFrame} {ret : Int}
    (h : TableInv t L v none none) (hstack : t.stack = .backendCall x :: stack)
    (hret : ret ≠ 0 → ∃ sr, t.subs x = some sr ∧ sr.state = .poolReturned) :
    TableInv ({ t with stack := stack }.callReturned x ret) L v none none := by
  have hpopped : TableInv { t with stack := stack } L v none none := by
    refine h.control rfl rfl h.lawful h.reqLawful (fun _ _ hb => hb) (fun _ => rfl) ?_
      (fun _ hc => hc) ?_ h.handler (fun _ => ⟨rfl, rfl⟩)
    · intro r
      unfold ReqTable.halfDone
      rw [hstack, List.countP_cons]
      rfl
    · intro r y hy
      rw [hstack]
      exact List.mem_cons_of_mem _ hy
  unfold ReqTable.callReturned
  by_cases hzero : ret ≠ 0
  · obtain ⟨sr, hs, hstate⟩ := hret hzero
    rw [if_pos hzero]
    exact hpopped.callFailed hs hstate
  · rw [if_neg hzero]
    exact hpopped

end RedisAgent
