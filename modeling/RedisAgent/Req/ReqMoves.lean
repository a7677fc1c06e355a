/-
  RedisAgent.Req.ReqMoves — the functions of req.cpp that work on a request.

  The clean-up loop, the counter, and the beginning and the end of a request.
-/
import RedisAgent.Req.SubMoves

namespace RedisAgent

open Links

variable {ν : Type*} {t t' : ReqTable ν} {L L' : Nat → List Nat} {v v' : View}
  {hole hole' owed owed' : Option Nat}

/-! ## §1. The clean-up loop. -/

/-- The front of the list. -/
theorem TableInv.popFront {x r : Nat} {q : Req} (h : TableInv t L v hole owed)
    (hr : t.reqs r = some q) (hx : q.subReqNotDone = some x) :
    ∃ l f, L r = x :: l ∧ t.fate x = some (r, f) ∧ f.Listed ∧ x ∉ l
      ∧ Family (Function.update t.heads r (some (t.links.next x)))
        (t.links.setPrev (t.links.next x) none) (Function.update L r l)
      ∧ Stale (t.links.setPrev (t.links.next x) none) (Function.update L r l) r x := by
  obtain ⟨l, hl, hfam, hstale⟩ := h.lists.pop (x := x) (by rw [heads_of hr, hx])
  obtain ⟨f, hf, hlisted⟩ := h.owner (x := x) (r := r) (by rw [hl]; exact List.mem_cons_self)
  have hnd := h.nodup hr
  rw [hl] at hnd
  exact ⟨l, f, hl, hf, hlisted, (List.nodup_cons.1 hnd).1, hfam, hstale⟩

/-- One pass more, one listed sub-request less. -/
theorem passes_pop {r x : Nat} {l : List Nat} {hist' : List Event} (hl : L r = x :: l)
    (hp : ∀ r', t.hist.countP (Event.isPopped r') + (L r').length
      ≤ t.hist.countP (Event.isIssued r'))
    (hpop : ∀ r', hist'.countP (Event.isPopped r')
      = t.hist.countP (Event.isPopped r') + (if r = r' then 1 else 0))
    (hiss : ∀ r', hist'.countP (Event.isIssued r') = t.hist.countP (Event.isIssued r')) :
    ∀ r', hist'.countP (Event.isPopped r') + (Function.update L r l r').length
      ≤ hist'.countP (Event.isIssued r') := by
  intro r'
  have hp' := hp r'
  rw [hpop r', hiss r']
  by_cases hrr : r' = r
  · subst hrr
    rw [Function.update_self, if_pos rfl]
    rw [hl, List.length_cons] at hp'
    omega
  · rw [Function.update_of_ne hrr, if_neg (fun heq => hrr heq.symm)]
    omega

/-- **The loop takes a sub-request off the list** and waits for the plugin, or
passes over it. -/
theorem TableInv.pop {x r : Nat} {q : Req} (h : TableInv t L v none owed) (hd : Handler ν)
    (hr : t.reqs r = some q) (ht : q.timeout = true) (hx : q.subReqNotDone = some x)
    (hh : t.handler = .timeoutCleanup r)
    (hhd : hd = .backendTimeout r x ∨ ((hd = .timeoutCleanup r ∨ hd = .crashed)
      ∧ ∀ f, t.fate x = some (r, f) → ¬ f.Pending)) :
    ∃ L', TableInv { t.pop r q x with handler := hd } L' v none owed := by
  obtain ⟨l, f, hl, hf, hlisted, hxl, hfam, hstale⟩ := h.popFront hr hx
  obtain ⟨hat, hown, -, hrem⟩ := h.alive hf hr
  have hmoves : Moves t.hist (t.hist ++ [.popped r x]) x (some (r, f)) :=
    (h.still hf).other rfl rfl
  have hreqs : ({ t.pop r q x with handler := hd } : ReqTable ν).reqs
      = Function.update t.reqs r (some { q with subReqNotDone := t.links.next x }) := rfl
  have hxoff : ∀ r', x ∉ Function.update L r l r' := by
    intro r' hm
    by_cases hrr : r' = r
    · rw [hrr, Function.update_self] at hm
      exact hxl hm
    · rw [Function.update_of_ne hrr] at hm
      exact hrr (hown r' hm).1
  have hcleans : hd.Cleans r := by
    rcases hhd with rfl | ⟨rfl | rfl, -⟩
    · rfl
    · rfl
    · trivial
  have hzero : ∀ r', hd.todo r' = 0 := by
    intro r'
    rcases hhd with rfl | ⟨rfl | rfl, -⟩ <;> rfl
  refine ⟨Function.update L r l, h.move
    { req := hr
      reqs := hreqs
      timeout := rfl
      called := rfl
      timeoutEvent := rfl
      moves := hmoves
      nextReq := rfl
      nextSub := fun _ _ => Iff.rfl
      born := ?_
      subs := fun _ _ => rfl
      lists := by rw [heads_update hreqs]; exact hfam
      onList := ?_
      otherLists := fun r' hrr => Function.update_of_ne hrr _ _
      wait := fun _ _ _ => Iff.rfl
      given := fun _ _ _ _ hm => hm
      holeBefore := Or.inl rfl
      holeAfter := Or.inl rfl
      inMemory := hat
      ownList := fun r' hm => absurd hm (hxoff r')
      listed := ?_
      removed := hrem
      inHand := fun hne => by cases hne
      waits := ?_
      owes := fun _ _ => Iff.rfl
      todo := ?_
      halfDone := fun _ _ => rfl
      cleans := ?_
      inTimeout := ?_
      frames := ?_
      handler := ?_
      count := ?_
      passes := ?_ }⟩
  · exact h.born hf
  · intro r' y hy
    by_cases hrr : r' = r
    · rw [hrr, Function.update_self, hl, List.mem_cons]
      exact ⟨Or.inr, fun hm => hm.resolve_left hy⟩
    · rw [Function.update_of_ne hrr]
  · intro _
    refine Or.inr ⟨ht, ?_⟩
    intro hp
    rcases hhd with hbt | ⟨-, hnot⟩
    · exact hbt
    · exact absurd hp (hnot f hf)
  · intro n hn
    obtain ⟨-, r', sr, hf', hs, hnode⟩ := h.waits n x hn
    rw [hf] at hf'
    cases hf'
    exact ⟨fun hc => (by cases hc), rfl, sr, hs, hnode⟩
  · intro r' _
    show hd.todo r' = _
    rw [hzero r', hh]
    rfl
  · intro r' hc
    rw [hh] at hc
    obtain rfl : r = r' := hc
    exact hcleans
  · intro r' y _ hb
    rw [hh] at hb
    cases hb
  · intro r' y hy
    by_cases hyx : y = x
    · obtain ⟨c, hc⟩ := h.frames r' y hy
      rw [hyx, hf] at hc
      cases hc
      exact hlisted.elim
    · exact Or.inl ⟨hyx, hy⟩
  · rcases hhd with rfl | ⟨rfl | rfl, -⟩
    · exact ⟨⟨_, Function.update_self .., ht⟩, hstale⟩
    · exact ⟨_, Function.update_self .., ht⟩
    · trivial
  · intro hfalse
    rw [ht] at hfalse
    cases hfalse
  · refine passes_pop hl h.passes ?_ ?_
    · intro r'
      show (t.hist ++ [Event.popped r x]).countP _ = _
      rw [List.countP_append, List.countP_singleton]
      simp only [Event.isPopped, decide_eq_true_eq]
    · intro r'
      show (t.hist ++ [Event.popped r x]).countP _ = _
      rw [List.countP_append]
      rfl

/-- **The loop takes a waiting sub-request off the list** and out of its queue. -/
theorem TableInv.popWaiting {x r : Nat} {q : Req}
    (h : TableInv t L v (some x) owed) (q' : Req) (hr : t.reqs r = some q) (ht : q.timeout = true)
    (hx : q.subReqNotDone = some x) (hh : t.handler = .timeoutCleanup r)
    (hq' : q' = { q with
      subReqNotDone := t.links.next x
      shardCount := q'.shardCount })
    (hreqs : t'.reqs = Function.update t.reqs r (some q'))
    (hsubs : t'.subs = Function.update t.subs x none)
    (hlinks : t'.links = t.links.setPrev (t.links.next x) none)
    (hhist : t'.hist = t.hist ++ [.popped r x] ++ [.removed x] ++ [.absentNode x])
    (hrest : t'.nextReq = t.nextReq ∧ t'.nextSub = t.nextSub ∧ t'.handler = t.handler
      ∧ t'.stack = t.stack) :
    ∃ L', TableInv t' L' v none owed := by
  obtain ⟨l, f, hl, hf, hlisted, hxl, hfam, hstale⟩ := h.popFront hr hx
  obtain ⟨-, hown, -, -⟩ := h.alive hf hr
  obtain ⟨r0, -, sr0, hf0, -⟩ := h.hand
  rw [hf] at hf0
  cases hf0
  obtain ⟨hnextReq, hnextSub, hhandler, hstack⟩ := hrest
  have hmoves : Moves t.hist t'.hist x (some (r, .removed)) := by
    rw [hhist]
    exact (((h.still hf).other (e := .popped r x) rfl rfl).step (e := .removed x) rfl rfl rfl).other
      rfl rfl
  have hhead : q'.subReqNotDone = t.links.next x := by rw [hq']
  have hxoff : ∀ r', x ∉ Function.update L r l r' := by
    intro r' hm
    by_cases hrr : r' = r
    · rw [hrr, Function.update_self] at hm
      exact hxl hm
    · rw [Function.update_of_ne hrr] at hm
      exact hrr (hown r' hm).1
  refine ⟨Function.update L r l, h.move
    { req := hr
      reqs := hreqs
      timeout := by rw [hq']
      called := by rw [hq']
      timeoutEvent := by rw [hq']
      moves := hmoves
      nextReq := hnextReq
      nextSub := fun _ _ => by rw [hnextSub]
      born := ?_
      subs := fun y hy => by rw [hsubs, Function.update_of_ne hy]
      lists := by rw [heads_update hreqs, hhead, hlinks]; exact hfam
      onList := ?_
      otherLists := fun r' hrr => Function.update_of_ne hrr _ _
      wait := fun _ _ _ => Iff.rfl
      given := fun _ _ _ _ hm => hm
      holeBefore := Or.inr rfl
      holeAfter := Or.inl rfl
      inMemory := fun _ => .removed (by rw [hsubs, Function.update_self])
      ownList := fun r' hm => absurd hm (hxoff r')
      listed := fun hl' => hl'.elim
      removed := fun _ => ht
      inHand := fun hne => by cases hne
      waits := fun n hn => absurd hn (h.hand_off n)
      owes := fun _ _ => Iff.rfl
      todo := fun _ _ => by rw [hhandler]
      halfDone := fun r' _ => by unfold ReqTable.halfDone; rw [hstack]
      cleans := fun r' hc => by rw [hhandler]; exact hc
      inTimeout := fun r' y _ hb => hhandler.trans hb
      frames := ?_
      handler := ?_
      count := ?_
      passes := ?_ }⟩
  · rw [hnextSub]
    exact h.born hf
  · intro r' y hy
    by_cases hrr : r' = r
    · rw [hrr, Function.update_self, hl, List.mem_cons]
      exact ⟨Or.inr, fun hm => hm.resolve_left hy⟩
    · rw [Function.update_of_ne hrr]
  · intro r' y hy
    rw [hstack] at hy
    by_cases hyx : y = x
    · obtain ⟨c, hc⟩ := h.frames r' y hy
      rw [hyx, hf] at hc
      cases hc
    · exact Or.inl ⟨hyx, hy⟩
  · rw [hhandler, hh]
    exact ⟨q', by rw [hreqs, Function.update_self], by rw [hq']; exact ht⟩
  · intro hfalse
    rw [ht] at hfalse
    cases hfalse
  · refine passes_pop hl h.passes ?_ ?_
    · intro r'
      rw [hhist, List.countP_append, List.countP_append, List.countP_append,
        List.countP_singleton, List.countP_singleton, List.countP_singleton]
      simp only [Event.isPopped, decide_eq_true_eq, Bool.false_eq_true, if_false, Nat.add_zero]
    · intro r'
      rw [hhist, List.countP_append, List.countP_append, List.countP_append]
      rfl

/-! ## §2. The counter, and the end of a request. -/

/-- The counter goes down, and is not zero yet. -/
theorem TableInv.pay {r : Nat} {q : Req} (h : TableInv t L v none (some r))
    (hr : t.reqs r = some q) (hmore : q.timeout = true ∨ 1 < q.shardCount) :
    TableInv (t.setReq r (some { q with shardCount := q.shardCount - 1 })) L v none none := by
  refine h.moveReq (r := r) { q with shardCount := q.shardCount - 1 }
    { reqs := rfl
      subs := rfl
      nextSub := rfl
      fate := rfl
      lawful := h.lawful
      reqLawful := h.reqLawful
      reqFate := fun _ _ => rfl
      reqFresh := h.reqFresh
      lists := (h.lists.of_sameHead hr rfl rfl rfl :
        Family (t.setReq r (some { q with shardCount := q.shardCount - 1 })).heads t.links L)
      own := fun x f _ => ⟨q, hr, fun ht => ht⟩
      inTimeout := fun _ _ _ _ _ hb => hb
      inv := ?_
      owes := ?_
      todo := fun _ _ => rfl
      halfDone := fun _ _ => rfl
      cleans := fun _ _ hc => hc
      frames := fun _ _ hm => hm
      handler := h.handler.congr (reqs_update_timeout hr rfl rfl) (fun _ _ _ hs => hs)
      passes := fun _ => ⟨rfl, rfl⟩ }
  · rcases ht : q.timeout with _ | _
    · obtain ⟨h1, h2, h3, hcount, -⟩ := h.running hr ht
      refine .running _ (Function.update_self ..) h1 h2 rfl h3 ?_ ?_
      · have howed : t.expected L (some r) r = t.expected L none r + 1 := by
          unfold ReqTable.expected
          rw [if_pos rfl]
          rfl
        show q.shardCount - 1 = (t.expected L none r : Int)
        rw [hcount, howed]
        push_cast
        omega
      · show 0 < q.shardCount - 1
        rcases hmore with hlate | hmore
        · rw [ht] at hlate
          cases hlate
        · omega
    · obtain ⟨h1, h2, h3⟩ := h.late hr ht
      exact .late _ (Function.update_self ..) h1 rfl h2 h3
  · intro r' hrr
    constructor
    · intro heq
      cases heq
    · intro heq
      exact absurd (Option.some.inj heq).symm hrr

/-- **`req_done`** frees a request none of whose sub-requests is pending. -/
theorem TableInv.done {r : Nat} {q : Req} {err : Int} (h : TableInv t L v none owed)
    (howed : owed = none ∨ owed = some r) (hr : t.reqs r = some q)
    (hset : ∀ x f, t.fate x = some (r, f) → f.Settled ∧ (q.timeout = false → f.Complete))
    (hhalf : t.halfDone r = 0) (hreqs : t'.reqs = Function.update t.reqs r none)
    (hsubs : t'.subs = fun x => (t.subs x).filter (fun sr => sr.r ≠ r))
    (hhist : t'.hist = t.hist ++ [.done r err])
    (hrest : t'.links = t.links ∧ t'.nextReq = t.nextReq ∧ t'.nextSub = t.nextSub
      ∧ t'.stack = t.stack)
    (hown : t'.handler.todo r = 0)
    (hother : ∀ r', r' ≠ r → t'.handler.todo r' = t.handler.todo r'
      ∧ (t.handler.Cleans r' → t'.handler.Cleans r')
      ∧ ∀ x, t.handler = .backendTimeout r' x → t'.handler = .backendTimeout r' x)
    (hhandler : HandlerInv t' (Function.update L r []) t'.handler) :
    TableInv t' (Function.update L r []) v none none := by
  obtain ⟨hlinks, hnextReq, hnextSub, hstack⟩ := hrest
  have hfate : t'.fate = t.fate := by
    unfold ReqTable.fate
    rw [hhist]
    exact LifeRule.life_append_other rfl
  have hstep : reqNext (t.reqFate r) (.done r err) = some (.answered q.timeout) := by
    rcases ht : q.timeout with _ | _
    · obtain ⟨-, -, hf, -⟩ := h.running hr ht
      rw [hf]
      rfl
    · obtain ⟨-, hf, -⟩ := h.late hr ht
      rw [hf]
      rfl
  have hreqFate : t'.reqFate = Function.update t.reqFate r (.answered q.timeout) := by
    unfold ReqTable.reqFate
    rw [hhist]
    exact LifeRule.life_append rfl hstep
  have hr' : t'.reqs r = none := by rw [hreqs, Function.update_self]
  have hry : ∀ r', r' ≠ r → t'.reqs r' = t.reqs r' := by
    intro r' hne
    rw [hreqs, Function.update_of_ne hne]
  have hheads : t'.heads = Function.update t.heads r none := by
    funext r'
    unfold ReqTable.heads
    rw [hreqs]
    by_cases hrr : r' = r
    · rw [hrr, Function.update_self, Function.update_self]
      rfl
    · rw [Function.update_of_ne hrr, Function.update_of_ne hrr]
  have hkeep : ∀ x sr, t.subs x = some sr → sr.r ≠ r → t'.subs x = some sr := by
    intro x sr hs hne
    rw [hsubs]
    show (t.subs x).filter _ = _
    rw [hs, Option.filter_some, if_pos (decide_eq_true hne)]
  have hdrop : ∀ x, t.subs x = none → t'.subs x = none := by
    intro x hs
    rw [hsubs]
    show (t.subs x).filter _ = _
    rw [hs]
    rfl
  have hmem : ∀ r' x, x ∈ Function.update L r [] r' → x ∈ L r' := by
    intro r' x hm
    by_cases hrr : r' = r
    · rw [hrr, Function.update_self] at hm
      cases hm
    · rw [Function.update_of_ne hrr] at hm
      exact hm
  have hnot : ∀ r', ¬ (none = some r' ∧ r' ≠ r) := fun r' hn => by cases hn.1
  refine ⟨?_, ?_, ?_, fun _ hx => (by cases hx), ?_, ?_, hhandler, ?_, ?_, ?_, ?_, ?_⟩
  · rw [hheads, hlinks]
    exact h.lists.drop r
  · intro x
    cases h.sub x with
    | unborn h1 h2 h3 =>
        exact .unborn (by rw [hfate]; exact h1) (hdrop x h2) (fun r' hm => h3 r' (hmem r' x hm))
    | gone r' f late h1 h2 h3 h4 h5 h6 h7 =>
        have hne : r' ≠ r := by
          intro heq
          rw [heq, hr] at h2
          cases h2
        refine .gone r' f late (by rw [hfate]; exact h1) ((hry r' hne).trans h2) ?_ (hdrop x h4)
          (fun r'' hm => h5 r'' (hmem r'' x hm)) h6 h7
        rw [hreqFate, Function.update_of_ne hne]
        exact h3
    | alive r' f q' h1 h2 h3 h4 h5 h6 =>
        have hat := h3 (fun hc => by cases hc)
        by_cases hne : r' = r
        · -- its request is freed, and it is freed with it
          subst hne
          obtain ⟨hs, hc⟩ := hset x f h1
          have hfreed : t'.subs x = none := by
            have hnone : ∀ sr, t.subs x = some sr → sr.r = r' → t'.subs x = none := by
              intro sr hs hsr
              rw [hsubs]
              show (t.subs x).filter _ = _
              rw [hs, Option.filter_some, if_neg (by simp [hsr])]
            cases hsub : t.subs x with
            | none => exact hdrop x hsub
            | some sr =>
                rw [hsub] at hat
                cases hat with
                | waiting _ _ _ _ _ _ _ => exact hs.elim
                | failed sr' ho hsr _ _ => exact hnone sr hsub (by cases ho; exact hsr)
                | held _ _ _ _ _ _ _ => exact hs.elim
                | refused sr' _ ho hsr _ => exact hnone sr hsub (by cases ho; exact hsr)
                | finished c hall => exact hnone sr hsub (hall sr rfl).1
                | removed ho => cases ho
          refine .gone r' f q.timeout (by rw [hfate]; exact h1) hr' ?_ hfreed ?_ hs hc
          · rw [hreqFate, Function.update_self]
          · intro r'' hm
            have hown'' := (h4 r'' (hmem r'' x hm)).1
            rw [hown'', Function.update_self] at hm
            cases hm
        · obtain ⟨-, -, hbt⟩ := hother r' hne
          have hsame : t'.subs x = t.subs x := by
            cases hsub : t.subs x with
            | none => exact hdrop x hsub
            | some sr =>
                refine hkeep x sr hsub ?_
                rw [hsub] at hat
                intro heq
                cases hat with
                | waiting sr' _ ho hsr _ _ _ => cases ho; exact hne (hsr.symm.trans heq)
                | failed sr' ho hsr _ _ => cases ho; exact hne (hsr.symm.trans heq)
                | held sr' _ ho hsr _ _ _ => cases ho; exact hne (hsr.symm.trans heq)
                | refused sr' _ ho hsr _ => cases ho; exact hne (hsr.symm.trans heq)
                | finished c hall => exact hne ((hall sr rfl).1.symm.trans heq)
                | removed ho => cases ho
          refine .alive r' f q' (by rw [hfate]; exact h1) ((hry r' hne).trans h2)
            (fun _ => by rw [hsame]; exact hat) (fun r'' hm => h4 r'' (hmem r'' x hm)) ?_ h6
          intro hl
          rcases h5 hl with hm | ⟨hlate, hp⟩
          · exact Or.inl (by rw [Function.update_of_ne hne]; exact hm)
          · exact Or.inr ⟨hlate, fun hpf => hbt x (hp hpf)⟩
  · intro r'
    by_cases hrr : r' = r
    · subst hrr
      refine .gone hr' hown ?_ (Or.inr ⟨q.timeout, by rw [hreqFate, Function.update_self]⟩)
      unfold ReqTable.halfDone
      rw [hstack]
      exact hhalf
    · obtain ⟨htodo, hcl, -⟩ := hother r' hrr
      refine (h.req r').congr (hry r' hrr) (by rw [hreqFate, Function.update_of_ne hrr])
        (Function.update_of_ne hrr _ _) (fun x _ => by rw [hfate]) htodo ?_ ?_ hcl
      · unfold ReqTable.halfDone
        rw [hstack]
      · constructor
        · intro heq
          cases heq
        · intro heq
          rcases howed with hn | hs
          · rw [hn] at heq
            cases heq
          · rw [hs] at heq
            exact absurd (Option.some.inj heq).symm hrr
  · intro n x hn
    obtain ⟨-, r', sr, hf, hs, hnode⟩ := h.waits n x hn
    have hne : r' ≠ r := by
      intro heq
      rw [heq] at hf
      exact (hset x _ hf).1
    refine ⟨fun hc => (by cases hc), r', sr, by rw [hfate]; exact hf, hkeep x sr hs ?_, hnode⟩
    obtain ⟨q', hq'⟩ := h.req_of_unsettled hf (fun hs => hs)
    obtain ⟨hat, -⟩ := h.alive hf hq'
    cases hat (fun hc => by cases hc) with
    | waiting sr' _ ho hsr _ _ _ =>
        rw [hs] at ho
        cases ho
        rw [hsr]
        exact hne
  · intro r' y hy
    rw [hstack] at hy
    rw [hfate]
    exact h.frames r' y hy
  · rw [hhist]
    exact h.lawful.other rfl
  · rw [hhist]
    exact h.reqLawful.step rfl hstep
  · rw [hfate, hnextSub]
    exact h.subFresh
  · intro r'
    rw [hreqFate, hnextReq]
    by_cases hrr : r' = r
    · subst hrr
      rw [Function.update_self, ← h.reqFresh r']
      constructor
      · intro heq
        cases heq
      · intro heq
        rw [heq] at hstep
        cases hstep
    · rw [Function.update_of_ne hrr]
      exact h.reqFresh r'
  · intro r'
    have hp := h.passes r'
    have hlen : (Function.update L r [] r').length ≤ (L r').length := by
      by_cases hrr : r' = r
      · rw [hrr, Function.update_self]
        exact Nat.zero_le _
      · rw [Function.update_of_ne hrr]
    have hpop : [Event.done r err].countP (Event.isPopped r') = 0 := rfl
    rw [hhist, List.countP_append, List.countP_append]
    omega

/-- What `req_done` leaves of a request that is there. -/
theorem reqDone_of {r : Nat} {q : Req} (hr : t.reqs r = some q) (hc : q.reqDoneCalled = false) :
    (t.reqDone r).reqs = Function.update t.reqs r none
      ∧ (t.reqDone r).subs = (fun x => (t.subs x).filter (fun sr => sr.r ≠ r))
      ∧ (t.reqDone r).hist = t.hist ++ [.done r q.errNo]
      ∧ (t.reqDone r).links = t.links ∧ (t.reqDone r).nextReq = t.nextReq
      ∧ (t.reqDone r).nextSub = t.nextSub ∧ (t.reqDone r).handler = t.handler
      ∧ (t.reqDone r).stack = t.stack := by
  have hdone : t.reqDone r = ((t.setReq r (some { q with reqDoneCalled := true })).note
      (.done r q.errNo)).reqCleanup r := by
    unfold ReqTable.reqDone
    rw [hr]
    show (if q.reqDoneCalled = true then t else _) = _
    rw [if_neg (by rw [hc]; exact nofun)]
  rw [hdone]
  refine ⟨?_, rfl, rfl, rfl, rfl, rfl, rfl, rfl⟩
  show Function.update (Function.update t.reqs r _) r none = _
  rw [Function.update_idem]

/-- A handler without work for `r`, whose time is not over, does not notice that
`r` goes. -/
theorem HandlerInv.forget {r : Nat} {q : Req} {hd : Handler ν} (h : HandlerInv t L hd)
    (hr : t.reqs r = some q) (ht : q.timeout = false) (htodo : hd.todo r = 0)
    (hreqs : t'.reqs = Function.update t.reqs r none) (hlinks : t'.links = t.links) :
    HandlerInv t' (Function.update L r []) hd := by
  have hkeep : ∀ r' q', r' ≠ r → t.reqs r' = some q' → t'.reqs r' = some q' := by
    intro r' q' hne hq'
    rw [hreqs, Function.update_of_ne hne]
    exact hq'
  have hne : ∀ r', (∃ q', t.reqs r' = some q' ∧ q'.timeout = true) → r' ≠ r := by
    intro r' hlate heq
    obtain ⟨q', hq', ht'⟩ := hlate
    rw [heq, hr] at hq'
    cases hq'
    rw [ht] at ht'
    cases ht'
  cases hd with
  | eventLoop => trivial
  | crashed => trivial
  | acquireShards r' todo =>
      refine ⟨h.1, ?_⟩
      intro hne'
      obtain ⟨q', hq', ht'⟩ := h.2 hne'
      refine ⟨q', hkeep r' q' ?_ hq', ht'⟩
      intro heq
      have hlen : (if r' = r then todo.length else 0) = 0 := htodo
      rw [if_pos heq] at hlen
      exact hne' (List.eq_nil_of_length_eq_zero hlen)
  | timeoutCleanup r' =>
      have hrr := hne r' h
      obtain ⟨q', hq', ht'⟩ := h
      exact ⟨q', hkeep r' q' hrr hq', ht'⟩
  | backendTimeout r' x =>
      have hrr := hne r' h.1
      obtain ⟨⟨q', hq', ht'⟩, hs⟩ := h
      refine ⟨⟨q', hkeep r' q' hrr hq', ht'⟩, ?_⟩
      have hmem : ∀ r'' y, y ∈ Function.update L r [] r'' → y ∈ L r'' := by
        intro r'' y hm
        by_cases heq : r'' = r
        · rw [heq, Function.update_self] at hm
          cases hm
        · rw [Function.update_of_ne heq] at hm
          exact hm
      rw [hlinks]
      refine ⟨fun r'' hm => hs.off r'' (hmem r'' x hm), hs.prev, ?_⟩
      intro y r'' hy hm
      rw [Function.update_of_ne hrr]
      exact hs.next y r'' hy (hmem r'' y hm)

/-- **The counter goes down**, and at zero the request is done. -/
theorem TableInv.countDown {r : Nat} {q : Req} (h : TableInv t L v none (some r))
    (hr : t.reqs r = some q) : ∃ L', TableInv (t.shardCountDown r) L' v none none := by
  have hdown : t.shardCountDown r
      = if q.shardCount - 1 = 0 ∧ q.timeout = false
        then (t.setReq r (some { q with shardCount := q.shardCount - 1 })).reqDone r
        else t.setReq r (some { q with shardCount := q.shardCount - 1 }) := by
    unfold ReqTable.shardCountDown
    rw [hr]
  rw [hdown]
  by_cases hzero : q.shardCount - 1 = 0 ∧ q.timeout = false
  · rw [if_pos hzero]
    obtain ⟨hcount0, ht⟩ := hzero
    obtain ⟨hcalled, -, -, hcount, -⟩ := h.running hr ht
    -- nothing is left: no counted sub-request, no call, no work for the router
    have hone : t.expected L (some r) r = 1 := by omega
    unfold ReqTable.expected at hone
    rw [if_pos rfl] at hone
    have hlist : (L r).countP (fun x => isCounted (t.fate x)) = 0 := by omega
    have hhalf : t.halfDone r = 0 := by omega
    have htodo : t.handler.todo r = 0 := by omega
    obtain ⟨h1, h2, h3, h4, h5, h6, h7, h8⟩ := reqDone_of
      (t := t.setReq r (some { q with shardCount := q.shardCount - 1 }))
      (Function.update_self ..) hcalled
    have hreqs : ((t.setReq r (some { q with shardCount := q.shardCount - 1 })).reqDone r).reqs
        = Function.update t.reqs r none := by
      rw [h1]
      show Function.update (Function.update t.reqs r _) r none = _
      rw [Function.update_idem]
    refine ⟨Function.update L r [], h.done (Or.inr rfl) hr ?_ hhalf hreqs h2 h3
      ⟨h4, h5, h6, h8⟩ (by rw [h7]; exact htodo)
      (fun r' _ => by rw [h7]; exact ⟨rfl, fun hc => hc, fun _ hb => hb⟩)
      (by rw [h7]; exact h.handler.forget hr ht htodo hreqs h4)⟩
    intro x f hf
    obtain ⟨hat, -, hl, hrem⟩ := h.alive hf hr
    have hlisted : f.Listed → isCounted (some (r, f)) = false := by
      intro hfl
      rcases hl hfl with hm | ⟨hlate, -⟩
      · have hnot := List.countP_eq_zero.1 hlist x hm
        rw [hf] at hnot
        exact Bool.eq_false_iff.2 hnot
      · rw [ht] at hlate
        cases hlate
    cases hat (fun hc => by cases hc) with
    | waiting _ _ _ _ _ _ _ => cases hlisted trivial
    | failed _ _ _ _ _ => exact ⟨trivial, fun _ => trivial⟩
    | held _ _ _ _ _ _ _ => cases hlisted trivial
    | refused _ _ _ _ _ => cases hlisted trivial
    | finished _ _ => exact ⟨trivial, fun _ => trivial⟩
    | removed _ =>
        have hlate := hrem rfl
        rw [ht] at hlate
        cases hlate
  · rw [if_neg hzero]
    refine ⟨L, h.pay hr ?_⟩
    rcases ht : q.timeout with _ | _
    · obtain ⟨-, -, -, -, hpos⟩ := h.running hr ht
      refine Or.inr ?_
      by_contra hle
      exact hzero ⟨by omega, ht⟩
    · exact Or.inl rfl

end RedisAgent
