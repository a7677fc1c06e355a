/-
  RedisAgent.Whitelist.Settles — the threads as Whitelist.Live sees them.

  Each statement of the threads is a step of `wlLts` on `WlThreads.abs`, or none: calling
  `event_trigger` is `trigger`, a call of `whitelist_changed_event` is `deliver`, and the
  statements in between only move a pair that `queued` has counted already.  So what
  Whitelist.Live says about its runs is said about the threads.

  Main results:
    • `whitelist_threads_refine` — the refinement, that no event is left behind when the
      threads are quiet, and which statement can fault;
    • `whitelist_reload_settles` — when every load and every `malloc` goes through, the
      quiet process holds and consults the whitelist loaded last, and has freed each of
      the others once.
-/
import RedisAgent.Whitelist.Threads

namespace RedisAgent

/-! ## §1. Statements of the event loop. -/

section

variable {s s' : TsList} {q : Nat} {c : ProduceCall}

/-- **A statement of a producer**: `lock` links the pair, nothing else does. -/
theorem TsList.produce_moves (hq : s.producers q = some c)
    (hexec : s.exec (.produce q) = some s') :
    s'.produced = s.produced ++ (if c.stmt = .lock then [(c.key, c.data)] else [])
      ∧ (∀ p, p ≠ q → s'.producers p = s.producers p)
      ∧ ∀ c', s'.producers q = some c' → c'.key = c.key ∧ c'.data = c.data ∧ c'.stmt ≠ .lock := by
  rw [TsList.exec_produce hq] at hexec
  have hgoto : ∀ (list : TsList) (c₁ : ProduceCall) (stmt : ProduceStmt),
      list.producers = s.producers → c₁.key = c.key → c₁.data = c.data → stmt ≠ .lock →
      (∀ p, p ≠ q → (list.goto q c₁ stmt).producers p = s.producers p)
        ∧ ∀ c', (list.goto q c₁ stmt).producers q = some c' →
          c'.key = c.key ∧ c'.data = c.data ∧ c'.stmt ≠ .lock := by
    intro list c₁ stmt hp hkey hdata hne
    refine ⟨fun p hpq => ?_, fun c' hc' => ?_⟩
    · show Function.update list.producers q _ p = _
      rw [Function.update_of_ne hpq, hp]
    · have hc'' : Function.update list.producers q (some { c₁ with stmt := stmt }) q = some c' := hc'
      rw [Function.update_self] at hc''
      cases hc''
      exact ⟨hkey, hdata, hne⟩
  unfold TsList.produce TsList.store at hexec
  cases hstmt : c.stmt <;> simp only [hstmt, Option.map_map] at hexec
  case lock =>
    cases hexec
    obtain ⟨hothers, hown⟩ := hgoto { s with
      wlock := some q
      produced := s.produced ++ [(c.key, c.data)] } c .readTail rfl rfl rfl (by decide)
    exact ⟨rfl, hothers, hown⟩
  case readTail =>
    cases hexec
    obtain ⟨hothers, hown⟩ := hgoto s { c with curTail := s.tail } .setKey rfl rfl rfl (by decide)
    exact ⟨(List.append_nil _).symm, hothers, hown⟩
  case setTail =>
    cases hexec
    obtain ⟨hothers, hown⟩ := hgoto { s with tail := c.newTail } c .unlock rfl rfl rfl (by decide)
    exact ⟨(List.append_nil _).symm, hothers, hown⟩
  case unlock =>
    cases hexec
    refine ⟨(List.append_nil _).symm, fun p hpq => Function.update_of_ne hpq _ _, fun c' hc' => ?_⟩
    have hc'' : Function.update s.producers q none q = some c' := hc'
    rw [Function.update_self] at hc''
    cases hc''
  -- the stores
  all_goals
    obtain ⟨n, -, rfl⟩ := Option.map_eq_some_iff.1 hexec
    refine ⟨(List.append_nil _).symm, ?_⟩
    exact hgoto _ c _ rfl rfl rfl (by decide)

end

variable {Cb : Type} {l l' : EventLoop Cb}

/-- What a step of the loop's own thread, or `event_active`, leaves alone. -/
structure EventLoop.SameProduced (l l' : EventLoop Cb) : Prop where
  producers : l'.list.producers = l.list.producers
  produced : l'.list.produced = l.list.produced
  map : l'.map = l.map

theorem EventLoop.consume_same (h : l.exec .consume = some l') :
    l.SameProduced l' ∧ l'.handled = l.handled ∧ l'.activating = l.activating := by
  have hstep : l.consume = some l' := h
  unfold EventLoop.consume at hstep
  obtain ⟨list, hlist, rfl⟩ := Option.map_eq_some_iff.1 hstep
  obtain ⟨hsame, -⟩ := TsList.consume_history hlist
  exact ⟨⟨hsame.producers, hsame.produced, rfl⟩, rfl, rfl⟩

/-- A statement of thread `p`. -/
theorem EventLoop.produce_moves {p : Nat} (h : l.exec (.produce p) = some l') :
    ∃ c, l.list.producers p = some c
      ∧ l'.list.produced = l.list.produced ++ (if c.stmt = .lock then [(c.key, c.data)] else [])
      ∧ (∀ q, q ≠ p → l'.list.producers q = l.list.producers q)
      ∧ (∀ c', l'.list.producers p = some c' → c'.key = c.key ∧ c'.data = c.data ∧ c'.stmt ≠ .lock)
      ∧ l'.handled = l.handled ∧ l'.map = l.map ∧ l'.loop = l.loop
      ∧ ∀ x ∈ l'.activating, x ∈ l.activating ∨ x = (p, (c.key, c.data)) := by
  have hstep : l.produce p = some l' := h
  unfold EventLoop.produce at hstep
  cases hc : l.list.producers p with
  | none =>
      simp only [hc] at hstep
      cases hstep
  | some c =>
      simp only [hc] at hstep
      obtain ⟨list, hlist, hl'⟩ := Option.map_eq_some_iff.1 hstep
      obtain ⟨hprod, hothers, hown⟩ := TsList.produce_moves hc hlist
      by_cases hstmt : c.stmt = .unlock
      · rw [if_pos hstmt] at hl'
        subst hl'
        refine ⟨c, rfl, hprod, hothers, hown, rfl, rfl, rfl, fun x hx => ?_⟩
        rcases List.mem_cons.1 hx with hx | hx
        · exact Or.inr hx
        · exact Or.inl hx
      · rw [if_neg hstmt] at hl'
        subst hl'
        exact ⟨c, rfl, hprod, hothers, hown, rfl, rfl, rfl, fun x hx => Or.inl hx⟩

/-- The pair in hand is the first of those not handled. -/
theorem EventInv.current_next (h : EventInv l) (hloop : l.loop = .lookup) :
    l.list.produced.drop l.handled.length
      = l.current :: l.list.produced.drop (l.handled.length + 1) := by
  obtain ⟨_, _, hq⟩ := h.queue
  obtain ⟨rest, hrest⟩ := hq.consumed_prefix
  rw [h.handled, hloop, if_pos rfl] at hrest
  have hlen : (l.handled.map Prod.fst).length = l.handled.length := List.length_map _
  rw [← hrest, List.append_assoc, ← hlen, List.drop_left, ← List.append_assoc]
  have hlen' : (l.handled.map Prod.fst).length + 1
      = (l.handled.map Prod.fst ++ [l.current]).length := by
    rw [List.length_append, List.length_singleton]
  rw [hlen', List.drop_left]
  rfl

theorem EventInv.handled_le (h : EventInv l) : l.handled.length ≤ l.list.produced.length := by
  have hle := (h.events.order).length_le
  rwa [List.length_map] at hle

/-! ## §2. The simulation. -/

variable {s s' : WlThreads}

/-- **The invariant**: thread 0, and nobody else, triggers the key; and its callback was
registered before the loop started. -/
structure ThreadsInv (s : WlThreads) : Prop where
  events : EventInv s.loop
  own : ∀ p c, s.loop.list.producers p = some c → (c.key = whitelistKey ↔ p = 0)
  activating : ∀ x ∈ s.loop.activating, (x.2.1 = whitelistKey ↔ x.1 = 0)
  listened : ∀ k, s.loop.map k = some .whitelistChanged → k = whitelistKey ∧ s.wl.main = .running
  dispatched : s.loop.loop ≠ .dispatch → s.loop.map whitelistKey = some .whitelistChanged

theorem ThreadsInv.init (h : wlThreadsLts.init s) : ThreadsInv s := by
  obtain ⟨-, hloop⟩ := h
  obtain ⟨a, hlist⟩ := hloop.list
  refine ⟨EventInv.init hloop, ?_, ?_, ?_, fun hne => absurd hloop.loop hne⟩
  · intro p c hc
    rw [hlist.producers] at hc
    cases hc
  · intro x hx
    rw [hloop.activating] at hx
    cases hx
  · intro k hk
    rw [hloop.map] at hk
    cases hk

/-- A step on the whitelists that leaves the event loop alone. -/
theorem ThreadsInv.ofWl (h : ThreadsInv s) {wl : WlState}
    (hmain : s.wl.main = .running → wl.main = .running) : ThreadsInv { s with wl := wl } :=
  ⟨h.events, h.own, h.activating, fun k hk => ⟨(h.listened k hk).1, hmain (h.listened k hk).2⟩,
    h.dispatched⟩

theorem WlThreads.waiting_congr (h : s'.loop.list.producers 0 = s.loop.list.producers 0) :
    s'.waiting = s.waiting := by
  unfold WlThreads.waiting
  rw [h]

theorem WlThreads.queued_congr (hprod : s'.loop.list.produced = s.loop.list.produced)
    (hproducers : s'.loop.list.producers 0 = s.loop.list.producers 0)
    (hhandled : s'.loop.handled = s.loop.handled) : s'.queued = s.queued := by
  unfold WlThreads.queued
  rw [WlThreads.waiting_congr hproducers, hprod, hhandled]

theorem queuedOf_append (l₁ l₂ : List ListPair) :
    queuedOf (l₁ ++ l₂) = queuedOf l₁ ++ queuedOf l₂ := by
  unfold queuedOf
  rw [List.filter_append, List.map_append]

theorem queuedOf_foreign {x : ListPair} (hx : x.1 ≠ whitelistKey) : queuedOf [x] = [] := by
  unfold queuedOf
  rw [List.filter_singleton, decide_eq_false hx]
  rfl

theorem queuedOf_own {x : ListPair} (hx : x.1 = whitelistKey) :
    queuedOf [x] = [wlObject x.2] := by
  unfold queuedOf
  rw [List.filter_singleton, decide_eq_true hx]
  rfl

theorem WlThreads.queued_eq (s : WlThreads) :
    s.queued = queuedOf (s.loop.list.produced.drop s.loop.handled.length) ++ queuedOf s.waiting :=
  queuedOf_append _ _

/-- Linking its pair, a thread moves it from one part of `queued` to the other. -/
theorem ThreadsInv.queued_produce (h : ThreadsInv s) {p : Nat} {l' : EventLoop WlCallback}
    (hexec : s.loop.exec (.produce p) = some l') :
    WlThreads.queued ⟨s.wl, l'⟩ = s.queued := by
  obtain ⟨c, hc, hprod, hothers, hown, hhandled, -⟩ := EventLoop.produce_moves hexec
  have hle := h.events.handled_le
  have hdrop : l'.list.produced.drop l'.handled.length
      = s.loop.list.produced.drop s.loop.handled.length
        ++ (if c.stmt = .lock then [(c.key, c.data)] else []) := by
    rw [hprod, hhandled, List.drop_append_of_le_length hle]
  rw [WlThreads.queued_eq, WlThreads.queued_eq]
  show queuedOf (l'.list.produced.drop l'.handled.length) ++ _ = _
  rw [hdrop, queuedOf_append]
  by_cases hp : p = 0
  · -- the pair was waiting, if it is linked now
    subst hp
    have hbefore : s.waiting = if c.stmt = .lock then [(c.key, c.data)] else [] := by
      unfold WlThreads.waiting
      simp only [hc]
    have hafter : WlThreads.waiting ⟨s.wl, l'⟩ = [] := by
      unfold WlThreads.waiting
      cases hc' : l'.list.producers 0 with
      | none => rfl
      | some c' =>
          obtain ⟨-, -, hne⟩ := hown c' hc'
          simp only [if_neg hne]
    rw [hbefore, hafter]
    show _ ++ _ ++ [] = _
    rw [List.append_nil]
  · -- a foreign pair does not count
    have hforeign : queuedOf (if c.stmt = .lock then [(c.key, c.data)] else []) = [] := by
      have hkey : c.key ≠ whitelistKey := fun hk => hp ((h.own p c hc).1 hk)
      split
      · exact queuedOf_foreign hkey
      · rfl
    have hsame : WlThreads.waiting ⟨s.wl, l'⟩ = s.waiting :=
      WlThreads.waiting_congr (hothers 0 (fun he => hp he.symm))
    rw [hforeign, hsame, List.append_nil]

/-- What a step is for Whitelist.Live: nothing, or the step it stands for. -/
def Simulated (s : WlThreads) (op : WlThreadsOp) (s' : WlThreads) : Prop :=
  s'.abs = s.abs ∨ ∃ op', op.toWl = some op' ∧ s.abs.Enabled op' ∧ s'.abs = s.abs.exec op'

/-- An event step that leaves the events and the whitelists as they are. -/
theorem Simulated.silent {op : WlThreadsOp} (hwl : s'.wl = s.wl) (hqueued : s'.queued = s.queued) :
    Simulated s op s' := by
  refine Or.inl ?_
  unfold WlThreads.abs
  rw [hwl, hqueued]

/-- The step does not read a whitelist that was released. -/
def WlThreadsOp.Reads (s : WlThreads) : WlThreadsOp → Prop
  | .check mtime _ => isWhitelistChanged s.wl mtime ≠ none
  | _ => True

/-- A step that has a result has not. -/
theorem WlThreadsOp.reads_of_exec {op : WlThreadsOp} (hexec : s.exec op = some s') : op.Reads s := by
  cases op with
  | check mtime f =>
      intro hnone
      have hfault : s.exec (.check mtime f) = none := if_pos hnone
      rw [hfault] at hexec
      cases hexec
  | _ => trivial

/-- A step goes through, keeps the invariant, and is simulated. -/
def Refines (s : WlThreads) (op : WlThreadsOp) : Prop :=
  ∃ s', s.exec op = some s' ∧ ThreadsInv s' ∧ Simulated s op s'

/-- The steps of Whitelist.Live that do not look at the events. -/
theorem WlState.exec_events (wl : WlState) (events : List (Option Nat)) {op : WlOp}
    (hop : op ≠ .deliver) (htrig : ∀ produced, op ≠ .trigger produced) :
    ({ wl with events := events } : WlState).exec op = { wl.exec op with events := events } := by
  cases op with
  | initLoad f =>
      unfold WlState.exec loadWhitelist
      simp only
      split
      · rfl
      · rfl
  | initAssign =>
      unfold WlState.exec
      simp only
      split
      · rfl
      · rfl
  | check mtime f =>
      have hsame : isWhitelistChanged { wl with events := events } mtime
          = isWhitelistChanged wl mtime := rfl
      unfold WlState.exec
      simp only [hsame]
      by_cases hch : isWhitelistChanged wl mtime = some true
      · simp only [if_pos hch]
        unfold loadWhitelist
        simp only
        split
        · rfl
        · rfl
      · simp only [if_neg hch]
  | trigger produced => exact absurd rfl (htrig produced)
  | deliver => exact absurd rfl hop

/-- `assign_whitelist` and the loads never take `server_init` back. -/
theorem WlState.exec_running (wl : WlState) {op : WlOp} (hen : wl.Enabled op)
    (hmain : wl.main = .running) : (wl.exec op).main = .running := by
  cases op with
  | initLoad f =>
      have hstart : wl.main = .starting := hen
      rw [hmain] at hstart
      cases hstart
  | initAssign =>
      obtain ⟨w, hw⟩ := hen
      rw [hmain] at hw
      cases hw
  | check mtime f =>
      unfold WlState.exec loadWhitelist
      simp only
      split
      · split
        · exact hmain
        · exact hmain
      · exact hmain
  | trigger produced =>
      obtain ⟨w, hw⟩ := hen
      unfold WlState.exec
      simp only [hw]
      exact hmain
  | deliver =>
      unfold WlState.exec
      simp only
      split
      · exact hmain
      · exact hmain

/-- **A step on the whitelists.** -/
theorem ThreadsInv.refines_wl (h : ThreadsInv s) {op : WlThreadsOp} {op' : WlOp}
    (habs : op.toWl = some op') (hexec : s.exec op = some { s with wl := s.wl.exec op' })
    (hen : s.wl.Enabled op') (hop : op' ≠ .deliver) (htrig : ∀ produced, op' ≠ .trigger produced)
    (hen' : s.abs.Enabled op') : Refines s op := by
  refine ⟨_, hexec, h.ofWl (s.wl.exec_running hen), Or.inr ⟨op', habs, hen', ?_⟩⟩
  exact (WlState.exec_events s.wl s.queued hop htrig).symm

/-- **`event_trigger` is called.** -/
theorem ThreadsInv.refines_trigger (h : ThreadsInv s) {new : Option (Nat × TsListNode)}
    (hen : s.Enabled (.trigger new)) : Refines s (.trigger new) := by
  obtain ⟨w, hw, hloop⟩ := hen
  obtain ⟨l', hl', hinv⟩ := h.events.step hloop
  have hfree : s.loop.list.producers 0 = none := hloop.1.1
  have hexec : s.exec (.trigger new) = some ⟨{ s.wl with loop := .checking }, l'⟩ := by
    unfold WlThreads.exec
    simp only [hw, hl']
    rfl
  have habs : s.abs.Enabled (.trigger new.isSome) := ⟨w, hw⟩
  refine ⟨_, hexec, ?_, Or.inr ⟨_, rfl, habs, ?_⟩⟩
  · cases new with
    | none =>
        cases hl'
        exact ⟨hinv, h.own, h.activating, h.listened, h.dispatched⟩
    | some x =>
        cases hl'
        refine ⟨hinv, ?_, h.activating, h.listened, h.dispatched⟩
        intro p c hc
        by_cases hp : p = 0
        · subst hp
          have hc' : Function.update s.loop.list.producers 0 _ 0 = some c := hc
          rw [Function.update_self] at hc'
          cases hc'
          exact iff_of_true rfl rfl
        · have hc' : Function.update s.loop.list.producers 0 _ p = some c := hc
          rw [Function.update_of_ne hp] at hc'
          exact h.own p c hc'
  · have hnone : s.waiting = [] := by
      unfold WlThreads.waiting
      simp only [hfree]
    have hqueued : s.queued
        = queuedOf (s.loop.list.produced.drop s.loop.handled.length) := by
      rw [WlThreads.queued_eq, hnone]
      exact List.append_nil _
    unfold WlState.exec
    simp only [WlThreads.abs, hw]
    cases new with
    | none =>
        cases hl'
        rfl
    | some x =>
        cases hl'
        -- its pair is queued from now on
        have hnew : WlThreads.queued ⟨{ s.wl with loop := .checking },
            { s.loop with list := { s.loop.list with
                nodes := Function.update s.loop.list.nodes x.1 (some x.2)
                producers := Function.update s.loop.list.producers 0
                  (some ⟨strhash whitelistChanged, wlPointer w, x.1, x.1, .lock⟩) } }⟩
            = s.queued ++ [w] := by
          rw [WlThreads.queued_eq, hqueued]
          congr 1
          unfold WlThreads.waiting
          simp only [Function.update_self, if_true]
          rw [queuedOf_own (by rfl)]
          exact congrArg (fun x => [x]) (wlObject_wlPointer w)
        simp only [Option.isSome_some, if_true]
        exact congrArg (fun q => ({ s.wl with events := q, loop := .checking } : WlState)) hnew

/-- A call of a callback. -/
theorem ThreadsInv.refines_call (h : ThreadsInv s) (hen : s.Enabled (.event .call)) :
    Refines s (.event .call) := by
  obtain ⟨hloop, -⟩ := hen
  have hlookup : s.loop.loop = .lookup := hloop
  obtain ⟨l', hl', hinv⟩ := h.events.step hloop
  have hnext := h.events.current_next hlookup
  have hmap := h.dispatched (by rw [hlookup]; decide)
  obtain ⟨-, hmain⟩ := h.listened _ hmap
  have hexec : s.exec (.event .call) = some ⟨s.callback .call, l'⟩ := by
    show (s.loop.exec .call).map _ = _
    rw [hl']
    rfl
  cases hl'
  -- what is queued begins with the pair in hand, if it is ours
  have hqueued : s.queued = queuedOf [s.loop.current]
      ++ WlThreads.queued ⟨s.callback .call, { s.loop with
        handled := s.loop.handled ++ [(s.loop.current, s.loop.map s.loop.current.1)]
        loop := .consume }⟩ := by
    have hlen : (s.loop.handled ++ [(s.loop.current, s.loop.map s.loop.current.1)]).length
        = s.loop.handled.length + 1 := by
      rw [List.length_append, List.length_singleton]
    rw [WlThreads.queued_eq s, hnext, ← List.singleton_append, queuedOf_append,
      List.append_assoc, WlThreads.queued_eq]
    simp only [hlen]
    rfl
  refine ⟨_, hexec, ?_, ?_⟩
  · refine ⟨hinv, h.own, h.activating, fun k hk => ⟨(h.listened k hk).1, ?_⟩, fun _ => hmap⟩
    show (s.callback .call).main = .running
    unfold WlThreads.callback
    simp only
    split
    · exact hmain
    · exact hmain
  · by_cases hkey : s.loop.current.1 = whitelistKey
    · have hours : s.loop.map s.loop.current.1 = some .whitelistChanged := by
        rw [hkey]
        exact hmap
      have hcall : s.callback .call = assignWhitelist s.wl (wlObject s.loop.current.2) := by
        unfold WlThreads.callback
        simp only [if_pos hours]
      rw [queuedOf_own hkey] at hqueued
      refine Or.inr ⟨.deliver, rfl, ⟨hmain, ?_⟩, ?_⟩
      · show s.queued ≠ []
        rw [hqueued]
        exact List.cons_ne_nil _ _
      · unfold WlState.exec
        simp only [WlThreads.abs]
        rw [hqueued]
        simp only [hcall]
        rfl
    · have hnot : s.loop.map s.loop.current.1 ≠ some .whitelistChanged :=
        fun hk => hkey (h.listened _ hk).1
      rw [queuedOf_foreign hkey] at hqueued
      refine Simulated.silent ?_ hqueued.symm
      show s.callback .call = s.wl
      unfold WlThreads.callback
      simp only [if_neg hnot]

/-- **A statement of the event loop**, or of a thread in `event_trigger`. -/
theorem ThreadsInv.refines_event (h : ThreadsInv s) {op : EventOp WlCallback}
    (hen : s.Enabled (.event op)) : Refines s (.event op) := by
  obtain ⟨hloop, hforeign⟩ := hen
  obtain ⟨l', hl', hinv⟩ := h.events.step hloop
  have hexec : s.exec (.event op) = some ⟨s.callback op, l'⟩ := by
    show (s.loop.exec op).map _ = _
    rw [hl']
    rfl
  cases op with
  | listen event cb =>
      cases hl'
      obtain ⟨hkey, hcb⟩ := hforeign
      refine ⟨_, hexec, ⟨hinv, h.own, h.activating, ?_, ?_⟩, Simulated.silent rfl rfl⟩
      · intro k hk
        have hk' : Function.update s.loop.map (strhash event) (some cb) k
          = some .whitelistChanged := hk
        by_cases he : k = strhash event
        · rw [he, Function.update_self] at hk'
          exact absurd (Option.some.inj hk') hcb
        · rw [Function.update_of_ne he] at hk'
          exact h.listened k hk'
      · intro hne
        show Function.update s.loop.map (strhash event) (some cb) whitelistKey = _
        rw [Function.update_of_ne hkey.symm]
        exact h.dispatched hne
  | trigger p event param new =>
      obtain ⟨hp, hkey⟩ := hforeign
      cases new with
      | none =>
          cases hl'
          exact ⟨_, hexec, ⟨hinv, h.own, h.activating, h.listened, h.dispatched⟩,
            Simulated.silent rfl rfl⟩
      | some x =>
          cases hl'
          refine ⟨_, hexec, ⟨hinv, ?_, h.activating, h.listened, h.dispatched⟩,
            Simulated.silent rfl ?_⟩
          · intro q c hc
            by_cases hq : q = p
            · subst hq
              have hc' : Function.update s.loop.list.producers q _ q = some c := hc
              rw [Function.update_self] at hc'
              cases hc'
              exact iff_of_false hkey hp
            · have hc' : Function.update s.loop.list.producers p _ q = some c := hc
              rw [Function.update_of_ne hq] at hc'
              exact h.own q c hc'
          · exact WlThreads.queued_congr rfl (Function.update_of_ne (Ne.symm hp) _ _) rfl
  | produce p =>
      obtain ⟨c, hc, -, hothers, hown, -, hmap, hat, hact⟩ := EventLoop.produce_moves hl'
      refine ⟨_, hexec, ⟨hinv, ?_, ?_, ?_, ?_⟩, Simulated.silent rfl (h.queued_produce hl')⟩
      · intro q c' hc'
        by_cases hq : q = p
        · subst hq
          obtain ⟨hkey, -, -⟩ := hown c' hc'
          rw [hkey]
          exact h.own q c hc
        · exact h.own q c' ((hothers q hq).symm.trans hc')
      · intro x hx
        rcases hact x hx with hold | hnew
        · exact h.activating x hold
        · rw [hnew]
          exact h.own p c hc
      · intro k hk
        have hk' : l'.map k = some .whitelistChanged := hk
        rw [hmap] at hk'
        exact h.listened k hk'
      · intro hne
        show l'.map whitelistKey = _
        rw [hmap]
        have hne' : l'.loop ≠ .dispatch := hne
        rw [hat] at hne'
        exact h.dispatched hne'
  | activate p pair =>
      cases hl'
      refine ⟨_, hexec, ⟨hinv, h.own, ?_, h.listened, h.dispatched⟩, Simulated.silent rfl rfl⟩
      intro x hx
      exact h.activating x (List.mem_of_mem_erase hx)
  | dispatch =>
      cases hl'
      exact ⟨_, hexec, ⟨hinv, h.own, h.activating, h.listened, fun _ => hforeign⟩,
        Simulated.silent rfl rfl⟩
  | sleep =>
      cases hl'
      exact ⟨_, hexec, ⟨hinv, h.own, h.activating, h.listened, fun _ => hforeign⟩,
        Simulated.silent rfl rfl⟩
  | wake =>
      cases hl'
      exact ⟨_, hexec, ⟨hinv, h.own, h.activating, h.listened, fun hne => absurd rfl hne⟩,
        Simulated.silent rfl rfl⟩
  | consume =>
      obtain ⟨hsame, hhandled, hact⟩ := EventLoop.consume_same hl'
      have hat : s.loop.loop = .consume := hloop
      refine ⟨_, hexec, ⟨hinv, ?_, ?_, ?_, ?_⟩, Simulated.silent rfl ?_⟩
      · intro p c hc
        have hc' : l'.list.producers p = some c := hc
        rw [hsame.producers] at hc'
        exact h.own p c hc'
      · intro x hx
        have hx' : x ∈ l'.activating := hx
        rw [hact] at hx'
        exact h.activating x hx'
      · intro k hk
        have hk' : l'.map k = some .whitelistChanged := hk
        rw [hsame.map] at hk'
        exact h.listened k hk'
      · intro _
        show l'.map whitelistKey = _
        rw [hsame.map]
        exact h.dispatched (by rw [hat]; decide)
      · exact WlThreads.queued_congr hsame.produced (congrFun hsame.producers 0) hhandled
  | call => exact h.refines_call ⟨hloop, hforeign⟩

/-- **Every step** goes through, keeps the invariant, and is simulated. -/
theorem ThreadsInv.refines (h : ThreadsInv s) {op : WlThreadsOp} (hen : s.Enabled op)
    (hreads : op.Reads s) : Refines s op := by
  cases op with
  | initLoad f =>
      exact h.refines_wl rfl rfl hen (fun he => by cases he) (fun _ he => by cases he) hen
  | initAssign =>
      exact h.refines_wl rfl rfl hen (fun he => by cases he) (fun _ he => by cases he) hen
  | listen =>
      have hmain : s.wl.main = .running := hen
      have hexec : s.exec .listen = some { s with
          loop := { s.loop with
            map := Function.update s.loop.map whitelistKey (some .whitelistChanged) } } := rfl
      refine ⟨_, hexec, ⟨?_, h.own, h.activating, ?_, fun _ => ?_⟩, Simulated.silent rfl rfl⟩
      · exact ⟨h.events.queue, h.events.finished, h.events.between, h.events.handled,
          h.events.woken⟩
      · intro k hk
        have hk' : Function.update s.loop.map whitelistKey (some .whitelistChanged) k
          = some .whitelistChanged := hk
        by_cases he : k = whitelistKey
        · exact ⟨he, hmain⟩
        · rw [Function.update_of_ne he] at hk'
          exact h.listened k hk'
      · show Function.update s.loop.map whitelistKey (some .whitelistChanged) whitelistKey = _
        rw [Function.update_self]
  | check mtime f =>
      exact h.refines_wl rfl (if_neg hreads) ⟨hen.1, hreads⟩ (fun he => by cases he)
        (fun _ he => by cases he) ⟨hen.1, hreads⟩
  | trigger new => exact h.refines_trigger hen
  | event op => exact h.refines_event hen

theorem ThreadsInv.of_reachable (h : wlThreadsLts.Reachable s) : ThreadsInv s := by
  refine h.invariant (P := ThreadsInv) (fun s hs => ThreadsInv.init hs) ?_
  intro s op s' _ hinv hstep
  obtain ⟨hen, hexec⟩ := hstep
  obtain ⟨s₁, hexec₁, hinv₁, -⟩ := hinv.refines hen (WlThreadsOp.reads_of_exec hexec)
  rw [hexec] at hexec₁
  cases hexec₁
  exact hinv₁

/-! ## §3. Quiet. -/

/-- The pair is ours. -/
def isOurs (x : ListPair) : Bool := x.1 = whitelistKey

theorem countP_foreign {pairs : List ListPair} (h : ∀ x ∈ pairs, x.1 ≠ whitelistKey) :
    pairs.countP isOurs = 0 := by
  refine List.countP_eq_zero.2 (fun x hx hours => ?_)
  exact h x hx (of_decide_eq_true hours)

/-- **Nothing is left behind**: what thread 0 has triggered was handled before the loop
fell asleep. -/
theorem ThreadsInv.queued_quiet (h : ThreadsInv s) (hq : s.Quiet) : s.queued = [] := by
  have hout : s.loop.Outside := Or.inr hq.asleep
  obtain ⟨-, hfree, hnone⟩ := hq.checker
  obtain ⟨l, last, hlist⟩ := h.events.queue
  -- every pair of ours that was linked was triggered
  have hproduced : s.loop.list.produced.countP isOurs ≤ s.loop.triggered.countP isOurs := by
    have hholder : ((s.loop.list.holder.map (fun c => [(c.key, c.data)])).getD []).countP isOurs
        = 0 := by
      cases hc : s.loop.list.holder with
      | none => rfl
      | some c =>
          refine countP_foreign (fun x hx => ?_)
          rw [List.mem_singleton.1 hx]
          obtain ⟨p, -, hp⟩ := Option.bind_eq_some_iff.1 hc
          intro hkey
          rw [(h.own p c hp).1 hkey, hfree] at hp
          cases hp
    have hact : (s.loop.activating.map Prod.snd).countP isOurs = 0 := by
      refine countP_foreign (fun x hx => ?_)
      obtain ⟨y, hy, rfl⟩ := List.mem_map.1 hx
      exact fun hkey => hnone y hy ((h.activating y hy).1 hkey)
    have hperm := h.events.finished.countP_eq isOurs
    rw [List.countP_append, hact] at hperm
    rw [hlist.finished, List.countP_append, hperm]
    exact Nat.le_of_eq (Nat.add_eq_left.2 hholder)
  -- and what was triggered is handled
  have hhandled : s.loop.triggered.countP isOurs ≤ (s.loop.handled.map Prod.fst).countP isOurs := by
    exact (h.events.events.notLost hout hq.inactive).countP_le isOurs
  obtain ⟨rest, hrest⟩ := h.events.events.order
  have hlen : (s.loop.handled.map Prod.fst).length = s.loop.handled.length := List.length_map _
  have hdrop : s.loop.list.produced.drop s.loop.handled.length = rest := by
    rw [← hrest, ← hlen, List.drop_left]
  have hzero : rest.countP isOurs = 0 := by
    rw [← hrest, List.countP_append] at hproduced
    omega
  have hwaiting : s.waiting = [] := by
    unfold WlThreads.waiting
    simp only [hfree]
  rw [WlThreads.queued_eq, hdrop, hwaiting]
  have hfilter : rest.filter (fun x => x.1 = whitelistKey) = [] :=
    List.filter_eq_nil_iff.2 (List.countP_eq_zero.1 hzero)
  unfold queuedOf
  rw [hfilter]
  rfl

theorem WlThreads.abs_init (h : wlThreadsLts.init s) : s.abs = WlState.start := by
  obtain ⟨hwl, hloop⟩ := h
  obtain ⟨a, hlist⟩ := hloop.list
  have hqueued : s.queued = [] := by
    unfold WlThreads.queued WlThreads.waiting
    rw [hlist.produced, hlist.producers, hloop.handled]
    rfl
  unfold WlThreads.abs
  rw [hwl, hqueued]
  rfl

/-- What the threads do, Whitelist.Live does. -/
theorem WlThreads.abs_reachable (h : wlThreadsLts.Reachable s) : wlLts.Reachable s.abs := by
  refine h.simulate (π := WlThreads.abs) ?_ ?_
  · exact fun s hs => WlThreads.abs_init hs
  · intro s op s' hr hstep
    obtain ⟨hen, hexec⟩ := hstep
    obtain ⟨s₁, hexec₁, -, hsim⟩ :=
      (ThreadsInv.of_reachable hr).refines hen (WlThreadsOp.reads_of_exec hexec)
    rw [hexec] at hexec₁
    cases hexec₁
    rcases hsim with hsilent | ⟨op', -, hen', hmove⟩
    · exact Or.inl hsilent
    · exact Or.inr ⟨op', hen', hmove⟩

/-- What Whitelist.Live may count on. -/
structure WlRefined (s : WlThreads) : Prop where
  reachable : wlLts.Reachable s.abs
  delivered : s.Quiet → s.abs.events = []
  /-- only `is_whitelist_changed` can fault, and does where the whitelist it consults was
  released -/
  faults : ∀ op, s.Enabled op →
    (s.exec op = none ↔ (∃ mtime f, op = .check mtime f) ∧ s.wl.Dangling)

/-- **The threads refine Whitelist.Live.**  For every interleaving of the statements of
`whitelist_loop`, `event_trigger`, `custom_event_cb`, the loop, and any other threads with
events of their own: the two pointers, the heap, what was freed, and the events between them
are in a state that Whitelist.Live reaches with its whole steps; when the checking thread is
between two passes and the loop has been awake since the last `event_active`, no event is left;
and the one statement that can fault is `is_whitelist_changed`, exactly when the whitelist it
consults was released. -/
theorem whitelist_threads_refine (h : wlThreadsLts.Reachable s) : WlRefined s := by
  have hinv := ThreadsInv.of_reachable h
  have habs := WlThreads.abs_reachable h
  refine ⟨habs, hinv.queued_quiet, ?_⟩
  obtain ⟨tr, hrun⟩ := habs
  have hdangling := fun mtime => ((WlInv.of_run hrun).dangling_iff mtime 0).1
  intro op hen
  constructor
  · intro hnone
    have hnot : ¬ op.Reads s := by
      intro hreads
      obtain ⟨s', hexec, -⟩ := hinv.refines hen hreads
      rw [hnone] at hexec
      cases hexec
    cases op with
    | check mtime f => exact ⟨⟨mtime, f, rfl⟩, (hdangling mtime).1 (Classical.not_not.1 hnot)⟩
    | _ => exact absurd trivial hnot
  · rintro ⟨⟨mtime, f, hop⟩, hd⟩
    rw [hop]
    exact if_pos ((hdangling mtime).2 hd)

/-! ## §4. Runs without failures. -/

/-- `load_whitelist` of this file returns an object. -/
def WhitelistFile.Loads (f : WhitelistFile) : Prop :=
  ¬ (f.mtime < 0 ∨ f.opens = false ∨ f.assigns = false)

/-- The file can be read, and `malloc` has memory. -/
def WlOp.Smooth : WlOp → Prop
  | .initLoad f => f.Loads
  | .check _ f => f.Loads
  | .trigger produced => produced = true
  | .initAssign => True
  | .deliver => True

theorem WhitelistFile.Loads.loaded {f : WhitelistFile} (hf : f.Loads) (wl : WlState) :
    loadWhitelist wl f = (some wl.fresh, { wl with
      heap := Function.update wl.heap wl.fresh (some ⟨f.ipSet, f.mtime⟩)
      fresh := wl.fresh + 1
      consulted := some wl.fresh }) := by
  unfold loadWhitelist
  rw [if_neg hf]

/-- **Without failures** the ledger is in the order of the loads, and what is consulted is
the last of them. -/
structure SmoothInv (wl : WlState) : Prop where
  ledger : wl.released ++ wl.chain = List.range wl.fresh
  newest : wl.consulted = (List.range wl.fresh).getLast?
  main : wl.main ≠ .loaded none
  loop : wl.loop ≠ .loaded none
  events : none ∉ wl.events
  held : wl.main = .running → wl.held ≠ none

section

variable {wl : WlState}

/-- An object is loaded, and goes to the end of the chain. -/
theorem SmoothInv.load (h : SmoothInv wl) (wl' : WlState) (hreleased : wl'.released = wl.released)
    (hchain : wl'.chain = wl.chain ++ [wl.fresh]) (hfresh : wl'.fresh = wl.fresh + 1)
    (hconsulted : wl'.consulted = some wl.fresh) :
    wl'.released ++ wl'.chain = List.range wl'.fresh
      ∧ wl'.consulted = (List.range wl'.fresh).getLast? := by
  rw [hreleased, hchain, hfresh, hconsulted, ← List.append_assoc, h.ledger, List.range_succ]
  exact ⟨rfl, List.getLast?_concat.symm⟩

/-- **One step.** -/
theorem SmoothInv.step (h : SmoothInv wl) (hinv : WlInv wl) {op : WlOp} (hen : wl.Enabled op)
    (hop : op.Smooth) : SmoothInv (wl.exec op) := by
  cases op with
  | initLoad f =>
      have hmain : wl.main = .starting := hen
      obtain ⟨-, hev, hloop⟩ := hinv.quiet hmain
      have hheld := hinv.early (by rw [hmain]; decide)
      have hexec : wl.exec (.initLoad f) = { wl with
          heap := Function.update wl.heap wl.fresh (some ⟨f.ipSet, f.mtime⟩)
          fresh := wl.fresh + 1
          consulted := some wl.fresh
          main := .loaded (some wl.fresh) } := by
        simp only [WlState.exec, WhitelistFile.Loads.loaded hop]
      rw [hexec]
      have hchain : wl.chain = [] := by
        simp [WlState.chain, hmain, hev, hloop, hheld, InitState.pending, LoopState.pending]
      obtain ⟨hledger, hnewest⟩ := h.load { wl with
          heap := Function.update wl.heap wl.fresh (some ⟨f.ipSet, f.mtime⟩)
          fresh := wl.fresh + 1
          consulted := some wl.fresh
          main := .loaded (some wl.fresh) } rfl (by
        rw [hchain]
        simp [WlState.chain, hev, hloop, hheld, InitState.pending, LoopState.pending]) rfl rfl
      exact ⟨hledger, hnewest, (fun he => by cases he), h.loop, h.events, (fun he => by cases he)⟩
  | initAssign =>
      obtain ⟨w, hmain⟩ := hen
      have hheld := hinv.early (by rw [hmain]; exact fun he => by cases he)
      have hexec : wl.exec .initAssign = { wl with held := w, main := .running } := by
        simp only [WlState.exec, hmain, assignWhitelist, freeWhitelist, hheld, Option.toList_none,
          List.append_nil, reduceCtorEq, if_false]
      rw [hexec]
      refine ⟨?_, h.newest, (fun he => by cases he), h.loop, h.events, fun _ hw => ?_⟩
      · rw [← h.ledger]
        simp [WlState.chain, hmain, hheld, InitState.pending]
      · have hw' : w = none := hw
        rw [hw'] at hmain
        exact h.main hmain
  | check mtime f =>
      have hloop : wl.loop = .checking := hen.1
      by_cases hch : isWhitelistChanged wl mtime = some true
      · have hexec : wl.exec (.check mtime f) = { wl with
            heap := Function.update wl.heap wl.fresh (some ⟨f.ipSet, f.mtime⟩)
            fresh := wl.fresh + 1
            consulted := some wl.fresh
            loop := .loaded (some wl.fresh) } := by
          simp only [WlState.exec, if_pos hch, WhitelistFile.Loads.loaded hop]
        rw [hexec]
        obtain ⟨hledger, hnewest⟩ := h.load { wl with
            heap := Function.update wl.heap wl.fresh (some ⟨f.ipSet, f.mtime⟩)
            fresh := wl.fresh + 1
            consulted := some wl.fresh
            loop := .loaded (some wl.fresh) } rfl (by
          simp [WlState.chain, hloop, LoopState.pending]) rfl rfl
        exact ⟨hledger, hnewest, h.main, (fun he => by cases he), h.events, h.held⟩
      · have hexec : wl.exec (.check mtime f) = wl := by
          simp only [WlState.exec, if_neg hch]
        rw [hexec]
        exact h
  | trigger produced =>
      obtain ⟨w, hloop⟩ := hen
      have hproduced : produced = true := hop
      subst hproduced
      have hexec : wl.exec (.trigger true)
          = { wl with events := wl.events ++ [w], loop := .checking } := by
        simp only [WlState.exec, hloop, if_true]
      rw [hexec]
      refine ⟨?_, h.newest, h.main, (fun he => by cases he), ?_, h.held⟩
      · rw [← h.ledger]
        cases w <;> simp [WlState.chain, hloop, LoopState.pending]
      · intro hmem
        rcases List.mem_append.1 hmem with hold | hnew
        · exact h.events hold
        · rw [← List.mem_singleton.1 hnew] at hloop
          exact h.loop hloop
  | deliver =>
      obtain ⟨hmain, hne⟩ := hen
      obtain ⟨x, events, hev⟩ := List.exists_cons_of_ne_nil hne
      have hexec : wl.exec .deliver = { wl with
          heap := fun y => if wl.held = some y then none else wl.heap y
          events := events
          held := x
          released := wl.released ++ wl.held.toList } := by
        simp only [WlState.exec, hev, assignWhitelist, freeWhitelist]
      rw [hexec]
      have hx : x ≠ none ∧ none ∉ events := by
        have hnot := h.events
        rw [hev, List.mem_cons, not_or] at hnot
        exact ⟨Ne.symm hnot.1, hnot.2⟩
      refine ⟨?_, h.newest, h.main, h.loop, hx.2, fun _ => hx.1⟩
      rw [← h.ledger]
      have hcons : (x :: events).filterMap id = x.toList ++ events.filterMap id := by
        cases x <;> simp
      simp only [WlState.chain, hmain, InitState.pending, hev, hcons, Option.toList_none,
        List.append_nil, List.append_assoc]

end

theorem SmoothInv.start : SmoothInv WlState.start :=
  ⟨rfl, rfl, (fun he => by cases he), (fun he => by cases he), List.not_mem_nil,
    (fun he => by cases he)⟩

/-- The file can be read whenever it is, and `event_trigger` has memory. -/
def WlThreadsOp.Smooth (op : WlThreadsOp) : Prop := ∀ op', op.toWl = some op' → op'.Smooth

/-- The whitelists when nothing is going on. -/
structure WlSettled (s : WlThreads) : Prop where
  /-- one object was loaded last, it is the one server.cpp holds and clients are checked
  against -/
  inForce : ∃ w, s.wl.fresh = w + 1 ∧ s.wl.consulted = some w ∧ s.wl.held = some w
    -- and all others were freed, once, in the order they were loaded
    ∧ s.wl.released = List.range w

/-- **Reloading settles.**  In every interleaving in which the file can be read whenever the
whitelist is loaded and `event_trigger` has memory, however often the file changes and
wherever the threads are in the meantime: when nothing is going on, the whitelist loaded
last is held and consulted, and every other one has been freed exactly once.  An event that was
triggered while the loop slept is going on until the loop wakes. -/
theorem whitelist_reload_settles
    (h : (wlThreadsLts.restrict (fun _ op => op.Smooth)).Reachable s) (hq : s.Quiet) :
    WlSettled s := by
  have hall : wlThreadsLts.Reachable s ∧ (WlInv s.abs ∧ SmoothInv s.abs) := by
    refine h.invariant (P := fun s => wlThreadsLts.Reachable s ∧ (WlInv s.abs ∧ SmoothInv s.abs))
      ?_ ?_
    · intro s hs
      refine ⟨.init hs, ?_⟩
      rw [WlThreads.abs_init hs]
      exact ⟨WlInv.of_run (.init rfl), SmoothInv.start⟩
    · intro s op s' _ ih hstep
      obtain ⟨hr, hinv, hsmooth⟩ := ih
      obtain ⟨⟨hen, hexec⟩, hop⟩ := hstep
      refine ⟨hr.step ⟨hen, hexec⟩, ?_⟩
      obtain ⟨s₁, hexec₁, -, hsim⟩ :=
        (ThreadsInv.of_reachable hr).refines hen (WlThreadsOp.reads_of_exec hexec)
      rw [hexec] at hexec₁
      cases hexec₁
      rcases hsim with hsilent | ⟨op', hto, hen', hmove⟩
      · rw [hsilent]
        exact ⟨hinv, hsmooth⟩
      · rw [hmove]
        exact ⟨hinv.step hen', hsmooth.step hinv hen' (hop op' hto)⟩
  obtain ⟨hr, -, hsmooth⟩ := hall
  have hmain : s.wl.main = .running := hq.main
  have hloop : s.wl.loop = .checking := hq.checker.1
  have hqueued : s.queued = [] := (ThreadsInv.of_reachable hr).queued_quiet hq
  obtain ⟨w, hheld⟩ := Option.ne_none_iff_exists'.1 (hsmooth.held hmain)
  have hheld' : s.wl.held = some w := hheld
  -- the chain is what server.cpp holds
  have hchain : s.abs.chain = [w] := by
    simp [WlState.chain, WlThreads.abs, hmain, hloop, hqueued, hheld', InitState.pending,
      LoopState.pending]
  have hledger := hsmooth.ledger
  rw [hchain] at hledger
  have hpos : s.wl.fresh ≠ 0 := by
    intro hzero
    have hnil : s.abs.released ++ [w] = List.range s.wl.fresh := hledger
    rw [hzero] at hnil
    exact List.append_ne_nil_of_right_ne_nil _ (List.cons_ne_nil w []) hnil
  obtain ⟨n, hn⟩ : ∃ n, s.wl.fresh = n + 1 := Nat.exists_eq_succ_of_ne_zero hpos
  have hledger' : s.wl.released ++ [w] = List.range n ++ [n] := by
    have hrange : List.range (n + 1) = List.range n ++ [n] := List.range_succ
    rw [← hrange, ← hn]
    exact hledger
  obtain ⟨hreleased, hlast⟩ := List.append_inj' hledger' rfl
  cases hlast
  refine ⟨⟨w, hn, ?_, hheld', hreleased⟩⟩
  have hnewest : s.wl.consulted = (List.range s.wl.fresh).getLast? := hsmooth.newest
  rw [hnewest, hn, List.range_succ, List.getLast?_concat]

/-! ## §5. One reload. -/

/-- The process before `server_init`. -/
def newThreads : WlThreads where
  wl := WlState.start
  loop :=
    { list := emptyList
      map := fun _ => none
      active := false
      activating := []
      loop := .dispatch
      triggered := []
      handled := [] }

theorem newThreads_init : wlThreadsLts.init newThreads :=
  ⟨rfl, ⟨1, emptyList_initial⟩, rfl, rfl, rfl, rfl, rfl, rfl⟩

/-- Runs without failures. -/
abbrev smoothLts : Lts WlThreads WlThreadsOp := wlThreadsLts.restrict (fun _ op => op.Smooth)

theorem smoothLts_step {s s' : WlThreads} (h : smoothLts.Reachable s) (op : WlThreadsOp)
    (hop : op.Smooth) (hen : s.Enabled op) (hexec : s.exec op = some s') :
    smoothLts.Reachable s' :=
  h.step ⟨⟨hen, hexec⟩, hop⟩

/-- `server_init` is over, and the file has not changed since. -/
theorem newThreads_ready : ∃ s, smoothLts.Reachable s ∧ s.Quiet ∧ s.wl.fresh = 1 := by
  have hload : (⟨1, true, true, [7]⟩ : WhitelistFile).Loads := by
    unfold WhitelistFile.Loads
    decide
  have h0 : smoothLts.Reachable newThreads := .init newThreads_init
  have h1 := smoothLts_step h0 (.initLoad ⟨1, true, true, [7]⟩)
    (fun op' h => by cases h; exact hload) rfl rfl
  have h2 := smoothLts_step h1 .initAssign (fun op' h => by cases h; trivial) ⟨some 0, rfl⟩ rfl
  have h3 := smoothLts_step h2 .listen (fun op' h => by cases h) rfl rfl
  have h4 := smoothLts_step h3 (.check 1 ⟨1, true, true, [7]⟩)
    (fun op' h => by cases h; exact hload) ⟨rfl, rfl, fun x hx => by cases hx⟩ rfl
  have h5 := smoothLts_step h4 (.event .sleep) (fun op' h => by cases h) ⟨⟨rfl, rfl⟩, rfl⟩ rfl
  exact ⟨_, h5, ⟨rfl, ⟨rfl, rfl, fun x hx => by cases hx⟩, rfl, rfl⟩, rfl⟩

theorem whitelist_threads_refine_witness : ∃ s, s.Quiet ∧ WlRefined s := by
  obtain ⟨s, hs, hq, -⟩ := newThreads_ready
  have hr : wlThreadsLts.Reachable s := by
    obtain ⟨tr, hrun⟩ := hs
    exact ⟨tr, hrun.of_restrict.1⟩
  exact ⟨s, hq, whitelist_threads_refine hr⟩

theorem whitelist_reload_settles_witness : ∃ s, s.wl.fresh = 1 ∧ WlSettled s := by
  obtain ⟨s, hs, hq, hfresh⟩ := newThreads_ready
  exact ⟨s, hfresh, whitelist_reload_settles hs hq⟩

end RedisAgent
