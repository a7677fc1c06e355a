/-
  RedisAgent.Event.Wakeup — no event is lost between the threads and the loop.

  A thread links its pair first and makes `custom_event` active afterwards; the loop
  clears the flag first and looks at the list afterwards.  So whenever the loop is in libevent
  with the flag cleared, every pair whose thread is through with `event_trigger` was in the
  list when the loop last found it empty, and has been taken off (`EventInv.woken`).  With the
  flag set the loop may be asleep, and the pairs wait until it wakes.

  Main results:
    • `event_trigger_not_lost` — in every interleaving, what the loop has handled is the
      first part of what was produced, and every event whose `event_trigger` has returned is
      handled, being handled, or announced by the flag.
    • `event_loop_drains` — once nobody is inside `event_trigger`, a loop that is awake
      calls, on its own, the registered callback of every pair that is left, in order, and
      sleeps.
-/
import Mathlib.Data.List.Perm.Subperm
import RedisAgent.Event.Fifo
import RedisAgent.Event.Loop

namespace RedisAgent

/-! ## §1. What one statement of the list does to its history. -/

/-- The statements of `list_consume` that are left, the loop's own included. -/
def ConsumeStmt.left : ConsumeStmt → Nat
  | .check => 8
  | .readHead => 7
  | .readKey => 6
  | .readData => 5
  | .setHead => 4
  | .free => 3
  | .ret => 2

/-- What a statement of the consumer leaves alone. -/
structure TsList.SameProducers (s s' : TsList) : Prop where
  producers : s'.producers = s.producers
  produced : s'.produced = s.produced
  finished : s'.finished = s.finished

section

variable {s s' : TsList} {q : Nat} {c : ProduceCall}

/-- **A statement of a producer**: only `unlock` ends a call, and none of them is seen
by the consumer. -/
theorem TsList.produce_history (hq : s.producers q = some c)
    (hexec : s.exec (.produce q) = some s') :
    s'.consumer = s.consumer ∧ s'.consumed = s.consumed
      ∧ s'.finished = s.finished ++ (if c.stmt = .unlock then [(c.key, c.data)] else []) := by
  rw [TsList.exec_produce hq] at hexec
  unfold TsList.produce TsList.store at hexec
  cases hstmt : c.stmt <;> simp only [hstmt, Option.map_map] at hexec
  -- a store goes through when the node is there
  all_goals first
    | (obtain ⟨n, -, rfl⟩ := Option.map_eq_some_iff.1 hexec
       refine ⟨rfl, rfl, ?_⟩
       show s.finished = s.finished ++ []
       rw [List.append_nil])
    | (cases hexec
       refine ⟨rfl, rfl, ?_⟩
       simp [TsList.goto])

/-- **A statement of the consumer**: the placeholder is seen, or `list_consume` returns a
pair, or it goes on. -/
theorem TsList.consume_history (hexec : s.exec .consume = some s') :
    s.SameProducers s' ∧
      ((s.consumer.stmt = .check ∧ s' = s
          ∧ ∃ n, s.head.bind s.nodes = some n ∧ n.isPlaceholder = true)
        ∨ (s.consumer.stmt = .ret
            ∧ s'.consumer = { s.consumer with stmt := .check }
            ∧ s'.consumed = s.consumed ++ [(s.consumer.key, s.consumer.data)])
        ∨ (s.consumer.stmt ≠ .ret
            ∧ (s.consumer.stmt = .check →
                ∃ n, s.head.bind s.nodes = some n ∧ n.isPlaceholder = false)
            ∧ s'.consumer.stmt.left < s.consumer.stmt.left
            ∧ s'.consumed = s.consumed)) := by
  have hstep : s.consume = some s' := hexec
  unfold TsList.consume at hstep
  cases hstmt : s.consumer.stmt <;> simp only [hstmt] at hstep
  case check =>
    obtain ⟨n, hn, hs'⟩ := Option.map_eq_some_iff.1 hstep
    by_cases hflag : n.isPlaceholder = true
    · rw [if_pos hflag] at hs'
      subst hs'
      exact ⟨⟨rfl, rfl, rfl⟩, Or.inl ⟨rfl, rfl, n, hn, hflag⟩⟩
    · rw [if_neg hflag] at hs'
      subst hs'
      have hne : ConsumeStmt.check ≠ .ret := by decide
      refine ⟨⟨rfl, rfl, rfl⟩, Or.inr (Or.inr ⟨hne, fun _ => ⟨n, hn, ?_⟩, ?_, rfl⟩)⟩
      · exact Bool.not_eq_true _ ▸ hflag
      · show 7 < 8
        omega
  case ret =>
    cases hstep
    exact ⟨⟨rfl, rfl, rfl⟩, Or.inr (Or.inl ⟨rfl, rfl, rfl⟩)⟩
  all_goals
    obtain ⟨n, -, rfl⟩ := Option.map_eq_some_iff.1 hstep
    refine ⟨⟨rfl, rfl, rfl⟩, Or.inr (Or.inr ⟨by decide, ?_, Nat.lt_succ_self _, rfl⟩)⟩
    intro h
    cases h

variable {l : List (Nat × ListPair)} {last : Nat}

/-- The list is empty: what the producers are through with has been consumed. -/
theorem QueueInv.finished_prefix (h : QueueInv s l last) (hl : l = [])
    (hhand : s.consumer.inHand = []) : s.finished <+: s.consumed := by
  have hboth := h.produced.symm.trans h.finished
  rw [hl, hhand, List.map_nil, List.append_nil, List.append_nil] at hboth
  cases hholder : s.holder with
  | none =>
      rw [hholder, Option.map_none, Option.map_none, Option.getD_none, List.append_nil,
        List.append_nil] at hboth
      exact hboth ▸ List.prefix_rfl
  | some c =>
      rw [hholder, Option.map_some, Option.map_some, Option.getD_some, Option.getD_some] at hboth
      unfold ProduceCall.pending at hboth
      by_cases hun : c.stmt.rank ≤ 7
      · -- the pair of the thread that holds the lock is on neither side
        rw [if_pos hun] at hboth
        exact List.append_cancel_right hboth ▸ List.prefix_rfl
      · rw [if_neg hun, List.append_nil] at hboth
        rw [hboth]
        exact List.prefix_append _ _

theorem QueueInv.consumed_prefix (h : QueueInv s l last) : s.consumed <+: s.produced := by
  rw [h.produced, List.append_assoc, List.append_assoc]
  exact List.prefix_append _ _

/-- Nobody is producing. -/
theorem QueueInv.produced_eq (h : QueueInv s l last) (hp : s.producers = fun _ => none) :
    s.produced = s.finished := by
  have hholder : s.holder = none := by
    unfold TsList.holder
    rw [hp]
    cases s.wlock <;> rfl
  rw [h.finished, hholder]
  exact List.append_nil _

end

/-! ## §2. The invariant. -/

variable {Cb : Type} {s s' : EventLoop Cb}

/-- **The invariant of the loop.** -/
structure EventInv (s : EventLoop Cb) : Prop where
  queue : ∃ l last, QueueInv s.list l last
  finished : s.list.finished.Perm (s.triggered ++ s.activating.map Prod.snd)
  between : s.loop ≠ .consume → s.list.consumer.stmt = .check
  handled : s.list.consumed
    = s.handled.map Prod.fst ++ (if s.loop = .lookup then [s.current] else [])
  woken : s.Outside → s.active = false → s.triggered.Subperm s.list.consumed

/-- What `event_trigger` has returned for was finished by `list_produce`. -/
theorem EventInv.triggered_finished (h : EventInv s) : s.triggered.Subperm s.list.finished :=
  ((List.sublist_append_left _ _).subperm).trans h.finished.symm.subperm

theorem EventInv.init (h : s.Initial) : EventInv s := by
  obtain ⟨a, hlist⟩ := h.list
  refine ⟨⟨[], a, QueueInv.init hlist⟩, ?_, fun _ => hlist.consumer, ?_, fun _ _ => ?_⟩
  · rw [hlist.finished, h.triggered, h.activating]
    exact List.Perm.refl _
  · rw [hlist.consumed, h.handled, h.loop]
    rfl
  · rw [h.triggered]
    exact List.nil_subperm

/-- A step of a producer leaves the consumer alone. -/
theorem EventInv.of_producer (h : EventInv s) {list : TsList} (activating : List (Nat × ListPair))
    (hq : ∃ l last, QueueInv list l last) (hcons : list.consumer = s.list.consumer)
    (hdone : list.consumed = s.list.consumed)
    (hfin : list.finished.Perm (s.triggered ++ activating.map Prod.snd)) :
    EventInv { s with list := list, activating := activating } := by
  refine ⟨hq, hfin, ?_, ?_, ?_⟩
  · intro hloop
    show list.consumer.stmt = .check
    rw [hcons]
    exact h.between hloop
  · show list.consumed = _
    rw [hdone, h.handled]
    unfold EventLoop.current
    rw [← hcons]
  · intro hloop hactive
    show s.triggered.Subperm list.consumed
    rw [hdone]
    exact h.woken hloop hactive

theorem EventInv.trigger (h : EventInv s) {p : Nat} {event : List UInt8} {param : Nat}
    {new : Option (Nat × TsListNode)} (hen : s.Enabled (.trigger p event param new)) :
    ∃ s', s.exec (.trigger p event param new) = some s' ∧ EventInv s' := by
  obtain ⟨l, last, hq⟩ := h.queue
  obtain ⟨list, hexec, hq'⟩ := hq.goes hen.1
  refine ⟨{ s with list := list }, ?_, ?_⟩
  · show (s.list.exec (.start p (strhash event) param new)).map _ = _
    rw [hexec]
    rfl
  · cases new with
    | none =>
        cases hexec
        exact h
    | some x =>
        cases hexec
        exact h.of_producer s.activating hq' rfl rfl h.finished

theorem EventInv.produce (h : EventInv s) {p : Nat} (hen : s.Enabled (.produce p)) :
    ∃ s', s.exec (.produce p) = some s' ∧ EventInv s' := by
  obtain ⟨l, last, hq⟩ := h.queue
  have hlist : s.list.Enabled (.produce p) := hen
  obtain ⟨list, hexec, hq'⟩ := hq.goes hlist
  obtain ⟨c, hc, -⟩ := hlist
  obtain ⟨hcons, hdone, hfin⟩ := TsList.produce_history hc hexec
  have hstep : s.exec (.produce p) = some (if c.stmt = .unlock then
        { s with list := list, activating := (p, (c.key, c.data)) :: s.activating }
      else { s with list := list }) := by
    show s.produce p = _
    unfold EventLoop.produce
    simp only [hc, hexec, Option.map_some]
  refine ⟨_, hstep, ?_⟩
  by_cases hstmt : c.stmt = .unlock
  · rw [if_pos hstmt] at hfin ⊢
    refine h.of_producer _ hq' hcons hdone ?_
    -- the pair moves from the list's thread to those about to activate
    have hmoved := (List.perm_append_singleton (c.key, c.data)
      (s.activating.map Prod.snd)).append_left s.triggered
    rw [← List.append_assoc] at hmoved
    rw [hfin, List.map_cons]
    exact (h.finished.append_right _).trans hmoved
  · rw [if_neg hstmt] at hfin ⊢
    refine h.of_producer s.activating hq' hcons hdone ?_
    rw [hfin, List.append_nil]
    exact h.finished

theorem EventInv.activate (h : EventInv s) {p : Nat} {pair : ListPair}
    (hen : s.Enabled (.activate p pair)) :
    ∃ s', s.exec (.activate p pair) = some s' ∧ EventInv s' := by
  refine ⟨_, rfl, h.queue, ?_, h.between, h.handled, fun _ hactive => by cases hactive⟩
  have hmem : (p, pair) ∈ s.activating := hen
  show s.list.finished.Perm ((s.triggered ++ [pair]) ++ (s.activating.erase (p, pair)).map Prod.snd)
  rw [List.append_assoc]
  exact h.finished.trans (((List.perm_cons_erase hmem).map Prod.snd).append_left _)

theorem EventInv.consume (h : EventInv s) (hen : s.Enabled .consume) :
    ∃ s', s.exec .consume = some s' ∧ EventInv s' := by
  obtain ⟨l, last, hq⟩ := h.queue
  have hlist : s.list.Enabled .consume := trivial
  obtain ⟨list, hexec, hq'⟩ := hq.goes hlist
  obtain ⟨hsame, hcase⟩ := TsList.consume_history hexec
  have hloop : s.loop = .consume := hen
  have hdone : s.list.consumed = s.handled.map Prod.fst := by
    rw [h.handled, hloop]
    exact List.append_nil _
  have hstep : s.exec .consume = some { s with list := list, loop := s.afterConsume } := by
    show s.consume = _
    unfold EventLoop.consume
    rw [hexec]
    rfl
  have hfin : list.finished.Perm (s.triggered ++ s.activating.map Prod.snd) := by
    rw [hsame.finished]
    exact h.finished
  refine ⟨_, hstep, ?_⟩
  rcases hcase with ⟨hstmt, hs', n, hn, hflag⟩ | ⟨hstmt, hcons, htaken⟩ | ⟨hret, hflag, hleft, htaken⟩
  · -- the list is empty, so everything finished was taken off
    have hempty : s.emptyHead = true := by
      unfold EventLoop.emptyHead
      rw [hn]
      exact hflag
    obtain ⟨n', hn', hnil⟩ := hq.shape.head_flag
    have hl : l = [] := hnil.1 (by rw [hn] at hn'; cases hn'; exact hflag)
    have hhand : s.list.consumer.inHand = [] := by
      unfold ConsumeCall.inHand
      rw [hstmt]
    have hafter : s.afterConsume = .dispatch := by
      unfold EventLoop.afterConsume
      simp only [hstmt, hempty, if_true]
    rw [hafter]
    refine ⟨hq', hfin, fun _ => ?_, ?_, fun _ _ => ?_⟩
    · show list.consumer.stmt = .check
      rw [hs']
      exact hstmt
    · show list.consumed = s.handled.map Prod.fst ++ []
      rw [hs', hdone, List.append_nil]
    · show s.triggered.Subperm list.consumed
      rw [hs']
      exact h.triggered_finished.trans (hq.finished_prefix hl hhand).sublist.subperm
  · have hafter : s.afterConsume = .lookup := by
      unfold EventLoop.afterConsume
      simp only [hstmt]
    rw [hafter]
    refine ⟨hq', hfin, fun _ => ?_, ?_, fun hd => by rcases hd with hd | hd <;> cases hd⟩
    · show list.consumer.stmt = .check
      rw [hcons]
    · show list.consumed = s.handled.map Prod.fst ++ [(list.consumer.key, list.consumer.data)]
      rw [htaken, hdone, hcons]
  · have hafter : s.afterConsume = .consume := by
      unfold EventLoop.afterConsume
      cases hstmt : s.list.consumer.stmt with
      | check =>
          obtain ⟨n, hn, hno⟩ := hflag hstmt
          have hempty : s.emptyHead = false := by
            unfold EventLoop.emptyHead
            rw [hn]
            exact hno
          simp only [hempty]
          rfl
      | ret => exact absurd hstmt hret
      | _ => rfl
    rw [hafter]
    refine ⟨hq', hfin, fun hne => absurd rfl hne, ?_, fun hd => by rcases hd with hd | hd <;> cases hd⟩
    show list.consumed = s.handled.map Prod.fst ++ []
    rw [htaken, hdone, List.append_nil]

/-- In libevent the loop has called back for all it has consumed. -/
theorem EventInv.consumed_outside (h : EventInv s) (hout : s.Outside) :
    s.list.consumed = s.handled.map Prod.fst ++ [] := by
  rw [h.handled]
  rcases hout with hloop | hloop
  · rw [hloop]
    rfl
  · rw [hloop]
    rfl

/-- **Every enabled step** goes through, and keeps the invariant. -/
theorem EventInv.step (h : EventInv s) {op : EventOp Cb} (hen : s.Enabled op) :
    ∃ s', s.exec op = some s' ∧ EventInv s' := by
  cases op with
  | listen event cb => exact ⟨_, rfl, h.queue, h.finished, h.between, h.handled, h.woken⟩
  | trigger p event param new => exact h.trigger hen
  | produce p => exact h.produce hen
  | activate p pair => exact h.activate hen
  | dispatch =>
      have hloop : s.loop = .dispatch := hen.1
      refine ⟨_, rfl, h.queue, h.finished, fun hne => absurd rfl hne, ?_,
        fun hd => by rcases hd with hd | hd <;> cases hd⟩
      show s.list.consumed = s.handled.map Prod.fst ++ []
      rw [h.handled, hloop]
      rfl
  | sleep =>
      have hloop : s.loop = .dispatch := hen.1
      refine ⟨_, rfl, h.queue, h.finished, fun _ => h.between (by rw [hloop]; decide), ?_,
        fun _ hactive => h.woken (Or.inl hloop) hactive⟩
      show s.list.consumed = s.handled.map Prod.fst ++ []
      exact h.consumed_outside (Or.inl hloop)
  | wake =>
      have hloop : s.loop = .asleep := hen
      refine ⟨_, rfl, h.queue, h.finished, fun _ => h.between (by rw [hloop]; decide), ?_,
        fun _ hactive => h.woken (Or.inr hloop) hactive⟩
      show s.list.consumed = s.handled.map Prod.fst ++ []
      exact h.consumed_outside (Or.inr hloop)
  | consume => exact h.consume hen
  | call =>
      have hloop : s.loop = .lookup := hen
      refine ⟨_, rfl, h.queue, h.finished, fun hne => absurd rfl hne, ?_,
        fun hd => by rcases hd with hd | hd <;> cases hd⟩
      show s.list.consumed
        = (s.handled ++ [(s.current, s.map s.current.1)]).map Prod.fst ++ []
      rw [h.handled, hloop, List.map_append, List.append_nil]
      rfl

theorem EventInv.of_run {tr : List (EventLoop Cb × EventOp Cb)} (h : (eventLts Cb).Run tr s) :
    EventInv s := by
  induction h with
  | init hinit => exact EventInv.init hinit
  | step hrun hstep ih =>
      obtain ⟨s', hexec, hinv⟩ := ih.step hstep.1
      rw [hstep.2] at hexec
      cases hexec
      exact hinv

/-- What a user of the events sees. -/
structure EventsHandled (s : EventLoop Cb) : Prop where
  order : s.handled.map Prod.fst <+: s.list.produced
  notLost : s.Outside → s.active = false → s.triggered.Subperm (s.handled.map Prod.fst)
  caughtUp : s.Outside → s.active = false → s.NoTrigger →
    s.handled.map Prod.fst = s.list.produced
  noFault : ∀ op, s.Enabled op → s.exec op ≠ none

/-- Nobody is inside `event_trigger`: what is produced has been triggered. -/
theorem EventInv.produced_perm (h : EventInv s) (hno : s.NoTrigger) :
    s.list.produced.Perm s.triggered := by
  obtain ⟨l, last, hq⟩ := h.queue
  have hfin := h.finished
  rw [hno.activating, List.map_nil, List.append_nil] at hfin
  rw [hq.produced_eq hno.producers]
  exact hfin

theorem EventInv.events (h : EventInv s) : EventsHandled s := by
  obtain ⟨l, last, hq⟩ := h.queue
  refine ⟨?_, ?_, ?_, ?_⟩
  · have hpre := hq.consumed_prefix
    rw [h.handled] at hpre
    exact (List.prefix_append _ _).trans hpre
  · intro hout hactive
    have hdone := (h.consumed_outside hout).trans (List.append_nil _)
    rw [← hdone]
    exact h.woken hout hactive
  · intro hout hactive hno
    have hdone := (h.consumed_outside hout).trans (List.append_nil _)
    have hall : s.list.produced.Subperm s.list.consumed :=
      (h.produced_perm hno).subperm.trans (h.woken hout hactive)
    rw [← hdone]
    exact hq.consumed_prefix.sublist.eq_of_length_le hall.length_le
  · intro op hen hnone
    obtain ⟨s', hexec, -⟩ := h.step hen
    rw [hnone] at hexec
    cases hexec

/-- **No event is lost.**  For any number of threads and every interleaving of single
statements of `event_trigger`, `event_listen`, `custom_event_cb` and the loop, with
`event_active` as one statement: the pairs `custom_event_cb` is done with are the first of
those produced, in the order of the lock, each once; whenever the loop is in libevent, asleep
or not, with `custom_event` inactive, it is done with every event whose `event_trigger` has
returned, and with all that was produced when no thread is inside `event_trigger`; and no
statement reaches into a node that was freed. -/
theorem event_trigger_not_lost {tr : List (EventLoop Cb × EventOp Cb)}
    (h : (eventLts Cb).Run tr s) : EventsHandled s :=
  (EventInv.of_run h).events

/-! ## §3. The loop on its own. -/

/-- How many steps the loop has left at most.  An active event is worth a whole round more
than the one that is running. -/
def EventLoop.work (s : EventLoop Cb) : Nat :=
  9 * (s.list.produced.length - s.handled.length) + (if s.active then 10 else 0)
    + (match s.loop with
      | .asleep => 0
      | .dispatch => 1
      | .consume => s.list.consumer.stmt.left
      | .lookup => 1)

/-- **One step of the loop alone.** -/
structure LoopStep (s s' : EventLoop Cb) : Prop where
  inv : EventInv s'
  noTrigger : s'.NoTrigger
  work : s'.work < s.work
  map : s'.map = s.map
  produced : s'.list.produced = s.list.produced
  handled : ∃ r : List ListPair, s'.handled = s.handled ++ r.map (fun x => (x, s.map x.1))
  asleep : s'.loop = .asleep → s'.active = false

theorem EventInv.loop_dispatch (h : EventInv s) (hno : s.NoTrigger) (hloop : s.loop = .dispatch)
    (hactive : s.active = true) :
    ∃ s', s.exec .dispatch = some s' ∧ LoopStep s s' := by
  have hen : s.Enabled .dispatch := ⟨hloop, hactive⟩
  obtain ⟨s', hexec, hinv⟩ := h.step hen
  have hstmt := h.between (by rw [hloop]; decide)
  cases hexec
  refine ⟨_, rfl, hinv, ⟨hno.producers, hno.activating⟩, ?_, rfl, rfl, ⟨[], ?_⟩, fun _ => rfl⟩
  · -- the flag was worth 10, the round it starts takes 8 statements to the first pair
    show 9 * (s.list.produced.length - s.handled.length) + 0 + s.list.consumer.stmt.left < s.work
    unfold EventLoop.work
    simp only [hstmt, hloop, hactive, ConsumeStmt.left, if_true]
    omega
  · rw [List.map_nil, List.append_nil]

theorem EventInv.loop_sleep (h : EventInv s) (hno : s.NoTrigger) (hloop : s.loop = .dispatch)
    (hactive : s.active = false) :
    ∃ s', s.exec .sleep = some s' ∧ LoopStep s s' := by
  have hen : s.Enabled .sleep := ⟨hloop, hactive⟩
  obtain ⟨s', hexec, hinv⟩ := h.step hen
  cases hexec
  refine ⟨_, rfl, hinv, ⟨hno.producers, hno.activating⟩, ?_, rfl, rfl, ⟨[], ?_⟩, fun _ => hactive⟩
  · show 9 * (s.list.produced.length - s.handled.length) + (if s.active then 10 else 0) + 0 < s.work
    unfold EventLoop.work
    simp only [hloop]
    omega
  · rw [List.map_nil, List.append_nil]

theorem EventInv.loop_consume (h : EventInv s) (hno : s.NoTrigger) (hloop : s.loop = .consume) :
    ∃ s', s.exec .consume = some s' ∧ LoopStep s s' := by
  have hen : s.Enabled .consume := hloop
  obtain ⟨s', hexec, hinv⟩ := h.step hen
  have hstep : s.consume = some s' := hexec
  unfold EventLoop.consume at hstep
  obtain ⟨list, hlist, rfl⟩ := Option.map_eq_some_iff.1 hstep
  obtain ⟨hsame, hcase⟩ := TsList.consume_history hlist
  refine ⟨_, hexec, hinv, ⟨hsame.producers.trans hno.producers, hno.activating⟩, ?_, rfl,
    hsame.produced, ⟨[], by rw [List.map_nil, List.append_nil]⟩, fun hasleep => ?_⟩
  rotate_left
  · -- the callback goes back to libevent, not to `epoll_wait`
    have hasleep' : s.afterConsume = .asleep := hasleep
    unfold EventLoop.afterConsume at hasleep'
    split at hasleep'
    · split at hasleep'
      · cases hasleep'
      · cases hasleep'
    · cases hasleep'
    · cases hasleep'
  show 9 * (list.produced.length - s.handled.length) + (if s.active then 10 else 0) + _ < s.work
  unfold EventLoop.work
  rw [hsame.produced]
  refine Nat.add_lt_add_left ?_ _
  simp only [hloop]
  unfold EventLoop.afterConsume EventLoop.emptyHead
  rcases hcase with ⟨hstmt, -, n, hn, hflag⟩ | ⟨hstmt, -, -⟩ | ⟨hret, hflag, hleft, -⟩
  · simp only [hstmt, hn, hflag, if_true]
    decide
  · simp only [hstmt]
    decide
  · cases hstmt : s.list.consumer.stmt with
    | check =>
        obtain ⟨n, hn, hno'⟩ := hflag hstmt
        simp only [hn, hno']
        rw [hstmt] at hleft
        exact hleft
    | ret => exact absurd hstmt hret
    | _ =>
        rw [hstmt] at hleft
        exact hleft

theorem EventInv.loop_call (h : EventInv s) (hno : s.NoTrigger) (hloop : s.loop = .lookup) :
    ∃ s', s.exec .call = some s' ∧ LoopStep s s' := by
  have hen : s.Enabled .call := hloop
  obtain ⟨s', hexec, hinv⟩ := h.step hen
  obtain ⟨l, last, hq⟩ := h.queue
  have hstmt := h.between (by rw [hloop]; decide)
  -- the pair in hand is one of those produced and not handled
  have hlt : s.handled.length < s.list.produced.length := by
    have hpre := hq.consumed_prefix.length_le
    rw [h.handled, hloop, if_pos rfl, List.length_append, List.length_map] at hpre
    exact hpre
  cases hexec
  refine ⟨_, rfl, hinv, ⟨hno.producers, hno.activating⟩, ?_, rfl, rfl, ⟨[s.current], rfl⟩,
    fun hasleep => by cases hasleep⟩
  show 9 * (s.list.produced.length - (s.handled ++ [(s.current, s.map s.current.1)]).length)
    + (if s.active then 10 else 0) + s.list.consumer.stmt.left < s.work
  unfold EventLoop.work
  simp only [hstmt, hloop, ConsumeStmt.left, List.length_append, List.length_singleton]
  omega

theorem EventInv.loop_step (h : EventInv s) (hno : s.NoTrigger) {op : EventOp Cb}
    (hnext : s.next = some op) : ∃ s', s.exec op = some s' ∧ LoopStep s s' := by
  unfold EventLoop.next at hnext
  cases hloop : s.loop with
  | dispatch =>
      simp only [hloop] at hnext
      by_cases hactive : s.active = true
      · rw [if_pos hactive] at hnext
        cases hnext
        exact h.loop_dispatch hno hloop hactive
      · rw [if_neg hactive] at hnext
        cases hnext
        exact h.loop_sleep hno hloop (Bool.not_eq_true _ ▸ hactive)
  | asleep =>
      simp only [hloop] at hnext
      cases hnext
  | consume =>
      simp only [hloop] at hnext
      cases hnext
      exact h.loop_consume hno hloop
  | lookup =>
      simp only [hloop] at hnext
      cases hnext
      exact h.loop_call hno hloop

/-- The loop's thread waits only in `epoll_wait`. -/
theorem EventLoop.next_none_iff : s.next = none ↔ s.loop = .asleep := by
  unfold EventLoop.next
  cases hloop : s.loop with
  | dispatch =>
      simp only
      split
      · exact iff_of_false (fun h => by cases h) (fun h => by cases h)
      · exact iff_of_false (fun h => by cases h) (fun h => by cases h)
  | asleep => exact iff_of_true rfl rfl
  | consume => exact iff_of_false (fun h => by cases h) (fun h => by cases h)
  | lookup => exact iff_of_false (fun h => by cases h) (fun h => by cases h)

/-- By induction on the work that is left. -/
theorem EventInv.drains (n : Nat) : ∀ {s : EventLoop Cb}, EventInv s → s.NoTrigger →
    s.loop ≠ .asleep → s.work ≤ n →
    ∃ m ≤ n, ∃ s', s.runLoop m = some s' ∧ s'.loop = .asleep ∧ s'.active = false ∧ EventInv s'
      ∧ s'.NoTrigger ∧ s'.map = s.map ∧ s'.list.produced = s.list.produced
      ∧ ∃ r : List ListPair, s'.handled = s.handled ++ r.map (fun x => (x, s.map x.1)) := by
  induction n with
  | zero =>
      intro s h hno hawake hwork
      cases hnext : s.next with
      | none => exact absurd (EventLoop.next_none_iff.1 hnext) hawake
      | some op =>
          obtain ⟨s', -, hstep⟩ := h.loop_step hno hnext
          have hless := hstep.work
          omega
  | succ n ih =>
      intro s h hno hawake hwork
      cases hnext : s.next with
      | none => exact absurd (EventLoop.next_none_iff.1 hnext) hawake
      | some op =>
          obtain ⟨s₁, hexec, hstep⟩ := h.loop_step hno hnext
          have hless := hstep.work
          have hrun₁ : ∀ m, s.runLoop (m + 1) = s₁.runLoop m := by
            intro m
            show s.next.bind _ = _
            rw [hnext, Option.bind_some, hexec]
            rfl
          obtain ⟨r₁, hr₁⟩ := hstep.handled
          by_cases hloop : s₁.loop = .asleep
          · exact ⟨1, by omega, s₁, hrun₁ 0, hloop, hstep.asleep hloop, hstep.inv, hstep.noTrigger,
              hstep.map, hstep.produced, r₁, hr₁⟩
          · obtain ⟨m, hm, s', hrun, hend, hinactive, hinv, hno', hmap, hprod, r, hr⟩ :=
              ih hstep.inv hstep.noTrigger hloop (by omega)
            refine ⟨m + 1, by omega, s', (hrun₁ m).trans hrun, hend, hinactive, hinv, hno',
              hmap.trans hstep.map, hprod.trans hstep.produced, r₁ ++ r, ?_⟩
            rw [hr, hr₁, hstep.map, List.map_append, List.append_assoc]

/-- **The loop drains the list.**  From every reachable state in which no thread is inside
`event_trigger` and the loop is awake, its thread running alone falls asleep after at most
`work` steps, and by then has looked up and called, in the order of the lock, the registered
callback of each pair that was left, and nothing else. -/
theorem event_loop_drains {tr : List (EventLoop Cb × EventOp Cb)} (h : (eventLts Cb).Run tr s)
    (hno : s.NoTrigger) (hawake : s.loop ≠ .asleep) :
    ∃ m ≤ s.work, ∃ s', s.runLoop m = some s' ∧ s'.loop = .asleep
      ∧ s'.handled = s.handled
        ++ (s.list.produced.drop s.handled.length).map (fun x => (x, s.map x.1)) := by
  obtain ⟨m, hm, s', hrun, hend, hactive, hinv, hno', -, hprod, r, hr⟩ :=
    (EventInv.of_run h).drains s.work hno hawake (Nat.le_refl _)
  refine ⟨m, hm, s', hrun, hend, ?_⟩
  have hall := hinv.events.caughtUp (Or.inr hend) hactive hno'
  -- what the run has added is what was left
  have hleft : s.list.produced.drop s.handled.length = r := by
    rw [← hprod, ← hall, hr, List.map_append, List.map_map]
    have hlen : s.handled.length = (s.handled.map Prod.fst).length := (List.length_map _).symm
    rw [hlen, List.drop_left]
    exact List.map_id r
  rw [hleft, hr]

/-! ## §4. One event. -/

/-- The state after `event_init`. -/
def newLoop : EventLoop Nat where
  list := emptyList
  map := fun _ => none
  active := false
  activating := []
  loop := .dispatch
  triggered := []
  handled := []

theorem newLoop_initial : newLoop.Initial where
  list := ⟨1, emptyList_initial⟩
  map := rfl
  active := rfl
  activating := rfl
  loop := rfl
  triggered := rfl
  handled := rfl

theorem eventLts_step {tr : List (EventLoop Nat × EventOp Nat)} {s s' : EventLoop Nat}
    (h : (eventLts Nat).Run tr s) (op : EventOp Nat) (hen : s.Enabled op)
    (hexec : s.exec op = some s') : (eventLts Nat).Run (tr ++ [(s, op)]) s' :=
  h.step ⟨hen, hexec⟩

/-- The loop is asleep; thread 0 has linked its pair and unlocked the list, and is in front of
`event_active`. -/
theorem linked_run : ∃ tr s, (eventLts Nat).Run tr s ∧ s.list.producers = (fun _ => none)
    ∧ s.activating = [(0, (strhash [119], 7))] ∧ s.list.produced = [(strhash [119], 7)]
    ∧ s.triggered = [] ∧ s.handled = [] ∧ s.map (strhash [119]) = some 4
    ∧ s.loop = .asleep := by
  have h0 : (eventLts Nat).Run [] newLoop := .init newLoop_initial
  have h1' := eventLts_step h0 (.listen [119] 4) trivial rfl
  have h1 := eventLts_step h1' .sleep ⟨rfl, rfl⟩ rfl
  have h2 := eventLts_step h1 (.trigger 0 [119] 7 (some (2, ⟨none, 9, 9, false⟩)))
    ⟨⟨rfl, fun x hx => by cases hx; rfl⟩, fun x hx => by cases hx⟩ rfl
  have hstmt : ∀ {c : ProduceCall} {s : TsList}, s.producers 0 = some c → s.wlock = none ∨ c.stmt ≠ .lock →
      s.Enabled (.produce 0) := by
    intro c s hc hlock
    refine ⟨c, hc, fun hl => ?_⟩
    rcases hlock with hlock | hlock
    · exact hlock
    · exact absurd hl hlock
  have h3 := eventLts_step h2 (.produce 0) (hstmt rfl (Or.inl rfl)) rfl
  have h4 := eventLts_step h3 (.produce 0) (hstmt rfl (Or.inr (by decide))) rfl
  have h5 := eventLts_step h4 (.produce 0) (hstmt rfl (Or.inr (by decide))) rfl
  have h6 := eventLts_step h5 (.produce 0) (hstmt rfl (Or.inr (by decide))) rfl
  have h7 := eventLts_step h6 (.produce 0) (hstmt rfl (Or.inr (by decide))) rfl
  have h8 := eventLts_step h7 (.produce 0) (hstmt rfl (Or.inr (by decide))) rfl
  have h9 := eventLts_step h8 (.produce 0) (hstmt rfl (Or.inr (by decide))) rfl
  have h10 := eventLts_step h9 (.produce 0) (hstmt rfl (Or.inr (by decide))) rfl
  have h11 := eventLts_step h10 (.produce 0) (hstmt rfl (Or.inr (by decide))) rfl
  have h12 := eventLts_step h11 (.produce 0) (hstmt rfl (Or.inr (by decide))) rfl
  have hmap : Function.update (fun _ => none) (strhash [119]) (some 4) (strhash [119]) = some 4 :=
    Function.update_self _ _ _
  refine ⟨_, _, h12, ?_, rfl, rfl, rfl, rfl, hmap, rfl⟩
  funext p
  cases p with
  | zero => rfl
  | succ p => rfl

/-- The thread has returned from `event_trigger`, and the loop sleeps on with the flag set. -/
theorem activated_run : ∃ tr s, (eventLts Nat).Run tr s ∧ s.NoTrigger ∧ s.loop = .asleep
    ∧ s.active = true ∧ s.list.produced = [(strhash [119], 7)] ∧ s.handled = []
    ∧ s.triggered = [(strhash [119], 7)] ∧ s.map (strhash [119]) = some 4 := by
  obtain ⟨tr, s, hrun, hproc, hact, hprod, htrig, hnone, hmap, hasleep⟩ := linked_run
  have hen : s.Enabled (.activate 0 (strhash [119], 7)) := by
    show (0, (strhash [119], 7)) ∈ s.activating
    rw [hact]
    exact List.mem_singleton_self _
  refine ⟨_, _, eventLts_step hrun (.activate 0 (strhash [119], 7)) hen rfl, ⟨hproc, ?_⟩, hasleep,
    rfl, hprod, hnone, ?_, hmap⟩
  · show s.activating.erase (0, (strhash [119], 7)) = []
    rw [hact]
    exact List.erase_cons_head _ _
  · show s.triggered ++ [(strhash [119], 7)] = _
    rw [htrig]
    rfl

/-- The event waits for the loop to wake, and the flag says so. -/
theorem event_trigger_not_lost_witness :
    ∃ s : EventLoop Nat, s.loop = .asleep ∧ s.active = true
      ∧ s.triggered = [(strhash [119], 7)] ∧ s.handled = [] ∧ EventsHandled s := by
  obtain ⟨tr, s, hrun, -, hasleep, hactive, -, hnone, htrig, -⟩ := activated_run
  exact ⟨s, hasleep, hactive, htrig, hnone, event_trigger_not_lost hrun⟩

/-- The loop wakes, and calls back. -/
theorem event_loop_drains_witness :
    ∃ s : EventLoop Nat, s.NoTrigger ∧ ∃ m ≤ s.work, ∃ s', s.runLoop m = some s'
      ∧ s'.loop = .asleep ∧ s'.handled = [((strhash [119], 7), some 4)] := by
  obtain ⟨tr, s, hrun, hno, hasleep, -, hprod, hnone, -, hmap⟩ := activated_run
  have hrun' := eventLts_step hrun .wake hasleep rfl
  have hno' : EventLoop.NoTrigger { s with loop := .dispatch } := ⟨hno.producers, hno.activating⟩
  obtain ⟨m, hm, s', hloop, hend, hdone⟩ := event_loop_drains hrun' hno' (fun h => by cases h)
  refine ⟨_, hno', m, hm, s', hloop, hend, ?_⟩
  rw [hdone]
  show s.handled ++ (s.list.produced.drop s.handled.length).map (fun x => (x, s.map x.1)) = _
  rw [hnone, hprod]
  show [((strhash [119], 7), s.map (strhash [119]))] = _
  rw [hmap]

end RedisAgent
