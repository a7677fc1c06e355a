/-
  RedisAgent.Pool.Queues — what each queue function of pool.cpp does to the list
  its pointers spell.

  One rule per function, each an equation `f s = (result, { s with .. })` with
  the new links and ends named: every field that is not listed is unchanged by
  `rfl`.  Nothing above this file unfolds a queue function.
-/
import RedisAgent.Pool.Server

namespace RedisAgent

open Links

variable {σ : Type*}

/-! ## §1. The slot queues (`connect_queue_t`). -/

theorem poolUnconnectQueueGet_nil {s : ServerInfo σ}
    (h : IsQueue s.node s.unconnectQueue []) : poolUnconnectQueueGet s = (none, s) := by
  unfold poolUnconnectQueueGet
  rw [popFront_nil h]

theorem poolUnconnectQueueGet_cons {s : ServerInfo σ} {j : Nat} {U : List Nat}
    (h : IsQueue s.node s.unconnectQueue (j :: U)) :
    ∃ k e, poolUnconnectQueueGet s
        = (some j, { s with node := k, unconnectQueue := e,
                            unconnectCount := s.unconnectCount - 1 })
      ∧ IsQueue k e U ∧ SameOff (j :: U) s.node k ∧ k.next j = none ∧ k.prev j = none := by
  obtain ⟨h1, h2, h3, h4, h5⟩ := popFront_cons h
  rcases hp : s.node.popFront s.unconnectQueue with ⟨x, k, e⟩
  rw [hp] at h1 h2 h3 h4 h5
  subst h1
  unfold poolUnconnectQueueGet
  rw [hp]
  exact ⟨k, e, rfl, h2, h3, h4, h5⟩

theorem poolUnconnectQueuePut_spec {s : ServerInfo σ} {j : Nat} {U : List Nat}
    (h : IsQueue s.node s.unconnectQueue U) (hj : j ∉ U) :
    ∃ k e, poolUnconnectQueuePut s j
        = { s with node := k, unconnectQueue := e, unconnectCount := s.unconnectCount + 1 }
      ∧ IsQueue k e (U ++ [j]) ∧ SameOff (U ++ [j]) s.node k :=
  ⟨_, _, rfl, (pushBack_spec h hj).1, (pushBack_spec h hj).2⟩

theorem poolConnectQueueGet_nil {s : ServerInfo σ}
    (h : IsQueue s.node s.connectQueue []) : poolConnectQueueGet s = (none, s) := by
  unfold poolConnectQueueGet
  rw [popFront_nil h]

theorem poolConnectQueueGet_cons {s : ServerInfo σ} {j : Nat} {F : List Nat}
    (h : IsQueue s.node s.connectQueue (j :: F)) :
    ∃ k e, poolConnectQueueGet s
        = (some j, { s with node := k, connectQueue := e,
                            freeConnectCount := s.freeConnectCount - 1 })
      ∧ IsQueue k e F ∧ SameOff (j :: F) s.node k ∧ k.next j = none ∧ k.prev j = none := by
  obtain ⟨h1, h2, h3, h4, h5⟩ := popFront_cons h
  rcases hp : s.node.popFront s.connectQueue with ⟨x, k, e⟩
  rw [hp] at h1 h2 h3 h4 h5
  subst h1
  unfold poolConnectQueueGet
  rw [hp]
  exact ⟨k, e, rfl, h2, h3, h4, h5⟩

theorem poolConnectQueuePut_spec {s : ServerInfo σ} {j : Nat} {F : List Nat}
    (h : IsQueue s.node s.connectQueue F) (hj : j ∉ F) :
    ∃ k e, poolConnectQueuePut s j
        = { s with node := k, connectQueue := e, freeConnectCount := s.freeConnectCount + 1 }
      ∧ IsQueue k e (F ++ [j]) ∧ SameOff (F ++ [j]) s.node k :=
  ⟨_, _, rfl, (pushBack_spec h hj).1, (pushBack_spec h hj).2⟩

/-- Removing a queued node: it leaves the list. -/
theorem poolConnectQueueRm_mem {s : ServerInfo σ} {j : Nat} {F : List Nat}
    (h : IsQueue s.node s.connectQueue F) (hj : j ∈ F) :
    ∃ k e, poolConnectQueueRm s j
        = { s with node := k, connectQueue := e, freeConnectCount := s.freeConnectCount - 1 }
      ∧ IsQueue k e (F.erase j) ∧ SameOff F s.node k ∧ k.next j = none ∧ k.prev j = none := by
  obtain ⟨xs, ys, rfl⟩ := List.append_of_mem hj
  have hjx : j ∉ xs := fun hm =>
    (List.nodup_append.1 h.nodup).2.2 j hm j List.mem_cons_self rfl
  have hjy : j ∉ ys := (List.nodup_cons.1 (List.nodup_append.1 h.nodup).2.1).1
  obtain ⟨hq, hs⟩ := unlink_spec h
  refine ⟨_, _, rfl, ?_, hs.trans (clear_sameOff _ hj), ?_, ?_⟩
  · rw [List.erase_append_right _ hjx, List.erase_cons_head]
    exact hq.of_sameOff (clear_sameOff _ List.mem_cons_self)
      (l := xs ++ ys) (m := [j]) (by
        intro x hx hxj
        rw [List.mem_singleton.1 hxj] at hx
        rcases List.mem_append.1 hx with h | h
        · exact hjx h
        · exact hjy h)
  · simp [clear_next]
  · simp [clear_prev]

/-- **Removing a node that is in no queue**: the list is untouched, but the
counter of free connections still goes down. -/
theorem poolConnectQueueRm_detached {s : ServerInfo σ} {j : Nat} {F : List Nat}
    (h : IsQueue s.node s.connectQueue F) (hj : j ∉ F)
    (hn : s.node.next j = none) (hp : s.node.prev j = none) :
    ∃ k, poolConnectQueueRm s j
        = { s with node := k, freeConnectCount := s.freeConnectCount - 1 }
      ∧ SameOff [j] s.node k ∧ k.next j = none ∧ k.prev j = none := by
  refine ⟨s.node.clear j, ?_, clear_sameOff _ List.mem_cons_self, ?_, ?_⟩
  · unfold poolConnectQueueRm
    rw [unlink_detached hn hp, dropEnds_of_not_mem h hj]
  · simp [clear_next]
  · simp [clear_prev]

/-! ## §2. The waiting queue (`waiting_queue_t`). -/

theorem poolWaitingQueueGet_nil {s : ServerInfo σ}
    (h : IsQueue s.waitLinks s.waitingQueue []) : poolWaitingQueueGet s = (none, s) := by
  have hh : s.waitingQueue.head = none := h.head
  unfold poolWaitingQueueGet
  rw [hh]

theorem poolWaitingQueueGet_cons {s : ServerInfo σ} {a : Nat} {W : List Nat}
    (h : IsQueue s.waitLinks s.waitingQueue (a :: W)) :
    ∃ k e, poolWaitingQueueGet s
        = (s.waitSub a, { s with waitLinks := k, waitingQueue := e,
                                 waitingCount := s.waitingCount - 1,
                                 waitSub := Function.update s.waitSub a none })
      ∧ IsQueue k e W := by
  have hh : s.waitingQueue.head = some a := h.head
  have ht : s.waitingQueue.tail = (a :: W).getLast? := h.tail
  obtain ⟨-, hn, hc⟩ := h.chain
  rw [Option.or_none] at hn
  obtain ⟨haW, hnd⟩ := List.nodup_cons.1 h.nodup
  unfold poolWaitingQueueGet
  rw [hh]
  by_cases hlast : some a = s.waitingQueue.tail
  · -- the head is also the tail, so it is the only node
    have hW : W = [] := by
      cases W with
      | nil => rfl
      | cons b W =>
          rw [ht, List.getLast?_cons_cons] at hlast
          exact absurd (List.mem_of_getLast? hlast.symm) haW
    subst hW
    simp only [if_pos hlast]
    exact ⟨_, _, rfl, isQueue_empty _⟩
  · simp only [if_neg hlast]
    refine ⟨_, _, rfl, ?_, ?_, hnd, ?_⟩
    · exact hn
    · show s.waitingQueue.tail = W.getLast?
      rw [ht] at hlast ⊢
      cases W with
      | nil => simp at hlast
      | cons b W => rw [List.getLast?_cons_cons]
    · rw [hn]
      exact hc.relinkHead none hnd

theorem poolWaitingQueueUnlink_spec {s : ServerInfo σ} {a : Nat} {W : List Nat}
    (h : IsQueue s.waitLinks s.waitingQueue W) (ha : a ∈ W) :
    ∃ k e, poolWaitingQueueUnlink s a
        = { s with waitLinks := k, waitingQueue := e, waitingCount := s.waitingCount - 1,
                   waitSub := Function.update s.waitSub a none }
      ∧ IsQueue k e (W.erase a) := by
  obtain ⟨xs, ys, rfl⟩ := List.append_of_mem ha
  have hax : a ∉ xs := fun hm =>
    (List.nodup_append.1 h.nodup).2.2 a hm a List.mem_cons_self rfl
  refine ⟨_, _, rfl, ?_⟩
  rw [List.erase_append_right _ hax, List.erase_cons_head]
  show IsQueue (s.waitLinks.unlink a) ((s.waitLinks.unlink a).dropEnds s.waitingQueue a) _
  have hself := unlink_self h
  have hends : (s.waitLinks.unlink a).dropEnds s.waitingQueue a
      = s.waitLinks.dropEnds s.waitingQueue a := by
    unfold dropEnds
    rw [hself.1, hself.2]
  rw [hends]
  exact (unlink_spec h).1

theorem poolWaitingQueuePut_spec {s : ServerInfo σ} {a : Nat} {W : List Nat}
    (h : IsQueue s.waitLinks s.waitingQueue W) (ha : a ∉ W) :
    ∃ k e, poolWaitingQueuePut s a
        = { s with waitLinks := k, waitingQueue := e, waitingCount := s.waitingCount + 1 }
      ∧ IsQueue k e (W ++ [a]) :=
  ⟨_, _, rfl, (pushBack_spec h ha).1⟩

end RedisAgent
