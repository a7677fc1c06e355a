/-
  RedisAgent.Lib.FifoLog — a first-in first-out queue with removal, seen from its
  log.

  An item is queued and later called (served) or removed; an item may also be
  called without ever being queued.  `FifoLog log ws` says that `ws` is what a
  queue must hold after `log`, and that the log is one a correct queue can
  produce.  There is one rule per event; a client proves each of its steps to be
  one of them and reads the order of service off `FifoLog`.
-/
import Mathlib.Data.List.Basic
import Mathlib.Data.List.Nodup

namespace RedisAgent

/-- What happened to one item. -/
inductive WaitEvent (σ : Type*)
  /-- put into the queue -/
  | queued (sub : σ)
  /-- served -/
  | called (sub : σ)
  /-- taken out of the queue unserved -/
  | removed (sub : σ)
  deriving Repr, DecidableEq

namespace WaitEvent

variable {σ : Type*}

def sub : WaitEvent σ → σ
  | .queued x | .called x | .removed x => x

/-- The items queued, in arrival order. -/
def queuedSubs (log : List (WaitEvent σ)) : List σ :=
  log.filterMap (fun e => match e with | .queued x => some x | _ => none)

/-- The items served, in the order of service. -/
def calledSubs (log : List (WaitEvent σ)) : List σ :=
  log.filterMap (fun e => match e with | .called x => some x | _ => none)

/-- The items removed. -/
def removedSubs (log : List (WaitEvent σ)) : List σ :=
  log.filterMap (fun e => match e with | .removed x => some x | _ => none)

section Lists

variable (log : List (WaitEvent σ)) (x : σ)

@[simp] theorem queuedSubs_queued : queuedSubs (log ++ [.queued x]) = queuedSubs log ++ [x] := by
  simp [queuedSubs]

@[simp] theorem queuedSubs_called : queuedSubs (log ++ [.called x]) = queuedSubs log := by
  simp [queuedSubs]

@[simp] theorem queuedSubs_removed : queuedSubs (log ++ [.removed x]) = queuedSubs log := by
  simp [queuedSubs]

@[simp] theorem calledSubs_queued : calledSubs (log ++ [.queued x]) = calledSubs log := by
  simp [calledSubs]

@[simp] theorem calledSubs_called : calledSubs (log ++ [.called x]) = calledSubs log ++ [x] := by
  simp [calledSubs]

@[simp] theorem calledSubs_removed : calledSubs (log ++ [.removed x]) = calledSubs log := by
  simp [calledSubs]

@[simp] theorem removedSubs_queued : removedSubs (log ++ [.queued x]) = removedSubs log := by
  simp [removedSubs]

@[simp] theorem removedSubs_called : removedSubs (log ++ [.called x]) = removedSubs log := by
  simp [removedSubs]

@[simp] theorem removedSubs_removed :
    removedSubs (log ++ [.removed x]) = removedSubs log ++ [x] := by
  simp [removedSubs]

variable {log x}

theorem mem_of_queuedSubs (h : x ∈ queuedSubs log) : x ∈ log.map sub := by
  obtain ⟨e, he, hx⟩ := List.mem_filterMap.1 h
  cases e <;> simp only [reduceCtorEq, Option.some.injEq] at hx
  exact List.mem_map.2 ⟨_, he, hx⟩

theorem mem_of_calledSubs (h : x ∈ calledSubs log) : x ∈ log.map sub := by
  obtain ⟨e, he, hx⟩ := List.mem_filterMap.1 h
  cases e <;> simp only [reduceCtorEq, Option.some.injEq] at hx
  exact List.mem_map.2 ⟨_, he, hx⟩

theorem mem_of_removedSubs (h : x ∈ removedSubs log) : x ∈ log.map sub := by
  obtain ⟨e, he, hx⟩ := List.mem_filterMap.1 h
  cases e <;> simp only [reduceCtorEq, Option.some.injEq] at hx
  exact List.mem_map.2 ⟨_, he, hx⟩

end Lists

end WaitEvent

open WaitEvent

variable {σ : Type*} [DecidableEq σ]

/-- The items called from the queue, then those still in it, are the items queued
and not removed, in arrival order. -/
structure FifoLog (log : List (WaitEvent σ)) (ws : List σ) : Prop where
  queuedOnce : (queuedSubs log).Nodup
  calledOnce : (calledSubs log).Nodup
  notCalledIfRemoved : ∀ x, x ∈ removedSubs log → x ∉ calledSubs log
  inOrder : (calledSubs log).filter (· ∈ queuedSubs log) ++ ws
    = (queuedSubs log).filter (· ∉ removedSubs log)

namespace FifoLog

theorem nil : FifoLog ([] : List (WaitEvent σ)) [] :=
  ⟨List.nodup_nil, List.nodup_nil, fun _ h => absurd h List.not_mem_nil, rfl⟩

variable {log : List (WaitEvent σ)} {ws xs ys : List σ} {x : σ}

theorem nodup (h : FifoLog log ws) :
    ((calledSubs log).filter (· ∈ queuedSubs log) ++ ws).Nodup := by
  rw [h.inOrder]
  exact h.queuedOnce.filter _

/-- A waiting item was queued, and nothing else happened to it. -/
theorem of_mem (h : FifoLog log ws) (hx : x ∈ ws) :
    x ∈ queuedSubs log ∧ x ∉ calledSubs log ∧ x ∉ removedSubs log := by
  have hm : x ∈ (queuedSubs log).filter (· ∉ removedSubs log) := by
    rw [← h.inOrder]
    exact List.mem_append_right _ hx
  obtain ⟨hq, hr⟩ := List.mem_filter.1 hm
  refine ⟨hq, ?_, by simpa using hr⟩
  intro hc
  have hg : x ∈ (calledSubs log).filter (· ∈ queuedSubs log) := by
    rw [List.mem_filter]
    exact ⟨hc, by simpa using hq⟩
  exact (List.nodup_append.1 h.nodup).2.2 x hg x hx rfl

/-- **What waits**: the items queued so far, in arrival order, less those served
and those removed. -/
theorem waiting (h : FifoLog log ws) :
    ws = (queuedSubs log).filter (fun x => x ∉ calledSubs log ∧ x ∉ removedSubs log) := by
  have hsplit : (queuedSubs log).filter (fun x => x ∉ calledSubs log ∧ x ∉ removedSubs log)
      = ((queuedSubs log).filter (· ∉ removedSubs log)).filter (· ∉ calledSubs log) := by
    rw [List.filter_filter]
    simp only [Bool.decide_and]
  rw [hsplit, ← h.inOrder, List.filter_append]
  have hcalled : ((calledSubs log).filter (· ∈ queuedSubs log)).filter (· ∉ calledSubs log)
      = [] := by
    rw [List.filter_eq_nil_iff]
    intro x hx
    simpa using (List.mem_filter.1 hx).1
  have hws : ws.filter (· ∉ calledSubs log) = ws := by
    rw [List.filter_eq_self]
    intro x hx
    simpa using (h.of_mem hx).2.1
  rw [hcalled, hws, List.nil_append]

/-- Filtering out the only occurrence of an item. -/
theorem filter_ne_middle (h : (xs ++ x :: ys).Nodup) :
    (xs ++ x :: ys).filter (· ≠ x) = xs ++ ys := by
  obtain ⟨-, hcons, hdisj⟩ := List.nodup_append.1 h
  have hxy : x ∉ ys := (List.nodup_cons.1 hcons).1
  have hleft : xs.filter (· ≠ x) = xs := by
    rw [List.filter_eq_self]
    intro y hy
    simpa using hdisj y hy x List.mem_cons_self
  have hright : ys.filter (· ≠ x) = ys := by
    rw [List.filter_eq_self]
    intro y hy
    have hyx : y ≠ x := fun he => hxy (he ▸ hy)
    simpa using hyx
  rw [List.filter_append, List.filter_cons_of_neg (by simp), hleft, hright]

/-! ### One rule per event. -/

/-- A new item joins the queue. -/
theorem queue (h : FifoLog log ws) (hx : x ∉ log.map sub) :
    FifoLog (log ++ [.queued x]) (ws ++ [x]) := by
  have hq : x ∉ queuedSubs log := fun hm => hx (mem_of_queuedSubs hm)
  have hc : x ∉ calledSubs log := fun hm => hx (mem_of_calledSubs hm)
  have hr : x ∉ removedSubs log := fun hm => hx (mem_of_removedSubs hm)
  refine ⟨?_, ?_, ?_, ?_⟩
  · rw [queuedSubs_queued]
    exact h.queuedOnce.append (List.nodup_singleton x) (by simpa using hq)
  · rw [calledSubs_queued]
    exact h.calledOnce
  · rw [removedSubs_queued, calledSubs_queued]
    exact h.notCalledIfRemoved
  · have hsame : (calledSubs log).filter (· ∈ queuedSubs log ++ [x])
        = (calledSubs log).filter (· ∈ queuedSubs log) := by
      apply List.filter_congr
      intro y hy
      have hyx : y ≠ x := fun he => hc (he ▸ hy)
      simp [hyx]
    rw [queuedSubs_queued, calledSubs_queued, removedSubs_queued, hsame, List.filter_append,
      ← List.append_assoc, h.inOrder]
    simp [hr]

/-- A new item is served without queueing, while nobody waits. -/
theorem serveNew (h : FifoLog log []) (hx : x ∉ log.map sub) :
    FifoLog (log ++ [.called x]) [] := by
  have hq : x ∉ queuedSubs log := fun hm => hx (mem_of_queuedSubs hm)
  have hc : x ∉ calledSubs log := fun hm => hx (mem_of_calledSubs hm)
  have hr : x ∉ removedSubs log := fun hm => hx (mem_of_removedSubs hm)
  refine ⟨?_, ?_, ?_, ?_⟩
  · rw [queuedSubs_called]
    exact h.queuedOnce
  · rw [calledSubs_called]
    exact h.calledOnce.append (List.nodup_singleton x) (by simpa using hc)
  · rw [removedSubs_called, calledSubs_called]
    intro y hy hm
    rcases List.mem_append.1 hm with hm | hm
    · exact h.notCalledIfRemoved y hy hm
    · exact hr (List.mem_singleton.1 hm ▸ hy)
  · rw [queuedSubs_called, calledSubs_called, removedSubs_called, List.filter_append, ← h.inOrder]
    simp [hq]

/-- The first item of the queue is served. -/
theorem serve (h : FifoLog log (x :: ws)) : FifoLog (log ++ [.called x]) ws := by
  obtain ⟨hq, hc, hr⟩ := h.of_mem List.mem_cons_self
  refine ⟨?_, ?_, ?_, ?_⟩
  · rw [queuedSubs_called]
    exact h.queuedOnce
  · rw [calledSubs_called]
    exact h.calledOnce.append (List.nodup_singleton x) (by simpa using hc)
  · rw [removedSubs_called, calledSubs_called]
    intro y hy hm
    rcases List.mem_append.1 hm with hm | hm
    · exact h.notCalledIfRemoved y hy hm
    · exact hr (List.mem_singleton.1 hm ▸ hy)
  · rw [queuedSubs_called, calledSubs_called, removedSubs_called, List.filter_append, ← h.inOrder]
    simp [hq]

/-- An item leaves the queue unserved, wherever it stands. -/
theorem remove (h : FifoLog log (xs ++ x :: ys)) : FifoLog (log ++ [.removed x]) (xs ++ ys) := by
  obtain ⟨hq, hc, hr⟩ := h.of_mem (List.mem_append_right xs List.mem_cons_self)
  refine ⟨?_, ?_, ?_, ?_⟩
  · rw [queuedSubs_removed]
    exact h.queuedOnce
  · rw [calledSubs_removed]
    exact h.calledOnce
  · rw [removedSubs_removed, calledSubs_removed]
    intro y hy
    rcases List.mem_append.1 hy with hy | hy
    · exact h.notCalledIfRemoved y hy
    · rw [List.mem_singleton.1 hy]
      exact hc
  · have hsplit : (queuedSubs log).filter (· ∉ removedSubs log ++ [x])
        = ((queuedSubs log).filter (· ∉ removedSubs log)).filter (· ≠ x) := by
      rw [List.filter_filter]
      apply List.filter_congr
      intro y _
      by_cases hyx : y = x <;> simp [hyx]
    have hnd := h.nodup
    rw [← List.append_assoc] at hnd
    rw [queuedSubs_removed, calledSubs_removed, removedSubs_removed, hsplit, ← h.inOrder,
      ← List.append_assoc, ← List.append_assoc, filter_ne_middle hnd]

end FifoLog

end RedisAgent
