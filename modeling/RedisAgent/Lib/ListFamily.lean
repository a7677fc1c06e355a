/-
  RedisAgent.Lib.ListFamily — several doubly linked lists in one memory.

  `heads r` is the head pointer of list `r`, if there is such a list, and `L r`
  the list it spells.  No node is on two lists, so a write to one list leaves the
  others alone.

  A node taken off the front keeps its pointers.  It is `Stale`: unlinking it once
  more is harmless as long as its old successor, if it is still on a list, is the
  front of the list the node was taken from.
-/
import RedisAgent.Lib.Links

namespace RedisAgent

open Links

variable {κ ι : Type*} [DecidableEq κ]

/-- The lists `L` are in the memory `k`, at the heads `heads`. -/
structure Family (heads : κ → Option (Option ι)) (k : Links ι) (L : κ → List ι) : Prop where
  queue : ∀ r h, heads r = some h → IsQueue k ⟨h, (L r).getLast?⟩ (L r)
  gone : ∀ r, heads r = none → L r = []
  apart : ∀ r r' x, x ∈ L r → x ∈ L r' → r = r'

/-- `x` was taken off the front of list `r`. -/
structure Stale (k : Links ι) (L : κ → List ι) (r : κ) (x : ι) : Prop where
  off : ∀ r', x ∉ L r'
  prev : k.prev x = none
  next : ∀ y r', k.next x = some y → y ∈ L r' → r' = r ∧ (L r).head? = some y

variable {heads : κ → Option (Option ι)} {k : Links ι} {L : κ → List ι}

/-- **One list changes.**  The others are as before if the writes stay on nodes
that are on no other list. -/
theorem Family.update {k' : Links ι} {r : κ} {h' : Option ι} {l' m : List ι}
    (h : Family heads k L) (hq : IsQueue k' ⟨h', l'.getLast?⟩ l') (hoff : SameOff m k k')
    (hm : ∀ x ∈ m, ∀ r', r' ≠ r → x ∉ L r') (hl : ∀ x ∈ l', ∀ r', r' ≠ r → x ∉ L r') :
    Family (Function.update heads r (some h')) k' (Function.update L r l') := by
  refine ⟨?_, ?_, ?_⟩
  · intro r' hd hr'
    by_cases hrr : r' = r
    · subst hrr
      rw [Function.update_self] at hr' ⊢
      cases hr'
      exact hq
    · rw [Function.update_of_ne hrr] at hr' ⊢
      exact (h.queue r' hd hr').of_sameOff hoff (fun x hx hxm => hm x hxm r' hrr hx)
  · intro r' hr'
    by_cases hrr : r' = r
    · subst hrr
      rw [Function.update_self] at hr'
      cases hr'
    · rw [Function.update_of_ne hrr] at hr' ⊢
      exact h.gone r' hr'
  · intro r1 r2 x h1 h2
    by_cases hr1 : r1 = r
    · subst hr1
      by_cases hr2 : r2 = r1
      · exact hr2.symm
      · rw [Function.update_self] at h1
        rw [Function.update_of_ne hr2] at h2
        exact absurd h2 (hl x h1 r2 hr2)
    · rw [Function.update_of_ne hr1] at h1
      by_cases hr2 : r2 = r
      · subst hr2
        rw [Function.update_self] at h2
        exact absurd h1 (hl x h2 r1 hr1)
      · rw [Function.update_of_ne hr2] at h2
        exact h.apart r1 r2 x h1 h2

/-- A new list. -/
theorem Family.create {r : κ} (h : Family heads k L) (hr : heads r = none) :
    Family (Function.update heads r (some none)) k L := by
  have hempty := h.gone r hr
  have hnone : IsQueue k ⟨none, ([] : List ι).getLast?⟩ [] :=
    ⟨rfl, rfl, List.nodup_nil, trivial⟩
  have hnew : Family (Function.update heads r (some none)) k (Function.update L r []) :=
    h.update (m := []) hnone (SameOff.refl _ _) (by simp) (by simp)
  rw [← hempty, Function.update_eq_self] at hnew
  exact hnew

/-- A list is dropped. -/
theorem Family.drop (h : Family heads k L) (r : κ) :
    Family (Function.update heads r none) k (Function.update L r []) := by
  refine ⟨?_, ?_, ?_⟩
  · intro r' hd hr'
    by_cases hrr : r' = r
    · subst hrr
      rw [Function.update_self] at hr'
      cases hr'
    · rw [Function.update_of_ne hrr] at hr' ⊢
      exact h.queue r' hd hr'
  · intro r' hr'
    by_cases hrr : r' = r
    · subst hrr
      rw [Function.update_self]
    · rw [Function.update_of_ne hrr] at hr' ⊢
      exact h.gone r' hr'
  · intro r1 r2 x h1 h2
    have hmem : ∀ r0, x ∈ Function.update L r [] r0 → x ∈ L r0 := by
      intro r0 h0
      by_cases hr0 : r0 = r
      · subst hr0
        rw [Function.update_self] at h0
        cases h0
      · rw [Function.update_of_ne hr0] at h0
        exact h0
    exact h.apart r1 r2 x (hmem r1 h1) (hmem r2 h2)

variable [DecidableEq ι]

/-- A node on no list goes to the front of one. -/
theorem Family.push {r : κ} {hd : Option ι} {x : ι} (h : Family heads k L)
    (hr : heads r = some hd) (hx : ∀ r', x ∉ L r') :
    Family (Function.update heads r (some ((k.clear x).pushFront hd x).2))
      ((k.clear x).pushFront hd x).1 (Function.update L r (x :: L r)) := by
  have hq := h.queue r hd hr
  have hclear : SameOff [x] k (k.clear x) := clear_sameOff k List.mem_cons_self
  have hq' : IsQueue (k.clear x) ⟨hd, (L r).getLast?⟩ (L r) := by
    refine hq.of_sameOff hclear ?_
    intro y hy hyx
    rw [List.mem_singleton.1 hyx] at hy
    exact hx r hy
  obtain ⟨hpush, hoff⟩ := pushFront_spec hq' (hx r)
    (by rw [clear_next, if_pos rfl]) (by rw [clear_prev, if_pos rfl])
  have hsame : SameOff (x :: L r) k ((k.clear x).pushFront hd x).1 := by
    refine (hclear.mono ?_).trans hoff
    intro y hy
    rw [List.mem_singleton.1 hy]
    exact List.mem_cons_self
  have hother : ∀ y ∈ x :: L r, ∀ r', r' ≠ r → y ∉ L r' := by
    intro y hy r' hrr hyr
    rcases List.mem_cons.1 hy with hyx | hyl
    · rw [hyx] at hyr
      exact hx r' hyr
    · exact hrr (h.apart r' r y hyr hyl)
  exact h.update hpush hsame hother hother

/-- **Taking the front off.** -/
theorem Family.pop {r : κ} {x : ι} (h : Family heads k L) (hr : heads r = some (some x)) :
    ∃ l, L r = x :: l
      ∧ Family (Function.update heads r (some (k.next x))) (k.setPrev (k.next x) none)
        (Function.update L r l)
      ∧ Stale (k.setPrev (k.next x) none) (Function.update L r l) r x := by
  have hq := h.queue r _ hr
  obtain ⟨l, hl⟩ : ∃ l, L r = x :: l := by
    have hhead : some x = (L r).head? := hq.head
    cases hcase : L r with
    | nil =>
        rw [hcase] at hhead
        cases hhead
    | cons y l =>
        rw [hcase] at hhead
        cases hhead
        exact ⟨l, rfl⟩
  rw [hl] at hq
  have hfront : IsQueue k ⟨some x, (x :: l).getLast?⟩ ([] ++ x :: l) := hq
  obtain ⟨hprev, hnext⟩ := hfront.at_middle
  obtain ⟨hxl, hnd⟩ := List.nodup_cons.1 hq.nodup
  have hnext' : k.next x = l.head? := hnext
  have hxnext : k.next x ≠ some x := by
    rw [hnext']
    intro heq
    exact hxl (List.mem_of_head? heq)
  have hchain : Chain (k.setPrev l.head? none) none l none :=
    Chain.relinkHead none hq.chain.2.2 hnd
  have hoff : SameOff l k (k.setPrev l.head? none) :=
    setPrev_sameOff k l.head? none (fun a ha => List.mem_of_head? ha)
  have hother : ∀ y ∈ l, ∀ r', r' ≠ r → y ∉ L r' := by
    intro y hy r' hrr hyr
    exact hrr (h.apart r' r y hyr (by rw [hl]; exact List.mem_cons_of_mem x hy))
  refine ⟨l, hl, ?_, ?_, ?_, ?_⟩
  · rw [hnext']
    exact h.update ⟨rfl, rfl, hnd, hchain⟩ hoff hother hother
  · intro r' hxr
    by_cases hrr : r' = r
    · subst hrr
      rw [Function.update_self] at hxr
      exact hxl hxr
    · rw [Function.update_of_ne hrr] at hxr
      exact hrr (h.apart r' r x hxr (by rw [hl]; exact List.mem_cons_self))
  · rw [setPrev_prev, if_neg hxnext]
    exact hprev
  · intro y r' hy hyr
    rw [setPrev_next, hnext'] at hy
    by_cases hrr : r' = r
    · subst hrr
      exact ⟨rfl, by rw [Function.update_self]; exact hy⟩
    · rw [Function.update_of_ne hrr] at hyr
      exact absurd hyr (hother y (List.mem_of_head? hy) r' hrr)

/-- **Taking a node out of any position**; a stale node stays stale. -/
theorem Family.rm {r : κ} {hd : Option ι} {x : ι} (h : Family heads k L) (hr : heads r = some hd)
    (hx : x ∈ L r) :
    Family (Function.update heads r (some (if hd = some x then (k.unlink x).next x else hd)))
        (k.unlink x) (Function.update L r ((L r).erase x))
      ∧ ∀ r2 x2, Stale k L r2 x2 → Stale (k.unlink x) (Function.update L r ((L r).erase x)) r2 x2 := by
  have hq := h.queue r hd hr
  have hnd := hq.nodup
  obtain ⟨xs, ys, hsplit⟩ := List.append_of_mem hx
  have hxs : x ∉ xs := by
    rw [hsplit] at hnd
    intro hm
    exact (List.nodup_append.1 hnd).2.2 x hm x List.mem_cons_self rfl
  have herase : (L r).erase x = xs ++ ys := by
    rw [hsplit, List.erase_append_right _ hxs, List.erase_cons_head]
  have hq' := hq
  rw [hsplit] at hq'
  obtain ⟨hun, hoff⟩ := unlink_spec hq'
  have hself := (unlink_self hq').1
  have hqueue : IsQueue (k.unlink x)
      ⟨if hd = some x then (k.unlink x).next x else hd, ((L r).erase x).getLast?⟩
      ((L r).erase x) := by
    rw [herase]
    refine ⟨?_, rfl, hun.nodup, hun.chain⟩
    rw [hself]
    exact hun.head
  have hother : ∀ y ∈ L r, ∀ r', r' ≠ r → y ∉ L r' := by
    intro y hy r' hrr hyr
    exact hrr (h.apart r' r y hyr hy)
  rw [← hsplit] at hoff
  refine ⟨h.update hqueue hoff hother (fun y hy => hother y (List.mem_of_mem_erase hy)), ?_⟩
  intro r2 x2 hs
  have hx2 := hoff x2 (hs.off r)
  have hsub : ∀ y r', y ∈ Function.update L r ((L r).erase x) r' → y ∈ L r' := by
    intro y r' hy
    by_cases hrr : r' = r
    · subst hrr
      rw [Function.update_self] at hy
      exact List.mem_of_mem_erase hy
    · rw [Function.update_of_ne hrr] at hy
      exact hy
  refine ⟨fun r' hm => hs.off r' (hsub x2 r' hm), by rw [hx2.2]; exact hs.prev, ?_⟩
  intro y r' hy hyr
  rw [hx2.1] at hy
  obtain ⟨hr2, hhead⟩ := hs.next y r' hy (hsub y r' hyr)
  refine ⟨hr2, ?_⟩
  subst hr2
  by_cases hrr : r' = r
  · subst hrr
    rw [Function.update_self] at hyr ⊢
    -- the front is not the node taken out, which is no longer on the list
    cases hcase : L r' with
    | nil =>
        rw [hcase] at hx
        cases hx
    | cons z l =>
        rw [hcase] at hhead hyr hnd
        cases hhead
        have hxy : y ≠ x := by
          intro heq
          subst heq
          rw [List.erase_cons_head] at hyr
          exact (List.nodup_cons.1 hnd).1 hyr
        rw [List.erase_cons_tail (by simpa using hxy)]
        rfl
  · rw [Function.update_of_ne hrr]
    exact hhead

omit [DecidableEq κ] in
/-- **Taking a stale node out once more** changes no list. -/
theorem Family.rm_stale {r : κ} {hd : Option ι} {x : ι} (h : Family heads k L)
    (hr : heads r = some hd) (hs : Stale k L r x) :
    hd ≠ some x ∧ Family heads (k.unlink x) L ∧ Stale (k.unlink x) L r x := by
  have hunlink : k.unlink x = k.setPrev (k.next x) none := by
    unfold unlink
    rw [hs.prev, setNext_none]
  have hhd : hd ≠ some x := by
    intro heq
    have hhead := (h.queue r hd hr).head
    rw [heq] at hhead
    exact hs.off r (List.mem_of_head? hhead.symm)
  -- the old successor, if it is on a list, is a front, and has no predecessor
  have hsame : ∀ r' y, y ∈ L r' →
      (k.unlink x).next y = k.next y ∧ (k.unlink x).prev y = k.prev y := by
    intro r' y hy
    rw [hunlink]
    refine ⟨by rw [setPrev_next], ?_⟩
    rw [setPrev_prev]
    by_cases hnext : k.next x = some y
    · rw [if_pos hnext]
      obtain ⟨hrr, hhead⟩ := hs.next y r' hnext hy
      subst hrr
      have hq := h.queue r' hd hr
      cases hcase : L r' with
      | nil =>
          rw [hcase] at hy
          cases hy
      | cons z l =>
          rw [hcase] at hq hhead
          cases hhead
          exact hq.chain.1.symm
    · rw [if_neg hnext]
  refine ⟨hhd, ⟨?_, h.gone, h.apart⟩, hs.off, ?_, ?_⟩
  · intro r' hd' hr'
    exact (h.queue r' hd' hr').congr (fun y hy => hsame r' y hy)
  · rw [hunlink, setPrev_prev]
    split
    · rfl
    · exact hs.prev
  · intro y r' hy hyr
    rw [hunlink, setPrev_next] at hy
    exact hs.next y r' hy hyr

end RedisAgent
