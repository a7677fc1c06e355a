/-
  RedisAgent.Lib.Links — doubly linked lists laid out in a heap of `next`/`prev`
  pointers.

  The heap is split by field (one map for `next`, one for `prev`), so a write
  through one pointer is a `Function.update` of one map and everything else is
  unchanged by `rfl`.  Nothing in this file mentions a program: a client supplies
  its node names `ι` and instantiates

    • `Chain` / `IsQueue`  — "these pointers spell exactly this list",
    • `pushBack`, `popFront`, `pushFront`, `unlink`, `remove` — the pointer code,
    • one `IsQueue` rule per operation, each with its frame (`SameOff`): nodes
      outside the list keep both pointers.

  Two queues over disjoint nodes can therefore share one heap.
-/
import Mathlib.Data.List.Basic
import Mathlib.Data.List.Nodup
import Mathlib.Logic.Function.Basic
import Mathlib.Tactic.Common

namespace RedisAgent

/-! ## §1. The heap of links and the ends of a queue. -/

/-- The two pointer fields of every node. -/
structure Links (ι : Type*) where
  next : ι → Option ι
  prev : ι → Option ι

/-- The head and tail pointers of one queue. -/
structure Ends (ι : Type*) where
  head : Option ι
  tail : Option ι
  deriving Repr, DecidableEq

/-- A queue with no node. -/
def Ends.empty {ι : Type*} : Ends ι := ⟨none, none⟩

namespace Links

section Heap

variable {ι : Type*} [DecidableEq ι]

/-- Every pointer is null. -/
def null : Links ι := ⟨fun _ => none, fun _ => none⟩

/-- `p->next = v`.  A null `p` is not written through; every rule below shows
that the code never gets there. -/
def setNext (k : Links ι) (p v : Option ι) : Links ι :=
  match p with
  | none => k
  | some a => { k with next := Function.update k.next a v }

/-- `p->prev = v`. -/
def setPrev (k : Links ι) (p v : Option ι) : Links ι :=
  match p with
  | none => k
  | some a => { k with prev := Function.update k.prev a v }

/-- `a->next = NULL; a->prev = NULL`. -/
def clear (k : Links ι) (a : ι) : Links ι :=
  (k.setNext (some a) none).setPrev (some a) none

@[simp] theorem setNext_none (k : Links ι) (v : Option ι) : k.setNext none v = k := rfl

@[simp] theorem setPrev_none (k : Links ι) (v : Option ι) : k.setPrev none v = k := rfl

@[simp] theorem setNext_prev (k : Links ι) (p v : Option ι) :
    (k.setNext p v).prev = k.prev := by
  cases p <;> rfl

@[simp] theorem setPrev_next (k : Links ι) (p v : Option ι) :
    (k.setPrev p v).next = k.next := by
  cases p <;> rfl

theorem setNext_next (k : Links ι) (p v : Option ι) (x : ι) :
    (k.setNext p v).next x = if p = some x then v else k.next x := by
  cases p with
  | none => simp
  | some a =>
      by_cases h : x = a
      · subst h
        simp [setNext]
      · simp [setNext, h, Ne.symm h]

theorem setPrev_prev (k : Links ι) (p v : Option ι) (x : ι) :
    (k.setPrev p v).prev x = if p = some x then v else k.prev x := by
  cases p with
  | none => simp
  | some a =>
      by_cases h : x = a
      · subst h
        simp [setPrev]
      · simp [setPrev, h, Ne.symm h]

theorem clear_next (k : Links ι) (a x : ι) :
    (k.clear a).next x = if a = x then none else k.next x := by
  simp [clear, setNext_next]

theorem clear_prev (k : Links ι) (a x : ι) :
    (k.clear a).prev x = if a = x then none else k.prev x := by
  simp [clear, setPrev_prev]

end Heap

/-! ## §2. What the pointers spell. -/

section Spelling

variable {ι : Type*}

/-- Starting behind `p` and ending in front of `n`, the pointers spell `l`. -/
def Chain (k : Links ι) : Option ι → List ι → Option ι → Prop
  | _, [], _ => True
  | p, a :: l, n => k.prev a = p ∧ k.next a = l.head?.or n ∧ Chain k (some a) l n

/-- Both pointers of every node off `l` are the same in `k` and `k'`. -/
def SameOff (l : List ι) (k k' : Links ι) : Prop :=
  ∀ x, x ∉ l → k'.next x = k.next x ∧ k'.prev x = k.prev x

/-- The pointers and the two ends spell the list `l`, without repetition. -/
structure IsQueue (k : Links ι) (e : Ends ι) (l : List ι) : Prop where
  head : e.head = l.head?
  tail : e.tail = l.getLast?
  nodup : l.Nodup
  chain : Chain k none l none

theorem SameOff.refl (l : List ι) (k : Links ι) : SameOff l k k :=
  fun _ _ => ⟨rfl, rfl⟩

theorem SameOff.trans {l : List ι} {k k' k'' : Links ι} (h : SameOff l k k')
    (h' : SameOff l k' k'') : SameOff l k k'' :=
  fun x hx => ⟨(h' x hx).1.trans (h x hx).1, (h' x hx).2.trans (h x hx).2⟩

theorem SameOff.mono {l l' : List ι} {k k' : Links ι} (h : SameOff l k k')
    (hl : ∀ x ∈ l, x ∈ l') : SameOff l' k k' :=
  fun x hx => h x (fun hx' => hx (hl x hx'))

/-- A chain only reads its own nodes. -/
theorem Chain.congr {k k' : Links ι} {l : List ι} :
    ∀ {p n : Option ι}, Chain k p l n →
      (∀ x ∈ l, k'.next x = k.next x ∧ k'.prev x = k.prev x) → Chain k' p l n := by
  induction l with
  | nil => intro p n _ _; trivial
  | cons a l ih =>
      intro p n h hk
      obtain ⟨hp, hn, hc⟩ := h
      obtain ⟨kn, kp⟩ := hk a List.mem_cons_self
      exact ⟨kp.trans hp, kn.trans hn, ih hc (fun x hx => hk x (List.mem_cons_of_mem _ hx))⟩

/-- **A chain splits at any point**, each half seeing the other's end node. -/
theorem chain_append (k : Links ι) (ys : List ι) (n : Option ι) :
    ∀ (xs : List ι) (p : Option ι),
      Chain k p (xs ++ ys) n ↔
        Chain k p xs (ys.head?.or n) ∧ Chain k (xs.getLast?.or p) ys n := by
  intro xs
  induction xs with
  | nil => intro p; simp [Chain]
  | cons a xs ih =>
      intro p
      have hl : ((a :: xs).getLast?.or p) = xs.getLast?.or (some a) := by
        rw [List.getLast?_cons]
        cases xs.getLast? <;> rfl
      simp only [List.cons_append, Chain, List.head?_append, ih (some a), hl, Option.or_assoc]
      tauto

theorem IsQueue.congr {k k' : Links ι} {e : Ends ι} {l : List ι} (h : IsQueue k e l)
    (hk : ∀ x ∈ l, k'.next x = k.next x ∧ k'.prev x = k.prev x) : IsQueue k' e l :=
  ⟨h.head, h.tail, h.nodup, h.chain.congr hk⟩

/-- A queue is untouched by writes to nodes it does not hold. -/
theorem IsQueue.of_sameOff {k k' : Links ι} {e : Ends ι} {l m : List ι}
    (h : IsQueue k e l) (hk : SameOff m k k') (hd : ∀ x ∈ l, x ∉ m) : IsQueue k' e l :=
  h.congr (fun x hx => hk x (hd x hx))

theorem isQueue_empty (k : Links ι) : IsQueue k Ends.empty [] :=
  ⟨rfl, rfl, List.nodup_nil, trivial⟩

theorem IsQueue.head_eq_none {k : Links ι} {e : Ends ι} {l : List ι} (h : IsQueue k e l) :
    e.head = none ↔ l = [] := by
  rw [h.head, List.head?_eq_none_iff]

/-- The pointers of the node in the middle of a spelled list. -/
theorem IsQueue.at_middle {k : Links ι} {e : Ends ι} {xs ys : List ι} {a : ι}
    (h : IsQueue k e (xs ++ a :: ys)) :
    k.prev a = xs.getLast? ∧ k.next a = ys.head? := by
  have hc := ((chain_append k (a :: ys) none xs none).1 h.chain).2
  simpa [Chain] using And.intro hc.1 hc.2.1

/-- The same pointers cannot spell two lists. -/
theorem Chain.unique {k : Links ι} :
    ∀ {l m : List ι} {p : Option ι}, Chain k p l none → Chain k p m none →
      l.head? = m.head? → l = m := by
  intro l
  induction l with
  | nil => intro m p _ _ hm; exact (List.head?_eq_none_iff.1 hm.symm).symm
  | cons a l ih =>
      intro m p hl hm hh
      cases m with
      | nil => simp at hh
      | cons b m =>
          obtain rfl : a = b := by simpa using hh
          have hn : l.head? = m.head? := by
            simpa using hl.2.1.symm.trans hm.2.1
          rw [ih hl.2.2 hm.2.2 hn]

theorem IsQueue.unique {k : Links ι} {e : Ends ι} {l m : List ι} (hl : IsQueue k e l)
    (hm : IsQueue k e m) : l = m :=
  hl.chain.unique hm.chain (hl.head.symm.trans hm.head)

end Spelling

/-! ## §3. The pointer code. -/

section Code

variable {ι : Type*} [DecidableEq ι]

/-- Append `a` behind the tail. -/
def pushBack (k : Links ι) (e : Ends ι) (a : ι) : Links ι × Ends ι :=
  match e.head with
  | none => (k.clear a, ⟨some a, some a⟩)
  | some _ =>
      (((k.clear a).setNext e.tail (some a)).setPrev (some a) e.tail,
        { e with tail := some a })

/-- Take the head off; `none` on an empty queue. -/
def popFront (k : Links ι) (e : Ends ι) : Option ι × Links ι × Ends ι :=
  match e.head with
  | none => (none, k, e)
  | some a =>
      (some a, (k.setPrev (k.next a) none).clear a,
        ⟨k.next a, if e.head = e.tail then none else e.tail⟩)

/-- Put `a` in front of the head (a list without a tail pointer). -/
def pushFront (k : Links ι) (head : Option ι) (a : ι) : Links ι × Option ι :=
  match head with
  | none => (k, some a)
  | some _ => (((k.setPrev (some a) none).setNext (some a) head).setPrev head (some a), some a)

/-- Make the two neighbours of `a` point at each other. -/
def unlink (k : Links ι) (a : ι) : Links ι :=
  (k.setNext (k.prev a) (k.next a)).setPrev (k.next a) (k.prev a)

/-- The ends once `a` is gone. -/
def dropEnds (k : Links ι) (e : Ends ι) (a : ι) : Ends ι :=
  ⟨if e.head = some a then k.next a else e.head,
   if e.tail = some a then k.prev a else e.tail⟩

/-! ### How a chain reacts to one pointer write. -/

theorem Chain.setNext_off {k : Links ι} {l : List ι} {p n q v : Option ι}
    (h : Chain k p l n) (hq : ∀ a ∈ l, q ≠ some a) : Chain (k.setNext q v) p l n :=
  h.congr (fun x hx => ⟨by rw [setNext_next, if_neg (hq x hx)], by simp⟩)

theorem Chain.setPrev_off {k : Links ι} {l : List ι} {p n q v : Option ι}
    (h : Chain k p l n) (hq : ∀ a ∈ l, q ≠ some a) : Chain (k.setPrev q v) p l n :=
  h.congr (fun x hx => ⟨by simp, by rw [setPrev_prev, if_neg (hq x hx)]⟩)

theorem Chain.clear_off {k : Links ι} {l : List ι} {p n : Option ι} {a : ι}
    (h : Chain k p l n) (ha : a ∉ l) : Chain (k.clear a) p l n := by
  have ha' : ∀ x ∈ l, some a ≠ some x := by
    rintro x hx ⟨⟩
    exact ha hx
  exact (h.setNext_off ha').setPrev_off ha'

/-- Redirecting the last node of a chain redirects the chain's far end. -/
theorem Chain.relinkLast {k : Links ι} {l : List ι} {p n : Option ι} (n' : Option ι)
    (h : Chain k p l n) (hl : l.Nodup) : Chain (k.setNext l.getLast? n') p l n' := by
  rcases List.eq_nil_or_concat l with rfl | ⟨xs, t, rfl⟩
  · trivial
  · rw [List.concat_eq_append] at h hl ⊢
    rw [chain_append] at h ⊢
    have ht : t ∉ xs := by
      simpa using (List.nodup_append.1 hl).2.2 t
    refine ⟨?_, ?_⟩
    · refine h.1.setNext_off ?_
      rintro a ha
      simp only [List.getLast?_append, List.getLast?_singleton, Option.some_or]
      rintro ⟨⟩
      exact ht ha
    · simpa [Chain, setNext_next] using h.2.1

/-- Redirecting the first node of a chain redirects the chain's near end. -/
theorem Chain.relinkHead {k : Links ι} {l : List ι} {p n : Option ι} (p' : Option ι)
    (h : Chain k p l n) (hl : l.Nodup) : Chain (k.setPrev l.head? p') p' l n := by
  cases l with
  | nil => trivial
  | cons a l =>
      obtain ⟨-, hn, hc⟩ := h
      refine ⟨by simp [setPrev_prev], by simpa using hn, hc.setPrev_off ?_⟩
      rintro x hx ⟨⟩
      exact (List.nodup_cons.1 hl).1 hx

theorem setNext_sameOff (k : Links ι) (p v : Option ι) {l : List ι}
    (hp : ∀ a, p = some a → a ∈ l) : SameOff l k (k.setNext p v) := by
  intro x hx
  refine ⟨?_, by simp⟩
  rw [setNext_next, if_neg]
  rintro rfl
  exact hx (hp x rfl)

theorem setPrev_sameOff (k : Links ι) (p v : Option ι) {l : List ι}
    (hp : ∀ a, p = some a → a ∈ l) : SameOff l k (k.setPrev p v) := by
  intro x hx
  refine ⟨by simp, ?_⟩
  rw [setPrev_prev, if_neg]
  rintro rfl
  exact hx (hp x rfl)

theorem clear_sameOff (k : Links ι) {a : ι} {l : List ι} (ha : a ∈ l) :
    SameOff l k (k.clear a) :=
  (setNext_sameOff k (some a) none (by rintro _ ⟨⟩; exact ha)).trans
    (setPrev_sameOff _ (some a) none (by rintro _ ⟨⟩; exact ha))

/-! ### One rule per operation. -/

/-- **Appending.** -/
theorem pushBack_spec {k : Links ι} {e : Ends ι} {l : List ι} {a : ι}
    (h : IsQueue k e l) (ha : a ∉ l) :
    IsQueue (k.pushBack e a).1 (k.pushBack e a).2 (l ++ [a])
      ∧ SameOff (l ++ [a]) k (k.pushBack e a).1 := by
  have hnd : (l ++ [a]).Nodup := by
    rw [List.nodup_append]
    refine ⟨h.nodup, List.nodup_singleton a, ?_⟩
    rintro x hx y hy rfl
    exact ha (List.mem_singleton.1 hy ▸ hx)
  have hal : a ∈ l ++ [a] := by simp
  cases hh : e.head with
  | none =>
      obtain rfl : l = [] := h.head_eq_none.1 hh
      simp only [pushBack, hh, List.nil_append]
      refine ⟨⟨rfl, rfl, hnd, ?_⟩, clear_sameOff k (by simp)⟩
      simp [Chain, clear_next, clear_prev]
  | some b =>
      have hne : l ≠ [] := by
        rintro rfl
        simp [h.head] at hh
      have hta : e.tail ≠ some a := by
        rw [h.tail]
        exact fun ht => ha (List.mem_of_getLast? ht)
      simp only [pushBack, hh]
      refine ⟨⟨?_, by simp, hnd, ?_⟩, ?_⟩
      · rw [h.head] at hh
        simp [hh]
      · rw [chain_append]
        refine ⟨?_, ?_⟩
        · refine Chain.setPrev_off ?_ (by rintro x hx ⟨⟩; exact ha hx)
          rw [h.tail]
          exact (h.chain.clear_off ha).relinkLast (some a) h.nodup
        · refine ⟨by simp [setPrev_prev, h.tail], ?_, trivial⟩
          simp [setNext_next, clear_next, hta]
      · refine (clear_sameOff k hal).trans
          ((setNext_sameOff _ _ _ ?_).trans (setPrev_sameOff _ _ _ ?_))
        · intro x hx
          rw [h.tail] at hx
          exact List.mem_append_left _ (List.mem_of_getLast? hx)
        · rintro x ⟨⟩
          exact hal

/-- **Taking the head.** -/
theorem popFront_cons {k : Links ι} {e : Ends ι} {l : List ι} {a : ι}
    (h : IsQueue k e (a :: l)) :
    (k.popFront e).1 = some a ∧ IsQueue (k.popFront e).2.1 (k.popFront e).2.2 l
      ∧ SameOff (a :: l) k (k.popFront e).2.1
      ∧ (k.popFront e).2.1.next a = none ∧ (k.popFront e).2.1.prev a = none := by
  have hh : e.head = some a := h.head
  obtain ⟨-, hn, hc⟩ := h.chain
  obtain ⟨hal, hnd⟩ := List.nodup_cons.1 h.nodup
  rw [Option.or_none] at hn
  have hpop : k.popFront e = (some a, (k.setPrev (k.next a) none).clear a,
      ⟨k.next a, if e.head = e.tail then none else e.tail⟩) := by
    simp [popFront, hh]
  rw [hpop]
  refine ⟨rfl, ⟨hn, ?_, hnd, ?_⟩, ?_, by simp [clear_next], by simp [clear_prev]⟩
  · show (if e.head = e.tail then none else e.tail) = l.getLast?
    rw [h.tail, List.getLast?_cons, hh]
    cases hl : l.getLast? with
    | none => simp
    | some t =>
        have hta : a ≠ t := by
          rintro rfl
          exact hal (List.mem_of_getLast? hl)
        simp [hta]
  · show Chain ((k.setPrev (k.next a) none).clear a) none l none
    rw [hn]
    exact (hc.relinkHead none hnd).clear_off hal
  · refine (setPrev_sameOff k _ _ ?_).trans (clear_sameOff _ List.mem_cons_self)
    intro x hx
    rw [hn] at hx
    exact List.mem_cons_of_mem _ (List.mem_of_head? hx)

theorem popFront_nil {k : Links ι} {e : Ends ι} (h : IsQueue k e []) :
    k.popFront e = (none, k, e) := by
  have hh : e.head = none := h.head
  simp [popFront, hh]

/-- **Putting in front**; a list without a tail pointer is a queue whose tail is
read off the list. -/
theorem pushFront_spec {k : Links ι} {head : Option ι} {l : List ι} {a : ι}
    (h : IsQueue k ⟨head, l.getLast?⟩ l) (ha : a ∉ l)
    (hnext : k.next a = none) (hprev : k.prev a = none) :
    IsQueue (k.pushFront head a).1 ⟨(k.pushFront head a).2, (a :: l).getLast?⟩ (a :: l)
      ∧ SameOff (a :: l) k (k.pushFront head a).1 := by
  have hh : head = l.head? := h.head
  have hnd : (a :: l).Nodup := List.nodup_cons.2 ⟨ha, h.nodup⟩
  cases head with
  | none =>
      obtain rfl : l = [] := List.head?_eq_none_iff.1 hh.symm
      refine ⟨⟨rfl, rfl, hnd, hprev, ?_, trivial⟩, SameOff.refl _ _⟩
      simpa [pushFront] using hnext
  | some b =>
      have hba : b ≠ a := by
        rintro rfl
        exact ha (List.mem_of_head? hh.symm)
      have hfront : ∀ x ∈ l, some a ≠ some x := by
        rintro x hx ⟨⟩
        exact ha hx
      simp only [pushFront]
      refine ⟨⟨rfl, rfl, hnd, ?_, ?_, ?_⟩, ?_⟩
      · simp [setPrev_prev, hba]
      · simp [setNext_next, ← hh]
      · rw [hh]
        exact ((h.chain.setPrev_off hfront).setNext_off hfront).relinkHead (some a) h.nodup
      · refine ((setPrev_sameOff _ _ _ ?_).trans (setNext_sameOff _ _ _ ?_)).trans
          (setPrev_sameOff _ _ _ ?_)
        · rintro x ⟨⟩
          exact List.mem_cons_self
        · rintro x ⟨⟩
          exact List.mem_cons_self
        · rintro x ⟨⟩
          exact List.mem_cons_of_mem _ (List.mem_of_head? hh.symm)

/-- **Taking a node out of any position** leaves the two halves joined; the node
itself still points where it did. -/
theorem unlink_spec {k : Links ι} {e : Ends ι} {xs ys : List ι} {a : ι}
    (h : IsQueue k e (xs ++ a :: ys)) :
    IsQueue (k.unlink a) (k.dropEnds e a) (xs ++ ys)
      ∧ SameOff (xs ++ a :: ys) k (k.unlink a) := by
  obtain ⟨hp, hn⟩ := h.at_middle
  obtain ⟨hx, -, -, hy⟩ := (chain_append k (a :: ys) none xs none).1 h.chain
  obtain ⟨hndx, hnda, hdisj⟩ := List.nodup_append.1 h.nodup
  obtain ⟨hay, hndy⟩ := List.nodup_cons.1 hnda
  have hax : a ∉ xs := fun hm => hdisj a hm a List.mem_cons_self rfl
  have hxy : ∀ x ∈ xs, x ∉ ys := fun x hm hm' => hdisj x hm x (List.mem_cons_of_mem _ hm') rfl
  have hlast : ∀ x, xs.getLast? = some x → x ∈ xs := fun x hm => List.mem_of_getLast? hm
  have hfirst : ∀ x, ys.head? = some x → x ∈ ys := fun x hm => List.mem_of_head? hm
  refine ⟨⟨?_, ?_, ?_, ?_⟩, ?_⟩
  · show (if e.head = some a then k.next a else e.head) = _
    rw [h.head, hn]
    cases xs with
    | nil => simp
    | cons b xs =>
        have hba : b ≠ a := by
          rintro rfl
          exact hax List.mem_cons_self
        simp [hba]
  · show (if e.tail = some a then k.prev a else e.tail) = _
    rw [h.tail, hp]
    simp only [List.getLast?_append, List.getLast?_cons]
    cases hl : ys.getLast? with
    | none => simp
    | some t =>
        have hta : t ≠ a := by
          rintro rfl
          exact hay (List.mem_of_getLast? hl)
        simp [hta]
  · exact h.nodup.sublist (List.Sublist.append (List.Sublist.refl xs) (List.sublist_cons_self a ys))
  · unfold unlink
    rw [hp, hn, chain_append, Option.or_none, Option.or_none]
    refine ⟨?_, ?_⟩
    · refine (hx.relinkLast ys.head? hndx).setPrev_off ?_
      intro x hxm hxh
      exact hxy x hxm (hfirst x hxh)
    · refine Chain.relinkHead xs.getLast? (Chain.setNext_off hy ?_) hndy
      intro y hym hyl
      exact hxy y (hlast y hyl) hym
  · refine (setNext_sameOff _ _ _ ?_).trans (setPrev_sameOff _ _ _ ?_)
    · intro x hxl
      rw [hp] at hxl
      exact List.mem_append_left _ (hlast x hxl)
    · intro x hxh
      rw [hn] at hxh
      exact List.mem_append_right _ (List.mem_cons_of_mem _ (hfirst x hxh))

/-- Unlinking writes to the neighbours only, never to the node itself. -/
theorem unlink_self {k : Links ι} {e : Ends ι} {xs ys : List ι} {a : ι}
    (h : IsQueue k e (xs ++ a :: ys)) :
    (k.unlink a).next a = k.next a ∧ (k.unlink a).prev a = k.prev a := by
  obtain ⟨hp, hn⟩ := h.at_middle
  obtain ⟨-, hnda, hdisj⟩ := List.nodup_append.1 h.nodup
  have hprev : k.prev a ≠ some a := by
    rw [hp]
    exact fun hl => hdisj a (List.mem_of_getLast? hl) a List.mem_cons_self rfl
  have hnext : k.next a ≠ some a := by
    rw [hn]
    exact fun hf => (List.nodup_cons.1 hnda).1 (List.mem_of_head? hf)
  unfold unlink
  rw [setPrev_next, setNext_next, if_neg hprev, setPrev_prev, if_neg hnext, setNext_prev]
  exact ⟨rfl, rfl⟩

/-- Unlinking a node that points nowhere and is no end changes nothing. -/
theorem unlink_detached {k : Links ι} {a : ι} (hn : k.next a = none) (hp : k.prev a = none) :
    k.unlink a = k := by
  simp [unlink, hn, hp]

theorem dropEnds_of_not_mem {k : Links ι} {e : Ends ι} {l : List ι} {a : ι}
    (h : IsQueue k e l) (ha : a ∉ l) : k.dropEnds e a = e := by
  have h1 : e.head ≠ some a := by
    rw [h.head]
    exact fun hm => ha (List.mem_of_head? hm)
  have h2 : e.tail ≠ some a := by
    rw [h.tail]
    exact fun hm => ha (List.mem_of_getLast? hm)
  simp [dropEnds, h1, h2]

end Code

end Links

end RedisAgent
