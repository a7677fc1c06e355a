/-
  RedisAgent.Lib.LinkEdits — doubly linked lists without a head pointer.

  A list is only reached from one of its nodes: a new node goes behind a given one,
  a node moves to another place, and `next` and `prev` are followed from any node to
  both ends.

  Main results:
    • `insertAfter_spec`, `relocate_spec` — one rule per operation, with its frame;
    • `Chain.walks` — from any node the two walks visit the rest of the list once.
-/
import Mathlib.Data.List.Induction
import RedisAgent.Lib.Links

namespace RedisAgent

namespace Links

variable {ι : Type*}

/-! ## §1. Walks. -/

theorem Chain.isQueue {k : Links ι} {l : List ι} (h : Chain k none l none) (hnd : l.Nodup) :
    IsQueue k ⟨l.head?, l.getLast?⟩ l :=
  ⟨rfl, rfl, hnd, h⟩

/-- Following `dir` from `p` on visits `l`, and then ends. -/
def Walk (dir : ι → Option ι) : Option ι → List ι → Prop
  | p, [] => p = none
  | p, a :: l => p = some a ∧ Walk dir (dir a) l

/-- A walk looks at its own nodes only. -/
theorem Walk.congr {dir dir' : ι → Option ι} {l : List ι} :
    ∀ {p : Option ι}, Walk dir p l → (∀ a ∈ l, dir' a = dir a) → Walk dir' p l := by
  induction l with
  | nil => exact fun h _ => h
  | cons a l ih =>
      intro p h hd
      obtain ⟨hp, hw⟩ := h
      refine ⟨hp, ?_⟩
      rw [hd a List.mem_cons_self]
      exact ih hw fun b hb => hd b (List.mem_cons_of_mem _ hb)

theorem Chain.walk_next {k : Links ι} {l : List ι} :
    ∀ {p : Option ι}, Chain k p l none → Walk k.next l.head? l := by
  induction l with
  | nil => exact fun _ => rfl
  | cons a l ih =>
      intro p h
      obtain ⟨-, hn, hc⟩ := h
      rw [Option.or_none] at hn
      refine ⟨rfl, ?_⟩
      rw [hn]
      exact ih hc

theorem Chain.walk_prev {k : Links ι} {l : List ι} :
    ∀ {n : Option ι}, Chain k none l n → Walk k.prev l.getLast? l.reverse := by
  induction l using List.reverseRecOn with
  | nil => exact fun _ => rfl
  | append_singleton l a ih =>
      intro n h
      obtain ⟨hl, ha⟩ := (chain_append k [a] n l none).1 h
      rw [List.reverse_concat, List.getLast?_concat]
      refine ⟨rfl, ?_⟩
      rw [ha.1, Option.or_none]
      exact ih hl

/-- **From any node** the walks visit what is in front of it and what is behind it. -/
theorem Chain.walks {k : Links ι} {xs ys : List ι} {a : ι}
    (h : Chain k none (xs ++ a :: ys) none) :
    Walk k.prev (k.prev a) xs.reverse ∧ Walk k.next (k.next a) ys := by
  obtain ⟨hx, hp, hn, hy⟩ := (chain_append k (a :: ys) none xs none).1 h
  rw [Option.or_none] at hp hn
  rw [hp, hn]
  exact ⟨hx.walk_prev, hy.walk_next⟩

/-! ## §2. Inserting and moving. -/

variable [DecidableEq ι]

/-- Put `b` behind `a`. -/
def insertAfter (k : Links ι) (a b : ι) : Links ι :=
  let k := k.setNext (some b) (k.next a)
  let k := k.setNext (some a) (some b)
  let k := k.setPrev (some b) (some a)
  k.setPrev (k.next b) (some b)

/-- Node `a` moves to `b`, which may be the same, and its neighbours are told. -/
def relocate (k : Links ι) (a b : ι) : Links ι :=
  let k := (k.setNext (some b) (k.next a)).setPrev (some b) (k.prev a)
  let k := k.setPrev (k.next b) (some b)
  k.setNext (k.prev b) (some b)

/-- **Inserting behind a node** of any position. -/
theorem insertAfter_spec {k : Links ι} {xs ys : List ι} {a b : ι}
    (h : Chain k none (xs ++ a :: ys) none) (hnd : (xs ++ a :: ys).Nodup)
    (hb : b ∉ xs ++ a :: ys) :
    Chain (k.insertAfter a b) none (xs ++ a :: b :: ys) none
      ∧ SameOff (xs ++ a :: b :: ys) k (k.insertAfter a b) := by
  obtain ⟨hp, hn⟩ := (h.isQueue hnd).at_middle
  obtain ⟨hx, -, -, hy⟩ := (chain_append k (a :: ys) none xs none).1 h
  obtain ⟨-, hnda, hdisj⟩ := List.nodup_append.1 hnd
  obtain ⟨hay, hndy⟩ := List.nodup_cons.1 hnda
  rw [List.mem_append, List.mem_cons, not_or, not_or] at hb
  obtain ⟨hbx, hba, hby⟩ := hb
  have hax : ∀ x ∈ xs, some a ≠ some x := by
    rintro x hm ⟨⟩
    exact hdisj a hm a List.mem_cons_self rfl
  have hbx' : ∀ x ∈ xs, some b ≠ some x := by
    rintro x hm ⟨⟩
    exact hbx hm
  have hyx : ∀ x ∈ xs, ys.head? ≠ some x :=
    fun x hm hf => hdisj x hm x (List.mem_cons_of_mem _ (List.mem_of_head? hf)) rfl
  have hay' : ∀ y ∈ ys, some a ≠ some y := by
    rintro y hm ⟨⟩
    exact hay hm
  have hby' : ∀ y ∈ ys, some b ≠ some y := by
    rintro y hm ⟨⟩
    exact hby hm
  have hcode : k.insertAfter a b
      = (((k.setNext (some b) ys.head?).setNext (some a) (some b)).setPrev (some b) (some a)).setPrev
          ys.head? (some b) := by
    unfold insertAfter
    simp [hn, setNext_next, Ne.symm hba]
  have hya : ys.head? ≠ some a := fun hf => hay (List.mem_of_head? hf)
  have hyb : ys.head? ≠ some b := fun hf => hby (List.mem_of_head? hf)
  rw [hcode]
  refine ⟨?_, ?_⟩
  · rw [chain_append]
    refine ⟨(((hx.setNext_off hbx').setNext_off hax).setPrev_off hbx').setPrev_off hyx, ?_, ?_, ?_, ?_, ?_⟩
    · simp [setPrev_prev, hya, hba, hp]
    · simp [setNext_next]
    · simp [setPrev_prev, hyb]
    · simp [setNext_next, Ne.symm hba]
    · exact (((hy.setNext_off hby').setNext_off hay').setPrev_off hby').relinkHead (some b) hndy
  · refine (((setNext_sameOff k _ _ ?_).trans (setNext_sameOff _ _ _ ?_)).trans
      (setPrev_sameOff _ _ _ ?_)).trans (setPrev_sameOff _ _ _ ?_)
    · rintro x ⟨⟩
      simp
    · rintro x ⟨⟩
      simp
    · rintro x ⟨⟩
      simp
    · intro x hf
      have hmem := List.mem_of_head? hf
      simp [hmem]

/-- **Moving a node** to a new place or to its own. -/
theorem relocate_spec {k : Links ι} {xs ys : List ι} {a b : ι}
    (h : Chain k none (xs ++ a :: ys) none) (hnd : (xs ++ a :: ys).Nodup)
    (hb : b ∉ xs ++ ys) :
    Chain (k.relocate a b) none (xs ++ b :: ys) none
      ∧ SameOff (xs ++ b :: ys) k (k.relocate a b) := by
  obtain ⟨hp, hn⟩ := (h.isQueue hnd).at_middle
  obtain ⟨hx, -, -, hy⟩ := (chain_append k (a :: ys) none xs none).1 h
  obtain ⟨hndx, hnda, hdisj⟩ := List.nodup_append.1 hnd
  obtain ⟨-, hndy⟩ := List.nodup_cons.1 hnda
  rw [List.mem_append, not_or] at hb
  obtain ⟨hbx, hby⟩ := hb
  have hbx' : ∀ x ∈ xs, some b ≠ some x := by
    rintro x hm ⟨⟩
    exact hbx hm
  have hby' : ∀ y ∈ ys, some b ≠ some y := by
    rintro y hm ⟨⟩
    exact hby hm
  have hxy : ∀ x ∈ xs, x ∉ ys := fun x hm hm' => hdisj x hm x (List.mem_cons_of_mem _ hm') rfl
  have hlast : ∀ x, xs.getLast? = some x → x ∈ xs := fun x hm => List.mem_of_getLast? hm
  have hfirst : ∀ x, ys.head? = some x → x ∈ ys := fun x hm => List.mem_of_head? hm
  have hyb : ys.head? ≠ some b := fun hf => hby (hfirst b hf)
  have hxb : xs.getLast? ≠ some b := fun hl => hbx (hlast b hl)
  have hcode : k.relocate a b
      = (((k.setNext (some b) ys.head?).setPrev (some b) xs.getLast?).setPrev ys.head?
          (some b)).setNext xs.getLast? (some b) := by
    unfold relocate
    simp [hn, hp, setNext_next, setPrev_prev, hyb]
  rw [hcode]
  refine ⟨?_, ?_⟩
  · rw [chain_append]
    refine ⟨?_, ?_, ?_, ?_⟩
    · refine Chain.relinkLast (some b) (((hx.setNext_off hbx').setPrev_off hbx').setPrev_off ?_) hndx
      exact fun x hm hf => hxy x hm (hfirst x hf)
    · simp [setPrev_prev, hyb]
    · simp [setNext_next, hxb]
    · refine Chain.setNext_off ?_ (fun y hm hl => hxy y (hlast y hl) hm)
      exact ((hy.setNext_off hby').setPrev_off hby').relinkHead (some b) hndy
  · refine (((setNext_sameOff k _ _ ?_).trans (setPrev_sameOff _ _ _ ?_)).trans
      (setPrev_sameOff _ _ _ ?_)).trans (setNext_sameOff _ _ _ ?_)
    · rintro x ⟨⟩
      simp
    · rintro x ⟨⟩
      simp
    · intro x hf
      have hmem := hfirst x hf
      simp [hmem]
    · intro x hl
      have hmem := hlast x hl
      simp [hmem]

end Links

end RedisAgent
