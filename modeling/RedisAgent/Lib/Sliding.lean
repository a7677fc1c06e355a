/-
  RedisAgent.Lib.Sliding — the last entries of a growing list, and totals over them.

  The window of `n` entries is `List.rtake n`.  A total over it is kept up to date by
  adding what comes and taking off what leaves, and what leaves is found in the next
  cell of a ring of `n` cells.

  Main results:
    • `sum_rtake_concat` — a total over the window, after one more entry;
    • `RingHolds.next` — the next cell of the ring has the entry that leaves;
    • `RingHolds.write` — writing into the next cell moves the window on;
    • `runsBy_concat_same`, `runsBy_concat_other` — the stretches of one key, after one more
      entry;
    • `runsBy_sorted` — in a sorted list, such a stretch is all there is of its key.
-/
import Mathlib.Algebra.BigOperators.Group.List.Basic
import Mathlib.Data.List.DropRight
import Mathlib.Data.List.SplitBy
import Mathlib.Data.Nat.ModEq

namespace RedisAgent

variable {α M : Type*} {n : Nat} {l : List α}

/-! ## §1. The window. -/

/-- What leaves the window of `n` when one more entry comes. -/
def evicted (n : Nat) (l : List α) : Option α := if n ≤ l.length then l[l.length - n]? else none

/-- The window is what leaves it next, and what stays. -/
theorem rtake_succ_eq (n : Nat) (l : List α) :
    l.rtake (n + 1) = (evicted (n + 1) l).toList ++ l.rtake n := by
  unfold evicted List.rtake
  by_cases h : n + 1 ≤ l.length
  · have hlt : l.length - (n + 1) < l.length := by omega
    have hsucc : l.length - (n + 1) + 1 = l.length - n := by omega
    rw [if_pos h, List.getElem?_eq_getElem hlt, List.drop_eq_getElem_cons hlt, hsucc]
    rfl
  · -- nothing leaves a window that is not full
    have hall : l.length - (n + 1) = l.length - n := by omega
    rw [if_neg h, hall]
    rfl

theorem evicted_map {β : Type*} (f : α → β) (n : Nat) (l : List α) :
    evicted n (l.map f) = (evicted n l).map f := by
  unfold evicted
  rw [List.length_map]
  split
  · exact List.getElem?_map
  · rfl

/-- **A total over the window**, after one more entry. -/
theorem sum_rtake_concat [AddCommMonoid M] (f : α → M) (n : Nat) (l : List α) (x : α) :
    (((l ++ [x]).rtake (n + 1)).map f).sum + ((evicted (n + 1) l).map f).getD 0
      = ((l.rtake (n + 1)).map f).sum + f x := by
  rw [List.rtake_concat_succ, rtake_succ_eq n l, List.map_append, List.map_append,
    List.sum_append, List.sum_append]
  have hone : (([x] : List α).map f).sum = f x := by simp
  have hold : ((evicted (n + 1) l).toList.map f).sum = ((evicted (n + 1) l).map f).getD 0 := by
    cases evicted (n + 1) l with
    | none => rfl
    | some y => simp
  rw [hone, hold, add_comm, add_assoc]

/-- A first entry that counts for nothing can be left out. -/
theorem sum_rtake_cons [AddCommMonoid M] (f : α → M) (n : Nat) (l : List α) {a : α} (ha : f a = 0) :
    (((a :: l).rtake n).map f).sum = ((l.rtake n).map f).sum := by
  unfold List.rtake
  by_cases h : n ≤ l.length
  · have hlen : (a :: l).length - n = l.length - n + 1 := by
      rw [List.length_cons]
      omega
    rw [hlen, List.drop_succ_cons]
  · have hlen : (a :: l).length - n = 0 := by
      rw [List.length_cons]
      omega
    have hlen' : l.length - n = 0 := by omega
    rw [hlen, hlen', List.drop_zero, List.drop_zero, List.map_cons, List.sum_cons, ha, zero_add]

theorem length_rtake_le (n : Nat) (l : List α) : (l.rtake n).length ≤ n := by
  unfold List.rtake
  rw [List.length_drop]
  omega

/-! ## §2. The ring. -/

/-- `n` cells after the entries of `l` were written into them in turn: the last `n` entries,
each at its number modulo `n`. -/
structure RingHolds (n : Nat) (value : Nat → α) (valid : Nat → Bool) (l : List α) : Prop where
  valid : ∀ i, i < n → valid i = decide (i < l.length)
  value : ∀ k (hk : k < l.length), l.length ≤ k + n → value (k % n) = l[k]

variable {value : Nat → α} {valid : Nat → Bool}

/-- No cell is valid before the first entry. -/
theorem RingHolds.nil (value : Nat → α) : RingHolds n value (fun _ => false) [] :=
  ⟨fun i _ => (decide_eq_false (Nat.not_lt_zero i)).symm, fun k hk _ => absurd hk (Nat.not_lt_zero k)⟩

/-- **The next cell** has the entry that leaves the window. -/
theorem RingHolds.next (h : RingHolds n value valid l) (hn : 0 < n) :
    (if valid (l.length % n) then some (value (l.length % n)) else none) = evicted n l := by
  have hlt : l.length % n < n := Nat.mod_lt _ hn
  unfold evicted
  rw [h.valid _ hlt]
  by_cases hfull : n ≤ l.length
  · have hcell : l.length % n = (l.length - n) % n := (Nat.mod_eq_sub_mod hfull)
    have hold : l.length - n < l.length := by omega
    rw [if_pos hfull, if_pos (by rw [decide_eq_true_eq]; omega), hcell,
      h.value _ hold (by omega), List.getElem?_eq_getElem hold]
  · have hsame : l.length % n = l.length := Nat.mod_eq_of_lt (by omega)
    rw [if_neg hfull, hsame, decide_eq_false (Nat.lt_irrefl _)]
    rfl

/-- Entries of one window are in different cells. -/
theorem mod_ne_of_window {a b n : Nat} (hab : a < b) (hba : b < a + n) : a % n ≠ b % n := by
  intro heq
  have hdvd : n ∣ b - a := (Nat.modEq_iff_dvd' hab.le).1 heq
  have hle := Nat.le_of_dvd (by omega) hdvd
  omega

/-- **Writing the next cell** moves the window on. -/
theorem RingHolds.write (h : RingHolds n value valid l) (x : α) :
    RingHolds n (Function.update value (l.length % n) x)
      (Function.update valid (l.length % n) true) (l ++ [x]) := by
  constructor
  · intro i hi
    rw [List.length_append, List.length_singleton]
    by_cases hcell : i = l.length % n
    · rw [hcell, Function.update_self, eq_comm, decide_eq_true_eq]
      have hle := Nat.mod_le l.length n
      omega
    · have hne : i ≠ l.length := by
        intro heq
        rw [heq] at hcell hi
        exact hcell (Nat.mod_eq_of_lt hi).symm
      rw [Function.update_of_ne hcell, h.valid i hi]
      exact decide_eq_decide.2 (by omega)
  · intro k hk hin
    rw [List.length_append, List.length_singleton] at hk hin
    by_cases hlast : k = l.length
    · subst hlast
      rw [Function.update_self, List.getElem_concat_length rfl]
    · have hk' : k < l.length := by omega
      rw [Function.update_of_ne (mod_ne_of_window hk' (by omega)), h.value k hk' (by omega),
        List.getElem_append_left hk']

/-! ## §3. Stretches of one key. -/

section Runs

variable {κ : Type*} [DecidableEq κ] {key : α → κ}

/-- The list in stretches, each as long as the key stays the same. -/
def runsBy (key : α → κ) (l : List α) : List (List α) := l.splitBy (fun a b => key a == key b)

/-- What the stretches of a list are. -/
structure Stretches (key : α → κ) (gs : List (List α)) : Prop where
  ne_nil : [] ∉ gs
  same : ∀ g ∈ gs, g.IsChain (fun a b => (key a == key b) = true)
  other : gs.IsChain (fun g g' => ∃ hg hg', (key (g.getLast hg) == key (g'.head hg')) = false)

theorem runsBy_stretches (key : α → κ) (l : List α) : Stretches key (runsBy key l) :=
  ⟨List.nil_notMem_splitBy _ l, fun _ => List.isChain_of_mem_splitBy,
    List.isChain_getLast_head_splitBy (fun a b => key a == key b) l⟩

theorem flatten_runsBy (key : α → κ) (l : List α) : (runsBy key l).flatten = l :=
  List.flatten_splitBy _ l

theorem runsBy_nil (key : α → κ) : runsBy key [] = [] := rfl

/-- An entry with another key starts a stretch. -/
theorem runsBy_concat_other (x : α) (h : ∀ y ∈ l.getLast?, key y ≠ key x) :
    runsBy key (l ++ [x]) = runsBy key l ++ [[x]] := by
  unfold runsBy
  rw [List.splitBy_append]
  · rfl
  · intro y hy z hz
    cases hz
    exact beq_eq_false_iff_ne.2 (h y hy)

/-- An entry with the same key goes on with the last one. -/
theorem runsBy_concat_same {x y : α} (hy : l.getLast? = some y) (h : key y = key x)
    {pre : List (List α)} {g : List α} (hl : runsBy key l = pre ++ [g]) :
    runsBy key (l ++ [x]) = pre ++ [g ++ [x]] := by
  obtain ⟨hnil, hsame, hother⟩ := hl ▸ runsBy_stretches key l
  have hg : g ≠ [] := by
    intro hg
    exact hnil (hg ▸ List.mem_append_right pre List.mem_cons_self)
  have hflat : l = pre.flatten ++ g := by
    have hflat := flatten_runsBy key l
    rw [hl, List.flatten_append, List.flatten_singleton] at hflat
    exact hflat.symm
  have hlast : g.getLast? = some y := by
    rw [← hy, hflat, List.getLast?_append_of_ne_nil _ hg]
  refine List.splitBy_eq_iff.2 ⟨?_, ?_, ?_, ?_⟩
  · rw [List.flatten_append, List.flatten_singleton, hflat, List.append_assoc]
  · intro hmem
    rcases List.mem_append.1 hmem with hmem | hmem
    · exact hnil (List.mem_append_left _ hmem)
    · exact List.append_ne_nil_of_right_ne_nil g (List.cons_ne_nil x []) (List.mem_singleton.1 hmem).symm
  · intro g' hg'
    rcases List.mem_append.1 hg' with hg' | hg'
    · exact hsame g' (List.mem_append_left _ hg')
    · rw [List.mem_singleton.1 hg', List.isChain_append]
      refine ⟨hsame g (List.mem_append_right _ List.mem_cons_self), List.isChain_singleton x, ?_⟩
      intro a ha b hb
      rw [hlast] at ha
      cases ha
      cases hb
      exact beq_iff_eq.2 h
  · rw [List.isChain_append] at hother ⊢
    refine ⟨hother.1, List.isChain_singleton _, ?_⟩
    intro a ha b hb
    cases hb
    obtain ⟨hne, hne', hkey⟩ := hother.2.2 a ha g rfl
    refine ⟨hne, List.append_ne_nil_of_left_ne_nil hg _, ?_⟩
    rw [List.head_append_of_ne_nil hg]
    exact hkey

/-- The keys of one stretch are equal. -/
theorem Stretches.key_eq {gs : List (List α)} (h : Stretches key gs) {g : List α} (hg : g ∈ gs)
    {a b : α} (ha : a ∈ g) (hb : b ∈ g) : key a = key b := by
  have hchain : g.IsChain (fun a b => key a = key b) :=
    (h.same g hg).imp fun a b hab => beq_iff_eq.1 hab
  have htrans : Trans (fun a b => key a = key b) (fun a b => key a = key b)
      (fun a b => key a = key b) := ⟨fun hab hbc => hab.trans hbc⟩
  have hsymm : Std.Symm (fun a b => key a = key b) := ⟨fun _ _ hab => hab.symm⟩
  have hpair : g.Pairwise (fun a b => key a = key b) := List.isChain_iff_pairwise.1 hchain
  by_cases hab : a = b
  · rw [hab]
  · exact hpair.forall ha hb hab

end Runs

section SortedRuns

variable {κ : Type*} [LE κ] [Std.IsPartialOrder κ] [DecidableEq κ] {key : α → κ}

/-- **In a sorted list** a stretch is all there is of its key. -/
theorem runsBy_sorted (hsorted : l.Pairwise (fun a b => key a ≤ key b)) {g : List α}
    (hg : g ∈ runsBy key l) {a : α} (ha : a ∈ g) : g = l.filter (fun b => key b = key a) := by
  have hstr := runsBy_stretches key l
  have hflat := flatten_runsBy key l
  obtain ⟨s, t, hst⟩ := List.append_of_mem hg
  rw [hst] at hstr hflat
  have hin : g ∈ s ++ g :: t := List.mem_append_right s List.mem_cons_self
  rw [List.flatten_append, List.flatten_cons] at hflat
  obtain ⟨-, hother, hbefore⟩ := List.isChain_append.1 hstr.other
  have hpair := hsorted
  rw [← hflat, List.pairwise_append] at hpair
  obtain ⟨hs, hgt, hsg⟩ := hpair
  obtain ⟨-, ht, hgt⟩ := List.pairwise_append.1 hgt
  -- the keys before the stretch are other ones, for the last of them is
  have hless : ∀ b ∈ s.flatten, ¬ key b = key a := by
    rcases List.eq_nil_or_concat' s with rfl | ⟨s', g', rfl⟩
    · exact fun b hb => absurd hb List.not_mem_nil
    · obtain ⟨hg', hgne, hne⟩ := hbefore g' List.getLast?_concat g rfl
      have hlast : g'.getLast hg' ∈ (s' ++ [g']).flatten :=
        List.mem_flatten.2 ⟨g', List.mem_append_right _ List.mem_cons_self, List.getLast_mem hg'⟩
      have hle : key (g'.getLast hg') ≤ key a := hsg _ hlast a (List.mem_append_left _ ha)
      have hhead : key (g.head hgne) = key a := hstr.key_eq hin (List.head_mem hgne) ha
      rw [hhead] at hne
      intro b hb heq
      refine beq_eq_false_iff_ne.1 hne (Std.le_antisymm hle ?_)
      rw [← heq]
      rw [List.flatten_append, List.flatten_singleton] at hs hb
      rcases List.mem_append.1 hb with hb | hb
      · exact (List.pairwise_append.1 hs).2.2 b hb _ (List.getLast_mem hg')
      · have hin' : g' ∈ (s' ++ [g']) ++ g :: t :=
          List.mem_append_left _ (List.mem_append_right _ List.mem_cons_self)
        exact hstr.key_eq hin' hb (List.getLast_mem hg') ▸ Std.le_refl _
  -- and so are those behind it, for the first of them is
  have hmore : ∀ b ∈ t.flatten, ¬ key b = key a := by
    cases t with
    | nil => exact fun b hb => absurd hb List.not_mem_nil
    | cons g' t' =>
        obtain ⟨hgne, hg', hne⟩ := (List.isChain_cons_cons.1 hother).1
        have hfirst : g'.head hg' ∈ (g' :: t').flatten :=
          List.mem_flatten.2 ⟨g', List.mem_cons_self, List.head_mem hg'⟩
        have hle : key a ≤ key (g'.head hg') := hgt a ha _ hfirst
        have hlast : key (g.getLast hgne) = key a := hstr.key_eq hin (List.getLast_mem hgne) ha
        rw [hlast] at hne
        intro b hb heq
        refine beq_eq_false_iff_ne.1 hne (Std.le_antisymm hle ?_)
        rw [← heq]
        rw [List.flatten_cons] at ht hb
        rcases List.mem_append.1 hb with hb | hb
        · have hin' : g' ∈ s ++ g :: g' :: t' :=
            List.mem_append_right _ (List.mem_cons_of_mem _ List.mem_cons_self)
          exact hstr.key_eq hin' (List.head_mem hg') hb ▸ Std.le_refl _
        · exact (List.pairwise_append.1 ht).2.2 _ (List.head_mem hg') b hb
  have hfront : s.flatten.filter (fun b => key b = key a) = [] :=
    List.filter_eq_nil_iff.2 fun b hb hd => hless b hb (of_decide_eq_true hd)
  have hbehind : t.flatten.filter (fun b => key b = key a) = [] :=
    List.filter_eq_nil_iff.2 fun b hb hd => hmore b hb (of_decide_eq_true hd)
  have hall : g.filter (fun b => key b = key a) = g :=
    List.filter_eq_self.2 fun b hb => decide_eq_true (hstr.key_eq hin hb ha)
  rw [← hflat, List.filter_append, List.filter_append, hfront, hbehind, hall, List.append_nil,
    List.nil_append]

end SortedRuns

end RedisAgent
