/-
  RedisAgent.Lib.Grouping — cutting a sorted list into its runs of equal key.

  `Grouping key l groups ks` is what a loop that walks a sorted list and reports
  each run has to produce.  A client proves its loop by `single` and `cons`.
-/
import Mathlib.Data.List.Basic
import Mathlib.Data.List.Forall2
import Mathlib.Data.List.Dedup
import Mathlib.Data.List.Nodup

namespace RedisAgent

variable {β : Type*}

/-- `groups` cuts `l` into its runs of equal key, in strictly increasing order of
the keys `ks`. -/
structure Grouping (key : β → Int) (l : List β) (groups : List (List β)) (ks : List Int) : Prop where
  increasing : ks.Pairwise (· < ·)
  exact : List.Forall₂ (fun gr k => gr = l.filter (fun b => key b = k) ∧ gr ≠ []) groups ks
  cover : groups.flatten = l

/-- One group. -/
theorem Grouping.single {key : β → Int} {l : List β} {k : Int} (hne : l ≠ [])
    (hk : ∀ b ∈ l, key b = k) : Grouping key l [l] [k] := by
  refine ⟨List.pairwise_singleton _ _, ?_, by simp⟩
  have hall : l.filter (fun b => key b = k) = l := by
    rw [List.filter_eq_self]
    intro b hb
    simpa using hk b hb
  exact .cons ⟨hall.symm, hne⟩ .nil

/-- Another group in front of those of greater keys. -/
theorem Grouping.cons {key : β → Int} {first l : List β} {groups : List (List β)}
    {ks : List Int} {k : Int} (h : Grouping key l groups ks) (hne : first ≠ [])
    (hk : ∀ b ∈ first, key b = k) (hlt : ∀ k' ∈ ks, k < k') (hl : ∀ b ∈ l, k < key b) :
    Grouping key (first ++ l) (first :: groups) (k :: ks) := by
  refine ⟨List.pairwise_cons.2 ⟨hlt, h.increasing⟩, ?_, ?_⟩
  · have hhead : (first ++ l).filter (fun b => key b = k) = first := by
      have hself : first.filter (fun b => key b = k) = first := by
        rw [List.filter_eq_self]
        intro b hb
        simpa using hk b hb
      have hnil : l.filter (fun b => key b = k) = [] := by
        rw [List.filter_eq_nil_iff]
        intro b hb
        have := hl b hb
        simp only [decide_eq_true_eq]
        omega
      rw [List.filter_append, hself, hnil, List.append_nil]
    -- no element of the first group has a later key
    have htail : ∀ k' ∈ ks, (first ++ l).filter (fun b => key b = k')
        = l.filter (fun b => key b = k') := by
      intro k' hk'
      have hnil : first.filter (fun b => key b = k') = [] := by
        rw [List.filter_eq_nil_iff]
        intro b hb
        have h1 := hk b hb
        have h2 := hlt k' hk'
        simp only [decide_eq_true_eq]
        omega
      rw [List.filter_append, hnil, List.nil_append]
    refine .cons ⟨hhead.symm, hne⟩ ?_
    have hex := h.exact
    clear h hlt
    induction hex with
    | nil => exact .nil
    | cons hab _ ih =>
        refine .cons ?_ (ih (fun k' hk' => htail k' (List.mem_cons_of_mem _ hk')))
        rw [htail _ List.mem_cons_self]
        exact hab
  · rw [List.flatten_cons, h.cover]

/-- The keys of a grouping are the keys of the list. -/
theorem Grouping.mem_keys {key : β → Int} {l : List β} {groups : List (List β)} {ks : List Int}
    (h : Grouping key l groups ks) (k : Int) : k ∈ ks ↔ ∃ b ∈ l, key b = k := by
  have hex := h.exact
  have hcover := h.cover
  constructor
  · intro hk
    have hgr : ∃ gr, gr = l.filter (fun b => key b = k) ∧ gr ≠ [] := by
      clear hcover h
      induction hex with
      | nil => cases hk
      | cons hab _ ih =>
          rcases List.mem_cons.1 hk with heq | hmem
          · rw [heq]
            exact ⟨_, hab⟩
          · exact ih hmem
    obtain ⟨gr, hgr, hne⟩ := hgr
    rw [hgr] at hne
    obtain ⟨b, hb⟩ := List.exists_mem_of_ne_nil _ hne
    obtain ⟨hbl, hbk⟩ := List.mem_filter.1 hb
    exact ⟨b, hbl, by simpa using hbk⟩
  · intro hk
    obtain ⟨b, hb, rfl⟩ := hk
    rw [← hcover] at hb
    obtain ⟨gr, hgr, hbgr⟩ := List.mem_flatten.1 hb
    clear hcover h hb
    induction hex with
    | nil => cases hgr
    | cons hab _ ih =>
        rcases List.mem_cons.1 hgr with heq | hmem
        · rw [heq, hab.1] at hbgr
          have := (List.mem_filter.1 hbgr).2
          simp only [decide_eq_true_eq] at this
          rw [this]
          exact List.mem_cons_self
        · exact List.mem_cons_of_mem _ (ih hmem)

/-- There are as many groups as distinct keys. -/
theorem Grouping.length_eq {key : β → Int} {l : List β} {groups : List (List β)} {ks : List Int}
    (h : Grouping key l groups ks) : groups.length = (l.map key).dedup.length := by
  rw [h.exact.length_eq]
  have hnd : ks.Nodup := h.increasing.imp (fun hlt => by omega)
  apply List.Perm.length_eq
  rw [List.perm_ext_iff_of_nodup hnd (List.nodup_dedup _)]
  intro k
  rw [h.mem_keys, List.mem_dedup, List.mem_map]

end RedisAgent
