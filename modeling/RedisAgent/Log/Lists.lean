/-
  RedisAgent.Log.Lists — many `log_data_t` lists in one heap.

  Log/Fields follows one list through its pushes.  Every request has a list of its own;
  here is what a push on one list leaves of the others, and `log_data_free`.

  Main results:
    • `LogHeap.ListAt.push` — a push takes at most one new chunk, and writes to its own
      list only;
    • `LogHeap.ListAt.free` — `log_data_free` frees the chunks of its list, and nothing
      else.
-/
import RedisAgent.Lib.LinkEdits
import RedisAgent.Log.Line

namespace RedisAgent

variable {δ : Type}

/-! ## §1. `log_data_free`. -/

/-- `free(p)` -/
def LogHeap.free (h : LogHeap δ) (p : Nat) : Option (LogHeap δ) :=
  (h.node p).map (fun _ => { h with node := Function.update h.node p none })

/-- `while(next)`, with `left` passes at most. -/
def logDataFreeLoop : Nat → LogHeap δ → Option Nat → Option (LogHeap δ)
  | _, h, none => some h
  | 0, _, some _ => none
  | left + 1, h, some next =>
      (h.node next).bind fun d => (h.free next).bind fun h => logDataFreeLoop left h d.next

/-- `log_data_free(ld)`.  A list without a cycle has no more chunks than `malloc` has handed
out addresses. -/
def logDataFree (h : LogHeap δ) (ld : Option Nat) : Option (LogHeap δ) :=
  logDataFreeLoop h.brk h ld

/-! ## §2. One list among others. -/

namespace LogHeap

variable {h h' : LogHeap δ} {ld : Nat} {ps : List Nat} {fields : List (LogField δ)}

/-- The list at `ld` consists of the chunks `ps`, and holds `fields`. -/
structure ListAt (h : LogHeap δ) (ld : Nat) (ps : List Nat) (fields : List (LogField δ)) : Prop where
  holds : ∃ front last, ps = front ++ [last] ∧ h.Holds ld front last fields

/-- `malloc` has handed out every chunk there is. -/
def Bounded (h : LogHeap δ) : Prop := ∀ q, (h.node q).isSome → q < h.brk

theorem ListAt.mem (hl : h.ListAt ld ps fields) : ld ∈ ps := by
  obtain ⟨front, last, rfl, hh⟩ := hl.holds
  exact List.mem_of_mem_head? hh.queue.head.symm

theorem ListAt.lt (hl : h.ListAt ld ps fields) {q : Nat} (hq : q ∈ ps) : q < h.brk := by
  obtain ⟨front, last, rfl, hh⟩ := hl.holds
  exact (hh.live q hq).2

/-- **A list that is not written to** stays as it is. -/
theorem ListAt.congr (hl : h.ListAt ld ps fields) (hnode : ∀ q ∈ ps, h'.node q = h.node q)
    (hbrk : h.brk ≤ h'.brk) : h'.ListAt ld ps fields := by
  have hld := hl.mem
  obtain ⟨front, last, rfl, hh⟩ := hl.holds
  have hfields : ∀ q ∈ front ++ [last], h'.fieldsAt q = h.fieldsAt q := by
    intro q hq
    unfold fieldsAt
    rw [hnode q hq]
  refine ⟨front, last, rfl, ?_, ?_, ?_, ?_, ?_, ?_⟩
  · refine hh.queue.congr fun q hq => ?_
    unfold links
    simp only [hnode q hq, and_self]
  · intro q hq
    rw [hnode q hq]
    exact ⟨(hh.live q hq).1, Nat.lt_of_lt_of_le (hh.live q hq).2 hbrk⟩
  · rw [hnode ld hld]
    exact hh.tail
  · intro q hq
    rw [hfields q (List.mem_append_left _ hq)]
    exact hh.full q hq
  · rw [hfields last (by simp)]
    exact hh.room
  · rw [List.flatMap_congr hfields]
    exact hh.spells

/-- `log_data_new` writes to the new chunk only. -/
theorem logDataNew_node (h : LogHeap δ) {q : Nat} (hq : q ≠ h.brk) :
    (logDataNew h).2.node q = h.node q := Function.update_of_ne hq _ _

theorem Bounded.logDataNew (hb : h.Bounded) : (logDataNew h).2.Bounded := by
  intro q hq
  show q < h.brk + 1
  by_cases hne : q = h.brk
  · omega
  · rw [logDataNew_node h hne] at hq
    have := hb q hq
    omega

theorem ListAt.new (h : LogHeap δ) : (logDataNew h).2.ListAt h.brk [h.brk] [] :=
  ⟨[], h.brk, rfl, holds_new h⟩

/-- A write allocates nothing. -/
theorem modify_keeps {p : Nat} {f : LogData δ → LogData δ} (hm : h.modify p f = some h') :
    h'.brk = h.brk ∧ ∀ q, (h'.node q).isSome = (h.node q).isSome := by
  obtain ⟨d, hd, rfl⟩ := Option.map_eq_some_iff.1 hm
  refine ⟨rfl, fun q => ?_⟩
  show (Function.update h.node p (some (f d)) q).isSome = _
  by_cases hq : q = p
  · rw [hq, Function.update_self, hd]
    rfl
  · rw [Function.update_of_ne hq]

/-- A push allocates the next chunk, or none. -/
theorem pushField_allocates {field : LogField δ} (hp : logDataPushField h ld field = some h') :
    h.brk ≤ h'.brk ∧ ∀ q, (h'.node q).isSome → (h.node q).isSome ∨ (q = h.brk ∧ h.brk < h'.brk) := by
  unfold logDataPushField at hp
  simp only [Option.bind_eq_bind, Option.bind_eq_some_iff] at hp
  obtain ⟨dh, -, dl, -, hp⟩ := hp
  split at hp
  · simp only [logDataNew, Option.bind_eq_some_iff] at hp
    obtain ⟨h₁, hm₁, h₂, hm₂, h₃, hm₃, hm₄⟩ := hp
    obtain ⟨hb₁, hs₁⟩ := modify_keeps hm₁
    obtain ⟨hb₂, hs₂⟩ := modify_keeps hm₂
    obtain ⟨hb₃, hs₃⟩ := modify_keeps hm₃
    obtain ⟨hb₄, hs₄⟩ := modify_keeps hm₄
    have hbrk : h'.brk = h.brk + 1 := by
      rw [hb₄, hb₃, hb₂, hb₁]
    refine ⟨by omega, fun q hq => ?_⟩
    rw [hs₄, hs₃, hs₂, hs₁] at hq
    by_cases hne : q = h.brk
    · exact Or.inr ⟨hne, by omega⟩
    · have hq' : (Function.update h.node h.brk (some ⟨[], none, none, h.brk⟩) q).isSome := hq
      rw [Function.update_of_ne hne] at hq'
      exact Or.inl hq'
  · obtain ⟨hb, hs⟩ := modify_keeps hp
    exact ⟨Nat.le_of_eq hb.symm, fun q hq => Or.inl (hs q ▸ hq)⟩

/-- **A push on one list** makes it longer by a chunk or not at all, and writes to it only. -/
theorem ListAt.push (hl : h.ListAt ld ps fields) (field : LogField δ) : ∃ h' ps',
    logDataPushField h ld field = some h' ∧ h'.ListAt ld ps' (fields ++ [field])
      ∧ (∀ q ∈ ps, q ∈ ps') ∧ (∀ q ∈ ps', q ∈ ps ∨ q = h.brk) ∧ (h.brk < h'.brk → h.brk ∈ ps')
      ∧ ∀ q, q ∉ ps → q < h.brk → h'.node q = h.node q := by
  have hld := hl.mem
  obtain ⟨front, last, rfl, hh⟩ := hl.holds
  obtain ⟨dh, hdh, htail⟩ := Option.map_eq_some_iff.1 hh.tail
  obtain ⟨hsome, hlt⟩ := hh.live last (by simp)
  obtain ⟨dl, hdl⟩ := Option.isSome_iff_exists.1 hsome
  have hfields : h.fieldsAt last = dl.fields := fieldsAt_of_node hdl
  have hlast : last ∈ front ++ [last] := by simp
  by_cases hroom : dl.fields.length < logDataSize
  · -- the last chunk has room
    obtain ⟨h', hpush, hbrk, hnode⟩ := LogHeap.push_room field hdh htail hdl hroom
    refine ⟨h', front ++ [last], hpush,
      ⟨front, last, rfl, hh.push_room field hbrk hnode (hfields ▸ hroom)⟩,
      fun q hq => hq, fun q hq => Or.inl hq, fun hgrown => ?_, fun q hq _ => ?_⟩
    · omega
    · rw [hnode, if_neg]
      intro he
      exact hq (he ▸ hlast)
  · -- it is full, and a new one is put behind it
    have hfull : (h.fieldsAt last).length = logDataSize := by
      have hle := hh.room
      rw [hfields] at hle ⊢
      omega
    obtain ⟨h', hpush, hbrk, hnew, hnode⟩ := LogHeap.push_full field hdh htail hdl
      (Nat.not_lt.1 hroom) (hh.live ld hld).2 hlt
    refine ⟨h', front ++ [last] ++ [h.brk], hpush,
      ⟨front ++ [last], h.brk, rfl, hh.push_full field hbrk hnew hnode hfull⟩,
      fun q hq => List.mem_append_left _ hq, fun q hq => ?_, fun _ => by simp, fun q hq hlt => ?_⟩
    · rcases List.mem_append.1 hq with hq | hq
      · exact Or.inl hq
      · exact Or.inr (List.mem_singleton.1 hq)
    · have hne : q ≠ last := fun he => hq (he ▸ hlast)
      have hne' : q ≠ ld := fun he => hq (he ▸ hld)
      rw [hnode q hlt]
      cases h.node q with
      | none => rfl
      | some d => simp only [Option.map_some, if_neg hne, if_neg hne']

/-- **The loop of `log_data_free`**: by induction on the chunks it comes to. -/
theorem freeLoop_walk (ps : List Nat) : ∀ (left : Nat) (h : LogHeap δ) (p : Option Nat),
    ps.length ≤ left → Links.Walk h.links.next p ps → ps.Nodup → (∀ q ∈ ps, (h.node q).isSome) →
    ∃ h', logDataFreeLoop left h p = some h' ∧ h'.brk = h.brk
      ∧ ∀ q, h'.node q = if q ∈ ps then none else h.node q := by
  induction ps with
  | nil =>
      intro left h p _ hwalk _ _
      have hp : p = none := hwalk
      refine ⟨h, ?_, rfl, fun q => (if_neg List.not_mem_nil).symm⟩
      rw [hp]
      cases left <;> rfl
  | cons a ps ih =>
      intro left h p hleft hwalk hnd hlive
      obtain ⟨rfl, hrest⟩ := hwalk
      obtain ⟨hap, hnd'⟩ := List.nodup_cons.1 hnd
      obtain ⟨d, hd⟩ := Option.isSome_iff_exists.1 (hlive a List.mem_cons_self)
      -- the other chunks are as they were when `a` is freed
      have hother : ∀ q ∈ ps, Function.update h.node a none q = h.node q := by
        intro q hq
        apply Function.update_of_ne
        rintro rfl
        exact hap hq
      cases left with
      | zero => exact absurd hleft (Nat.not_succ_le_zero _)
      | succ left =>
          obtain ⟨h', hloop, hbrk, hnode⟩ := ih left { h with node := Function.update h.node a none }
            d.next (Nat.le_of_succ_le_succ hleft) (by
              rw [← next_of_node hd]
              refine hrest.congr fun q hq => ?_
              show (Function.update h.node a none q).bind LogData.next = _
              rw [hother q hq]
              rfl) hnd' (by
              intro q hq
              show (Function.update h.node a none q).isSome
              rw [hother q hq]
              exact hlive q (List.mem_cons_of_mem _ hq))
          refine ⟨h', ?_, hbrk, fun q => ?_⟩
          · unfold logDataFreeLoop LogHeap.free
            rw [hd]
            exact hloop
          · rw [hnode]
            by_cases hqa : q = a
            · rw [hqa, if_neg hap, if_pos List.mem_cons_self]
              exact Function.update_self _ _ _
            · simp only [List.mem_cons, hqa, false_or]
              rw [Function.update_of_ne hqa]

/-- **`log_data_free`** frees the chunks of the list. -/
theorem ListAt.free (hl : h.ListAt ld ps fields) : ∃ h', logDataFree h (some ld) = some h'
    ∧ h'.brk = h.brk ∧ ∀ q, h'.node q = if q ∈ ps then none else h.node q := by
  obtain ⟨front, last, rfl, hh⟩ := hl.holds
  exact freeLoop_walk _ _ _ _ hh.length_le hh.walk hh.queue.nodup fun q hq => (hh.live q hq).1

end LogHeap

end RedisAgent
