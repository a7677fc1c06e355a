/-
  RedisAgent.Log.Fields — the fields of a log line: `log_data_t` of log.cpp.

  The fields are kept in chunks of 16, linked in both directions; the tail is known to
  the first chunk only.  A pointer is an address, `malloc` hands out ever new ones and
  does not fail, and what is written through a pointer to nothing is `none`.  Of the
  arrays of a chunk the entries below `size` are the list `fields`.  A key, and a text,
  is the `const char *` that was pushed: nothing is copied.

  Main results:
    • `logDataPushes_spec` — after any pushes the chunks hold the fields in their order,
      16 in each but the last.
-/
import RedisAgent.Lib.Links

namespace RedisAgent

/-! ## §1. The code. -/

/-- `log_data_data_t` with its `log_data_type_t`; `δ` is `double`. -/
inductive LogDataValue (δ : Type)
  | str (strval : Nat)
  | int (intval : Int64)
  | uint (uintval : UInt64)
  | double (doubleval : δ)

/-- An entry of `key`, `value` and `type`. -/
structure LogField (δ : Type) where
  key : Nat
  value : LogDataValue δ

/-- `log_data_t` -/
structure LogData (δ : Type) where
  fields : List (LogField δ)
  prev : Option Nat
  next : Option Nat
  tail : Nat

/-- The chunks, and the address `malloc` hands out next. -/
structure LogHeap (δ : Type) where
  node : Nat → Option (LogData δ)
  brk : Nat

/-- `_LOG_DATA_SIZE` -/
def logDataSize : Nat := 16

variable {δ : Type}

/-- A write to fields of the chunk at `p`. -/
def LogHeap.modify (h : LogHeap δ) (p : Nat) (f : LogData δ → LogData δ) : Option (LogHeap δ) :=
  (h.node p).map (fun d => { h with node := Function.update h.node p (some (f d)) })

/-- `log_data_new()` -/
def logDataNew (h : LogHeap δ) : Nat × LogHeap δ :=
  (h.brk, ⟨Function.update h.node h.brk (some ⟨[], none, none, h.brk⟩), h.brk + 1⟩)

/-- `_PUSH(ld, key, value, _field, _type)` -/
def logDataPushField (h : LogHeap δ) (ld : Nat) (field : LogField δ) : Option (LogHeap δ) := do
  let node := (← h.node ld).tail
  let addField := fun (d : LogData δ) => { d with fields := d.fields ++ [field] }
  if logDataSize ≤ (← h.node node).fields.length then
    let (next, h) := logDataNew h
    let h ← h.modify node (fun d => { d with next := some next })
    let h ← h.modify next (fun d => { d with prev := some node })
    let h ← h.modify ld (fun d => { d with tail := next })
    h.modify next addField
  else
    h.modify node addField

/-- `log_data_push_str` -/
def logDataPushStr (h : LogHeap δ) (ld : Nat) (key value : Nat) : Option (LogHeap δ) :=
  logDataPushField h ld ⟨key, .str value⟩

/-- `log_data_push_int` -/
def logDataPushInt (h : LogHeap δ) (ld : Nat) (key : Nat) (value : Int64) : Option (LogHeap δ) :=
  logDataPushField h ld ⟨key, .int value⟩

/-- `log_data_push_uint` -/
def logDataPushUint (h : LogHeap δ) (ld : Nat) (key : Nat) (value : UInt64) : Option (LogHeap δ) :=
  logDataPushField h ld ⟨key, .uint value⟩

/-- `log_data_push_double` -/
def logDataPushDouble (h : LogHeap δ) (ld : Nat) (key : Nat) (value : δ) : Option (LogHeap δ) :=
  logDataPushField h ld ⟨key, .double value⟩

/-- `log_data_push` -/
def logDataPush (h : LogHeap δ) (ld : Nat) (key value : Nat) : Option (LogHeap δ) :=
  logDataPushStr h ld key value

/-- A call of one of the functions `log_data_push_*`. -/
inductive LogPush (δ : Type)
  | push (key value : Nat)
  | str (key value : Nat)
  | int (key : Nat) (value : Int64)
  | uint (key : Nat) (value : UInt64)
  | double (key : Nat) (value : δ)

/-- The call on the list `ld`. -/
def LogPush.run (h : LogHeap δ) (ld : Nat) : LogPush δ → Option (LogHeap δ)
  | .push key value => logDataPush h ld key value
  | .str key value => logDataPushStr h ld key value
  | .int key value => logDataPushInt h ld key value
  | .uint key value => logDataPushUint h ld key value
  | .double key value => logDataPushDouble h ld key value

/-- The calls one after another. -/
def logDataPushes (h : LogHeap δ) (ld : Nat) : List (LogPush δ) → Option (LogHeap δ)
  | [] => some h
  | p :: ps => (p.run h ld).bind (fun h => logDataPushes h ld ps)

/-! ## §2. What the chunks hold. -/

/-- What a call pushes. -/
def LogPush.field : LogPush δ → LogField δ
  | .push key value => ⟨key, .str value⟩
  | .str key value => ⟨key, .str value⟩
  | .int key value => ⟨key, .int value⟩
  | .uint key value => ⟨key, .uint value⟩
  | .double key value => ⟨key, .double value⟩

namespace LogHeap

/-- The pointers between the chunks. -/
def links (h : LogHeap δ) : Links Nat :=
  ⟨fun p => (h.node p).bind LogData.next, fun p => (h.node p).bind LogData.prev⟩

/-- The fields of the chunk at `p`. -/
def fieldsAt (h : LogHeap δ) (p : Nat) : List (LogField δ) := (h.node p).elim [] LogData.fields

theorem fieldsAt_of_node {h : LogHeap δ} {p : Nat} {d : LogData δ} (hd : h.node p = some d) :
    h.fieldsAt p = d.fields := by
  unfold fieldsAt
  rw [hd]
  rfl

theorem next_of_node {h : LogHeap δ} {p : Nat} {d : LogData δ} (hd : h.node p = some d) :
    h.links.next p = d.next := by
  show (h.node p).bind LogData.next = _
  rw [hd]
  rfl

/-- **The list at `ld` holds `fields`**, in the chunks `front` and `last`. -/
structure Holds (h : LogHeap δ) (ld : Nat) (front : List Nat) (last : Nat)
    (fields : List (LogField δ)) : Prop where
  queue : h.links.IsQueue ⟨some ld, some last⟩ (front ++ [last])
  live : ∀ p ∈ front ++ [last], (h.node p).isSome ∧ p < h.brk
  tail : (h.node ld).map LogData.tail = some last
  full : ∀ p ∈ front, (h.fieldsAt p).length = logDataSize
  room : (h.fieldsAt last).length ≤ logDataSize
  spells : fields = (front ++ [last]).flatMap h.fieldsAt

end LogHeap

/-! ## §3. One push. -/

namespace LogHeap

variable {h : LogHeap δ} {ld last : Nat} {front : List Nat} {fields : List (LogField δ)}
  (field : LogField δ)

/-- What a write through a pointer changes. -/
theorem modify_spec {p : Nat} (hp : (h.node p).isSome) (f : LogData δ → LogData δ) :
    ∃ h', h.modify p f = some h' ∧ h'.brk = h.brk
      ∧ ∀ q, h'.node q = if q = p then (h.node q).map f else h.node q := by
  obtain ⟨d, hd⟩ := Option.isSome_iff_exists.1 hp
  refine ⟨{ h with node := Function.update h.node p (some (f d)) }, ?_, rfl, ?_⟩
  · unfold modify
    rw [hd]
    rfl
  · intro q
    by_cases hq : q = p
    · subst hq
      rw [if_pos rfl, hd]
      exact Function.update_self _ _ _
    · rw [if_neg hq]
      exact Function.update_of_ne hq _ _

/-- **A push into a chunk with room.** -/
theorem push_room {dh dl : LogData δ} (hld : h.node ld = some dh) (htail : dh.tail = last)
    (hlast : h.node last = some dl) (hroom : dl.fields.length < logDataSize) :
    ∃ h', logDataPushField h ld field = some h' ∧ h'.brk = h.brk
      ∧ ∀ q, h'.node q = if q = last then (h.node q).map (fun d => { d with fields := d.fields ++ [field] })
        else h.node q := by
  obtain ⟨h', hmod, hbrk, hnode⟩ := h.modify_spec (Option.isSome_iff_exists.2 ⟨dl, hlast⟩)
    (fun d => { d with fields := d.fields ++ [field] })
  refine ⟨h', ?_, hbrk, hnode⟩
  unfold logDataPushField
  simp only [Option.bind_eq_bind, hld, Option.bind_some, htail, hlast]
  rw [if_neg (Nat.not_le.2 hroom)]
  exact hmod

/-- **A push behind a full chunk**: a new chunk, linked behind the last, and the tail of
the first one moved. -/
theorem push_full {dh dl : LogData δ} (hld : h.node ld = some dh) (htail : dh.tail = last)
    (hlast : h.node last = some dl) (hfull : logDataSize ≤ dl.fields.length) (hold : ld < h.brk)
    (hlastOld : last < h.brk) :
    ∃ h', logDataPushField h ld field = some h' ∧ h'.brk = h.brk + 1
      ∧ h'.node h.brk = some ⟨[field], some last, none, h.brk⟩
      ∧ ∀ q < h.brk, h'.node q = (h.node q).map (fun d => { d with
          next := if q = last then some h.brk else d.next
          tail := if q = ld then h.brk else d.tail }) := by
  have hnew : ∀ q, (logDataNew h).2.node q
      = if q = h.brk then some ⟨[], none, none, h.brk⟩ else h.node q := by
    intro q
    by_cases hq : q = h.brk
    · rw [hq, if_pos rfl]
      exact Function.update_self _ _ _
    · rw [if_neg hq]
      exact Function.update_of_ne hq _ _
  have hne : last ≠ h.brk := Nat.ne_of_lt hlastOld
  have hne' : ld ≠ h.brk := Nat.ne_of_lt hold
  obtain ⟨h₁, hmod₁, hbrk₁, hnode₁⟩ := (logDataNew h).2.modify_spec (p := last)
    (by rw [hnew, if_neg hne, hlast]; rfl) (fun d => { d with next := some h.brk })
  obtain ⟨h₂, hmod₂, hbrk₂, hnode₂⟩ := h₁.modify_spec (p := h.brk)
    (by rw [hnode₁, if_neg hne.symm, hnew, if_pos rfl]; rfl) (fun d => { d with prev := some last })
  obtain ⟨h₃, hmod₃, hbrk₃, hnode₃⟩ := h₂.modify_spec (p := ld)
    (by
      rw [hnode₂, if_neg hne', hnode₁, hnew, if_neg hne', hld]
      split <;> rfl) (fun d => { d with tail := h.brk })
  obtain ⟨h₄, hmod₄, hbrk₄, hnode₄⟩ := h₃.modify_spec (p := h.brk)
    (by rw [hnode₃, if_neg hne'.symm, hnode₂, if_pos rfl, hnode₁, if_neg hne.symm, hnew, if_pos rfl]; rfl)
    (fun d => { d with fields := d.fields ++ [field] })
  refine ⟨h₄, ?_, ?_, ?_, ?_⟩
  · unfold logDataPushField
    simp only [Option.bind_eq_bind, hld, Option.bind_some, htail, hlast]
    rw [if_pos hfull]
    simp only [logDataNew] at hmod₁ ⊢
    simp only [hmod₁, hmod₂, hmod₃, hmod₄, Option.bind_some]
  · rw [hbrk₄, hbrk₃, hbrk₂, hbrk₁]
    rfl
  · rw [hnode₄, if_pos rfl, hnode₃, if_neg hne'.symm, hnode₂, if_pos rfl, hnode₁, if_neg hne.symm, hnew,
      if_pos rfl]
    rfl
  · intro q hq
    have hqne : q ≠ h.brk := Nat.ne_of_lt hq
    rw [hnode₄, if_neg hqne, hnode₃, hnode₂, if_neg hqne, hnode₁, hnew, if_neg hqne]
    cases h.node q with
    | none => split <;> split <;> rfl
    | some d =>
        simp only [Option.map_some]
        split <;> split <;> rfl

/-! ## §4. Any pushes. -/

/-- A new list. -/
theorem holds_new (h : LogHeap δ) : (logDataNew h).2.Holds h.brk [] h.brk [] := by
  have hnode : (logDataNew h).2.node h.brk = some ⟨[], none, none, h.brk⟩ :=
    Function.update_self _ _ _
  have hfields : (logDataNew h).2.fieldsAt h.brk = [] := fieldsAt_of_node hnode
  have hbrk : (logDataNew h).2.brk = h.brk + 1 := rfl
  refine ⟨⟨rfl, rfl, List.nodup_singleton _, ?_⟩, ?_, ?_, nofun, ?_, ?_⟩
  · show (logDataNew h).2.links.prev h.brk = none ∧ (logDataNew h).2.links.next h.brk = none ∧ True
    unfold links
    simp only [hnode, Option.bind_some, and_self]
  · intro p hp
    rw [List.mem_singleton.1 hp, hnode, hbrk]
    exact ⟨rfl, Nat.lt_succ_self _⟩
  · rw [hnode]
    rfl
  · rw [hfields]
    exact Nat.zero_le _
  · rw [List.nil_append, List.flatMap_singleton, hfields]

/-- What is linked depends on the pointers only. -/
theorem links_congr {h' : LogHeap δ} (hnext : ∀ q, (h'.node q).bind LogData.next = (h.node q).bind LogData.next)
    (hprev : ∀ q, (h'.node q).bind LogData.prev = (h.node q).bind LogData.prev) : h'.links = h.links := by
  unfold links
  congr 1
  · exact funext hnext
  · exact funext hprev

theorem Holds.push_room (hh : h.Holds ld front last fields) {h' : LogHeap δ} (hbrk : h'.brk = h.brk)
    (hnode : ∀ q, h'.node q = if q = last
      then (h.node q).map (fun d => { d with fields := d.fields ++ [field] }) else h.node q)
    (hroom : (h.fieldsAt last).length < logDataSize) :
    h'.Holds ld front last (fields ++ [field]) := by
  obtain ⟨hqueue, hlive, htail, hfull, -, hspells⟩ := hh
  have hlast : last ∉ front := fun hm =>
    (List.nodup_append.1 hqueue.nodup).2.2 last hm last (List.mem_singleton_self _) rfl
  have hown : h'.fieldsAt last = h.fieldsAt last ++ [field] := by
    obtain ⟨d, hd⟩ := Option.isSome_iff_exists.1 (hlive last (by simp)).1
    unfold fieldsAt
    rw [hnode, if_pos rfl, hd]
    rfl
  have hother : ∀ q, q ≠ last → h'.node q = h.node q := fun q hq => by rw [hnode, if_neg hq]
  have hfields : ∀ q ∈ front, h'.fieldsAt q = h.fieldsAt q := by
    intro q hq
    unfold fieldsAt
    rw [hother q (fun he => hlast (he ▸ hq))]
  -- no pointer was written
  have hmap : ∀ {β : Type} (f : LogData δ → Option β), (∀ d : LogData δ, f { d with fields := d.fields ++ [field] } = f d) →
      ∀ q, (h'.node q).bind f = (h.node q).bind f := by
    intro β f hf q
    rw [hnode]
    split
    · cases h.node q with
      | none => rfl
      | some d => exact hf d
    · rfl
  refine ⟨?_, ?_, ?_, ?_, ?_, ?_⟩
  · rw [links_congr (hmap LogData.next fun _ => rfl) (hmap LogData.prev fun _ => rfl)]
    exact hqueue
  · intro p hp
    obtain ⟨hsome, hlt⟩ := hlive p hp
    rw [hnode, hbrk]
    refine ⟨?_, hlt⟩
    split
    · rw [Option.isSome_map]
      exact hsome
    · exact hsome
  · rw [← htail, Option.map_eq_bind, Option.map_eq_bind]
    exact hmap (some ∘ LogData.tail) (fun _ => rfl) ld
  · intro p hp
    rw [hfields p hp]
    exact hfull p hp
  · rw [hown, List.length_append, List.length_singleton]
    exact hroom
  · rw [hspells, List.flatMap_append, List.flatMap_append, List.flatMap_singleton, List.flatMap_singleton,
      hown, List.append_assoc, List.flatMap_congr hfields]

theorem Holds.push_full (hh : h.Holds ld front last fields) {h' : LogHeap δ} (hbrk : h'.brk = h.brk + 1)
    (hnew : h'.node h.brk = some ⟨[field], some last, none, h.brk⟩)
    (hnode : ∀ q < h.brk, h'.node q = (h.node q).map (fun d => { d with
      next := if q = last then some h.brk else d.next
      tail := if q = ld then h.brk else d.tail }))
    (hfullLast : (h.fieldsAt last).length = logDataSize) :
    h'.Holds ld (front ++ [last]) h.brk (fields ++ [field]) := by
  obtain ⟨hqueue, hlive, htail, hfull, -, hspells⟩ := hh
  have hfresh : h.brk ∉ front ++ [last] := fun hm => Nat.lt_irrefl _ (hlive h.brk hm).2
  have hold : ∀ p ∈ front ++ [last], h'.fieldsAt p = h.fieldsAt p := by
    intro p hp
    unfold fieldsAt
    rw [hnode p (hlive p hp).2]
    cases h.node p <;> rfl
  have hown : h'.fieldsAt h.brk = [field] := fieldsAt_of_node hnew
  have hld : ld ∈ front ++ [last] := List.mem_of_mem_head? hqueue.head.symm
  refine ⟨?_, ?_, ?_, ?_, ?_, ?_⟩
  · -- on the chunks there are, the pointers are those of appending
    obtain ⟨happend, -⟩ := Links.pushBack_spec hqueue hfresh
    have hends : (h.links.pushBack ⟨some ld, some last⟩ h.brk).2 = ⟨some ld, some h.brk⟩ := rfl
    rw [hends] at happend
    refine happend.congr ?_
    intro p hp
    rcases List.mem_append.1 hp with hp | hp
    · have hne : h.brk ≠ p := fun he => hfresh (he ▸ hp)
      obtain ⟨d, hd⟩ := Option.isSome_iff_exists.1 (hlive p hp).1
      unfold Links.pushBack links
      simp only [Links.setPrev_next, Links.setNext_next, Links.clear_next, Links.setPrev_prev,
        Links.setNext_prev, Links.clear_prev, hnode p (hlive p hp).2, hd, Option.map_some,
        Option.bind_some, Option.some.injEq, if_neg hne, @eq_comm Nat p last, and_self]
    · rw [List.mem_singleton.1 hp]
      have hne : last ≠ h.brk := fun he => hfresh (he ▸ by simp)
      unfold Links.pushBack links
      simp only [Links.setPrev_next, Links.setNext_next, Links.clear_next, Links.setPrev_prev,
        hnew, Option.bind_some, Option.some.injEq, if_neg hne, if_true, and_self]
  · intro p hp
    rw [hbrk]
    rcases List.mem_append.1 hp with hp | hp
    · obtain ⟨hsome, hlt⟩ := hlive p hp
      rw [hnode p hlt, Option.isSome_map]
      exact ⟨hsome, Nat.lt_succ_of_lt hlt⟩
    · rw [List.mem_singleton.1 hp, hnew]
      exact ⟨rfl, Nat.lt_succ_self _⟩
  · obtain ⟨hsome, hlt⟩ := hlive ld hld
    obtain ⟨d, hd⟩ := Option.isSome_iff_exists.1 hsome
    rw [hnode ld hlt, hd]
    simp only [Option.map_some, if_true]
  · intro p hp
    rw [hold p hp]
    rcases List.mem_append.1 hp with hp | hp
    · exact hfull p hp
    · rw [List.mem_singleton.1 hp]
      exact hfullLast
  · rw [hown]
    show 1 ≤ 16
    omega
  · have hsplit : (front ++ [last] ++ [h.brk]).flatMap h'.fieldsAt
        = (front ++ [last]).flatMap h'.fieldsAt ++ [field] := by
      rw [List.flatMap_append, List.flatMap_singleton, hown]
    rw [hsplit, hspells, List.flatMap_congr hold]

/-- **One push** adds the field behind the others. -/
theorem Holds.push (hh : h.Holds ld front last fields) : ∃ h', logDataPushField h ld field = some h'
    ∧ ∃ front' last', h'.Holds ld front' last' (fields ++ [field]) := by
  have hld : ld ∈ front ++ [last] := List.mem_of_mem_head? hh.queue.head.symm
  obtain ⟨dh, hdh, htail⟩ := Option.map_eq_some_iff.1 hh.tail
  obtain ⟨hsome, hlt⟩ := hh.live last (by simp)
  obtain ⟨dl, hdl⟩ := Option.isSome_iff_exists.1 hsome
  have hfields : h.fieldsAt last = dl.fields := fieldsAt_of_node hdl
  by_cases hroom : dl.fields.length < logDataSize
  · obtain ⟨h', hpush, hbrk, hnode⟩ := LogHeap.push_room field hdh htail hdl hroom
    exact ⟨h', hpush, front, last, hh.push_room field hbrk hnode (hfields ▸ hroom)⟩
  · have hfull : (h.fieldsAt last).length = logDataSize := by
      have hle := hh.room
      rw [hfields] at hle ⊢
      omega
    obtain ⟨h', hpush, hbrk, hnew, hnode⟩ := LogHeap.push_full field hdh htail hdl (Nat.not_lt.1 hroom)
      (hh.live ld hld).2 hlt
    exact ⟨h', hpush, front ++ [last], h.brk, hh.push_full field hbrk hnew hnode hfull⟩

end LogHeap

theorem LogPush.run_eq (h : LogHeap δ) (ld : Nat) (p : LogPush δ) :
    p.run h ld = logDataPushField h ld p.field := by
  cases p <;> rfl

/-- **Any pushes** leave the fields in the order in which they were pushed. -/
theorem logDataPushes_spec (ps : List (LogPush δ)) : ∀ {h : LogHeap δ} {ld last : Nat} {front : List Nat}
    {fields : List (LogField δ)}, h.Holds ld front last fields →
    ∃ h', logDataPushes h ld ps = some h'
      ∧ ∃ front' last', h'.Holds ld front' last' (fields ++ ps.map LogPush.field) := by
  induction ps with
  | nil =>
      intro h ld last front fields hh
      refine ⟨h, rfl, front, last, ?_⟩
      rw [List.map_nil, List.append_nil]
      exact hh
  | cons p ps ih =>
      intro h ld last front fields hh
      obtain ⟨h₁, hpush, front₁, last₁, hh₁⟩ := hh.push p.field
      obtain ⟨h', hrun, front', last', hh'⟩ := ih hh₁
      refine ⟨h', ?_, front', last', ?_⟩
      · unfold logDataPushes
        rw [p.run_eq, hpush, Option.bind_some]
        exact hrun
      · rw [List.append_assoc] at hh'
        exact hh'

end RedisAgent
