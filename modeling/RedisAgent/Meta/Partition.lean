/-
  RedisAgent.Meta.Partition — the partition strings `Db_Shard_PartitionN`.

  `_meta_load_partition` cuts the string in place: the comma behind a word is
  overwritten with a zero, then the dash within it, and `strchr` goes on in the same
  buffer.  What it has read before it reports an error stays recorded.  `partitions[]`
  is the list of what is written to it in order, so a list of more than
  `PARTITION_MOD_KEY` entries has been written outside of the array.

  The text says what is meant: items between commas, each a group or a range
  (`PartitionItem`).

  Main results:
    • `metaLoadPartition_eq` — cutting in place is cutting at the commas;
    • `partition_round_trip` — what was printed is read back.
-/
import Mathlib.Data.List.Forall2
import RedisAgent.Lib.CText
import RedisAgent.Meta.Db

namespace RedisAgent

/-! ## §1. The code. -/

/-- `(unsigned int)atoi(buf + p)` -/
def groupAt (buf : List UInt8) (p : Nat) : Nat := (atoi (cstrAt buf p)).toUInt32.toNat

/-- The first half of the loop: a zero in place of the comma behind the word, and the
next `pinfo`. -/
def cutWord (lineEnd : Nat) (buf : List UInt8) (pinfo : Nat) : List UInt8 × Nat :=
  match strchr buf pinfo 44 with
  | some p => (buf.set p 0, p + 1)
  | none => (buf, lineEnd)

/-- The second half: the slots of the word at `word_begin`, `none` for
"Service_Partition conf error". -/
def readWord (buf : List UInt8) (wordBegin : Nat) : List UInt8 × Option (List Nat) :=
  match strchr buf wordBegin 45 with
  | none =>
      let group := groupAt buf wordBegin
      (buf, if partitionModKeyNat ≤ group then none else some [group])
  | some p =>
      let buf := buf.set p 0
      let groupBegin := groupAt buf wordBegin
      let groupEnd := groupAt buf (p + 1)
      (buf, if groupEnd < groupBegin ∨ partitionModKeyNat < groupEnd then none
        else some (List.range' groupBegin (groupEnd + 1 - groupBegin)))

theorem strchr_ge {buf : List UInt8} {p q : Nat} {c : UInt8} (h : strchr buf p c = some q) : p ≤ q := by
  unfold strchr at h
  obtain ⟨i, -, hi⟩ := Option.map_eq_some_iff.1 h
  omega

theorem cutWord_gt {lineEnd : Nat} {buf : List UInt8} {pinfo : Nat} (h : pinfo < lineEnd) :
    pinfo < (cutWord lineEnd buf pinfo).2 := by
  unfold cutWord
  split
  · next p hp => exact Nat.lt_succ_of_le (strchr_ge hp)
  · exact h

/-- `while (pinfo < line_end)`; the first component is what the function returns. -/
def metaLoadPartitionLoop (lineEnd : Nat) (buf : List UInt8) (pinfo : Nat)
    (info : MetaPartitionInfo) : Int × MetaPartitionInfo :=
  if _h : pinfo < lineEnd then
    let cut := cutWord lineEnd buf pinfo
    match readWord cut.1 pinfo with
    | (_, none) => (-1, info)
    | (buf, some slots) =>
        metaLoadPartitionLoop lineEnd buf cut.2 { info with partitions := info.partitions ++ slots }
  else (info.partitions.length, info)
  termination_by lineEnd - pinfo
  decreasing_by exact Nat.sub_lt_sub_left _h (cutWord_gt _h)

/-- `_meta_load_partition(id, partition_str, partition_info)` -/
def metaLoadPartition (id : Nat) (partitionStr : CString) : Int × MetaPartitionInfo :=
  metaLoadPartitionLoop (cstrAt partitionStr 0).length partitionStr 0 ⟨id, []⟩

/-! ## §2. The words of a partition string. -/

/-- The words the loop comes to: nothing is read behind a last comma. -/
def partitionWords (text : CString) : List CString :=
  if (text.splitOn 44).getLast? = some [] then (text.splitOn 44).dropLast else text.splitOn 44

/-- What the loop makes of a word. -/
def wordSlots (w : CString) : Option (List Nat) := (readWord w 0).2

/-- What the loop records of some words, and whether it came to their end. -/
def readWords : List CString → Bool × List Nat
  | [] => (true, [])
  | w :: ws =>
      match wordSlots w with
      | none => (false, [])
      | some slots => ((readWords ws).1, slots ++ (readWords ws).2)

theorem partitionWords_nil : partitionWords [] = [] := by
  unfold partitionWords
  rw [List.splitOn_nil]
  rfl

theorem partitionWords_single {w : CString} (hw : 44 ∉ w) (hne : w ≠ []) : partitionWords w = [w] := by
  unfold partitionWords
  rw [splitOn_single hw, if_neg]
  intro h
  exact hne (Option.some_inj.1 h)

theorem partitionWords_cons {w rest : CString} (hw : 44 ∉ w) :
    partitionWords (w ++ 44 :: rest) = w :: partitionWords rest := by
  unfold partitionWords
  rw [splitOn_cons hw]
  obtain ⟨v, vs, hvs⟩ := List.exists_cons_of_ne_nil (List.splitOnP_ne_nil (· == 44) rest)
  have hvs' : rest.splitOn 44 = v :: vs := hvs
  rw [hvs', List.getLast?_cons_cons]
  by_cases hlast : (v :: vs).getLast? = some []
  · rw [if_pos hlast, if_pos hlast, List.dropLast_cons_cons]
  · rw [if_neg hlast, if_neg hlast]

/-! ## §3. Cutting in place. -/

variable (pre : List UInt8) {w tail : List UInt8}

theorem strchr_found {rest : List UInt8} {c : UInt8} (hzero : 0 ∉ w ++ c :: rest) (hw : c ∉ w) :
    strchr (pre ++ (w ++ c :: rest)) pre.length c = some (pre.length + w.length) := by
  unfold strchr
  rw [cstrAt_last pre hzero, findIdx?_word hw]
  rfl

theorem strchr_missed {buf : List UInt8} {c : UInt8} (hat : cstrAt buf pre.length = w) (hw : c ∉ w) :
    strchr buf pre.length c = none := by
  unfold strchr
  rw [hat, findIdx?_none hw]
  rfl

/-- What stands behind a word that was cut off: the zero and the rest, or the end. -/
def Behind (tail rest : List UInt8) : Prop := tail = 0 :: rest ∨ (tail = [] ∧ rest = [])

theorem cstrAt_word {rest : List UInt8} (hw : 0 ∉ w) (htail : Behind tail rest) :
    cstrAt (pre ++ (w ++ tail)) pre.length = w := by
  rcases htail with rfl | ⟨rfl, -⟩
  · exact cstrAt_cut pre hw
  · rw [List.append_nil]
    exact cstrAt_last pre hw

/-- **Cutting off the first word.** -/
theorem cutWord_eq {text : List UInt8} (hne : text ≠ []) (hzero : 0 ∉ text) : ∃ w tail rest,
    partitionWords text = w :: partitionWords rest ∧ Behind tail rest ∧ 0 ∉ w ∧ 0 ∉ rest
      ∧ (w ++ tail).length = text.length ∧ rest.length < text.length
      ∧ cutWord (pre.length + text.length) (pre ++ text) pre.length
        = (pre ++ (w ++ tail), pre.length + text.length - rest.length) := by
  by_cases hcomma : 44 ∈ text
  · obtain ⟨w, rest, rfl, hw⟩ := List.eq_append_cons_of_mem hcomma
    have hzero' := hzero
    rw [List.mem_append, List.mem_cons, not_or, not_or] at hzero'
    refine ⟨w, 0 :: rest, rest, partitionWords_cons hw, Or.inl rfl, hzero'.1, hzero'.2.2, ?_, ?_, ?_⟩
    · rw [List.length_append, List.length_append, List.length_cons, List.length_cons]
    · rw [List.length_append, List.length_cons]
      omega
    · unfold cutWord
      rw [strchr_found pre hzero hw]
      simp only [set_word, List.length_append, List.length_cons]
      congr 1
      omega
  · refine ⟨text, [], [], ?_, Or.inr ⟨rfl, rfl⟩, hzero, List.not_mem_nil, ?_, ?_, ?_⟩
    · rw [partitionWords_single hcomma hne, partitionWords_nil]
    · rw [List.append_nil]
    · exact List.length_pos_iff.2 hne
    · unfold cutWord
      rw [strchr_missed pre (cstrAt_last pre hzero) hcomma]
      simp only [List.append_nil, List.length_nil, Nat.sub_zero]

/-- **Reading a word** gives the same wherever it stands, and leaves what is behind it
alone. -/
theorem readWord_eq {rest : List UInt8} (hw : 0 ∉ w) (htail : Behind tail rest) :
    ∃ w', w'.length = w.length
      ∧ readWord (pre ++ (w ++ tail)) pre.length = (pre ++ (w' ++ tail), wordSlots w) := by
  have hat : cstrAt (pre ++ (w ++ tail)) pre.length = w := cstrAt_word pre hw htail
  have hat0 : cstrAt w 0 = w := cstrAt_last [] hw
  by_cases hdash : 45 ∈ w
  · obtain ⟨a, b, rfl, ha⟩ := List.eq_append_cons_of_mem hdash
    rw [List.mem_append, List.mem_cons, not_or, not_or] at hw
    have hfind : strchr (pre ++ (a ++ 45 :: b ++ tail)) pre.length 45 = some (pre.length + a.length) := by
      unfold strchr
      rw [hat, findIdx?_word ha]
      rfl
    have hfind0 : strchr (a ++ 45 :: b) 0 45 = some a.length := by
      unfold strchr
      rw [hat0, findIdx?_word ha, Option.map_some, Nat.zero_add]
    have hset : (pre ++ (a ++ 45 :: b ++ tail)).set (pre.length + a.length) 0
        = pre ++ (a ++ 0 :: b ++ tail) := by
      rw [List.append_assoc, List.cons_append, set_word, List.append_assoc, List.cons_append]
    have hset0 : (a ++ 45 :: b).set a.length 0 = a ++ 0 :: b := by
      have h := set_word [] a b 45 0
      rw [List.nil_append, List.nil_append, List.length_nil, Nat.zero_add] at h
      exact h
    -- both halves of the range are strings of their own now
    have hbegin : cstrAt (pre ++ (a ++ 0 :: b ++ tail)) pre.length = a := by
      rw [List.append_assoc, List.cons_append]
      exact cstrAt_cut pre hw.1
    have hbegin0 : cstrAt (a ++ 0 :: b) 0 = a := cstrAt_cut [] hw.1
    have hend : cstrAt (pre ++ (a ++ 0 :: b ++ tail)) (pre.length + a.length + 1) = b := by
      have h := cstrAt_word (pre ++ (a ++ [0])) hw.2.2 htail
      rw [List.length_append, List.length_append, List.length_singleton] at h
      rw [show pre ++ (a ++ 0 :: b ++ tail) = pre ++ (a ++ [0]) ++ (b ++ tail) by simp,
        show pre.length + a.length + 1 = pre.length + (a.length + 1) by omega]
      exact h
    have hend0 : cstrAt (a ++ 0 :: b) (a.length + 1) = b := by
      have h := cstrAt_last (a ++ [0]) hw.2.2
      rw [List.length_append, List.length_singleton] at h
      rw [show a ++ 0 :: b = a ++ [0] ++ b by simp]
      exact h
    refine ⟨a ++ 0 :: b, ?_, ?_⟩
    · rw [List.length_append, List.length_append, List.length_cons, List.length_cons]
    · unfold wordSlots readWord groupAt
      simp only [hfind, hfind0, hset, hset0, hbegin, hbegin0, hend, hend0]
  · refine ⟨w, rfl, ?_⟩
    have hmiss0 : strchr w 0 45 = none := strchr_missed [] hat0 hdash
    unfold wordSlots readWord groupAt
    simp only [strchr_missed pre hat hdash, hmiss0, hat, hat0]

/-- **The loop** records what it reads, word by word. -/
theorem metaLoadPartitionLoop_eq (n : Nat) : ∀ (pre text : List UInt8) (info : MetaPartitionInfo),
    text.length = n → 0 ∉ text →
    metaLoadPartitionLoop (pre.length + text.length) (pre ++ text) pre.length info
      = (if (readWords (partitionWords text)).1
          then ((info.partitions ++ (readWords (partitionWords text)).2).length : Int) else -1,
        { info with partitions := info.partitions ++ (readWords (partitionWords text)).2 }) := by
  induction n using Nat.strongRecOn with
  | _ n ih =>
      intro pre text info hlen hzero
      by_cases hne : text = []
      · subst hne
        rw [metaLoadPartitionLoop, dif_neg (by simp), partitionWords_nil]
        simp [readWords]
      · obtain ⟨w, tail, rest, hwords, htail, hw, hrest, hcutlen, hshort, hcut⟩ :=
          cutWord_eq pre hne hzero
        obtain ⟨w', hw', hread⟩ := readWord_eq pre hw htail
        have hpos : 0 < text.length := List.length_pos_iff.2 hne
        rw [metaLoadPartitionLoop, dif_pos (by omega), hcut]
        simp only [hread, hwords, readWords]
        cases hslots : wordSlots w with
        | none => simp
        | some slots =>
            -- the rest of the text stands where the next pass begins
            have hbuf : ∃ pre', pre ++ (w' ++ tail) = pre' ++ rest
                ∧ pre'.length + rest.length = pre.length + text.length := by
              rw [List.length_append] at hcutlen
              rcases htail with rfl | ⟨rfl, rfl⟩
              · refine ⟨pre ++ (w' ++ [0]), by simp, ?_⟩
                rw [List.length_cons] at hcutlen
                rw [List.length_append, List.length_append, List.length_singleton]
                omega
              · refine ⟨pre ++ w', by simp, ?_⟩
                rw [List.length_nil] at hcutlen
                rw [List.length_append, List.length_nil]
                omega
            obtain ⟨pre', hpre, hlen'⟩ := hbuf
            simp only [hpre, ← hlen', Nat.add_sub_cancel]
            rw [ih rest.length (by omega) pre' rest _ rfl hrest]
            simp only [List.append_assoc]

/-- **Cutting in place is cutting at the commas.** -/
theorem metaLoadPartition_eq (id : Nat) {partitionStr : CString} (hzero : 0 ∉ partitionStr) :
    metaLoadPartition id partitionStr
      = (if (readWords (partitionWords partitionStr)).1
          then ((readWords (partitionWords partitionStr)).2.length : Int) else -1,
        ⟨id, (readWords (partitionWords partitionStr)).2⟩) := by
  have h := metaLoadPartitionLoop_eq _ [] partitionStr ⟨id, []⟩ rfl hzero
  unfold metaLoadPartition
  rw [show cstrAt partitionStr 0 = partitionStr from cstrAt_last [] hzero]
  simpa using h

/-! ## §4. Items. -/

/-- What a word may say: a group, or a range of groups. -/
inductive PartitionItem
  | group (g : Nat)
  | range (a b : Nat)
  deriving Repr, DecidableEq

namespace PartitionItem

/-- The slots of an item, in order. -/
def slots : PartitionItem → List Nat
  | group g => [g]
  | range a b => List.range' a (b + 1 - a)

/-- Within the slots there are. -/
def Valid : PartitionItem → Prop
  | group g => g < partitionModKeyNat
  | range a b => a ≤ b ∧ b < partitionModKeyNat

/-- A word in digits that says so. -/
def SpelledBy (w : CString) : PartitionItem → Prop
  | group g => w ≠ [] ∧ (∀ c ∈ w, isDigit c = true) ∧ decimal w = g
  | range a b => ∃ u v, w = u ++ 45 :: v ∧ u ≠ [] ∧ v ≠ [] ∧ (∀ c ∈ u, isDigit c = true)
      ∧ (∀ c ∈ v, isDigit c = true) ∧ decimal u = a ∧ decimal v = b

/-- An item in print. -/
def text : PartitionItem → CString
  | group g => decimals g
  | range a b => decimals a ++ 45 :: decimals b

theorem text_spelled (item : PartitionItem) : item.SpelledBy item.text := by
  cases item with
  | group g => exact ⟨decimals_ne_nil g, decimals_digits g, decimal_decimals g⟩
  | range a b =>
      exact ⟨decimals a, decimals b, rfl, decimals_ne_nil a, decimals_ne_nil b, decimals_digits a,
        decimals_digits b, decimal_decimals a, decimal_decimals b⟩

theorem mem_slots {item : PartitionItem} (h : item.Valid) {p : Nat} (hp : p ∈ item.slots) :
    p < partitionModKeyNat := by
  cases item with
  | group g =>
      rw [List.mem_singleton.1 hp]
      exact h
  | range a b =>
      have hp' := List.mem_range'_1.1 hp
      have hb := h.2
      omega

/-- Digits and a dash: no comma, no zero. -/
theorem chars_of_spelled {w : CString} {item : PartitionItem} (h : item.SpelledBy w) :
    w ≠ [] ∧ 44 ∉ w ∧ 0 ∉ w := by
  have hno : ∀ {u : CString} {c : UInt8}, (∀ x ∈ u, isDigit x = true) → isDigit c = false → c ∉ u := by
    intro u c hu hc hm
    rw [hu c hm] at hc
    cases hc
  cases item with
  | group g => exact ⟨h.1, hno h.2.1 (by decide), hno h.2.1 (by decide)⟩
  | range a b =>
      obtain ⟨u, v, rfl, hu, -, hud, hvd, -, -⟩ := h
      refine ⟨by simp, ?_, ?_⟩ <;> rw [List.mem_append, List.mem_cons, not_or, not_or]
      · exact ⟨hno hud (by decide), by decide, hno hvd (by decide)⟩
      · exact ⟨hno hud (by decide), by decide, hno hvd (by decide)⟩

end PartitionItem

theorem groupAt_digits {buf : List UInt8} {p : Nat} {w : CString} (hat : cstrAt buf p = w)
    (hw : ∀ c ∈ w, isDigit c = true) (hsmall : decimal w < partitionModKeyNat) :
    groupAt buf p = decimal w := by
  unfold partitionModKeyNat at hsmall
  unfold groupAt
  rw [hat, atoi_digits hw (by omega)]

/-- **A word that spells an item** gives the slots of the item. -/
theorem wordSlots_spelled {w : CString} {item : PartitionItem} (h : item.SpelledBy w) (hv : item.Valid) :
    wordSlots w = some item.slots := by
  have hat : cstrAt w 0 = w := cstrAt_last [] (PartitionItem.chars_of_spelled h).2.2
  have hdigit : ∀ {u : CString}, (∀ x ∈ u, isDigit x = true) → 45 ∉ u ∧ 0 ∉ u := by
    intro u hu
    exact ⟨fun hm => (not_sign_of_digit (hu 45 hm)).2.1 rfl,
      fun hm => (not_sign_of_digit (hu 0 hm)).2.2.2.2 rfl⟩
  cases item with
  | group g =>
      obtain ⟨-, hd, rfl⟩ := h
      have hlt : decimal w < partitionModKeyNat := hv
      have hmiss : strchr w 0 45 = none := strchr_missed [] hat (hdigit hd).1
      unfold wordSlots readWord
      simp only [hmiss, groupAt_digits hat hd hlt]
      rw [if_neg (Nat.not_le.2 hlt)]
      rfl
  | range a b =>
      obtain ⟨u, v, rfl, -, -, hud, hvd, rfl, rfl⟩ := h
      obtain ⟨hle, hlt⟩ : decimal u ≤ decimal v ∧ decimal v < partitionModKeyNat := hv
      have hfind : strchr (u ++ 45 :: v) 0 45 = some u.length := by
        unfold strchr
        rw [hat, findIdx?_word (hdigit hud).1, Option.map_some, Nat.zero_add]
      have hset : (u ++ 45 :: v).set u.length 0 = u ++ 0 :: v := by
        have hs := set_word [] u v 45 0
        rw [List.nil_append, List.nil_append, List.length_nil, Nat.zero_add] at hs
        exact hs
      have hbegin : cstrAt (u ++ 0 :: v) 0 = u := cstrAt_cut [] (hdigit hud).2
      have hend : cstrAt (u ++ 0 :: v) (u.length + 1) = v := by
        have hl := cstrAt_last (u ++ [0]) (hdigit hvd).2
        rw [List.length_append, List.length_singleton] at hl
        rw [show u ++ 0 :: v = u ++ [0] ++ v by simp]
        exact hl
      unfold wordSlots readWord
      simp only [hfind, hset, groupAt_digits hbegin hud (by omega), groupAt_digits hend hvd hlt]
      rw [if_neg (by omega)]
      rfl

/-- Words that spell items, one by one. -/
theorem readWords_spelled {items : List PartitionItem} {ws : List CString}
    (h : List.Forall₂ (fun w (item : PartitionItem) => item.SpelledBy w ∧ item.Valid) ws items) :
    readWords ws = (true, items.flatMap PartitionItem.slots) := by
  induction h with
  | nil => rfl
  | cons hitem _ ih =>
      unfold readWords
      simp only [wordSlots_spelled hitem.1 hitem.2, ih, List.flatMap_cons]

/-- The items of a string, all that commas separate. -/
def itemWords (text : CString) : List CString := if text = [] then [] else text.splitOn 44

/-- If every item is one, the loop comes to all of them. -/
theorem partitionWords_spelled {text : CString} {items : List PartitionItem}
    (h : List.Forall₂ (fun w (item : PartitionItem) => item.SpelledBy w ∧ item.Valid) (itemWords text) items) :
    partitionWords text = itemWords text := by
  by_cases hne : text = []
  · subst hne
    exact partitionWords_nil
  · unfold itemWords at h ⊢
    rw [if_neg hne] at h ⊢
    unfold partitionWords
    rw [if_neg]
    intro hlast
    obtain ⟨item, hitem⟩ : ∃ item : PartitionItem, item.SpelledBy [] := by
      have hall : ∀ w ∈ text.splitOn 44, ∃ item : PartitionItem, item.SpelledBy w := by
        generalize text.splitOn 44 = ws at h
        induction h with
        | nil => exact nofun
        | cons hitem _ ih =>
            intro w hw
            rcases List.mem_cons.1 hw with rfl | hw
            · exact ⟨_, hitem.1⟩
            · exact ih w hw
      exact hall [] (List.mem_of_getLast? hlast)
    exact (PartitionItem.chars_of_spelled hitem).1 rfl

/-! ## §5. The round trip. -/

/-- Items joined by commas. -/
def partitionText (items : List PartitionItem) : CString := [44].intercalate (items.map PartitionItem.text)

/-- The words of a printed list of items are the printed items. -/
theorem partitionWords_text {items : List PartitionItem} (hne : items ≠ []) :
    partitionWords (partitionText items) = items.map PartitionItem.text := by
  have hcomma : ∀ w ∈ items.map PartitionItem.text, 44 ∉ w := by
    intro w hw
    obtain ⟨item, -, rfl⟩ := List.mem_map.1 hw
    exact (PartitionItem.chars_of_spelled item.text_spelled).2.1
  have hsplit : (partitionText items).splitOn 44 = items.map PartitionItem.text :=
    List.splitOn_intercalate 44 hcomma (fun he => hne (List.map_eq_nil_iff.1 he))
  unfold partitionWords
  rw [hsplit, if_neg]
  intro hlast
  obtain ⟨item, -, hitem⟩ := List.mem_map.1 (List.mem_of_getLast? hlast)
  exact (PartitionItem.chars_of_spelled item.text_spelled).1 hitem

theorem partitionText_zero_free (items : List PartitionItem) : 0 ∉ partitionText items := by
  refine not_mem_intercalate (by decide) ?_
  intro w hw
  obtain ⟨item, -, rfl⟩ := List.mem_map.1 hw
  exact (PartitionItem.chars_of_spelled item.text_spelled).2.2

/-- **Printed and read back.**  `_meta_load_partition` of a printed list of groups and
ranges, with no more slots than `partitions[]` has room for, returns their number and
records these, in order. -/
theorem partition_round_trip (id : Nat) (items : List PartitionItem) (hne : items ≠ [])
    (hvalid : ∀ item ∈ items, item.Valid)
    (htotal : (items.flatMap PartitionItem.slots).length ≤ partitionModKeyNat) :
    metaLoadPartition id (partitionText items)
        = (((items.flatMap PartitionItem.slots).length : Int), ⟨id, items.flatMap PartitionItem.slots⟩)
      ∧ (metaLoadPartition id (partitionText items)).2.partitions.length ≤ partitionModKeyNat := by
  have hspelled : List.Forall₂ (fun w (item : PartitionItem) => item.SpelledBy w ∧ item.Valid)
      (items.map PartitionItem.text) items := by
    rw [List.forall₂_map_left_iff, List.forall₂_same]
    exact fun item hitem => ⟨item.text_spelled, hvalid item hitem⟩
  have heq : metaLoadPartition id (partitionText items)
      = (((items.flatMap PartitionItem.slots).length : Int), ⟨id, items.flatMap PartitionItem.slots⟩) := by
    rw [metaLoadPartition_eq id (partitionText_zero_free items), partitionWords_text hne,
      readWords_spelled hspelled]
    rfl
  refine ⟨heq, ?_⟩
  rw [heq]
  exact htotal

theorem partition_round_trip_witness :
    metaLoadPartition 3 (partitionText [.group 7, .range 9 11]) = (4, ⟨3, [7, 9, 10, 11]⟩) :=
  (partition_round_trip 3 [.group 7, .range 9 11] (by decide)
    (by
      intro item hitem
      rcases List.mem_cons.1 hitem with rfl | hitem
      · show 7 < 65536
        decide
      · rw [List.mem_singleton.1 hitem]
        show 9 ≤ 11 ∧ 11 < 65536
        decide)
    (by show 4 ≤ 65536; decide)).1

end RedisAgent
