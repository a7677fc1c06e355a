/-
  RedisAgent.Router.Strings — from the partition strings to the map, soundly or not.

  `_meta_load_conf` drops what `_meta_load_partition` returns, so the slots read before
  an error count as if they were all; `atoi` makes a number of everything; and a range
  may end at `PARTITION_MOD_KEY` itself, which is no slot.  What `_shard_init_part`
  then sees are the slots of all strings one after another.

  The strings are C strings: `timesNamed` counts how often their words name a slot, with
  the numbers `atoi` makes of them.

  Main results:
    • `walkSlots_none_iff` — when `_shard_init_part` leaves its arrays;
    • `count_readWords` — a slot is read as often as it is named;
    • `partition_strings_sound_iff` — the strings for which acceptance means what it
      should.
-/
import Mathlib.Data.List.Perm.Subperm
import RedisAgent.Meta.Load
import RedisAgent.Router.Parts

namespace RedisAgent

variable {σ : Type*}

/-! ## §1. `_shard_init_part` as a walk over the slots. -/

/-- The slots one after another: is one seen twice (`false`), or outside of the arrays
(`none`)? -/
def walkSlots : List Nat → (Nat → Bool) → Option Bool
  | [], _ => some true
  | p :: ps, seen =>
      if p < partitionModKeyNat then
        if seen p then some false else walkSlots ps (Function.update seen p true)
      else none

/-- A first part that is walked without a repetition does not matter for the rest,
but for what was seen. -/
theorem walkSlots_append (ps qs : List Nat) : ∀ seen : Nat → Bool, walkSlots (ps ++ qs) seen
    = if walkSlots ps seen = some true then walkSlots qs (fun p => seen p || decide (p ∈ ps))
      else walkSlots ps seen := by
  induction ps with
  | nil =>
      intro seen
      simp [walkSlots]
  | cons p ps ih =>
      intro seen
      rw [List.cons_append, walkSlots, walkSlots]
      by_cases hp : p < partitionModKeyNat
      · rw [if_pos hp, if_pos hp]
        cases hseen : seen p with
        | true => simp
        | false =>
            simp only [Bool.false_eq_true, if_false, ih]
            have hsame : (fun q => Function.update seen p true q || decide (q ∈ ps))
                = fun q => seen q || decide (q ∈ p :: ps) := by
              funext q
              by_cases hq : q = p
              · subst hq
                simp
              · simp [hq]
            rw [hsame]
      · rw [if_neg hp, if_neg hp]
        simp

/-- **When the walk leaves the arrays**: at a slot that does not exist, before any slot
comes twice. -/
theorem walkSlots_none_iff (ps : List Nat) : ∀ seen : Nat → Bool, walkSlots ps seen = none
    ↔ ∃ pre p post, ps = pre ++ p :: post ∧ partitionModKeyNat ≤ p ∧ pre.Nodup
      ∧ ∀ q ∈ pre, q < partitionModKeyNat ∧ seen q = false := by
  induction ps with
  | nil =>
      intro seen
      refine iff_of_false (by simp [walkSlots]) ?_
      rintro ⟨pre, p, post, h, -⟩
      exact List.append_ne_nil_of_right_ne_nil _ (List.cons_ne_nil _ _) h.symm
  | cons p ps ih =>
      intro seen
      rw [walkSlots]
      by_cases hp : p < partitionModKeyNat
      · rw [if_pos hp]
        -- `p` is then the first of the slots before
        have hfirst : ∀ {pre q post}, p :: ps = pre ++ q :: post → partitionModKeyNat ≤ q →
            ∃ pre', pre = p :: pre' ∧ ps = pre' ++ q :: post := by
          intro pre q post he hq
          cases pre with
          | nil =>
              cases he
              omega
          | cons x pre =>
              cases he
              exact ⟨pre, rfl, rfl⟩
        cases hseen : seen p with
        | true =>
            refine iff_of_false (by simp) ?_
            rintro ⟨pre, q, post, he, hq, -, hall⟩
            obtain ⟨pre', rfl, -⟩ := hfirst he hq
            rw [(hall p List.mem_cons_self).2] at hseen
            cases hseen
        | false =>
            simp only [Bool.false_eq_true, if_false]
            rw [ih]
            constructor
            · rintro ⟨pre, q, post, rfl, hq, hnd, hall⟩
              have hne : ∀ x ∈ pre, x ≠ p := by
                rintro x hx rfl
                have htrue := (hall x hx).2
                rw [Function.update_self] at htrue
                cases htrue
              refine ⟨p :: pre, q, post, rfl, hq, List.nodup_cons.2 ⟨fun hm => hne p hm rfl, hnd⟩, ?_⟩
              intro x hx
              rcases List.mem_cons.1 hx with rfl | hx
              · exact ⟨hp, hseen⟩
              · have hx' := hall x hx
                rw [Function.update_of_ne (hne x hx)] at hx'
                exact hx'
            · rintro ⟨pre, q, post, he, hq, hnd, hall⟩
              obtain ⟨pre', rfl, hps⟩ := hfirst he hq
              rw [List.nodup_cons] at hnd
              refine ⟨pre', q, post, hps, hq, hnd.2, ?_⟩
              intro x hx
              have hne : x ≠ p := fun hxp => hnd.1 (hxp ▸ hx)
              rw [Function.update_of_ne hne]
              exact hall x (List.mem_cons_of_mem _ hx)
      · rw [if_neg hp]
        exact iff_of_true rfl ⟨[], p, ps, rfl, Nat.not_lt.1 hp, List.nodup_nil, nofun⟩

/-- The first slot that does not exist is `PARTITION_MOD_KEY` if no slot is larger. -/
theorem walkSlots_outside_iff {ps : List Nat} (hle : ∀ p ∈ ps, p ≤ partitionModKeyNat) :
    walkSlots ps (fun _ => false) = none
      ↔ ∃ pre post, ps = pre ++ partitionModKeyNat :: post ∧ pre.Nodup := by
  rw [walkSlots_none_iff]
  constructor
  · rintro ⟨pre, p, post, hps, hp, hnd, -⟩
    have hmem : p ∈ ps := hps ▸ List.mem_append_right _ List.mem_cons_self
    have he : p = partitionModKeyNat := Nat.le_antisymm (hle p hmem) hp
    exact ⟨pre, post, he ▸ hps, hnd⟩
  · rintro ⟨pre, post, hps, hnd⟩
    -- up to its first occurrence
    have hmem : partitionModKeyNat ∈ ps := hps ▸ List.mem_append_right _ List.mem_cons_self
    obtain ⟨pre', post', hps', hfirst⟩ := List.eq_append_cons_of_mem hmem
    have hprefix : pre' <+: pre := by
      have hp : pre' <+: ps := ⟨_, hps'.symm⟩
      have hq : pre <+: ps := ⟨_, hps.symm⟩
      rcases Nat.le_total pre'.length pre.length with hl | hl
      · exact List.prefix_of_prefix_length_le hp hq hl
      · obtain ⟨t, ht⟩ := List.prefix_of_prefix_length_le hq hp hl
        cases t with
        | nil =>
            rw [List.append_nil] at ht
            exact ⟨[], by rw [List.append_nil, ht]⟩
        | cons x t =>
            -- then the occurrence behind `pre` would lie within `pre'`
            rw [hps, ← ht, List.append_assoc] at hps'
            have hx := List.append_cancel_left hps'
            rw [List.cons_append] at hx
            injection hx with hx _
            exact absurd (ht ▸ List.mem_append_right _ (hx ▸ List.mem_cons_self)) hfirst
    refine ⟨pre', partitionModKeyNat, post', hps', Nat.le_refl _, hnd.sublist hprefix.sublist, ?_⟩
    intro q hq
    have hqle : q ≤ partitionModKeyNat := hle q (hps' ▸ List.mem_append_left _ hq)
    exact ⟨Nat.lt_of_le_of_ne hqle (fun he => hfirst (he ▸ hq)), rfl⟩

theorem shardInitSlots_walk (i : Nat) (ps : List Nat) : ∀ m : ShardParts,
    (shardInitSlots i ps m).map Prod.fst = walkSlots ps m.partitionCheck := by
  induction ps with
  | nil => exact fun _ => rfl
  | cons p ps ih =>
      intro m
      rw [shardInitSlots, walkSlots]
      by_cases hp : p < partitionModKeyNat
      · rw [if_pos hp, if_pos hp]
        cases m.partitionCheck p with
        | true => rfl
        | false =>
            simp only [Bool.false_eq_true, if_false]
            exact ih _
      · rw [if_neg hp, if_neg hp]
        rfl

/-- **`_shard_init_part` walks over the slots** of all partitions, in their order. -/
theorem shardInitParts_walk (db : MetaDbInfo) (is : List Nat) : ∀ m : ShardParts,
    (shardInitParts db is m).map Prod.fst = walkSlots (is.flatMap db.slots) m.partitionCheck := by
  induction is with
  | nil => exact fun _ => rfl
  | cons i is ih =>
      intro m
      rw [List.flatMap_cons, walkSlots_append, ← shardInitSlots_walk i]
      rcases hres : shardInitSlots i (db.slots i) m with _ | ⟨_ | _, m₁⟩
      · rw [shardInitParts_none hres]
        rfl
      · rw [shardInitParts_stop hres]
        rfl
      · rw [shardInitParts_next hres]
        obtain ⟨-, -, rfl⟩ := (shardInitSlots_iff i _ m m₁).1 hres
        simp only [Option.map_some, if_true]
        exact ih _

theorem RouterState.shardInitPart_none_iff (r : RouterState σ) (db : MetaDbInfo) :
    r.shardInitPart db = none
      ↔ walkSlots ((List.range db.passes).flatMap db.slots) (fun _ => false) = none := by
  rw [← shardInitParts_walk db (List.range db.passes) ⟨fun _ => 0, fun _ => false⟩]
  unfold RouterState.shardInitPart
  rw [Option.map_eq_none_iff, Option.map_eq_none_iff]

/-! ## §2. The strings of a configuration. -/

/-- The string of partition `j`. -/
def Configure.partitionStr (conf : Configure) (j : Nat) : CString :=
  (conf.dbShardPartition (partitionKey j)).getD []

/-- The slots that are read of a string, up to its first error. -/
def slotsRead (partitionStr : CString) : List Nat := (readWords (partitionWords partitionStr)).2

/-- The slots read of `n` strings, one after another. -/
def Configure.slotsRead (conf : Configure) (n : Nat) : List Nat :=
  (List.range n).flatMap (fun j => RedisAgent.slotsRead (conf.partitionStr j))

/-- Every item of the string is a group or a range of slots. -/
def ItemsOf (partitionStr : CString) (items : List PartitionItem) : Prop :=
  List.Forall₂ (fun w (item : PartitionItem) => item.SpelledBy w ∧ item.Valid) (itemWords partitionStr) items

/-- No slot comes twice, and none is missing: what `_shard_init_part` asks of the
slots. -/
def MetaDbInfo.PassesTests (db : MetaDbInfo) : Prop :=
  ((List.range db.passes).flatMap db.slots).Nodup
    ∧ ∀ p < partitionModKeyNat, p ∈ (List.range db.passes).flatMap db.slots

/-- `_shard_init_part` returns 0, or leaves its arrays for a slot that its tests do not
stop it at: what is behind `partition_check` is 0, say. -/
def RouterState.MayAccept (r : RouterState σ) (db : MetaDbInfo) : Prop :=
  (∃ r', r.shardInitPart db = some (0, r')) ∨ r.shardInitPart db = none ∧ db.PassesTests

/-- **Acceptance means what it should**: of a map that `_shard_init_part` accepts nothing
was written or looked up outside of an array, every item of every string is sound, no
string was reported, and each partition has the slots its string denotes. -/
structure PartitionsSound (r : RouterState σ) (conf : Configure) (db : MetaDbInfo) : Prop where
  written : r.MayAccept db →
    ∀ j < db.partitionNum.toNat, (db.partition j).partitions.length ≤ partitionModKeyNat
  indexed : r.MayAccept db → r.shardInitPart db ≠ none
  items : r.MayAccept db → ∀ j < db.partitionNum.toNat,
    ∃ items, ItemsOf (conf.partitionStr j) items ∧ (metaLoadPartition j (conf.partitionStr j)).1 ≠ -1
      ∧ (db.partition j).partitions = items.flatMap PartitionItem.slots

/-- The number `atoi` makes of a text, as an `unsigned int`. -/
def groupOf (text : CString) : Nat := (atoi text).toUInt32.toNat

/-- The ends of the range a word stands for: the numbers in front of its first dash and
behind it, and for a word without a dash its number twice. -/
def wordEnds (w : CString) : Nat × Nat :=
  if 45 ∈ w then (groupOf (w.takeWhile (· != 45)), groupOf (w.dropWhile (· != 45)).tail)
  else (groupOf w, groupOf w)

/-- "Service_Partition conf error" -/
def WordReported (w : CString) : Prop :=
  (wordEnds w).2 < (wordEnds w).1
    ∨ partitionModKeyNat ≤ (wordEnds w).2 ∧ ¬ (45 ∈ w ∧ (wordEnds w).2 = partitionModKeyNat)

instance (w : CString) : Decidable (WordReported w) := inferInstanceAs (Decidable (_ ∨ _))

/-- The words of a string in front of the first that is reported. -/
def wordsTaken (partitionStr : CString) : List CString :=
  (partitionWords partitionStr).takeWhile (fun w => decide (¬ WordReported w))

/-- How many words of the first `n` strings have `p` between their ends. -/
def Configure.timesNamed (conf : Configure) (n p : Nat) : Nat :=
  ((List.range n).flatMap (fun j => wordsTaken (conf.partitionStr j))).countP
    (fun w => decide ((wordEnds w).1 ≤ p ∧ p ≤ (wordEnds w).2))

/-- **The strings that are handled soundly.**  Every item of every string is a group or a
range of slots in digits; or else the words, up to the first reported one of each string,
do not name each slot once, or name `PARTITION_MOD_KEY` twice. -/
def StringsFit (conf : Configure) (partitionNum : UInt32) : Prop :=
  (∀ j < partitionNum.toNat, ∃ items, ItemsOf (conf.partitionStr j) items)
    ∨ (∃ p < partitionModKeyNat, conf.timesNamed partitionNum.toInt32.toInt.toNat p ≠ 1)
    ∨ 1 < conf.timesNamed partitionNum.toInt32.toInt.toNat partitionModKeyNat

/-- No word gives a slot beyond `PARTITION_MOD_KEY`. -/
theorem slotsRead_le (partitionStr : CString) : ∀ p ∈ slotsRead partitionStr, p ≤ partitionModKeyNat := by
  unfold slotsRead
  induction partitionWords partitionStr with
  | nil => exact nofun
  | cons w ws ih =>
      intro p hp
      unfold readWords at hp
      cases hslots : wordSlots w with
      | none =>
          rw [hslots] at hp
          exact absurd hp List.not_mem_nil
      | some slots =>
          rw [hslots] at hp
          rcases List.mem_append.1 hp with hp | hp
          · unfold wordSlots readWord at hslots
            split at hslots
            · simp only at hslots
              split at hslots
              · cases hslots
              · next hlt =>
                cases hslots
                rw [List.mem_singleton.1 hp]
                omega
            · simp only at hslots
              split at hslots
              · cases hslots
              · next hlt =>
                cases hslots
                rw [List.mem_range'_1] at hp
                omega
          · exact ih p hp

theorem Configure.slotsRead_le (conf : Configure) (n : Nat) : ∀ p ∈ conf.slotsRead n, p ≤ partitionModKeyNat := by
  intro p hp
  obtain ⟨j, -, hp⟩ := List.mem_flatMap.1 hp
  exact RedisAgent.slotsRead_le _ p hp

theorem getCstr_short {n : Nat} {s : CString} (hzero : 0 ∉ s) (hlen : s.length ≤ n - 1) : getCstr n s = s := by
  unfold getCstr
  rw [List.takeWhile_eq_self_iff.2, List.take_of_length_le hlen]
  intro c hc
  exact bne_iff_ne.2 (fun he => hzero (he ▸ hc))

variable {conf : Configure} {db : MetaDbInfo}

/-- The strings are C strings that fit into the buffer. -/
def Configure.ShortStrings (conf : Configure) : Prop :=
  ∀ j, 0 ∉ conf.partitionStr j ∧ (conf.partitionStr j).length ≤ 5119

theorem Loaded.partition_eq (h : Loaded conf db) (hstrs : conf.ShortStrings) {j : Nat}
    (hj : j < db.partitionNum.toNat) : db.partition j = (metaLoadPartition j (conf.partitionStr j)).2 := by
  obtain ⟨str, hstr, hpart⟩ := h.partition j hj
  have he : conf.partitionStr j = str := by
    unfold Configure.partitionStr
    rw [hstr]
    rfl
  obtain ⟨hzero, hlen⟩ := hstrs j
  rw [hpart, he, getCstr_short (he ▸ hzero) (by rw [← he]; exact hlen)]

/-- **What is recorded** is what was read. -/
theorem Loaded.slots_eq (h : Loaded conf db) (hstrs : conf.ShortStrings) {j : Nat}
    (hj : j < db.partitionNum.toNat) : db.slots j = slotsRead (conf.partitionStr j) := by
  unfold MetaDbInfo.slots
  rw [h.partition_eq hstrs hj, metaLoadPartition_eq j (hstrs j).1]
  rfl

theorem MetaDbInfo.passes_le (db : MetaDbInfo) : db.passes ≤ db.partitionNum.toNat := by
  by_cases hsmall : db.partitionNum.toNat < 2 ^ 31
  · rw [MetaDbInfo.passes_of_small hsmall]
  · rw [MetaDbInfo.passes_of_big hsmall]
    exact Nat.zero_le _

theorem Loaded.allSlots_eq (h : Loaded conf db) (hstrs : conf.ShortStrings) :
    (List.range db.passes).flatMap db.slots = conf.slotsRead db.passes := by
  unfold Configure.slotsRead
  refine List.flatMap_congr ?_
  intro j hj
  exact h.slots_eq hstrs (Nat.lt_of_lt_of_le (List.mem_range.1 hj) db.passes_le)

/-- One partition, in whose string every slot is read once. -/
theorem Loaded.covers_single (h : Loaded conf db) (hstrs : conf.ShortStrings)
    (hnum : db.partitionNum = 1)
    (hslots : RedisAgent.slotsRead (conf.partitionStr 0) = List.range partitionModKeyNat) :
    db.Covers := by
  have hpasses : db.passes = 1 := by
    unfold MetaDbInfo.passes
    rw [hnum]
    rfl
  have hall : (List.range db.passes).flatMap db.slots = List.range partitionModKeyNat := by
    rw [h.allSlots_eq hstrs, hpasses]
    unfold Configure.slotsRead
    rw [List.range_one, List.flatMap_singleton]
    exact hslots
  exact ⟨by rw [hall]; exact List.nodup_range, fun p => by rw [hall]; exact List.mem_range⟩

/-! ### The slots and the ends of the words. -/

/-- A word, as the loop takes it and as it is written. -/
theorem wordSlots_eq {w : CString} (hw : 0 ∉ w) : wordSlots w
    = if WordReported w then none
      else some (List.range' (wordEnds w).1 ((wordEnds w).2 + 1 - (wordEnds w).1)) := by
  have hat : cstrAt w 0 = w := cstrAt_last [] hw
  unfold WordReported wordEnds
  by_cases hdash : 45 ∈ w
  · obtain ⟨a, b, rfl, ha⟩ := List.eq_append_cons_of_mem hdash
    rw [List.mem_append, List.mem_cons, not_or, not_or] at hw
    have hfind : strchr (a ++ 45 :: b) 0 45 = some a.length := by
      unfold strchr
      rw [hat, findIdx?_word ha, Option.map_some, Nat.zero_add]
    have hset : (a ++ 45 :: b).set a.length 0 = a ++ 0 :: b := by
      have h := set_word [] a b 45 0
      rw [List.nil_append, List.nil_append, List.length_nil, Nat.zero_add] at h
      exact h
    have hbegin : cstrAt (a ++ 0 :: b) 0 = a := cstrAt_cut [] hw.1
    have hend : cstrAt (a ++ 0 :: b) (a.length + 1) = b := by
      have h := cstrAt_last (a ++ [0]) hw.2.2
      rw [List.length_append, List.length_singleton] at h
      rw [show a ++ 0 :: b = a ++ [0] ++ b by simp]
      exact h
    have hall : ∀ c ∈ a, (c != 45) = true := fun c hc => bne_iff_ne.2 (fun he => ha (he ▸ hc))
    have htake : (a ++ 45 :: b).takeWhile (· != 45) = a := by
      rw [List.takeWhile_append_of_pos hall]
      simp
    have hdrop : ((a ++ 45 :: b).dropWhile (· != 45)).tail = b := by
      rw [List.dropWhile_append_of_pos hall]
      simp
    unfold wordSlots readWord
    simp only [hfind, hset, if_pos hdash, htake, hdrop, groupAt, hbegin, hend, ← groupOf.eq_1]
    have hsame : (groupOf b < groupOf a ∨ partitionModKeyNat < groupOf b)
        ↔ (groupOf b < groupOf a ∨ partitionModKeyNat ≤ groupOf b
          ∧ ¬ (45 ∈ a ++ 45 :: b ∧ groupOf b = partitionModKeyNat)) := by
      refine or_congr_right ?_
      rw [and_iff_right hdash]
      omega
    exact if_congr hsame rfl rfl
  · have hmiss : strchr w 0 45 = none := strchr_missed [] hat hdash
    unfold wordSlots readWord
    simp only [hmiss, if_neg hdash, groupAt, hat, ← groupOf.eq_1]
    have hsame : (partitionModKeyNat ≤ groupOf w) ↔ (groupOf w < groupOf w
        ∨ partitionModKeyNat ≤ groupOf w ∧ ¬ (45 ∈ w ∧ groupOf w = partitionModKeyNat)) := by
      have hno : ¬ (45 ∈ w ∧ groupOf w = partitionModKeyNat) := fun h => hdash h.1
      rw [and_iff_left hno, or_iff_right (Nat.lt_irrefl _)]
    refine if_congr hsame rfl ?_
    rw [Nat.add_sub_cancel_left]
    rfl

/-- A range from `a` to `b` has `p` once or not at all. -/
theorem count_range' (a b p : Nat) : (List.range' a (b + 1 - a)).count p
    = if a ≤ p ∧ p ≤ b then 1 else 0 := by
  by_cases hp : a ≤ p ∧ p ≤ b
  · rw [if_pos hp]
    refine List.count_eq_one_of_mem List.nodup_range' ?_
    rw [List.mem_range'_1]
    omega
  · rw [if_neg hp, List.count_eq_zero, List.mem_range'_1]
    omega

/-- **A slot is read as often as it is named.** -/
theorem count_readWords {ws : List CString} (hws : ∀ w ∈ ws, 0 ∉ w) (p : Nat) :
    (readWords ws).2.count p
      = (ws.takeWhile (fun w => decide (¬ WordReported w))).countP
        (fun w => decide ((wordEnds w).1 ≤ p ∧ p ≤ (wordEnds w).2)) := by
  induction ws with
  | nil => rfl
  | cons w ws ih =>
      unfold readWords
      rw [wordSlots_eq (hws w List.mem_cons_self)]
      by_cases hrep : WordReported w
      · rw [if_pos hrep, List.takeWhile_cons_of_neg (by simpa using hrep)]
        rfl
      · rw [if_neg hrep, List.takeWhile_cons_of_pos (by simpa using hrep), List.countP_cons]
        simp only [List.count_append, count_range', decide_eq_true_eq]
        rw [ih (fun v hv => hws v (List.mem_cons_of_mem _ hv)), Nat.add_comm]

/-- The words of a string are parts of it. -/
theorem partitionWords_zero_free (text : CString) : 0 ∉ text → ∀ w ∈ partitionWords text, 0 ∉ w := by
  induction hlen : text.length using Nat.strongRecOn generalizing text with
  | _ n ih =>
      intro hzero w hw
      by_cases hcomma : 44 ∈ text
      · obtain ⟨v, rest, rfl, hv⟩ := List.eq_append_cons_of_mem hcomma
        rw [List.mem_append, List.mem_cons, not_or, not_or] at hzero
        rw [partitionWords_cons hv] at hw
        rcases List.mem_cons.1 hw with rfl | hw
        · exact hzero.1
        · refine ih rest.length ?_ rest rfl hzero.2.2 w hw
          rw [← hlen, List.length_append, List.length_cons]
          omega
      · by_cases hne : text = []
        · rw [hne, partitionWords_nil] at hw
          cases hw
        · rw [partitionWords_single hcomma hne, List.mem_singleton] at hw
          rw [hw]
          exact hzero

theorem Configure.count_slotsRead (hstrs : conf.ShortStrings) (n p : Nat) :
    (conf.slotsRead n).count p = conf.timesNamed n p := by
  unfold Configure.slotsRead Configure.timesNamed
  induction n with
  | zero => rfl
  | succ n ih =>
      rw [List.range_succ, List.flatMap_append, List.flatMap_append, List.count_append,
        List.countP_append, ih, List.flatMap_singleton, List.flatMap_singleton]
      unfold RedisAgent.slotsRead wordsTaken
      rw [count_readWords (partitionWords_zero_free _ (hstrs n).1)]

/-! ### Acceptance. -/

theorem ItemsOf.valid {partitionStr : CString} {items : List PartitionItem}
    (h : ItemsOf partitionStr items) {item : PartitionItem} (hitem : item ∈ items) : item.Valid := by
  obtain ⟨i, hi, rfl⟩ := List.getElem_of_mem hitem
  have hlen := h.length_eq
  exact ((List.forall₂_iff_get.1 h).2 i (hlen ▸ hi) hi).2

/-- A partition of a map that covers the slots has no more than there are. -/
theorem MetaDbInfo.Covers.slots_length (h : db.Covers) {j : Nat} (hj : j < db.partitionNum.toNat) :
    (db.slots j).length ≤ partitionModKeyNat := by
  have hpass : j ∈ List.range db.passes := by
    rw [List.mem_range, MetaDbInfo.passes_of_small h.small]
    exact hj
  have hnd : (db.slots j).Nodup := (List.nodup_flatMap.1 h.nodup).1 j hpass
  have hsub : db.slots j ⊆ List.range partitionModKeyNat := by
    intro p hp
    rw [List.mem_range]
    exact (h.mem p).1 (List.mem_flatMap.2 ⟨j, hpass, hp⟩)
  have hle := (hnd.subperm hsub).length_le
  rw [List.length_range] at hle
  exact hle

/-- **Which maps may be accepted**: those whose slots pass the tests. -/
theorem RouterState.mayAccept_iff (r : RouterState σ)
    (hle : ∀ p ∈ (List.range db.passes).flatMap db.slots, p ≤ partitionModKeyNat) :
    r.MayAccept db ↔ db.PassesTests := by
  constructor
  · rintro (⟨r', haccept⟩ | ⟨-, htests⟩)
    · have hcov := (RouterState.shardInitPart_zero haccept).1
      exact ⟨hcov.nodup, fun p hp => (hcov.mem p).2 hp⟩
    · exact htests
  · intro htests
    by_cases hmem : partitionModKeyNat ∈ (List.range db.passes).flatMap db.slots
    · right
      refine ⟨?_, htests⟩
      rw [RouterState.shardInitPart_none_iff, walkSlots_outside_iff hle]
      obtain ⟨pre, post, he, -⟩ := List.eq_append_cons_of_mem hmem
      refine ⟨pre, post, he, ?_⟩
      have hnd := htests.1
      rw [he] at hnd
      exact (List.nodup_append.1 hnd).1
    · left
      have hcov : db.Covers := by
        refine ⟨htests.1, fun p => ⟨?_, htests.2 p⟩⟩
        intro hp
        exact Nat.lt_of_le_of_ne (hle p hp) (fun he => hmem (he ▸ hp))
      obtain ⟨f, haccept⟩ := r.shardInitPart_of_covers hcov
      exact ⟨_, haccept⟩

/-- The tests, on what the strings name. -/
theorem Loaded.passesTests_iff (h : Loaded conf db) (hstrs : conf.ShortStrings) :
    db.PassesTests ↔ (∀ p < partitionModKeyNat, conf.timesNamed db.passes p = 1)
      ∧ conf.timesNamed db.passes partitionModKeyNat ≤ 1 := by
  unfold MetaDbInfo.PassesTests
  rw [h.allSlots_eq hstrs]
  simp only [← Configure.count_slotsRead hstrs]
  constructor
  · rintro ⟨hnd, hall⟩
    exact ⟨fun p hp => List.count_eq_one_of_mem hnd (hall p hp),
      List.nodup_iff_count_le_one.1 hnd _⟩
  · rintro ⟨hone, hlast⟩
    refine ⟨List.nodup_iff_count_le_one.2 ?_, ?_⟩
    · intro p
      rcases Nat.lt_trichotomy p partitionModKeyNat with hlt | rfl | hgt
      · exact Nat.le_of_eq (hone p hlt)
      · exact hlast
      · have hnot : p ∉ conf.slotsRead db.passes :=
          fun hp => absurd (conf.slotsRead_le _ p hp) (Nat.not_le.2 hgt)
        rw [List.count_eq_zero_of_not_mem hnot]
        exact Nat.zero_le 1
    · intro p hp
      rw [← List.count_pos_iff, hone p hp]
      exact Nat.one_pos

/-- **Which partition strings are handled soundly.** -/
theorem partition_strings_sound_iff (r : RouterState σ) (h : Returns (metaLoadConf conf) {} () db)
    (hstrs : conf.ShortStrings) : PartitionsSound r conf db ↔ StringsFit conf db.partitionNum := by
  have hload := metaLoadConf_loaded h
  have hall := hload.allSlots_eq hstrs
  have hmay : r.MayAccept db ↔ (∀ p < partitionModKeyNat, conf.timesNamed db.passes p = 1)
      ∧ conf.timesNamed db.passes partitionModKeyNat ≤ 1 := by
    rw [r.mayAccept_iff (by rw [hall]; exact conf.slotsRead_le _), hload.passesTests_iff hstrs]
  constructor
  · intro hs
    by_cases hacc : r.MayAccept db
    · left
      intro j hj
      obtain ⟨items, hitems, -⟩ := hs.items hacc j hj
      exact ⟨items, hitems⟩
    · right
      rcases not_and_or.1 (fun hx => hacc (hmay.2 hx)) with hone | htwice
      · left
        by_contra hno
        exact hone (fun p hp => by_contra (fun hne => hno ⟨p, hp, hne⟩))
      · exact Or.inr (Nat.not_le.1 htwice)
  · intro hf
    have hitems : r.MayAccept db → ∀ j < db.partitionNum.toNat,
        ∃ items, ItemsOf (conf.partitionStr j) items := by
      intro hacc
      rcases hf with hitems | ⟨p, hp, hne⟩ | htwice
      · exact hitems
      · exact absurd ((hmay.1 hacc).1 p hp) hne
      · exact absurd (hmay.1 hacc).2 (Nat.not_le.2 htwice)
    -- sound items give slots that there are
    have hread : r.MayAccept db → ∀ j < db.partitionNum.toNat, ∃ items,
        ItemsOf (conf.partitionStr j) items
          ∧ readWords (partitionWords (conf.partitionStr j)) = (true, items.flatMap PartitionItem.slots) := by
      intro hacc j hj
      obtain ⟨items, hitems⟩ := hitems hacc j hj
      have hread := readWords_spelled hitems
      rw [← partitionWords_spelled hitems] at hread
      exact ⟨items, hitems, hread⟩
    have hcov : r.MayAccept db → db.Covers := by
      intro hacc
      have htests := (r.mayAccept_iff (by rw [hall]; exact conf.slotsRead_le _)).1 hacc
      refine ⟨htests.1, fun p => ⟨?_, htests.2 p⟩⟩
      intro hp
      obtain ⟨j, hj, hp⟩ := List.mem_flatMap.1 hp
      have hj : j < db.partitionNum.toNat := Nat.lt_of_lt_of_le (List.mem_range.1 hj) db.passes_le
      obtain ⟨items, hitems, hread⟩ := hread hacc j hj
      rw [hload.slots_eq hstrs hj] at hp
      unfold RedisAgent.slotsRead at hp
      rw [hread] at hp
      obtain ⟨item, hitem, hp⟩ := List.mem_flatMap.1 hp
      exact PartitionItem.mem_slots (hitems.valid hitem) hp
    refine ⟨?_, ?_, ?_⟩
    · intro hacc j hj
      exact (hcov hacc).slots_length hj
    · intro hacc hnone
      obtain ⟨f, haccept⟩ := r.shardInitPart_of_covers (hcov hacc)
      rw [hnone] at haccept
      cases haccept
    · intro hacc j hj
      obtain ⟨items, hitems, hread⟩ := hread hacc j hj
      refine ⟨items, hitems, ?_, ?_⟩
      · rw [metaLoadPartition_eq j (hstrs j).1, hread]
        show ((items.flatMap PartitionItem.slots).length : Int) ≠ -1
        omega
      · show db.slots j = _
        rw [hload.slots_eq hstrs hj]
        unfold slotsRead
        rw [hread]

/-! ## §3. One partition. -/

/-- A configuration with one partition, and neither services nor users. -/
def oneString (partitionStr : CString) : Configure where
  superStrategyMachineRoom := some []
  serverMachineRoom := none
  serverIdc := some []
  dbs := some 1
  dbPid := some []
  dbName := some []
  dbConnectType := some []
  dbConnectNum := some 2
  dbConnectProcessTimeoutMs := some 100
  dbConnectGetConnectRetryNum := some 1
  dbConnectReadRoomOnly := none
  dbConnectReadIdcOnly := none
  dbShardMode := some 0
  dbShardPartitionNum := some 1
  dbShardPartition := fun _ => some partitionStr
  services := some []
  users := some []

theorem oneString_returns (partitionStr : CString) :
    ∃ db, Returns (metaLoadConf (oneString partitionStr)) {} () db ∧ db.partitionNum = 1 := by
  have hread : Readable (oneString partitionStr) := by
    refine ⟨rfl, rfl, rfl, rfl, rfl, rfl, rfl, rfl, rfl, fun h => absurd rfl h, fun _ => rfl, ?_,
      ⟨[], rfl, fun _ _ => nofun⟩, ⟨[], rfl, nofun⟩⟩
    exact fun _ _ _ _ => rfl
  obtain ⟨db, hdb⟩ := metaLoadConf_returns hread
  have hnum : some (1 : UInt32) = some db.partitionNum := (metaLoadConf_loaded hdb).partitionNum
  exact ⟨db, hdb, (Option.some_inj.1 hnum).symm⟩

theorem oneString_short {partitionStr : CString} (hzero : 0 ∉ partitionStr)
    (hlen : partitionStr.length ≤ 5119) : (oneString partitionStr).ShortStrings := fun _ => ⟨hzero, hlen⟩

/-- `"0-65535"`, as bytes. -/
def wholeRange : CString := [48, 45, 54, 53, 53, 51, 53]

theorem wholeRange_spelled : (PartitionItem.range 0 65535).SpelledBy wholeRange :=
  ⟨[48], [54, 53, 53, 51, 53], rfl, by decide, by decide, List.all_eq_true.1 (by decide),
    List.all_eq_true.1 (by decide), by decide, by decide⟩

theorem wholeRange_valid : (PartitionItem.range 0 65535).Valid := by
  show 0 ≤ 65535 ∧ 65535 < 65536
  decide

/-- `"0-65535,70000"` -/
def reportedRange : CString := wholeRange ++ [44, 55, 48, 48, 48, 48]

/-- A string that is reported as an error, and accepted. -/
theorem partition_strings_unsound :
    ¬ ∀ (r : RouterState Nat) (conf : Configure) (db : MetaDbInfo), Returns (metaLoadConf conf) {} () db →
      conf.ShortStrings → PartitionsSound r conf db := by
  intro hall
  obtain ⟨db, hdb, hnum⟩ := oneString_returns reportedRange
  have hstrs : (oneString reportedRange).ShortStrings :=
    oneString_short (by decide) (by decide)
  have hwords : readWords (partitionWords reportedRange)
      = (false, (PartitionItem.range 0 65535).slots ++ []) := by
    have hcut : partitionWords reportedRange = [wholeRange, [55, 48, 48, 48, 48]] := by
      decide
    have hbad : wordSlots [55, 48, 48, 48, 48] = none := by decide
    rw [hcut]
    simp only [readWords, wordSlots_spelled wholeRange_spelled wholeRange_valid, hbad]
  have hload := metaLoadConf_loaded hdb
  have hslots : slotsRead reportedRange = List.range partitionModKeyNat := by
    unfold slotsRead
    rw [hwords, List.append_nil, List.range_eq_range']
    rfl
  have hcovers : db.Covers := hload.covers_single hstrs hnum hslots
  obtain ⟨f, haccept⟩ := (routerInit : RouterState Nat).shardInitPart_of_covers hcovers
  obtain ⟨items, -, hret, -⟩ := (hall routerInit _ db hdb hstrs).items (Or.inl ⟨_, haccept⟩) 0 (by rw [hnum]; decide)
  have hreported : (metaLoadPartition 0 reportedRange).1 = -1 := by
    rw [metaLoadPartition_eq 0 (by decide), hwords]
    rfl
  exact hret hreported

theorem partition_strings_sound_iff_witness :
    ∃ db, Returns (metaLoadConf (oneString wholeRange)) {} () db
      ∧ (PartitionsSound (routerInit : RouterState Nat) (oneString wholeRange) db
        ↔ StringsFit (oneString wholeRange) db.partitionNum) := by
  obtain ⟨db, hdb, -⟩ := oneString_returns wholeRange
  exact ⟨db, hdb, partition_strings_sound_iff routerInit hdb (oneString_short (by decide) (by decide))⟩

end RedisAgent
