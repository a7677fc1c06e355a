/-
  RedisAgent.Router.ShardTool — tools/shardtool.cpp: where a key is, for the operator.

  The tool reads the configuration of the proxy by itself: of each partition string
  `sscanf` takes the first range, and its end is all that is kept.  A key is then in
  the first partition whose end is not below its slot.  `start` and `end` are not
  initialized, so a string that does not begin with a range leaves `end` as it is.

  Main results:
    • `shardtool_agrees_iff` — for which configurations the tool and the proxy agree.
-/
import RedisAgent.Lib.FirstBound
import RedisAgent.Router.Capacity
import RedisAgent.Router.HashOnto

namespace RedisAgent

variable {σ : Type*}

/-! ## §1. The code. -/

/-- What stands behind a sign. -/
def afterSign : CString → CString
  | 45 :: s => s
  | 43 :: s => s
  | s => s

/-- `%d`: the number and what stands behind it, if there is a digit. -/
def scanInt (s : CString) : Option (Int32 × CString) :=
  let digits := afterSign (s.dropWhile isSpace)
  if digits.takeWhile isDigit = [] then none else some (atoi s, digits.dropWhile isDigit)

/-- `sscanf(s, "%d-%d", &start, &end)`: what is not read stays as it is. -/
def sscanfRange (s : CString) (start end' : Int32) : Int32 × Int32 :=
  match scanInt s with
  | none => (start, end')
  | some (start, 45 :: rest) =>
      match scanInt rest with
      | none => (start, end')
      | some (end', _) => (start, end')
  | some (start, _) => (start, end')

/-- `shard_table`; in pass `i` the variables `start` and `end` hold `vars i`. -/
def shardTable (conf : Configure) (vars : Nat → Int32 × Int32) (i : Nat) : Int32 :=
  (sscanfRange (conf.partitionStr i) (vars i).1 (vars i).2).2

/-- `for (; shard_num < sum_shards; shard_num ++)`, with `left` entries left. -/
def shardNumLoop (shardTable : Nat → Int32) (shardValue : Int32) (shardNum : Nat) : Nat → Nat
  | 0 => shardNum
  | left + 1 =>
      if shardValue ≤ shardTable shardNum then shardNum
      else shardNumLoop shardTable shardValue (shardNum + 1) left

/-- `main`: the `shard_value` and the `shard_num` that are printed for a key. -/
def shardtool (conf : Configure) (vars : Nat → Int32 × Int32) (key : List UInt8) : Int32 × Nat :=
  let sumShards := (conf.dbShardPartitionNum.getD 0).toInt32
  let shardValue := (strhash key &&& 0xFFFF).toUInt32.toInt32
  (shardValue, shardNumLoop (shardTable conf vars) shardValue 0 sumShards.toInt.toNat)

/-- **The tool agrees with the proxy**: whatever was in the variables, every key is
printed with the partition the router sends it to. -/
def ToolAgrees (r : RouterState σ) (conf : Configure) : Prop :=
  ∀ vars (key : List UInt8), 0 ∉ key → ((shardtool conf vars key).2 : Int) = r.router.shardKeyOf key

/-- Every partition has a slot, and its string lists one or several groups and ranges. -/
def RangesListed (conf : Configure) (db : MetaDbInfo) : Prop :=
  ∀ j < db.partitionNum.toNat, db.slots j ≠ []
    ∧ ∃ item items, ItemsOf (conf.partitionStr j) (item :: items)

/-- The slots of partition `j`, as a set. -/
def MetaDbInfo.slotSet (db : MetaDbInfo) (j : Nat) : Set Nat := {p | p ∈ db.slots j}

/-- **The partitions ascend, and each string begins with a range** that ends at the
partition's largest slot. -/
structure EndsFirst (conf : Configure) (db : MetaDbInfo) : Prop where
  ascending : Ascending db.slotSet db.partitionNum.toNat
  first : ∀ j < db.partitionNum.toNat, ∃ a b items,
    ItemsOf (conf.partitionStr j) (.range a b :: items) ∧ IsGreatest (db.slotSet j) b

/-! ## §2. The loop and the hash. -/

theorem shardNumLoop_ge (table : Nat → Int32) (value : Int32) (left : Nat) :
    ∀ i, i ≤ shardNumLoop table value i left := by
  induction left with
  | zero => exact fun i => Nat.le_refl i
  | succ left ih =>
      intro i
      unfold shardNumLoop
      split
      · exact Nat.le_refl i
      · exact Nat.le_of_succ_le (ih (i + 1))

/-- **The loop** stops at the first end that is not below the value. -/
theorem shardNumLoop_eq_iff (table : Nat → Int32) (value : Int32) {k : Nat} (left : Nat) :
    ∀ i, i ≤ k → k < i + left → (shardNumLoop table value i left = k
      ↔ value.toInt ≤ (table k).toInt ∧ ∀ j, i ≤ j → j < k → (table j).toInt < value.toInt) := by
  induction left with
  | zero =>
      intro i hik hk
      omega
  | succ left ih =>
      intro i hik hk
      unfold shardNumLoop
      by_cases hle : value ≤ table i
      · rw [if_pos hle]
        rw [Int32.le_iff_toInt_le] at hle
        constructor
        · rintro rfl
          exact ⟨hle, fun j hj hji => absurd hj (Nat.not_le.2 hji)⟩
        · rintro ⟨-, hbelow⟩
          by_contra hne
          have hlt := hbelow i (Nat.le_refl i) (Nat.lt_of_le_of_ne hik hne)
          omega
      · rw [if_neg hle]
        rw [Int32.le_iff_toInt_le] at hle
        by_cases he : i = k
        · subst he
          have hge := shardNumLoop_ge table value left (i + 1)
          exact iff_of_false (by omega) (fun h => hle h.1)
        · rw [ih (i + 1) (by omega) (by omega)]
          refine and_congr_right' ⟨?_, ?_⟩
          · intro h j hij hjk
            rcases Nat.lt_or_eq_of_le hij with hlt | rfl
            · exact h j hlt hjk
            · omega
          · exact fun h j hij hjk => h j (by omega) hjk

/-- `strhash(key) & 0xFFFF` is the slot of the key. -/
theorem shardValue_toInt (key : List UInt8) :
    (strhash key &&& 0xFFFF).toUInt32.toInt32.toInt = keySlot key := by
  have hlow : (strhash key &&& 0xFFFF).toNat = keySlot key := by
    rw [UInt64.toNat_and]
    exact Nat.and_two_pow_sub_one_eq_mod _ 16
  have hlt := keySlot_lt key
  unfold partitionModKeyNat at hlt
  have hsmall : (strhash key &&& 0xFFFF).toUInt32.toNat = keySlot key := by
    rw [UInt64.toNat_toUInt32, hlow]
    exact Nat.mod_eq_of_lt (by omega)
  rw [toInt32_of_small (by omega), hsmall]

/-! ## §3. What `sscanf` reads. -/

/-- Digits end where something else begins. -/
theorem digits_end {w rest : CString} (hw : ∀ c ∈ w, isDigit c = true)
    (hrest : ∀ c ∈ rest.head?, isDigit c = false) :
    (w ++ rest).takeWhile isDigit = w ∧ (w ++ rest).dropWhile isDigit = rest := by
  rw [List.takeWhile_append_of_pos hw, List.dropWhile_append_of_pos hw]
  cases rest with
  | nil => exact ⟨by rw [List.takeWhile_nil, List.append_nil], rfl⟩
  | cons c rest =>
      have hc : ¬ isDigit c = true := by
        rw [hrest c rfl]
        exact Bool.false_ne_true
      exact ⟨by rw [List.takeWhile_cons_of_neg hc, List.append_nil], List.dropWhile_cons_of_neg hc⟩

/-- Before digits there is neither a blank nor a sign to skip. -/
theorem digits_begin {w rest : CString} (hw : ∀ c ∈ w, isDigit c = true) (hne : w ≠ []) :
    (w ++ rest).dropWhile isSpace = w ++ rest ∧ afterSign (w ++ rest) = w ++ rest
      ∧ signed (w ++ rest) = decimal ((w ++ rest).takeWhile isDigit) := by
  obtain ⟨c, w', rfl⟩ := List.exists_cons_of_ne_nil hne
  obtain ⟨hspace, hminus, hplus, -⟩ := not_sign_of_digit (hw c List.mem_cons_self)
  rw [List.cons_append]
  refine ⟨?_, ?_, ?_⟩
  · rw [List.dropWhile_cons_of_neg]
    rw [hspace]
    exact Bool.false_ne_true
  · unfold afterSign
    split
    · next heq => exact absurd (List.cons.inj heq).1 hminus
    · next heq => exact absurd (List.cons.inj heq).1 hplus
    · rfl
  · unfold signed
    split
    · next heq => exact absurd (List.cons.inj heq).1 hminus
    · next heq => exact absurd (List.cons.inj heq).1 hplus
    · rfl

/-- **A number in digits** is read up to its last digit. -/
theorem scanInt_word {w rest : CString} (hw : ∀ c ∈ w, isDigit c = true) (hne : w ≠ [])
    (hrest : ∀ c ∈ rest.head?, isDigit c = false) (hsmall : decimal w < partitionModKeyNat) :
    scanInt (w ++ rest) = some (Int32.ofInt (decimal w), rest) := by
  unfold partitionModKeyNat at hsmall
  obtain ⟨htake, hdrop⟩ := digits_end hw hrest
  obtain ⟨hspace, hsign, hsigned⟩ := @digits_begin w rest hw hne
  have hatoi : atoi (w ++ rest) = Int32.ofInt (decimal w) := by
    have hstrtol : strtol (w ++ rest) = decimal w := by
      unfold strtol
      rw [hspace, hsigned, htake]
      omega
    unfold atoi
    rw [hstrtol]
  unfold scanInt
  simp only [hspace, hsign, htake, hdrop, hatoi, if_neg hne]

/-- The first item of a string stands at its beginning, before a comma or the end. -/
theorem first_item {s : CString} {item : PartitionItem} {items : List PartitionItem}
    (h : ItemsOf s (item :: items)) :
    ∃ w tail, s = w ++ tail ∧ item.SpelledBy w ∧ item.Valid ∧ ∀ c ∈ tail.head?, c = 44 := by
  have hne : s ≠ [] := by
    rintro rfl
    cases h
  unfold ItemsOf itemWords at h
  rw [if_neg hne] at h
  by_cases hcomma : 44 ∈ s
  · obtain ⟨w, rest, rfl, hw⟩ := List.eq_append_cons_of_mem hcomma
    rw [splitOn_cons hw] at h
    obtain ⟨hspelled, -⟩ := List.forall₂_cons.1 h
    exact ⟨w, 44 :: rest, rfl, hspelled.1, hspelled.2, fun c hc => (Option.some_inj.1 hc).symm⟩
  · rw [splitOn_single hcomma] at h
    obtain ⟨hspelled, -⟩ := List.forall₂_cons.1 h
    exact ⟨s, [], (List.append_nil s).symm, hspelled.1, hspelled.2, nofun⟩

/-- **A string that begins with a range** sets `end` to the end of the range. -/
theorem sscanfRange_range {s : CString} {a b : Nat} {items : List PartitionItem}
    (h : ItemsOf s (.range a b :: items)) (start end' : Int32) :
    (sscanfRange s start end').2.toInt = b := by
  obtain ⟨w, tail, rfl, ⟨u, v, rfl, hu, hv, hud, hvd, rfl, rfl⟩, ⟨hle, hlt⟩, htail⟩ := first_item h
  have hdash : ∀ c ∈ (45 :: (v ++ tail)).head?, isDigit c = false := by
    intro c hc
    cases hc
    decide
  have hbehind : ∀ c ∈ tail.head?, isDigit c = false := by
    intro c hc
    rw [htail c hc]
    decide
  have hfirst := scanInt_word hud hu hdash (Nat.lt_of_le_of_lt hle hlt)
  have hsecond := scanInt_word hvd hv hbehind hlt
  rw [show u ++ 45 :: v ++ tail = u ++ 45 :: (v ++ tail) by simp]
  unfold sscanfRange
  simp only [hfirst, hsecond]
  unfold partitionModKeyNat at hlt
  rw [Int32.toInt_ofInt_of_le] <;> omega

/-- **A string that begins with a single group** leaves `end` as it is. -/
theorem sscanfRange_group {s : CString} {g : Nat} {items : List PartitionItem}
    (h : ItemsOf s (.group g :: items)) (start end' : Int32) : (sscanfRange s start end').2 = end' := by
  obtain ⟨w, tail, rfl, ⟨hne, hd, rfl⟩, hlt, htail⟩ := first_item h
  have hbehind : ∀ c ∈ tail.head?, isDigit c = false := by
    intro c hc
    rw [htail c hc]
    decide
  have hfirst := scanInt_word hd hne hbehind hlt
  unfold sscanfRange
  rw [hfirst]
  cases tail with
  | nil => rfl
  | cons c tail =>
      rw [htail c rfl]
      rfl

/-! ## §4. The tool and the proxy. -/

variable {r out : RouterState σ} {table : Nat} {conf : Configure} {db : MetaDbInfo}

/-- **Agreement, slot by slot**: there is a key for every slot. -/
theorem toolAgrees_iff (hload : Loaded conf db) (hbuild : r.build table db = some (0, out)) :
    ToolAgrees out conf ↔ ∀ vars, ∀ i < db.partitionNum.toNat, ∀ p ∈ db.slots i,
      (p : Int) ≤ (shardTable conf vars i).toInt
        ∧ ∀ j < i, (shardTable conf vars j).toInt < (p : Int) := by
  have hcov := MetaDbInfo.Covers.of_build hbuild
  have hroutes := RoutesBy.build hbuild
  have hpasses := MetaDbInfo.passes_of_small hcov.small
  have hnum : ((conf.dbShardPartitionNum.getD 0).toInt32.toInt.toNat) = db.partitionNum.toNat := by
    rw [← hpasses, hload.partitionNum]
    rfl
  -- what the tool prints for a key of slot `p`
  have htool : ∀ vars key i, i < db.partitionNum.toNat → ((shardtool conf vars key).2 = i
      ↔ (keySlot key : Int) ≤ (shardTable conf vars i).toInt
        ∧ ∀ j < i, (shardTable conf vars j).toInt < (keySlot key : Int)) := by
    intro vars key i hi
    unfold shardtool
    simp only [hnum]
    rw [shardNumLoop_eq_iff _ _ _ 0 (Nat.zero_le i) (by omega), shardValue_toInt]
    simp only [Nat.zero_le, true_implies]
  constructor
  · intro h vars i hi p hp
    have hlt : p < partitionModKeyNat :=
      (hcov.mem p).1 (List.mem_flatMap.2 ⟨i, List.mem_range.2 (hpasses ▸ hi), hp⟩)
    obtain ⟨key, hzero, rfl⟩ := exists_keySlot hlt
    obtain ⟨i', -, honly, hkey⟩ := hroutes key
    have hown : i = i' := (honly i hi).1 hp
    have hprint := h vars key hzero
    rw [hkey, ← hown] at hprint
    exact (htool vars key i hi).1 (by omega)
  · intro h vars key _
    obtain ⟨i, hi, honly, hkey⟩ := hroutes key
    rw [hkey, (htool vars key i hi).2 (h vars i hi (keySlot key) ((honly i hi).2 rfl))]

/-- If the tool agrees, every string begins with a range. -/
theorem ToolAgrees.range_first (hload : Loaded conf db) (hbuild : r.build table db = some (0, out))
    (hitems : RangesListed conf db) (h : ToolAgrees out conf) :
    ∀ j < db.partitionNum.toNat, ∃ a b items, ItemsOf (conf.partitionStr j) (.range a b :: items) := by
  intro j hj
  obtain ⟨hne, item, items, hitem⟩ := hitems j hj
  cases item with
  | range a b => exact ⟨a, b, items, hitem⟩
  | group g =>
      -- `end` may have been -1, and then no slot is in partition `j`
      obtain ⟨p, hp⟩ := List.exists_mem_of_ne_nil _ hne
      have hle := ((toolAgrees_iff hload hbuild).1 h (fun _ => (0, -1)) j hj p hp).1
      unfold shardTable at hle
      rw [sscanfRange_group hitem] at hle
      have hneg : (p : Int) ≤ -1 := hle
      omega

/-- **The shard tool.**  For a configuration that the proxy accepts, in which every
partition lists one or several groups and ranges, the tool prints every key with the
partition that the proxy sends it to exactly if the partitions ascend and each string
begins with a range that ends at the partition's largest slot. -/
theorem shardtool_agrees_iff (h : Returns (metaLoadConf conf) {} () db)
    (hbuild : r.build table db = some (0, out)) (hitems : RangesListed conf db) :
    ToolAgrees out conf ↔ EndsFirst conf db := by
  have hload := metaLoadConf_loaded h
  have hcov := MetaDbInfo.Covers.of_build hbuild
  have hpasses := MetaDbInfo.passes_of_small hcov.small
  -- with ranges in front, the table holds their ends
  have hends : ∀ bound : Nat → Nat, (∀ j < db.partitionNum.toNat, ∃ a items,
      ItemsOf (conf.partitionStr j) (.range a (bound j) :: items)) →
      (ToolAgrees out conf ↔ Ascending db.slotSet db.partitionNum.toNat
        ∧ ∀ j < db.partitionNum.toNat, IsGreatest (db.slotSet j) (bound j)) := by
    intro bound hfirst
    have htable : ∀ vars, ∀ j < db.partitionNum.toNat, (shardTable conf vars j).toInt = bound j := by
      intro vars j hj
      obtain ⟨a, items, hitem⟩ := hfirst j hj
      exact sscanfRange_range hitem _ _
    have hslot : ∀ j < db.partitionNum.toNat, ∃ k < db.partitionNum.toNat, bound j ∈ db.slotSet k := by
      intro j hj
      obtain ⟨a, items, hitem⟩ := hfirst j hj
      obtain ⟨w, tail, -, -, ⟨-, hlt⟩, -⟩ := first_item hitem
      obtain ⟨k, hk, hmem⟩ := List.mem_flatMap.1 ((hcov.mem (bound j)).2 hlt)
      exact ⟨k, hpasses ▸ List.mem_range.1 hk, hmem⟩
    have hne : ∀ j < db.partitionNum.toNat, (db.slotSet j).Nonempty :=
      fun j hj => List.exists_mem_of_ne_nil _ (hitems j hj).1
    rw [← firstBound_leads_iff hne hslot, toolAgrees_iff hload hbuild]
    constructor
    · intro hall i hi p hp
      obtain ⟨hle, hbelow⟩ := hall (fun _ => (0, 0)) i hi p hp
      rw [htable _ i hi] at hle
      refine ⟨by omega, ?_⟩
      intro j hj
      have hlt := hbelow j hj
      rw [htable _ j (hj.trans hi)] at hlt
      omega
    · intro hall vars i hi p hp
      obtain ⟨hle, hbelow⟩ := hall i hi p hp
      rw [htable vars i hi]
      refine ⟨by omega, ?_⟩
      intro j hj
      have hlt := hbelow j hj
      rw [htable vars j (hj.trans hi)]
      omega
  constructor
  · intro hagree
    choose! a b items hfirst using hagree.range_first hload hbuild hitems
    obtain ⟨hasc, hgreat⟩ := (hends b (fun j hj => ⟨a j, items j, hfirst j hj⟩)).1 hagree
    exact ⟨hasc, fun j hj => ⟨a j, b j, items j, hfirst j hj, hgreat j hj⟩⟩
  · rintro ⟨hasc, hfirst⟩
    choose! a b items hitem hgreat using hfirst
    exact (hends b (fun j hj => ⟨a j, items j, hitem j hj⟩)).2 ⟨hasc, hgreat⟩

/-! ## §5. One partition. -/

/-- One partition whose items give every slot once is accepted. -/
theorem oneString_build {partitionStr : CString} {item : PartitionItem} {items : List PartitionItem}
    (hzero : 0 ∉ partitionStr) (hlen : partitionStr.length ≤ 5119)
    (hitems : ItemsOf partitionStr (item :: items))
    (hslots : (item :: items).flatMap PartitionItem.slots = List.range partitionModKeyNat) :
    ∃ db out, Returns (metaLoadConf (oneString partitionStr)) {} () db
      ∧ (routerInit : RouterState Nat).build 0 db = some (0, out) ∧ db.partitionNum = 1
      ∧ db.slots 0 = List.range partitionModKeyNat ∧ RangesListed (oneString partitionStr) db := by
  obtain ⟨db, hdb, hnum⟩ := oneString_returns partitionStr
  have hload := metaLoadConf_loaded hdb
  have hstrs : (oneString partitionStr).ShortStrings := oneString_short hzero hlen
  have hread : slotsRead partitionStr = List.range partitionModKeyNat := by
    unfold slotsRead
    rw [partitionWords_spelled hitems, readWords_spelled hitems, hslots]
  have hmode : db.shardMode = 0 := (Option.some_inj.1 hload.shardMode).symm
  have hle : db.passes ≤ partitionModKeyNat := by
    refine Nat.le_trans db.passes_le ?_
    rw [hnum]
    decide
  obtain ⟨out, hout⟩ := RouterState.build_of_covers (r := (routerInit : RouterState Nat)) (Or.inl rfl)
    hmode (hload.covers_single hstrs hnum hread) hle 0
  have hzeroth : ∀ j < db.partitionNum.toNat, db.slots j = List.range partitionModKeyNat := by
    intro j hj
    rw [hload.slots_eq hstrs hj]
    exact hread
  have hone : 0 < db.partitionNum.toNat := by
    rw [hnum]
    decide
  refine ⟨db, out, hdb, hout, hnum, hzeroth 0 hone, ?_⟩
  intro j hj
  refine ⟨?_, item, items, hitems⟩
  rw [hzeroth j hj]
  exact List.ne_nil_of_mem (List.mem_range.2 (show 0 < partitionModKeyNat by decide))

/-- `"0-32767"` and `"32768-65535"`, as bytes. -/
def lowerHalf : CString := [48, 45, 51, 50, 55, 54, 55]
def upperHalf : CString := [51, 50, 55, 54, 56, 45, 54, 53, 53, 51, 53]

theorem twoHalves_items :
    ItemsOf (lowerHalf ++ 44 :: upperHalf) [.range 0 32767, .range 32768 65535] := by
  have hwords : itemWords (lowerHalf ++ 44 :: upperHalf) = [lowerHalf, upperHalf] := by decide
  unfold ItemsOf
  rw [hwords]
  refine .cons ⟨?_, by decide, by decide⟩ (.cons ⟨?_, by decide, by decide⟩ .nil)
  · exact ⟨[48], [51, 50, 55, 54, 55], rfl, by decide, by decide, List.all_eq_true.1 (by decide),
      List.all_eq_true.1 (by decide), by decide, by decide⟩
  · exact ⟨[51, 50, 55, 54, 56], [54, 53, 53, 51, 53], rfl, by decide, by decide,
      List.all_eq_true.1 (by decide), List.all_eq_true.1 (by decide), by decide, by decide⟩

/-- One partition given as two halves: the tool knows the end of the first only, and
puts the keys of the other into a partition that is not there. -/
theorem shardtool_differs :
    ¬ ∀ (r out : RouterState Nat) (table : Nat) (conf : Configure) (db : MetaDbInfo),
      Returns (metaLoadConf conf) {} () db → r.build table db = some (0, out) → RangesListed conf db →
      ToolAgrees out conf := by
  intro hall
  have hslots : [PartitionItem.range 0 32767, .range 32768 65535].flatMap PartitionItem.slots
      = List.range partitionModKeyNat := by
    rw [List.flatMap_cons, List.flatMap_singleton, List.range_eq_range']
    exact List.range'_append_1
  obtain ⟨db, out, hdb, hout, hnum, hzeroth, hlisted⟩ :=
    oneString_build (by decide) (by decide) twoHalves_items hslots
  have hagree := hall routerInit out 0 _ db hdb hout hlisted
  have hmem : 40000 ∈ db.slots 0 := by
    rw [hzeroth, List.mem_range]
    decide
  have hone : 0 < db.partitionNum.toNat := by
    rw [hnum]
    decide
  have hle := ((toolAgrees_iff (metaLoadConf_loaded hdb) hout).1 hagree (fun _ => (0, 0)) 0 hone
    40000 hmem).1
  have hend : (shardTable (oneString (lowerHalf ++ 44 :: upperHalf)) (fun _ => (0, 0)) 0).toInt
      = (32767 : Nat) := sscanfRange_range twoHalves_items 0 0
  omega

/-- One partition with one range. -/
theorem shardtool_agrees_iff_witness :
    ∃ (db : MetaDbInfo) (out : RouterState Nat), Returns (metaLoadConf (oneString wholeRange)) {} () db
      ∧ (ToolAgrees out (oneString wholeRange) ↔ EndsFirst (oneString wholeRange) db) := by
  have hitems : ItemsOf wholeRange [.range 0 65535] := by
    unfold ItemsOf itemWords
    rw [if_neg (by decide), splitOn_single (by decide)]
    exact .cons ⟨wholeRange_spelled, wholeRange_valid⟩ .nil
  have hslots : [PartitionItem.range 0 65535].flatMap PartitionItem.slots
      = List.range partitionModKeyNat := by
    rw [List.flatMap_singleton, List.range_eq_range']
    rfl
  obtain ⟨db, out, hdb, hout, -, -, hlisted⟩ :=
    oneString_build (by decide) (by decide) hitems hslots
  exact ⟨db, out, hdb, shardtool_agrees_iff hdb hout hlisted⟩

end RedisAgent
