/-
  RedisAgent.File.Dirs — `create_parent_dir` of file.cpp.

  A path is spelled by the number of slashes it starts with, its directories, each with
  the number of slashes behind it, and its last name.  `dirname` hands its own result,
  zeros included, to the next level, which so sees words with zeros in them: where `k`
  slashes follow a directory, `k` levels in turn have that directory for a parent.

  A call that has not returned after so many levels is `none` here.

  Main results:
    • `dirname_spell` — what one level hands to the next;
    • `createParentDir_levels` — the levels of one directory;
    • `create_parent_dir_iff` — where the missing directories are created.
-/
import Mathlib.Logic.Function.Iterate
import RedisAgent.File.Path

namespace RedisAgent

/-! ## §1. The code. -/

/-- `0 == create_parent_dir(parent) && 0 == mkdir(parent.c_str(), 0775)`, and the value
returned. -/
def mkdirAfter (parent : List UInt8) (r : Int × FileSys) : Int × FileSys :=
  if r.1 = 0 then
    match r.2.mkdir parent with
    | some fs => (0, fs)
    | none => (-1, r.2)
  else (-1, r.2)

/-- `create_parent_dir` -/
def createParentDir : (fuel : Nat) → FileSys → List UInt8 → Option (Int × FileSys)
  | 0, _, _ => none
  | fuel + 1, fs, path =>
      let parent := dirname path false
      if fs.isOpen (cstr parent) then some (0, fs)
      else if (fs.resolve (cstr parent)).isSome then some (-1, fs)
      else (createParentDir fuel fs parent).map (mkdirAfter (cstr parent))

/-! ## §2. How a path is spelled. -/

/-- A name: some characters, and no slash. -/
def IsName (w : List UInt8) : Prop := w ≠ [] ∧ 47 ∉ w

/-- Slashes, and directories with slashes behind them. -/
def spell (lead : Nat) (dirs : List (List UInt8 × Nat)) : List UInt8 :=
  List.replicate lead 47 ++ dirs.flatMap (fun d => d.1 ++ List.replicate d.2 47)

/-- The directories are names, and slashes follow them. -/
def Spelled (dirs : List (List UInt8 × Nat)) : Prop := ∀ d ∈ dirs, IsName d.1 ∧ 1 ≤ d.2

variable {lead k : Nat} {dirs ds : List (List UInt8 × Nat)} {w name post : List UInt8}

theorem spell_concat (lead : Nat) (ds : List (List UInt8 × Nat)) (w : List UInt8) (k : Nat) :
    spell lead (ds ++ [(w, k)]) = spell lead ds ++ (w ++ List.replicate k 47) := by
  unfold spell
  rw [List.flatMap_append, List.flatMap_singleton, List.append_assoc]

theorem spell_append (lead : Nat) (ds rest : List (List UInt8 × Nat)) :
    spell lead (ds ++ rest) = spell lead ds ++ spell 0 rest := by
  unfold spell
  rw [List.flatMap_append, List.append_assoc]
  rfl

theorem spell_cons (w : List UInt8) (k : Nat) (ds : List (List UInt8 × Nat)) :
    spell 0 ((w, k) :: ds) = w ++ (List.replicate k 47 ++ spell 0 ds) := by
  unfold spell
  rw [List.flatMap_cons, List.append_assoc]
  rfl

theorem spell_lead (lead : Nat) (ds : List (List UInt8 × Nat)) :
    spell lead ds = List.replicate lead 47 ++ spell 0 ds := rfl

theorem Spelled.of_concat (h : Spelled (ds ++ [(w, k)])) : Spelled ds ∧ IsName w ∧ 1 ≤ k :=
  ⟨fun d hd => h d (List.mem_append_left _ hd), h (w, k) (List.mem_append_right _ List.mem_cons_self)⟩

theorem Spelled.concat (h : Spelled ds) (hw : IsName w) (hk : 1 ≤ k) : Spelled (ds ++ [(w, k)]) := by
  intro d hd
  rcases List.mem_append.1 hd with hd | hd
  · exact h d hd
  · rw [List.mem_singleton.1 hd]
    exact ⟨hw, hk⟩

theorem Spelled.ends (h : Spelled dirs) (lead : Nat) :
    spell lead dirs = [] ∨ (spell lead dirs).getLast? = some 47 := by
  rcases List.eq_nil_or_concat' dirs with rfl | ⟨ds, ⟨w, k⟩, rfl⟩
  · cases lead with
    | zero => exact Or.inl rfl
    | succ lead =>
        refine Or.inr ?_
        rw [spell, List.flatMap_nil, List.append_nil, List.replicate_succ', List.getLast?_concat]
  · obtain ⟨-, -, hk⟩ := h.of_concat
    obtain ⟨j, rfl⟩ := Nat.exists_eq_add_of_le' hk
    refine Or.inr ?_
    rw [spell_concat, List.replicate_succ', ← List.append_assoc, ← List.append_assoc,
      List.getLast?_concat]

/-- The last name of a path, and what precedes it. -/
theorem Spelled.lastAt (h : Spelled dirs) (hname : IsName name)
    (hpost : ∀ c ∈ post, isSlash c = true) (lead : Nat) : LastAt (spell lead dirs) name post :=
  ⟨hpost, hname.1, hname.2, h.ends lead⟩

theorem IsName.not_slash (h : IsName w) : ∀ c ∈ w, isSlash c = false :=
  fun _ hc => isSlash_false (fun heq => h.2 (heq ▸ hc))

/-- What precedes the slashes behind the last directory. -/
theorem rdropWhile_spell (hw : IsName w) (lead : Nat) (ds : List (List UInt8 × Nat)) (k : Nat) :
    (spell lead (ds ++ [(w, k)])).rdropWhile isSlash = spell lead ds ++ w := by
  rw [spell_concat, ← List.append_assoc]
  induction k with
  | zero =>
      rw [List.replicate_zero, List.append_nil, List.rdropWhile_eq_self_iff]
      intro hne
      rw [List.getLast_append_of_ne_nil _ hw.1, hw.not_slash _ (List.getLast_mem hw.1)]
      exact Bool.false_ne_true
  | succ k ih =>
      rw [List.replicate_succ', ← List.append_assoc, List.rdropWhile_concat_pos _ _ _ rfl]
      exact ih

/-- **What one level hands to the next.** -/
theorem dirname_spell (h : Spelled (ds ++ [(w, k + 1)])) {c : UInt8} {tail : List UInt8}
    (hname : IsName (c :: tail)) (hpost : ∀ c ∈ post, isSlash c = true) (lead : Nat) :
    dirname (spell lead (ds ++ [(w, k + 1)]) ++ c :: tail ++ post) false
      = spell lead ds ++ w ++ 0 :: (List.replicate k 47 ++ 0 :: tail ++ post) := by
  obtain ⟨-, hw, -⟩ := h.of_concat
  have hbase := rdropWhile_spell hw lead ds (k + 1)
  have hne : spell lead (ds ++ [(w, k + 1)]) ≠ [] := by
    intro hnil
    rw [hnil] at hbase
    exact List.append_ne_nil_of_right_ne_nil _ hw.1 hbase.symm
  have hmax : max (spell lead ds ++ w).length 1 = (spell lead ds ++ w).length := by
    have hpos := List.length_pos_iff.2 hw.1
    rw [List.length_append]
    omega
  rw [dirname_split (h.lastAt hname hpost lead) hne, hbase, hmax, spell_concat, List.replicate_succ]
  have hsplit : spell lead ds ++ (w ++ 47 :: List.replicate k 47) ++ c :: tail ++ post
      = spell lead ds ++ w ++ 47 :: List.replicate k 47 ++ (c :: tail ++ post) := by simp
  have hsplit' : spell lead ds ++ (w ++ 47 :: List.replicate k 47)
      = spell lead ds ++ w ++ 47 :: List.replicate k 47 := by simp
  rw [hsplit, hsplit', List.set_append_right _ _ (Nat.le_refl _), Nat.sub_self, List.cons_append,
    List.set_cons_zero, List.append_assoc (spell lead ds ++ w), List.set_append_right _ _ (Nat.le_refl _),
    Nat.sub_self, List.cons_append, List.set_cons_zero]
  simp

/-! ## §3. The levels of one directory. -/

/-- The text of a path cut behind a directory. -/
theorem cstr_spell {x : List UInt8} (hz : 0 ∉ x) {z : List UInt8} (hzero : z = [] ∨ z.head? = some 0)
    (rest : List UInt8) : cstr (x ++ z ++ 0 :: rest) = x := by
  rcases hzero with rfl | hzero
  · rw [List.append_nil]
    exact cstr_cut hz
  · cases z with
    | nil => cases hzero
    | cons c z =>
        cases hzero
        rw [List.append_assoc, List.cons_append]
        exact cstr_cut hz

/-- **The levels of one directory** that does not exist: as many as slashes follow it, and
each makes it on the way back.  The word grows by a zero from level to level. -/
theorem createParentDir_levels {fs : FileSys} {r : Int × FileSys} {base : Nat} (hds : Spelled ds)
    (hw : IsName w) (hz : 0 ∉ spell lead ds ++ w) (hnone : fs.resolve (spell lead ds ++ w) = none)
    (hbase : ∀ name post fuel, IsName name → (∀ c ∈ post, isSlash c = true) → base ≤ fuel →
      createParentDir fuel fs (spell lead ds ++ name ++ post) = some r) (k : Nat) :
    ∀ (z name post : List UInt8) (fuel : Nat), z = [] ∨ z.head? = some 0 → 47 ∉ z → IsName name →
      (∀ c ∈ post, isSlash c = true) → base + k + 1 ≤ fuel →
      createParentDir fuel fs (spell lead (ds ++ [(w ++ z, k + 1)]) ++ name ++ post)
        = some ((mkdirAfter (spell lead ds ++ w))^[k + 1] r) := by
  have hclosed : fs.isOpen (spell lead ds ++ w) = false := by
    unfold FileSys.isOpen
    rw [hnone]
    rfl
  have hlevel : ∀ (k : Nat) (z name post : List UInt8) (fuel : Nat) (r' : Int × FileSys),
      z = [] ∨ z.head? = some 0 → 47 ∉ z → IsName name → (∀ c ∈ post, isSlash c = true) →
      createParentDir fuel fs
        (spell lead ds ++ (w ++ z) ++ 0 :: (List.replicate k 47 ++ 0 :: name.tail ++ post)) = some r' →
      createParentDir (fuel + 1) fs (spell lead (ds ++ [(w ++ z, k + 1)]) ++ name ++ post)
        = some (mkdirAfter (spell lead ds ++ w) r') := by
    intro k z name post fuel r' hzero hzs hname hpost hrec
    cases name with
    | nil => exact absurd rfl hname.1
    | cons c tail =>
        have hwz : IsName (w ++ z) :=
          ⟨List.append_ne_nil_of_left_ne_nil hw.1 z, fun hmem => (List.mem_append.1 hmem).elim hw.2 hzs⟩
        have hcstr : cstr (spell lead ds ++ (w ++ z)
            ++ 0 :: (List.replicate k 47 ++ 0 :: tail ++ post)) = spell lead ds ++ w := by
          rw [← List.append_assoc]
          exact cstr_spell hz hzero _
        unfold createParentDir
        simp only [dirname_spell (hds.concat hwz (Nat.succ_pos k)) hname hpost lead, hcstr, hclosed,
          hnone, Bool.false_eq_true, if_false, Option.isSome_none]
        rw [List.tail_cons] at hrec
        rw [hrec, Option.map_some]
  induction k with
  | zero =>
      intro z name post fuel hzero hzs hname hpost hfuel
      obtain ⟨fuel, rfl⟩ := Nat.exists_eq_add_of_le' (show 1 ≤ fuel by omega)
      refine hlevel 0 z name post fuel r hzero hzs hname hpost ?_
      have hlong : IsName (w ++ z ++ 0 :: 0 :: name.tail) := by
        refine ⟨List.append_ne_nil_of_right_ne_nil _ (List.cons_ne_nil _ _), ?_⟩
        intro hmem
        simp only [List.mem_append, List.mem_cons] at hmem
        rcases hmem with (hmem | hmem) | hmem | hmem | hmem
        · exact hw.2 hmem
        · exact hzs hmem
        · cases hmem
        · cases hmem
        · exact hname.2 (List.mem_of_mem_tail hmem)
      have hpath : spell lead ds ++ (w ++ z) ++ 0 :: (List.replicate 0 47 ++ 0 :: name.tail ++ post)
          = spell lead ds ++ (w ++ z ++ 0 :: 0 :: name.tail) ++ post := by simp
      rw [hpath]
      exact hbase _ post fuel hlong hpost (by omega)
  | succ k ih =>
      intro z name post fuel hzero hzs hname hpost hfuel
      obtain ⟨fuel, rfl⟩ := Nat.exists_eq_add_of_le' (show 1 ≤ fuel by omega)
      rw [Function.iterate_succ_apply']
      refine hlevel (k + 1) z name post fuel _ hzero hzs hname hpost ?_
      have hpath : spell lead ds ++ (w ++ z) ++ 0 :: (List.replicate (k + 1) 47 ++ 0 :: name.tail ++ post)
          = spell lead (ds ++ [(w ++ (z ++ [0]), k + 1)]) ++ 0 :: name.tail ++ post := by
        rw [spell_concat]
        simp
      rw [hpath]
      refine ih (z ++ [0]) (0 :: name.tail) post fuel (Or.inr ?_) ?_ ⟨List.cons_ne_nil _ _, ?_⟩ hpost
        (by omega)
      · rcases hzero with rfl | hzero
        · rfl
        · rw [List.head?_append, hzero]
          rfl
      · intro hmem
        rcases List.mem_append.1 hmem with hmem | hmem
        · exact hzs hmem
        · cases List.mem_singleton.1 hmem
      · intro hmem
        rcases List.mem_cons.1 hmem with hmem | hmem
        · cases hmem
        · exact hname.2 (List.mem_of_mem_tail hmem)

/-! ## §4. The directories one after another. -/

/-- Where a path with so many leading slashes starts. -/
def FileSys.startOf (fs : FileSys) (lead : Nat) : Nat := if lead = 0 then fs.cwd else fs.root

theorem pathNames_spell (h : Spelled dirs) (lead : Nat) (x : List UInt8) :
    pathNames (spell lead dirs ++ x) = dirs.map Prod.fst ++ pathNames x := by
  rw [spell_lead, List.append_assoc, pathNames_slashes]
  induction dirs with
  | nil => rfl
  | cons d ds ih =>
      obtain ⟨w, k⟩ := d
      obtain ⟨hw, hk⟩ := h (w, k) List.mem_cons_self
      rw [spell_cons, List.append_assoc, List.append_assoc, pathNames_between w hk,
        pathNames_word hw.1 hw.2, ih (fun d hd => h d (List.mem_cons_of_mem _ hd))]
      rfl

/-- A name at the head is no slash. -/
theorem head_spell (h : Spelled dirs) (hw : IsName w) (x : List UInt8) :
    (spell 0 dirs ++ (w ++ x)).head? ≠ some 47 := by
  cases dirs with
  | nil =>
      show (w ++ x).head? ≠ some 47
      rw [List.head?_append_of_ne_nil _ hw.1]
      exact fun heq => hw.2 (List.mem_of_mem_head? heq)
  | cons d ds =>
      obtain ⟨v, k⟩ := d
      obtain ⟨hv, -⟩ := h (v, k) List.mem_cons_self
      rw [spell_cons, List.append_assoc, List.head?_append_of_ne_nil _ hv.1]
      exact fun heq => hv.2 (List.mem_of_mem_head? heq)

theorem start_spell (fs : FileSys) (h : Spelled dirs) (hw : IsName w) (lead : Nat) :
    fs.start (spell lead dirs ++ w) = fs.startOf lead := by
  unfold FileSys.start FileSys.startOf
  cases lead with
  | zero =>
      have hhead := head_spell h hw []
      rw [List.append_nil] at hhead
      rw [if_neg hhead, if_pos rfl]
  | succ lead =>
      rw [spell_lead, List.replicate_succ, List.cons_append, List.cons_append, List.head?_cons,
        if_pos rfl, if_neg (Nat.succ_ne_zero lead)]

theorem last_spell (hw : IsName w) (x : List UInt8) : (x ++ w).getLast? ≠ some 47 := by
  rw [List.getLast?_append_of_ne_nil _ hw.1]
  exact fun heq => hw.2 (List.mem_of_mem_getLast? heq)

theorem resolve_spell (fs : FileSys) (h : Spelled ds) (hw : IsName w) (lead : Nat) :
    fs.resolve (spell lead ds ++ w) = fs.walk (fs.startOf lead) (ds.map Prod.fst ++ [w]) := by
  rw [fs.resolve_eq (List.append_ne_nil_of_right_ne_nil _ hw.1) (last_spell hw _), start_spell fs h hw,
    pathNames_spell h, pathNames_word hw.1 hw.2]

/-- What is asked of each directory of a path. -/
def EachDir (lead : Nat) (dirs : List (List UInt8 × Nat)) (P : List UInt8 → List UInt8 → Nat → Prop) :
    Prop :=
  ∀ ds w k rest, dirs = ds ++ (w, k) :: rest → P (spell lead ds ++ w) w k

theorem eachDir_concat {P : List UInt8 → List UInt8 → Nat → Prop} :
    EachDir lead (ds ++ [(w, k)]) P ↔ EachDir lead ds P ∧ P (spell lead ds ++ w) w k := by
  constructor
  · intro h
    refine ⟨fun ds' w' k' rest heq => h ds' w' k' (rest ++ [(w, k)]) ?_, h ds w k [] rfl⟩
    rw [heq, List.append_assoc, List.cons_append]
  · rintro ⟨h, hlast⟩ ds' w' k' rest heq
    rcases List.eq_nil_or_concat' rest with rfl | ⟨rest', d, rfl⟩
    · obtain ⟨hds, hd⟩ := List.append_inj' heq rfl
      cases hd
      rw [← hds]
      exact hlast
    · rw [← List.cons_append, ← List.append_assoc] at heq
      obtain ⟨hds, -⟩ := List.append_inj' heq rfl
      exact h ds' w' k' rest' hds

/-- A missing directory that one slash follows, and that is new. -/
def PlainIfMissing (fs : FileSys) (q w : List UInt8) (k : Nat) : Prop :=
  fs.resolve q = none → k = 1 ∧ w ≠ [46] ∧ w ≠ [46, 46]

/-- An existing directory is open. -/
def OpenIfFound (fs : FileSys) (q : List UInt8) : Prop :=
  ∀ e, fs.resolve q = some e → fs.isDir e = true ∧ fs.accessible e = true

/-- What the levels of the directories `dirs` bring about. -/
structure Made (fs : FileSys) (lead : Nat) (dirs : List (List UInt8 × Nat)) (r : Int × FileSys) :
    Prop where
  ret : r.1 = 0 ↔ EachDir lead dirs (PlainIfMissing fs)
  extend : r.1 = 0 → fs.Extends r.2
  dir : r.1 = 0 → ∃ e, r.2.walk (fs.startOf lead) (dirs.map Prod.fst) = some e ∧ r.2.isDir e = true
  same : r.1 = 0 → fs.walk (fs.startOf lead) (dirs.map Prod.fst) ≠ none → r.2 = fs
  empty : r.1 = 0 → fs.walk (fs.startOf lead) (dirs.map Prod.fst) = none →
    ∀ e, r.2.walk (fs.startOf lead) (dirs.map Prod.fst) = some e →
      ∀ c, c ≠ [46] → c ≠ [46, 46] → r.2.entry e c = none

theorem mkdirAfter_of_ne {q : List UInt8} {r : Int × FileSys} (h : r.1 ≠ 0) :
    mkdirAfter q r = (-1, r.2) := if_neg h

theorem mkdirAfter_none {q : List UInt8} {r : Int × FileSys} (hmk : r.2.mkdir q = none) :
    mkdirAfter q r = (-1, r.2) := by
  unfold mkdirAfter
  rw [hmk, ite_self]

theorem mkdirAfter_some {q : List UInt8} {r : Int × FileSys} {fs : FileSys} (h : r.1 = 0)
    (hmk : r.2.mkdir q = some fs) : mkdirAfter q r = (0, fs) := by
  unfold mkdirAfter
  rw [if_pos h, hmk]

theorem mkdirAfter_fail {q : List UInt8} {r : Int × FileSys} (h : r.1 ≠ 0) (n : Nat) :
    ((mkdirAfter q)^[n] r).1 ≠ 0 := by
  induction n with
  | zero => exact h
  | succ n ih =>
      rw [Function.iterate_succ_apply', mkdirAfter_of_ne ih]
      show (-1 : Int) ≠ 0
      decide

/-- The directory that `mkdir` has just made cannot be made again. -/
theorem mkdirAfter_again {q : List UInt8} {r : Int × FileSys} {fs : FileSys}
    (hret : r.1 = 0) (hmk : r.2.mkdir q = some fs) (hagain : fs.mkdir q = none) (n : Nat) :
    ((mkdirAfter q)^[n + 1] r).1 = 0 ↔ n = 0 := by
  have htwo : mkdirAfter q (0, fs) = (-1, fs) := mkdirAfter_none hagain
  rw [Function.iterate_succ_apply, mkdirAfter_some hret hmk]
  cases n with
  | zero => exact ⟨fun _ => rfl, fun _ => rfl⟩
  | succ n =>
      rw [Function.iterate_succ_apply, htwo]
      exact ⟨fun h => absurd h (mkdirAfter_fail (show (-1 : Int) ≠ 0 by decide) n), fun h => absurd h (Nat.succ_ne_zero n)⟩

/-- One more directory that does not exist. -/
theorem Made.missing {fs : FileSys} {r : Int × FileSys} (h : Made fs lead ds r) (hds : Spelled ds)
    (hw : IsName w) (hnone : fs.resolve (spell lead ds ++ w) = none) (k : Nat) :
    Made fs lead (ds ++ [(w, k + 1)]) ((mkdirAfter (spell lead ds ++ w))^[k + 1] r) := by
  have hnames : pathNames (spell lead ds ++ w) = ds.map Prod.fst ++ [w] := by
    rw [pathNames_spell hds, pathNames_word hw.1 hw.2]
  have hwalk : fs.walk (fs.startOf lead) (ds.map Prod.fst ++ [w]) = none := by
    rw [← resolve_spell fs hds hw]
    exact hnone
  have hmap : (ds ++ [(w, k + 1)]).map Prod.fst = ds.map Prod.fst ++ [w] := List.map_append
  have hcond : EachDir lead (ds ++ [(w, k + 1)]) (PlainIfMissing fs)
      ↔ EachDir lead ds (PlainIfMissing fs) ∧ k = 0 ∧ w ≠ [46] ∧ w ≠ [46, 46] := by
    rw [eachDir_concat]
    refine and_congr_right fun _ => ⟨fun hp => ?_, fun hp _ => ?_⟩
    · obtain ⟨hk, hdot⟩ := hp hnone
      exact ⟨by omega, hdot⟩
    · exact ⟨by omega, hp.2⟩
  by_cases hret : r.1 = 0
  · obtain ⟨e, he, hdir⟩ := h.dir hret
    have hext := h.extend hret
    have hstart : r.2.walk (r.2.start (spell lead ds ++ w)) (ds.map Prod.fst) = some e := by
      rw [hext.start, start_spell fs hds hw]
      exact he
    have hmk := r.2.mkdir_eq hnames hstart
    by_cases hfree : r.2.entry e w = none
    · -- the directory is made
      rw [dif_pos ⟨hdir, hfree⟩] at hmk
      have hnew : w ≠ [46] ∧ w ≠ [46, 46] := by
        obtain ⟨hdot, u, hdotdot⟩ := r.2.dots e hdir
        refine ⟨?_, ?_⟩
        · rintro rfl
          cases hfree.symm.trans hdot
        · rintro rfl
          cases hfree.symm.trans hdotdot
      have hext' := hext.trans (FileSys.addDir_extends hdir hfree)
      have hfound : (r.2.addDir e w hdir hfree).walk (fs.startOf lead) (ds.map Prod.fst ++ [w])
          = some r.2.next := by
        rw [FileSys.walk_concat, (FileSys.addDir_extends hdir hfree).walk he,
          Option.bind_some, FileSys.addDir_entry hdir hfree]
      have hagain : (r.2.addDir e w hdir hfree).mkdir (spell lead ds ++ w) = none := by
        have hstart' : (r.2.addDir e w hdir hfree).walk
            ((r.2.addDir e w hdir hfree).start (spell lead ds ++ w)) (ds.map Prod.fst) = some e := by
          rw [(FileSys.addDir_extends hdir hfree).start]
          exact (FileSys.addDir_extends hdir hfree).walk hstart
        rw [FileSys.mkdir_eq hnames hstart', dif_neg]
        rw [FileSys.addDir_entry hdir hfree]
        exact fun hc => by cases hc.2
      have hzero := mkdirAfter_again hret hmk hagain k
      refine ⟨?_, ?_, ?_, ?_, ?_⟩
      · rw [hzero, hcond]
        exact ⟨fun hk => ⟨h.ret.1 hret, hk, hnew⟩, fun hp => hp.2.1⟩
      all_goals
        intro hr
        obtain rfl := hzero.1 hr
        rw [Function.iterate_one, mkdirAfter_some hret hmk]
      · exact hext'
      all_goals rw [hmap]
      · exact ⟨r.2.next, hfound, FileSys.addDir_isDir hdir hfree⟩
      · exact fun hfound' => absurd hwalk hfound'
      · intro _ e' he' c hc hc'
        cases hfound.symm.trans he'
        exact FileSys.addDir_empty hdir hfree hc hc'
    · -- the name is there already: it is `.` or `..`
      rw [dif_neg fun hc => hfree hc.2] at hmk
      have hfail : ((mkdirAfter (spell lead ds ++ w))^[k + 1] r).1 ≠ 0 := by
        rw [Function.iterate_succ_apply, mkdirAfter_none hmk]
        exact mkdirAfter_fail (show (-1 : Int) ≠ 0 by decide) k
      have hdots : ¬ (w ≠ [46] ∧ w ≠ [46, 46]) := by
        rintro ⟨hdot, hdotdot⟩
        cases hold : fs.walk (fs.startOf lead) (ds.map Prod.fst) with
        | none => exact hfree (h.empty hret hold e he w hdot hdotdot)
        | some e' =>
            have hsame := h.same hret (by rw [hold]; exact Option.some_ne_none e')
            rw [hsame] at he hfree
            rw [FileSys.walk_concat, he, Option.bind_some] at hwalk
            exact hfree hwalk
      refine ⟨?_, fun hr => absurd hr hfail, fun hr => absurd hr hfail, fun hr => absurd hr hfail,
        fun hr => absurd hr hfail⟩
      rw [hcond]
      exact ⟨fun hr => absurd hr hfail, fun hp => absurd hp.2.2 hdots⟩
  · have hfail := mkdirAfter_fail (q := spell lead ds ++ w) hret (k + 1)
    refine ⟨?_, fun hr => absurd hr hfail, fun hr => absurd hr hfail, fun hr => absurd hr hfail,
      fun hr => absurd hr hfail⟩
    rw [hcond]
    exact ⟨fun hr => absurd hr hfail, fun hp => absurd (h.ret.2 hp.1) hret⟩

/-- No directory, and so nothing to do. -/
theorem Made.nil (fs : FileSys) (lead : Nat) : Made fs lead [] (0, fs) := by
  have hdir : fs.isDir (fs.startOf lead) = true := by
    unfold FileSys.startOf
    split
    · exact fs.cwd_dir
    · exact fs.root_dir
  refine ⟨⟨fun _ => ?_, fun _ => rfl⟩, fun _ => FileSys.Extends.refl fs, fun _ => ⟨_, rfl, hdir⟩,
    fun _ _ => rfl, fun _ hnone => nomatch hnone⟩
  intro ds w k rest heq
  exact absurd heq.symm (List.append_ne_nil_of_right_ne_nil _ (List.cons_ne_nil _ _))

/-- The last directory exists, and so do those before it. -/
theorem Made.found {fs : FileSys} (hds : Spelled ds) (hw : IsName w) {e : Nat}
    (he : fs.resolve (spell lead ds ++ w) = some e) (hdir : fs.isDir e = true) (k : Nat) :
    Made fs lead (ds ++ [(w, k)]) (0, fs) := by
  have hmap : (ds ++ [(w, k)]).map Prod.fst = ds.map Prod.fst ++ [w] := List.map_append
  have hwalk : fs.walk (fs.startOf lead) ((ds ++ [(w, k)]).map Prod.fst) = some e := by
    rw [hmap, ← resolve_spell fs hds hw]
    exact he
  refine ⟨⟨fun _ => ?_, fun _ => rfl⟩, fun _ => FileSys.Extends.refl fs, fun _ => ⟨e, hwalk, hdir⟩,
    fun _ _ => rfl, fun _ hnone => (by cases hnone.symm.trans hwalk)⟩
  intro ds' w' k' rest heq hnone
  -- the way to the last directory passes through every other
  have hds' : Spelled ds' ∧ IsName w' := by
    have hin : ∀ d ∈ ds' ++ (w', k') :: rest, IsName d.1 := by
      intro d hd
      rw [← heq] at hd
      rcases List.mem_append.1 hd with hd | hd
      · exact (hds d hd).1
      · rw [List.mem_singleton.1 hd]
        exact hw
    refine ⟨fun d hd => ⟨hin d (List.mem_append_left _ hd), ?_⟩,
      hin (w', k') (List.mem_append_right _ List.mem_cons_self)⟩
    rcases List.eq_nil_or_concat' rest with rfl | ⟨rest', d', rfl⟩
    · obtain ⟨hl, -⟩ := List.append_inj' heq rfl
      exact (hds d (hl ▸ hd)).2
    · rw [← List.cons_append, ← List.append_assoc] at heq
      obtain ⟨hl, -⟩ := List.append_inj' heq rfl
      exact (hds d (hl ▸ List.mem_append_left _ hd)).2
  rw [resolve_spell fs hds'.1 hds'.2] at hnone
  rw [heq, List.map_append, List.map_cons, ← List.singleton_append (l := rest.map Prod.fst),
    ← List.append_assoc, FileSys.walk_append, hnone] at hwalk
  cases hwalk

/-- **Every path**: the levels end, whatever the last name, and make the directories. -/
theorem createParentDir_made {fs : FileSys} (hroot : fs.IsOpen [47]) (hcwd : fs.IsOpen [46])
    (lead : Nat) (h : Spelled dirs) (hz : 0 ∉ spell lead dirs)
    (hopen : EachDir lead dirs (fun q _ _ => OpenIfFound fs q)) :
    ∃ r, Made fs lead dirs r ∧ ∀ name post fuel, IsName name → (∀ c ∈ post, isSlash c = true) →
      (dirs.map Prod.snd).sum + 1 ≤ fuel →
      createParentDir fuel fs (spell lead dirs ++ name ++ post) = some r := by
  have hstop : ∀ {dirs : List (List UInt8 × Nat)} {name post : List UInt8} {fuel : Nat},
      fs.IsOpen (cstr (dirname (spell lead dirs ++ name ++ post) false)) → 1 ≤ fuel →
      createParentDir fuel fs (spell lead dirs ++ name ++ post) = some (0, fs) := by
    intro dirs name post fuel hparent hfuel
    obtain ⟨fuel, rfl⟩ := Nat.exists_eq_add_of_le' hfuel
    unfold createParentDir
    simp only [(fs.isOpen_iff _).2 hparent, if_true]
  induction dirs using List.reverseRecOn with
  | nil =>
      refine ⟨(0, fs), Made.nil fs lead, fun name post fuel hname hpost hfuel => hstop ?_ hfuel⟩
      rw [cstr_dirname (h.lastAt hname hpost lead) hz]
      cases lead with
      | zero => exact hcwd
      | succ lead =>
          have hslash : dirPart (spell (lead + 1) []) = [47] := by
            unfold dirPart
            rw [spell_lead, List.replicate_succ, List.cons_append, if_neg (List.cons_ne_nil _ _), if_pos]
            rw [List.all_eq_true]
            intro c hc
            rw [← List.cons_append, ← List.replicate_succ, spell, List.flatMap_nil, List.replicate_zero,
              List.append_nil, List.append_nil] at hc
            rw [List.eq_of_mem_replicate hc]
            rfl
          rw [hslash]
          exact hroot
  | append_singleton ds d ih =>
      obtain ⟨w, k⟩ := d
      obtain ⟨hds, hw, hk⟩ := h.of_concat
      obtain ⟨k, rfl⟩ := Nat.exists_eq_add_of_le' hk
      obtain ⟨hopen, hlast⟩ := eachDir_concat.1 hopen
      rw [spell_concat, ← List.append_assoc] at hz
      have hzw : 0 ∉ spell lead ds ++ w := fun hmem => hz (List.mem_append_left _ hmem)
      obtain ⟨r, hmade, hrun⟩ := ih hds (fun hmem => hzw (List.mem_append_left _ hmem)) hopen
      cases hfind : fs.resolve (spell lead ds ++ w) with
      | none =>
          refine ⟨_, hmade.missing hds hw hfind k, fun name post fuel hname hpost hfuel => ?_⟩
          have hlevels := createParentDir_levels hds hw hzw hfind hrun k [] name post fuel (Or.inl rfl)
            List.not_mem_nil hname hpost
          rw [List.append_nil] at hlevels
          refine hlevels ?_
          rw [List.map_append, List.sum_append, List.map_singleton, List.sum_singleton] at hfuel
          omega
      | some e =>
          have he := hlast e hfind
          refine ⟨(0, fs), Made.found hds hw hfind he.1 (k + 1),
            fun name post fuel hname hpost hfuel => hstop ?_ (by omega)⟩
          cases name with
          | nil => exact absurd rfl hname.1
          | cons c tail =>
              rw [dirname_spell h hname hpost lead, cstr_cut hzw]
              exact ⟨e, hfind, he.1, he.2⟩

/-! ## §5. Every path is spelled in one way. -/

/-- Slashes in front of something else. -/
theorem slashes_inj {a b : Nat} {x y : List UInt8}
    (h : List.replicate a 47 ++ x = List.replicate b 47 ++ y) (hx : x.head? ≠ some 47)
    (hy : y.head? ≠ some 47) : a = b ∧ x = y := by
  induction a generalizing b with
  | zero =>
      cases b with
      | zero => exact ⟨rfl, h⟩
      | succ b =>
          have hx' : x = List.replicate (b + 1) 47 ++ y := h
          rw [hx', List.replicate_succ] at hx
          exact absurd rfl hx
  | succ a ih =>
      cases b with
      | zero =>
          have hy' : List.replicate (a + 1) 47 ++ x = y := h
          rw [← hy', List.replicate_succ] at hy
          exact absurd rfl hy
      | succ b =>
          rw [List.replicate_succ, List.replicate_succ, List.cons_append, List.cons_append] at h
          obtain ⟨hab, hxy⟩ := ih (List.cons.inj h).2
          exact ⟨congrArg Nat.succ hab, hxy⟩

/-- A name in front of slashes, or at the end. -/
theorem names_inj {v w x y : List UInt8} (h : v ++ x = w ++ y) (hv : 47 ∉ v) (hw : 47 ∉ w)
    (hx : x = [] ∨ x.head? = some 47) (hy : y = [] ∨ y.head? = some 47) : v = w ∧ x = y := by
  have htake : ∀ {u z : List UInt8}, 47 ∉ u → z = [] ∨ z.head? = some 47 →
      (u ++ z).takeWhile (fun c => c != 47) = u := by
    intro u z hu hz
    have hall : ∀ c ∈ u, (c != 47) = true := fun c hc => bne_iff_ne.2 fun heq => hu (heq ▸ hc)
    rw [List.takeWhile_append_of_pos hall]
    rcases hz with rfl | hz
    · exact List.append_nil u
    · cases z with
      | nil => cases hz
      | cons c z =>
          cases hz
          exact List.append_nil u
  have hvw : v = w := by rw [← htake hv hx, h, htake hw hy]
  subst hvw
  exact ⟨rfl, List.append_cancel_left h⟩

theorem head_slashes {k : Nat} (hk : 1 ≤ k) (x : List UInt8) :
    (List.replicate k 47 ++ x).head? = some 47 := by
  obtain ⟨j, rfl⟩ := Nat.exists_eq_add_of_le' hk
  rfl

theorem slashes_end (t : Nat) :
    List.replicate t (47 : UInt8) = [] ∨ (List.replicate t (47 : UInt8)).head? = some 47 := by
  cases t with
  | zero => exact Or.inl rfl
  | succ t => exact Or.inr rfl

/-- A name alone is no directory with a name behind it. -/
theorem name_ne_spell {u v n : List UInt8} {s s' : Nat} (hu : IsName u) (h : Spelled ((v, k) :: ds))
    (hn : IsName n) : ([] : List UInt8) ++ (u ++ List.replicate s 47)
      ≠ spell 0 ((v, k) :: ds) ++ (n ++ List.replicate s' 47) := by
  intro heq
  obtain ⟨hv, hk⟩ := h (v, k) List.mem_cons_self
  rw [spell_cons, List.nil_append, List.append_assoc, List.append_assoc] at heq
  obtain ⟨-, hrest⟩ := names_inj heq hu.2 hv.2 (slashes_end s) (Or.inr (head_slashes hk _))
  rw [← List.append_nil (List.replicate s 47)] at hrest
  obtain ⟨-, hnil⟩ := slashes_inj hrest (fun h => nomatch h)
    (head_spell (fun d hd => h d (List.mem_cons_of_mem _ hd)) hn _)
  exact List.append_ne_nil_of_right_ne_nil _ (List.append_ne_nil_of_left_ne_nil hn.1 _) hnil.symm

/-- **One spelling.** -/
theorem spell_inj {ds' : List (List UInt8 × Nat)} {name name' : List UInt8} {t t' : Nat}
    (hds : Spelled ds) (hname : IsName name) (hds' : Spelled ds') (hname' : IsName name') :
    ∀ {lead lead' : Nat}, spell lead ds ++ (name ++ List.replicate t 47)
        = spell lead' ds' ++ (name' ++ List.replicate t' 47) →
      lead = lead' ∧ ds = ds' := by
  have hlead : ∀ {ds ds' : List (List UInt8 × Nat)} {lead lead' : Nat}, Spelled ds → Spelled ds' →
      spell lead ds ++ (name ++ List.replicate t 47)
        = spell lead' ds' ++ (name' ++ List.replicate t' 47) →
      lead = lead' ∧ spell 0 ds ++ (name ++ List.replicate t 47)
        = spell 0 ds' ++ (name' ++ List.replicate t' 47) := by
    intro ds ds' lead lead' hds hds' heq
    rw [spell_lead lead ds, spell_lead lead' ds', List.append_assoc, List.append_assoc] at heq
    exact slashes_inj heq (head_spell hds hname _) (head_spell hds' hname' _)
  have hdirs : ∀ {ds ds' : List (List UInt8 × Nat)}, Spelled ds → Spelled ds' →
      spell 0 ds ++ (name ++ List.replicate t 47)
        = spell 0 ds' ++ (name' ++ List.replicate t' 47) → ds = ds' := by
    intro ds
    induction ds with
    | nil =>
        intro ds' _ hds' heq
        cases ds' with
        | nil => rfl
        | cons d' ds' =>
            exact absurd heq (name_ne_spell hname hds' hname')
    | cons d ds ih =>
        intro ds' hds hds' heq
        obtain ⟨hw, hk⟩ := hds d List.mem_cons_self
        cases ds' with
        | nil => exact absurd heq.symm (name_ne_spell hname' hds hname)
        | cons d' ds' =>
            obtain ⟨hw', hk'⟩ := hds' d' List.mem_cons_self
            have hds := fun d hd => hds d (List.mem_cons_of_mem _ hd)
            have hds' := fun d hd => hds' d (List.mem_cons_of_mem _ hd)
            rw [spell_cons, spell_cons, List.append_assoc, List.append_assoc, List.append_assoc,
              List.append_assoc] at heq
            obtain ⟨hwords, hrest⟩ := names_inj heq hw.2 hw'.2 (Or.inr (head_slashes hk _))
              (Or.inr (head_slashes hk' _))
            obtain ⟨hks, hrest⟩ := slashes_inj hrest (head_spell hds hname _)
              (head_spell hds' hname' _)
            rw [ih hds hds' hrest, Prod.ext hwords hks]
  intro lead lead' heq
  obtain ⟨hl, hrest⟩ := hlead hds hds' heq
  exact ⟨hl, hdirs hds hds' hrest⟩

/-- **Every path is spelled.** -/
theorem exists_spell (p : List UInt8) : ∃ lead dirs rest,
    p = spell lead dirs ++ rest ∧ Spelled dirs ∧ 47 ∉ rest := by
  induction p with
  | nil => exact ⟨0, [], [], rfl, fun d hd => absurd hd List.not_mem_nil, List.not_mem_nil⟩
  | cons c p ih =>
      obtain ⟨lead, dirs, rest, rfl, hdirs, hrest⟩ := ih
      by_cases hc : c = 47
      · subst hc
        exact ⟨lead + 1, dirs, rest, rfl, hdirs, hrest⟩
      · cases lead with
        | succ lead =>
            refine ⟨0, ([c], lead + 1) :: dirs, rest, ?_, ?_, hrest⟩
            · rw [spell_cons, spell_lead (lead + 1) dirs]
              rfl
            · intro d hd
              rcases List.mem_cons.1 hd with rfl | hd
              · exact ⟨⟨List.cons_ne_nil _ _, fun h => hc (List.mem_singleton.1 h).symm⟩,
                  Nat.succ_pos lead⟩
              · exact hdirs d hd
        | zero =>
            cases dirs with
            | nil =>
                refine ⟨0, [], c :: rest, rfl, hdirs, ?_⟩
                intro hmem
                rcases List.mem_cons.1 hmem with h | h
                · exact hc h.symm
                · exact hrest h
            | cons d dirs =>
                obtain ⟨w, k⟩ := d
                obtain ⟨hw, hk⟩ := hdirs (w, k) List.mem_cons_self
                refine ⟨0, (c :: w, k) :: dirs, rest, ?_, ?_, hrest⟩
                · rw [spell_cons, spell_cons]
                  rfl
                · intro d hd
                  rcases List.mem_cons.1 hd with rfl | hd
                  · refine ⟨⟨List.cons_ne_nil _ _, fun hmem => ?_⟩, hk⟩
                    rcases List.mem_cons.1 hmem with h | h
                    · exact hc h.symm
                    · exact hw.2 h
                  · exact hdirs d (List.mem_cons_of_mem _ hd)

theorem exists_spell_name {p : List UInt8} (h : ∃ c ∈ p, c ≠ 47) : ∃ lead dirs name t,
    p = spell lead dirs ++ (name ++ List.replicate t 47) ∧ Spelled dirs ∧ IsName name := by
  obtain ⟨lead, dirs, rest, rfl, hdirs, hrest⟩ := exists_spell p
  by_cases hne : rest = []
  · subst hne
    rcases List.eq_nil_or_concat' dirs with rfl | ⟨ds, ⟨w, k⟩, rfl⟩
    · -- nothing but slashes
      obtain ⟨c, hc, hslash⟩ := h
      rw [spell, List.flatMap_nil, List.append_nil, List.append_nil] at hc
      exact absurd (List.eq_of_mem_replicate hc) hslash
    · obtain ⟨hds, hw, -⟩ := hdirs.of_concat
      exact ⟨lead, ds, w, k, by rw [List.append_nil, spell_concat], hds, hw⟩
  · exact ⟨lead, dirs, rest, 0, by rw [List.replicate_zero, List.append_nil], hdirs, hne, hrest⟩

/-! ## §6. The result. -/

/-- `q` is a proper ancestor of the path `p`, as `p` spells it, and `k` slashes follow. -/
def AncestorAt (p q : List UInt8) (k : Nat) : Prop :=
  ∃ r, p = q ++ (List.replicate k 47 ++ r) ∧ 1 ≤ k ∧ q ≠ [] ∧ q.getLast? ≠ some 47 ∧ r ≠ []
    ∧ r.head? ≠ some 47

/-- **The ancestors** are the directories of the spelling. -/
theorem ancestorAt_iff {t : Nat} (hdirs : Spelled dirs) (hname : IsName name) {q : List UInt8} :
    AncestorAt (spell lead dirs ++ (name ++ List.replicate t 47)) q k
      ↔ ∃ ds w rest, dirs = ds ++ (w, k) :: rest ∧ q = spell lead ds ++ w := by
  constructor
  · rintro ⟨r, hp, hk, hq, hqlast, hr, hrhead⟩
    have hqname : ∃ c ∈ q, c ≠ 47 := by
      obtain ⟨c, hc⟩ := Option.ne_none_iff_exists'.1 (fun h => hq (List.getLast?_eq_none_iff.1 h))
      exact ⟨c, List.mem_of_mem_getLast? hc, fun heq => hqlast (heq ▸ hc)⟩
    have hrname : ∃ c ∈ r, c ≠ 47 := by
      obtain ⟨c, hc⟩ := Option.ne_none_iff_exists'.1 (fun h => hr (List.head?_eq_none_iff.1 h))
      exact ⟨c, List.mem_of_mem_head? hc, fun heq => hrhead (heq ▸ hc)⟩
    obtain ⟨l₁, d₁, n₁, t₁, rfl, hd₁, hn₁⟩ := exists_spell_name hqname
    obtain ⟨l₂, d₂, n₂, t₂, rfl, hd₂, hn₂⟩ := exists_spell_name hrname
    cases t₁ with
    | succ t₁ =>
        rw [List.replicate_succ', ← List.append_assoc, ← List.append_assoc, List.getLast?_concat] at hqlast
        exact absurd rfl hqlast
    | zero =>
        cases l₂ with
        | succ l₂ =>
            rw [spell_lead, List.replicate_succ] at hrhead
            exact absurd rfl hrhead
        | zero =>
            have hall : Spelled (d₁ ++ (n₁, k) :: d₂) := by
              intro d hd
              rcases List.mem_append.1 hd with hd | hd
              · exact hd₁ d hd
              · rcases List.mem_cons.1 hd with rfl | hd
                · exact ⟨hn₁, hk⟩
                · exact hd₂ d hd
            have hspell : spell lead dirs ++ (name ++ List.replicate t 47)
                = spell l₁ (d₁ ++ (n₁, k) :: d₂) ++ (n₂ ++ List.replicate t₂ 47) := by
              rw [hp, spell_append, spell_cons]
              simp
            obtain ⟨rfl, rfl⟩ := spell_inj hdirs hname hall hn₂ hspell
            exact ⟨d₁, n₁, d₂, rfl, by rw [List.replicate_zero, List.append_nil]⟩
  · rintro ⟨ds, w, rest, rfl, rfl⟩
    obtain ⟨hw, hk⟩ := hdirs (w, k) (List.mem_append_right _ List.mem_cons_self)
    have hrest : Spelled rest := fun d hd =>
      hdirs d (List.mem_append_right _ (List.mem_cons_of_mem _ hd))
    refine ⟨spell 0 rest ++ (name ++ List.replicate t 47), ?_, hk,
      List.append_ne_nil_of_right_ne_nil _ hw.1, last_spell hw _,
      List.append_ne_nil_of_right_ne_nil _ (List.append_ne_nil_of_left_ne_nil hname.1 _),
      head_spell hrest hname _⟩
    rw [spell_append, spell_cons]
    simp

theorem basename_spell (h : Spelled ds) (hw : IsName w) (lead : Nat) :
    basename (spell lead ds ++ w) = w := by
  have hat : LastAt (spell lead ds) w [] :=
    h.lastAt hw (fun c hc => absurd hc List.not_mem_nil) lead
  have hbase := basename_split hat
  rw [List.append_nil] at hbase
  exact hbase

/-- What holds of each ancestor holds of each directory of the spelling. -/
theorem eachDir_iff {t : Nat} (hdirs : Spelled dirs) (hname : IsName name)
    {P : List UInt8 → List UInt8 → Nat → Prop} :
    (∀ q k, AncestorAt (spell lead dirs ++ (name ++ List.replicate t 47)) q k → P q (basename q) k)
      ↔ EachDir lead dirs P := by
  have hbase : ∀ {ds w k rest}, dirs = ds ++ (w, k) :: rest → basename (spell lead ds ++ w) = w := by
    intro ds w k rest heq
    refine basename_spell (fun d hd => hdirs d ?_) (hdirs (w, k) ?_).1 lead
    · exact heq ▸ List.mem_append_left _ hd
    · exact heq ▸ List.mem_append_right _ List.mem_cons_self
  constructor
  · intro h ds w k rest heq
    have hP := h _ k ((ancestorAt_iff hdirs hname).2 ⟨ds, w, rest, heq, rfl⟩)
    rwa [hbase heq] at hP
  · intro h q k hq
    obtain ⟨ds, w, rest, heq, rfl⟩ := (ancestorAt_iff hdirs hname).1 hq
    rw [hbase heq]
    exact h ds w k rest heq

theorem length_spell (lead : Nat) (dirs : List (List UInt8 × Nat)) :
    (dirs.map Prod.snd).sum ≤ (spell lead dirs).length := by
  rw [spell_lead, List.length_append]
  induction dirs with
  | nil => exact Nat.zero_le _
  | cons d ds ih =>
      obtain ⟨w, k⟩ := d
      rw [spell_cons, List.map_cons, List.sum_cons]
      simp only [List.length_append, List.length_replicate] at ih ⊢
      omega

/-- Every directory on the way exists. -/
theorem Made.eachDir {fs : FileSys} {r : Int × FileSys} (h : Made fs lead dirs r) (hret : r.1 = 0)
    (hdirs : Spelled dirs) :
    EachDir lead dirs (fun q _ _ => ∃ e, r.2.resolve q = some e ∧ r.2.isDir e = true) := by
  intro ds w k rest heq
  obtain ⟨e, he, hdir⟩ := h.dir hret
  have hext := h.extend hret
  have hstart : r.2.startOf lead = fs.startOf lead := by
    unfold FileSys.startOf
    rw [hext.root, hext.cwd]
  have hds : Spelled ds := fun d hd => hdirs d (heq ▸ List.mem_append_left _ hd)
  have hw : IsName w := (hdirs (w, k) (heq ▸ List.mem_append_right _ List.mem_cons_self)).1
  rw [heq, List.map_append, List.map_cons, ← List.singleton_append (l := rest.map Prod.fst),
    ← List.append_assoc, FileSys.walk_append] at he
  obtain ⟨e', he', hrest⟩ := Option.bind_eq_some_iff.1 he
  refine ⟨e', ?_, ?_⟩
  · rw [resolve_spell r.2 hds hw, hstart]
    exact he'
  · cases rest with
    | nil =>
        cases hrest
        exact hdir
    | cons d rest =>
        -- only a directory leads on
        by_contra hno
        have hnext : (r.2.entry e' d.1).bind (fun e => r.2.walk e (rest.map Prod.fst)) = some e := hrest
        rw [r.2.file e' d.1 (Bool.not_eq_true _ ▸ hno)] at hnext
        cases hnext

/-- **Where the missing ancestors are created**: each of them is followed by one slash, and
is named neither `.` nor `..`. -/
theorem create_parent_dir_iff (path : List UInt8) (hz : 0 ∉ path) (hname : ∃ c ∈ path, c ≠ 47)
    (fs : FileSys) (hroot : fs.IsOpen [47]) (hcwd : fs.IsOpen [46])
    (hopen : ∀ q k, AncestorAt path q k → ∀ e, fs.resolve q = some e →
      fs.isDir e = true ∧ fs.accessible e = true) :
    ∃ ret fs', (∀ k, createParentDir (path.length + 1 + k) fs path = some (ret, fs'))
      ∧ ((ret = 0 ∧ ∀ q k, AncestorAt path q k → ∃ e, fs'.resolve q = some e ∧ fs'.isDir e = true)
        ↔ ∀ q k, AncestorAt path q k → fs.resolve q = none →
          k = 1 ∧ basename q ≠ [46] ∧ basename q ≠ [46, 46]) := by
  obtain ⟨lead, dirs, name, t, rfl, hdirs, hname⟩ := exists_spell_name hname
  have hopen' : EachDir lead dirs (fun q _ _ => OpenIfFound fs q) :=
    (eachDir_iff hdirs hname (P := fun q _ _ => OpenIfFound fs q)).1 hopen
  obtain ⟨r, hmade, hrun⟩ := createParentDir_made hroot hcwd lead hdirs
    (fun hmem => hz (List.mem_append_left _ hmem)) hopen'
  refine ⟨r.1, r.2, fun k => ?_, ?_⟩
  · have hlen := length_spell lead dirs
    rw [← List.append_assoc]
    refine hrun name _ _ hname (fun c hc => ?_) ?_
    · rw [List.eq_of_mem_replicate hc]
      rfl
    · rw [List.length_append, List.length_append]
      omega
  · refine Iff.trans ?_ (eachDir_iff hdirs hname (P := PlainIfMissing fs)).symm
    rw [← hmade.ret]
    refine ⟨fun h => h.1, fun hret => ⟨hret, ?_⟩⟩
    exact (eachDir_iff hdirs hname
      (P := fun q _ _ => ∃ e, r.2.resolve q = some e ∧ r.2.isDir e = true)).2
      (hmade.eachDir hret hdirs)

/-- An empty root directory, which is also the working directory. -/
def fileSysEmpty : FileSys where
  root := 0
  cwd := 0
  isDir d := d == 0
  accessible d := d == 0
  entry d c := if d = 0 ∧ (c = [46] ∨ c = [46, 46]) then some 0 else none
  next := 1
  root_dir := rfl
  cwd_dir := rfl
  dots d hd := by
    rw [beq_iff_eq.1 hd]
    exact ⟨rfl, 0, rfl⟩
  file d c hd := if_neg fun h => by
    rw [h.1] at hd
    cases hd
  used d hd := by
    rw [beq_iff_eq.1 hd]
    exact Nat.one_pos
  named d c e he := by
    split at he
    · cases he
      exact Nat.one_pos
    · cases he

theorem fileSysEmpty_walk (cs : List (List UInt8)) : ∀ {e : Nat}, fileSysEmpty.walk 0 cs = some e → e = 0 := by
  induction cs with
  | nil => exact fun h => (Option.some.inj h).symm
  | cons c cs ih =>
      intro e he
      obtain ⟨d, hd, he⟩ := Option.bind_eq_some_iff.1 he
      have hd' : (if 0 = 0 ∧ (c = [46] ∨ c = [46, 46]) then some 0 else none) = some d := hd
      split at hd'
      · cases hd'
        exact ih he
      · cases hd'

theorem fileSysEmpty_open {q : List UInt8} {e : Nat} (he : fileSysEmpty.resolve q = some e) :
    fileSysEmpty.isDir e = true ∧ fileSysEmpty.accessible e = true := by
  have hwalk : fileSysEmpty.walk (fileSysEmpty.start q) (pathNames q) = some e := by
    unfold FileSys.resolve at he
    split at he
    · cases he
    · split at he
      · exact (Option.filter_eq_some_iff.1 he).1
      · exact he
  have hstart : fileSysEmpty.start q = 0 := by
    unfold FileSys.start
    split <;> rfl
  rw [hstart] at hwalk
  rw [fileSysEmpty_walk _ hwalk]
  exact ⟨rfl, rfl⟩

/-- `a//b` with nothing there: `a` is made, and `mkdir` of `a` is called once more. -/
theorem create_parent_dir_slashes : ¬ ∀ path : List UInt8, 0 ∉ path → (∃ c ∈ path, c ≠ 47) →
    ∀ fs : FileSys, fs.IsOpen [47] → fs.IsOpen [46] →
    (∀ q k, AncestorAt path q k → ∀ e, fs.resolve q = some e →
      fs.isDir e = true ∧ fs.accessible e = true) →
    ∃ ret fs', (∀ k, createParentDir (path.length + 1 + k) fs path = some (ret, fs'))
      ∧ ret = 0 ∧ ∀ q k, AncestorAt path q k → ∃ e, fs'.resolve q = some e ∧ fs'.isDir e = true := by
  intro hall
  obtain ⟨ret, fs', hrun, hret, -⟩ := hall [97, 47, 47, 98] (by decide) ⟨97, by decide, by decide⟩
    fileSysEmpty ⟨0, by decide +kernel, rfl, rfl⟩ ⟨0, by decide +kernel, rfl, rfl⟩
    (fun _ _ _ _ he => fileSysEmpty_open he)
  have hcode : (createParentDir 5 fileSysEmpty [97, 47, 47, 98]).map Prod.fst = some (-1) := by
    decide +kernel
  rw [show createParentDir 5 fileSysEmpty [97, 47, 47, 98] = some (ret, fs') from hrun 0, hret] at hcode
  exact absurd (Option.some.inj hcode) (show (0 : Int) ≠ -1 by decide)

/-- `x/y` with nothing there: `x` is made. -/
theorem create_parent_dir_iff_witness :
    ∃ fs', createParentDir 4 fileSysEmpty [120, 47, 121] = some (0, fs')
      ∧ ∃ e, fs'.resolve [120] = some e ∧ fs'.isDir e = true := by
  have hdirs : Spelled [([120], 1)] := by
    intro d hd
    rw [List.mem_singleton.1 hd]
    exact ⟨⟨List.cons_ne_nil _ _, by decide⟩, Nat.le_refl 1⟩
  have hname : IsName [121] := ⟨List.cons_ne_nil _ _, by decide⟩
  obtain ⟨ret, fs', hrun, hiff⟩ := create_parent_dir_iff [120, 47, 121] (by decide)
    ⟨120, by decide, by decide⟩ fileSysEmpty ⟨0, by decide +kernel, rfl, rfl⟩
    ⟨0, by decide +kernel, rfl, rfl⟩ (fun _ _ _ _ he => fileSysEmpty_open he)
  have hplain : EachDir 0 [([120], 1)] (PlainIfMissing fileSysEmpty) := by
    show EachDir 0 ([] ++ [([120], 1)]) (PlainIfMissing fileSysEmpty)
    refine eachDir_concat.2 ⟨fun ds w k rest heq => ?_, fun _ => ⟨rfl, by decide, by decide⟩⟩
    exact absurd heq.symm (List.append_ne_nil_of_right_ne_nil _ (List.cons_ne_nil _ _))
  have hat : AncestorAt (spell 0 [([120], 1)] ++ ([121] ++ List.replicate 0 47)) (spell 0 [] ++ [120]) 1 :=
    (ancestorAt_iff hdirs hname).2 ⟨[], [120], [], rfl, rfl⟩
  obtain ⟨rfl, hmade⟩ := hiff.2 ((eachDir_iff (t := 0) hdirs hname).2 hplain)
  exact ⟨fs', hrun 0, hmade [120] 1 hat⟩

end RedisAgent
