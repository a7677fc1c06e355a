/-
  RedisAgent.File.CreateDir — `create_dir` of file.cpp.

  It is `create_parent_dir`, and one `mkdir` more: the directory itself is the last of the
  ancestors of a longer path, one with a slash behind it, and so the levels of File/Dirs go
  on for one level.

  Main results:
    • `FileSys.mkdir_isOpen` — a directory that was made is open;
    • `create_dir_iff` — which directories are created, and that it can be done again.
-/
import RedisAgent.File.Dirs

namespace RedisAgent

/-! ## §1. The code. -/

/-- `create_dir` -/
def createDir (fuel : Nat) (fs : FileSys) (path : List UInt8) : Option (Int × FileSys) :=
  if fs.isOpen (cstr path) then some (0, fs)
  else if (fs.resolve (cstr path)).isSome then some (-1, fs)
  else (createParentDir fuel fs path).map (mkdirAfter (cstr path))

/-! ## §2. Slashes behind a path. -/

variable {fs : FileSys} {lead t : Nat} {dirs : List (List UInt8 × Nat)} {name : List UInt8}

/-- The names, and where the way begins. -/
theorem slashes_same (fs : FileSys) {p : List UInt8} (hne : p ≠ []) (t : Nat) :
    pathNames (p ++ List.replicate t 47) = pathNames p
      ∧ fs.start (p ++ List.replicate t 47) = fs.start p := by
  refine ⟨pathNames_behind p t, ?_⟩
  unfold FileSys.start
  rw [List.head?_append_of_ne_nil _ hne]

theorem mkdir_slashes (fs : FileSys) {p : List UInt8} (hne : p ≠ []) (t : Nat) :
    fs.mkdir (p ++ List.replicate t 47) = fs.mkdir p := by
  obtain ⟨hnames, hstart⟩ := slashes_same fs hne t
  unfold FileSys.mkdir
  rw [hnames, hstart]

/-- With slashes behind it a path leads to directories only. -/
theorem resolve_slashes (fs : FileSys) {p : List UInt8} (hne : p ≠ []) (hlast : p.getLast? ≠ some 47)
    (t : Nat) : fs.resolve (p ++ List.replicate t 47)
      = if t = 0 then fs.resolve p else (fs.resolve p).filter (fun e => fs.isDir e) := by
  cases t with
  | zero => rw [if_pos rfl, List.replicate_zero, List.append_nil]
  | succ t =>
      obtain ⟨hnames, hstart⟩ := slashes_same fs hne (t + 1)
      have hend : (p ++ List.replicate (t + 1) 47).getLast? = some 47 := by
        rw [List.replicate_succ', ← List.append_assoc, List.getLast?_concat]
      rw [if_neg (Nat.succ_ne_zero t), fs.resolve_eq hne hlast]
      unfold FileSys.resolve
      rw [if_neg (List.append_ne_nil_of_left_ne_nil hne _), if_pos hend, hnames, hstart]

/-! ## §3. The directory itself. -/

/-- **A directory that was made** is open. -/
theorem FileSys.mkdir_isOpen {fs' : FileSys} {p : List UInt8} (hmk : fs.mkdir p = some fs') :
    fs'.IsOpen p := by
  unfold FileSys.mkdir at hmk
  split at hmk
  · cases hmk
  · rename_i c hlast
    split at hmk
    · cases hmk
    · rename_i d hwalk
      obtain ⟨⟨hdir, hfree⟩, hfs⟩ := Option.dite_none_right_eq_some.1 hmk
      cases hfs
      have hne : p ≠ [] := by
        rintro rfl
        rw [pathNames_nil] at hlast
        cases hlast
      have hext := FileSys.addDir_extends hdir hfree
      -- the way to `d`, and the new name
      have hfound : (fs.addDir d c hdir hfree).walk ((fs.addDir d c hdir hfree).start p) (pathNames p)
          = some fs.next := by
        rw [hext.start, ← List.dropLast_append_getLast? c hlast, FileSys.walk_concat,
          hext.walk hwalk, Option.bind_some, FileSys.addDir_entry hdir hfree]
      have hnew := FileSys.addDir_isDir hdir hfree
      refine ⟨fs.next, ?_, hnew, Function.update_self ..⟩
      unfold FileSys.resolve
      rw [if_neg hne]
      split
      · rw [hfound, Option.filter_some, if_pos hnew]
      · exact hfound

theorem mkdirAfter_zero {q : List UInt8} {r : Int × FileSys} (h : (mkdirAfter q r).1 = 0) :
    r.1 = 0 ∧ r.2.mkdir q = some (mkdirAfter q r).2 := by
  have hret : r.1 = 0 := by
    by_contra hne
    rw [mkdirAfter_of_ne hne] at h
    exact absurd h (show (-1 : Int) ≠ 0 by decide)
  cases hmk : r.2.mkdir q with
  | none =>
      rw [mkdirAfter_none hmk] at h
      exact absurd h (show (-1 : Int) ≠ 0 by decide)
  | some fs' => exact ⟨hret, by rw [mkdirAfter_some hret hmk]⟩

/-- `create_dir` on a directory that is there, and one that is not. -/
theorem createDir_open {path : List UInt8} (h : fs.IsOpen (cstr path)) (fuel : Nat) :
    createDir fuel fs path = some (0, fs) := if_pos ((fs.isOpen_iff _).2 h)

theorem createDir_closed {path : List UInt8} (h : ¬ fs.IsOpen (cstr path)) (fuel : Nat) :
    createDir fuel fs path = if (fs.resolve (cstr path)).isSome then some (-1, fs)
      else (createParentDir fuel fs path).map (mkdirAfter (cstr path)) :=
  if_neg fun ho => h ((fs.isOpen_iff _).1 ho)

/-! ## §4. The result. -/

/-- `q` is an ancestor of `path`, or `path` itself without the slashes behind it. -/
def OnTheWay (path q : List UInt8) (k : Nat) : Prop :=
  AncestorAt path q k ∨ (q = path.rdropWhile isSlash ∧ k = 1)

/-- **What `create_dir` can create**: what is there on the way is open, and what is not there is
followed by one slash, and named neither `.` nor `..`. -/
structure Creatable (fs : FileSys) (path : List UInt8) : Prop where
  open_found : OpenIfFound fs (path.rdropWhile isSlash)
  plain : ∀ q k, OnTheWay path q k → PlainIfMissing fs q (basename q) k

/-- The condition, directory by directory. -/
theorem creatable_iff (hdirs : Spelled dirs) (hname : IsName name) (t : Nat) :
    Creatable fs (spell lead dirs ++ (name ++ List.replicate t 47))
      ↔ OpenIfFound fs (spell lead dirs ++ name)
        ∧ EachDir lead (dirs ++ [(name, 1)]) (PlainIfMissing fs) := by
  have hbase : (spell lead dirs ++ (name ++ List.replicate t 47)).rdropWhile isSlash
      = spell lead dirs ++ name := by
    rw [← spell_concat]
    exact rdropWhile_spell hname lead dirs t
  rw [eachDir_concat, ← eachDir_iff (t := t) hdirs hname]
  constructor
  · rintro ⟨hopen, hplain⟩
    rw [hbase] at hopen
    refine ⟨hopen, fun q k hq => hplain q k (Or.inl hq), ?_⟩
    have hself := hplain (spell lead dirs ++ name) 1 (Or.inr ⟨hbase.symm, rfl⟩)
    rwa [basename_spell hdirs hname] at hself
  · rintro ⟨hopen, hplain, hself⟩
    refine ⟨hbase.symm ▸ hopen, ?_⟩
    rintro q k (hq | ⟨rfl, rfl⟩)
    · exact hplain q k hq
    · rw [hbase, basename_spell hdirs hname]
      exact hself

/-- What there is after `create_dir` has returned 0. -/
structure Created (fs : FileSys) (path : List UInt8) (fs' : FileSys) : Prop where
  isOpen : fs'.IsOpen path
  extend : fs.Extends fs'
  /-- once more, and nothing is done -/
  again : ∀ fuel, createDir fuel fs' path = some (0, fs')

theorem Created.intro {fs' : FileSys} {path : List UInt8} (hz : 0 ∉ path) (hopen : fs'.IsOpen path)
    (hext : fs.Extends fs') : Created fs path fs' :=
  ⟨hopen, hext, createDir_open ((cstr_eq hz).symm ▸ hopen)⟩

/-- Where the path leads nowhere, the levels above it are gone through. -/
theorem createDir_levels (hname : IsName name) {r : Int × FileSys}
    (hz : 0 ∉ spell lead dirs ++ (name ++ List.replicate t 47))
    (hrun : ∀ name post fuel, IsName name → (∀ c ∈ post, isSlash c = true) →
      (dirs.map Prod.snd).sum + 1 ≤ fuel →
      createParentDir fuel fs (spell lead dirs ++ name ++ post) = some r)
    (hnone : fs.resolve (spell lead dirs ++ (name ++ List.replicate t 47)) = none) (k : Nat) :
    createDir ((spell lead dirs ++ (name ++ List.replicate t 47)).length + 1 + k) fs
        (spell lead dirs ++ (name ++ List.replicate t 47))
      = some (mkdirAfter (spell lead dirs ++ name) r) := by
  have hne : spell lead dirs ++ name ≠ [] := List.append_ne_nil_of_right_ne_nil _ hname.1
  have hcstr := cstr_eq hz
  have hclosed : ¬ fs.IsOpen (spell lead dirs ++ (name ++ List.replicate t 47)) := by
    rintro ⟨e, he, -⟩
    rw [hnone] at he
    cases he
  have hlen := length_spell lead dirs
  have hparent : createParentDir ((spell lead dirs ++ (name ++ List.replicate t 47)).length + 1 + k)
      fs (spell lead dirs ++ (name ++ List.replicate t 47)) = some r := by
    rw [← List.append_assoc]
    refine hrun name _ _ hname (fun c hc => ?_) ?_
    · rw [List.eq_of_mem_replicate hc]
      rfl
    · rw [List.length_append, List.length_append]
      omega
  have hsame : mkdirAfter (spell lead dirs ++ (name ++ List.replicate t 47)) r
      = mkdirAfter (spell lead dirs ++ name) r := by
    unfold mkdirAfter
    rw [← List.append_assoc, mkdir_slashes _ hne]
  rw [createDir_closed (hcstr.symm ▸ hclosed), hcstr, hnone, hparent, Option.map_some, hsame]
  rfl

/-- `mkdir` fails where something is in the way. -/
theorem Made.in_the_way {r : Int × FileSys} (h : Made fs lead dirs r) (hdirs : Spelled dirs)
    (hname : IsName name) {e : Nat} (he : fs.resolve (spell lead dirs ++ name) = some e) :
    (mkdirAfter (spell lead dirs ++ name) r).1 ≠ 0 := by
  intro hret
  obtain ⟨hr, hmk⟩ := mkdirAfter_zero hret
  have hext := h.extend hr
  have hnames : pathNames (spell lead dirs ++ name) = dirs.map Prod.fst ++ [name] := by
    rw [pathNames_spell hdirs, pathNames_word hname.1 hname.2]
  have hnone := ((FileSys.mkdir_isSome_iff (last_spell hname _) hnames).1
    (Option.isSome_iff_exists.2 ⟨_, hmk⟩)).1
  have hstart : r.2.startOf lead = fs.startOf lead := by
    unfold FileSys.startOf
    rw [hext.root, hext.cwd]
  rw [resolve_spell _ hdirs hname] at he hnone
  rw [hstart, hext.walk he] at hnone
  cases hnone

/-- **`create_dir`** returns 0 exactly for what it can create.  Then the directory is there and
open, nothing else has changed its place, and a second call does nothing. -/
theorem create_dir_iff (path : List UInt8) (hz : 0 ∉ path) (hname : ∃ c ∈ path, c ≠ 47)
    (fs : FileSys) (hroot : fs.IsOpen [47]) (hcwd : fs.IsOpen [46])
    (hopen : ∀ q k, AncestorAt path q k → OpenIfFound fs q) :
    ∃ ret fs', (∀ k, createDir (path.length + 1 + k) fs path = some (ret, fs'))
      ∧ (ret = 0 ↔ Creatable fs path) ∧ (ret = 0 → Created fs path fs') := by
  obtain ⟨lead, dirs, name, t, rfl, hdirs, hname⟩ := exists_spell_name hname
  obtain ⟨r, hmade, hrun⟩ := createParentDir_made hroot hcwd lead hdirs
    (fun hmem => hz (List.mem_append_left _ hmem)) ((eachDir_iff hdirs hname).1 hopen)
  have hcstr := cstr_eq hz
  rw [creatable_iff hdirs hname]
  have hp : spell lead dirs ++ (name ++ List.replicate t 47)
      = spell lead dirs ++ name ++ List.replicate t 47 := (List.append_assoc _ _ _).symm
  have hne : spell lead dirs ++ name ≠ [] := List.append_ne_nil_of_right_ne_nil _ hname.1
  have hres := resolve_slashes fs hne (last_spell hname _) t
  rw [← hp] at hres
  have hlevels := createDir_levels hname hz hrun
  cases hfind : fs.resolve (spell lead dirs ++ name) with
  | none =>
      rw [hfind, Option.filter_none, ite_self] at hres
      have hlast := hmade.missing hdirs hname hfind 0
      rw [Nat.zero_add, Function.iterate_one] at hlast
      refine ⟨(mkdirAfter (spell lead dirs ++ name) r).1, (mkdirAfter (spell lead dirs ++ name) r).2,
        hlevels hres, ?_, fun hret => ?_⟩
      · rw [hlast.ret]
        refine ⟨fun h => ⟨fun e he => ?_, h⟩, fun h => h.2⟩
        rw [hfind] at he
        cases he
      · obtain ⟨-, hmk⟩ := mkdirAfter_zero hret
        rw [← mkdir_slashes _ hne t, ← hp] at hmk
        exact Created.intro hz (FileSys.mkdir_isOpen hmk) (hlast.extend hret)
  | some e =>
      rw [hfind] at hres
      by_cases hdir : fs.isDir e = true
      · rw [Option.filter_some, if_pos hdir, ite_self] at hres
        by_cases hacc : fs.accessible e = true
        · -- it is there already
          have hisOpen : fs.IsOpen (spell lead dirs ++ (name ++ List.replicate t 47)) :=
            ⟨e, hres, hdir, hacc⟩
          refine ⟨0, fs, fun k => createDir_open (hcstr.symm ▸ hisOpen) _, ?_,
            fun _ => Created.intro hz hisOpen (FileSys.Extends.refl fs)⟩
          refine iff_of_true rfl ⟨fun e' he' => ?_, (Made.found hdirs hname hfind hdir 1).ret.1 rfl⟩
          rw [hfind] at he'
          cases he'
          exact ⟨hdir, hacc⟩
        · -- it may not be used
          have hclosed : ¬ fs.IsOpen (spell lead dirs ++ (name ++ List.replicate t 47)) := by
            rintro ⟨e', he', -, hacc'⟩
            rw [hres] at he'
            cases he'
            exact hacc hacc'
          refine ⟨-1, fs, fun k => ?_, ?_, fun h => absurd h (by decide)⟩
          · rw [createDir_closed (hcstr.symm ▸ hclosed), hcstr, hres]
            rfl
          · exact iff_of_false (by decide) fun h => hacc (h.1 e hfind).2
      · -- a file is in the way; with a slash behind it, it is not found
        have hno : ¬ OpenIfFound fs (spell lead dirs ++ name) := fun h => hdir (h e hfind).1
        rw [Option.filter_some, if_neg hdir] at hres
        by_cases ht : t = 0
        · rw [if_pos ht] at hres
          have hclosed : ¬ fs.IsOpen (spell lead dirs ++ (name ++ List.replicate t 47)) := by
            rintro ⟨e', he', hdir', -⟩
            rw [hres] at he'
            cases he'
            exact hdir hdir'
          refine ⟨-1, fs, fun k => ?_, ?_, fun h => absurd h (by decide)⟩
          · rw [createDir_closed (hcstr.symm ▸ hclosed), hcstr, hres]
            rfl
          · exact iff_of_false (by decide) fun h => hno h.1
        · rw [if_neg ht] at hres
          have hfail := hmade.in_the_way hdirs hname hfind
          exact ⟨(mkdirAfter (spell lead dirs ++ name) r).1, (mkdirAfter (spell lead dirs ++ name) r).2,
            hlevels hres, iff_of_false hfail fun h => hno h.1, fun hret => absurd hret hfail⟩

/-- `x/y/` with nothing there: both are made. -/
theorem create_dir_iff_witness : ∃ fs', createDir 5 fileSysEmpty [120, 47, 121, 47] = some (0, fs')
    ∧ Created fileSysEmpty [120, 47, 121, 47] fs' := by
  have hdirs : Spelled [([120], 1)] := by
    intro d hd
    rw [List.mem_singleton.1 hd]
    exact ⟨⟨List.cons_ne_nil _ _, by decide⟩, Nat.le_refl 1⟩
  have hname : IsName [121] := ⟨List.cons_ne_nil _ _, by decide⟩
  obtain ⟨ret, fs', hrun, hiff, hcreated⟩ := create_dir_iff [120, 47, 121, 47] (by decide)
    ⟨120, by decide, by decide⟩ fileSysEmpty ⟨0, by decide +kernel, rfl, rfl⟩
    ⟨0, by decide +kernel, rfl, rfl⟩ (fun _ _ _ _ he => fileSysEmpty_open he)
  have hcan : Creatable fileSysEmpty (spell 0 [([120], 1)] ++ ([121] ++ List.replicate 1 47)) := by
    refine (creatable_iff hdirs hname 1).2 ⟨fun e he => fileSysEmpty_open he, ?_⟩
    refine eachDir_concat.2 ⟨?_, fun _ => ⟨rfl, by decide, by decide⟩⟩
    show EachDir 0 ([] ++ [([120], 1)]) _
    refine eachDir_concat.2 ⟨fun ds w k rest heq => ?_, fun _ => ⟨rfl, by decide, by decide⟩⟩
    exact absurd heq.symm (List.append_ne_nil_of_right_ne_nil _ (List.cons_ne_nil _ _))
  obtain rfl := hiff.2 hcan
  exact ⟨fs', hrun 0, hcreated rfl⟩

end RedisAgent
