/-
  RedisAgent.File.Path — `dirname` and `basename` of file.cpp.

  A `std::string` is the list of its characters, which may be zeros: `dirname` writes
  zeros into its copy and leaves the length alone, and the C string ends at the first of
  them.  An index `last` of the source is `n - 1` here, so that `-1` is 0; paths are taken
  to be short enough for an `int`.

  Main results:
    • `dirname_split`, `basename_split` — both functions on a path cut before and behind
      its last component;
    • `path_recomposes` — the two parts, joined, name the same file.
-/
import Mathlib.Data.List.DropRight
import RedisAgent.Lib.FileSys

namespace RedisAgent

/-! ## §1. The code. -/

/-- `while (last >= least && p(s[last])) --last;` -/
def skipBack (p : UInt8 → Bool) (s : List UInt8) (least : Nat) : Nat → Nat
  | 0 => 0
  | n + 1 => if least ≤ n ∧ p (s.getD n 0) = true then skipBack p s least n else n + 1

/-- `dirname` -/
def dirname (pathname : List UInt8) (reserveLastSlash : Bool) : List UInt8 :=
  let n := skipBack isSlash pathname 0 pathname.length
  if n = 0 then [47]
  else
    let n := skipBack (fun c => !isSlash c) pathname 0 n
    let (parent, n) := if n = 0 then ([46, 47], 2) else (pathname.set n 0, n)
    if reserveLastSlash then parent else parent.set (skipBack isSlash parent 1 n) 0

/-- `basename`; `len` counts the passes of the second loop. -/
def basename (pathname : List UInt8) : List UInt8 :=
  let n := skipBack isSlash pathname 0 pathname.length
  if n = 0 then [47]
  else
    let m := skipBack (fun c => !isSlash c) pathname 0 n
    let len := n - m
    (pathname.drop m).take len

/-- `s.c_str()`, as a C string. -/
def cstr (s : List UInt8) : List UInt8 := s.takeWhile (fun c => c != 0)

/-! ## §2. The loops. -/

theorem getD_middle (u : List UInt8) (c : UInt8) (rest : List UInt8) :
    (u ++ c :: rest).getD u.length 0 = c := by
  rw [List.getD_eq_getElem?_getD, List.getElem?_append_right (Nat.le_refl _), Nat.sub_self]
  rfl

/-- A loop that goes back over `v` and stops at `u`, or at `least`. -/
theorem skipBack_append {p : UInt8 → Bool} {u v : List UInt8} (least : Nat)
    (hv : ∀ c ∈ v, p c = true) (hu : ∀ c ∈ u.getLast?, p c = false)
    (hleast : least ≤ (u ++ v).length) (rest : List UInt8) :
    skipBack p (u ++ v ++ rest) least (u ++ v).length = max u.length least := by
  induction v using List.reverseRecOn generalizing rest with
  | nil =>
      rw [List.append_nil] at hleast ⊢
      rcases List.eq_nil_or_concat' u with rfl | ⟨u', c, rfl⟩
      · rw [List.length_nil] at hleast ⊢
        unfold skipBack
        omega
      · have hc : (u' ++ [c] ++ rest).getD u'.length 0 = c := by
          rw [List.append_assoc]
          exact getD_middle u' c rest
        have hstop : ¬ (least ≤ u'.length ∧ p ((u' ++ [c] ++ rest).getD u'.length 0) = true) := by
          rw [hc, hu c List.getLast?_concat]
          exact fun h => Bool.false_ne_true h.2
        rw [List.length_append, List.length_singleton] at hleast ⊢
        unfold skipBack
        rw [if_neg hstop]
        omega
  | append_singleton v c ih =>
      have hc : (u ++ (v ++ [c]) ++ rest).getD (u ++ v).length 0 = c := by
        have hsplit : u ++ (v ++ [c]) ++ rest = (u ++ v) ++ (c :: rest) := by simp
        rw [hsplit]
        exact getD_middle (u ++ v) c rest
      have hlen : (u ++ (v ++ [c])).length = (u ++ v).length + 1 := by
        rw [← List.append_assoc, List.length_append, List.length_singleton]
      have hpc : p c = true := hv c (List.mem_append_right _ List.mem_cons_self)
      rw [hlen] at hleast ⊢
      unfold skipBack
      rw [hc, hpc]
      by_cases hle : least ≤ (u ++ v).length
      · rw [if_pos ⟨hle, rfl⟩]
        have hrest : u ++ (v ++ [c]) ++ rest = u ++ v ++ ([c] ++ rest) := by simp
        rw [hrest]
        exact ih (fun x hx => hv x (List.mem_append_left _ hx)) hle ([c] ++ rest)
      · -- the loop is held at `least`
        rw [if_neg (fun h => hle h.1)]
        rw [List.length_append] at hle hleast ⊢
        omega

variable {pre comp post : List UInt8}

/-- A path cut before and behind its last component. -/
structure LastAt (pre comp post : List UInt8) : Prop where
  post : ∀ c ∈ post, isSlash c = true
  comp_ne : comp ≠ []
  comp : 47 ∉ comp
  pre : pre = [] ∨ pre.getLast? = some 47

theorem isSlash_false {c : UInt8} (h : c ≠ 47) : isSlash c = false := beq_false_of_ne h

theorem LastAt.not_slash (h : LastAt pre comp post) : ∀ c ∈ comp, isSlash c = false :=
  fun _ hc => isSlash_false (fun heq => h.comp (heq ▸ hc))

/-- The first loop stops behind the last component. -/
theorem LastAt.skip_slashes (h : LastAt pre comp post) :
    skipBack isSlash (pre ++ comp ++ post) 0 (pre ++ comp ++ post).length = (pre ++ comp).length := by
  have hlast : ∀ c ∈ (pre ++ comp).getLast?, isSlash c = false := by
    intro c hc
    rw [List.getLast?_append_of_ne_nil _ h.comp_ne] at hc
    exact h.not_slash c (List.mem_of_mem_getLast? hc)
  have hskip := skipBack_append 0 h.post hlast (Nat.zero_le _) []
  rw [List.append_nil, Nat.max_zero] at hskip
  exact hskip

/-- The second loop stops before it. -/
theorem LastAt.skip_letters (h : LastAt pre comp post) :
    skipBack (fun c => !isSlash c) (pre ++ comp ++ post) 0 (pre ++ comp).length = pre.length := by
  have hlast : ∀ c ∈ pre.getLast?, (!isSlash c) = false := by
    intro c hc
    rcases h.pre with hnil | hslash
    · rw [hnil] at hc
      cases hc
    · rw [hslash] at hc
      cases hc
      rfl
  have hskip := skipBack_append (p := fun c => !isSlash c) 0
    (fun c hc => by rw [h.not_slash c hc]; rfl) hlast (Nat.zero_le _) post
  rw [Nat.max_zero] at hskip
  exact hskip

theorem LastAt.length_ne (h : LastAt pre comp post) : (pre ++ comp).length ≠ 0 := by
  have hlen := List.length_pos_iff.2 h.comp_ne
  rw [List.length_append]
  omega

/-- **`basename`** is the last component. -/
theorem basename_split (h : LastAt pre comp post) : basename (pre ++ comp ++ post) = comp := by
  unfold basename
  simp only [h.skip_slashes, if_neg h.length_ne, h.skip_letters]
  rw [List.append_assoc, List.drop_left, List.length_append, Nat.add_sub_cancel_left, List.take_left]

/-- **`dirname`** of a path with nothing before its last component. -/
theorem dirname_alone (h : LastAt [] comp post) : dirname ([] ++ comp ++ post) false = [46, 0] := by
  unfold dirname
  simp only [h.skip_slashes, if_neg h.length_ne, h.skip_letters, List.length_nil, if_true]
  rfl

/-- **`dirname`** writes two zeros: where the last component starts, and where the slashes
before it start. -/
theorem dirname_split (h : LastAt pre comp post) (hne : pre ≠ []) :
    dirname (pre ++ comp ++ post) false
      = ((pre ++ comp ++ post).set pre.length 0).set (max (pre.rdropWhile isSlash).length 1) 0 := by
  have hpos : pre.length ≠ 0 := fun hz => hne (List.length_eq_zero_iff.1 hz)
  have hset : (pre ++ comp ++ post).set pre.length 0 = pre ++ (comp ++ post).set 0 0 := by
    rw [List.append_assoc, List.set_append_right _ _ (Nat.le_refl _), Nat.sub_self]
  have hsplit : pre = pre.rdropWhile isSlash ++ pre.rtakeWhile isSlash :=
    (List.rdropWhile_append_rtakeWhile ..).symm
  have hskip : skipBack isSlash (pre ++ (comp ++ post).set 0 0) 1 pre.length
      = max (pre.rdropWhile isSlash).length 1 := by
    have hloop := skipBack_append (p := isSlash) (u := pre.rdropWhile isSlash)
      (v := pre.rtakeWhile isSlash) 1 (fun c hc => List.mem_rtakeWhile_imp hc)
      (fun c hc => ?_) (by rw [← hsplit]; omega) ((comp ++ post).set 0 0)
    · rw [← hsplit] at hloop
      exact hloop
    · obtain ⟨hd, rfl⟩ := List.mem_getLast?_eq_getLast hc
      exact Bool.eq_false_iff.2 (List.rdropWhile_last_not isSlash pre hd)
  unfold dirname
  simp only [h.skip_slashes, if_neg h.length_ne, h.skip_letters, if_neg hpos]
  rw [hset, hskip]
  rfl

/-! ## §3. C strings. -/

theorem cstr_cut {w rest : List UInt8} (hw : 0 ∉ w) : cstr (w ++ 0 :: rest) = w :=
  takeWhile_of_zero_free hw rest

theorem cstr_eq {w : List UInt8} (hw : 0 ∉ w) : cstr w = w :=
  List.takeWhile_eq_self_iff.2 fun _ hc => bne_iff_ne.2 fun heq => hw (heq ▸ hc)

/-- The C string of a text cut at a place. -/
theorem cstr_set {s : List UInt8} {n : Nat} (hn : n < s.length) (hs : 0 ∉ s.take n) :
    cstr (s.set n 0) = s.take n := by
  rw [List.set_eq_take_append_cons_drop, if_pos hn]
  exact cstr_cut hs

/-- The directory part of a path, as text: what precedes the last component, without the
slashes in between. -/
def dirPart (pre : List UInt8) : List UInt8 :=
  if pre = [] then [46] else if pre.all isSlash then [47] else pre.rdropWhile isSlash

theorem slashes_eq (h : ∀ c ∈ post, isSlash c = true) : post = List.replicate post.length 47 :=
  List.eq_replicate_iff.2 ⟨rfl, fun c hc => beq_iff_eq.1 (h c hc)⟩

/-- The slashes at the end of `pre`, apart. -/
theorem rdropWhile_slashes (pre : List UInt8) :
    pre = pre.rdropWhile isSlash ++ List.replicate (pre.rtakeWhile isSlash).length 47 := by
  rw [← slashes_eq fun c hc => List.mem_rtakeWhile_imp hc]
  exact (List.rdropWhile_append_rtakeWhile ..).symm

theorem rdropWhile_eq_nil {pre : List UInt8} (h : pre.all isSlash = true) :
    pre.rdropWhile isSlash = [] :=
  List.rdropWhile_eq_nil_iff.2 (List.all_eq_true.1 h)

/-- **The C string of `dirname`.** -/
theorem cstr_dirname (h : LastAt pre comp post) (hz : 0 ∉ pre) :
    cstr (dirname (pre ++ comp ++ post) false) = dirPart pre := by
  unfold dirPart
  by_cases hne : pre = []
  · subst hne
    rw [if_pos rfl, dirname_alone h]
    rfl
  · have hlen : 1 ≤ pre.length := List.length_pos_iff.2 hne
    have hbase := congrArg List.length (rdropWhile_slashes pre)
    rw [List.length_append, List.length_replicate] at hbase
    have hcomp := List.length_pos_iff.2 h.comp_ne
    rw [dirname_split h hne, if_neg hne]
    generalize hn : max (pre.rdropWhile isSlash).length 1 = n
    have hnle : n ≤ pre.length := by omega
    -- the first zero written lies behind the second one
    have htake : ((pre ++ comp ++ post).set pre.length 0).take n = pre.take n := by
      rw [List.take_set_of_le hnle, List.append_assoc, List.take_append_of_le_length hnle]
    rw [cstr_set _ (by rw [htake]; exact fun hmem => hz (List.mem_of_mem_take hmem)), htake]
    · by_cases hall : pre.all isSlash = true
      · rw [rdropWhile_eq_nil hall] at hn
        have hone : n = 1 := hn.symm
        rw [if_pos hall, hone]
        cases pre with
        | nil => exact absurd rfl hne
        | cons c pre =>
            have hc : isSlash c = true := List.all_eq_true.1 hall c List.mem_cons_self
            rw [List.take_succ_cons, List.take_zero, beq_iff_eq.1 hc]
      · have hsome : pre.rdropWhile isSlash ≠ [] := by
          intro hnil
          exact hall (List.all_eq_true.2 (List.rdropWhile_eq_nil_iff.1 hnil))
        have hpos := List.length_pos_iff.2 hsome
        have hbn : n = (pre.rdropWhile isSlash).length := by omega
        rw [if_neg hall, hbn]
        exact (List.prefix_iff_eq_take.1 (List.rdropWhile_prefix ..)).symm
    · rw [List.length_set, List.length_append, List.length_append]
      omega

/-! ## §4. The two parts together. -/

/-- Every path with a component is cut before and behind the last one. -/
theorem exists_lastAt {p : List UInt8} (h : ∃ c ∈ p, c ≠ 47) :
    ∃ pre comp post, p = pre ++ comp ++ post ∧ LastAt pre comp post := by
  let q := p.rdropWhile isSlash
  let letter : UInt8 → Bool := fun c => !isSlash c
  have hq : q ≠ [] := by
    intro hnil
    obtain ⟨c, hc, hne⟩ := h
    have hslash := List.rdropWhile_eq_nil_iff.1 hnil c hc
    exact hne (beq_iff_eq.1 hslash)
  have hlast : letter (q.getLast hq) = true := by
    show (!isSlash (q.getLast hq)) = true
    rw [Bool.eq_false_iff.2 (List.rdropWhile_last_not isSlash p hq)]
    rfl
  refine ⟨q.rdropWhile letter, q.rtakeWhile letter, p.rtakeWhile isSlash, ?_, ?_, ?_, ?_, ?_⟩
  · rw [List.rdropWhile_append_rtakeWhile, List.rdropWhile_append_rtakeWhile]
  · exact fun c hc => List.mem_rtakeWhile_imp hc
  · intro hnil
    exact List.rtakeWhile_eq_nil_iff.1 hnil hq hlast
  · intro hmem
    have hslash : letter 47 = true := List.mem_rtakeWhile_imp hmem
    cases hslash
  · by_cases hnil : q.rdropWhile letter = []
    · exact Or.inl hnil
    · have hnot := List.rdropWhile_last_not letter q hnil
      have hslash : isSlash ((q.rdropWhile letter).getLast hnil) = true := by
        cases hs : isSlash ((q.rdropWhile letter).getLast hnil) with
        | true => rfl
        | false =>
            refine absurd ?_ hnot
            show (!isSlash _) = true
            rw [hs]
            rfl
      rw [List.getLast?_eq_some_getLast hnil, beq_iff_eq.1 hslash]
      exact Or.inr rfl

theorem LastAt.pathNames (h : LastAt pre comp post) :
    pathNames (pre ++ comp ++ post) = RedisAgent.pathNames pre ++ [comp] := by
  have hcomp := pathNames_word h.comp_ne h.comp
  rw [slashes_eq h.post, pathNames_behind]
  by_cases hne : pre = []
  · rw [hne, List.nil_append, hcomp]
    rfl
  · have hlast : pre.getLast? = some 47 := h.pre.resolve_left hne
    obtain ⟨pre', rfl⟩ := List.getLast?_eq_some_iff.1 hlast
    rw [List.append_assoc, List.singleton_append, pathNames_append, hcomp]
    have hslash := pathNames_behind pre' 1
    rw [List.replicate_one] at hslash
    rw [hslash]

/-- Where the joined parts lead. -/
theorem LastAt.resolve_join (h : LastAt pre comp post) (fs : FileSys) :
    fs.resolve (dirPart pre ++ 47 :: comp)
      = fs.walk (fs.start (pre ++ comp ++ post)) (RedisAgent.pathNames (pre ++ comp ++ post)) := by
  have hcomp := pathNames_word h.comp_ne h.comp
  have hne : dirPart pre ++ 47 :: comp ≠ [] := List.append_ne_nil_of_right_ne_nil _ (List.cons_ne_nil _ _)
  have hlast : (dirPart pre ++ 47 :: comp).getLast? ≠ some 47 := by
    intro heq
    rw [List.getLast?_append_of_ne_nil _ (List.cons_ne_nil _ _), ← List.singleton_append,
      List.getLast?_append_of_ne_nil _ h.comp_ne] at heq
    exact h.comp (List.mem_of_mem_getLast? heq)
  rw [fs.resolve_eq hne hlast, pathNames_append, hcomp, h.pathNames]
  unfold dirPart
  by_cases hnil : pre = []
  · -- from the working directory, by way of `.`
    subst hnil
    have hstart : fs.start ([] ++ comp ++ post) = fs.cwd := by
      unfold FileSys.start
      rw [List.nil_append, List.head?_append_of_ne_nil _ h.comp_ne, if_neg]
      exact fun heq => h.comp (List.mem_of_mem_head? heq)
    rw [if_pos rfl, hstart]
    show ((fs.entry fs.cwd [46]).bind fun e => fs.walk e [comp]) = fs.walk fs.cwd [comp]
    rw [(fs.dots _ fs.cwd_dir).1]
    rfl
  · rw [if_neg hnil]
    have hhead : (pre ++ comp ++ post).head? = pre.head? := by
      rw [List.append_assoc, List.head?_append_of_ne_nil _ hnil]
    by_cases hall : pre.all isSlash = true
    · have hstart : fs.start (pre ++ comp ++ post) = fs.root := by
        unfold FileSys.start
        rw [hhead, slashes_eq (List.all_eq_true.1 hall)]
        cases pre with
        | nil => exact absurd rfl hnil
        | cons c pre => rfl
      have hnames : RedisAgent.pathNames pre = [] := by
        rw [slashes_eq (List.all_eq_true.1 hall)]
        exact pathNames_behind [] pre.length
      rw [if_pos hall, hstart, hnames]
      rfl
    · have hsome : pre.rdropWhile isSlash ≠ [] := fun hempty =>
        hall (List.all_eq_true.2 (List.rdropWhile_eq_nil_iff.1 hempty))
      have hbase : pre.head? = (pre.rdropWhile isSlash).head? := by
        conv => lhs; rw [rdropWhile_slashes pre]
        rw [List.head?_append_of_ne_nil _ hsome]
      have hnames : RedisAgent.pathNames pre = RedisAgent.pathNames (pre.rdropWhile isSlash) := by
        conv => lhs; rw [rdropWhile_slashes pre]
        rw [pathNames_behind]
      rw [if_neg hall, hnames]
      unfold FileSys.start
      rw [hhead, hbase, List.head?_append_of_ne_nil _ hsome]

/-- **Path splitting recomposes.** -/
theorem path_recomposes (p : List UInt8) (hz : 0 ∉ p) (h : ∃ c ∈ p, c ≠ 47) :
    ∃ pre comp post, p = pre ++ comp ++ post
      ∧ (∀ c ∈ post, c = 47) ∧ comp ≠ [] ∧ 47 ∉ comp ∧ (pre = [] ∨ pre.getLast? = some 47)
      ∧ basename p = comp
      ∧ cstr (dirname p false)
        = (if pre = [] then [46] else if pre.all isSlash then [47] else pre.rdropWhile isSlash)
      ∧ ∀ fs : FileSys,
        (∀ e, fs.resolve p = some e →
          fs.resolve (cstr (dirname p false) ++ 47 :: basename p) = some e)
        ∧ (post = [] → fs.resolve (cstr (dirname p false) ++ 47 :: basename p) = fs.resolve p) := by
  obtain ⟨pre, comp, post, rfl, hat⟩ := exists_lastAt h
  have hzpre : 0 ∉ pre := fun hmem => hz (List.mem_append_left _ (List.mem_append_left _ hmem))
  refine ⟨pre, comp, post, rfl, fun c hc => beq_iff_eq.1 (hat.post c hc), hat.comp_ne, hat.comp, hat.pre,
    basename_split hat, cstr_dirname hat hzpre, ?_⟩
  intro fs
  rw [basename_split hat, cstr_dirname hat hzpre, hat.resolve_join fs]
  have hne : pre ++ comp ++ post ≠ [] :=
    List.append_ne_nil_of_left_ne_nil (List.append_ne_nil_of_right_ne_nil _ hat.comp_ne) _
  constructor
  · intro e he
    unfold FileSys.resolve at he
    rw [if_neg hne] at he
    split at he
    · exact (Option.filter_eq_some_iff.1 he).1
    · exact he
  · intro hpost
    subst hpost
    have hlast : (pre ++ comp ++ []).getLast? ≠ some 47 := by
      rw [List.append_nil, List.getLast?_append_of_ne_nil _ hat.comp_ne]
      exact fun heq => hat.comp (List.mem_of_mem_getLast? heq)
    rw [fs.resolve_eq hne hlast]

/-- `/a//b/` -/
theorem path_recomposes_witness : ∃ pre comp post,
    ([47, 97, 47, 47, 98, 47] : List UInt8) = pre ++ comp ++ post
      ∧ basename [47, 97, 47, 47, 98, 47] = comp
      ∧ cstr (dirname [47, 97, 47, 47, 98, 47] false) = dirPart pre := by
  obtain ⟨pre, comp, post, hp, -, -, -, -, hbase, hdir, -⟩ :=
    path_recomposes [47, 97, 47, 47, 98, 47] (by decide) ⟨97, by decide, by decide⟩
  exact ⟨pre, comp, post, hp, hbase, hdir⟩

end RedisAgent
