/-
  RedisAgent.Lib.FileSys — a tree of directories, and the paths that lead through it.

  A path is a text of names with slashes between them; several slashes in a row count as
  one.  Nodes are numbers, and those from `next` on are free.  A directory has the names
  `.` and `..`; other nodes have no names.

  A path of no characters leads nowhere, and one that ends in a slash only to a directory.
  Links, and the permission to pass through a directory, are left out.

  Main results:
    • `pathNames_append` — the names of two texts with a slash between them;
    • `FileSys.walk_append` — a way in two parts;
    • `FileSys.mkdir_isSome_iff` — when `mkdir` succeeds;
    • `FileSys.Extends.walk` — a new directory blocks no way.
-/
import RedisAgent.Lib.CText

namespace RedisAgent

/-! ## §1. Paths. -/

/-- `'/'` -/
def isSlash (c : UInt8) : Bool := c == 47

/-- The names in a path. -/
def pathNames (path : List UInt8) : List (List UInt8) := (path.splitOn 47).filter (fun w => w ≠ [])

/-- **Two texts with a slash between them.** -/
theorem pathNames_append (x y : List UInt8) :
    pathNames (x ++ 47 :: y) = pathNames x ++ pathNames y := by
  unfold pathNames
  rw [List.splitOn_append_cons_self, List.filter_append]

theorem pathNames_nil : pathNames [] = [] := rfl

/-- A slash in front changes nothing. -/
theorem pathNames_slash (x : List UInt8) : pathNames (47 :: x) = pathNames x := by
  have h := pathNames_append [] x
  rw [pathNames_nil, List.nil_append, List.nil_append] at h
  exact h

theorem pathNames_slashes (k : Nat) (x : List UInt8) :
    pathNames (List.replicate k 47 ++ x) = pathNames x := by
  induction k with
  | zero => rfl
  | succ k ih => rw [List.replicate_succ, List.cons_append, pathNames_slash, ih]

/-- A name alone. -/
theorem pathNames_word {w : List UInt8} (hne : w ≠ []) (hw : 47 ∉ w) : pathNames w = [w] := by
  unfold pathNames
  rw [splitOn_single hw, List.filter_cons_of_pos (by rw [decide_eq_true_eq]; exact hne),
    List.filter_nil]

/-- Slashes between two texts. -/
theorem pathNames_between (x : List UInt8) {k : Nat} (hk : 1 ≤ k) (y : List UInt8) :
    pathNames (x ++ (List.replicate k 47 ++ y)) = pathNames x ++ pathNames y := by
  obtain ⟨j, rfl⟩ := Nat.exists_eq_add_of_le' hk
  rw [List.replicate_succ, List.cons_append, pathNames_append, pathNames_slashes]

/-- Slashes behind a text. -/
theorem pathNames_behind (x : List UInt8) (k : Nat) :
    pathNames (x ++ List.replicate k 47) = pathNames x := by
  cases k with
  | zero => rw [List.replicate_zero, List.append_nil]
  | succ k =>
      have h := pathNames_between x (Nat.succ_le_succ (Nat.zero_le k)) []
      rw [List.append_nil, pathNames_nil, List.append_nil] at h
      exact h

/-! ## §2. Directories. -/

/-- See the head of the file. -/
structure FileSys where
  root : Nat
  cwd : Nat
  isDir : Nat → Bool
  accessible : Nat → Bool
  entry : Nat → List UInt8 → Option Nat
  next : Nat
  root_dir : isDir root = true
  cwd_dir : isDir cwd = true
  dots : ∀ d, isDir d = true → entry d [46] = some d ∧ ∃ u, entry d [46, 46] = some u
  file : ∀ d c, isDir d = false → entry d c = none
  used : ∀ d, isDir d = true → d < next
  named : ∀ d c e, entry d c = some e → e < next

variable (fs : FileSys)

/-- Where the names lead from `d`. -/
def FileSys.walk (d : Nat) : List (List UInt8) → Option Nat
  | [] => some d
  | c :: cs => (fs.entry d c).bind (fun e => FileSys.walk e cs)

/-- Where a path starts. -/
def FileSys.start (path : List UInt8) : Nat := if path.head? = some 47 then fs.root else fs.cwd

/-- Where a path leads. -/
def FileSys.resolve (path : List UInt8) : Option Nat :=
  if path = [] then none
  else if path.getLast? = some 47 then
    (fs.walk (fs.start path) (pathNames path)).filter (fun e => fs.isDir e)
  else fs.walk (fs.start path) (pathNames path)

/-- A directory that the program may read, change and pass through. -/
def FileSys.IsOpen (path : List UInt8) : Prop :=
  ∃ e, fs.resolve path = some e ∧ fs.isDir e = true ∧ fs.accessible e = true

/-- `S_ISDIR` and `access(path, R_OK|W_OK|X_OK)`. -/
def FileSys.isOpen (path : List UInt8) : Bool :=
  (fs.resolve path).any (fun e => fs.isDir e && fs.accessible e)

/-- A new directory `c` in `d`. -/
def FileSys.addDir (d : Nat) (c : List UInt8) (hd : fs.isDir d = true) (hc : fs.entry d c = none) :
    FileSys where
  root := fs.root
  cwd := fs.cwd
  isDir := Function.update fs.isDir fs.next true
  accessible := Function.update fs.accessible fs.next true
  entry x n :=
    if x = fs.next then
      (if n = [46] then some fs.next else if n = [46, 46] then some d else none)
    else if x = d ∧ n = c then some fs.next
    else fs.entry x n
  next := fs.next + 1
  root_dir := by
    rw [Function.update_of_ne (Nat.ne_of_lt (fs.used _ fs.root_dir))]
    exact fs.root_dir
  cwd_dir := by
    rw [Function.update_of_ne (Nat.ne_of_lt (fs.used _ fs.cwd_dir))]
    exact fs.cwd_dir
  dots x hx := by
    by_cases hnew : x = fs.next
    · rw [if_pos hnew, if_pos rfl, if_pos hnew, if_neg (by decide), if_pos rfl, hnew]
      exact ⟨rfl, d, rfl⟩
    · rw [Function.update_of_ne hnew] at hx
      obtain ⟨hdot, u, hdotdot⟩ := fs.dots x hx
      have hone : ¬ (x = d ∧ [46] = c) := by
        rintro ⟨rfl, rfl⟩
        exact nomatch hc.symm.trans hdot
      have htwo : ¬ (x = d ∧ [46, 46] = c) := by
        rintro ⟨rfl, rfl⟩
        exact nomatch hc.symm.trans hdotdot
      rw [if_neg hnew, if_neg hone, if_neg hnew, if_neg htwo]
      exact ⟨hdot, u, hdotdot⟩
  file x n hx := by
    have hnew : x ≠ fs.next := by
      rintro rfl
      rw [Function.update_self] at hx
      cases hx
    rw [Function.update_of_ne hnew] at hx
    have hother : ¬ (x = d ∧ n = c) := by
      rintro ⟨rfl, -⟩
      exact Bool.false_ne_true (hx.symm.trans hd)
    rw [if_neg hnew, if_neg hother]
    exact fs.file x n hx
  used x hx := by
    by_cases hnew : x = fs.next
    · omega
    · rw [Function.update_of_ne hnew] at hx
      have hlt := fs.used x hx
      omega
  named x n e he := by
    have hd' := fs.used d hd
    by_cases hnew : x = fs.next
    · rw [if_pos hnew] at he
      split at he
      · cases he
        omega
      · split at he
        · cases he
          omega
        · cases he
    · rw [if_neg hnew] at he
      split at he
      · cases he
        omega
      · have hlt := fs.named x n e he
        omega

/-- `mkdir(path, 0775)`; `none` where it fails. -/
def FileSys.mkdir (path : List UInt8) : Option FileSys :=
  match (pathNames path).getLast? with
  | none => none
  | some c =>
      match fs.walk (fs.start path) (pathNames path).dropLast with
      | none => none
      | some d =>
          if h : fs.isDir d = true ∧ fs.entry d c = none then some (fs.addDir d c h.1 h.2) else none

/-! ## §3. Ways. -/

variable {fs}

/-- **A way in two parts.** -/
theorem FileSys.walk_append (d : Nat) (cs cs' : List (List UInt8)) :
    fs.walk d (cs ++ cs') = (fs.walk d cs).bind (fun e => fs.walk e cs') := by
  induction cs generalizing d with
  | nil => rfl
  | cons c cs ih =>
      show (fs.entry d c).bind (fun e => fs.walk e (cs ++ cs'))
        = ((fs.entry d c).bind (fun e => fs.walk e cs)).bind (fun e => fs.walk e cs')
      cases fs.entry d c with
      | none => rfl
      | some e => exact ih e

theorem FileSys.walk_concat (d : Nat) (cs : List (List UInt8)) (c : List UInt8) :
    fs.walk d (cs ++ [c]) = (fs.walk d cs).bind (fun e => fs.entry e c) := by
  rw [fs.walk_append]
  congr 1
  funext e
  unfold FileSys.walk
  cases fs.entry e c <;> rfl

theorem FileSys.isOpen_iff (path : List UInt8) : fs.isOpen path = true ↔ fs.IsOpen path := by
  unfold FileSys.isOpen FileSys.IsOpen
  rw [Option.any_eq_true]
  constructor
  · rintro ⟨e, he, h⟩
    exact ⟨e, he, (Bool.and_eq_true_iff.1 h).1, (Bool.and_eq_true_iff.1 h).2⟩
  · rintro ⟨e, he, hd, ha⟩
    exact ⟨e, he, Bool.and_eq_true_iff.2 ⟨hd, ha⟩⟩

/-- A path that does not end in a slash. -/
theorem FileSys.resolve_eq {path : List UInt8} (hne : path ≠ []) (hlast : path.getLast? ≠ some 47) :
    fs.resolve path = fs.walk (fs.start path) (pathNames path) := by
  unfold FileSys.resolve
  rw [if_neg hne, if_neg hlast]

/-- `mkdir` where the names and the directory are known. -/
theorem FileSys.mkdir_eq {path : List UInt8} {cs : List (List UInt8)} {c : List UInt8} {d : Nat}
    (hnames : pathNames path = cs ++ [c]) (hd : fs.walk (fs.start path) cs = some d) :
    fs.mkdir path
      = if h : fs.isDir d = true ∧ fs.entry d c = none then some (fs.addDir d c h.1 h.2) else none := by
  unfold FileSys.mkdir
  rw [hnames, List.getLast?_concat, List.dropLast_concat]
  simp only [hd]

/-- **`mkdir` succeeds** exactly where its argument does not exist and its parent is a
directory. -/
theorem FileSys.mkdir_isSome_iff {path : List UInt8} {cs : List (List UInt8)} {c : List UInt8}
    (hlast : path.getLast? ≠ some 47) (hnames : pathNames path = cs ++ [c]) :
    (fs.mkdir path).isSome
      ↔ fs.resolve path = none ∧ ∃ d, fs.walk (fs.start path) cs = some d ∧ fs.isDir d = true := by
  have hne : path ≠ [] := by
    rintro rfl
    rw [pathNames_nil] at hnames
    exact List.append_ne_nil_of_right_ne_nil _ (List.cons_ne_nil _ _) hnames.symm
  rw [fs.resolve_eq hne hlast, hnames, fs.walk_concat]
  cases hd : fs.walk (fs.start path) cs with
  | none =>
      unfold FileSys.mkdir
      rw [hnames, List.getLast?_concat, List.dropLast_concat]
      simp [hd]
  | some d =>
      rw [fs.mkdir_eq hnames hd, Option.bind_some]
      by_cases h : fs.isDir d = true ∧ fs.entry d c = none
      · rw [dif_pos h]
        exact ⟨fun _ => ⟨h.2, d, rfl, h.1⟩, fun _ => rfl⟩
      · rw [dif_neg h]
        refine ⟨fun hsome => (Bool.noConfusion hsome), ?_⟩
        rintro ⟨hnone, e, he, hdir⟩
        cases he
        exact absurd ⟨hdir, hnone⟩ h

/-! ## §4. A new directory. -/

/-- Everything stays where it was. -/
structure FileSys.Extends (fs fs' : FileSys) : Prop where
  root : fs'.root = fs.root
  cwd : fs'.cwd = fs.cwd
  isDir : ∀ d, fs.isDir d = true → fs'.isDir d = true
  entry : ∀ d c e, fs.entry d c = some e → fs'.entry d c = some e

theorem FileSys.Extends.refl (fs : FileSys) : fs.Extends fs :=
  ⟨rfl, rfl, fun _ h => h, fun _ _ _ h => h⟩

theorem FileSys.Extends.trans {fs fs' fs'' : FileSys} (h : fs.Extends fs') (h' : fs'.Extends fs'') :
    fs.Extends fs'' :=
  ⟨h'.root.trans h.root, h'.cwd.trans h.cwd, fun d hd => h'.isDir d (h.isDir d hd),
    fun d c e he => h'.entry d c e (h.entry d c e he)⟩

theorem FileSys.Extends.start {fs fs' : FileSys} (h : fs.Extends fs') (path : List UInt8) :
    fs'.start path = fs.start path := by
  unfold FileSys.start
  rw [h.root, h.cwd]

/-- **Every way is still open.** -/
theorem FileSys.Extends.walk {fs fs' : FileSys} (h : fs.Extends fs') {cs : List (List UInt8)} :
    ∀ {d e : Nat}, fs.walk d cs = some e → fs'.walk d cs = some e := by
  induction cs with
  | nil => exact fun h => h
  | cons c cs ih =>
      intro d e he
      unfold FileSys.walk at he ⊢
      obtain ⟨x, hx, he⟩ := Option.bind_eq_some_iff.1 he
      rw [h.entry d c x hx, Option.bind_some]
      exact ih he

variable {d : Nat} {c : List UInt8} (hd : fs.isDir d = true) (hc : fs.entry d c = none)

theorem FileSys.addDir_extends : fs.Extends (fs.addDir d c hd hc) := by
  refine ⟨rfl, rfl, ?_, ?_⟩
  · intro x hx
    show Function.update fs.isDir fs.next true x = true
    by_cases hnew : x = fs.next
    · rw [hnew, Function.update_self]
    · rw [Function.update_of_ne hnew]
      exact hx
  · intro x n e he
    show (if x = fs.next then _ else if x = d ∧ n = c then some fs.next else fs.entry x n) = some e
    have hold : x ≠ fs.next := by
      intro heq
      have hdir : fs.isDir x = true := by
        by_contra hdir
        rw [fs.file x n (Bool.not_eq_true _ ▸ hdir)] at he
        cases he
      have hlt := fs.used x hdir
      omega
    have hother : ¬ (x = d ∧ n = c) := by
      rintro ⟨rfl, rfl⟩
      exact nomatch hc.symm.trans he
    rw [if_neg hold, if_neg hother]
    exact he

/-- The new directory is found. -/
theorem FileSys.addDir_entry : (fs.addDir d c hd hc).entry d c = some fs.next := by
  show (if d = fs.next then _ else if d = d ∧ c = c then some fs.next else fs.entry d c) = some fs.next
  have hlt := fs.used d hd
  rw [if_neg (by omega), if_pos ⟨rfl, rfl⟩]

theorem FileSys.addDir_isDir : (fs.addDir d c hd hc).isDir fs.next = true :=
  Function.update_self ..

/-- It is empty. -/
theorem FileSys.addDir_empty {n : List UInt8} (h : n ≠ [46]) (h' : n ≠ [46, 46]) :
    (fs.addDir d c hd hc).entry fs.next n = none := by
  show (if fs.next = fs.next then
    (if n = [46] then some fs.next else if n = [46, 46] then some d else none) else _) = none
  rw [if_pos rfl, if_neg h, if_neg h']

end RedisAgent
