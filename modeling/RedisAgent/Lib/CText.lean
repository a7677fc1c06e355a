/-
  RedisAgent.Lib.CText — numbers and words in C strings.

  A buffer is a list of bytes; what lies behind it reads as zero, and a pointer into
  it is an index.  `strchr` and `atoi` are those of the C library, `List.splitOn` is
  the specification of cutting a text at a separator.

  Main results:
    • `decimal_decimals`, `atoi_digits` — reading back what was printed;
    • `cstrAt_cut`, `strchr_word` — a word whose separator is overwritten with a zero.
-/
import Mathlib.Data.Nat.Digits.Defs
import Mathlib.Data.List.TakeWhile

namespace RedisAgent

/-! ## §1. Decimal numbers. -/

/-- `'0' <= c && c <= '9'` -/
def isDigit (c : UInt8) : Bool := decide (48 ≤ c ∧ c ≤ 57)

/-- The number that decimal digits spell. -/
def decimal (s : List UInt8) : Nat := s.foldl (fun n c => 10 * n + (c.toNat - 48)) 0

/-- A number in decimal digits, without leading zeros. -/
def decimals (n : Nat) : List UInt8 :=
  if n = 0 then [48] else ((Nat.digits 10 n).map (fun d => UInt8.ofNat (48 + d))).reverse

theorem toNat_digit {d : Nat} (h : d < 10) : (UInt8.ofNat (48 + d)).toNat = 48 + d := by
  rw [UInt8.toNat_ofNat']
  exact Nat.mod_eq_of_lt (by omega)

theorem isDigit_digit {d : Nat} (h : d < 10) : isDigit (UInt8.ofNat (48 + d)) = true := by
  unfold isDigit
  rw [decide_eq_true_eq, UInt8.le_iff_toNat_le, UInt8.le_iff_toNat_le, toNat_digit h]
  show 48 ≤ 48 + d ∧ 48 + d ≤ 57
  omega

/-- **Printed and read again.** -/
theorem decimal_decimals (n : Nat) : decimal (decimals n) = n := by
  unfold decimals
  by_cases hn : n = 0
  · rw [if_pos hn, hn]
    rfl
  · rw [if_neg hn]
    unfold decimal
    rw [List.foldl_reverse]
    have hfold : ∀ ds : List Nat, (∀ d ∈ ds, d < 10) →
        (ds.map (fun d => UInt8.ofNat (48 + d))).foldr (fun c n => 10 * n + (c.toNat - 48)) 0
          = Nat.ofDigits 10 ds := by
      intro ds
      induction ds with
      | nil => exact fun _ => rfl
      | cons d ds ih =>
          intro h
          rw [List.map_cons, List.foldr_cons, ih (fun x hx => h x (List.mem_cons_of_mem _ hx)),
            toNat_digit (h d List.mem_cons_self), Nat.ofDigits_cons]
          omega
    rw [hfold _ (fun d hd => Nat.digits_lt_base (by decide) hd), Nat.ofDigits_digits]

theorem decimals_digits (n : Nat) : ∀ c ∈ decimals n, isDigit c = true := by
  intro c hc
  unfold decimals at hc
  by_cases hn : n = 0
  · rw [if_pos hn] at hc
    rw [List.mem_singleton.1 hc]
    decide
  · rw [if_neg hn, List.mem_reverse] at hc
    obtain ⟨d, hd, rfl⟩ := List.mem_map.1 hc
    exact isDigit_digit (Nat.digits_lt_base (by decide) hd)

theorem decimals_ne_nil (n : Nat) : decimals n ≠ [] := by
  unfold decimals
  by_cases hn : n = 0
  · rw [if_pos hn]
    exact List.cons_ne_nil _ _
  · rw [if_neg hn]
    intro h
    rw [List.reverse_eq_nil_iff, List.map_eq_nil_iff, Nat.digits_eq_nil_iff_eq_zero] at h
    exact hn h

/-! ## §2. `atoi`. -/

/-- `isspace(c)` -/
def isSpace (c : UInt8) : Bool := decide (c = 32 ∨ 9 ≤ c ∧ c ≤ 13)

/-- A sign and the digits behind it. -/
def signed : List UInt8 → Int
  | 45 :: s => -(decimal (s.takeWhile isDigit) : Int)
  | 43 :: s => decimal (s.takeWhile isDigit)
  | s => decimal (s.takeWhile isDigit)

/-- `strtol(s, NULL, 10)`: blanks, a sign, digits; held within the range of a `long`. -/
def strtol (s : List UInt8) : Int :=
  max (-2 ^ 63) (min (signed (s.dropWhile isSpace)) (2 ^ 63 - 1))

/-- `atoi(s)`: the low 32 bits of `strtol`. -/
def atoi (s : List UInt8) : Int32 := Int32.ofInt (strtol s)

theorem not_sign_of_digit {c : UInt8} (h : isDigit c = true) :
    isSpace c = false ∧ c ≠ 45 ∧ c ≠ 43 ∧ c ≠ 44 ∧ c ≠ 0 := by
  have hc : 48 ≤ c ∧ c ≤ 57 := of_decide_eq_true h
  rw [UInt8.le_iff_toNat_le, UInt8.le_iff_toNat_le] at hc
  have hlow : 48 ≤ c.toNat := hc.1
  have hne : ∀ x : UInt8, x.toNat < 48 → c ≠ x := by
    rintro x hx rfl
    omega
  refine ⟨?_, hne 45 (by decide), hne 43 (by decide), hne 44 (by decide), hne 0 (by decide)⟩
  unfold isSpace
  rw [decide_eq_false_iff_not]
  rintro (h32 | ⟨-, h13⟩)
  · exact hne 32 (by decide) h32
  · rw [UInt8.le_iff_toNat_le] at h13
    have : c.toNat ≤ 13 := h13
    omega

theorem signed_digits {s : List UInt8} (hs : ∀ c ∈ s, isDigit c = true) : signed s = decimal s := by
  unfold signed
  split
  · exact absurd rfl (not_sign_of_digit (hs 45 List.mem_cons_self)).2.1
  · exact absurd rfl (not_sign_of_digit (hs 43 List.mem_cons_self)).2.2.1
  · rw [List.takeWhile_eq_self_iff.2 hs]

/-- **`strtol` of digits.** -/
theorem strtol_digits {s : List UInt8} (hs : ∀ c ∈ s, isDigit c = true) (hsmall : decimal s < 2 ^ 63) :
    strtol s = decimal s := by
  have hdrop : s.dropWhile isSpace = s := by
    cases s with
    | nil => rfl
    | cons c s =>
        rw [List.dropWhile_cons_of_neg]
        rw [(not_sign_of_digit (hs c List.mem_cons_self)).1]
        exact Bool.false_ne_true
  unfold strtol
  rw [hdrop, signed_digits hs]
  omega

/-- `(unsigned int)atoi(s)` of digits. -/
theorem atoi_digits {s : List UInt8} (hs : ∀ c ∈ s, isDigit c = true) (hsmall : decimal s < 2 ^ 31) :
    (atoi s).toUInt32.toNat = decimal s := by
  unfold atoi
  rw [strtol_digits hs (by omega)]
  show (BitVec.ofInt 32 (decimal s : Int)).toNat = decimal s
  rw [BitVec.toNat_ofInt]
  omega

/-! ## §3. Words in a buffer. -/

/-- The string a pointer into `buf` leads to. -/
def cstrAt (buf : List UInt8) (p : Nat) : List UInt8 := (buf.drop p).takeWhile (fun c => c != 0)

/-- `strchr(buf + p, c)`, for a character other than zero. -/
def strchr (buf : List UInt8) (p : Nat) (c : UInt8) : Option Nat :=
  ((cstrAt buf p).findIdx? (fun x => x == c)).map (fun i => p + i)

theorem takeWhile_of_zero_free {w : List UInt8} (hw : 0 ∉ w) (rest : List UInt8) :
    (w ++ 0 :: rest).takeWhile (fun c => c != 0) = w := by
  rw [List.takeWhile_append_of_pos, List.takeWhile_cons_of_neg (by decide), List.append_nil]
  intro c hc
  exact bne_iff_ne.2 (fun he => hw (he ▸ hc))

/-- A word followed by a zero. -/
theorem cstrAt_cut (pre : List UInt8) {w rest : List UInt8} (hw : 0 ∉ w) :
    cstrAt (pre ++ (w ++ 0 :: rest)) pre.length = w := by
  unfold cstrAt
  rw [List.drop_left, takeWhile_of_zero_free hw]

/-- A word at the end of the buffer. -/
theorem cstrAt_last (pre : List UInt8) {w : List UInt8} (hw : 0 ∉ w) :
    cstrAt (pre ++ w) pre.length = w := by
  unfold cstrAt
  rw [List.drop_left, List.takeWhile_eq_self_iff]
  intro c hc
  exact bne_iff_ne.2 (fun he => hw (he ▸ hc))

/-- `strchr` finds the end of a word. -/
theorem findIdx?_word {w rest : List UInt8} {c : UInt8} (hw : c ∉ w) :
    (w ++ c :: rest).findIdx? (fun x => x == c) = some w.length := by
  induction w with
  | nil => rw [List.nil_append, List.findIdx?_cons, if_pos (beq_self_eq_true c)]; rfl
  | cons x w ih =>
      rw [List.mem_cons, not_or] at hw
      rw [List.cons_append, List.findIdx?_cons, ih hw.2]
      have hx : (x == c) = false := beq_false_of_ne (fun he => hw.1 he.symm)
      rw [hx]
      rfl

theorem findIdx?_none {w : List UInt8} {c : UInt8} (hw : c ∉ w) :
    w.findIdx? (fun x => x == c) = none := by
  rw [List.findIdx?_eq_none_iff]
  intro x hx
  exact beq_false_of_ne (fun he => hw (he ▸ hx))

/-- Overwriting the separator behind a word. -/
theorem set_word (pre w rest : List UInt8) (c x : UInt8) :
    (pre ++ (w ++ c :: rest)).set (pre.length + w.length) x = pre ++ (w ++ x :: rest) := by
  rw [List.set_append_right _ _ (by omega), show pre.length + w.length - pre.length = w.length by omega,
    List.set_append_right _ _ (by omega), Nat.sub_self, List.set_cons_zero]

/-! ## §4. Cutting at a separator. -/

variable {α : Type*}

/-- A character that is in no word and is not the separator is not in the text. -/
theorem not_mem_intercalate {x sep : α} {ws : List (List α)} (hx : x ≠ sep) (h : ∀ w ∈ ws, x ∉ w) :
    x ∉ [sep].intercalate ws := by
  induction ws with
  | nil => exact List.not_mem_nil
  | cons w ws ih =>
      have hw : x ∉ w := h w List.mem_cons_self
      have hws : x ∉ [sep].intercalate ws := ih (fun v hv => h v (List.mem_cons_of_mem _ hv))
      cases ws with
      | nil =>
          rw [List.intercalate_singleton]
          exact hw
      | cons v ws =>
          rw [List.intercalate_cons_cons, List.mem_append, List.mem_append, List.mem_singleton]
          rintro ((hm | hm) | hm)
          · exact hw hm
          · exact hx hm
          · exact hws hm

variable [BEq α] [LawfulBEq α]

theorem splitOn_cons {l rest : List α} {sep : α} (hl : sep ∉ l) :
    (l ++ sep :: rest).splitOn sep = l :: rest.splitOn sep := by
  have hno : ∀ c ∈ l, (c == sep) = false := fun c hc => beq_false_of_ne (fun he => hl (he ▸ hc))
  show (l ++ sep :: rest).splitOnP (· == sep) = l :: rest.splitOnP (· == sep)
  rw [List.splitOnP_append_cons l rest (by exact beq_self_eq_true sep), List.splitOnP_eq_singleton hno]
  rfl

theorem splitOn_single {l : List α} {sep : α} (hl : sep ∉ l) : l.splitOn sep = [l] := by
  show l.splitOnP (· == sep) = [l]
  exact List.splitOnP_eq_singleton (fun c hc => beq_false_of_ne (fun he => hl (he ▸ hc)))

end RedisAgent
