/-
  RedisAgent.Lib.Ring — rings of `n` cells kept in an array.

  The array is a function from the index.  A stretch of the ring starts at a cell
  and passes the end at most once.

  Main results:
    • `ringSlice_add` — a stretch is its first part and then the rest;
    • `ringSlice_write` — what is written behind a stretch is appended to it;
    • `ringWrite_eq_off` — and changes no other cell.
-/
import Mathlib.Data.List.Basic

namespace RedisAgent

variable {α : Type*} {f g : Int → α} {n start : Int}

/-! ## §1. Cells. -/

/-- The cell `k` places after `start`. -/
def ringIdx (n start k : Int) : Int := if start + k < n then start + k else start + k - n

theorem ringIdx_nonneg {k : Int} (h0 : 0 ≤ start) (hk : 0 ≤ k) : 0 ≤ ringIdx n start k := by
  unfold ringIdx
  split <;> omega

theorem ringIdx_lt {k : Int} (h : start < n) (hk : k ≤ n) : ringIdx n start k < n := by
  unfold ringIdx
  split <;> omega

/-- Steps add up. -/
theorem ringIdx_ringIdx {a b : Int} (h : start < n) (hab : a + b ≤ n) (hb : 0 ≤ b) :
    ringIdx n (ringIdx n start a) b = ringIdx n start (a + b) := by
  unfold ringIdx
  split
  · split <;> split <;> omega
  · split <;> split <;> omega

/-! ## §2. Reading. -/

/-- `len` cells in a row. -/
def flatSlice (f : Int → α) (start : Int) (len : Nat) : List α :=
  (List.range len).map (fun (k : Nat) => f (start + k))

/-- `len` cells round the ring. -/
def ringSlice (f : Int → α) (n start : Int) (len : Nat) : List α :=
  (List.range len).map (fun (k : Nat) => f (ringIdx n start k))

@[simp] theorem flatSlice_length (f : Int → α) (start : Int) (len : Nat) :
    (flatSlice f start len).length = len := by
  simp [flatSlice]

theorem flatSlice_succ (f : Int → α) (start : Int) (len : Nat) :
    flatSlice f start (len + 1) = flatSlice f start len ++ [f (start + len)] := by
  unfold flatSlice
  rw [List.range_succ, List.map_append, List.map_singleton]

@[simp] theorem ringSlice_length (f : Int → α) (n start : Int) (len : Nat) :
    (ringSlice f n start len).length = len := by
  simp [ringSlice]

@[simp] theorem ringSlice_zero (f : Int → α) (n start : Int) : ringSlice f n start 0 = [] := rfl

theorem ringSlice_getElem {len j : Nat} (hj : j < (ringSlice f n start len).length) :
    (ringSlice f n start len)[j] = f (ringIdx n start j) := by
  simp [ringSlice]

/-- A stretch that does not pass the end. -/
theorem ringSlice_flat {len : Nat} (h : start + len ≤ n) :
    ringSlice f n start len = flatSlice f start len := by
  apply List.map_congr_left
  intro k hk
  have hk' := List.mem_range.1 hk
  unfold ringIdx
  rw [if_pos (by omega)]

theorem ringSlice_congr {len : Nat}
    (h : ∀ k : Nat, k < len → f (ringIdx n start k) = g (ringIdx n start k)) :
    ringSlice f n start len = ringSlice g n start len :=
  List.map_congr_left (fun k hk => h k (List.mem_range.1 hk))

/-- **A stretch in two parts.** -/
theorem ringSlice_add {a b : Nat} (h : start < n) (hab : (a : Int) + b ≤ n) :
    ringSlice f n start (a + b)
      = ringSlice f n start a ++ ringSlice f n (ringIdx n start a) b := by
  unfold ringSlice
  rw [List.range_add, List.map_append, List.map_map]
  congr 1
  apply List.map_congr_left
  intro k hk
  have hk' := List.mem_range.1 hk
  rw [ringIdx_ringIdx h (by omega) (by omega)]
  show f (ringIdx n start ((a + k : Nat) : Int)) = _
  rw [Int.natCast_add]

/-! ## §3. Writing. -/

/-- `src` in the cells from `off` on. -/
def blit (f : Int → α) (off : Int) (src : List α) : Int → α := fun i =>
  if off ≤ i then (src[(i - off).toNat]?).getD (f i) else f i

theorem blit_at {off : Int} {src : List α} {j : Nat} (hj : j < src.length) :
    blit f off src (off + j) = src[j] := by
  unfold blit
  have hoff : (off + (j : Int) - off).toNat = j := by omega
  rw [if_pos (by omega), hoff, List.getElem?_eq_getElem hj]
  rfl

theorem blit_off {off i : Int} {src : List α} (h : i < off ∨ off + src.length ≤ i) :
    blit f off src i = f i := by
  unfold blit
  split
  · rw [List.getElem?_eq_none (by omega)]
    rfl
  · rfl

/-- **Writing behind a stretch in a row** appends to it. -/
theorem flatSlice_blit {len k : Nat} {src : List α} (hk : k ≤ src.length) :
    flatSlice (blit f (start + len) src) start (len + k) = flatSlice f start len ++ src.take k := by
  unfold flatSlice
  rw [List.range_add, List.map_append, List.map_map]
  congr 1
  · apply List.map_congr_left
    intro i hi
    have hi' := List.mem_range.1 hi
    exact blit_off (by omega)
  · apply List.ext_getElem
    · rw [List.length_map, List.length_range, List.length_take]
      omega
    · intro i hi hi'
      rw [List.length_map, List.length_range] at hi
      have hcell : start + ((len + i : Nat) : Int) = start + len + (i : Int) := by omega
      rw [List.getElem_map, List.getElem_range, List.getElem_take]
      show blit f (start + len) src (start + ((len + i : Nat) : Int)) = _
      rw [hcell, blit_at (by omega)]

/-- `src` in the cells from `off` on, round the ring. -/
def ringWrite (f : Int → α) (n off : Int) (src : List α) : Int → α :=
  if off + src.length < n then blit f off src
  else blit (blit f off (src.take (n - off).toNat)) 0 (src.drop (n - off).toNat)

theorem ringWrite_at {off : Int} {src : List α} (h : off < n)
    (hlen : src.length ≤ n) {j : Nat} (hj : j < src.length) :
    ringWrite f n off src (ringIdx n off j) = src[j] := by
  unfold ringWrite ringIdx
  split
  · rw [if_pos (by omega)]
    exact blit_at hj
  · by_cases hflat : off + (j : Int) < n
    · -- before the end: the first part, which the second leaves alone
      rw [if_pos hflat, blit_off (by rw [List.length_drop]; omega)]
      have htake : j < (src.take (n - off).toNat).length := by
        rw [List.length_take]
        omega
      rw [blit_at htake, List.getElem_take]
    · rw [if_neg hflat]
      have hdrop : j - (n - off).toNat < (src.drop (n - off).toNat).length := by
        rw [List.length_drop]
        omega
      have hidx : off + (j : Int) - n = 0 + ((j - (n - off).toNat : Nat) : Int) := by omega
      rw [hidx, blit_at hdrop, List.getElem_drop]
      congr 1
      omega

theorem ringWrite_eq_off {off : Int} {src : List α} (h : off < n) {k : Int} (hk : src.length ≤ k) (hkn : k < n) :
    ringWrite f n off src (ringIdx n off k) = f (ringIdx n off k) := by
  unfold ringWrite ringIdx
  split
  · split
    · exact blit_off (by omega)
    · exact blit_off (by omega)
  · rw [if_neg (by omega)]
    rw [blit_off (by rw [List.length_drop]; omega), blit_off (by rw [List.length_take]; omega)]

/-- **Writing behind a stretch** appends to it. -/
theorem ringSlice_write {len : Nat} {src : List α} (h0 : 0 ≤ start) (h : start < n)
    (hlen : (len : Int) + src.length ≤ n) (hroom : (len : Int) < n) :
    ringSlice (ringWrite f n (ringIdx n start len) src) n start (len + src.length)
      = ringSlice f n start len ++ src := by
  have hoff : ringIdx n start len < n := ringIdx_lt h (by omega)
  rw [ringSlice_add h hlen]
  congr 1
  · -- the stretch itself is more steps away than `src` is long
    apply ringSlice_congr
    intro k hk
    have hback : ringIdx n start k
        = ringIdx n (ringIdx n start len) ((k : Int) + n - len) := by
      unfold ringIdx
      split
      · split <;> split <;> omega
      · split <;> split <;> omega
    rw [hback]
    exact ringWrite_eq_off hoff (by omega) (by omega)
  · apply List.ext_getElem
    · exact ringSlice_length _ _ _ _
    · intro j hj hj'
      rw [ringSlice_getElem]
      exact ringWrite_at hoff (by omega) hj'

end RedisAgent
