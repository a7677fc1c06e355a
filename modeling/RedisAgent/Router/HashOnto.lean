/-
  RedisAgent.Router.HashOnto — every value is the hash of some key.

  Each step of `MurmurHash64A` can be undone: `murmurM` is odd, and a word is xored
  with its own upper bits.  A block without a zero byte takes more than half of all
  values, so two of them, one run through the hash from the front and one from its
  result, meet in the middle.

  Main results:
    • `strhash_onto` — every hash belongs to a key of 16 bytes without a zero;
    • `exists_keySlot` — every slot belongs to a key.
-/
import Mathlib.Data.Fintype.BigOperators
import Mathlib.Data.Nat.Digits.Defs
import RedisAgent.Router.ShardMap

namespace RedisAgent

/-! ## §1. Meeting in the middle. -/

/-- Two injective maps into a type that has not room for both have a value in common. -/
theorem exists_eq_of_card_lt {α β γ : Type*} [Fintype α] [Fintype β] [Fintype γ] {f : α → γ}
    {g : β → γ} (hf : Function.Injective f) (hg : Function.Injective g)
    (hcard : Fintype.card γ < Fintype.card α + Fintype.card β) : ∃ a b, f a = g b := by
  by_contra hno
  have hinj : Function.Injective (Sum.elim f g) :=
    hf.sumElim hg (fun a b hab => hno ⟨a, b, hab⟩)
  have hle := Fintype.card_le_of_injective _ hinj
  rw [Fintype.card_sum] at hle
  omega

/-! ## §2. The steps can be undone. -/

/-- The inverse of `murmurM` modulo 2^64. -/
def murmurInv : UInt64 := 0x5f7a0ea7e59b19bd

theorem murmurM_inv : murmurM * murmurInv = 1 := by decide

theorem mul_murmurM_inv (x : UInt64) : x * murmurM * murmurInv = x := by
  rw [UInt64.mul_assoc, murmurM_inv, UInt64.mul_one]

theorem mul_inv_murmurM (x : UInt64) : x * murmurInv * murmurM = x := by
  rw [UInt64.mul_assoc, UInt64.mul_comm murmurInv, murmurM_inv, UInt64.mul_one]

theorem mul_murmurM_inj {x y : UInt64} (h : x * murmurM = y * murmurM) : x = y := by
  rw [← mul_murmurM_inv x, h, mul_murmurM_inv]

/-- Twice by `murmurR` is beyond the word. -/
theorem shift_twice (x : UInt64) : (x >>> murmurR) >>> murmurR = 0 := by
  apply UInt64.toNat_inj.1
  have hx : x.toNat < 2 ^ 64 := x.toNat_lt
  have hr : murmurR.toNat % 64 = 47 := rfl
  rw [UInt64.toNat_shiftRight, UInt64.toNat_shiftRight, hr, Nat.shiftRight_eq_div_pow,
    Nat.shiftRight_eq_div_pow, Nat.div_div_eq_div_mul]
  show x.toNat / (2 ^ 47 * 2 ^ 47) = 0
  exact Nat.div_eq_of_lt (by omega)

/-- **Xoring in the upper bits** undoes itself. -/
theorem xorShift_twice (x : UInt64) :
    (x ^^^ (x >>> murmurR)) ^^^ ((x ^^^ (x >>> murmurR)) >>> murmurR) = x := by
  rw [UInt64.shiftRight_xor, shift_twice, UInt64.xor_zero, UInt64.xor_assoc, UInt64.xor_self,
    UInt64.xor_zero]

theorem xorShift_inj {x y : UInt64} (h : x ^^^ (x >>> murmurR) = y ^^^ (y >>> murmurR)) : x = y := by
  rw [← xorShift_twice x, h, xorShift_twice]

/-- What is done to a block before it is xored into the hash. -/
def murmurMix (k : UInt64) : UInt64 :=
  ((k * murmurM) ^^^ ((k * murmurM) >>> murmurR)) * murmurM

theorem murmurMix_inj {x y : UInt64} (h : murmurMix x = murmurMix y) : x = y :=
  mul_murmurM_inj (xorShift_inj (mul_murmurM_inj h))

/-! ## §3. Blocks. -/

/-- A block is the number whose digits in base 256 are its bytes. -/
theorem murmurLoad_toNat (bytes : List UInt8) (hlen : bytes.length ≤ 8) :
    (murmurLoad bytes).toNat = Nat.ofDigits 256 (bytes.map UInt8.toNat) := by
  have hfold : ∀ n (l : List UInt8), l.length = n → n ≤ 8 →
      (l.foldr (fun b (k : UInt64) => (k <<< 8) ||| b.toUInt64) 0).toNat
        = Nat.ofDigits 256 (l.map UInt8.toNat) := by
    intro n l hl hn
    induction l generalizing n with
    | nil => rfl
    | cons b l ih =>
        rw [List.length_cons] at hl
        have hrest := ih l.length rfl (by omega)
        have hlt : Nat.ofDigits 256 (l.map UInt8.toNat) < 256 ^ (l.map UInt8.toNat).length := by
          refine Nat.ofDigits_lt_base_pow_length (by decide) ?_
          intro d hd
          obtain ⟨c, -, rfl⟩ := List.mem_map.1 hd
          exact c.toNat_lt
        rw [List.length_map] at hlt
        have hpow : 256 ^ l.length ≤ 256 ^ 7 := Nat.pow_le_pow_right (by decide) (by omega)
        have hb : b.toNat < 2 ^ 8 := b.toNat_lt
        rw [List.foldr_cons, UInt64.toNat_or, UInt64.toNat_shiftLeft, hrest, List.map_cons,
          Nat.ofDigits_cons]
        show (Nat.ofDigits 256 (l.map UInt8.toNat) <<< 8 % 2 ^ 64) ||| b.toUInt64.toNat = _
        rw [UInt8.toNat_toUInt64, Nat.mod_eq_of_lt, ← Nat.shiftLeft_add_eq_or_of_lt hb,
          Nat.shiftLeft_eq]
        · omega
        · rw [Nat.shiftLeft_eq]
          omega
  unfold murmurLoad
  rw [List.take_of_length_le hlen]
  exact hfold bytes.length bytes rfl hlen

/-- Different blocks are different numbers. -/
theorem murmurLoad_inj {b c : List UInt8} (hb : b.length = 8) (hc : c.length = 8)
    (h : murmurLoad b = murmurLoad c) : b = c := by
  have hdigits : ∀ l : List UInt8, ∀ d ∈ l.map UInt8.toNat, d < 256 := by
    intro l d hd
    obtain ⟨x, -, rfl⟩ := List.mem_map.1 hd
    exact x.toNat_lt
  have hnum : Nat.ofDigits 256 (b.map UInt8.toNat) = Nat.ofDigits 256 (c.map UInt8.toNat) := by
    rw [← murmurLoad_toNat b (by omega), ← murmurLoad_toNat c (by omega), h]
  have hmap : b.map UInt8.toNat = c.map UInt8.toNat :=
    Nat.ofDigits_inj_of_len_eq (by decide) (by rw [List.length_map, List.length_map, hb, hc])
      (hdigits b) (hdigits c) hnum
  exact List.map_injective_iff.2 (fun x y hxy => UInt8.toNat_inj.1 hxy) hmap

/-- A block of bytes other than zero. -/
def blockOf (f : Fin 8 → Fin 255) : List UInt8 := List.ofFn (fun i => UInt8.ofNat ((f i).val + 1))

theorem blockOf_length (f : Fin 8 → Fin 255) : (blockOf f).length = 8 := List.length_ofFn

theorem toNat_blockByte (x : Fin 255) : (UInt8.ofNat (x.val + 1)).toNat = x.val + 1 := by
  rw [UInt8.toNat_ofNat']
  exact Nat.mod_eq_of_lt (by omega)

theorem blockOf_zero_free (f : Fin 8 → Fin 255) : 0 ∉ blockOf f := by
  intro hmem
  obtain ⟨i, hi⟩ := List.mem_ofFn.1 hmem
  have hval := congrArg UInt8.toNat hi
  rw [toNat_blockByte] at hval
  cases hval

theorem blockOf_inj : Function.Injective (fun f => murmurLoad (blockOf f)) := by
  intro f g h
  have hblock : blockOf f = blockOf g := murmurLoad_inj (blockOf_length f) (blockOf_length g) h
  funext i
  have hi := congrFun (List.ofFn_injective hblock) i
  have hval := congrArg UInt8.toNat hi
  rw [toNat_blockByte, toNat_blockByte] at hval
  exact Fin.ext (by omega)

/-- There are more than half as many blocks as there are words. -/
theorem card_blocks : Fintype.card (Fin (2 ^ 64))
    < Fintype.card (Fin 8 → Fin 255) + Fintype.card (Fin 8 → Fin 255) := by
  rw [Fintype.card_fun, Fintype.card_fin, Fintype.card_fin, Fintype.card_fin]
  decide

/-! ## §4. Keys of two blocks. -/

theorem murmurBlocks_two {b c : List UInt8} (hb : b.length = 8) (hc : c.length = 8) (h : UInt64) :
    murmurBlocks 2 (b ++ c) h
      = ((((h ^^^ murmurMix (murmurLoad b)) * murmurM) ^^^ murmurMix (murmurLoad c)) * murmurM, []) := by
  have hload : ∀ l : List UInt8, murmurLoad (b ++ l) = murmurLoad b := by
    intro l
    unfold murmurLoad
    rw [List.take_left' hb, List.take_of_length_le (Nat.le_of_eq hb)]
  unfold murmurBlocks murmurBlocks murmurBlocks
  rw [hload, List.drop_left' hb, List.drop_of_length_le (Nat.le_of_eq hc)]
  rfl

/-- **Every value is a hash**, of a key without a zero byte. -/
theorem strhash_onto (h : UInt64) : ∃ key : List UInt8, 0 ∉ key ∧ strhash key = h := by
  -- backwards from the result to the end of the second block
  obtain ⟨t, ht⟩ : ∃ t : UInt64,
      (((t ^^^ (t >>> murmurR)) * murmurM) ^^^ (((t ^^^ (t >>> murmurR)) * murmurM) >>> murmurR)) = h := by
    let u := (h ^^^ (h >>> murmurR)) * murmurInv
    refine ⟨u ^^^ (u >>> murmurR), ?_⟩
    rw [xorShift_twice, mul_inv_murmurM, xorShift_twice]
  -- forwards over the first block
  let h₀ : UInt64 := (0xba1dba1d : UInt32).toUInt64 ^^^ ((16 : Nat).toUInt64 * murmurM)
  have hfront : Function.Injective (fun f : Fin 8 → Fin 255 =>
      ((h₀ ^^^ murmurMix (murmurLoad (blockOf f))) * murmurM).toFin) := by
    intro f g hfg
    have hx := mul_murmurM_inj (UInt64.toFin_inj.1 hfg)
    exact blockOf_inj (murmurMix_inj ((UInt64.xor_right_inj _).1 hx))
  have hback : Function.Injective (fun f : Fin 8 → Fin 255 =>
      ((t * murmurInv) ^^^ murmurMix (murmurLoad (blockOf f))).toFin) := by
    intro f g hfg
    exact blockOf_inj (murmurMix_inj ((UInt64.xor_right_inj _).1 (UInt64.toFin_inj.1 hfg)))
  obtain ⟨f, g, hfg⟩ := exists_eq_of_card_lt hfront hback card_blocks
  have hmeet := UInt64.toFin_inj.1 hfg
  refine ⟨blockOf f ++ blockOf g, ?_, ?_⟩
  · rw [List.mem_append, not_or]
    exact ⟨blockOf_zero_free f, blockOf_zero_free g⟩
  · have hlen : (blockOf f ++ blockOf g).length = 16 := by
      rw [List.length_append, blockOf_length, blockOf_length]
    unfold strhash murmurHash64A
    rw [hlen]
    show ((_ ^^^ (_ >>> murmurR)) * murmurM) ^^^ _ = h
    rw [show 16 / 8 = 2 from rfl, murmurBlocks_two (blockOf_length f) (blockOf_length g)]
    unfold murmurTail
    rw [if_pos rfl]
    show (((((h₀ ^^^ murmurMix (murmurLoad (blockOf f))) * murmurM)
        ^^^ murmurMix (murmurLoad (blockOf g))) * murmurM ^^^ _) * murmurM) ^^^ _ = h
    rw [hmeet, UInt64.xor_assoc, UInt64.xor_self, UInt64.xor_zero, mul_inv_murmurM]
    exact ht

/-- **Every slot has a key.** -/
theorem exists_keySlot {p : Nat} (hp : p < partitionModKeyNat) :
    ∃ key : List UInt8, 0 ∉ key ∧ keySlot key = p := by
  obtain ⟨key, hzero, hkey⟩ := strhash_onto (UInt64.ofNat p)
  refine ⟨key, hzero, ?_⟩
  unfold partitionModKeyNat at hp
  unfold keySlot partitionModKeyNat
  rw [hkey, UInt64.toNat_ofNat']
  omega

end RedisAgent
