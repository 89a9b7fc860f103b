/-
Index sets packed into machine words.

A bitmap is a list of `w`-bit words; index `i` is bit `i % w` of word `i / w`.

* `test_mark` — marking an index adds that index and no other;
* `prefixSet_iff` — the word-by-word comparison with all ones says that every
  index below a bound is set.
-/
import Mathlib

/-- A bitmap of `w`-bit words. -/
abbrev Bitmap (w : ℕ) := List (BitVec w)

namespace Bitmap

open List

open Nat

variable {w k b r n : ℕ}

/-- The bitmap of `n` words without a set index. -/
def zeros (w n : ℕ) : Bitmap w := List.replicate n 0

def test (m : Bitmap w) (i : ℕ) : Bool := (m.getD (i / w) 0).getLsbD (i % w)

/-- Set index `i`, if the bitmap has a word for it. -/
def mark (m : Bitmap w) (i : ℕ) : Bitmap w :=
  m.modify (i / w) fun word => word ||| BitVec.twoPow w (i % w)

/-- The words of the first `n` indices compared with all ones: the full ones
as a whole, the last one under a mask. -/
def prefixSet (m : Bitmap w) (n : ℕ) : Bool :=
  (m.take (n / w)).all (· = BitVec.allOnes w) &&
    (n % w = 0 ||
      m.getD (n / w) 0 &&& BitVec.ofNat w (2 ^ (n % w) - 1) = BitVec.ofNat w (2 ^ (n % w) - 1))

@[simp] lemma length_zeros (n : ℕ) : (zeros w n).length = n := length_replicate

@[simp] lemma length_mark (m : Bitmap w) (i : ℕ) : (mark m i).length = m.length :=
  length_modify ..

@[simp] lemma test_zeros (n i : ℕ) : test (zeros w n) i = false := by
  rw [test, zeros, getD_eq_getElem?_getD, getElem?_replicate]
  split_ifs <;> simp

lemma test_mark (hw : 0 < w) (m : Bitmap w) (i j : ℕ) :
    test (mark m i) j = (test m j || (decide (i = j) && decide (i / w < m.length))) := by
  rw [test, test, mark, getD_eq_getElem?_getD, getD_eq_getElem?_getD, getElem?_modify]
  by_cases hword : i / w = j / w
  · simp only [if_pos hword]
    by_cases hlen : j / w < m.length
    · have hbit : (i % w = j % w) ↔ i = j := by
        constructor
        · intro hmod
          rw [← Nat.div_add_mod i w, ← Nat.div_add_mod j w, hword, hmod]
        · rintro rfl
          rfl
      have hiw : i % w < w := Nat.mod_lt _ hw
      rw [getElem?_eq_getElem hlen]
      simp only [Option.map_eq_map, Option.map_some, Option.getD_some, BitVec.getLsbD_or,
        BitVec.getLsbD_twoPow]
      simp [hiw, hbit, hword, hlen]
    · rw [getElem?_eq_none (Nat.le_of_not_lt hlen)]
      simp [hword, hlen]
  · have hne : i ≠ j := by
      rintro rfl
      exact hword rfl
    simp [hword, hne]

lemma word_of_index (hb : b < w) : (k * w + b) / w = k := by
  rw [add_comm, add_mul_div_right _ _ (by omega), div_eq_of_lt hb, zero_add]

lemma bit_of_index (hb : b < w) : (k * w + b) % w = b := by
  rw [add_comm, add_mul_mod_self_right, mod_eq_of_lt hb]

lemma eq_allOnes_iff (x : BitVec w) : x = BitVec.allOnes w ↔ ∀ i < w, x.getLsbD i = true := by
  constructor
  · rintro rfl i hi
    simpa using hi
  · intro h
    apply BitVec.eq_of_getLsbD_eq
    intro i hi
    rw [h i hi]
    simpa using hi

lemma and_mask_eq_iff (x : BitVec w) (hr : r ≤ w) :
    x &&& BitVec.ofNat w (2 ^ r - 1) = BitVec.ofNat w (2 ^ r - 1) ↔
      ∀ i < r, x.getLsbD i = true := by
  constructor
  · intro h i hi
    have hbit := congrArg (fun y : BitVec w => y.getLsbD i) h
    simpa [BitVec.getLsbD_ofNat, testBit_two_pow_sub_one, hi, lt_of_lt_of_le hi hr] using hbit
  · intro h
    apply BitVec.eq_of_getLsbD_eq
    intro i hi
    rw [BitVec.getLsbD_and, BitVec.getLsbD_ofNat, testBit_two_pow_sub_one]
    by_cases hir : i < r
    · rw [h i hir, Bool.true_and]
    · simp [hir]

lemma all_full_iff (hw : 0 < w) {m : Bitmap w} (hk : k ≤ m.length) :
    (m.take k).all (· = BitVec.allOnes w) = true ↔ ∀ i < k * w, test m i = true := by
  rw [all_eq_true]
  constructor
  · intro h i hi
    have hword : i / w < k := Nat.div_lt_of_lt_mul (by rwa [Nat.mul_comm] at hi)
    have hlen : i / w < m.length := Nat.lt_of_lt_of_le hword hk
    have hmem : m[i / w] ∈ m.take k := mem_take_iff_getElem.mpr ⟨i / w, by omega, rfl⟩
    have hfull : m[i / w] = BitVec.allOnes w := by simpa using h _ hmem
    rw [test, getD_eq_getElem?_getD, getElem?_eq_getElem hlen, Option.getD_some]
    exact (eq_allOnes_iff _).mp hfull _ (Nat.mod_lt _ hw)
  · intro h x hx
    obtain ⟨j, hj, rfl⟩ := mem_take_iff_getElem.mp hx
    have hjk : j < k := by omega
    have hlen : j < m.length := by omega
    rw [decide_eq_true_eq, eq_allOnes_iff]
    intro b hb
    have hlt : j * w + b < k * w := by
      have hmul : (j + 1) * w ≤ k * w := Nat.mul_le_mul_right w hjk
      rw [Nat.add_mul, Nat.one_mul] at hmul
      omega
    have hbit := h _ hlt
    rw [test, word_of_index hb, bit_of_index hb, getD_eq_getElem?_getD,
      getElem?_eq_getElem hlen, Option.getD_some] at hbit
    exact hbit

/-- **The comparison with all ones.**  A bitmap that has the words for `n`
indices passes it exactly when all of them are set. -/
theorem prefixSet_iff (hw : 0 < w) {m : Bitmap w} (hn : n / w ≤ m.length) :
    prefixSet m n = true ↔ ∀ i < n, test m i = true := by
  have hspl : n / w * w + n % w = n := div_add_mod' n w
  have hrw : n % w < w := mod_lt _ hw
  -- the indices of the last, partly used word
  have hlast : (n % w = 0 ||
      m.getD (n / w) 0 &&& BitVec.ofNat w (2 ^ (n % w) - 1) = BitVec.ofNat w (2 ^ (n % w) - 1)) =
        true ↔ ∀ b < n % w, test m (n / w * w + b) = true := by
    rw [Bool.or_eq_true, decide_eq_true_eq, decide_eq_true_eq, and_mask_eq_iff _ (le_of_lt hrw)]
    constructor
    · intro h b hb
      have hbw : b < w := by omega
      rw [test, word_of_index hbw, bit_of_index hbw]
      rcases h with h0 | h
      · omega
      · exact h b hb
    · intro h
      refine .inr fun b hb => ?_
      have hbit := h b hb
      have hbw : b < w := by omega
      rwa [test, word_of_index hbw, bit_of_index hbw] at hbit
  rw [prefixSet, Bool.and_eq_true, hlast, all_full_iff hw hn]
  constructor
  · rintro ⟨hfull, hrest⟩ i hi
    by_cases hlow : i < n / w * w
    · exact hfull i hlow
    · have hback : n / w * w + (i - n / w * w) = i := by omega
      have hbit := hrest (i - n / w * w) (by omega)
      rwa [hback] at hbit
  · intro h
    exact ⟨fun i hi => h i (by omega), fun b hb => h _ (by omega)⟩

end Bitmap
