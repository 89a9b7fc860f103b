/-
Fixed-width big-endian numbers.

`encode w n` writes the low `w` bytes of `n`, most significant first, and
`decode` reads a byte string of any length.

* `decode_encode` — reading what was written gives the number back, as long as
  it fits the width;
* `encode_decode` — writing what was read gives the bytes back, so a field that
  was read determines its bytes.
-/
import Mathlib

namespace BigEndian

instance neZero_byte : NeZero 256 := ⟨by decide⟩

/-- The low `w` bytes of `n`, most significant first. -/
def encode : ℕ → ℕ → List (Fin 256)
  | 0, _ => []
  | w + 1, n => Fin.ofNat 256 (n / 256 ^ w) :: encode w n

/-- The number a byte string stands for. -/
def decode : List (Fin 256) → ℕ
  | [] => 0
  | b :: bs => b.val * 256 ^ bs.length + decode bs

@[simp] lemma length_encode (w n : ℕ) : (encode w n).length = w := by
  induction w with
  | zero => rfl
  | succ w ih => rw [encode, List.length_cons, ih]

variable (bs : List (Fin 256))

lemma decode_lt : decode bs < 256 ^ bs.length := by
  induction bs with
  | nil => simp [decode]
  | cons b bs =>
    have hb : b.val ≤ 255 := by omega
    have hmul : b.val * 256 ^ bs.length ≤ 255 * 256 ^ bs.length := Nat.mul_le_mul_right _ hb
    rw [decode, List.length_cons, pow_succ]
    omega

lemma decode_encode_mod (w n : ℕ) : decode (encode w n) = n % 256 ^ w := by
  induction w with
  | zero => simp [encode, decode, Nat.mod_one]
  | succ w ih =>
    rw [encode, decode, length_encode, ih, Fin.val_ofNat, pow_succ, Nat.mod_mul]
    ring

lemma decode_encode {w n : ℕ} (h : n < 256 ^ w) : decode (encode w n) = n := by
  rw [decode_encode_mod, Nat.mod_eq_of_lt h]

lemma encode_add_mul (w m k : ℕ) : encode w (k * 256 ^ w + m) = encode w m := by
  induction w generalizing k with
  | zero => rfl
  | succ w ih =>
    have hspl : k * 256 ^ (w + 1) + m = (k * 256) * 256 ^ w + m := by ring
    rw [encode, encode, hspl, ih]
    congr 1
    apply Fin.ext
    rw [Fin.val_ofNat, Fin.val_ofNat, Nat.add_comm,
      Nat.add_mul_div_right _ _ (Nat.pow_pos (by omega))]
    omega

lemma encode_decode : encode bs.length (decode bs) = bs := by
  induction bs with
  | nil => rfl
  | cons b bs ih =>
    rw [List.length_cons, encode, decode, encode_add_mul, ih]
    congr 1
    apply Fin.ext
    rw [Fin.val_ofNat, Nat.add_comm, Nat.add_mul_div_right _ _ (Nat.pow_pos (by omega)),
      Nat.div_eq_of_lt (decode_lt bs)]
    omega

end BigEndian
