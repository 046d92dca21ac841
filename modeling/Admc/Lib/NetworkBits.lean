import Mathlib.Data.Nat.Basic
import Mathlib.Tactic.Common

/-!
# Leading bits

The bits of a word in network order, the most significant one first. A word that has no bit
from some place on (`ZeroFrom`) is told by a mask (`zeroFrom_iff_and_allOnes`,
`zeroFrom_iff_and_low`), or by its bytes (`zeroFrom_iff_byte`, `zeroFrom_iff_bytes`).
-/

namespace NetworkBits

variable {w n : ℕ} {x : BitVec w}

/-- All bits from place `n` on, counted from the most significant one, are zero. -/
def ZeroFrom (x : BitVec w) (n : ℕ) : Prop := ∀ i, n ≤ i → x.getMsbD i = false

theorem zeroFrom_width (x : BitVec w) : ZeroFrom x w := BitVec.getMsbD_of_ge x

theorem zeroFrom_zero : ZeroFrom x 0 ↔ x = 0 := by
  constructor
  · intro h
    ext i hi
    rw [← BitVec.getLsbD_eq_getElem, BitVec.getLsbD_eq_getMsbD, h _ (Nat.zero_le _)]
    simp
  · rintro rfl i -
    exact BitVec.getMsbD_zero

/-- The bits from a place on are those of the least significance. -/
theorem zeroFrom_iff_getLsbD (h : n ≤ w) :
    ZeroFrom x n ↔ ∀ j < w - n, x.getLsbD j = false := by
  constructor
  · intro hx j hj
    rw [BitVec.getLsbD_eq_getMsbD, hx _ (by omega), Bool.and_false]
  · intro hx i hi
    rw [BitVec.getMsbD_eq_getLsbD]
    by_cases hw : i < w
    · rw [hx _ (by omega), Bool.and_false]
    · rw [decide_eq_false hw, Bool.false_and]

theorem zeroFrom_iff_and_allOnes (h : n ≤ w) :
    ZeroFrom x n ↔ x = x &&& BitVec.allOnes w <<< (w - n) := by
  rw [zeroFrom_iff_getLsbD h]
  constructor
  · intro hx
    ext j hj
    have hbit := hx j
    rw [BitVec.getLsbD_eq_getElem hj] at hbit
    by_cases hlow : j < w - n <;> simp_all
  · intro hx j hj
    rw [hx, BitVec.getLsbD_and, BitVec.getLsbD_shiftLeft, decide_eq_true hj]
    simp

theorem getLsbD_low (w n j : ℕ) :
    (BitVec.ofNat w (1 <<< n - 1)).getLsbD j = (decide (j < w) && decide (j < n)) := by
  rw [Nat.one_shiftLeft, BitVec.getLsbD_ofNat, Nat.testBit_two_pow_sub_one]

theorem zeroFrom_iff_and_low (h : n ≤ w) :
    ZeroFrom x n ↔ x &&& BitVec.ofNat w (1 <<< (w - n) - 1) = 0 := by
  rw [zeroFrom_iff_getLsbD h]
  constructor
  · intro hx
    refine BitVec.eq_of_getLsbD_eq fun j hj => ?_
    rw [BitVec.getLsbD_and, getLsbD_low]
    by_cases hlow : j < w - n
    · rw [hx j hlow, Bool.false_and, BitVec.ofNat_eq_ofNat, BitVec.getLsbD_zero]
    · rw [decide_eq_false hlow, Bool.and_false, Bool.and_false, BitVec.ofNat_eq_ofNat,
        BitVec.getLsbD_zero]
  · intro hx j hj
    have hbit := congrArg (BitVec.getLsbD · j) hx
    simpa only [BitVec.getLsbD_and, getLsbD_low, hj, show j < w by omega, decide_true,
      Bool.and_true, BitVec.ofNat_eq_ofNat, BitVec.getLsbD_zero] using hbit

/-! ## Bytes -/

/-- A byte of a word, in network order. -/
def byte (x : BitVec w) (i : ℕ) : BitVec 8 := x.extractLsb' (w - 8 * (i + 1)) 8

theorem getMsbD_byte {i j : ℕ} (hi : 8 * (i + 1) ≤ w) (hj : j < 8) :
    (byte x i).getMsbD j = x.getMsbD (8 * i + j) := by
  have hle : w - 8 * (i + 1) + 8 - j ≤ w := by omega
  have hindex : w - (w - 8 * (i + 1) + 8 - j) = 8 * i + j := by omega
  rw [byte, BitVec.getMsbD_extractLsb', decide_eq_true hj, decide_eq_true hle, hindex]
  rfl

/-- A word has no bit from some place on just if the byte there has none, and all bytes that
    follow are zero. -/
theorem zeroFrom_iff_byte {b q r : ℕ} (hw : w = 8 * b) (hq : q < b) (hr : r ≤ 8) :
    ZeroFrom x (8 * q + r) ↔
      ZeroFrom (byte x q) r ∧ ∀ i, q < i → i < b → byte x i = 0 := by
  constructor
  · intro h
    refine ⟨fun j hj => ?_, fun i hi hib => zeroFrom_zero.1 fun j _ => ?_⟩
    all_goals by_cases hj8 : j < 8
    · rw [getMsbD_byte (by omega) hj8, h _ (by omega)]
    · exact BitVec.getMsbD_of_ge _ _ (by omega)
    · rw [getMsbD_byte (by omega) hj8, h _ (by omega)]
    · exact BitVec.getMsbD_of_ge _ _ (by omega)
  · rintro ⟨hbyte, hrest⟩ k hk
    by_cases hkw : k < w
    · have hdiv := Nat.div_add_mod k 8
      have hmod : k % 8 < 8 := Nat.mod_lt _ (by decide)
      rw [← hdiv, ← getMsbD_byte (by omega) hmod]
      -- the bit is in the byte of that place, or in one that follows
      rcases Nat.lt_or_ge q (k / 8) with hlt | hge
      · exact zeroFrom_zero.2 (hrest _ hlt (by omega)) _ (Nat.zero_le _)
      · have heq : k / 8 = q := by omega
        rw [heq]
        exact hbyte _ (by omega)
    · exact BitVec.getMsbD_of_ge _ _ (by omega)

theorem zeroFrom_iff_bytes {b q : ℕ} (hw : w = 8 * b) (hq : q < b) :
    ZeroFrom x (8 * q) ↔ ∀ i, q ≤ i → i < b → byte x i = 0 := by
  rw [← Nat.add_zero (8 * q), zeroFrom_iff_byte hw hq (Nat.zero_le 8), zeroFrom_zero]
  constructor
  · rintro ⟨hbyte, hrest⟩ i hi hib
    rcases Nat.eq_or_lt_of_le hi with rfl | hlt
    · exact hbyte
    · exact hrest i hlt hib
  · exact fun h => ⟨h q le_rfl hq, fun i hi hib => h i (Nat.le_of_lt hi) hib⟩

end NetworkBits
