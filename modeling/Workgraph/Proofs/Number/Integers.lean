import Mathlib.Algebra.Order.Ring.Int
import Workgraph.Number.Binary64
/-!
# Integers among floating point numbers

Integers of a magnitude up to `2 ^ 53` are floating point numbers themselves, so they are compared
as such without a loss. The ranks of the integers in one binade are in their order, and each binade
begins where the one before it ends.

## Main statements

- `roundRank_eq`: the rank of an integer in its binade
- `roundRank_lt`: greater integers have greater ranks
- `Extended.lt_ofInt`: integers are ordered as floating point numbers are
-/

namespace Workgraph

theorem leadingBit_eq : leadingBit = 2 ^ 52 := rfl

theorem scaled_natCast (num den shift : Nat) : scaled num den shift = (num * 2 ^ shift, den) := by
  unfold scaled
  rw [if_pos (Int.natCast_nonneg shift), Int.toNat_natCast]
  rfl

theorem roundHalfEven_one (n : Nat) : roundHalfEven n 1 = n := by
  simp [roundHalfEven, Nat.mod_one]

section Binades

variable {m k : Nat} (hlow : 2 ^ k ≤ m) (hhigh : m < 2 ^ (k + 1)) (hk : k ≤ 52)
include hlow hhigh hk

theorem binade_eq : binade m 1 = (k : Int) - 52 := by
  have hm : m ≠ 0 := by
    have hpos := Nat.two_pow_pos k
    omega
  have hlog : Nat.log2 m = k := (Nat.log2_eq_iff hm).mpr ⟨hlow, hhigh⟩
  have hguess : (Nat.log2 m : Int) - (Nat.log2 1 : Int) - 52 = k - 52 := by
    have hone : Nat.log2 1 = 0 := by decide
    omega
  have hshift : -((k : Int) - 52) = ((52 - k : Nat) : Int) := by omega
  -- The guess is right: scaled by it, the integer has a leading bit.
  have hleading : ¬ m * 2 ^ (52 - k) < leadingBit * 1 := by
    have hpow : leadingBit = 2 ^ k * 2 ^ (52 - k) := by
      rw [leadingBit_eq, ← Nat.pow_add, Nat.add_sub_cancel' hk]
    rw [hpow, Nat.mul_one, Nat.not_lt]
    exact Nat.mul_le_mul_right _ hlow
  unfold binade
  rw [hguess]
  dsimp only
  rw [hshift, scaled_natCast, if_neg hleading]
  unfold lowestExponent
  omega

/-- The rank of an integer in its binade. -/
theorem roundRank_eq : roundRank m 1 = (k + 1022) * 2 ^ 52 + m * 2 ^ (52 - k) := by
  have hm : (m == 0) = false := by
    have hpos := Nat.two_pow_pos k
    simp
    omega
  have hshift : -((k : Int) - 52) = ((52 - k : Nat) : Int) := by omega
  have hplace : ((k : Int) - 52 - lowestExponent).toNat = k + 1022 := by
    unfold lowestExponent
    omega
  unfold roundRank
  rw [hm, if_neg Bool.false_ne_true, binade_eq hlow hhigh hk]
  dsimp only
  rw [hshift, scaled_natCast, roundHalfEven_one, hplace, leadingBit_eq]

/-- The ranks of the integers in a binade. -/
theorem roundRank_bounds :
    (k + 1023) * 2 ^ 52 ≤ roundRank m 1 ∧ roundRank m 1 < (k + 1024) * 2 ^ 52 := by
  have hpow : 2 ^ k * 2 ^ (52 - k) = 2 ^ 52 := by rw [← Nat.pow_add, Nat.add_sub_cancel' hk]
  have hle : 2 ^ k * 2 ^ (52 - k) ≤ m * 2 ^ (52 - k) := Nat.mul_le_mul_right _ hlow
  have hlt : m * 2 ^ (52 - k) < 2 ^ (k + 1) * 2 ^ (52 - k) :=
    Nat.mul_lt_mul_of_pos_right hhigh (Nat.two_pow_pos _)
  rw [Nat.pow_succ, Nat.mul_right_comm] at hlt
  rw [hpow] at hle hlt
  rw [roundRank_eq hlow hhigh hk]
  omega

end Binades

/-- The greatest magnitude up to which every integer is a floating point number. -/
def exactBound : Nat := 2 ^ 53

theorem roundRank_exactBound : roundRank exactBound 1 = 1076 * 2 ^ 52 := by decide +kernel

/-- A positive integer that is not too large lies in a binade. -/
theorem exists_binade {m : Nat} (hpos : 0 < m) (hm : m < exactBound) :
    ∃ k ≤ 52, 2 ^ k ≤ m ∧ m < 2 ^ (k + 1) := by
  have hlog := (Nat.log2_lt (Nat.ne_of_gt hpos)).mpr hm
  exact ⟨Nat.log2 m, Nat.le_of_lt_succ hlog, Nat.log2_self_le (Nat.ne_of_gt hpos),
    Nat.lt_log2_self⟩

/-- Greater integers have greater ranks. -/
theorem roundRank_lt {a b : Nat} (hab : a < b) (hb : b ≤ exactBound) :
    roundRank a 1 < roundRank b 1 := by
  -- The greatest of them begins the binade above all others.
  have hbinade : ∃ k, (k + 1023) * 2 ^ 52 ≤ roundRank b 1 ∧ 2 ^ k ≤ b ∧
      (k ≤ 52 → b < 2 ^ (k + 1)) := by
    obtain rfl | hlt := Nat.eq_or_lt_of_le hb
    · exact ⟨53, Nat.le_of_eq roundRank_exactBound.symm, Nat.le_refl _, by omega⟩
    · obtain ⟨k, hk, hlow, hhigh⟩ := exists_binade (Nat.zero_lt_of_lt hab) hlt
      exact ⟨k, (roundRank_bounds hlow hhigh hk).1, hlow, fun _ => hhigh⟩
  obtain ⟨l, hrank, hlow', hhigh'⟩ := hbinade
  obtain rfl | hpos := Nat.eq_zero_or_pos a
  · have hzero : roundRank 0 1 = 0 := rfl
    omega
  · obtain ⟨k, hk, hlow, hhigh⟩ := exists_binade hpos (Nat.lt_of_lt_of_le hab hb)
    have hkl : k ≤ l := by
      by_contra hlk
      have hpow : 2 ^ (l + 1) ≤ 2 ^ k := Nat.pow_le_pow_right Nat.zero_lt_two (by omega)
      have hbelow := hhigh' (by omega)
      omega
    obtain rfl | hlt := Nat.eq_or_lt_of_le hkl
    · rw [roundRank_eq hlow hhigh hk, roundRank_eq hlow' (hhigh' hk) hk]
      have hmul := Nat.mul_lt_mul_of_pos_right hab (Nat.two_pow_pos (52 - k))
      omega
    · have hbelow := (roundRank_bounds hlow hhigh hk).2
      omega

theorem roundRank_le {a b : Nat} (hab : a ≤ b) (hb : b ≤ exactBound) :
    roundRank a 1 ≤ roundRank b 1 := by
  obtain rfl | hlt := Nat.eq_or_lt_of_le hab
  · exact Nat.le_refl _
  · exact Nat.le_of_lt (roundRank_lt hlt hb)

namespace Extended

/-- The place of an integer on the number line. -/
def placeOf (n : Int) : Int := if n < 0 then -(roundRank n.natAbs 1 : Int) else roundRank n.natAbs 1

theorem key?_ofInt {n : Int} (hn : n.natAbs ≤ exactBound) : (ofInt n).key? = some (placeOf n) := by
  have hfinite : roundRank n.natAbs 1 < infinityRank := by
    refine Nat.lt_of_le_of_lt (roundRank_le hn (Nat.le_refl _)) ?_
    rw [roundRank_exactBound]
    decide
  unfold ofInt ofQuotient Binary64.ofQuotient? Binary64.ofRank?
  rw [dif_pos hfinite]
  unfold key? Binary64.key placeOf
  simp

theorem placeOf_lt {a b : Int} (ha : a.natAbs ≤ exactBound) (hb : b.natAbs ≤ exactBound)
    (hab : a < b) : placeOf a < placeOf b := by
  unfold placeOf
  by_cases hneg : b < 0
  · have hrank := roundRank_lt (show b.natAbs < a.natAbs by omega) ha
    rw [if_pos (by omega), if_pos hneg]
    omega
  · rw [if_neg hneg]
    by_cases hneg' : a < 0
    · have hrank := roundRank_lt (show 0 < a.natAbs by omega) ha
      rw [if_pos hneg']
      omega
    · have hrank := roundRank_lt (show a.natAbs < b.natAbs by omega) hb
      rw [if_neg hneg']
      omega

/-- Integers that are not too large are ordered as floating point numbers are. -/
theorem lt_ofInt {a b : Int} (ha : a.natAbs ≤ exactBound) (hb : b.natAbs ≤ exactBound) :
    (ofInt a).lt (ofInt b) = decide (a < b) := by
  unfold lt compareBy
  rw [key?_ofInt ha, key?_ofInt hb]
  dsimp only
  congr 1
  refine propext ⟨fun h => ?_, placeOf_lt ha hb⟩
  by_contra hle
  obtain rfl | hlt := Int.le_iff_eq_or_lt.mp (Int.not_lt.mp hle)
  · exact Int.lt_irrefl _ h
  · exact Int.lt_asymm h (placeOf_lt hb ha hlt)

end Extended

end Workgraph
