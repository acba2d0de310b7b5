import Animatronic.Proofs.Checksum.Polynomial
import Mathlib.Algebra.CharP.Algebra
import Mathlib.Algebra.Field.ZMod
import Mathlib.GroupTheory.OrderOfElement
import Mathlib.RingTheory.AdjoinRoot
import Mathlib.Tactic.LinearCombination
import Mathlib.Tactic.NormNum.Prime

/-!
# The generator of the narrow checksum

The generator `x ^ 16 + x ^ 15 + x ^ 2 + 1` is the product of `x + 1` and `x ^ 15 + x + 1`.  A root
of the second factor has order `2 ^ 15 - 1` (`orderOf_root_cofactor`), so that it takes that many
steps of the register until it repeats itself; and no sum of different powers below the degree of a
polynomial is zero at its root (`sum_pow_root_ne_zero`).
-/

namespace Animatronic

namespace Checksum

open Polynomial

/-- The generator with its leading term. -/
noncomputable def generator : (ZMod 2)[X] := X ^ 16 + X ^ 15 + X ^ 2 + 1

/-- What is left of the generator without its factor `X + 1`. -/
noncomputable def cofactor : (ZMod 2)[X] := X ^ 15 + X + 1

theorem monic_generator : generator.Monic := by
  unfold generator
  monicity!

theorem natDegree_generator : generator.natDegree = 16 := by
  unfold generator
  compute_degree!

theorem monic_cofactor : cofactor.Monic := by
  unfold cofactor
  monicity!

theorem natDegree_cofactor : cofactor.natDegree = 15 := by
  unfold cofactor
  compute_degree!

/-- Two is zero at the root of any polynomial that is not constant. -/
theorem charP_adjoinRoot {p : (ZMod 2)[X]} (positive : 0 < p.natDegree) :
    CharP (AdjoinRoot p) 2 := by
  have nontrivial := AdjoinRoot.nontrivial p (natDegree_pos_iff_degree_pos.mp positive).ne'
  exact charP_of_injective_algebraMap (algebraMap (ZMod 2) (AdjoinRoot p)).injective 2

instance : CharP (AdjoinRoot generator) 2 :=
  charP_adjoinRoot (by rw [natDegree_generator]; decide)

instance : CharP (AdjoinRoot cofactor) 2 :=
  charP_adjoinRoot (by rw [natDegree_cofactor]; decide)

/-- Different powers below the degree do not add up to zero. -/
theorem sum_pow_root_ne_zero {p : (ZMod 2)[X]} (monic : p.Monic) {powers : Finset Nat}
    (nonempty : powers.Nonempty) (below : ∀ i ∈ powers, i < p.natDegree) :
    ∑ i ∈ powers, AdjoinRoot.root p ^ i ≠ 0 := by
  intro zero
  have coefficient : ∀ i, (∑ j ∈ powers, (X : (ZMod 2)[X]) ^ j).coeff i =
      if i ∈ powers then 1 else 0 := by
    intro i
    simp [finsetSum_coeff, coeff_X_pow]
  have divides : p ∣ ∑ j ∈ powers, X ^ j := by
    rw [← AdjoinRoot.mk_eq_zero, map_sum]
    simpa using zero
  refine monic.not_dvd_of_degree_lt ?_ ?_ divides
  · intro vanishes
    obtain ⟨i, mem⟩ := nonempty
    have leading := coefficient i
    rw [vanishes, coeff_zero, if_pos mem] at leading
    exact zero_ne_one leading
  · rw [degree_eq_natDegree monic.ne_zero, degree_lt_iff_coeff_zero]
    intro i high
    rw [coefficient, if_neg fun mem => absurd (below i mem) (Nat.not_lt.mpr high)]

/-! ## Roots -/

section Root

variable {R : Type} [CommRing R] [CharP R 2] {x : R}

theorem IsRoot.isUnit (root : IsRoot x) : IsUnit x := by
  have two := CharTwo.two_eq_zero (R := R)
  refine IsUnit.of_mul_eq_one (x ^ 15 + x ^ 14 + x) ?_
  unfold IsRoot at root
  linear_combination root + (x ^ 15 + x ^ 2) * two

/-- A root of the cofactor is a root of the generator. -/
theorem IsRoot.of_cofactor (root : x ^ 15 = x + 1) : IsRoot x := by
  have two := CharTwo.two_eq_zero (R := R)
  unfold IsRoot
  linear_combination (x - 1) * root - two

/-- Squaring again and again gives the powers of `x` to a power of two, which add up. -/
theorem pow_two_pow_add_four (root : x ^ 15 = x + 1) (k : Nat) :
    x ^ 2 ^ (k + 4) = x ^ 2 ^ (k + 1) + x ^ 2 ^ k := by
  have sixteen : x ^ 16 = x ^ 2 + x := by linear_combination x * root
  calc x ^ 2 ^ (k + 4) = (x ^ 16) ^ 2 ^ k := by rw [← pow_mul, Nat.pow_add']
    _ = (x ^ 2) ^ 2 ^ k + x ^ 2 ^ k := by rw [sixteen, add_pow_char_pow]
    _ = x ^ 2 ^ (k + 1) + x ^ 2 ^ k := by rw [← pow_mul, ← Nat.pow_succ']

/-- The powers that are needed for the order. -/
theorem powers_of_cofactor (root : x ^ 15 = x + 1) :
    x ^ 16 = x ^ 2 + x ∧ x ^ 32 = x ^ 4 + x ^ 2 ∧ x ^ 64 = x ^ 8 + x ^ 4 ∧
      x ^ 128 = x ^ 8 + x ^ 2 + x ∧ x ^ 512 = x ^ 8 + x ^ 2 ∧ x ^ 1024 = x ^ 4 + x ^ 2 + x ∧
      x ^ 4096 = x ^ 8 + x ^ 4 + x ^ 2 + x ∧ x ^ 32768 = x := by
  have two := CharTwo.two_eq_zero (R := R)
  have step := pow_two_pow_add_four root
  have four : x ^ 16 = x ^ 2 + x := by simpa using step 0
  have five : x ^ 32 = x ^ 4 + x ^ 2 := by simpa using step 1
  have six : x ^ 64 = x ^ 8 + x ^ 4 := by simpa using step 2
  have seven : x ^ 128 = x ^ 16 + x ^ 8 := by simpa using step 3
  have eight : x ^ 256 = x ^ 32 + x ^ 16 := by simpa using step 4
  have nine : x ^ 512 = x ^ 64 + x ^ 32 := by simpa using step 5
  have ten : x ^ 1024 = x ^ 128 + x ^ 64 := by simpa using step 6
  have eleven : x ^ 2048 = x ^ 256 + x ^ 128 := by simpa using step 7
  have twelve : x ^ 4096 = x ^ 512 + x ^ 256 := by simpa using step 8
  have fifteen : x ^ 32768 = x ^ 4096 + x ^ 2048 := by simpa using step 11
  refine ⟨four, five, six, ?_, ?_, ?_, ?_, ?_⟩
  · linear_combination seven + four
  · linear_combination nine + six + five + x ^ 4 * two
  · linear_combination ten + seven + six + four + x ^ 8 * two
  · linear_combination twelve + nine + eight + six + 2 * five + four + (x ^ 4 + x ^ 2) * two
  · linear_combination fifteen + twelve + eleven + nine + 2 * eight + seven + six + 3 * five +
      3 * four + (x ^ 8 + 2 * x ^ 4 + 3 * x ^ 2 + x) * two

/-- The powers that a shorter period would make one. -/
theorem short_powers_of_cofactor (root : x ^ 15 = x + 1) :
    x ^ 217 + 1 = ∑ i ∈ {1, 2, 3, 4, 5, 6, 9, 11, 13}, x ^ i ∧
      x ^ 1057 + 1 = ∑ i ∈ {0, 4, 5, 6, 9}, x ^ i ∧
      x ^ 4681 + 1 = ∑ i ∈ {0, 1, 4, 5, 9, 10, 12}, x ^ i := by
  have two := CharTwo.two_eq_zero (R := R)
  obtain ⟨four, five, six, seven, nine, ten, twelve, -⟩ := powers_of_cofactor root
  refine ⟨?_, ?_, ?_⟩
  · have product : x ^ 217 = x ^ 128 * x ^ 64 * x ^ 16 * x ^ 9 := by ring
    rw [product, seven, six, four]
    simp only [Finset.mem_insert, OfNat.one_ne_ofNat, Finset.mem_singleton, or_self,
      not_false_eq_true, Finset.sum_insert, pow_one, Nat.reduceEqDiff, Finset.sum_singleton]
    linear_combination
      (x ^ 12 + x ^ 11 + x ^ 8 + x ^ 7 + x ^ 6 + x ^ 4 + x ^ 2 + 1) * root +
        (x ^ 20 + x ^ 16 + x ^ 12 + x ^ 8 + x ^ 7 + 1) * two
  · have product : x ^ 1057 = x ^ 1024 * x ^ 32 * x := by ring
    rw [product, ten, five]
    simp only [Finset.mem_insert, OfNat.zero_ne_ofNat, Finset.mem_singleton, or_self,
      not_false_eq_true, Finset.sum_insert, pow_zero, Nat.reduceEqDiff, Finset.sum_singleton]
    linear_combination x ^ 7 * two
  · have product : x ^ 4681 = x ^ 4096 * x ^ 512 * x ^ 64 * x ^ 9 := by ring
    rw [product, twelve, nine, six]
    simp only [Finset.mem_insert, zero_ne_one, OfNat.zero_ne_ofNat, Finset.mem_singleton, or_self,
      not_false_eq_true, Finset.sum_insert, pow_zero, OfNat.one_ne_ofNat, pow_one,
      Nat.reduceEqDiff, Finset.sum_singleton]
    linear_combination
      (x ^ 18 + x ^ 11 + x ^ 10 + x ^ 8 + x ^ 7 + x ^ 6 + x ^ 5 + x ^ 3 + x ^ 2 + x) * root +
        (x ^ 29 + x ^ 27 + x ^ 23 + x ^ 19 + x ^ 11 + x ^ 8 + x ^ 7 + x ^ 6 + x ^ 3 + x ^ 2) * two

end Root

theorem root_generator : IsRoot (AdjoinRoot.root generator) := by
  have zero : AdjoinRoot.mk generator (X ^ 16 + X ^ 15 + X ^ 2 + 1) = 0 := AdjoinRoot.mk_self
  simp only [map_add, map_pow, map_one, AdjoinRoot.mk_X] at zero
  rw [IsRoot, ← CharTwo.add_eq_zero]
  linear_combination zero

theorem root_cofactor :
    AdjoinRoot.root cofactor ^ 15 = AdjoinRoot.root cofactor + 1 := by
  have zero : AdjoinRoot.mk cofactor (X ^ 15 + X + 1) = 0 := AdjoinRoot.mk_self
  simp only [map_add, map_pow, map_one, AdjoinRoot.mk_X] at zero
  rw [← CharTwo.add_eq_zero]
  linear_combination zero

/-- A power that is a sum of others and of one is not one itself. -/
theorem pow_root_cofactor_ne_one {n : Nat} (powers : Finset Nat) (nonempty : powers.Nonempty)
    (below : ∀ i ∈ powers, i < 15)
    (sum : AdjoinRoot.root cofactor ^ n + 1 = ∑ i ∈ powers, AdjoinRoot.root cofactor ^ i) :
    AdjoinRoot.root cofactor ^ n ≠ 1 := by
  intro one
  rw [one, CharTwo.add_self_eq_zero] at sum
  exact sum_pow_root_ne_zero monic_cofactor nonempty (by rwa [natDegree_cofactor]) sum.symm

/-- The root of the cofactor has the largest order that there is for its degree, which is
`7 * 31 * 151`. -/
theorem orderOf_root_cofactor : orderOf (AdjoinRoot.root cofactor) = 32767 := by
  have root := root_cofactor
  have whole : AdjoinRoot.root cofactor ^ 32767 = 1 := by
    obtain ⟨-, -, -, -, -, -, -, last⟩ := powers_of_cofactor root
    refine (IsRoot.of_cofactor root).isUnit.mul_left_cancel ?_
    rw [← pow_succ', last, mul_one]
  obtain ⟨first, second, third⟩ := short_powers_of_cofactor root
  refine orderOf_eq_of_pow_and_pow_div_prime (by decide) whole fun p prime divides => ?_
  have factors : 32767 = 7 * 31 * 151 := rfl
  rw [factors, prime.dvd_mul, prime.dvd_mul] at divides
  rcases divides with (seven | thirtyOne) | large
  · rw [(Nat.prime_dvd_prime_iff_eq prime (by norm_num)).mp seven]
    exact pow_root_cofactor_ne_one _ (by decide) (by decide) third
  · rw [(Nat.prime_dvd_prime_iff_eq prime (by norm_num)).mp thirtyOne]
    exact pow_root_cofactor_ne_one _ (by decide) (by decide) second
  · rw [(Nat.prime_dvd_prime_iff_eq prime (by norm_num)).mp large]
    exact pow_root_cofactor_ne_one _ (by decide) (by decide) first

end Checksum

end Animatronic
