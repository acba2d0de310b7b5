import Animatronic.Proofs.Binary32.Finite

/-!
# Rounding keeps order

A magnitude with at most 24 significant bits is one that some pattern has (`Binary32.IsExact`), and
reading that pattern gives the magnitude back.  Rounding goes to such a magnitude, leaves it alone,
and never puts a larger quotient below a smaller one (`roundQuanta_mono`), not even where the grid
becomes coarser.

So the value of a sum, a product or a quotient of numbers that are not negative is the exact result
rounded, and grows with its operands.
-/

namespace Animatronic

/-! ## Nearest naturals -/

/-- A quotient is rounded to at most `n` if it is less than half a unit above, or just that with
`n` even. -/
theorem roundDiv_le_iff {num den n : Nat} (positive : 0 < den) :
    roundDiv num den ≤ n ↔
      2 * num < (2 * n + 1) * den ∨ (2 * num = (2 * n + 1) * den ∧ n % 2 = 0) := by
  have whole := Nat.div_add_mod' num den
  have rest := Nat.mod_lt num positive
  have bounds := roundDiv_bounds num den
  rw [Nat.add_mul, Nat.mul_assoc]
  rcases Nat.lt_trichotomy (num / den) n with below | same | above
  · have room := Nat.mul_le_mul_right den below
    rw [Nat.succ_mul] at room
    exact iff_of_true (by omega) (by omega)
  · subst same
    unfold roundDiv
    dsimp only
    split <;> omega
  · have room := Nat.mul_le_mul_right den above
    rw [Nat.succ_mul] at room
    exact iff_of_false (by omega) (by omega)

/-- The larger one of two quotients is not rounded lower. -/
theorem roundDiv_mono {a b c d : Nat} (left : 0 < b) (right : 0 < d) (le : a * d ≤ c * b) :
    roundDiv a b ≤ roundDiv c d := by
  have above := (roundDiv_le_iff right).mp (Nat.le_refl (roundDiv c d))
  generalize roundDiv c d = n at above ⊢
  have scaled : 2 * a * d ≤ 2 * c * b := by
    rw [Nat.mul_assoc, Nat.mul_assoc]
    exact Nat.mul_le_mul_left 2 le
  refine (roundDiv_le_iff left).mpr ?_
  rcases above with below | ⟨tie, even⟩
  · refine Or.inl (Nat.lt_of_mul_lt_mul_right (a := d) ?_)
    calc 2 * a * d ≤ 2 * c * b := scaled
      _ < (2 * n + 1) * d * b := Nat.mul_lt_mul_of_pos_right below left
      _ = (2 * n + 1) * b * d := Nat.mul_right_comm ..
  · have le : 2 * a ≤ (2 * n + 1) * b := by
      rw [tie, Nat.mul_right_comm _ d b] at scaled
      exact Nat.le_of_mul_le_mul_right scaled right
    exact (Nat.lt_or_eq_of_le le).imp_right fun same => ⟨same, even⟩

namespace Binary32

variable {x y : Binary32} {m : Nat}

/-! ## Exact magnitudes -/

/-- On a grid coarser than the quanta there are 24 leading bits. -/
theorem le_leading (coarse : 0 < m.log2 - 23) : 2 ^ 23 ≤ m >>> (m.log2 - 23) := by
  have nonzero : m ≠ 0 := by
    rintro rfl
    exact absurd coarse (by decide)
  rw [Nat.shiftRight_eq_div_pow, Nat.le_div_iff_mul_le (Nat.two_pow_pos _), ← Nat.pow_add]
  refine Nat.le_trans (Nat.pow_le_pow_right (by decide) ?_) (Nat.log2_self_le nonzero)
  omega

/-- A magnitude with at most 24 significant bits. -/
def IsExact (m : Nat) : Prop := ∃ leading shift, leading < 2 ^ 24 ∧ m = leading * 2 ^ shift

/-- The leading bits are all of an exact magnitude. -/
theorem IsExact.shiftLeft_leading (exact : IsExact m) :
    (m >>> (m.log2 - 23)) <<< (m.log2 - 23) = m := by
  obtain ⟨leading, shift, small, rfl⟩ := exact
  rcases Nat.eq_zero_or_pos leading with rfl | positive
  · rw [Nat.zero_mul]
    rfl
  · have nonzero : leading * 2 ^ shift ≠ 0 :=
      Nat.ne_of_gt (Nat.mul_pos positive (Nat.two_pow_pos shift))
    have log : (leading * 2 ^ shift).log2 < 24 + shift := by
      refine (Nat.log2_lt nonzero).mpr ?_
      rw [Nat.pow_add]
      exact Nat.mul_lt_mul_of_pos_right small (Nat.two_pow_pos shift)
    have divides : 2 ^ ((leading * 2 ^ shift).log2 - 23) ∣ leading * 2 ^ shift :=
      Nat.dvd_mul_left_of_dvd (Nat.pow_dvd_pow 2 (by omega)) leading
    rw [Nat.shiftRight_eq_div_pow, Nat.shiftLeft_eq, Nat.div_mul_cancel divides]

theorem isExact_of_lt (small : m < 2 ^ 24) : IsExact m := ⟨m, 0, small, (Nat.mul_one m).symm⟩

/-- A significand that has been rounded up may have a bit more, which is the only one set. -/
theorem isExact_shiftLeft {leading : Nat} (le : leading ≤ 2 ^ 24) (shift : Nat) :
    IsExact (leading <<< shift) := by
  rw [Nat.shiftLeft_eq]
  rcases Nat.eq_or_lt_of_le le with rfl | small
  · refine ⟨2 ^ 23, shift + 1, by decide, ?_⟩
    rw [Nat.pow_succ 2 shift, Nat.mul_comm (2 ^ shift) 2, ← Nat.mul_assoc]
    rfl
  · exact ⟨leading, shift, small, rfl⟩

theorem isExact_magnitude (x : Binary32) : IsExact x.magnitude := by
  have small : x.fraction < 0x800000 := Nat.mod_lt _ (by decide)
  unfold magnitude
  split
  · exact isExact_of_lt (by omega)
  · exact isExact_shiftLeft (by omega) _

theorem isExact_infiniteMagnitude : IsExact infiniteMagnitude :=
  isExact_shiftLeft (by decide) 277

theorem isExact_quantaPerUnit : IsExact quantaPerUnit := isExact_shiftLeft (by decide) 149

theorem magnitude_lt_of_isFinite (finite : x.isFinite = true) : x.magnitude < infiniteMagnitude :=
  Nat.lt_of_le_of_lt (magnitude_le_of_isFinite finite) (by decide)

theorem isExact_roundQuanta (num den : Nat) : IsExact (roundQuanta num den) := by
  have leading := leading_lt (num / den)
  unfold roundQuanta
  dsimp only
  generalize (num / den).log2 - 23 = shift at leading ⊢
  rw [Nat.shiftRight_eq_div_pow, Nat.div_div_eq_div_mul, ← Nat.shiftLeft_eq] at leading
  exact isExact_shiftLeft (Nat.le_trans (roundDiv_bounds num _).2 leading) shift

/-! ## Patterns of exact magnitudes -/

theorem log2_le (le : m ≤ infiniteMagnitude) : m.log2 - 23 ≤ 254 := by
  rcases Nat.eq_or_lt_of_le le with rfl | below
  · decide
  · have log := log2_lt below
    omega

/-- The pattern without its sign leaves the sign bit alone. -/
theorem body_lt (le : m ≤ infiniteMagnitude) :
    0x800000 * (m.log2 - 23) + m >>> (m.log2 - 23) < 0x80000000 := by
  have log := log2_le le
  have leading := leading_lt m
  omega

theorem isNegative_ofMagnitude (negative : Bool) (le : m ≤ infiniteMagnitude) :
    (ofMagnitude negative m).isNegative = negative := by
  have body := body_lt le
  simp only [isNegative, ofMagnitude, UInt32.toNat_ofNat']
  generalize 0x800000 * (m.log2 - 23) + m >>> (m.log2 - 23) = body at body ⊢
  cases negative <;> simp only [Bool.false_eq_true, if_false, if_true] <;> simp <;> omega

theorem fraction_ofMagnitude (negative : Bool) (le : m ≤ infiniteMagnitude) :
    (ofMagnitude negative m).fraction = (m >>> (m.log2 - 23)) % 0x800000 := by
  have body := body_lt le
  simp only [fraction, ofMagnitude, UInt32.toNat_ofNat']
  generalize m >>> (m.log2 - 23) = leading at body ⊢
  generalize m.log2 - 23 = shift at body ⊢
  cases negative <;> simp only [Bool.false_eq_true, if_false, if_true] <;> omega

/-- An exact magnitude is read back from its pattern. -/
theorem magnitude_ofMagnitude (negative : Bool) (exact : IsExact m) (le : m ≤ infiniteMagnitude) :
    (ofMagnitude negative m).magnitude = m := by
  have shown := exact.shiftLeft_leading
  have leading := leading_lt m
  have exponent := exponent_ofMagnitude negative (body_lt le)
  have coarse := le_leading (m := m)
  have fine : m.log2 - 23 = 0 → m >>> (m.log2 - 23) = m := fun zero => by rw [zero]; rfl
  rw [magnitude, exponent, fraction_ofMagnitude negative le]
  generalize m >>> (m.log2 - 23) = bits at shown leading coarse fine ⊢
  generalize m.log2 - 23 = shift at shown coarse fine ⊢
  by_cases normal : 2 ^ 23 ≤ bits
  · -- The leading one is not stored, and the exponent counts it.
    have stored : bits % 0x800000 = bits - 0x800000 := by omega
    have biased : (0x800000 * shift + bits) / 0x800000 = shift + 1 := by omega
    have whole : 0x800000 + (bits - 0x800000) = bits := by omega
    rw [stored, biased, if_neg (Nat.succ_ne_zero shift), whole]
    exact shown
  · have zero : shift = 0 := by omega
    subst zero
    have biased : (0x800000 * 0 + bits) / 0x800000 = 0 := by omega
    rw [biased, if_pos rfl, Nat.mod_eq_of_lt (by omega)]
    exact fine rfl

/-- A significand with a leading one keeps its 23 places above any grid. -/
theorem log2_shiftLeft_leading {leading : Nat} (normal : 2 ^ 23 ≤ leading)
    (small : leading < 2 ^ 24) (shift : Nat) : (leading <<< shift).log2 = 23 + shift := by
  have nonzero : leading * 2 ^ shift ≠ 0 :=
    Nat.ne_of_gt (Nat.mul_pos (by omega) (Nat.two_pow_pos shift))
  rw [Nat.shiftLeft_eq]
  refine (Nat.log2_eq_iff nonzero).mpr ⟨?_, ?_⟩
  · rw [Nat.pow_add]
    exact Nat.mul_le_mul_right _ normal
  · rw [Nat.add_right_comm, Nat.pow_add]
    exact Nat.mul_lt_mul_of_pos_right small (Nat.two_pow_pos shift)

/-- The pattern of a magnitude has the exponent and the fraction that the magnitude comes from. -/
theorem body_magnitude (x : Binary32) :
    0x800000 * (x.magnitude.log2 - 23) + x.magnitude >>> (x.magnitude.log2 - 23) =
      0x800000 * x.exponent + x.fraction := by
  have small : x.fraction < 0x800000 := Nat.mod_lt _ (by decide)
  unfold magnitude
  split
  · next subnormal =>
    have grid : x.fraction.log2 - 23 = 0 := by
      rcases Nat.eq_zero_or_pos x.fraction with vanishes | positive
      · rw [vanishes]
        rfl
      · have log : x.fraction.log2 < 23 := (Nat.log2_lt (Nat.ne_of_gt positive)).mpr small
        omega
    rw [grid, subnormal, Nat.shiftRight_zero]
  · next normal =>
    have leading : 2 ^ 23 ≤ 0x800000 + x.fraction := Nat.le_add_right _ _
    rw [log2_shiftLeft_leading leading (Nat.add_lt_add_left small _), Nat.add_sub_cancel_left,
      Nat.shiftLeft_shiftRight]
    omega

/-- A number is its sign and its magnitude. -/
theorem ofMagnitude_magnitude (x : Binary32) : ofMagnitude x.isNegative x.magnitude = x := by
  have word := x.bits.toNat_lt
  have body := body_magnitude x
  unfold ofMagnitude
  dsimp only
  rw [body]
  refine congrArg mk (UInt32.toNat_inj.mp ?_)
  rw [UInt32.toNat_ofNat']
  simp only [isNegative, exponent, fraction, decide_eq_true_eq]
  split <;> omega

/-! ## Rounding -/

theorem log2_mono {n : Nat} (le : m ≤ n) : m.log2 ≤ n.log2 := by
  rcases Nat.eq_zero_or_pos m with rfl | positive
  · exact Nat.zero_le _
  · have nonzero : n ≠ 0 := Nat.ne_of_gt (Nat.lt_of_lt_of_le positive le)
    exact (Nat.le_log2 nonzero).mpr
      (Nat.le_trans (Nat.log2_self_le (Nat.ne_of_gt positive)) le)

theorem roundQuanta_mono {a b c d : Nat} (left : 0 < b) (right : 0 < d) (le : a * d ≤ c * b) :
    roundQuanta a b ≤ roundQuanta c d := by
  have floors : a / b ≤ c / d := by
    rw [Nat.le_div_iff_mul_le right]
    refine Nat.le_of_mul_le_mul_right ?_ left
    calc a / b * d * b = a / b * b * d := Nat.mul_right_comm ..
      _ ≤ a * d := Nat.mul_le_mul_right d (Nat.div_mul_le_self a b)
      _ ≤ c * b := le
  have logs := log2_mono floors
  have upper := leading_lt (a / b)
  have lower := le_leading (m := c / d)
  unfold roundQuanta
  dsimp only
  have grids : (a / b).log2 - 23 ≤ (c / d).log2 - 23 := Nat.sub_le_sub_right logs 23
  generalize (a / b).log2 - 23 = fine at upper grids ⊢
  generalize (c / d).log2 - 23 = coarse at lower grids ⊢
  rw [Nat.shiftRight_eq_div_pow, Nat.div_div_eq_div_mul] at upper lower
  simp only [Nat.shiftLeft_eq]
  rcases Nat.eq_or_lt_of_le grids with rfl | coarser
  · refine Nat.mul_le_mul_right _ (roundDiv_mono ?_ ?_ ?_)
    · exact Nat.mul_pos left (Nat.two_pow_pos fine)
    · exact Nat.mul_pos right (Nat.two_pow_pos fine)
    · rw [← Nat.mul_assoc, ← Nat.mul_assoc]
      exact Nat.mul_le_mul_right _ le
  · -- A power of two lies between the two grids.
    calc roundDiv a (b * 2 ^ fine) * 2 ^ fine
        ≤ 2 ^ 24 * 2 ^ fine :=
          Nat.mul_le_mul_right _ (Nat.le_trans (roundDiv_bounds a _).2 upper)
      _ = 2 ^ 23 * 2 ^ (fine + 1) := by
          rw [← Nat.pow_add, ← Nat.pow_add]
          exact congrArg _ (by omega)
      _ ≤ 2 ^ 23 * 2 ^ coarse :=
          Nat.mul_le_mul_left _ (Nat.pow_le_pow_right (by decide) coarser)
      _ ≤ roundDiv c (d * 2 ^ coarse) * 2 ^ coarse :=
          Nat.mul_le_mul_right _
            (Nat.le_trans (lower (Nat.zero_lt_of_lt coarser)) (roundDiv_bounds c _).1)

/-- An exact magnitude needs no rounding. -/
theorem roundQuanta_of_isExact (exact : IsExact m) {den : Nat} (positive : 0 < den) :
    roundQuanta (m * den) den = m := by
  have shown := exact.shiftLeft_leading
  unfold roundQuanta
  rw [Nat.mul_div_cancel m positive]
  dsimp only
  generalize m.log2 - 23 = shift at shown ⊢
  generalize m >>> shift = bits at shown
  rw [← shown, Nat.shiftLeft_eq, Nat.shiftLeft_eq, Nat.shiftLeft_eq, Nat.mul_assoc,
    Nat.mul_comm (2 ^ shift) den,
    roundDiv_mul_right _ (Nat.mul_pos positive (Nat.two_pow_pos shift))]

/-! ## Nearest numbers -/

/-- The magnitude of the number nearest to a quotient of quanta. -/
def nearest (num den : Nat) : Nat := Min.min (roundQuanta num den) infiniteMagnitude

theorem isExact_nearest (num den : Nat) : IsExact (nearest num den) := by
  unfold nearest
  rcases Nat.le_total (roundQuanta num den) infiniteMagnitude with finite | infinite
  · rw [Nat.min_eq_left finite]
    exact isExact_roundQuanta num den
  · rw [Nat.min_eq_right infinite]
    exact isExact_infiniteMagnitude

theorem nearest_mono {a b c d : Nat} (left : 0 < b) (right : 0 < d) (le : a * d ≤ c * b) :
    nearest a b ≤ nearest c d := by
  have rounded := roundQuanta_mono left right le
  unfold nearest
  omega

theorem nearest_of_isExact (exact : IsExact m) (le : m ≤ infiniteMagnitude) {den : Nat}
    (positive : 0 < den) : nearest (m * den) den = m := by
  rw [nearest, roundQuanta_of_isExact exact positive, Nat.min_eq_left le]

theorem nearest_zero {den : Nat} (positive : 0 < den) : nearest 0 den = 0 := by
  have exact := nearest_of_isExact (isExact_of_lt (m := 0) (by decide)) (Nat.zero_le _) positive
  rwa [Nat.zero_mul] at exact

theorem magnitude_ofQuotient (negative : Bool) (num den : Nat) :
    (ofQuotient negative num den).magnitude = nearest num den :=
  magnitude_ofMagnitude negative (isExact_nearest num den) (Nat.min_le_right _ _)

/-! ## Values -/

theorem value_eq_magnitude (nonneg : 0 ≤ x.value) : x.value = x.magnitude := by
  rw [← natAbs_value]
  exact (Int.natAbs_of_nonneg nonneg).symm

theorem le_of_magnitude_le (first : x.isFinite = true) (second : y.isFinite = true)
    (left : 0 ≤ x.value) (right : 0 ≤ y.value) (le : x.magnitude ≤ y.magnitude) : x ≤ y := by
  refine le_iff.mpr ⟨isNaN_of_isFinite first, isNaN_of_isFinite second, ?_⟩
  rw [value_eq_magnitude left, value_eq_magnitude right]
  exact Int.ofNat_le.mpr le

theorem magnitude_of_value {n : Nat} (is : x.value = n) : x.magnitude = n := by
  rw [← natAbs_value, is, Int.natAbs_natCast]

/-- A negative sign is put on nothing but zero. -/
theorem magnitude_eq_zero (negative : x.isNegative = true) (nonneg : 0 ≤ x.value) :
    x.magnitude = 0 := by
  rw [value, if_pos negative] at nonneg
  omega

theorem value_ofQuotient {negative : Bool} {num den : Nat} (positive : 0 < den)
    (sign : negative = true → num = 0) :
    (ofQuotient negative num den).value = nearest num den := by
  have sized := magnitude_ofQuotient negative num den
  have signed : (ofQuotient negative num den).isNegative = negative :=
    isNegative_ofMagnitude negative (Nat.min_le_right _ _)
  rw [value, signed, sized]
  split
  · next minus =>
    rw [sign minus, nearest_zero positive]
    rfl
  · rfl

theorem value_ofInt (n : Nat) : (ofInt n).value = nearest (n <<< 149) 1 := by
  have plus : ¬(n : Int) < 0 := Int.not_lt.mpr (Int.natCast_nonneg n)
  rw [ofInt, Int.natAbs_natCast]
  exact value_ofQuotient Nat.one_pos fun minus => absurd (of_decide_eq_true minus) plus

theorem value_add (first : x.isFinite = true) (second : y.isFinite = true)
    (nonneg : 0 ≤ x.value + y.value) :
    (x + y).value = nearest (x.value + y.value).toNat 1 := by
  rw [add_of_isFinite first second]
  split
  · next cancelled =>
    rw [cancelled, Int.toNat_zero, nearest_zero Nat.one_pos, value,
      magnitude_ofMagnitude _ (isExact_of_lt (by decide)) (Nat.zero_le _)]
    split <;> rfl
  · have natural : (x.value + y.value).natAbs = (x.value + y.value).toNat := by omega
    rw [natural]
    exact value_ofQuotient Nat.one_pos fun minus =>
      absurd (of_decide_eq_true minus) (Int.not_lt.mpr nonneg)

theorem value_mul (first : x.isFinite = true) (second : y.isFinite = true)
    (left : 0 ≤ x.value) (right : 0 ≤ y.value) :
    (x * y).value = nearest (x.magnitude * y.magnitude) quantaPerUnit := by
  have product : x * y =
      ofQuotient (x.isNegative != y.isNegative) (x.magnitude * y.magnitude) quantaPerUnit := by
    show x.mul y = _
    simp only [mul, isNaN_of_isFinite first, isNaN_of_isFinite second,
      isInfinite_of_isFinite first, isInfinite_of_isFinite second, Bool.or_self,
      Bool.false_eq_true, if_false]
  rw [product]
  refine value_ofQuotient (by decide) fun minus => ?_
  by_cases negative : x.isNegative = true
  · rw [magnitude_eq_zero negative left, Nat.zero_mul]
  · rw [Bool.not_eq_true] at negative
    rw [negative, Bool.false_bne] at minus
    rw [magnitude_eq_zero minus right, Nat.mul_zero]

theorem value_div (first : x.isFinite = true) (second : y.isFinite = true)
    (left : 0 ≤ x.value) (right : 0 < y.value) :
    (x / y).value = nearest (x.magnitude * quantaPerUnit) y.magnitude := by
  have divisor : 0 < y.magnitude := by
    have same := value_eq_magnitude (Int.le_of_lt right)
    omega
  have plus : y.isNegative = false := by
    rw [← Bool.not_eq_true]
    exact fun minus =>
      absurd (magnitude_eq_zero minus (Int.le_of_lt right)) (Nat.ne_of_gt divisor)
  have quotient : x / y = ofQuotient x.isNegative (x.magnitude * quantaPerUnit) y.magnitude := by
    show x.div y = _
    simp only [div, isNaN_of_isFinite first, isNaN_of_isFinite second,
      isInfinite_of_isFinite first, isInfinite_of_isFinite second, plus, Nat.ne_of_gt divisor,
      Bool.or_self, Bool.bne_false, Bool.false_eq_true, if_false]
    rw [quantaPerUnit, Nat.shiftLeft_eq, Nat.shiftLeft_eq, Nat.one_mul]
  rw [quotient]
  refine value_ofQuotient divisor fun minus => ?_
  rw [magnitude_eq_zero minus left, Nat.zero_mul]

end Binary32

end Animatronic
