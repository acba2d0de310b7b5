import Animatronic.Proofs.Binary32.Order
import Animatronic.Proofs.Decimal.Numeral
import Animatronic.Proofs.Playlist.Position
import Animatronic.Proofs.Service.Reply

/-!
# The position as text

A finite number is written as a numeral whose value is the nearest one to it (`Binary32.numeral`).
The largest has 39 digits in front of the point, so that the line of a position is 47 bytes long at
most and always fits in a reply (`Service.Reads`).  As the position of a scheduler is finite
whatever the samples are, no other text is ever seen.
-/

namespace Animatronic

namespace Binary32

variable {x : Binary32} {places : Nat}

/-- The number itself, where it is finite. -/
def toRat (x : Binary32) : ℚ := x.value / quantaPerUnit

theorem toRat_eq (x : Binary32) :
    x.toRat = (if x.isNegative then -1 else 1) * (x.magnitude / quantaPerUnit) := by
  unfold toRat value
  cases x.isNegative with
  | true =>
    rw [if_pos rfl, if_pos rfl]
    push_cast
    ring
  | false =>
    rw [if_neg Bool.false_ne_true, if_neg Bool.false_ne_true]
    push_cast
    ring

/-- The numeral that a finite number is written as. -/
def numeral (places : Nat) (x : Binary32) : Numeral :=
  Decimal.numeral x.isNegative places (roundDiv (x.magnitude * 10 ^ places) quantaPerUnit)

theorem toFixed_of_isFinite (finite : x.isFinite = true) (places : Nat) :
    x.toFixed places = (x.numeral places).text := by
  rw [numeral, Decimal.text_numeral, toFixed, isNaN_of_isFinite finite,
    isInfinite_of_isFinite finite, if_neg Bool.false_ne_true, if_neg Bool.false_ne_true]

theorem isNearest_numeral (positive : 0 < places) (x : Binary32) :
    (x.numeral places).IsNearest x.toRat := by
  rw [toRat_eq]
  exact Decimal.isNearest_numeral x.isNegative positive x.magnitude (by decide)

/-- No finite number reaches `2 ^ 128`, and so none needs more than 39 digits. -/
theorem length_text_numeral_le (finite : x.isFinite = true) (positive : 0 < places) :
    (x.numeral places).text.length ≤ 39 + places + 2 := by
  refine Decimal.length_text_numeral_le _ positive (by decide) ?_
  have below : x.magnitude ≤ 2 ^ 128 * quantaPerUnit := by
    refine Nat.le_of_lt (Nat.lt_of_lt_of_eq (magnitude_lt_of_isFinite finite) ?_)
    decide
  have scaled := Nat.mul_le_mul_right (10 ^ places) below
  have positive : 0 < 10 ^ places := Nat.pow_pos (by decide)
  have unit : 0 < quantaPerUnit := by decide
  generalize 10 ^ places = scale at scaled positive ⊢
  -- Rounding up would not reach the next digit: `2 ^ 128` is well below `10 ^ 39`.
  have most : roundDiv (x.magnitude * scale) quantaPerUnit ≤ 10 ^ 39 * scale - 1 := by
    refine roundDiv_le ?_
    calc 2 * (x.magnitude * scale) ≤ 2 * (2 ^ 128 * quantaPerUnit * scale) :=
          Nat.mul_le_mul_left 2 scaled
      _ = 2 ^ 129 * scale * quantaPerUnit := by ring
      _ < (2 * (10 ^ 39 * scale - 1) + 1) * quantaPerUnit :=
          Nat.mul_lt_mul_of_pos_right (by omega) unit
  omega

end Binary32

/-- A numeral on a line of its own. -/
def Numeral.line (numeral : Numeral) : List UInt8 :=
  Service.asciiBytes (numeral.text ++ ['\r', '\n'])

namespace Service

variable {s : Scheduler}

/-- Whoever asks for the position, in a frame or with a diagnostic, reads this numeral, whole and
on a line of its own. -/
structure Reads (s : Scheduler) (numeral : Numeral) : Prop where
  framed : ∀ identity payload,
    (handle identity MessageType.readValue.code payload s).result = .ok ⟨.value, numeral.line⟩
  raw : ∀ identity, (diagnose identity .readValue s).result = numeral.line
  short : numeral.line.length ≤ 47
  isDecimal : numeral.IsDecimal
  places : numeral.places.length = 4
  sign : numeral.negative = s.position.isNegative
  nearest : numeral.IsNearest s.position.toRat

theorem reads_of_isFinite (finite : s.position.isFinite = true) :
    Reads s (s.position.numeral 4) := by
  have text := Binary32.length_text_numeral_le finite (by decide : 0 < 4)
  have line : positionLine s = (s.position.numeral 4).line := by
    rw [positionLine, Binary32.toFixed_of_isFinite finite]
    exact textLine_of_length_le (Nat.le_trans (Nat.add_le_add_right text 2) (by decide))
  exact
    { framed := fun identity payload => by
        rw [← line]
        rfl
      raw := fun identity => line
      short := by
        rw [Numeral.line, asciiBytes, List.length_map, List.length_append]
        exact Nat.add_le_add_right text 2
      isDecimal := Decimal.isDecimal_numeral _ (by decide) _
      places := Decimal.length_places_numeral _ (by decide) _
      sign := rfl
      nearest := Binary32.isNearest_numeral (by decide) s.position }

/-- The most negative number takes all of the 47 bytes. -/
example : ((⟨0xff7fffff⟩ : Binary32).numeral 4).line.length = 47 := by
  decide +kernel

/-- After any history the position reads as a number.  It is zero or one of the finite samples, and
not further than a hundredth from the last of them. -/
theorem readsPosition (renderer : Renderer) (history : List Operation) :
    let s := (Scheduler.initial renderer).run history
    let readings := history.flatMap Operation.readings
    (∃ numeral, Reads s numeral) ∧
      (s.position = Binary32.zero ∧ readings = [] ∨ s.position ∈ readings) ∧
        ∀ last, readings.getLast? = some last →
          (s.position - last).abs ≤ Binary32.ofQuotient false Binary32.quantaPerUnit 100 := by
  have follows := Scheduler.follows_run renderer history
  rw [← Scheduler.noiseFloor_eq_hundredth]
  exact ⟨⟨_, reads_of_isFinite follows.isFinite⟩, follows.getD_eq_or_mem, fun _ => follows.near⟩

end Service

end Animatronic
