import Animatronic.Fault
import Animatronic.Binary32.Basic

/-!
# Coefficients

A set-coefficients request carries the three gains as single-precision numbers and may add a target
to hold.  With the target the payload has 14 bytes, without it 12; any other length is malformed.

`Coefficients.bytes` is this layout, and a payload is read as the coefficients that it is written
for and as no others (`Coefficients.parse_eq_ok_iff`).
-/

namespace Animatronic

/-- Three gains, and a target that wins over the playing batch until the next batch activates. -/
structure Coefficients where
  kp : Binary32
  ki : Binary32
  kd : Binary32
  target : Option UInt16
deriving DecidableEq

namespace Coefficients

/-- The number whose pattern is spelled by four bytes. -/
def gain (bytes : List UInt8) : Binary32 := ⟨UInt32.ofNat (Word.ofBytes bytes)⟩

/-- The gains and the target, if the payload carries one. -/
def parse (payload : List UInt8) : Except Fault Coefficients :=
  match payload with
  | [p0, p1, p2, p3, i0, i1, i2, i3, d0, d1, d2, d3] =>
    .ok ⟨gain [p0, p1, p2, p3], gain [i0, i1, i2, i3], gain [d0, d1, d2, d3], none⟩
  | [p0, p1, p2, p3, i0, i1, i2, i3, d0, d1, d2, d3, t0, t1] =>
    .ok ⟨gain [p0, p1, p2, p3], gain [i0, i1, i2, i3], gain [d0, d1, d2, d3],
      some (UInt16.ofNat (Word.ofBytes [t0, t1]))⟩
  | _ => .error .malformedPayload

/-- The payload that carries these gains, and the target behind them if there is one. -/
def bytes (coefficients : Coefficients) : List UInt8 :=
  Word.toBytes 4 coefficients.kp.bits.toNat ++ Word.toBytes 4 coefficients.ki.bits.toNat ++
    Word.toBytes 4 coefficients.kd.bits.toNat ++
    match coefficients.target with
    | none => []
    | some target => Word.toBytes 2 target.toNat

variable {payload : List UInt8} {coefficients : Coefficients}

/-- A number is read back from its pattern, whatever that is. -/
theorem gain_toBytes (x : Binary32) : gain (Word.toBytes 4 x.bits.toNat) = x := by
  have small : x.bits.toNat < Nat.pow 256 4 := x.bits.toNat_lt
  rw [gain, Word.ofBytes_toBytes, Nat.mod_eq_of_lt small, UInt32.ofNat_toNat]

/-- What is written for coefficients is read back. -/
theorem parse_bytes (coefficients : Coefficients) :
    parse coefficients.bytes = .ok coefficients := by
  obtain ⟨kp, ki, kd, target⟩ := coefficients
  have first := gain_toBytes kp
  have second := gain_toBytes ki
  have third := gain_toBytes kd
  simp only [Word.toBytes] at first second third
  cases target with
  | none =>
    simp only [bytes, Word.toBytes, List.cons_append, List.nil_append, parse, first, second,
      third]
  | some target =>
    have word := Word.ofBytes_toBytes 2 target.toNat
    rw [Nat.mod_eq_of_lt target.toNat_lt] at word
    simp only [Word.toBytes] at word
    simp only [bytes, Word.toBytes, List.cons_append, List.nil_append, parse, first, second,
      third, word, UInt16.ofNat_toNat]

theorem eq_bytes_of_parse (parsed : parse payload = .ok coefficients) :
    payload = coefficients.bytes := by
  unfold parse at parsed
  split at parsed
  · rw [← Except.ok.inj parsed]
    simp only [bytes, gain, Word.toBytes_ofBytes_four, List.cons_append, List.nil_append]
  · rw [← Except.ok.inj parsed]
    simp only [bytes, gain, Word.toBytes_ofBytes_four, Word.toBytes_ofBytes_pair,
      List.cons_append, List.nil_append]
  · cases parsed

/-- A payload carries the coefficients that it is written for, and no others. -/
theorem parse_eq_ok_iff : parse payload = .ok coefficients ↔ payload = coefficients.bytes := by
  constructor
  · exact eq_bytes_of_parse
  · rintro rfl
    exact coefficients.parse_bytes

/-- The target takes two bytes behind the twelve of the gains. -/
theorem length_bytes (coefficients : Coefficients) :
    coefficients.bytes.length = if coefficients.target.isSome then 14 else 12 := by
  obtain ⟨kp, ki, kd, _ | target⟩ := coefficients
  · rfl
  · rfl

end Coefficients

end Animatronic
