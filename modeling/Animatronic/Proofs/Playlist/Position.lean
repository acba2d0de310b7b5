import Animatronic.Proofs.Binary32.Finite
import Animatronic.Proofs.Playlist.Simulation

/-!
# The filtered position

Samples move the position and nothing else does (`Playlist.filtered_run`).  A sample that is not
finite is passed over, and one within the noise floor of the position leaves it where it is.  So
the position is always one of the finite samples, and not further than the noise floor from the
last of them (`Scheduler.Follows`).
-/

namespace Animatronic

namespace Operation

/-- Whether an operation brings a sample of the position. -/
def isSample : Operation → Bool
  | .filter _ | .tick _ => true
  | _ => false

/-- The finite sample that an operation brings, if it brings one. -/
def readings : Operation → List Binary32
  | .filter sample | .tick sample => if sample.isFinite then [sample] else []
  | _ => []

theorem readings_of_not_isSample {operation : Operation} (silent : operation.isSample = false) :
    operation.readings = [] := by
  cases operation with
  | filter sample => cases silent
  | tick sample => cases silent
  | _ => rfl

end Operation

namespace Scheduler

/-- The noise floor is a hundredth, as near as single precision comes to it. -/
theorem noiseFloor_eq_hundredth :
    noiseFloor = Binary32.ofQuotient false Binary32.quantaPerUnit 100 := by
  decide

/-- A position and the finite samples that it was filtered from, the last one at the end. -/
inductive Follows : Option Binary32 → List Binary32 → Prop
  | unseen : Follows none []
  | seen {position last : Binary32} {readings : List Binary32} (finite : position.isFinite = true)
    (mem : position ∈ readings) (newest : readings.getLast? = some last)
    (near : (position - last).abs ≤ noiseFloor) : Follows (some position) readings

end Scheduler

namespace Playlist

variable {p q : Playlist} {sample : Binary32} {operation : Operation} {readings : List Binary32}

/-! ## Samples and nothing else -/

theorem filtered_filter (same : p.filtered = q.filtered) (sample : Binary32) :
    (p.filter sample).filtered = (q.filter sample).filtered := by
  unfold filter
  rw [same]
  split
  · rfl
  · exact same

theorem filtered_apply_of_isSample (same : p.filtered = q.filtered)
    (samples : operation.isSample = true) :
    (p.apply operation).2.filtered = (q.apply operation).2.filtered := by
  cases operation with
  | filter sample => exact filtered_filter same sample
  | tick sample =>
    rw [apply, apply, filtered_tick, filtered_tick]
    exact filtered_filter same sample
  | _ => cases samples

theorem filtered_apply_of_not_isSample (silent : operation.isSample = false) :
    (p.apply operation).2.filtered = p.filtered := by
  cases operation with
  | filter sample => cases silent
  | tick sample => cases silent
  | start renderer => rfl
  | stop => rfl
  | halt => rfl
  | enqueue batch =>
    simp only [apply, enqueue]
    split <;> rfl
  | enqueueAll batches =>
    simp only [apply, enqueueAll]
    split <;> rfl
  | setCoefficients coefficients =>
    simp only [apply, setCoefficients]
    split <;> rfl

/-- The position after a history is that after its samples, whatever else has happened. -/
theorem filtered_run (same : p.filtered = q.filtered) (history : List Operation) :
    (p.run history).filtered = (q.run (history.filter Operation.isSample)).filtered := by
  induction history generalizing p q with
  | nil => exact same
  | cons operation rest ih =>
    cases samples : operation.isSample with
    | true =>
      rw [List.filter_cons_of_pos samples]
      exact ih (filtered_apply_of_isSample same samples)
    | false =>
      rw [List.filter_cons_of_neg (Bool.eq_false_iff.mp samples)]
      exact ih ((filtered_apply_of_not_isSample samples).trans same)

/-! ## Where the position comes from -/

/-- A sample is taken over, or it is near enough. -/
theorem follows_filter (follows : Scheduler.Follows p.filtered readings) (sample : Binary32) :
    Scheduler.Follows (p.filter sample).filtered
      (readings ++ (Operation.filter sample).readings) := by
  unfold filter
  cases finite : sample.isFinite with
  | false =>
    rw [Bool.false_and, if_neg Bool.false_ne_true, Operation.readings, finite,
      if_neg Bool.false_ne_true, List.append_nil]
    exact follows
  | true =>
    rw [Bool.true_and, Operation.readings, finite, if_pos rfl]
    have newest : (readings ++ [sample]).getLast? = some sample := List.getLast?_concat
    split
    · refine .seen finite (List.mem_append_right _ (List.mem_singleton_self sample)) newest ?_
      rw [Binary32.sub_self finite]
      decide
    · next refused =>
      generalize p.filtered = known at follows refused ⊢
      cases follows with
      | unseen => exact absurd rfl refused
      | seen known mem =>
        -- The difference of finite numbers may be infinite but is a number, so that what is not
        -- above the noise floor is below it.
        refine .seen known (List.mem_append_left _ mem) newest ?_
        refine Binary32.le_of_not_lt rfl ?_ fun far => refused (decide_eq_true far)
        rw [Binary32.isNaN_abs]
        exact Binary32.isNaN_sub known finite

theorem follows_apply (follows : Scheduler.Follows p.filtered readings) (operation : Operation) :
    Scheduler.Follows (p.apply operation).2.filtered (readings ++ operation.readings) := by
  cases samples : operation.isSample with
  | false =>
    rw [filtered_apply_of_not_isSample samples, Operation.readings_of_not_isSample samples,
      List.append_nil]
    exact follows
  | true =>
    cases operation with
    | filter sample => exact follows_filter follows sample
    | tick sample =>
      rw [apply, filtered_tick]
      exact follows_filter follows sample
    | _ => cases samples

theorem follows_run (follows : Scheduler.Follows p.filtered readings) (history : List Operation) :
    Scheduler.Follows (p.run history).filtered
      (readings ++ history.flatMap Operation.readings) := by
  induction history generalizing p readings with
  | nil =>
    rw [List.flatMap_nil, List.append_nil]
    exact follows
  | cons operation rest ih =>
    rw [List.flatMap_cons, ← List.append_assoc]
    exact ih (follows_apply follows operation)

end Playlist

namespace Scheduler

variable {position : Option Binary32} {readings : List Binary32}

/-- Whatever has happened, the position follows the samples. -/
theorem follows_run (renderer : Renderer) (history : List Operation) :
    Follows ((initial renderer).run history).filtered (history.flatMap Operation.readings) := by
  have tracks := (tracks_initial renderer).run history
  have follows := Playlist.follows_run (p := .initial renderer) .unseen history
  rw [← tracks.playlist_eq] at follows
  exact follows

theorem Follows.isFinite (follows : Follows position readings) :
    (position.getD Binary32.zero).isFinite = true := by
  cases follows with
  | unseen => rfl
  | seen finite => exact finite

theorem Follows.getD_eq_or_mem (follows : Follows position readings) :
    position.getD Binary32.zero = Binary32.zero ∧ readings = [] ∨
      position.getD Binary32.zero ∈ readings := by
  cases follows with
  | unseen => exact Or.inl ⟨rfl, rfl⟩
  | seen _ mem => exact Or.inr mem

theorem Follows.near (follows : Follows position readings) {last : Binary32}
    (newest : readings.getLast? = some last) :
    (position.getD Binary32.zero - last).abs ≤ noiseFloor := by
  cases follows with
  | unseen => cases newest
  | seen _ _ known near =>
    obtain rfl := Option.some.inj (known.symm.trans newest)
    exact near

end Scheduler

end Animatronic
