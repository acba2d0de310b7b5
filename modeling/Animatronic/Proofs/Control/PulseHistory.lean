import Mathlib.Data.List.Induction
import Animatronic.Control.Renderer
import Animatronic.Proofs.History

/-!
# Pulses as a function of the calls

The renderer of the vibration board keeps three fields, and what it answers can be told from the
calls that it has had, without any of them.  A compute call is a change if its target is another
than that of the compute call before (`Renderer.Changes`).  The latest change is pulsing for as
many compute calls as the low byte of its target says, and up to the next reset
(`Renderer.Pulsing`); at all other times the drive is the step, which is the high byte.

`PulseRenderer.Encodes` is what the fields say about the calls.  It is kept by every call, and it
holds half way through a compute call as well, when the target has been taken over but the tick has
not been counted yet (`Encodes.aim`), which is where the drive is read off.
-/

namespace Animatronic

/-! ## Calls -/

/-- A call of a renderer. -/
inductive Renderer.Call
  | reset (position : Binary32)
  | batchActivated
  | beforeTick (position : Binary32)
  | compute (target : UInt16)
  | afterTick
deriving DecidableEq

namespace Renderer

/-- The renderer after a call. -/
def serve (renderer : Renderer) : Call → Renderer
  | .reset position => renderer.reset position
  | .batchActivated => renderer.batchActivated
  | .beforeTick position => renderer.beforeTick position
  | .compute target => (renderer.compute target).2
  | .afterTick => renderer.afterTick

def serveAll (renderer : Renderer) (calls : List Call) : Renderer := calls.foldl serve renderer

theorem serveAll_append_singleton (renderer : Renderer) (calls : List Call) (call : Call) :
    renderer.serveAll (calls ++ [call]) = (renderer.serveAll calls).serve call :=
  List.foldl_append

/-- What a renderer of the vibration board answers to a compute call after other calls. -/
def vibrationDrive (calls : List Call) (target : UInt16) : Int8 :=
  ((vibration.serveAll calls).compute target).1

/-- The target that a call brings. -/
def Call.target? : Call → Option UInt16
  | .compute target => some target
  | _ => none

/-- The targets of the compute calls among some calls, in order. -/
def targets (calls : List Call) : List UInt16 := calls.filterMap Call.target?

/-- The target of the last compute call, and zero before the first. -/
def lastTarget (calls : List Call) : UInt16 := (targets calls).getLast?.getD 0

/-- The call computes for another target than the compute call before it. -/
def Changes (before : List Call) (call : Call) : Prop :=
  ∃ target, call = .compute target ∧ target ≠ lastTarget before

/-- The low byte of a target: how many ticks its pulse lasts. -/
def pulseOf (target : UInt16) : Nat := target.toNat % 256

/-- The high byte of a target, read as a signed number: its step. -/
def stepOf (target : UInt16) : Int :=
  if target.toNat / 256 < 128 then ((target.toNat / 256 : Nat) : Int)
  else ((target.toNat / 256 : Nat) : Int) - 256

/-- The direction from one target's step to another's, at full drive.  Without a difference it is
backward. -/
def direction (previous next : UInt16) : Int8 :=
  if stepOf previous < stepOf next then 127 else -127

/-- The step of a target as a drive. -/
def hold (target : UInt16) : Int8 :=
  if stepOf target = -128 then -127 else Int8.ofInt (stepOf target)

/-- Of some calls, the latest change is the one that computes for `aim` between the calls `before`
and `since`, and no reset has followed it. -/
structure Uncut (calls before : List Call) (aim : UInt16) (since : List Call) : Prop where
  latest : History.Latest Changes calls before (.compute aim) since
  resets : ∀ position, .reset position ∉ since

/-- The latest change is pulsing at the last of some calls.  Of its pulse a tick is over for each
compute call from the change on, the last one not counted. -/
structure Pulsing (calls before : List Call) (aim : UInt16) (since : List Call) : Prop
    extends Uncut calls before aim since where
  going : (targets since).length < pulseOf aim

/-! ## The two bytes of a target -/

theorem toInt_step_eq_stepOf (target : UInt16) :
    (PulseStep.ofTarget target).step.toInt = stepOf target :=
  PulseStep.toInt_step_ofTarget target

theorem direction_eq (previous next : UInt16) :
    direction previous next =
      if (PulseStep.ofTarget previous).step < (PulseStep.ofTarget next).step then Drive.limit
      else -Drive.limit := by
  refine if_congr ?_ rfl rfl
  rw [Int8.lt_iff_toInt_lt, toInt_step_eq_stepOf, toInt_step_eq_stepOf]

theorem clamp_step_eq_hold (target : UInt16) :
    Drive.clamp (PulseStep.ofTarget target).step = hold target := by
  have lowest := Int8.le_toInt (PulseStep.ofTarget target).step
  have below : (PulseStep.ofTarget target).step < -127 ↔ stepOf target = -128 := by
    rw [Int8.lt_iff_toInt_lt, ← toInt_step_eq_stepOf]
    change _ < -127 ↔ _
    omega
  rw [Drive.clamp, hold, ← toInt_step_eq_stepOf, Int8.ofInt_toInt, toInt_step_eq_stepOf]
  exact if_congr below rfl rfl

/-! ## One call more -/

variable {calls before since : List Call} {call : Call} {aim target : UInt16} {position : Binary32}

theorem targets_append_compute (calls : List Call) (target : UInt16) :
    targets (calls ++ [.compute target]) = targets calls ++ [target] :=
  List.filterMap_append

theorem targets_append_of_none (inert : call.target? = none) :
    targets (calls ++ [call]) = targets calls := by
  rw [targets, List.filterMap_append, List.filterMap_cons, inert]
  exact List.append_nil _

theorem lastTarget_append_compute (calls : List Call) (target : UInt16) :
    lastTarget (calls ++ [.compute target]) = target := by
  rw [lastTarget, targets_append_compute, List.getLast?_concat]
  rfl

theorem lastTarget_append_of_none (inert : call.target? = none) :
    lastTarget (calls ++ [call]) = lastTarget calls := by
  rw [lastTarget, targets_append_of_none inert]
  rfl

theorem not_changes_of_none (inert : call.target? = none) : ¬Changes calls call := by
  rintro ⟨target, rfl, -⟩
  cases inert

theorem changes_compute_iff : Changes calls (.compute target) ↔ target ≠ lastTarget calls := by
  constructor
  · rintro ⟨_, same, other⟩
    cases same
    exact other
  · exact fun other => ⟨target, rfl, other⟩

theorem not_uncut_nil : ¬Uncut [] before aim since :=
  fun uncut => History.not_latest_nil uncut.latest

/-- A reset cuts the latest change. -/
theorem not_uncut_append_reset : ¬Uncut (calls ++ [.reset position]) before aim since := by
  rintro ⟨latest, resets⟩
  obtain ⟨rest, rfl, -⟩ :=
    (History.latest_append_of_not (not_changes_of_none rfl)).mp latest
  exact resets position (List.mem_append_right _ (List.mem_singleton_self _))

/-- Any other call that is no change leaves it. -/
theorem uncut_append_of_not (other : ¬Changes calls call)
    (plain : ∀ position, call ≠ .reset position) :
    Uncut (calls ++ [call]) before aim since ↔
      ∃ rest, since = rest ++ [call] ∧ Uncut calls before aim rest := by
  constructor
  · rintro ⟨latest, resets⟩
    obtain ⟨rest, rfl, shorter⟩ := (History.latest_append_of_not other).mp latest
    exact ⟨rest, rfl, shorter, fun position mem => resets position (List.mem_append_left _ mem)⟩
  · rintro ⟨rest, rfl, latest, resets⟩
    refine ⟨(History.latest_append_of_not other).mpr ⟨rest, rfl, latest⟩, fun position mem => ?_⟩
    rcases List.mem_append.mp mem with mem | mem
    · exact resets position mem
    · exact plain position (List.mem_singleton.mp mem).symm

theorem uncut_append_same (same : target = lastTarget calls) :
    Uncut (calls ++ [.compute target]) before aim since ↔
      ∃ rest, since = rest ++ [.compute target] ∧ Uncut calls before aim rest :=
  uncut_append_of_not (fun changes => changes_compute_iff.mp changes same)
    fun _ is => (by cases is)

theorem uncut_append_change (changes : target ≠ lastTarget calls) :
    Uncut (calls ++ [.compute target]) before aim since ↔
      before = calls ∧ aim = target ∧ since = [] := by
  have latest : History.Latest Changes (calls ++ [.compute target]) before (.compute aim) since ↔
      before = calls ∧ Call.compute aim = .compute target ∧ since = [] :=
    History.latest_append_of (changes_compute_iff.mpr changes)
  constructor
  · intro uncut
    obtain ⟨rfl, same, rfl⟩ := latest.mp uncut.latest
    cases same
    exact ⟨rfl, rfl, rfl⟩
  · rintro ⟨rfl, rfl, rfl⟩
    exact ⟨latest.mpr ⟨rfl, rfl, rfl⟩, fun _ => List.not_mem_nil⟩

/-! ## One reset less -/

theorem lastTarget_without_reset (front back : List Call) (position : Binary32) :
    lastTarget (front ++ .reset position :: back) = lastTarget (front ++ back) := by
  simp only [lastTarget, targets, List.filterMap_append, List.filterMap_cons, Call.target?]

theorem changes_without_reset (front back : List Call) (position : Binary32) (call : Call) :
    Changes (front ++ .reset position :: back) call ↔ Changes (front ++ back) call := by
  simp only [Changes, lastTarget_without_reset]

/-- A pulse comes after all resets, and would be under way without any of them. -/
theorem Pulsing.without_reset {front back : List Call}
    (pulsing : Pulsing (front ++ .reset position :: back) before aim since) :
    ∃ middle, before = front ++ .reset position :: middle ∧
      Pulsing (front ++ back) (front ++ middle) aim since := by
  obtain ⟨⟨⟨split, holds, without⟩, resets⟩, going⟩ := pulsing
  rcases List.append_eq_append_iff.mp split with ⟨middle, rfl, rest⟩ | ⟨middle, rfl, rest⟩
  · cases middle with
    | nil => cases rest
    | cons call middle =>
      obtain ⟨rfl, rfl⟩ := List.cons_eq_cons.mp rest
      refine ⟨middle, rfl, ⟨⟨(List.append_assoc ..).symm, ?_, ?_⟩, resets⟩, going⟩
      · exact (changes_without_reset front middle position _).mp holds
      · intro inner event outer part changes
        refine without inner event outer part ?_
        rw [List.append_assoc, List.append_assoc, List.cons_append]
        rw [List.append_assoc, List.append_assoc] at changes
        exact (changes_without_reset front _ position event).mpr changes
  · cases middle with
    | nil => cases rest
    | cons call middle =>
      obtain ⟨-, rfl⟩ := List.cons_eq_cons.mp rest
      exact absurd (List.mem_append_right _ List.mem_cons_self) (resets position)

end Renderer

/-! ## What the fields say -/

namespace PulseRenderer

open Renderer (Call Uncut Pulsing targets lastTarget direction hold pulseOf)

variable {renderer : PulseRenderer} {calls : List Call} {call : Call} {now : Nat}

/-- The target is that of the last compute call.  The drive points to the aim of the latest change.
Of its pulse, each compute call has taken a tick, the last one `now` of them; if a reset has cut
it, or if there has been no change, nothing remains. -/
structure Encodes (renderer : PulseRenderer) (calls : List Call) (now : Nat) : Prop where
  target : renderer.target = lastTarget calls
  pulse : ∀ before aim since, Uncut calls before aim since →
    renderer.drive = direction (lastTarget before) aim ∧
      renderer.remaining = pulseOf aim - ((targets since).length + now)
  silent : (¬∃ before aim since, Uncut calls before aim since) → renderer.remaining = 0

theorem encodes_initial : initial.Encodes [] 1 :=
  ⟨rfl, fun _ _ _ uncut => absurd uncut Renderer.not_uncut_nil, fun _ => rfl⟩

theorem Encodes.reset (encodes : renderer.Encodes calls 1) (position : Binary32) :
    renderer.reset.Encodes (calls ++ [.reset position]) 1 := by
  refine ⟨?_, fun before aim since uncut => ?_, fun _ => rfl⟩
  · rw [Renderer.lastTarget_append_of_none rfl]
    exact encodes.target
  · exact absurd uncut Renderer.not_uncut_append_reset

/-- Calls that are neither computations nor resets do not count. -/
theorem Encodes.skip (encodes : renderer.Encodes calls 1) (inert : call.target? = none)
    (plain : ∀ position, call ≠ .reset position) : renderer.Encodes (calls ++ [call]) 1 := by
  have same : ∀ {before aim since}, Uncut (calls ++ [call]) before aim since ↔
      ∃ rest, since = rest ++ [call] ∧ Uncut calls before aim rest :=
    Renderer.uncut_append_of_not (Renderer.not_changes_of_none inert) plain
  refine ⟨?_, fun before aim since uncut => ?_, fun free => encodes.silent ?_⟩
  · rw [Renderer.lastTarget_append_of_none inert]
    exact encodes.target
  · obtain ⟨rest, rfl, shorter⟩ := same.mp uncut
    rw [Renderer.targets_append_of_none inert]
    exact encodes.pulse before aim rest shorter
  · rintro ⟨before, aim, rest, uncut⟩
    exact free ⟨before, aim, _, same.mpr ⟨rest, rfl, uncut⟩⟩

/-- Half way through a compute call, its tick has not been counted yet. -/
theorem Encodes.aim (encodes : renderer.Encodes calls 1) (target : UInt16) :
    (renderer.aim target).Encodes (calls ++ [.compute target]) 0 := by
  by_cases same : target = renderer.target
  · -- No change: the pulse that is under way goes on.
    have kept : target = lastTarget calls := same.trans encodes.target
    rw [PulseRenderer.aim, if_pos same]
    refine ⟨?_, fun before aim since uncut => ?_, fun free => encodes.silent ?_⟩
    · rw [Renderer.lastTarget_append_compute]
      exact same.symm
    · obtain ⟨rest, rfl, shorter⟩ := (Renderer.uncut_append_same kept).mp uncut
      obtain ⟨drive, remaining⟩ := encodes.pulse before aim rest shorter
      rw [Renderer.targets_append_compute, List.length_append]
      exact ⟨drive, remaining⟩
    · rintro ⟨before, aim, rest, uncut⟩
      exact free ⟨before, aim, _, (Renderer.uncut_append_same kept).mpr ⟨rest, rfl, uncut⟩⟩
  · -- A change: its own pulse begins.
    have changes : target ≠ lastTarget calls := by rwa [← encodes.target]
    rw [PulseRenderer.aim, if_neg same]
    refine ⟨(Renderer.lastTarget_append_compute calls target).symm,
      fun before aim since uncut => ?_, fun free => absurd ⟨calls, target, [], ?_⟩ free⟩
    · obtain ⟨rfl, rfl, rfl⟩ := (Renderer.uncut_append_change changes).mp uncut
      rw [← encodes.target, Renderer.direction_eq, pulseOf, ← PulseStep.toNat_pulse_ofTarget]
      exact ⟨rfl, rfl⟩
    · exact (Renderer.uncut_append_change changes).mpr ⟨rfl, rfl, rfl⟩

/-- A compute call uses up a tick of the pulse. -/
theorem Encodes.compute (encodes : renderer.Encodes calls 1) (target : UInt16) :
    (renderer.compute target).2.Encodes (calls ++ [.compute target]) 1 := by
  obtain ⟨own, pulse, silent⟩ := encodes.aim target
  by_cases going : (renderer.aim target).remaining > 0
  · rw [PulseRenderer.compute, if_pos going]
    refine ⟨own, fun before aim since uncut => ?_, fun free => ?_⟩
    · obtain ⟨drive, remaining⟩ := pulse before aim since uncut
      exact ⟨drive, by dsimp only; omega⟩
    · exact absurd (silent free) (Nat.ne_of_gt going)
  · rw [PulseRenderer.compute, if_neg going]
    refine ⟨own, fun before aim since uncut => ?_, silent⟩
    obtain ⟨drive, remaining⟩ := pulse before aim since uncut
    exact ⟨drive, by dsimp only; omega⟩

/-- The fields are a function of the calls. -/
theorem exists_serveAll_eq (calls : List Call) :
    ∃ renderer : PulseRenderer,
      Renderer.vibration.serveAll calls = .pulse renderer ∧ renderer.Encodes calls 1 := by
  induction calls using List.reverseRecOn with
  | nil => exact ⟨initial, rfl, encodes_initial⟩
  | append_singleton calls call ih =>
    obtain ⟨renderer, served, encodes⟩ := ih
    rw [Renderer.serveAll_append_singleton, served]
    cases call with
    | reset position => exact ⟨_, rfl, encodes.reset position⟩
    | compute target => exact ⟨_, rfl, encodes.compute target⟩
    | batchActivated => exact ⟨renderer, rfl, encodes.skip rfl fun _ is => by cases is⟩
    | beforeTick position => exact ⟨renderer, rfl, encodes.skip rfl fun _ is => by cases is⟩
    | afterTick => exact ⟨renderer, rfl, encodes.skip rfl fun _ is => by cases is⟩

/-! ## The drive -/

variable {before since : List Call} {aim target : UInt16}

theorem Encodes.drive_of_pulsing (encodes : renderer.Encodes calls 1)
    (pulsing : Pulsing (calls ++ [.compute target]) before aim since) :
    (renderer.compute target).1 = direction (lastTarget before) aim := by
  obtain ⟨drive, remaining⟩ := (encodes.aim target).pulse before aim since pulsing.toUncut
  have going := pulsing.going
  rw [PulseRenderer.compute, if_pos (by omega)]
  exact drive

theorem Encodes.drive_of_not_pulsing (encodes : renderer.Encodes calls 1)
    (ended : ¬∃ before aim since, Pulsing (calls ++ [.compute target]) before aim since) :
    (renderer.compute target).1 = hold target := by
  obtain ⟨own, pulse, silent⟩ := encodes.aim target
  have spent : ¬(renderer.aim target).remaining > 0 := by
    intro left
    refine ended ?_
    by_cases uncut : ∃ before aim since, Uncut (calls ++ [.compute target]) before aim since
    · obtain ⟨before, aim, since, uncut⟩ := uncut
      have remaining := (pulse before aim since uncut).2
      exact ⟨before, aim, since, uncut, by omega⟩
    · exact absurd (silent uncut) (Nat.ne_of_gt left)
  rw [PulseRenderer.compute, if_neg spent, own, Renderer.lastTarget_append_compute]
  exact Renderer.clamp_step_eq_hold target

end PulseRenderer

/-! ## What is answered -/

namespace Renderer

variable {calls before since : List Call} {aim target : UInt16}

/-- What a fresh renderer of the vibration board answers to a compute call is told by the calls
that it has had.  While the latest change is pulsing, it drives at the limit, in the direction from
the target before that change; at all other times it drives the step. -/
structure AnswersFromCalls (calls : List Call) (target : UInt16) : Prop where
  pulsing : ∀ before aim since, Pulsing (calls ++ [.compute target]) before aim since →
    vibrationDrive calls target = direction (lastTarget before) aim
  holding : (¬∃ before aim since, Pulsing (calls ++ [.compute target]) before aim since) →
    vibrationDrive calls target = hold target
  /-- Without a reset, the same calls would be changes. -/
  changes : ∀ front position back, calls = front ++ .reset position :: back → ∀ call,
    (Changes calls call ↔ Changes (front ++ back) call)
  /-- A reset ends pulses and starts none. -/
  resets : ∀ front position back, calls = front ++ .reset position :: back →
    vibrationDrive calls target = vibrationDrive (front ++ back) target ∨
      vibrationDrive calls target = hold target

theorem vibrationDrive_of_pulsing
    (pulsing : Pulsing (calls ++ [.compute target]) before aim since) :
    vibrationDrive calls target = direction (lastTarget before) aim := by
  obtain ⟨renderer, served, encodes⟩ := PulseRenderer.exists_serveAll_eq calls
  rw [vibrationDrive, served]
  exact encodes.drive_of_pulsing pulsing

theorem vibrationDrive_of_not_pulsing
    (ended : ¬∃ before aim since, Pulsing (calls ++ [.compute target]) before aim since) :
    vibrationDrive calls target = hold target := by
  obtain ⟨renderer, served, encodes⟩ := PulseRenderer.exists_serveAll_eq calls
  rw [vibrationDrive, served]
  exact encodes.drive_of_not_pulsing ended

theorem answersFromCalls (calls : List Call) (target : UInt16) :
    AnswersFromCalls calls target := by
  refine ⟨fun _ _ _ => vibrationDrive_of_pulsing, vibrationDrive_of_not_pulsing, ?_, ?_⟩
  · rintro front position back rfl call
    exact changes_without_reset front back position call
  · rintro front position back rfl
    by_cases pulsing : ∃ before aim since,
        Pulsing (front ++ .reset position :: back ++ [.compute target]) before aim since
    · obtain ⟨before, aim, since, pulsing⟩ := pulsing
      have drive := vibrationDrive_of_pulsing pulsing
      rw [List.append_assoc, List.cons_append] at pulsing
      obtain ⟨middle, rfl, still⟩ := pulsing.without_reset
      rw [← List.append_assoc] at still
      rw [drive, vibrationDrive_of_pulsing still, lastTarget_without_reset]
      exact Or.inl rfl
    · exact Or.inr (vibrationDrive_of_not_pulsing pulsing)

end Renderer

end Animatronic
