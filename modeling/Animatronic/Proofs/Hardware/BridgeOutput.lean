import Animatronic.Hardware.HBridge
import Mathlib.Data.List.Induction

/-!
# What a bridge puts out

A bridge keeps its last configuration and its last drive, and skips a drive that it has already.
After any sequence of drives the two agree with each other and with what the peripherals were told
last (`HBridge.Stands`), so that nothing can be seen of the drives before the last one.

No drive is larger than the room below the top of the counter, and a configuration leaves at least
one channel off.
-/

namespace Animatronic

namespace Drive

/-- Only one value lies below the symmetric range. -/
theorem clamp_eq (drive : Int8) : clamp drive = if drive = -128 then -127 else drive := by
  have least := Int8.le_toInt drive
  have lowest : drive < -limit ↔ drive = -128 := by
    rw [Int8.lt_iff_toInt_lt, ← Int8.toInt_inj]
    have bound : (-limit).toInt = -127 := rfl
    have value : (-128 : Int8).toInt = -128 := rfl
    omega
  simp only [clamp, lowest]
  rfl

theorem natAbs_clamp_le (drive : Int8) : (clamp drive).toInt.natAbs ≤ limit.toInt.natAbs := by
  obtain ⟨lower, upper⟩ := clamp_bounds drive
  rw [Int8.le_iff_toInt_le] at lower upper
  have bound : (-limit).toInt = -limit.toInt := rfl
  omega

end Drive

namespace HBridge

/-! ## Histories -/

/-- A bridge that has been set up for a board and told `drives` in turn, with all that was done to
its peripherals. -/
def run (identity : Identity) (drives : List Int8) : HBridge × List Event :=
  drives.foldl
    (fun (bridge, events) drive =>
      let (bridge, more) := bridge.setDrive drive
      (bridge, events ++ more))
    (initial identity)

def Event.pwm? : Event → Option Pwm
  | configure pwm => some pwm
  | enable _ => none

def Event.level? : Event → Option Bool
  | configure _ => none
  | enable high => some high

/-- The configuration that was written last. -/
def lastPwm (events : List Event) : Option Pwm := (events.filterMap Event.pwm?).getLast?

/-- The level that the enable pin was given last. -/
def enableLevel (events : List Event) : Option Bool := (events.filterMap Event.level?).getLast?

/-- The drive that is in force after `drives`: the last of them, with the one value below the
symmetric range counting as its lower end.  A bridge that was told nothing rests. -/
def inForce (drives : List Int8) : Int8 :=
  match drives.getLast? with
  | none => 0
  | some drive => if drive = -128 then -127 else drive

theorem run_append_singleton (identity : Identity) (drives : List Int8) (drive : Int8) :
    run identity (drives ++ [drive]) =
      (((run identity drives).1.setDrive drive).1,
        (run identity drives).2 ++ ((run identity drives).1.setDrive drive).2) := by
  simp only [run, List.foldl_append, List.foldl_cons, List.foldl_nil]

theorem inForce_ne (drives : List Int8) : inForce drives ≠ -128 := by
  unfold inForce
  split
  · decide
  · split
    · decide
    · assumption

theorem inForce_idem (drives : List Int8) : inForce [inForce drives] = inForce drives :=
  if_neg (inForce_ne drives)

theorem inForce_append_singleton (drives : List Int8) (drive : Int8) :
    inForce (drives ++ [drive]) = Drive.clamp drive := by
  rw [inForce, List.getLast?_concat, Drive.clamp_eq]

theorem lastPwm_append (events : List Event) (high : Bool) (pwm : Pwm) :
    lastPwm (events ++ [.enable high, .configure pwm]) = some pwm := by
  rw [lastPwm, List.filterMap_append]
  exact List.getLast?_concat

theorem enableLevel_append (events : List Event) (high : Bool) (pwm : Pwm) :
    enableLevel (events ++ [.enable high, .configure pwm]) = some high := by
  rw [enableLevel, List.filterMap_append]
  exact List.getLast?_concat

/-! ## Configurations -/

/-- The configuration in which a bridge is set up for a board, put to a drive. -/
def configuration (identity : Identity) (drive : Int8) : Pwm :=
  (⟨top identity, divider, 0, 0, true⟩ : Pwm).driven drive

/-- A configuration keeps nothing of the drive before. -/
theorem driven_configuration (identity : Identity) (before drive : Int8) :
    (configuration identity before).driven drive = configuration identity drive := rfl

/-- Not both channels are on, and none beyond the top of the counter. -/
structure Pwm.IsSafe (pwm : Pwm) : Prop where
  single : pwm.compareA = 0 ∨ pwm.compareB = 0
  forward : pwm.compareA ≤ pwm.top
  reverse : pwm.compareB ≤ pwm.top

/-- There is room for every drive below the top of the counter. -/
theorem limit_le_top (identity : Identity) : Drive.limit.toInt.natAbs ≤ (top identity).toNat := by
  unfold top
  split <;> decide

theorem isSafe_configuration (identity : Identity) {drive : Int8}
    (bounded : drive.toInt.natAbs ≤ Drive.limit.toInt.natAbs) :
    (configuration identity drive).IsSafe := by
  have room := limit_le_top identity
  have fits : (top identity).toNat < UInt16.size := (top identity).toNat_lt
  have within : duty ⟨top identity, divider, 0, 0, true⟩ drive ≤ top identity := by
    show UInt16.ofNat ((top identity).toNat - Drive.limit.toInt.natAbs + drive.toInt.natAbs) ≤ _
    rw [UInt16.le_iff_toNat_le, UInt16.toNat_ofNat_of_lt' (by omega)]
    omega
  refine ⟨?_, ?_, ?_⟩
  · by_cases forward : 0 < drive
    · exact Or.inr (if_neg (Int8.not_lt.mpr (Int8.le_of_lt forward)))
    · exact Or.inl (if_neg forward)
  · show (if 0 < drive then _ else _) ≤ _
    split
    · exact within
    · exact UInt16.zero_le
  · show (if drive < 0 then _ else _) ≤ _
    split
    · exact within
    · exact UInt16.zero_le

/-! ## The bridge and its peripherals -/

/-- A bridge holds a drive, and so do its peripherals after `events`. -/
structure Stands (identity : Identity) (drive : Int8) (bridge : HBridge) (events : List Event) :
    Prop where
  held : bridge.drive = drive
  pwm : bridge.pwm = configuration identity drive
  written : lastPwm events = some (configuration identity drive)
  level : enableLevel events = some (decide (drive ≠ 0))
  safe : ∀ pwm, .configure pwm ∈ events → pwm.IsSafe

theorem stands_initial (identity : Identity) :
    Stands identity 0 (initial identity).1 (initial identity).2 where
  held := rfl
  pwm := rfl
  written := rfl
  level := rfl
  safe pwm mem := by
    simp only [initial, List.mem_cons, Event.configure.injEq, List.not_mem_nil, or_false,
      reduceCtorEq] at mem
    subst mem
    have still : (0 : Int8).toInt.natAbs ≤ Drive.limit.toInt.natAbs := Nat.zero_le _
    exact isSafe_configuration identity still

variable {identity : Identity} {before : Int8} {bridge : HBridge} {events : List Event}

theorem setDrive_of_eq {drive : Int8} (same : Drive.clamp drive = bridge.drive) :
    bridge.setDrive drive = (bridge, []) := by
  rw [setDrive, if_pos same]

theorem setDrive_of_ne {drive : Int8} (other : Drive.clamp drive ≠ bridge.drive) :
    bridge.setDrive drive =
      (⟨bridge.pwm.driven (Drive.clamp drive), Drive.clamp drive⟩,
        [.enable (Drive.clamp drive ≠ 0),
          .configure (bridge.pwm.driven (Drive.clamp drive))]) := by
  rw [setDrive, if_neg other]

/-- A drive takes the bridge and the peripherals along, or finds both where they should be. -/
theorem Stands.setDrive (stands : Stands identity before bridge events) (drive : Int8) :
    Stands identity (Drive.clamp drive) (bridge.setDrive drive).1
      (events ++ (bridge.setDrive drive).2) := by
  by_cases same : Drive.clamp drive = bridge.drive
  · rw [setDrive_of_eq same, List.append_nil, same.trans stands.held]
    exact stands
  · have driven : bridge.pwm.driven (Drive.clamp drive) =
        configuration identity (Drive.clamp drive) := by
      rw [stands.pwm, driven_configuration]
    rw [setDrive_of_ne same, driven]
    refine
      { held := rfl
        pwm := rfl
        written := lastPwm_append ..
        level := enableLevel_append ..
        safe := fun pwm mem => ?_ }
    simp only [List.mem_append, List.mem_cons, Event.configure.injEq, List.not_mem_nil, or_false,
      reduceCtorEq, false_or] at mem
    rcases mem with old | rfl
    · exact stands.safe pwm old
    · exact isSafe_configuration identity (Drive.natAbs_clamp_le drive)

theorem stands_run (identity : Identity) (drives : List Int8) :
    Stands identity (inForce drives) (run identity drives).1 (run identity drives).2 := by
  induction drives using List.reverseRecOn with
  | nil => exact stands_initial identity
  | append_singleton drives drive ih =>
    rw [run_append_singleton, inForce_append_singleton]
    exact ih.setDrive drive

/-- What can be seen on the peripherals of a bridge that was told `drives`. -/
structure ShowsLast (identity : Identity) (drives : List Int8) : Prop where
  /-- They stand as those of a fresh bridge that was told the last drive alone. -/
  pwm : lastPwm (run identity drives).2 = lastPwm (run identity [inForce drives]).2
  level : enableLevel (run identity drives).2 = enableLevel (run identity [inForce drives]).2
  enabled : enableLevel (run identity drives).2 = some (decide (inForce drives ≠ 0))
  safe : ∀ pwm, .configure pwm ∈ (run identity drives).2 →
    (pwm.compareA = 0 ∨ pwm.compareB = 0) ∧ pwm.compareA ≤ pwm.top ∧ pwm.compareB ≤ pwm.top
  /-- One drive more touches them exactly if it changes the drive in force. -/
  untouched : ∀ drive, (run identity (drives ++ [drive])).2 = (run identity drives).2 ↔
    inForce (drives ++ [drive]) = inForce drives

/-- The outputs of a bridge tell the last drive and no other, and never both channels are on. -/
theorem showsLast (identity : Identity) (drives : List Int8) : ShowsLast identity drives := by
  have stands := stands_run identity drives
  have alone := stands_run identity [inForce drives]
  rw [inForce_idem] at alone
  refine
    { pwm := stands.written.trans alone.written.symm
      level := stands.level.trans alone.level.symm
      enabled := stands.level
      safe := fun pwm mem => ?_
      untouched := fun drive => ?_ }
  · have safe := stands.safe pwm mem
    exact ⟨safe.single, safe.forward, safe.reverse⟩
  · rw [run_append_singleton, inForce_append_singleton, ← stands.held]
    by_cases same : Drive.clamp drive = (run identity drives).1.drive
    · rw [setDrive_of_eq same]
      exact iff_of_true (List.append_nil _) same
    · rw [setDrive_of_ne same]
      exact iff_of_false (by simp) same

end HBridge

end Animatronic
