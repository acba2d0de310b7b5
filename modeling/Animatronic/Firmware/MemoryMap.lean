/-!
# The memory map

A build for the microcontroller writes the memory map into the output directory and tells the
linker where to find it.  A build for any other target has nothing to tell.
-/

namespace Animatronic

namespace Firmware

/-- Two mebibytes of flash, of which the first 256 bytes hold the second-stage bootloader. -/
def memoryMap : String :=
  "MEMORY \x7b\n" ++
  "    BOOT2 : ORIGIN = 0x10000000, LENGTH = 0x100\n" ++
  "    FLASH : ORIGIN = 0x10000100, LENGTH = 2048K - 0x100\n" ++
  "    RAM   : ORIGIN = 0x20000000, LENGTH = 264K\n" ++
  "\x7d\n"

/-- A directory that may or may not be there. -/
structure Directory where
  path : String
  present : Bool

/-- What a build knows of its surroundings. -/
structure Environment where
  target : Option String
  output : Option Directory

/-- What a build leaves behind: the lines for the build tool, and the memory map if it was
written. -/
structure Report where
  printed : List String
  memoryMap : Option String

/-- Why a build fails. -/
inductive Failure
  | targetUnset
  | outputUnset
  | outputMissing
deriving DecidableEq

def Failure.message : Failure → String
  | targetUnset => "TARGET is set by cargo: NotPresent"
  | outputUnset => "OUT_DIR is set by cargo: NotPresent"
  | outputMissing =>
    "Failed to write memory.x: Os \x7b code: 2, kind: NotFound, " ++
      "message: \"No such file or directory\" \x7d"

/-- Whether a target is the microcontroller. -/
def isMicrocontroller (target : String) : Bool := "thumbv6m".toList.isPrefixOf target.toList

/-- The last line of every build: it is run again only if its own text changes. -/
def rerunLine : String := "cargo:rerun-if-changed=build.rs"

/-- The lines of a build for the microcontroller. -/
def linkLines (path : String) : List String :=
  ["cargo:rustc-link-search=" ++ path,
    "cargo:rustc-link-arg-bins=--nmagic",
    "cargo:rustc-link-arg-bins=-Tlink.x",
    "cargo:rustc-link-arg-bins=-Tlink-rp.x",
    "cargo:rustc-link-arg-bins=-Tdefmt.x"]

/-- Build for a target.  Both settings have to be there, whatever the target. -/
def build (environment : Environment) : Except Failure Report :=
  match environment.target, environment.output with
  | none, _ => .error .targetUnset
  | some _, none => .error .outputUnset
  | some target, some output =>
    if isMicrocontroller target then
      if output.present then .ok ⟨linkLines output.path ++ [rerunLine], some memoryMap⟩
      else .error .outputMissing
    else .ok ⟨[rerunLine], none⟩

end Firmware

end Animatronic
