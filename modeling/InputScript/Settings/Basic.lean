import InputScript.Argument

/-!
# Settings

What the user may configure: the profile of the emulated device, and the settings of the engine that
runs scripts. The defaults below hold for everything that is not configured.
-/

namespace InputScript

/-- The consumer that takes a device with tool buttons for a tablet. -/
def libinputTrait : String := "libinput"

/-- The emulated device. -/
structure Profile where
  path : String := "/dev/uinput"
  name : String := "udoscript"
  bus : Nat := 6
  vendor : Nat := 0
  product : Nat := 0
  version : Nat := 0
  /-- How long to wait after the device was created, in seconds. -/
  settleTime : Binary64 := .finite (mkRat 1 2)
  /-- Consumers to accommodate. -/
  traits : List String := [libinputTrait]
deriving DecidableEq, Repr

/-- Whether a consumer is accommodated. -/
def Profile.hasTrait (p : Profile) (name : String) : Bool := p.traits.contains name

/-- The engine. -/
structure Settings where
  device : Profile := {}
  /-- The pause after each key press and release, in seconds. -/
  keyDelay : Binary64 := .round (mkRat 1 20)
  dryRun : Bool := false
  shell : String := "/bin/sh"
  maxControlDepth : Nat := 16
  maxExpressionDepth : Nat := 32
  maxScriptDepth : Nat := 8
  verbosity : Nat := 0
  logFormat : String := "console"
deriving DecidableEq, Repr

end InputScript
