import Chronicle.Error

/-!
# Settings

The settings of a land are fixed when it is created, and its metadata record
is made from them.
-/

namespace Chronicle

/-- The settings of a land.  The tick interval is in nanoseconds; without one
a tick is executed only when it is asked for. -/
structure LandConfig where
  landId : String
  landType : String
  definitionId : Option String := none
  flushInterval : UInt64 := 60
  tickInterval : Option Nat := none
  metadata : Dict String String := ∅
  landConfig : Option Json := none
  deriving DecidableEq, Inhabited

namespace LandConfig

/-- Checks the settings; of several defects the first in the order id, flush
interval, tick interval is reported. -/
def validate (config : LandConfig) : Except ConfigError Unit :=
  if config.landId.isEmpty then .error .emptyLandId
  else if config.flushInterval = 0 then .error .zeroFlushInterval
  else if config.tickInterval = some 0 then .error .zeroTickInterval
  else .ok ()

/-- The metadata record of a land created at a time with an initial hash. -/
def recordingMetadata (config : LandConfig) (created : Timestamp) (initialHash : Option String) :
    Recording.Metadata :=
  { landId := config.landId
    landType := config.landType
    createdAt := created
    metadata := config.metadata
    definitionId := config.definitionId
    initialHash := initialHash
    landConfig := config.landConfig
    version := some Recording.formatVersion }

end LandConfig

/-- The time between ticks in nanoseconds at a rate in ticks per second: the
double nearest to the reciprocal of the rate, rounded to whole nanoseconds
with a tie going to the even neighbour.  At the rate zero there is none. -/
def tickInterval? (rate : UInt32) : Option Nat :=
  if rate = 0 then none
  else
    match (Ieee.Double.ofInt 1 / Ieee.Double.ofInt rate.toNat).datum with
    | .finite _ units =>
        some (Ieee.roundEven (units * 1000000000) (Nat.pow 2 Ieee.Format.double.unitExponent))
    | _ => none

end Chronicle
