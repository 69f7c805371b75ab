import Chronicle.Recording.Text

/-!
# Errors

Every error is a cause with the values it speaks of; its wording is one
function.
-/

namespace Chronicle

/-- Why a recording could not be stored or read back. -/
inductive StorageError where
  | io (reason : String)
  | encode (reason : String)
  | format (error : FormatError)
  | rejected (reason : String)
  deriving Repr, DecidableEq

namespace StorageError

/-- The text of the error. -/
def message : StorageError → String
  | .io reason => s!"storage I/O failed: {reason}"
  | .encode reason => s!"recording could not be encoded: {reason}"
  | .format error => error.message
  | .rejected reason => s!"storage rejected write: {reason}"

end StorageError

/-- What is wrong with the settings of a land. -/
inductive ConfigError where
  | emptyLandId
  | zeroFlushInterval
  | zeroTickInterval
  deriving Repr, DecidableEq

namespace ConfigError

/-- The text of the error. -/
def message : ConfigError → String
  | .emptyLandId => "land id must not be empty"
  | .zeroFlushInterval => "flush interval must be at least 1 tick"
  | .zeroTickInterval => "tick interval must be greater than zero"

end ConfigError

/-- Why a land refused or failed to do something. -/
inductive LandError where
  | modeViolation (operation mode : String)
  | resolverFailure (resolver reason : String)
  | recordingIo (error : StorageError)
  | replayParse (reason : String)
  | sequenceOverflow
  | unknownType (type : String)
  | unknownLifecycle (kind : LifecycleKind)
  | typeMismatch (name expected found : String)
  | missingOutput (name : String)
  | decode (type : String)
  | handler (reason : String)
  | recordingGap (last found : Tick)
  | metadataState (state : String)
  | hashMismatch (tick : Tick) (recorded actual : String)
  | initialStateMismatch (recorded actual : String)
  | config (error : ConfigError)
  | landClosed
  deriving Repr, DecidableEq

namespace LandError

/-- The text of the error.  Where a payload could not be decoded, a colon and what the
reader of JSON says about it would follow; that part depends on the reader and is left out. -/
def message : LandError → String
  | .modeViolation operation mode =>
      s!"{operation} is not available while the land is in {mode} mode"
  | .resolverFailure resolver reason => s!"resolver '{resolver}' failed: {reason}"
  | .recordingIo error => s!"recording I/O failed: {error.message}"
  | .replayParse reason => s!"recording could not be loaded: {reason}"
  | .sequenceOverflow => "sequence counter overflowed; ordering can no longer be guaranteed"
  | .unknownType type => s!"no handler registered for '{type}'"
  | .unknownLifecycle kind => s!"no handler registered for lifecycle event '{kind.name}'"
  | .typeMismatch name expected found =>
      s!"resolver output '{name}' has type '{found}', handler expects '{expected}'"
  | .missingOutput name => s!"resolver output '{name}' was not captured for this item"
  | .decode type => s!"payload for '{type}' could not be decoded"
  | .handler reason => s!"handler rejected item: {reason}"
  | .recordingGap last found =>
      s!"frame for tick {found} recorded after tick {last}; frames must be contiguous"
  | .metadataState state => s!"recording metadata {state}"
  | .hashMismatch tick recorded actual =>
      s!"state hash mismatch at tick {tick}: recorded {recorded}, replayed {actual}"
  | .initialStateMismatch recorded actual =>
      s!"initial state hash mismatch: recorded {recorded}, rebuilt {actual}"
  | .config error => error.message
  | .landClosed => "land is no longer running"

/-- Whether a land stops after the error. -/
def isFatal : LandError → Bool
  | .sequenceOverflow => true
  | _ => false

end LandError
end Chronicle
