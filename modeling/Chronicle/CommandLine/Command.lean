import Chronicle.Arena
import Chronicle.CommandLine.Arguments
import Chronicle.Config
import Chronicle.Replay
import Chronicle.Storage.LineFile

/-!
# Commands

The program either serves a live arena and records it, or replays a recording
and verifies it.
-/

namespace Chronicle
namespace CommandLine

/-- The options of a server. -/
structure ServeOptions where
  host : String := "127.0.0.1"
  port : UInt16 := 8080
  tickRate : UInt32 := 20
  flushInterval : UInt64 := 60
  landId : String := "arena-1"
  recording : Option String := none
  maxClients : Nat := 32
  deriving Repr, DecidableEq, Inhabited

/-- The options of a replay. -/
structure ReplayOptions where
  path : Option String := none
  strict : Bool := false
  deriving Repr, DecidableEq, Inhabited

/-- What the program is told to do. -/
inductive Command where
  | serve (options : ServeOptions)
  | replay (path : String) (strict : Bool)
  deriving Repr, DecidableEq, Inhabited

namespace ServeOptions

/-- The path of the recording, by default named after the land. -/
def recordingPath (options : ServeOptions) : String :=
  options.recording.getD s!"{options.landId}.jsonl"

/-- The settings of the land that is served. -/
def landConfig (options : ServeOptions) : LandConfig :=
  { landId := options.landId
    landType := Arena.landType
    flushInterval := options.flushInterval
    tickInterval := tickInterval? options.tickRate }

/-- The live arena that is served, created at a time. -/
def land (options : ServeOptions) (created : Timestamp) : Except LandError (Land Arena.State) :=
  Land.live Arena.rules options.landConfig created {}

/-- The exit code and the recording of a server that is interrupted before its
first tick.  A land that cannot be created leaves its recording empty. -/
def idle (options : ServeOptions) (created : Timestamp) : UInt32 × LineFile :=
  match options.land created with
  | .error _ => (1, {})
  | .ok land => (0, ((land.shutdown LineFile.storage {}).run {}).2)

end ServeOptions

/-- Reads decimal digits as a number below a bound. -/
def readDigits (bound : Nat) (digits : List Char) : Option Nat :=
  if digits.isEmpty || !digits.all (fun c => '0' ≤ c && c ≤ '9') then none
  else
    let value := digits.foldl (fun n c => n * 10 + (c.toNat - '0'.toNat)) 0
    if value < bound then some value else none

/-- Reads a number below a bound, with or without a plus sign. -/
def readNumber (bound : Nat) (text : String) : Option Nat :=
  match text.toList with
  | '+' :: digits => readDigits bound digits
  | digits => readDigits bound digits

/-- Reads a number below a bound where zero may have a minus sign. -/
def readSigned (bound : Nat) (text : String) : Option Nat :=
  match text.toList with
  | '-' :: digits => readDigits 1 digits
  | _ => readNumber bound text

/-- Reads a path, which is not empty. -/
def readPath (text : String) : Option String := if text.isEmpty then none else some text

/-- The setting that asks for help. -/
def helpSetting (σ : Type) : Setting σ := ⟨"help", some 'h', .help⟩

/-- The settings of a server; it takes no plain argument. -/
def serveGrammar : Grammar ServeOptions where
  settings := [
    helpSetting ServeOptions,
    ⟨"host", some 'H', .value fun text options => some { options with host := text }⟩,
    ⟨"port", some 'p', .value fun text options =>
      (readSigned UInt16.size text).map fun n => { options with port := UInt16.ofNat n }⟩,
    ⟨"tick-rate", some 't', .value fun text options =>
      (readSigned UInt32.size text).map fun n => { options with tickRate := UInt32.ofNat n }⟩,
    ⟨"flush-interval", some 'f', .value fun text options =>
      (readNumber UInt64.size text).map fun n => { options with flushInterval := UInt64.ofNat n }⟩,
    ⟨"land-id", none, .value fun text options => some { options with landId := text }⟩,
    ⟨"recording", some 'r', .value fun text options =>
      (readPath text).map fun path => { options with recording := some path }⟩,
    ⟨"max-clients", some 'm', .value fun text options =>
      (readNumber UInt64.size text).map fun n => { options with maxClients := n }⟩]
  plain _ _ := none

/-- The settings of a replay; the plain argument is the path. -/
def replayGrammar : Grammar ReplayOptions where
  settings := [
    helpSetting ReplayOptions,
    ⟨"strict", some 's', .flag fun options => { options with strict := true }⟩]
  plain text options :=
    if options.path.isSome then none
    else (readPath text).map fun path => { options with path := some path }

namespace Command

/-- The names of the commands. -/
def names : List String := ["serve", "replay", "help"]

/-- Whether a first argument asks for the help or for the version. -/
def asksForHelp (text : String) : Bool :=
  match text.toList with
  | '-' :: 'h' :: _ | '-' :: 'V' :: _ => true
  | _ => text == "--help" || text == "--version"

/-- Reads a command line. -/
def read : List String → Except Stop Command
  | "serve" :: arguments => do
      return .serve (← readArguments serveGrammar ⟨{}, []⟩ arguments).options
  | "replay" :: arguments => do
      let options := (← readArguments replayGrammar ⟨{}, []⟩ arguments).options
      match options.path with
      | some path => return .replay path options.strict
      | none => throw .wrong
  | "help" :: topics =>
      if topics.isEmpty || topics.length == 1 && topics.all names.contains then .error .help
      else .error .wrong
  | first :: _ => if asksForHelp first then .error .help else .error .wrong
  | [] => .error .wrong

end Command

namespace Stop

/-- The exit code of a program that ends after reading its command line. -/
def exitCode : Stop → UInt32
  | .help => 0
  | .wrong => 2

end Stop

/-- A list of ticks as text. -/
def ticksText (ticks : List Tick) : String :=
  "[" ++ ", ".intercalate (ticks.map fun tick => toString tick.toNat) ++ "]"

/-- The lines that report a replay. -/
def reportLines (summary : ReplaySummary) : List String :=
  [s!"Ticks replayed:        {summary.ticks}",
    s!"Hash matches:          {summary.hashMatches}",
    s!"Ticks without hash:    {summary.withoutHash}",
    "Hash mismatches:       " ++ ticksText summary.mismatches,
    "Event mismatches:      " ++ ticksText summary.eventMismatches] ++
    (if summary.initialMismatch then ["Initial state hash did not match"] else []) ++
    (if summary.cancelled then ["Replay was cancelled"] else []) ++
    (if summary.passed then ["Replay verified"] else [])

/-- Begins the replay of a recording of the arena. -/
def startReplay (source : Source) (strict : Bool) : Except LandError (Replay Arena.State) :=
  Replay.start Arena.rules source strict Arena.State.initial

end CommandLine
end Chronicle
