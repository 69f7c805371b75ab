/-!
# Arguments of a command line

The arguments of a command are settings, each named by a word after two
dashes or by a letter after one, and plain arguments.  A setting that takes a
value finds it behind an equals sign, directly behind its letter, or in the
next argument.  A setting may be given once; after two dashes that stand alone
all arguments are plain.
-/

namespace Chronicle
namespace CommandLine

/-- Why the reading of a command line ends early: it asks for help, or it is
wrong. -/
inductive Stop where
  | help
  | wrong
  deriving Repr, DecidableEq

/-- What a setting does: it asks for help, changes the options, or changes
them by a value, which may be refused. -/
inductive Action (σ : Type) where
  | help
  | flag (change : σ → σ)
  | value (change : String → σ → Option σ)

/-- A setting with its word, its letter, and what it does. -/
structure Setting (σ : Type) where
  word : String
  letter : Option Char
  action : Action σ

/-- The settings of a command, and what a plain argument changes, unless it is
refused. -/
structure Grammar (σ : Type) where
  settings : List (Setting σ)
  plain : String → σ → Option σ

/-- The options read so far, and the words of the settings that were given. -/
structure Reading (σ : Type) where
  options : σ
  given : List String := []

variable {σ : Type}

namespace Grammar

/-- The setting of a word. -/
def word? (grammar : Grammar σ) (word : List Char) : Option (Setting σ) :=
  grammar.settings.find? fun setting => setting.word.toList = word

/-- The setting of a letter. -/
def letter? (grammar : Grammar σ) (letter : Char) : Option (Setting σ) :=
  grammar.settings.find? fun setting => setting.letter = some letter

end Grammar

namespace Reading

/-- Gives a setting that was not given before. -/
def give (reading : Reading σ) (setting : Setting σ) (options : Option σ) :
    Except Stop (Reading σ) :=
  if reading.given.contains setting.word then .error .wrong
  else
    match options with
    | some options => .ok ⟨options, setting.word :: reading.given⟩
    | none => .error .wrong

/-- Takes a plain argument. -/
def takePlain (grammar : Grammar σ) (text : String) (reading : Reading σ) :
    Except Stop (Reading σ) :=
  match grammar.plain text reading.options with
  | some options => .ok { reading with options := options }
  | none => .error .wrong

end Reading

/-- What has been read after an argument: the reading, and the change by the
next argument if the argument lacks its value. -/
structure Progress (σ : Type) where
  reading : Reading σ
  lacking : Option (Setting σ × (String → σ → Option σ)) := none

/-- Reads a setting given by its word, with the value behind the equals sign
if there is one. -/
def readWord (setting : Setting σ) (value : Option String) (reading : Reading σ) :
    Except Stop (Progress σ) :=
  match setting.action, value with
  | .help, none => .error .help
  | .flag change, none => do
      let reading ← reading.give setting (some (change reading.options))
      return { reading := reading }
  | .value change, some value => do
      let reading ← reading.give setting (change value reading.options)
      return { reading := reading }
  | .value change, none => .ok { reading := reading, lacking := some (setting, change) }
  | _, some _ => .error .wrong

/-- Reads settings given by their letters; what follows the letter of a
setting that takes a value is the value. -/
def readLetters (grammar : Grammar σ) : List Char → Reading σ → Except Stop (Progress σ)
  | [], reading => .ok { reading := reading }
  | letter :: rest, reading =>
      match grammar.letter? letter with
      | none => .error .wrong
      | some setting =>
          match setting.action, rest with
          | .help, _ => .error .help
          | .flag change, _ => do
              readLetters grammar rest (← reading.give setting (some (change reading.options)))
          | .value change, [] => .ok { reading := reading, lacking := some (setting, change) }
          | .value _, '=' :: value => readWord setting (some (String.ofList value)) reading
          | .value _, value => readWord setting (some (String.ofList value)) reading

/-- The two parts of a text around its first equals sign, if it has one. -/
def splitAtEquals (text : List Char) : List Char × Option String :=
  match text.dropWhile (· != '=') with
  | [] => (text, none)
  | _ :: value => (text.takeWhile (· != '='), some (String.ofList value))

/-- Whether an argument starts with a dash and is more than that. -/
def isDashed (text : String) : Bool :=
  match text.toList with
  | '-' :: _ :: _ => true
  | _ => false

/-- Reads one argument in front of two dashes that stand alone. -/
def readArgument (grammar : Grammar σ) (text : String) (reading : Reading σ) :
    Except Stop (Progress σ) :=
  match text.toList with
  | '-' :: '-' :: long =>
      let (word, value) := splitAtEquals long
      match grammar.word? word with
      | some setting => readWord setting value reading
      | none => .error .wrong
  | '-' :: letter :: letters => readLetters grammar (letter :: letters) reading
  | _ => return { reading := ← reading.takePlain grammar text }

/-- Reads the arguments of a command. -/
def readArguments (grammar : Grammar σ) (reading : Reading σ) :
    List String → Except Stop (Reading σ)
  | [] => .ok reading
  | "--" :: rest => rest.foldlM (fun reading text => reading.takePlain grammar text) reading
  | text :: rest =>
      match readArgument grammar text reading with
      | .error stop => .error stop
      | .ok ⟨reading, none⟩ => readArguments grammar reading rest
      | .ok ⟨reading, some (setting, change)⟩ =>
          match rest with
          | [] => .error .wrong
          | value :: rest =>
              if isDashed value then .error .wrong
              else
                match reading.give setting (change value reading.options) with
                | .ok reading => readArguments grammar reading rest
                | .error stop => .error stop

end CommandLine
end Chronicle
