import Chronicle.Json.Basic

/-!
# Located JSON

A text is read into a tree whose nodes know their lines.  Reading never fails:
where the text stops being JSON the tree carries a broken node or a broken
ending with the line of the fault, and whoever decodes the tree in document
order meets the fault where a reader of the text would have met it.

A string literal is kept with two outcomes, because decoding it is stricter
than passing over it: a lone surrogate escape is a fault only for the decoder.
-/

namespace Chronicle
namespace Json

/-- One element of a string literal: a character, or a 16-bit unit written as
an escape. -/
inductive TextUnit where
  | plain (c : Char)
  | unit (code : Nat)
  deriving Repr, DecidableEq

/-- A surrogate that does not belong to a pair: amid the literal, or as its
very last element. -/
inductive LoneSurrogate where
  | amid
  | atEnd
  deriving Repr, DecidableEq

namespace TextUnit

/-- The first unit of a surrogate pair. -/
def isHigh (code : Nat) : Bool := 0xd800 ≤ code && code ≤ 0xdbff

/-- The second unit of a surrogate pair. -/
def isLow (code : Nat) : Bool := 0xdc00 ≤ code && code ≤ 0xdfff

/-- The character of a surrogate pair. -/
def pair (high low : Nat) : Char :=
  Char.ofNat ((high - 0xd800) * 0x400 + (low - 0xdc00) + 0x10000)

/-- The characters that the elements of a literal stand for. -/
def decode : List TextUnit → Except LoneSurrogate (List Char)
  | [] => .ok []
  | .plain c :: rest => (decode rest).map (c :: ·)
  | [.unit code] =>
      if isHigh code then .error .atEnd
      else if isLow code then .error .amid
      else .ok [Char.ofNat code]
  | .unit code :: .plain c :: rest =>
      if isHigh code || isLow code then .error .amid
      else (decode (.plain c :: rest)).map (Char.ofNat code :: ·)
  | .unit code :: .unit next :: rest =>
      if isHigh code then
        if isLow next then (decode rest).map (pair code next :: ·) else .error .amid
      else if isLow code then .error .amid
      else (decode (.unit next :: rest)).map (Char.ofNat code :: ·)

end TextUnit

/-- A string literal as it was read: its line, its content or the line of the
fault in it, and the line where passing over it stops, if it does. -/
structure Quoted where
  line : Nat
  content : Except Nat String
  passFault : Option Nat

namespace Quoted

/-- The literal of a string. -/
def ofString (line : Nat) (text : String) : Quoted := ⟨line, .ok text, none⟩

/-- A literal that begins on line `start` and is closed. -/
def closed (start : Nat) (units : List TextUnit) : Quoted :=
  match TextUnit.decode units with
  | .ok content => ⟨start, .ok (String.ofList content), none⟩
  | .error _ => ⟨start, .error start, none⟩

/-- A literal that begins on line `start` and breaks off after some elements,
for a decoder on line `fault` and for a passer-by on line `passFault`. -/
def cut (start : Nat) (units : List TextUnit) (fault passFault : Nat) : Quoted :=
  match TextUnit.decode units with
  | .error .amid => ⟨start, .error start, some passFault⟩
  | _ => ⟨start, .error fault, some passFault⟩

end Quoted

/-- How an array or object ends: at its closing bracket, or where the text
stops being JSON.  `lead` is the line on which the text went on after the last
item, which a comma may separate from the fault. -/
inductive Ending where
  | closed (line : Nat)
  | broken (lead line : Nat)
  deriving Repr, DecidableEq

namespace Ending

/-- The line of an ending. -/
def line : Ending → Nat
  | .closed line => line
  | .broken _ line => line

/-- The line on which the text went on after the last item. -/
def lead : Ending → Nat
  | .closed line => line
  | .broken lead _ => lead

/-- The line of the fault, if the ending is one. -/
def fault? : Ending → Option Nat
  | .closed _ => none
  | .broken _ line => some line

end Ending

/-- The key of a member: the line on which the text went on before it, which
is that of the comma for all but the first, the literal, and the line on which
the text goes on after it. -/
structure Key where
  lead : Nat
  literal : Quoted
  colon : Nat

/-- A JSON text as a tree of located nodes.  A number that lies beyond the
representable ones has no value; a broken node has the line of its first
character and the line of the fault. -/
inductive Located where
  | null (line : Nat)
  | bool (line : Nat) (value : Bool)
  | number (line : Nat) (value : Option Number)
  | string (literal : Quoted)
  | array (line : Nat) (items : List Located) (ending : Ending)
  | object (line : Nat) (members : List (Key × Located)) (ending : Ending)
  | broken (line fault : Nat)

namespace Located

instance : Inhabited Located := ⟨.null 0⟩

/-- The line of the first character of a node. -/
def line : Located → Nat
  | .null line => line
  | .bool line _ => line
  | .number line _ => line
  | .string literal => literal.line
  | .array line _ _ => line
  | .object line _ _ => line
  | .broken line _ => line

/-- The line to report when another kind of value was expected: the token is
read before it is refused, so a fault inside it comes first. -/
def refusal : Located → Nat
  | .string literal =>
      match literal.content with
      | .ok _ => literal.line
      | .error fault => fault
  | .broken _ fault => fault
  | node => node.line

mutual

/-- The line of the first fault met by passing over a node without decoding
it. -/
def passFault : Located → Option Nat
  | .null _ => none
  | .bool _ _ => none
  | .number _ _ => none
  | .string literal => literal.passFault
  | .array _ items ending => passFaultItems items <|> ending.fault?
  | .object _ members ending => passFaultMembers members <|> ending.fault?
  | .broken _ fault => some fault

/-- The line of the first fault in a list of items. -/
def passFaultItems : List Located → Option Nat
  | [] => none
  | item :: rest => item.passFault <|> passFaultItems rest

/-- The line of the first fault in a list of members. -/
def passFaultMembers : List (Key × Located) → Option Nat
  | [] => none
  | (key, value) :: rest =>
      key.literal.passFault <|> value.passFault <|> passFaultMembers rest

end

mutual

/-- A value as a tree, everything on the given line. -/
def ofJson (line : Nat) : Json → Located
  | .null => .null line
  | .bool value => .bool line value
  | .number value => .number line (some value)
  | .string value => .string (.ofString line value)
  | .array items => .array line (ofItems line items) (.closed line)
  | .object members => .object line (ofMembers line members) (.closed line)

/-- A list of values as nodes. -/
def ofItems (line : Nat) : List Json → List Located
  | [] => []
  | item :: rest => ofJson line item :: ofItems line rest

/-- A list of members as nodes. -/
def ofMembers (line : Nat) : List (String × Json) → List (Key × Located)
  | [] => []
  | (key, value) :: rest =>
      (⟨line, .ofString line key, line⟩, ofJson line value) :: ofMembers line rest

end

end Located

/-- A whole text: its tree, and the line of the first character after the tree
that is not blank. -/
structure Document where
  root : Located
  trailing : Option Nat

end Json
end Chronicle
