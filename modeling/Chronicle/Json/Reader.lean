import Chronicle.Json.Located
import Chronicle.Text.Hex

/-!
# Reading JSON

The reader is a pushdown automaton: it takes one character at a time, keeps
the brackets that are open on a stack, and counts the lines begun.  Reading a
text is folding the characters, so the state after a beginning of a text is a
state on the way through the whole of it.

A fault is reported on the line that has been reached once the offending
character is read, which is the next one if that character is a line feed.
-/

namespace Chronicle
namespace Json

/-- An array or object whose closing bracket has not been read, with what has
been read of it in reverse.  A member still waits for its value. -/
inductive Frame where
  | array (line : Nat) (items : List Located)
  | object (line : Nat) (members : List (Key × Located))
  | member (line : Nat) (members : List (Key × Located)) (key : Key)

/-- What has been read last of a numeral. -/
inductive NumeralStage where
  | minus
  | zero
  | whole
  | point
  | fraction
  | mark
  | markSign
  | exponent
  deriving Repr, DecidableEq

namespace NumeralStage

/-- Whether a numeral may end here. -/
def isComplete : NumeralStage → Bool
  | .zero => true
  | .whole => true
  | .fraction => true
  | .exponent => true
  | _ => false

end NumeralStage

/-- What has been read of an escape within a string literal: nothing, the
backslash, or some bytes of the four after `\u` with the value of their digits
as long as all are digits. -/
inductive EscapeStage where
  | outside
  | backslash
  | hex (bytes : Nat) (value : Option Nat)
  deriving Repr, DecidableEq

/-- Where the reader is in the grammar.  `lead` is the line of the comma or
bracket before a key; a string literal is a key if it has one. -/
inductive Phase where
  | value
  | itemOrClose
  | key (lead : Nat)
  | keyOrClose
  | colon (lead : Nat) (literal : Quoted)
  | separator
  | literal (start : Nat) (rest : List Char) (node : Located)
  | numeral (start : Nat) (stage : NumeralStage) (numeral : Numeral)
  | text (start : Nat) (units : List TextUnit) (escape : EscapeStage) (lead : Option Nat)
  | finished (root : Located) (trailing : Option Nat)

/-- A state of the reader. -/
structure Reader where
  line : Nat
  stack : List Frame
  phase : Phase

namespace Reader

/-- The reader before the first character. -/
def start : Reader := ⟨1, [], .value⟩

/-- Blanks between the tokens. -/
def isSpace (c : Char) : Bool := c == ' ' || c == '\n' || c == '\t' || c == '\r'

/-- The digit that a character is. -/
def digit? (c : Char) : Option Nat :=
  if '0' ≤ c ∧ c ≤ '9' then some (c.toNat - '0'.toNat) else none

/-- Hands a finished value to the innermost open bracket. -/
def deliver (node : Located) (reader : Reader) : Reader :=
  match reader.stack with
  | [] => { reader with phase := .finished node none }
  | .array line items :: rest =>
      { reader with stack := .array line (node :: items) :: rest, phase := .separator }
  | .member line members key :: rest =>
      { reader with stack := .object line ((key, node) :: members) :: rest, phase := .separator }
  | .object line members :: rest =>
      { reader with stack := .object line members :: rest, phase := .separator }

/-- The tree of what has been read when the text breaks off within the open
brackets of a stack, the innermost first, with `inner` as the last value. -/
def collapse (lead fault : Nat) (inner : Option Located) : List Frame → Located
  | [] => inner.getD (.broken lead fault)
  | .array line items :: rest =>
      let ended := .array line (items.reverse ++ inner.toList) (.broken lead fault)
      collapse lead fault (some ended) rest
  | .object line members :: rest =>
      collapse lead fault (some (.object line members.reverse (.broken lead fault))) rest
  | .member line members key :: rest =>
      let member := (key, inner.getD (.broken lead fault))
      let ended := .object line (members.reverse ++ [member]) (.broken lead fault)
      collapse lead fault (some ended) rest

/-- Stops at a fault. -/
def abandon (lead fault : Nat) (inner : Option Located) (reader : Reader) : Reader :=
  { reader with stack := [], phase := .finished (collapse lead fault inner reader.stack) none }

/-- Stops at a fault in a value. -/
def abandonValue (node : Located) (fault : Nat) (reader : Reader) : Reader :=
  reader.abandon fault fault (some node)

/-- Stops at a fault with a key that no value follows. -/
def abandonKey (key : Key) (fault : Nat) (reader : Reader) : Reader :=
  match reader.stack with
  | .object line members :: rest =>
      abandonValue (.broken key.colon fault) fault
        { reader with stack := .member line members key :: rest }
  | _ => reader.abandon fault fault none

/-- Reads the character after the backslash of an escape. -/
def simpleEscape? (c : Char) : Option Char :=
  match c with
  | '"' => some '"'
  | '\\' => some '\\'
  | '/' => some '/'
  | 'b' => some '\x08'
  | 'f' => some '\x0c'
  | 'n' => some '\n'
  | 'r' => some '\r'
  | 't' => some '\t'
  | _ => none

/-- Stops in the middle of a string literal. -/
def cutText (start : Nat) (units : List TextUnit) (lead : Option Nat) (fault passFault : Nat)
    (reader : Reader) : Reader :=
  let literal := Quoted.cut start units.reverse fault passFault
  match lead with
  | some lead => reader.abandonKey ⟨lead, literal, start⟩ fault
  | none => reader.abandonValue (.string literal) fault

/-- Reads a character of a string literal.  `next` is the line reached with
that character. -/
def stepText (start : Nat) (units : List TextUnit) (escape : EscapeStage) (lead : Option Nat)
    (next : Nat) (c : Char) (reader : Reader) : Reader :=
  match escape with
  | .outside =>
      if c = '"' then
        let literal := Quoted.closed start units.reverse
        match lead with
        | some lead => { reader with phase := .colon lead literal }
        | none => reader.deliver (.string literal)
      else if c = '\\' then { reader with phase := .text start units .backslash lead }
      else if c.toNat < 0x20 then reader.cutText start units lead next reader.line
      else { reader with phase := .text start (.plain c :: units) .outside lead }
  | .backslash =>
      if c = 'u' then { reader with phase := .text start units (.hex 0 (some 0)) lead }
      else
        match simpleEscape? c with
        | some meant => { reader with phase := .text start (.plain meant :: units) .outside lead }
        | none => reader.cutText start units lead next next
  | .hex bytes value =>
      let bytes := bytes + c.utf8Size
      let value := do return (← value) * 16 + (← Text.hexValue? c)
      if bytes < 4 then
        { reader with line := next, phase := .text start units (.hex bytes value) lead }
      else
        match value with
        | some code => { reader with phase := .text start (.unit code :: units) .outside lead }
        | none => reader.cutText start units lead next next

/-- The numeral that a character extends. -/
def extend? (stage : NumeralStage) (numeral : Numeral) (c : Char) :
    Option (NumeralStage × Numeral) :=
  let digit := digit? c
  let digits (d : Nat) : Log Nat := Log.push ∅ d
  let isMark := c == 'e' || c == 'E'
  match stage, digit with
  | .minus, some 0 => some (.zero, { numeral with whole := digits 0 })
  | .minus, some d => some (.whole, { numeral with whole := digits d })
  | .whole, some d => some (.whole, { numeral with whole := numeral.whole.push d })
  | .point, some d => some (.fraction, { numeral with fraction := some (digits d) })
  | .fraction, some d =>
      some (.fraction, { numeral with fraction := numeral.fraction.map (·.push d) })
  | .mark, some d => some (.exponent, { numeral with exponent := some (false, digits d) })
  | .markSign, some d =>
      some (.exponent, { numeral with exponent := numeral.exponent.map fun e => (e.1, digits d) })
  | .exponent, some d =>
      some (.exponent, { numeral with exponent := numeral.exponent.map fun e => (e.1, e.2.push d) })
  | .zero, none =>
      if c = '.' then some (.point, numeral)
      else if isMark then some (.mark, numeral) else none
  | .whole, none =>
      if c = '.' then some (.point, numeral)
      else if isMark then some (.mark, numeral) else none
  | .fraction, none => if isMark then some (.mark, numeral) else none
  | .mark, none =>
      if c = '+' then some (.markSign, { numeral with exponent := some (false, ∅) })
      else if c = '-' then some (.markSign, { numeral with exponent := some (true, ∅) })
      else none
  | _, _ => none

/-- Begins a value with its first character. -/
def beginValue (c : Char) (reader : Reader) : Reader :=
  let line := reader.line
  let numeral (stage : NumeralStage) (negative : Bool) (whole : Log Nat) : Reader :=
    { reader with phase := .numeral line stage ⟨negative, whole, none, none⟩ }
  match c with
  | '[' => { reader with stack := .array line [] :: reader.stack, phase := .itemOrClose }
  | '{' => { reader with stack := .object line [] :: reader.stack, phase := .keyOrClose }
  | '"' => { reader with phase := .text line [] .outside none }
  | 'n' => { reader with phase := .literal line ['u', 'l', 'l'] (.null line) }
  | 't' => { reader with phase := .literal line ['r', 'u', 'e'] (.bool line true) }
  | 'f' => { reader with phase := .literal line ['a', 'l', 's', 'e'] (.bool line false) }
  | '-' => numeral .minus true ∅
  | c =>
      match digit? c with
      | some 0 => numeral .zero false (Log.push ∅ 0)
      | some d => numeral .whole false (Log.push ∅ d)
      | none => reader.abandonValue (.broken line line) line

/-- Closes the innermost open bracket, which `c` has to match. -/
def close (c : Char) (reader : Reader) : Reader :=
  let line := reader.line
  match reader.stack with
  | .array start items :: rest =>
      if c = ']' then
        deliver (.array start items.reverse (.closed line)) { reader with stack := rest }
      else reader.abandon line line none
  | .object start members :: rest =>
      if c = '}' then
        deliver (.object start members.reverse (.closed line)) { reader with stack := rest }
      else reader.abandon line line none
  | _ => reader.abandon line line none

/-- Reads a character between the tokens that is not blank. -/
def stepBetween (c : Char) (reader : Reader) : Reader :=
  let line := reader.line
  match reader.phase with
  | .value => reader.beginValue c
  | .itemOrClose => if c = ']' then reader.close c else reader.beginValue c
  | .key lead =>
      if c = '"' then { reader with phase := .text line [] .outside (some lead) }
      else reader.abandon lead line none
  | .keyOrClose =>
      if c = '"' then { reader with phase := .text line [] .outside (some line) }
      else if c = '}' then reader.close c
      else reader.abandon line line none
  | .colon lead literal =>
      let key : Key := ⟨lead, literal, line⟩
      match c, reader.stack with
      | ':', .object start members :: rest =>
          { reader with stack := .member start members key :: rest, phase := .value }
      | _, _ => reader.abandonKey key line
  | .separator =>
      match c, reader.stack with
      | ',', .array _ _ :: _ => { reader with phase := .value }
      | ',', .object _ _ :: _ => { reader with phase := .key line }
      | _, _ => reader.close c
  | .finished root none => { reader with phase := .finished root (some line) }
  | _ => reader

/-- Ends a numeral that may end, and stops at one that may not. -/
def endNumeral (start fault : Nat) (stage : NumeralStage) (numeral : Numeral) (reader : Reader) :
    Reader :=
  if stage.isComplete then reader.deliver (.number start numeral.number?)
  else reader.abandonValue (.broken start fault) fault

/-- Reads a blank or the first character of a token. -/
def between (next : Nat) (c : Char) (reader : Reader) : Reader :=
  if isSpace c then { reader with line := next } else reader.stepBetween c

/-- Reads one character. -/
def step (reader : Reader) (c : Char) : Reader :=
  let next := if c = '\n' then reader.line + 1 else reader.line
  match reader.phase with
  | .literal start rest node =>
      match rest with
      | expected :: rest =>
          if c = expected then
            if rest.isEmpty then reader.deliver node
            else { reader with phase := .literal start rest node }
          else reader.abandonValue (.broken start next) next
      | [] => reader.deliver node
  | .numeral start stage numeral =>
      match extend? stage numeral c with
      | some (stage, numeral) => { reader with phase := .numeral start stage numeral }
      | none =>
          if stage = .zero ∧ (digit? c).isSome then
            reader.abandonValue (.broken start next) next
          else
            let ended := reader.endNumeral start next stage numeral
            if stage.isComplete then ended.between next c else ended
  | .text start units escape lead => reader.stepText start units escape lead next c
  | _ => reader.between next c

/-- The document of a state in which the text ends. -/
def document (reader : Reader) : Document :=
  let line := reader.line
  let ended : Reader :=
    match reader.phase with
    | .value => reader.abandonValue (.broken line line) line
    | .key lead => reader.abandon lead line none
    | .colon lead literal => reader.abandonKey ⟨lead, literal, line⟩ line
    | .literal start _ _ => reader.abandonValue (.broken start line) line
    | .text start units _ lead => reader.cutText start units lead line line
    | .numeral start stage numeral =>
        let ended := reader.endNumeral start line stage numeral
        match ended.phase with
        | .finished _ _ => ended
        | _ => ended.abandon line line none
    | .finished _ _ => reader
    | _ => reader.abandon line line none
  match ended.phase with
  | .finished root trailing => ⟨root, trailing⟩
  | _ => ⟨.broken line line, none⟩

end Reader

namespace Document

/-- Reads a text. -/
def read (text : List Char) : Document :=
  (text.foldl Reader.step Reader.start).document

end Document
end Json
end Chronicle
