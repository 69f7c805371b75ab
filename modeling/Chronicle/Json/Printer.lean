import Chronicle.Json.Basic
import Chronicle.Text.Hex

/-!
# Printing JSON

A value is printed compactly on one line, or spread over lines with two blanks
of indent for each level.  In a string only the quote, the backslash and the
characters below U+0020 are escaped.
-/

namespace Chronicle
namespace Json

/-- A character inside a quoted string. -/
def escape (c : Char) : List Char :=
  match c with
  | '"' => ['\\', '"']
  | '\\' => ['\\', '\\']
  | '\x08' => ['\\', 'b']
  | '\x0c' => ['\\', 'f']
  | '\n' => ['\\', 'n']
  | '\r' => ['\\', 'r']
  | '\t' => ['\\', 't']
  | c => if c.toNat < 0x20 then '\\' :: 'u' :: Text.hexDigits 4 c.toNat else [c]

/-- A quoted string. -/
def quote (text : String) : List Char :=
  '"' :: (text.toList.flatMap escape ++ ['"'])

mutual

/-- The compact text of a value. -/
def chars : Json → List Char
  | .null => ['n', 'u', 'l', 'l']
  | .bool true => ['t', 'r', 'u', 'e']
  | .bool false => ['f', 'a', 'l', 's', 'e']
  | .number value => value.chars
  | .string value => quote value
  | .array [] => ['[', ']']
  | .array (item :: rest) => '[' :: (item.chars ++ (itemChars rest ++ [']']))
  | .object [] => ['{', '}']
  | .object ((key, value) :: rest) =>
      '{' :: (quote key ++ ':' :: (value.chars ++ (memberChars rest ++ ['}'])))

/-- The compact text of the items after the first. -/
def itemChars : List Json → List Char
  | [] => []
  | item :: rest => ',' :: (item.chars ++ itemChars rest)

/-- The compact text of the members after the first. -/
def memberChars : List (String × Json) → List Char
  | [] => []
  | (key, value) :: rest => ',' :: (quote key ++ ':' :: (value.chars ++ memberChars rest))

end

/-- The compact text of a value as a string. -/
def compact (value : Json) : String := String.ofList value.chars

/-- A line feed and the indent of a level. -/
def newline (level : Nat) : List Char := '\n' :: List.replicate (2 * level) ' '

mutual

/-- The text of a value spread over lines, from a level on. -/
def prettyChars (level : Nat) : Json → List Char
  | .null => ['n', 'u', 'l', 'l']
  | .bool true => ['t', 'r', 'u', 'e']
  | .bool false => ['f', 'a', 'l', 's', 'e']
  | .number value => value.chars
  | .string value => quote value
  | .array [] => ['[', ']']
  | .array (item :: rest) =>
      '[' :: (newline (level + 1) ++ (item.prettyChars (level + 1) ++
        (prettyItemChars (level + 1) rest ++ (newline level ++ [']']))))
  | .object [] => ['{', '}']
  | .object ((key, value) :: rest) =>
      '{' :: (newline (level + 1) ++ (quote key ++ ':' :: ' ' :: (value.prettyChars (level + 1) ++
        (prettyMemberChars (level + 1) rest ++ (newline level ++ ['}'])))))

/-- The text of the items after the first, each on its own line. -/
def prettyItemChars (level : Nat) : List Json → List Char
  | [] => []
  | item :: rest =>
      ',' :: (newline level ++ (item.prettyChars level ++ prettyItemChars level rest))

/-- The text of the members after the first, each on its own line. -/
def prettyMemberChars (level : Nat) : List (String × Json) → List Char
  | [] => []
  | (key, value) :: rest =>
      ',' :: (newline level ++ (quote key ++ ':' :: ' ' :: (value.prettyChars level ++
        prettyMemberChars level rest)))

end

/-- The text of a value spread over lines as a string. -/
def pretty (value : Json) : String := String.ofList (value.prettyChars 0)

end Json
end Chronicle
