import Chronicle.Dict

/-!
# Bytes

Values are laid out as bytes one after the other: words little-endian, a
string as its length in bytes and its UTF-8 bytes, a list or dictionary as its
length and its entries.  The layout of a value is never a beginning of the
layout of another one of its type, so reading needs no separators.
-/

namespace Chronicle

/-- Why bytes could not be read. -/
inductive BytesError where
  | tooShort
  | invalidText
  | invalidBool
  | invalidTag
  | unknownVariant
  deriving Repr, DecidableEq

namespace Bytes

/-- The `width` bytes of a number, the least significant first. -/
def littleEndian : (width n : Nat) → List UInt8
  | 0, _ => []
  | width + 1, n => UInt8.ofNat (n % 256) :: littleEndian width (n / 256)

/-- A word of 32 bits. -/
def word32 (n : UInt32) : List UInt8 := littleEndian 4 n.toNat

/-- A word of 64 bits. -/
def word64 (n : UInt64) : List UInt8 := littleEndian 8 n.toNat

/-- A signed word of 64 bits. -/
def int64 (n : Int64) : List UInt8 := word64 n.toUInt64

/-- A number of entries. -/
def count (n : Nat) : List UInt8 := littleEndian 8 n

/-- The UTF-8 bytes of a string. -/
def utf8 (text : String) : List UInt8 := text.toUTF8.data.toList

/-- A string. -/
def text (text : String) : List UInt8 := count (utf8 text).length ++ utf8 text

/-- A boolean. -/
def bool (b : Bool) : List UInt8 := [if b then 1 else 0]

/-- An optional value: whether it is there, and the value if so. -/
def option (layout : α → List UInt8) : Option α → List UInt8
  | none => [0]
  | some value => 1 :: layout value

/-- A list. -/
def list (layout : α → List UInt8) (values : List α) : List UInt8 :=
  count values.length ++ values.flatMap layout

/-- A pair. -/
def pair (left : α → List UInt8) (right : β → List UInt8) (value : α × β) : List UInt8 :=
  left value.1 ++ right value.2

/-- A dictionary in key order. -/
def dict [Ord κ] (key : κ → List UInt8) (value : α → List UInt8) (d : Dict κ α) : List UInt8 :=
  list (pair key value) d.entries

/-- A reader of a value at the beginning of some bytes, which leaves the rest. -/
abbrev Reader := StateT (List UInt8) (Except BytesError)

namespace Reader

/-- The value of bytes with the least significant first. -/
def value (bytes : List UInt8) : Nat := bytes.foldr (fun byte n => byte.toNat + 256 * n) 0

/-- A number of bytes. -/
def take (width : Nat) : Reader (List UInt8) := fun bytes =>
  let taken := bytes.take width
  if taken.length = width then .ok (taken, bytes.drop width) else .error .tooShort

/-- A number of `width` bytes. -/
def number (width : Nat) : Reader Nat := value <$> take width

/-- A word of 32 bits. -/
def word32 : Reader UInt32 := UInt32.ofNat <$> number 4

/-- A word of 64 bits. -/
def word64 : Reader UInt64 := UInt64.ofNat <$> number 8

/-- A string. -/
def text : Reader String := do
  let size ← number 8
  let bytes ← take size
  match String.fromUTF8? ⟨bytes.toArray⟩ with
  | some text => return text
  | none => throw .invalidText

/-- A boolean. -/
def bool : Reader Bool := do
  let n ← number 1
  if n = 0 then return false
  else if n = 1 then return true
  else throw .invalidBool

/-- An optional value. -/
def option (reader : Reader α) : Reader (Option α) := do
  let n ← number 1
  if n = 0 then return none
  else if n = 1 then some <$> reader
  else throw .invalidTag

/-- Some values one after the other. -/
def repeated (reader : Reader α) : Nat → Reader (List α)
  | 0 => return []
  | n + 1 => do
      let first ← reader
      let others ← repeated reader n
      return first :: others

/-- A list. -/
def list (reader : Reader α) : Reader (List α) := do
  let size ← number 8
  repeated reader size

/-- A pair. -/
def pair (left : Reader α) (right : Reader β) : Reader (α × β) := do
  let first ← left
  let second ← right
  return (first, second)

/-- A dictionary; of two entries with one key the later counts. -/
def dict [Ord κ] [Std.TransOrd κ] [Std.LawfulEqOrd κ] (key : Reader κ) (value : Reader α) :
    Reader (Dict κ α) := .ofList <$> list (pair key value)

end Reader
end Bytes
end Chronicle
