import Chronicle.Json.Reader

/-!
# Decoding JSON

A decoder takes a located node to a value, or to the line of the first fault
in document order.  It is given the number of brackets that may still be
opened, so the limit on nesting is a property of decoding and not of reading.

The fields of a record are decoded independently of each other, each fault
with its rank in the document; of two faults the one of the lower rank is
reported.
-/

namespace Chronicle
namespace Json

/-- A decoder: the brackets that may still be opened, a node, and the value or
the line of the fault. -/
abbrev Decoder (α : Type) := (room : Nat) → Located → Except Nat α

/-- Arrays and objects nested deeper than this are refused. -/
def maxDepth : Nat := 127

namespace Decoder

/-- The ending of an array or object that has been decoded to its end. -/
def checkEnding : Ending → Except Nat Unit
  | .closed _ => .ok ()
  | .broken _ line => .error line

/-- Any value at all. -/
def value : Decoder Json
  | _, .null _ => .ok .null
  | _, .bool _ b => .ok (.bool b)
  | _, .number line none => .error line
  | _, .number _ (some n) => .ok (.number n)
  | _, .string literal => literal.content.map .string
  | _, .broken _ fault => .error fault
  | 0, .array line _ _ => .error line
  | 0, .object line _ _ => .error line
  | room + 1, .array _ items ending => do
      let items ← items.mapM (value room)
      checkEnding ending
      return .array items
  | room + 1, .object _ members ending => do
      let members ← members.mapM fun member => do
        let key ← member.1.literal.content
        return (key, ← value room member.2)
      checkEnding ending
      return .ofMembers members

/-- A string. -/
def string : Decoder String
  | _, .string literal => literal.content
  | _, node => .error node.refusal

/-- A boolean. -/
def bool : Decoder Bool
  | _, .bool _ b => .ok b
  | _, node => .error node.refusal

/-- The null. -/
def unit : Decoder Unit
  | _, .null _ => .ok ()
  | _, node => .error node.refusal

/-- An integer within bounds, the lower included. -/
def integer (low high : Int) : Decoder Int
  | _, .number line (some (.integer n _)) =>
      if low ≤ n ∧ n < high then .ok n else .error line
  | _, node => .error node.refusal

/-- An unsigned integer of 64 bits. -/
def word64 : Decoder UInt64 := fun room node =>
  (integer 0 UInt64.size room node).map fun n => UInt64.ofNat n.toNat

/-- An unsigned integer of 32 bits. -/
def word32 : Decoder UInt32 := fun room node =>
  (integer 0 UInt32.size room node).map fun n => UInt32.ofNat n.toNat

/-- A signed integer of 64 bits. -/
def int64 : Decoder Int64 := fun room node =>
  (integer (-9223372036854775808) 9223372036854775808 room node).map Int64.ofInt

/-- A single from any number. -/
def single : Decoder Ieee.Single
  | _, .number _ (some n) => .ok n.toSingle
  | _, node => .error node.refusal

/-- A string with a meaning. -/
def parsed (parse : String → Option α) : Decoder α
  | _, .string literal =>
      match literal.content with
      | .error fault => .error fault
      | .ok text => (parse text).elim (.error literal.line) .ok
  | _, node => .error node.refusal

/-- Null, or what the decoder takes. -/
def nullable (decoder : Decoder α) : Decoder (Option α)
  | _, .null _ => .ok none
  | room, node => (decoder room node).map some

/-- An array of items. -/
def list (decoder : Decoder α) : Decoder (List α)
  | 0, .array line _ _ => .error line
  | room + 1, .array _ items ending => do
      let items ← items.mapM (decoder room)
      checkEnding ending
      return items
  | _, node => .error node.refusal

/-- An object whose values are all of one kind. -/
def dict (decoder : Decoder α) : Decoder (Dict String α)
  | 0, .object line _ _ => .error line
  | room + 1, .object _ members ending => do
      let members ← members.mapM fun member => do
        let key ← member.1.literal.content
        return (key, ← decoder room member.2)
      checkEnding ending
      return .ofList members
  | _, node => .error node.refusal

/-- One of several named values.  One without content is its name as a string,
or an object with the name as its only key and null as its value; one with
content is an object with the name as its only key. -/
def choice (bare : String → Option α) (filled : String → Option (Decoder α)) : Decoder α
  | _, .string literal =>
      match literal.content with
      | .error fault => .error fault
      | .ok name => (bare name).elim (.error literal.line) .ok
  | 0, .object line _ _ => .error line
  | room + 1, .object _ ((key, node) :: rest) ending => do
      let name ← key.literal.content
      let chosen ←
        match bare name, filled name with
        | some value, _ => (unit room node).map fun _ => value
        | none, some decoder => decoder room node
        | none, none => .error key.literal.line
      match rest, ending with
      | [], .closed _ => return chosen
      | (next, _) :: _, _ => .error next.lead
      | [], ending => .error ending.lead
  | _ + 1, .object _ [] ending => .error ending.line
  | _, node => .error node.line

/-- One of several named values without content. -/
def variant (named : String → Option α) : Decoder α := choice named fun _ => none

end Decoder

/-- A fault with its rank in the document. -/
structure Fault where
  rank : Nat
  line : Nat
  deriving Repr, DecidableEq

/-- What the fields of a record are taken from: the members with their ranks
in document order, whether they came without names, and the fault to report
for what is found wrong only after the last of them. -/
structure Members where
  named : List (String × Nat × Located)
  positional : Bool
  last : Fault

namespace Members

/-- The first member of a name. -/
def find? (members : Members) (name : String) : Option (Nat × Located) :=
  (members.named.find? fun member => member.1 == name).map (·.2)

/-- All members of a name. -/
def all (members : Members) (name : String) : List Located :=
  (members.named.filter fun member => member.1 == name).map (·.2.2)

end Members

/-- The fields of a record: their names in order, and how the record is made
from the members. -/
structure Fields (α : Type) where
  names : List String
  decode : (room : Nat) → Members → Except Fault α

namespace Fields

/-- The fault of the lower rank, the first of two with one rank. -/
def earlier (a b : Fault) : Fault := if b.rank < a.rank then b else a

/-- Both of two independent outcomes, or the earlier fault. -/
def both (f : Except Fault (α → β)) (x : Except Fault α) : Except Fault β :=
  match f, x with
  | .ok f, .ok x => .ok (f x)
  | .error a, .ok _ => .error a
  | .ok _, .error b => .error b
  | .error a, .error b => .error (earlier a b)

instance : Applicative Fields where
  pure a := ⟨[], fun _ _ => .ok a⟩
  seq f x :=
    { names := f.names ++ (x ()).names
      decode := fun room members => both (f.decode room members) ((x ()).decode room members) }

/-- A field with a rule for what a missing one means. -/
def field (name : String) (decoder : Decoder α) (missing : Members → Except Fault α) : Fields α :=
  { names := [name]
    decode := fun room members =>
      match members.find? name with
      | some (rank, node) => (decoder room node).mapError (Fault.mk rank)
      | none => missing members }

/-- A field that has to be there. -/
def required (name : String) (decoder : Decoder α) : Fields α :=
  field name decoder fun members => .error members.last

/-- A field with a default. -/
def defaulted (name : String) (decoder : Decoder α) (default : α) : Fields α :=
  field name decoder fun _ => .ok default

/-- A field that may be null or missing. -/
def optional (name : String) (decoder : Decoder α) : Fields (Option α) :=
  defaulted name (Decoder.nullable decoder) none

/-- A field that may be null, and missing only where fields have names. -/
def named (name : String) (decoder : Decoder α) : Fields (Option α) :=
  field name (Decoder.nullable decoder) fun members =>
    if members.positional then .error members.last else .ok none

/-- A field of an embedded group that may be null or missing.  It is decoded
after all other members, so every fault in it is reported at the end. -/
def embedded (name : String) (decoder : Decoder α) : Fields (Option α) :=
  { names := []
    decode := fun room members =>
      match members.all name with
      | [] => .ok none
      | [node] => (Decoder.nullable decoder room node).mapError fun _ => members.last
      | _ => .error members.last }

end Fields

namespace Decoder

/-- What is done with a member that is no field: it is passed over, or kept
for an embedded group and therefore decoded. -/
inductive Surplus where
  | passed
  | kept
  deriving Repr, DecidableEq

/-- The first fault in a list of members apart from their fields: a key that
cannot be decoded, a field that has been `seen` before, or a surplus member
that cannot be passed over or kept. -/
def scan (surplus : Surplus) (names : List String) (room : Nat) :
    (rank : Nat) → (seen : List String) → List (Key × Located) → Option Fault
  | _, _, [] => none
  | rank, seen, (key, node) :: rest =>
      match key.literal.content with
      | .error line => some ⟨rank, line⟩
      | .ok name =>
          if names.contains name then
            if seen.contains name then some ⟨rank, key.colon⟩
            else scan surplus names room (rank + 1) (name :: seen) rest
          else
            let fault :=
              match surplus with
              | .passed => node.passFault
              | .kept =>
                  match value room node with
                  | .ok _ => none
                  | .error line => some line
            match fault with
            | some line => some ⟨rank, line⟩
            | none => scan surplus names room (rank + 1) seen rest

/-- Members with their ranks, as far as their keys can be decoded. -/
def ranked : (rank : Nat) → List (Key × Located) → List (String × Nat × Located)
  | _, [] => []
  | rank, (key, node) :: rest =>
      match key.literal.content with
      | .ok name => (name, rank, node) :: ranked (rank + 1) rest
      | .error _ => []

/-- Decodes fields beside a fault that was found apart from them. -/
def settle (fault : Option Fault) (outcome : Except Fault α) : Except Nat α :=
  match fault, outcome with
  | none, outcome => outcome.mapError (·.line)
  | some fault, .ok _ => .error fault.line
  | some fault, .error other => .error (Fields.earlier fault other).line

/-- A record as an object. -/
def decodeObject (surplus : Surplus) (fields : Fields α) (room : Nat)
    (members : List (Key × Located)) (ending : Ending) : Except Nat α :=
  let count := members.length
  let fault := scan surplus fields.names room 0 [] members <|>
    ending.fault?.map (Fault.mk count)
  settle fault (fields.decode room ⟨ranked 0 members, false, ⟨count + 1, ending.line⟩⟩)

/-- A record as an array of its fields in order. -/
def decodeArray (fields : Fields α) (room : Nat) (items : List Located) (ending : Ending) :
    Except Nat α :=
  let count := fields.names.length
  let fault : Option Fault :=
    match items.drop count with
    | extra :: _ => some ⟨count, extra.line⟩
    | [] => ending.fault?.map (Fault.mk items.length)
  let named := (fields.names.zip (items.zipIdx)).map fun entry => (entry.1, entry.2.2, entry.2.1)
  settle fault (fields.decode room ⟨named, true, ⟨items.length + 1, ending.line⟩⟩)

/-- A record, as an object or as an array of its fields in order. -/
def record (fields : Fields α) : Decoder α
  | 0, .array line _ _ => .error line
  | 0, .object line _ _ => .error line
  | room + 1, .array _ items ending => decodeArray fields room items ending
  | room + 1, .object _ members ending => decodeObject .passed fields room members ending
  | _, node => .error node.refusal

/-- A record with an embedded group, as an object only. -/
def embedding (fields : Fields α) : Decoder α
  | 0, .object line _ _ => .error line
  | room + 1, .object _ members ending => decodeObject .kept fields room members ending
  | _, node => .error node.refusal

/-- Decodes a whole text: the value, or the line of the fault. -/
def decodeText (decoder : Decoder α) (text : List Char) : Except Nat α := do
  let document := Document.read text
  let decoded ← decoder maxDepth document.root
  match document.trailing with
  | none => return decoded
  | some line => .error line

/-- Decodes a whole string. -/
def decode? (decoder : Decoder α) (text : String) : Option α :=
  (decoder.decodeText text.toList).toOption

/-- Decodes a value that has been read before, whatever its depth. -/
def ofValue? (decoder : Decoder α) (value : Json) : Option α :=
  (decoder value.depth (.ofJson 1 value)).toOption

end Decoder

/-- Reads a value from a text. -/
def parse? (text : String) : Option Json := Decoder.decode? Decoder.value text

end Json
end Chronicle
