import Chronicle.Dict
import Chronicle.Json.Number

/-!
# JSON values

A value is a tree of nulls, booleans, numbers, strings, arrays and objects.
The members of an object stand in the order in which they are written.  A
canonical object has its keys in strictly ascending order; free-form values
are kept canonical, while the records of a recording fix an order of their own.
-/

namespace Chronicle

/-- A JSON value. -/
inductive Json where
  | null
  | bool (value : Bool)
  | number (value : Json.Number)
  | string (value : String)
  | array (items : List Json)
  | object (members : List (String × Json))

namespace Json

instance : Inhabited Json := ⟨.null⟩

mutual

/-- Equality of values is decidable. -/
def decideEq : (a b : Json) → Decidable (a = b)
  | .null, b => by
      cases b <;> first | exact isTrue rfl | exact isFalse (by simp)
  | .bool a, b => by
      cases b with
      | bool b => exact decidable_of_iff (a = b) (by simp)
      | _ => exact isFalse (by simp)
  | .number a, b => by
      cases b with
      | number b => exact decidable_of_iff (a = b) (by simp)
      | _ => exact isFalse (by simp)
  | .string a, b => by
      cases b with
      | string b => exact decidable_of_iff (a = b) (by simp)
      | _ => exact isFalse (by simp)
  | .array a, .array b =>
      have := decideItems a b
      decidable_of_iff (a = b) (by simp)
  | .array _, .null => isFalse (by simp)
  | .array _, .bool _ => isFalse (by simp)
  | .array _, .number _ => isFalse (by simp)
  | .array _, .string _ => isFalse (by simp)
  | .array _, .object _ => isFalse (by simp)
  | .object a, .object b =>
      have := decideMembers a b
      decidable_of_iff (a = b) (by simp)
  | .object _, .null => isFalse (by simp)
  | .object _, .bool _ => isFalse (by simp)
  | .object _, .number _ => isFalse (by simp)
  | .object _, .string _ => isFalse (by simp)
  | .object _, .array _ => isFalse (by simp)

/-- Equality of lists of values is decidable. -/
def decideItems : (a b : List Json) → Decidable (a = b)
  | [], [] => isTrue rfl
  | [], _ :: _ => isFalse (by simp)
  | _ :: _, [] => isFalse (by simp)
  | x :: xs, y :: ys =>
      have := decideEq x y
      have := decideItems xs ys
      decidable_of_iff (x = y ∧ xs = ys) (by simp)

/-- Equality of lists of members is decidable. -/
def decideMembers : (a b : List (String × Json)) → Decidable (a = b)
  | [], [] => isTrue rfl
  | [], _ :: _ => isFalse (by simp)
  | _ :: _, [] => isFalse (by simp)
  | (k, x) :: xs, (l, y) :: ys =>
      have := decideEq x y
      have := decideMembers xs ys
      decidable_of_iff (k = l ∧ x = y ∧ xs = ys) (by simp [and_assoc])

end

instance : DecidableEq Json := decideEq

/-- Puts a member into a canonical object; a member of the same key gives way. -/
def insertMember (key : String) (value : Json) (members : List (String × Json)) :
    List (String × Json) :=
  Dict.insertEntry key value members

/-- The canonical object of a list of members; of two with one key the later
counts. -/
def ofMembers (members : List (String × Json)) : Json :=
  .object (members.foldl (fun sorted member => insertMember member.1 member.2 sorted) [])

/-- The object of a dictionary. -/
def ofDict (d : Dict String Json) : Json := .object d.entries

/-- The text of an optional string, or null. -/
def ofOption (encode : α → Json) : Option α → Json
  | none => .null
  | some value => encode value

/-- An unsigned integer. -/
def ofUInt64 (n : UInt64) : Json := .number (.ofUInt64 n)

/-- An unsigned integer of 32 bits. -/
def ofUInt32 (n : UInt32) : Json := ofUInt64 n.toUInt64

/-- A signed integer. -/
def ofInt64 (n : Int64) : Json := .number (.ofInt64 n)

/-- A single widened to a double; null when it is not finite. -/
def ofSingle (value : Ieee.Single) : Json :=
  match Number.ofDouble? (.ofSingle value) with
  | some finite => .number finite
  | none => .null

mutual

/-- Agreement of values: equal up to the sign of a zero double. -/
def agrees : Json → Json → Bool
  | .null, .null => true
  | .bool a, .bool b => a == b
  | .number a, .number b => a.agrees b
  | .string a, .string b => a == b
  | .array a, .array b => agreesItems a b
  | .object a, .object b => agreesMembers a b
  | _, _ => false

/-- Agreement of lists of values. -/
def agreesItems : List Json → List Json → Bool
  | [], [] => true
  | x :: xs, y :: ys => x.agrees y && agreesItems xs ys
  | _, _ => false

/-- Agreement of lists of members, keys included. -/
def agreesMembers : List (String × Json) → List (String × Json) → Bool
  | [], [] => true
  | (k, x) :: xs, (l, y) :: ys => k == l && x.agrees y && agreesMembers xs ys
  | _, _ => false

end

mutual

/-- The number of arrays and objects on the deepest path into a value. -/
def depth : Json → Nat
  | .null => 0
  | .bool _ => 0
  | .number _ => 0
  | .string _ => 0
  | .array items => depthItems items + 1
  | .object members => depthMembers members + 1

/-- The depth of the deepest item. -/
def depthItems : List Json → Nat
  | [] => 0
  | x :: xs => max x.depth (depthItems xs)

/-- The depth of the deepest member. -/
def depthMembers : List (String × Json) → Nat
  | [] => 0
  | (_, x) :: xs => max x.depth (depthMembers xs)

end

end Json
end Chronicle
