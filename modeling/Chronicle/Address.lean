import Chronicle.Text.Hex

/-!
# Addresses

An address is the number of a machine and a port on it.  A number of the
fourth version has 32 bits and is written as four bytes in decimal with points
between them.  One of the sixth has 128 bits, written as eight groups of
sixteen bits in hexadecimal with colons between them; the longest row of at
least two zero groups is written as two colons, and a number that stands for
one of the fourth version ends with it.  Reading accepts every such spelling,
also one that is longer than needed.
-/

namespace Chronicle

/-- The number of a machine.  One of the sixth version may say to which
network of the machine that uses it it belongs. -/
inductive Machine where
  | v4 (number : BitVec 32)
  | v6 (number : BitVec 128) (network : UInt32)
  deriving Repr, DecidableEq, Inhabited

/-- The number of a machine and a port on it. -/
structure Address where
  machine : Machine
  port : UInt16
  deriving Repr, DecidableEq, Inhabited

namespace Machine

/-- Reads digits of a base of at most sixteen as a number below a bound. -/
def digits? (base bound : Nat) (text : List Char) : Option Nat :=
  if text.isEmpty then none
  else text.foldlM (fun n c => do
    let digit ← Text.hexValue? c
    if digit < base ∧ n * base + digit < bound then some (n * base + digit) else none) 0

/-- Reads a byte in decimal without needless zeros. -/
def byte? (text : String) : Option Nat :=
  if text != "0" && text.startsWith "0" then none else digits? 10 256 text.toList

/-- Reads a number of the fourth version. -/
def readV4? (text : String) : Option (BitVec 32) := do
  let bytes ← (text.splitOn ".").mapM byte?
  if bytes.length = 4 then some (.ofNat 32 (bytes.foldl (fun n byte => n * 256 + byte) 0)) else none

/-- The groups of sixteen bits of a number of the fourth version. -/
def groupsOfV4 (number : BitVec 32) : List Nat := [number.toNat / 65536, number.toNat % 65536]

/-- Reads a group of one to four digits. -/
def group? (text : String) : Option Nat :=
  if 4 < text.length then none else digits? 16 65536 text.toList

/-- Reads the groups of some parts; the last part may be a number of the fourth
version if that is allowed. -/
def groupsOf? (endsInV4 : Bool) : List String → Option (List Nat)
  | [] => some []
  | [last] =>
      match group? last, endsInV4 with
      | some group, _ => some [group]
      | none, true => (readV4? last).map groupsOfV4
      | none, false => none
  | part :: rest => return (← group? part) :: (← groupsOf? endsInV4 rest)

/-- Reads groups with colons between them, or none. -/
def groups? (endsInV4 : Bool) (text : String) : Option (List Nat) :=
  if text.isEmpty then some [] else groupsOf? endsInV4 (text.splitOn ":")

/-- Reads a number of the sixth version. -/
def readV6? (text : String) : Option (BitVec 128) := do
  let groups ←
    match text.splitOn "::" with
    | [whole] => do
        let groups ← groups? true whole
        if groups.length = 8 then some groups else none
    | [front, back] => do
        let first ← groups? false front
        let last ← groups? true back
        let length := first.length + last.length
        if length < 8 then some (first ++ List.replicate (8 - length) 0 ++ last) else none
    | _ => none
  return .ofNat 128 (groups.foldl (fun n group => n * 65536 + group) 0)

/-- Reads a number of the sixth version, with the network behind a percent sign
if there is one. -/
def readScoped? (text : String) : Option Machine :=
  match text.splitOn "%" with
  | [number] => (readV6? number).map fun n => .v6 n 0
  | [number, network] => do
      return .v6 (← readV6? number) (.ofNat (← digits? 10 UInt32.size network.toList))
  | _ => none

/-- The text of a number of the fourth version. -/
def textV4 (number : BitVec 32) : String :=
  let n := number.toNat
  s!"{n / 16777216}.{n / 65536 % 256}.{n / 256 % 256}.{n % 256}"

/-- The eight groups of a number of the sixth version. -/
def groups (number : BitVec 128) : List Nat :=
  (List.range 8).map fun place => number.toNat >>> (16 * (7 - place)) % 65536

/-- The number of zeros at the beginning of some groups. -/
def leadingZeros (groups : List Nat) : Nat := (groups.takeWhile (· == 0)).length

/-- The place and the length of the longest row of zeros, the first of several. -/
def longestZeros (groups : List Nat) : Nat × Nat :=
  (List.range groups.length).foldl (fun best place =>
    let row := leadingZeros (groups.drop place)
    if best.2 < row then (place, row) else best) (0, 0)

/-- Groups in hexadecimal with colons between them. -/
def textOfGroups (groups : List Nat) : String :=
  ":".intercalate (groups.map fun group => String.ofList (Nat.toDigits 16 group))

/-- Whether a number of the sixth version stands for one of the fourth. -/
def isMapped (number : BitVec 128) : Bool := number.toNat >>> 32 == 0xffff

/-- The text of a number of the sixth version. -/
def textV6 (number : BitVec 128) : String :=
  if isMapped number then "::ffff:" ++ textV4 (.ofNat 32 number.toNat)
  else
    let groups := groups number
    let (place, row) := longestZeros groups
    if 1 < row then
      textOfGroups (groups.take place) ++ "::" ++ textOfGroups (groups.drop (place + row))
    else textOfGroups groups

/-- A number that tells machines apart. -/
def code : Machine → Nat
  | .v4 number => number.toNat
  | .v6 number network => 4294967296 + (number.toNat * 4294967296 + network.toNat)

/-- Machines of the same code are the same. -/
theorem code_inj {first second : Machine} (same : first.code = second.code) : first = second := by
  cases first with
  | v4 number =>
    cases second with
    | v4 other => exact congrArg v4 (BitVec.eq_of_toNat_eq same)
    | v6 other network =>
      have bound := number.isLt
      simp only [code] at same
      omega
  | v6 number network =>
    cases second with
    | v4 other =>
      have bound := other.isLt
      simp only [code] at same
      omega
    | v6 other network' =>
      have bound := network.toNat_lt
      have bound' := network'.toNat_lt
      simp only [code] at same
      have numbers : number.toNat = other.toNat := by omega
      have networks : network.toNat = network'.toNat := by omega
      rw [BitVec.eq_of_toNat_eq numbers, UInt32.toNat_inj.mp networks]

end Machine

namespace Address

/-- Reads a port in decimal. -/
def port? (text : String) : Option UInt16 :=
  (Machine.digits? 10 UInt16.size text.toList).map UInt16.ofNat

/-- Reads an address.  A number of the sixth version stands in brackets. -/
def parse? (text : String) : Option Address :=
  match text.toList with
  | '[' :: rest =>
      match (String.ofList rest).splitOn "]:" with
      | [machine, port] => do return ⟨← Machine.readScoped? machine, ← port? port⟩
      | _ => none
  | _ =>
      match text.splitOn ":" with
      | [machine, port] => do return ⟨.v4 (← Machine.readV4? machine), ← port? port⟩
      | _ => none

/-- The text of an address. -/
def toText (address : Address) : String :=
  match address.machine with
  | .v4 number => s!"{Machine.textV4 number}:{address.port.toNat}"
  | .v6 number network =>
      let scope := if network = 0 then "" else s!"%{network.toNat}"
      s!"[{Machine.textV6 number}{scope}]:{address.port.toNat}"

/-- A number that tells addresses apart. -/
def code (address : Address) : Nat := address.machine.code * 65536 + address.port.toNat

instance : Ord Address := ⟨compareOn code⟩

instance : Std.TransOrd Address := inferInstanceAs (Std.TransCmp (compareOn code))

instance : Std.LawfulEqOrd Address where
  eq_of_compare {first second} same := by
    have codes : first.code = second.code := Std.LawfulEqOrd.eq_of_compare same
    obtain ⟨machine, port⟩ := first
    obtain ⟨machine', port'⟩ := second
    have bound := port.toNat_lt
    have bound' := port'.toNat_lt
    simp only [code] at codes
    have machines : machine.code = machine'.code := by omega
    have ports : port.toNat = port'.toNat := by omega
    rw [Machine.code_inj machines, UInt16.toNat_inj.mp ports]

end Address
end Chronicle
