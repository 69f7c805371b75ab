import Chronicle.Log

/-!
# Bytes shown as text

In UTF-8 a character is a leading byte, which says how many bytes follow and
where the next one may lie, and the bytes that continue it.  Bytes of another
form are shown as replacement characters: one for each beginning of a
character that is not continued, and one for each byte that begins none.
-/

namespace Chronicle
namespace Text

/-- The beginning of a character: its value so far, how many bytes are missing
besides the next one, and the range in which the next one may lie. -/
structure Begun where
  value : Nat
  missing : Nat
  least : UInt8 := 0x80
  greatest : UInt8 := 0xbf
  deriving Repr, DecidableEq

/-- The replacement character. -/
def replacement : Char := '\ufffd'

/-- What a leading byte stands for, or what it begins. -/
def lead (byte : UInt8) : Char ⊕ Begun :=
  if byte < 0x80 then .inl (Char.ofNat byte.toNat)
  else if byte < 0xc2 then .inl replacement
  else if byte < 0xe0 then .inr { value := byte.toNat - 0xc0, missing := 0 }
  else if byte = 0xe0 then .inr { value := 0, missing := 1, least := 0xa0 }
  else if byte = 0xed then .inr { value := 0xd, missing := 1, greatest := 0x9f }
  else if byte < 0xf0 then .inr { value := byte.toNat - 0xe0, missing := 1 }
  else if byte = 0xf0 then .inr { value := 0, missing := 2, least := 0x90 }
  else if byte < 0xf4 then .inr { value := byte.toNat - 0xf0, missing := 2 }
  else if byte = 0xf4 then .inr { value := 4, missing := 2, greatest := 0x8f }
  else .inl replacement

/-- The beginning of a character continued by a byte in its range. -/
def Begun.extend (begun : Begun) (byte : UInt8) : Char ⊕ Begun :=
  let value := begun.value * 64 + byte.toNat % 64
  match begun.missing with
  | 0 => .inl (Char.ofNat value)
  | missing + 1 => .inr { value, missing }

/-- Adds a character to what is shown, or notes the beginning of one. -/
def showNext (shown : Log Char) : Char ⊕ Begun → Option Begun × Log Char
  | .inl c => (none, shown.push c)
  | .inr begun => (some begun, shown)

/-- Shows a byte that follows the beginning of a character, if there is one. -/
def showByte : Option Begun × Log Char → UInt8 → Option Begun × Log Char
  | (none, shown), byte => showNext shown (lead byte)
  | (some begun, shown), byte =>
      if begun.least ≤ byte ∧ byte ≤ begun.greatest then showNext shown (begun.extend byte)
      else showNext (shown.push replacement) (lead byte)

/-- Bytes shown as text. -/
def ofUtf8 (bytes : List UInt8) : List Char :=
  let (begun, shown) := bytes.foldl showByte (none, ∅)
  (if begun.isSome then shown.push replacement else shown).toList

end Text
end Chronicle
