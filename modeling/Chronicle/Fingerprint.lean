import Chronicle.Bytes
import Chronicle.Text.Hex

/-!
# Fingerprints of states

The fingerprint of a state is the 64-bit FNV-1a hash of its layout in bytes,
written as sixteen hexadecimal digits.
-/

namespace Chronicle
namespace Fingerprint

/-- The hash of no bytes. -/
def basis : UInt64 := 0xcbf29ce484222325

/-- The odd number by which each step multiplies. -/
def prime : UInt64 := 0x00000100000001b3

/-- Takes one byte into a hash. -/
def absorb (hash : UInt64) (byte : UInt8) : UInt64 := (hash ^^^ byte.toUInt64) * prime

/-- The hash of bytes. -/
def hash (bytes : List UInt8) : UInt64 := bytes.foldl absorb basis

/-- A hash as sixteen hexadecimal digits. -/
def format (hash : UInt64) : String := String.ofList (Text.hexDigits 16 hash.toNat)

/-- The fingerprint of bytes. -/
def ofBytes (bytes : List UInt8) : String := format (hash bytes)

end Fingerprint
end Chronicle
