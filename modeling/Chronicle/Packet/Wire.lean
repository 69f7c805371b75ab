import Chronicle.Packet.Basic

/-!
# The wire form of packets

A packet is sent as the number of its kind in 32 bits and its content in
order.  Bytes after a packet are ignored.
-/

namespace Chronicle
namespace Packet

/-- A dictionary of strings. -/
def stringsLayout (strings : Dict String String) : List UInt8 :=
  Bytes.dict Bytes.text Bytes.text strings

/-- The bytes of a packet. -/
def encode : Packet → List UInt8
  | .join version player device guest metadata =>
      Bytes.word32 0 ++ Bytes.word32 version ++ Bytes.text player ++
        Bytes.option Bytes.text device ++ Bytes.bool guest ++ stringsLayout metadata
  | .action request type payload =>
      Bytes.word32 1 ++ Bytes.word32 request ++ Bytes.text type ++ Bytes.text payload
  | .clientEvent request type payload =>
      Bytes.word32 2 ++ Bytes.word32 request ++ Bytes.text type ++ Bytes.text payload
  | .heartbeat => Bytes.word32 3
  | .leave => Bytes.word32 4
  | .joined player client session =>
      Bytes.word32 5 ++ Bytes.text player ++ Bytes.text client ++ Bytes.text session
  | .ack request sequence => Bytes.word32 6 ++ Bytes.word32 request ++ Bytes.word64 sequence
  | .rejected request reason => Bytes.word32 7 ++ Bytes.word32 request ++ Bytes.text reason
  | .serverEvent tick type payload =>
      Bytes.word32 8 ++ Bytes.word64 tick ++ Bytes.text type ++ Bytes.text payload
  | .disconnected reason => Bytes.word32 9 ++ Bytes.text reason

open Bytes.Reader (word32 word64 text bool option dict)

/-- Reads the content of the packet of a kind. -/
def content (kind : UInt32) : Bytes.Reader Packet :=
  match kind with
  | 0 => do
      let version ← word32
      let player ← text
      let device ← option text
      let guest ← bool
      let metadata ← dict text text
      return .join version player device guest metadata
  | 1 => do
      let request ← word32
      let type ← text
      let payload ← text
      return .action request type payload
  | 2 => do
      let request ← word32
      let type ← text
      let payload ← text
      return .clientEvent request type payload
  | 3 => return .heartbeat
  | 4 => return .leave
  | 5 => do
      let player ← text
      let client ← text
      let session ← text
      return .joined player client session
  | 6 => do
      let request ← word32
      let sequence ← word64
      return .ack request sequence
  | 7 => do
      let request ← word32
      let reason ← text
      return .rejected request reason
  | 8 => do
      let tick ← word64
      let type ← text
      let payload ← text
      return .serverEvent tick type payload
  | 9 => do
      let reason ← text
      return .disconnected reason
  | _ => throw .unknownVariant

/-- Reads a packet at the beginning of some bytes. -/
def read : Bytes.Reader Packet := do
  let kind ← word32
  content kind

/-- The packet of a datagram. -/
def decode (bytes : List UInt8) : Except BytesError Packet := read.run' bytes

end Packet
end Chronicle
