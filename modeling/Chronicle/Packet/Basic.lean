import Chronicle.Bytes
import Chronicle.Json.Decoder
import Chronicle.Json.Printer

/-!
# Packets

The datagrams that clients and the server exchange.  Payloads travel as JSON
text, because only the handlers know their types.
-/

namespace Chronicle

/-- A datagram between a client and the server. -/
inductive Packet where
  | join (version : UInt32) (player : String) (device : Option String) (guest : Bool)
      (metadata : Dict String String)
  | action (request : UInt32) (type payload : String)
  | clientEvent (request : UInt32) (type payload : String)
  | heartbeat
  | leave
  | joined (player client session : String)
  | ack (request : UInt32) (sequence : UInt64)
  | rejected (request : UInt32) (reason : String)
  | serverEvent (tick : UInt64) (type payload : String)
  | disconnected (reason : String)
  deriving DecidableEq, Inhabited

namespace Packet

/-- The version of the protocol that the server speaks. -/
def protocolVersion : UInt32 := 1

/-- A packet with content as JSON. -/
def tagged (name : String) (members : List (String × Json)) : Json :=
  .object [(name, .object members)]

/-- A packet as JSON: its name, and its content under the name if it has any. -/
def toJson : Packet → Json
  | .join version player device guest metadata =>
      tagged "Join" [("client_version", .ofUInt32 version), ("player_id", .string player),
        ("device_id", .ofOption .string device), ("is_guest", .bool guest),
        ("metadata", .ofDict (metadata.map .string))]
  | .action request type payload =>
      tagged "Action" [("request_id", .ofUInt32 request), ("type_identifier", .string type),
        ("payload_json", .string payload)]
  | .clientEvent request type payload =>
      tagged "ClientEvent" [("request_id", .ofUInt32 request), ("type_identifier", .string type),
        ("payload_json", .string payload)]
  | .heartbeat => .string "Heartbeat"
  | .leave => .string "Leave"
  | .joined player client session =>
      tagged "Joined" [("player_id", .string player), ("client_id", .string client),
        ("session_id", .string session)]
  | .ack request sequence =>
      tagged "Ack" [("request_id", .ofUInt32 request), ("sequence", .ofUInt64 sequence)]
  | .rejected request reason =>
      tagged "Rejected" [("request_id", .ofUInt32 request), ("reason", .string reason)]
  | .serverEvent tick type payload =>
      tagged "ServerEvent" [("tick_id", .ofUInt64 tick), ("type_identifier", .string type),
        ("payload_json", .string payload)]
  | .disconnected reason => tagged "Disconnected" [("reason", .string reason)]

open Json (Decoder Fields)

/-- The packet without content of a name. -/
def bare? : String → Option Packet
  | "Heartbeat" => some .heartbeat
  | "Leave" => some .leave
  | _ => none

/-- The fields of the packet with content of a name. -/
def fields? (name : String) : Option (Fields Packet) :=
  let text (name : String) := Fields.required name Decoder.string
  let request := Fields.required "request_id" Decoder.word32
  match name with
  | "Join" => some <|
      .join <$> Fields.required "client_version" Decoder.word32 <*> text "player_id"
        <*> Fields.named "device_id" Decoder.string <*> Fields.required "is_guest" Decoder.bool
        <*> Fields.required "metadata" (Decoder.dict Decoder.string)
  | "Action" => some <| .action <$> request <*> text "type_identifier" <*> text "payload_json"
  | "ClientEvent" => some <|
      .clientEvent <$> request <*> text "type_identifier" <*> text "payload_json"
  | "Joined" => some <| .joined <$> text "player_id" <*> text "client_id" <*> text "session_id"
  | "Ack" => some <| .ack <$> request <*> Fields.required "sequence" Decoder.word64
  | "Rejected" => some <| .rejected <$> request <*> text "reason"
  | "ServerEvent" => some <|
      .serverEvent <$> Fields.required "tick_id" Decoder.word64 <*> text "type_identifier"
        <*> text "payload_json"
  | "Disconnected" => some <| .disconnected <$> text "reason"
  | _ => none

/-- Decodes a packet from JSON. -/
def decoder : Decoder Packet :=
  Decoder.choice bare? fun name => (fields? name).map Decoder.record

end Packet
end Chronicle
