import Chronicle.Recording.Basic

/-!
# The stored form of recordings

Each record is an object with its fields in a fixed order.  A missing value is
written as null, except for the hash of a frame and for empty dictionaries of
outputs and extensions, which are left out.
-/

namespace Chronicle

open Json (Decoder Fields)

namespace ResolverOutput

/-- A captured output as JSON. -/
def toJson (output : ResolverOutput) : Json :=
  .object [("typeIdentifier", .string output.type), ("value", output.value)]

/-- Decodes a captured output. -/
def decoder : Decoder ResolverOutput := Decoder.record <|
  ResolverOutput.mk <$> Fields.required "typeIdentifier" Decoder.string
    <*> Fields.required "value" Decoder.value

/-- Captured outputs as JSON. -/
def dictToJson (outputs : ResolverOutputs) : Json := .ofDict (outputs.map toJson)

/-- The member of captured outputs within a record, none if there are none. -/
def members (outputs : ResolverOutputs) : List (String × Json) :=
  if outputs.isEmpty then [] else [("resolverOutputs", dictToJson outputs)]

/-- The field of captured outputs within a record. -/
def field : Fields ResolverOutputs :=
  Fields.defaulted "resolverOutputs" (Decoder.dict decoder) ∅

end ResolverOutput

namespace Recording

/-- A dictionary of strings as JSON. -/
def stringsToJson (strings : Dict String String) : Json := .ofDict (strings.map .string)

namespace Input

/-- An executed action or client event as JSON. -/
def toJson (input : Input) : Json :=
  .object <|
    [("kind", .string input.kind.name),
      ("sequence", .ofUInt64 input.sequence),
      ("typeIdentifier", .string input.type),
      ("payload", input.payload)] ++
    input.actor.members ++
    ResolverOutput.members input.outputs ++
    [("resolvedAtTick", .ofUInt64 input.resolvedAt)]

/-- Decodes an executed action or client event. -/
def decoder : Decoder Input := Decoder.embedding <|
  Input.mk <$> Fields.required "kind" (Decoder.variant RecordKind.ofName?)
    <*> Fields.required "sequence" Decoder.word64
    <*> Fields.required "typeIdentifier" Decoder.string
    <*> Fields.required "payload" Decoder.value
    <*> Actor.embedded
    <*> ResolverOutput.field
    <*> Fields.required "resolvedAtTick" Decoder.word64

end Input

namespace Lifecycle

/-- An executed join or leave as JSON. -/
def toJson (event : Lifecycle) : Json :=
  .object <|
    [("kind", .string event.kind.name),
      ("sequence", .ofUInt64 event.sequence),
      ("tickId", .ofUInt64 event.tick)] ++
    event.actor.members ++
    [("deviceID", .ofOption .string event.device),
      ("isGuest", .ofOption .bool event.guest),
      ("metadata", stringsToJson event.metadata)] ++
    ResolverOutput.members event.outputs ++
    [("resolvedAtTick", .ofUInt64 event.resolvedAt)]

/-- Decodes an executed join or leave. -/
def decoder : Decoder Lifecycle := Decoder.embedding <|
  Lifecycle.mk <$> Fields.required "kind" (Decoder.variant LifecycleKind.ofName?)
    <*> Fields.required "sequence" Decoder.word64
    <*> Fields.required "tickId" Decoder.word64
    <*> Actor.embedded
    <*> Fields.optional "deviceID" Decoder.string
    <*> Fields.optional "isGuest" Decoder.bool
    <*> Fields.defaulted "metadata" (Decoder.dict Decoder.string) ∅
    <*> ResolverOutput.field
    <*> Fields.required "resolvedAtTick" Decoder.word64

end Lifecycle

namespace ServerEvent

/-- An emitted server event as JSON. -/
def toJson (event : ServerEvent) : Json :=
  .object
    [("kind", .string event.kind.name),
      ("sequence", .ofUInt64 event.sequence),
      ("tickId", .ofUInt64 event.tick),
      ("typeIdentifier", .string event.type),
      ("payload", event.payload),
      ("target", event.target.toJson)]

/-- Decodes an emitted server event. -/
def decoder : Decoder ServerEvent := Decoder.record <|
  ServerEvent.mk <$> Fields.required "kind" (Decoder.variant RecordKind.ofName?)
    <*> Fields.required "sequence" Decoder.word64
    <*> Fields.required "tickId" Decoder.word64
    <*> Fields.required "typeIdentifier" Decoder.string
    <*> Fields.required "payload" Decoder.value
    <*> Fields.required "target" TargetRecord.decoder

end ServerEvent

namespace Frame

/-- A frame as JSON. -/
def toJson (frame : Frame) : Json :=
  .object <|
    [("tickId", .ofUInt64 frame.tick),
      ("actions", .array (frame.actions.map Input.toJson)),
      ("clientEvents", .array (frame.clientEvents.map Input.toJson)),
      ("serverEvents", .array (frame.serverEvents.map ServerEvent.toJson)),
      ("lifecycleEvents", .array (frame.lifecycleEvents.map Lifecycle.toJson))] ++
    (frame.stateHash.map fun hash => ("stateHash", Json.string hash)).toList

/-- Decodes a frame. -/
def decoder : Decoder Frame := Decoder.record <|
  Frame.mk <$> Fields.required "tickId" Decoder.word64
    <*> Fields.defaulted "actions" (Decoder.list Input.decoder) []
    <*> Fields.defaulted "clientEvents" (Decoder.list Input.decoder) []
    <*> Fields.defaulted "serverEvents" (Decoder.list ServerEvent.decoder) []
    <*> Fields.defaulted "lifecycleEvents" (Decoder.list Lifecycle.decoder) []
    <*> Fields.optional "stateHash" Decoder.string

end Frame

namespace Metadata

/-- The metadata record as JSON. -/
def toJson (metadata : Metadata) : Json :=
  .object <|
    [("landID", .string metadata.landId),
      ("landType", .string metadata.landType),
      ("createdAt", .string metadata.createdAt.toText),
      ("metadata", stringsToJson metadata.metadata),
      ("landDefinitionID", .ofOption .string metadata.definitionId),
      ("initialStateHash", .ofOption .string metadata.initialHash),
      ("landConfig", metadata.landConfig.getD .null),
      ("version", .ofOption .string metadata.version)] ++
    (if metadata.extensions.isEmpty then [] else [("extensions", .ofDict metadata.extensions)])

/-- Decodes the metadata record. -/
def decoder : Decoder Metadata := Decoder.record <|
  Metadata.mk <$> Fields.required "landID" Decoder.string
    <*> Fields.required "landType" Decoder.string
    <*> Fields.required "createdAt" (Decoder.parsed Timestamp.ofText?)
    <*> Fields.defaulted "metadata" (Decoder.dict Decoder.string) ∅
    <*> Fields.optional "landDefinitionID" Decoder.string
    <*> Fields.optional "initialStateHash" Decoder.string
    <*> Fields.optional "landConfig" Decoder.value
    <*> Fields.optional "version" Decoder.string
    <*> Fields.defaulted "extensions" (Decoder.dict Decoder.value) ∅

end Metadata

/-- A whole recording as JSON. -/
def toJson (recording : Recording) : Json :=
  .object
    [("metadata", recording.metadata.toJson),
      ("frames", .array (recording.frames.map Frame.toJson))]

/-- Decodes a whole recording. -/
def decoder : Decoder Recording := Decoder.record <|
  Recording.mk <$> Fields.required "metadata" Metadata.decoder
    <*> Fields.defaulted "frames" (Decoder.list Frame.decoder) []

end Recording
end Chronicle
