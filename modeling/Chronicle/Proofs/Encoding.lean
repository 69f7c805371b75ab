import Chronicle.Proofs.Decoding
import Chronicle.Recording.Encoding
import Mathlib.Order.MinMax

/-!
# Decoding the records of a recording

The stored form of each record is taken exactly if its brackets can be opened,
and then gives the record back.  Values that only handlers know come back with
the members of their objects in canonical order.
-/

namespace Chronicle

open Json (Decoder Fields Located Quoted depthMembers)

namespace Json

/-- An optional value without brackets has none. -/
theorem depth_ofOption
    {encode : α → Json}
    (flat : ∀ value, (encode value).depth = 0)
    (value : Option α) :
    (ofOption encode value).depth = 0 := by
  cases value with
  | none => rfl
  | some value => exact flat value

@[simp] theorem depth_ofOption_string (text : Option String) :
    (ofOption .string text).depth = 0 :=
  depth_ofOption (fun _ => rfl) text

@[simp] theorem depth_ofOption_bool (flag : Option Bool) :
    (ofOption .bool flag).depth = 0 :=
  depth_ofOption (fun _ => rfl) flag

theorem string_ne_null (text : String) : Json.string text ≠ .null := by
  intro same
  cases same

theorem bool_ne_null (flag : Bool) : Json.bool flag ≠ .null := by
  intro same
  cases same

@[simp] theorem depth_string (text : String) : (Json.string text).depth = 0 := rfl

@[simp] theorem depth_ofUInt64 (n : UInt64) : (ofUInt64 n).depth = 0 := rfl

end Json

namespace ResolverOutput

/-- A captured output as its record gives it back. -/
def asRead (output : ResolverOutput) : ResolverOutput :=
  { output with value := output.value.canonical }

theorem decoder_restores : decoder.Restores toJson asRead := by
  intro line room output
  apply Decoder.record_verdict
  · simp
  · intro room
    refine .congr (.seq (.map (Fields.gives_required Decoder.string_restores output.type rfl) mk)
      (Fields.gives_required Decoder.value_restores output.value rfl)) ?_
    simp [depthMembers]

theorem dict_restores : (Decoder.dict decoder).Restores dictToJson (Dict.map asRead) :=
  Decoder.dict_restores decoder_restores

/-- Captured outputs are left out exactly if there are none. -/
theorem members_cases (outputs : ResolverOutputs) :
    outputs = ∅ ∧ members outputs = [] ∨
      members outputs = [("resolverOutputs", dictToJson outputs)] := by
  unfold members
  split
  · rename_i empty
    exact .inl ⟨Dict.eq_empty_of_isEmpty empty, rfl⟩
  · exact .inr rfl

end ResolverOutput

theorem RecordKind.ofName?_name (kind : RecordKind) : ofName? kind.name = some kind := by
  cases kind <;> rfl

theorem LifecycleKind.ofName?_name (kind : LifecycleKind) : ofName? kind.name = some kind := by
  cases kind <;> rfl

theorem TargetCase.ofName?_name (case : TargetCase) : ofName? case.name = some case := by
  cases case <;> rfl

/-- An actor is restored from its three members, whatever stands beside them. -/
theorem Actor.embedded_gives
    {line room : Nat}
    {members : List (String × Json)}
    (actor : Actor)
    (player : (members.filter fun member => member.1 == "playerID") =
      [("playerID", .ofOption .string actor.player)])
    (client : (members.filter fun member => member.1 == "clientID") =
      [("clientID", .ofOption .string actor.client)])
    (session : (members.filter fun member => member.1 == "sessionID") =
      [("sessionID", .ofOption .string actor.session)]) :
    embedded.Gives line room members True actor := by
  have restored {name : String} {text : Option String}
      (found : (members.filter fun member => member.1 == name) =
        [(name, .ofOption .string text)]) :
      (Fields.embedded name Decoder.string).Gives line room members True text :=
    (Fields.gives_embedded Decoder.string_restores Json.string_ne_null found).congr (by simp)
  refine .congr (.seq (.seq (.map (restored player) mk) (restored client)) (restored session)) ?_
  simp

theorem texts_restores :
    (Decoder.list Decoder.string).Restores (fun texts => .array (texts.map .string)) id := by
  intro line room texts
  have restores := Decoder.list_restores Decoder.string_restores line room texts
  rwa [List.map_id] at restores

theorem TargetRecord.decoder_restores : decoder.Restores toJson id := by
  intro line room target
  apply Decoder.record_verdict
  · simp
  · intro room
    refine .congr (.seq (.map
      (Fields.gives_required (Decoder.variant_restores TargetCase.ofName?_name) target.case rfl) mk)
      (Fields.gives_defaulted texts_restores target.ids rfl)) ?_
    simp [depthMembers]

namespace Recording

theorem strings_restores : (Decoder.dict Decoder.string).Restores stringsToJson id := by
  intro line room strings
  have restores := Decoder.dict_restores Decoder.string_restores line room strings
  have same : strings.map id = strings := Dict.ext (List.map_id _)
  rwa [same] at restores

theorem values_restores :
    (Decoder.dict Decoder.value).Restores Json.ofDict (Dict.map Json.canonical) := by
  intro line room values
  have restores := Decoder.dict_restores Decoder.value_restores line room values
  have same : values.map id = values := Dict.ext (List.map_id _)
  simpa only [same] using restores

namespace Input

/-- An input as its record gives it back. -/
def asRead (input : Input) : Input :=
  { input with
    payload := input.payload.canonical
    outputs := input.outputs.map ResolverOutput.asRead }

/-- An input is taken if its payload and its captured outputs are. -/
theorem decoder_restores : decoder.Restores toJson asRead := by
  intro line room input
  obtain ⟨kind, sequence, type, payload, actor, outputs, resolvedAt⟩ := input
  have gives (room : Nat) {members : List (String × Json)} {others : Prop}
      {captured : ResolverOutputs}
      (foundKind : Json.valueOf? "kind" members = some (.string kind.name))
      (foundSequence : Json.valueOf? "sequence" members = some (.ofUInt64 sequence))
      (foundType : Json.valueOf? "typeIdentifier" members = some (.string type))
      (foundPayload : Json.valueOf? "payload" members = some payload)
      (foundActor : Actor.embedded.Gives line room members True actor)
      (foundOutputs : ResolverOutput.field.Gives line room members others captured)
      (foundTick : Json.valueOf? "resolvedAtTick" members = some (.ofUInt64 resolvedAt)) :=
    Fields.Gives.seq (.seq (.seq (.seq (.seq (.seq (.map
      (Fields.gives_required (Decoder.variant_restores RecordKind.ofName?_name) kind foundKind) mk)
      (Fields.gives_required Decoder.word64_restores sequence foundSequence))
      (Fields.gives_required Decoder.string_restores type foundType))
      (Fields.gives_required Decoder.value_restores payload foundPayload))
      foundActor) foundOutputs) (Fields.gives_required Decoder.word64_restores resolvedAt foundTick)
  rcases ResolverOutput.members_cases outputs with ⟨rfl, none⟩ | captured
  · rw [toJson, none]
    apply Decoder.embedding_verdict
    · simp [Actor.members]
    · simp [Actor.members, Actor.embedded, ResolverOutput.field]
    · intro room
      refine .congr (gives room rfl rfl rfl rfl (actor.embedded_gives rfl rfl rfl)
        (Fields.gives_default rfl) rfl) ?_
      simp [depthMembers, Json.depth, Actor.members]
  · rw [toJson, captured]
    apply Decoder.embedding_verdict
    · simp [Actor.members]
    · simp [Actor.members, Actor.embedded, ResolverOutput.field]
    · intro room
      refine .congr (gives room rfl rfl rfl rfl (actor.embedded_gives rfl rfl rfl)
        (Fields.gives_defaulted ResolverOutput.dict_restores outputs rfl) rfl) ?_
      simp [depthMembers, Json.depth, Actor.members]

end Input

namespace Lifecycle

/-- A join or leave as its record gives it back. -/
def asRead (event : Lifecycle) : Lifecycle :=
  { event with outputs := event.outputs.map ResolverOutput.asRead }

/-- A join or leave is taken if its captured outputs are. -/
theorem decoder_restores : decoder.Restores toJson asRead := by
  intro line room event
  obtain ⟨kind, sequence, tick, actor, device, guest, metadata, outputs, resolvedAt⟩ := event
  have gives (room : Nat) {members : List (String × Json)} {others : Prop}
      {captured : ResolverOutputs}
      (foundKind : Json.valueOf? "kind" members = some (.string kind.name))
      (foundSequence : Json.valueOf? "sequence" members = some (.ofUInt64 sequence))
      (foundTick : Json.valueOf? "tickId" members = some (.ofUInt64 tick))
      (foundActor : Actor.embedded.Gives line room members True actor)
      (foundDevice : Json.valueOf? "deviceID" members = some (.ofOption .string device))
      (foundGuest : Json.valueOf? "isGuest" members = some (.ofOption .bool guest))
      (foundMetadata : Json.valueOf? "metadata" members = some (stringsToJson metadata))
      (foundOutputs : ResolverOutput.field.Gives line room members others captured)
      (foundResolvedAt : Json.valueOf? "resolvedAtTick" members = some (.ofUInt64 resolvedAt)) :=
    have metadataGives : (Fields.defaulted "metadata" (Decoder.dict Decoder.string) ∅).Gives
        line room members _ metadata :=
      Fields.gives_defaulted strings_restores metadata foundMetadata
    have kindGives := Fields.gives_required
      (Decoder.variant_restores LifecycleKind.ofName?_name) kind foundKind
    Fields.Gives.seq (.seq (.seq (.seq (.seq (.seq (.seq (.seq (.map kindGives mk)
      (Fields.gives_required Decoder.word64_restores sequence foundSequence))
      (Fields.gives_required Decoder.word64_restores tick foundTick))
      foundActor)
      (Fields.gives_optional Decoder.string_restores Json.string_ne_null device foundDevice))
      (Fields.gives_optional Decoder.bool_restores Json.bool_ne_null guest foundGuest))
      metadataGives)
      foundOutputs)
      (Fields.gives_required Decoder.word64_restores resolvedAt foundResolvedAt)
  rcases ResolverOutput.members_cases outputs with ⟨rfl, none⟩ | captured
  · rw [toJson, none]
    apply Decoder.embedding_verdict
    · simp [Actor.members]
    · simp [Actor.members, Actor.embedded, ResolverOutput.field]
    · intro room
      refine .congr (gives room rfl rfl rfl (actor.embedded_gives rfl rfl rfl) rfl rfl rfl
        (Fields.gives_default rfl) rfl) ?_
      simp [depthMembers, Json.depth, Actor.members]
  · rw [toJson, captured]
    apply Decoder.embedding_verdict
    · simp [Actor.members]
    · simp [Actor.members, Actor.embedded, ResolverOutput.field]
    · intro room
      refine .congr (gives room rfl rfl rfl (actor.embedded_gives rfl rfl rfl) rfl rfl rfl
        (Fields.gives_defaulted ResolverOutput.dict_restores outputs rfl) rfl) ?_
      simp [depthMembers, Json.depth, Actor.members]

end Lifecycle

namespace ServerEvent

/-- A server event as its record gives it back. -/
def asRead (event : ServerEvent) : ServerEvent :=
  { event with payload := event.payload.canonical }

/-- A server event is taken if its payload and its target are. -/
theorem decoder_restores : decoder.Restores toJson asRead := by
  intro line room event
  apply Decoder.record_verdict
  · simp
  · intro room
    refine .congr (.seq (.seq (.seq (.seq (.seq (.map
      (Fields.gives_required (Decoder.variant_restores RecordKind.ofName?_name) event.kind rfl) mk)
      (Fields.gives_required Decoder.word64_restores event.sequence rfl))
      (Fields.gives_required Decoder.word64_restores event.tick rfl))
      (Fields.gives_required Decoder.string_restores event.type rfl))
      (Fields.gives_required Decoder.value_restores event.payload rfl))
      (Fields.gives_required TargetRecord.decoder_restores event.target rfl)) ?_
    simp [depthMembers]

end ServerEvent

namespace Frame

/-- A frame as its line gives it back. -/
def asRead (frame : Frame) : Frame :=
  { frame with
    actions := frame.actions.map Input.asRead
    clientEvents := frame.clientEvents.map Input.asRead
    serverEvents := frame.serverEvents.map ServerEvent.asRead
    lifecycleEvents := frame.lifecycleEvents.map Lifecycle.asRead }

/-- A frame is taken if everything in it is. -/
theorem decoder_restores : decoder.Restores toJson asRead := by
  intro line room frame
  obtain ⟨tick, actions, clientEvents, serverEvents, lifecycleEvents, stateHash⟩ := frame
  have gives (room : Nat) {members : List (String × Json)} {others : Prop}
      (foundTick : Json.valueOf? "tickId" members = some (.ofUInt64 tick))
      (foundActions : Json.valueOf? "actions" members =
        some (.array (actions.map Input.toJson)))
      (foundClientEvents : Json.valueOf? "clientEvents" members =
        some (.array (clientEvents.map Input.toJson)))
      (foundServerEvents : Json.valueOf? "serverEvents" members =
        some (.array (serverEvents.map ServerEvent.toJson)))
      (foundLifecycleEvents : Json.valueOf? "lifecycleEvents" members =
        some (.array (lifecycleEvents.map Lifecycle.toJson)))
      (foundHash : (Fields.optional "stateHash" Decoder.string).Gives line room members others
        stateHash) :=
    Fields.Gives.seq (.seq (.seq (.seq (.seq (.map
      (Fields.gives_required Decoder.word64_restores tick foundTick) mk)
      (Fields.gives_list Input.decoder_restores actions foundActions))
      (Fields.gives_list Input.decoder_restores clientEvents foundClientEvents))
      (Fields.gives_list ServerEvent.decoder_restores serverEvents foundServerEvents))
      (Fields.gives_list Lifecycle.decoder_restores lifecycleEvents foundLifecycleEvents))
      foundHash
  cases stateHash with
  | none =>
      apply Decoder.record_verdict
      · simp
      · intro room
        refine .congr (gives room rfl rfl rfl rfl rfl (Fields.gives_default rfl)) ?_
        simp [depthMembers, and_assoc]
  | some hash =>
      apply Decoder.record_verdict
      · simp
      · intro room
        refine .congr (gives room rfl rfl rfl rfl rfl
          (Fields.gives_optional Decoder.string_restores Json.string_ne_null (some hash) rfl)) ?_
        simp [depthMembers, and_assoc]

end Frame

namespace Metadata

/-- A metadata record as its line gives it back, where its time can be read. -/
def asRead (metadata : Metadata) : Metadata :=
  { metadata with
    createdAt := (Timestamp.ofText? metadata.createdAt.toText).getD metadata.createdAt
    landConfig :=
      if metadata.landConfig.getD .null = .null then none
      else some (metadata.landConfig.getD .null).canonical
    extensions := metadata.extensions.map Json.canonical }

/-- A metadata record is taken if its time can be read and everything in it is
taken. -/
theorem decoder_verdict (metadata : Metadata) (line room : Nat) :
    Json.Verdict (decoder room (.ofJson line metadata.toJson)) line
      (metadata.toJson.depth ≤ room ∧
        (Timestamp.ofText? metadata.createdAt.toText).isSome = true)
      metadata.asRead := by
  have time {room : Nat} {members : List (String × Json)}
      (found : Json.valueOf? "createdAt" members = some (.string metadata.createdAt.toText)) :
      (Fields.required "createdAt" (Decoder.parsed Timestamp.ofText?)).Gives line room members
        ((Timestamp.ofText? metadata.createdAt.toText).isSome = true)
        metadata.asRead.createdAt := by
    apply Fields.gives_field found
    simp only [asRead, Decoder.parsed, Located.ofJson, Quoted.ofString]
    cases Timestamp.ofText? metadata.createdAt.toText with
    | none => exact .never Bool.false_ne_true
    | some time => exact .always rfl
  have config {room : Nat} {members : List (String × Json)}
      (found : Json.valueOf? "landConfig" members = some (metadata.landConfig.getD .null)) :
      (Fields.optional "landConfig" Decoder.value).Gives line room members
        ((metadata.landConfig.getD .null).depth ≤ room) metadata.asRead.landConfig :=
    Fields.gives_defaulted Decoder.nullable_value_restores _ found
  have strings {room : Nat} {members : List (String × Json)}
      (found : Json.valueOf? "metadata" members = some (stringsToJson metadata.metadata)) :
      (Fields.defaulted "metadata" (Decoder.dict Decoder.string) ∅).Gives line room members
        ((stringsToJson metadata.metadata).depth ≤ room) metadata.metadata :=
    Fields.gives_defaulted strings_restores _ found
  have gives (room : Nat) {members : List (String × Json)} {others : Prop}
      {extensions : Dict String Json}
      (foundId : Json.valueOf? "landID" members = some (.string metadata.landId))
      (foundType : Json.valueOf? "landType" members = some (.string metadata.landType))
      (foundTime : Json.valueOf? "createdAt" members = some (.string metadata.createdAt.toText))
      (foundStrings : Json.valueOf? "metadata" members = some (stringsToJson metadata.metadata))
      (foundDefinition : Json.valueOf? "landDefinitionID" members =
        some (.ofOption .string metadata.definitionId))
      (foundHash : Json.valueOf? "initialStateHash" members =
        some (.ofOption .string metadata.initialHash))
      (foundConfig : Json.valueOf? "landConfig" members = some (metadata.landConfig.getD .null))
      (foundVersion : Json.valueOf? "version" members = some (.ofOption .string metadata.version))
      (foundExtensions : (Fields.defaulted "extensions" (Decoder.dict Decoder.value) ∅).Gives
        line room members others extensions) :=
    Fields.Gives.seq (.seq (.seq (.seq (.seq (.seq (.seq (.seq (.map
      (Fields.gives_required Decoder.string_restores metadata.landId foundId) mk)
      (Fields.gives_required Decoder.string_restores metadata.landType foundType))
      (time foundTime))
      (strings foundStrings))
      (Fields.gives_optional Decoder.string_restores Json.string_ne_null metadata.definitionId
        foundDefinition))
      (Fields.gives_optional Decoder.string_restores Json.string_ne_null metadata.initialHash
        foundHash))
      (config foundConfig))
      (Fields.gives_optional Decoder.string_restores Json.string_ne_null metadata.version
        foundVersion))
      foundExtensions
  have missing {room : Nat} {members : List (String × Json)}
      (empty : metadata.extensions.isEmpty = true)
      (notFound : Json.valueOf? "extensions" members = none) :
      (Fields.defaulted "extensions" (Decoder.dict Decoder.value) ∅).Gives line room members True
        metadata.asRead.extensions := by
    rw [asRead, Dict.eq_empty_of_isEmpty empty]
    exact Fields.gives_default notFound
  have present {room : Nat} {members : List (String × Json)}
      (found : Json.valueOf? "extensions" members = some (.ofDict metadata.extensions)) :
      (Fields.defaulted "extensions" (Decoder.dict Decoder.value) ∅).Gives line room members
        ((Json.ofDict metadata.extensions).depth ≤ room) metadata.asRead.extensions :=
    Fields.gives_defaulted values_restores _ found
  cases room with
  | zero => exact .never fun both => Nat.not_succ_le_zero _ both.1
  | succ room =>
      cases empty : metadata.extensions.isEmpty with
      | true =>
          rw [toJson, if_pos empty, Located.ofJson, decoder, Decoder.record]
          refine .congr (Decoder.decodeObject_passed_verdict ?_
            (gives room rfl rfl rfl rfl rfl rfl rfl rfl (missing empty rfl))) ?_
          · simp
          · simp [depthMembers, Json.depth, and_assoc, and_comm]
      | false =>
          rw [toJson, if_neg (by simp [empty]), Located.ofJson, decoder, Decoder.record]
          refine .congr (Decoder.decodeObject_passed_verdict ?_
            (gives room rfl rfl rfl rfl rfl rfl rfl rfl (present rfl))) ?_
          · simp
          · simp [depthMembers, Json.depth, and_assoc, and_left_comm, and_comm]

end Metadata

/-- A recording as its text gives it back. -/
def asRead (recording : Recording) : Recording :=
  ⟨recording.metadata.asRead, recording.frames.map Frame.asRead⟩

/-- A whole recording is taken if everything in it is. -/
theorem decoder_verdict (recording : Recording) (line room : Nat) :
    Json.Verdict (decoder room (.ofJson line recording.toJson)) line
      (recording.toJson.depth ≤ room ∧
        (Timestamp.ofText? recording.metadata.createdAt.toText).isSome = true)
      recording.asRead := by
  have metadata {room : Nat} {members : List (String × Json)}
      (found : Json.valueOf? "metadata" members = some recording.metadata.toJson) :
      (Fields.required "metadata" Metadata.decoder).Gives line room members
        (recording.metadata.toJson.depth ≤ room ∧
          (Timestamp.ofText? recording.metadata.createdAt.toText).isSome = true)
        recording.metadata.asRead :=
    Fields.gives_field found (recording.metadata.decoder_verdict line room)
  have frames {room : Nat} {members : List (String × Json)}
      (found : Json.valueOf? "frames" members =
        some (.array (recording.frames.map Frame.toJson))) :
      (Fields.defaulted "frames" (Decoder.list Frame.decoder) []).Gives line room members
        ((Json.array (recording.frames.map Frame.toJson)).depth ≤ room)
        (recording.frames.map Frame.asRead) :=
    Fields.gives_list Frame.decoder_restores recording.frames found
  cases room with
  | zero => exact .never fun both => Nat.not_succ_le_zero _ both.1
  | succ room =>
      rw [toJson, Located.ofJson, decoder, Decoder.record]
      refine .congr (Decoder.decodeObject_passed_verdict ?_
        (.seq (.map (metadata rfl) Recording.mk) (frames rfl))) ?_
      · simp
      · simp [Json.depth, depthMembers, and_left_comm, and_comm]

end Recording
end Chronicle
