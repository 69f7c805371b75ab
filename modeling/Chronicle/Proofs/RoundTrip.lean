import Chronicle.Proofs.LineFile
import Chronicle.Proofs.Lines
import Chronicle.Proofs.Pretty
import Mathlib.Tactic.MkIffOfInductiveProp

/-!
# A recording comes back from its text

A recording is written as one document spread over lines, or line by line into a
file.  Both are read back as the recording, where a configuration of the land
that is null counts as none.
-/

namespace Chronicle

open Json (Decoder Fields Number maxDepth)

/-! ## Records wherever they stand -/

theorem ResolverOutput.decoder_relocates : decoder.Relocates :=
  Decoder.record_relocates <|
    .seq (.map (Fields.required_relocates Decoder.string_relocates) mk)
      (Fields.required_relocates Decoder.value_relocates)

theorem ResolverOutput.field_relocates : field.Relocates :=
  Fields.defaulted_relocates (Decoder.dict_relocates decoder_relocates)

theorem Actor.embedded_relocates : embedded.Relocates :=
  .seq (.seq (.map (Fields.embedded_relocates Decoder.string_relocates) mk)
    (Fields.embedded_relocates Decoder.string_relocates))
    (Fields.embedded_relocates Decoder.string_relocates)

theorem TargetRecord.decoder_relocates : decoder.Relocates :=
  Decoder.record_relocates <|
    .seq (.map (Fields.required_relocates (Decoder.variant_relocates _)) mk)
      (Fields.defaulted_relocates (Decoder.list_relocates Decoder.string_relocates))

namespace Recording

theorem Input.decoder_relocates : decoder.Relocates :=
  Decoder.embedding_relocates <|
    .seq (.seq (.seq (.seq (.seq (.seq
      (.map (Fields.required_relocates (Decoder.variant_relocates _)) mk)
      (Fields.required_relocates Decoder.word64_relocates))
      (Fields.required_relocates Decoder.string_relocates))
      (Fields.required_relocates Decoder.value_relocates))
      Actor.embedded_relocates)
      ResolverOutput.field_relocates)
      (Fields.required_relocates Decoder.word64_relocates)

theorem Lifecycle.decoder_relocates : decoder.Relocates :=
  Decoder.embedding_relocates <|
    .seq (.seq (.seq (.seq (.seq (.seq (.seq (.seq
      (.map (Fields.required_relocates (Decoder.variant_relocates _)) mk)
      (Fields.required_relocates Decoder.word64_relocates))
      (Fields.required_relocates Decoder.word64_relocates))
      Actor.embedded_relocates)
      (Fields.optional_relocates Decoder.string_relocates))
      (Fields.optional_relocates Decoder.bool_relocates))
      (Fields.defaulted_relocates (Decoder.dict_relocates Decoder.string_relocates)))
      ResolverOutput.field_relocates)
      (Fields.required_relocates Decoder.word64_relocates)

theorem ServerEvent.decoder_relocates : decoder.Relocates :=
  Decoder.record_relocates <|
    .seq (.seq (.seq (.seq (.seq
      (.map (Fields.required_relocates (Decoder.variant_relocates _)) mk)
      (Fields.required_relocates Decoder.word64_relocates))
      (Fields.required_relocates Decoder.word64_relocates))
      (Fields.required_relocates Decoder.string_relocates))
      (Fields.required_relocates Decoder.value_relocates))
      (Fields.required_relocates TargetRecord.decoder_relocates)

theorem Frame.decoder_relocates : decoder.Relocates :=
  Decoder.record_relocates <|
    .seq (.seq (.seq (.seq (.seq
      (.map (Fields.required_relocates Decoder.word64_relocates) mk)
      (Fields.defaulted_relocates (Decoder.list_relocates Input.decoder_relocates)))
      (Fields.defaulted_relocates (Decoder.list_relocates Input.decoder_relocates)))
      (Fields.defaulted_relocates (Decoder.list_relocates ServerEvent.decoder_relocates)))
      (Fields.defaulted_relocates (Decoder.list_relocates Lifecycle.decoder_relocates)))
      (Fields.optional_relocates Decoder.string_relocates)

theorem Metadata.decoder_relocates : decoder.Relocates :=
  Decoder.record_relocates <|
    .seq (.seq (.seq (.seq (.seq (.seq (.seq (.seq
      (.map (Fields.required_relocates Decoder.string_relocates) mk)
      (Fields.required_relocates Decoder.string_relocates))
      (Fields.required_relocates (Decoder.parsed_relocates _)))
      (Fields.defaulted_relocates (Decoder.dict_relocates Decoder.string_relocates)))
      (Fields.optional_relocates Decoder.string_relocates))
      (Fields.optional_relocates Decoder.string_relocates))
      (Fields.optional_relocates Decoder.value_relocates))
      (Fields.optional_relocates Decoder.string_relocates))
      (Fields.defaulted_relocates (Decoder.dict_relocates Decoder.value_relocates))

theorem decoder_relocates : decoder.Relocates :=
  Decoder.record_relocates <|
    .seq (.map (Fields.required_relocates Metadata.decoder_relocates) mk)
      (Fields.defaulted_relocates (Decoder.list_relocates Frame.decoder_relocates))

/-! ## Both forms of a recording -/

/-- The decimals of a recording are those of its records. -/
theorem readsBack_iff {recording : Recording} :
    recording.ReadsBack ↔ ∀ number ∈ recording.toJson.decimals, number.ReadsBack := by
  have frames (frames : List Frame) :
      (∀ value ∈ frames.map Frame.toJson, ∀ number ∈ value.decimals, number.ReadsBack) ↔
        ∀ number ∈ Json.decimalsOfItems (frames.map Frame.toJson), number.ReadsBack := by
    induction frames with
    | nil => exact iff_of_true (List.forall_mem_nil _) (List.forall_mem_nil _)
    | cons frame rest inductionHypothesis =>
        rw [List.map_cons, List.forall_mem_cons, inductionHypothesis, Json.decimalsOfItems,
          List.forall_mem_append]
  have whole : recording.toJson.decimals = recording.metadata.toJson.decimals ++
      (Json.decimalsOfItems (recording.frames.map Frame.toJson) ++ []) := rfl
  rw [ReadsBack, values, List.forall_mem_cons, frames, whole, List.append_nil,
    List.forall_mem_append]

/-- A recording that is not nested too deeply has records that are not. -/
theorem depth_toJson_le_iff {recording : Recording} {room : Nat} :
    recording.toJson.depth ≤ room + 2 ↔
      recording.metadata.toJson.depth ≤ room + 1 ∧
        ∀ frame ∈ recording.frames, frame.toJson.depth ≤ room := by
  rw [toJson, Json.depth, Nat.add_le_add_iff_right, Json.depthMembers_le_iff]
  simp [Json.depth, Json.depthItems_le_iff]

/-- The document of a valid recording is read back. -/
theorem parse_pretty
    {recording : Recording}
    (valid : recording.validate = .ok ())
    (shallow : recording.toJson.depth ≤ maxDepth)
    (readsBack : recording.ReadsBack)
    (time : (Timestamp.ofText? recording.metadata.createdAt.toText).isSome = true) :
    parse recording.toJson.pretty = .ok recording.asRead := by
  have decoded : decoder.decodeText (recording.toJson.prettyChars 0) = .ok recording.asRead := by
    have same := Decoder.decodeText_prettyChars decoder_relocates (readsBack_iff.1 readsBack)
    rw [(recording.decoder_verdict 1 maxDepth).taken ⟨shallow, time⟩] at same
    cases outcome : decoder.decodeText (recording.toJson.prettyChars 0) with
    | error fault =>
        rw [outcome] at same
        cases same
    | ok read =>
        rw [outcome] at same
        exact same
  obtain ⟨rest, isText⟩ : ∃ rest, recording.toJson.prettyChars 0 = '\x7b' :: rest := ⟨_, rfl⟩
  have trimmed : Text.trimStart (recording.toJson.prettyChars 0) =
      recording.toJson.prettyChars 0 := by
    rw [isText]
    rfl
  have filled : (recording.toJson.prettyChars 0).isEmpty = false := by
    rw [isText]
    rfl
  rw [parse, Json.pretty, String.toList_ofList]
  simp only [ofText, trimmed, filled, decoded, Bool.false_eq_true, if_false, bind, Except.bind,
    (validate_asRead recording).trans valid]
  rfl

/-- The lines of a valid recording are read back, however its frames were split
into batches. -/
theorem load_ofBatches_eq
    {recording : Recording}
    (valid : recording.validate = .ok ())
    (shallow : recording.toJson.depth ≤ maxDepth)
    (readsBack : recording.ReadsBack)
    (time : (Timestamp.ofText? recording.metadata.createdAt.toText).isSome = true)
    (notEmpty : recording.frames ≠ [])
    {batches : List (List Frame)}
    (flushed : batches.flatten = recording.frames) :
    LineFile.load (LineFile.ofBatches recording.metadata batches).bytes = .ok recording.asRead := by
  have holds := LineFile.ofBatches_holds recording.metadata batches
  rw [flushed] at holds
  obtain ⟨metadata, frames⟩ := depth_toJson_le_iff.1 shallow
  have wellFormed : recording.metadata.WellFormed :=
    (Metadata.wellFormed_iff (readsBack _ List.mem_cons_self)).2 ⟨metadata.trans (by decide), time⟩
  have parsed := (parse_toLines readsBack wellFormed notEmpty valid).1 fun frame member =>
    (frames frame member).trans (by decide)
  rw [holds.load, parsed]
  rfl

/-! ## What comes back -/

/-- The free-form values of a frame are canonical, as those of a program are. -/
@[mk_iff] structure Frame.Canonical (frame : Frame) : Prop where
  inputs : ∀ input ∈ frame.actions ++ frame.clientEvents, input.payload.canonical = input.payload ∧
    ∀ entry ∈ input.outputs.entries, entry.2.value.canonical = entry.2.value
  serverEvents : ∀ event ∈ frame.serverEvents, event.payload.canonical = event.payload
  lifecycleEvents : ∀ event ∈ frame.lifecycleEvents,
    ∀ entry ∈ event.outputs.entries, entry.2.value.canonical = entry.2.value

/-- The free-form values of a recording are canonical, as those of a program are. -/
@[mk_iff] structure Canonical (recording : Recording) : Prop where
  config : ∀ config ∈ recording.metadata.landConfig, config.canonical = config
  extensions : ∀ entry ∈ recording.metadata.extensions.entries, entry.2.canonical = entry.2
  frames : ∀ frame ∈ recording.frames, frame.Canonical

instance (frame : Frame) : Decidable frame.Canonical :=
  decidable_of_iff' _ (Frame.canonical_iff frame)

instance (recording : Recording) : Decidable recording.Canonical :=
  decidable_of_iff' _ (canonical_iff recording)

/-- The recording with no configuration of the land in place of one that is
null. -/
def withoutNullConfig (recording : Recording) : Recording :=
  { recording with
    metadata := { recording.metadata with
      landConfig := recording.metadata.landConfig.filter (· ≠ .null) } }

theorem outputs_asRead
    {outputs : ResolverOutputs}
    (canonical : ∀ entry ∈ outputs.entries, entry.2.value.canonical = entry.2.value) :
    outputs.map ResolverOutput.asRead = outputs := by
  refine Dict.map_eq_self fun entry member => ?_
  rw [ResolverOutput.asRead, canonical entry member]

/-- A frame of canonical values comes back as it was. -/
theorem Frame.Canonical.asRead_eq {frame : Frame} (canonical : frame.Canonical) :
    frame.asRead = frame := by
  have unchanged {β : Type} {f : β → β} {parts : List β} (each : ∀ part ∈ parts, f part = part) :
      parts.map f = parts := (List.map_congr_left each).trans (List.map_id' _)
  have input (input : Input) (member : input ∈ frame.actions ++ frame.clientEvents) :
      input.asRead = input := by
    obtain ⟨payload, outputs⟩ := canonical.inputs input member
    rw [Input.asRead, payload, outputs_asRead outputs]
  have serverEvent (event : ServerEvent) (member : event ∈ frame.serverEvents) :
      event.asRead = event := by
    rw [ServerEvent.asRead, canonical.serverEvents event member]
  have lifecycle (event : Lifecycle) (member : event ∈ frame.lifecycleEvents) :
      event.asRead = event := by
    rw [Lifecycle.asRead, outputs_asRead (canonical.lifecycleEvents event member)]
  obtain ⟨actions, clientEvents⟩ := List.forall_mem_append.1 input
  rw [Frame.asRead, unchanged actions, unchanged clientEvents, unchanged serverEvent,
    unchanged lifecycle]

/-- A recording of canonical values comes back as it was, but without a
configuration that is null. -/
theorem Canonical.asRead_eq
    {recording : Recording}
    (canonical : recording.Canonical)
    (time : Timestamp.ofText? recording.metadata.createdAt.toText =
      some recording.metadata.createdAt) :
    recording.asRead = recording.withoutNullConfig := by
  have frames : recording.frames.map Frame.asRead = recording.frames :=
    (List.map_congr_left fun frame member => (canonical.frames frame member).asRead_eq).trans
      (List.map_id' _)
  have extensions : recording.metadata.extensions.map Json.canonical =
      recording.metadata.extensions := Dict.map_eq_self canonical.extensions
  have config : (if recording.metadata.landConfig.getD .null = .null then none
      else some (recording.metadata.landConfig.getD .null).canonical) =
        recording.metadata.landConfig.filter (· ≠ .null) := by
    cases isConfig : recording.metadata.landConfig with
    | none => rfl
    | some config =>
        rw [Option.getD_some, canonical.config config isConfig]
        by_cases isNull : config = .null <;> simp [isNull, Option.filter]
  rw [asRead, Metadata.asRead, frames, extensions, config, time]
  rfl

/-- A valid recording that is not nested too deeply comes back from its document, and from
the file to which its frames were appended in any batches.  Nothing is lost but a
configuration of the land that is null.  That decimals and times read back as they were
printed is assumed. -/
theorem comes_back_from_both_forms
    {recording : Recording}
    (valid : recording.validate = .ok ())
    (shallow : recording.toJson.depth ≤ maxDepth)
    (canonical : recording.Canonical)
    (decimals : recording.ReadsBack)
    (time : Timestamp.ofText? recording.metadata.createdAt.toText =
      some recording.metadata.createdAt) :
    parse recording.toJson.pretty = .ok recording.withoutNullConfig ∧
      (recording.frames ≠ [] → ∀ batches : List (List Frame),
        batches.flatten = recording.frames →
          LineFile.load (LineFile.ofBatches recording.metadata batches).bytes =
            .ok recording.withoutNullConfig) := by
  have readable : (Timestamp.ofText? recording.metadata.createdAt.toText).isSome = true := by
    rw [time]
    rfl
  rw [← canonical.asRead_eq time]
  refine ⟨parse_pretty valid shallow decimals readable, fun notEmpty batches flushed => ?_⟩
  exact load_ofBatches_eq valid shallow decimals readable notEmpty flushed

/-- A recording of one tick with a note in it comes back; its texts have line
feeds, quotes and characters beyond ASCII, and the configuration of its land is
null. -/
theorem note_comes_back_from_both_forms :
    let actor : Actor := ⟨some "p\n1", none, some "s\r\"1\""⟩
    let payload := Json.object [("of", .ofUInt64 18446744073709551615), ("text", .string "é\t😀")]
    let note : Input := ⟨.action, 0, "Note", payload, actor, ∅, 0⟩
    let heard : ServerEvent := ⟨.serverEvent, 1, 0, "Heard", .null, ⟨.players, ["p\n1"]⟩⟩
    let frame : Frame :=
      { tick := 0, actions := [note], serverEvents := [heard], stateHash := some "ee85" }
    let metadata : Metadata :=
      { landId := "books", landType := "ledger", createdAt := .epoch, landConfig := some .null }
    let recording : Recording := ⟨metadata, [frame]⟩
    (recording.validate = .ok () ∧ recording.toJson.depth ≤ maxDepth ∧ recording.Canonical ∧
      recording.ReadsBack ∧
      Timestamp.ofText? recording.metadata.createdAt.toText =
        some recording.metadata.createdAt) ∧
    parse recording.toJson.pretty = .ok ⟨{ metadata with landConfig := none }, [frame]⟩ ∧
    LineFile.load (LineFile.ofBatches metadata [[], [frame]]).bytes =
      .ok ⟨{ metadata with landConfig := none }, [frame]⟩ := by
  intro actor payload note heard frame metadata recording
  have valid : recording.validate = .ok () := by decide +kernel
  have shallow : recording.toJson.depth ≤ maxDepth := by decide +kernel
  have canonical : recording.Canonical := by decide +kernel
  have decimals : recording.ReadsBack := by decide +kernel
  have time : Timestamp.ofText? recording.metadata.createdAt.toText =
      some recording.metadata.createdAt := by
    decide +kernel
  obtain ⟨document, lines⟩ := comes_back_from_both_forms valid shallow canonical decimals time
  exact ⟨⟨valid, shallow, canonical, decimals, time⟩, document,
    lines (List.cons_ne_nil _ _) [[], [frame]] rfl⟩

end Recording
end Chronicle
