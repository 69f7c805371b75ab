import Chronicle.Proofs.RoundTrip

/-!
# The line of a metadata record by itself

The line of a metadata record is tried as a whole recording before it is read as
what it is.  Both records have a field for metadata, and the other members of the
line are passed over.  So the line is read as itself unless its free-form map
spells a metadata record, which is then taken in its place.
-/

namespace Chronicle

open Json (Decoder Fields Located Quoted Verdict maxDepth)

namespace Json

/-- The members of a dictionary's object are found under its keys. -/
theorem valueOf?_entries (name : String) (d : Dict String Json) :
    valueOf? name d.entries = d.get? name := by
  have same (entry : String × Json) :
      (entry.1 == name) = (compare entry.1 name == .eq) := by
    rw [Bool.eq_iff_iff, Dict.compare_beq_eq, beq_iff_eq]
  rw [valueOf?, Dict.get?, funext same]

end Json

namespace Recording

/-! ## Maps of strings that spell a metadata record -/

namespace Metadata

/-- A map of strings spells a metadata record if it has what such a record has to
have, and nothing under the names of what is no string. -/
@[mk_iff] structure SpelledBy (strings : Dict String String) : Prop where
  landId : (strings.get? "landID").isSome = true
  landType : (strings.get? "landType").isSome = true
  createdAt : ((strings.get? "createdAt").bind Timestamp.ofText?).isSome = true
  noMetadata : strings.get? "metadata" = none
  noExtensions : strings.get? "extensions" = none

instance (strings : Dict String String) : Decidable (SpelledBy strings) :=
  decidable_of_iff' _ (spelledBy_iff strings)

/-- The metadata record that a map of strings spells. -/
def ofStrings (strings : Dict String String) : Metadata :=
  { landId := (strings.get? "landID").getD ""
    landType := (strings.get? "landType").getD ""
    createdAt := ((strings.get? "createdAt").bind Timestamp.ofText?).getD .epoch
    definitionId := strings.get? "landDefinitionID"
    initialHash := strings.get? "initialStateHash"
    landConfig := (strings.get? "landConfig").map .string
    version := strings.get? "version" }

/-- A metadata record is never the one that its own map spells. -/
theorem ofStrings_ne (metadata : Metadata) (spelled : SpelledBy metadata.metadata) :
    ofStrings metadata.metadata ≠ metadata := by
  intro same
  have noStrings : metadata.metadata = ∅ := congrArg Metadata.metadata same.symm
  have found := spelled.landId
  rw [noStrings] at found
  cases found

end Metadata

section Fields

variable (strings : Dict String String) (line room : Nat) (name : String)

/-- What a map of strings has under a name. -/
theorem get?_strings_cases :
    strings.get? name = none ∧
        Json.valueOf? name (strings.map Json.string).entries = none ∨
      ∃ text, strings.get? name = some text ∧
        Json.valueOf? name (strings.map Json.string).entries = some (.string text) := by
  rw [Json.valueOf?_entries, Dict.get?_map]
  cases strings.get? name with
  | none => exact .inl ⟨rfl, rfl⟩
  | some text => exact .inr ⟨text, rfl, rfl⟩

/-- A string that has to be there is there if the map has it. -/
theorem required_gives :
    (Fields.required name Decoder.string).Gives line room (strings.map Json.string).entries
      ((strings.get? name).isSome = true) ((strings.get? name).getD "") := by
  obtain ⟨none, notFound⟩ | ⟨text, isText, found⟩ := get?_strings_cases strings name
  · rw [none]
    exact (Fields.gives_missing notFound).congr (by simp)
  · rw [isText]
    exact (Fields.gives_required Decoder.string_restores text found).congr (by simp)

/-- A time that has to be there is there if the map has it and it can be read. -/
theorem time_gives :
    (Fields.required name (Decoder.parsed Timestamp.ofText?)).Gives line room
      (strings.map Json.string).entries
      (((strings.get? name).bind Timestamp.ofText?).isSome = true)
      (((strings.get? name).bind Timestamp.ofText?).getD .epoch) := by
  obtain ⟨none, notFound⟩ | ⟨text, isText, found⟩ := get?_strings_cases strings name
  · rw [none]
    exact (Fields.gives_missing notFound).congr (by simp)
  · rw [isText, Option.bind_some]
    apply Fields.gives_field found
    simp only [Decoder.parsed, Located.ofJson, Quoted.ofString]
    cases Timestamp.ofText? text with
    | none => exact .never Bool.false_ne_true
    | some time => exact .always rfl

/-- A dictionary is only there as its default, for a string is no object. -/
theorem dict_gives (decoder : Decoder α) :
    (Fields.defaulted name (Decoder.dict decoder) ∅).Gives line room
      (strings.map Json.string).entries (strings.get? name = none) ∅ := by
  obtain ⟨none, notFound⟩ | ⟨text, isText, found⟩ := get?_strings_cases strings name
  · rw [none]
    exact (Fields.gives_default notFound).congr (by simp)
  · have refused : Decoder.dict decoder room (.ofJson line (.string text)) = .error line := by
      cases room <;> rfl
    apply Fields.gives_field found
    rw [refused, isText]
    exact .never (by simp)

/-- A string that may be missing is there if the map has it. -/
theorem optional_gives :
    (Fields.optional name Decoder.string).Gives line room (strings.map Json.string).entries True
      (strings.get? name) := by
  obtain ⟨none, notFound⟩ | ⟨text, isText, found⟩ := get?_strings_cases strings name
  · rw [none]
    exact Fields.gives_default notFound
  · rw [isText]
    exact (Fields.gives_optional Decoder.string_restores Json.string_ne_null (some text)
      found).congr (by simp)

/-- A value that may be missing is a string if the map has it. -/
theorem value_gives :
    (Fields.optional name Decoder.value).Gives line room (strings.map Json.string).entries True
      ((strings.get? name).map Json.string) := by
  obtain ⟨none, notFound⟩ | ⟨text, isText, found⟩ := get?_strings_cases strings name
  · rw [none]
    exact Fields.gives_default notFound
  · rw [isText]
    exact (Fields.gives_defaulted Decoder.nullable_value_restores _ found).congr (by simp)

/-- A map of strings is taken for a metadata record exactly if it spells one. -/
theorem Metadata.decoder_stringsToJson :
    Verdict (decoder (room + 1) (.ofJson line (stringsToJson strings))) line
      (SpelledBy strings) (ofStrings strings) := by
  have gives := Fields.Gives.seq (.seq (.seq (.seq (.seq (.seq (.seq (.seq (.map
    (required_gives strings line room "landID") Metadata.mk)
    (required_gives strings line room "landType"))
    (time_gives strings line room "createdAt"))
    (dict_gives strings line room "metadata" Decoder.string))
    (optional_gives strings line room "landDefinitionID"))
    (optional_gives strings line room "initialStateHash"))
    (value_gives strings line room "landConfig"))
    (optional_gives strings line room "version"))
    (dict_gives strings line room "extensions" Decoder.value)
  rw [stringsToJson, Json.ofDict, Located.ofJson, decoder, Decoder.record]
  refine .congr (Decoder.decodeObject_passed_verdict (strings.map Json.string).nodup_keys gives) ?_
  simp [spelledBy_iff, and_assoc]

end Fields

/-! ## The line as a document -/

/-- The line of a metadata record is taken for a whole recording exactly if its
map of strings spells a metadata record. -/
theorem decoder_metadata (metadata : Metadata) (line room : Nat) :
    Verdict (decoder (room + 2) (.ofJson line metadata.toJson)) line
      (Metadata.SpelledBy metadata.metadata) ⟨Metadata.ofStrings metadata.metadata, []⟩ := by
  have spelled {members : List (String × Json)}
      (found : Json.valueOf? "metadata" members = some (stringsToJson metadata.metadata)) :
      (Fields.required "metadata" Metadata.decoder).Gives line (room + 1) members
        (Metadata.SpelledBy metadata.metadata) (Metadata.ofStrings metadata.metadata) :=
    Fields.gives_field found (Metadata.decoder_stringsToJson metadata.metadata line room)
  have noFrames {members : List (String × Json)}
      (notFound : Json.valueOf? "frames" members = none) :
      (Fields.defaulted "frames" (Decoder.list Frame.decoder) []).Gives line (room + 1) members
        True [] :=
    Fields.gives_default notFound
  rw [Metadata.toJson, Located.ofJson, decoder, Decoder.record]
  refine .congr (Decoder.decodeObject_passed_verdict ?_
    (.seq (.map (spelled ?_) Recording.mk) (noFrames ?_))) ?_
  · split <;> simp
  · rfl
  · split <;> rfl
  · simp

/-! ## The file of a metadata record -/

section Load

variable {metadata : Metadata}

/-- A file with nothing but a metadata record gives the record that its map spells,
or its own if the map spells none. -/
theorem load_writeMetadata
    (readsBack : ReadsBack ⟨metadata, []⟩)
    (wellFormed : metadata.WellFormed) :
    (Metadata.SpelledBy metadata.metadata →
      LineFile.load (({} : LineFile).writeMetadata metadata none).2.bytes =
        .ok ⟨Metadata.ofStrings metadata.metadata, []⟩) ∧
    (¬Metadata.SpelledBy metadata.metadata →
      LineFile.load (({} : LineFile).writeMetadata metadata none).2.bytes =
        .ok ⟨metadata.asRead, []⟩) := by
  have metadataReads := readsBack _ List.mem_cons_self
  have document : decoder.decodeText (metadata.above []) = _ :=
    decoder.decodeText_line metadataReads
  have verdict := decoder_metadata metadata 1 125
  obtain ⟨asDocument, asLines⟩ := ofText_above metadataReads wellFormed []
  have holds : (({} : LineFile).writeMetadata metadata none).2.Holds (toLines ⟨metadata, []⟩) :=
    LineFile.ofBatches_holds metadata []
  have isText : (toLines ⟨metadata, []⟩).toList = metadata.above [] := toList_toLines _
  rw [holds.load, parse, isText]
  constructor
  · intro spelled
    rw [asDocument _ (document.trans (verdict.taken spelled))]
    rfl
  · intro notSpelled
    rw [asLines _ (document.trans (verdict.refused notSpelled)),
      ofLines_above metadataReads wellFormed]
    rfl

/-- The file that holds nothing but a metadata record gives the record back exactly if its
free-form map does not spell a metadata record; if the map does, what it spells is given in
place of the record.  That decimals and times read back as they were printed is assumed. -/
theorem metadata_by_itself_loads_iff
    (shallow : metadata.toJson.depth ≤ maxDepth)
    (notNull : metadata.landConfig ≠ some .null)
    (canonical : Canonical ⟨metadata, []⟩)
    (decimals : ReadsBack ⟨metadata, []⟩)
    (time : Timestamp.ofText? metadata.createdAt.toText = some metadata.createdAt) :
    (LineFile.load (({} : LineFile).writeMetadata metadata none).2.bytes = .ok ⟨metadata, []⟩ ↔
      ¬Metadata.SpelledBy metadata.metadata) ∧
    (Metadata.SpelledBy metadata.metadata →
      LineFile.load (({} : LineFile).writeMetadata metadata none).2.bytes =
        .ok ⟨Metadata.ofStrings metadata.metadata, []⟩) := by
  have readable : (Timestamp.ofText? metadata.createdAt.toText).isSome = true := by
    rw [time]
    rfl
  have wellFormed : metadata.WellFormed :=
    (Metadata.wellFormed_iff (decimals _ List.mem_cons_self)).2 ⟨shallow, readable⟩
  have unchanged : metadata.landConfig.filter (· ≠ .null) = metadata.landConfig := by
    cases config : metadata.landConfig with
    | none => rfl
    | some value => exact Option.filter_some_pos (by simpa [config] using notNull)
  have same : metadata.asRead = metadata := by
    have whole := congrArg Recording.metadata (canonical.asRead_eq time)
    rw [withoutNullConfig, unchanged] at whole
    exact whole
  obtain ⟨captured, itself⟩ := load_writeMetadata decimals wellFormed
  rw [same] at itself
  refine ⟨⟨fun loaded spelled => ?_, itself⟩, captured⟩
  rw [captured spelled] at loaded
  exact metadata.ofStrings_ne spelled (congrArg Recording.metadata (Except.ok.inj loaded))

/-- A map with the names of a metadata record does not get in the way as long as it
has no time that can be read. -/
theorem metadata_by_itself_loads_of_hall :
    let metadata : Metadata :=
      { landId := "books", landType := "ledger", createdAt := .epoch,
        metadata := .ofList [("landID", "hall"), ("landType", "arena"), ("createdAt", "noon")],
        version := some formatVersion }
    (metadata.toJson.depth ≤ maxDepth ∧ metadata.landConfig ≠ some .null ∧
      Canonical ⟨metadata, []⟩ ∧ ReadsBack ⟨metadata, []⟩ ∧
      Timestamp.ofText? metadata.createdAt.toText = some metadata.createdAt) ∧
    LineFile.load (({} : LineFile).writeMetadata metadata none).2.bytes = .ok ⟨metadata, []⟩ := by
  intro metadata
  have shallow : metadata.toJson.depth ≤ maxDepth := by decide +kernel
  have notNull : metadata.landConfig ≠ some .null := by decide
  have canonical : Canonical ⟨metadata, []⟩ := by decide +kernel
  have decimals : ReadsBack ⟨metadata, []⟩ := by decide +kernel
  have time : Timestamp.ofText? metadata.createdAt.toText = some metadata.createdAt := by
    decide +kernel
  have notSpelled : ¬Metadata.SpelledBy metadata.metadata := by decide +kernel
  exact ⟨⟨shallow, notNull, canonical, decimals, time⟩,
    (metadata_by_itself_loads_iff shallow notNull canonical decimals time).1.2 notSpelled⟩

/-- A metadata record whose map spells another one: the file that holds it gives the
other one. -/
theorem books_read_as_hall :
    let metadata : Metadata :=
      { landId := "books", landType := "ledger", createdAt := ⟨19724, 11045, 0⟩,
        metadata := .ofList [("landID", "hall"), ("landType", "arena"),
          ("createdAt", "1970-01-01T00:00:00Z")],
        version := some formatVersion }
    let other : Metadata := { landId := "hall", landType := "arena", createdAt := .epoch }
    (metadata.toJson.depth ≤ maxDepth ∧ metadata.landConfig ≠ some .null ∧
      Canonical ⟨metadata, []⟩ ∧ ReadsBack ⟨metadata, []⟩ ∧
      Timestamp.ofText? metadata.createdAt.toText = some metadata.createdAt) ∧
    LineFile.load (({} : LineFile).writeMetadata metadata none).2.bytes = .ok ⟨other, []⟩ ∧
    LineFile.load (({} : LineFile).writeMetadata metadata none).2.bytes ≠ .ok ⟨metadata, []⟩ := by
  intro metadata other
  have shallow : metadata.toJson.depth ≤ maxDepth := by decide +kernel
  have canonical : Canonical ⟨metadata, []⟩ := by decide +kernel
  have decimals : ReadsBack ⟨metadata, []⟩ := by decide +kernel
  have time : Timestamp.ofText? metadata.createdAt.toText = some metadata.createdAt := by
    decide +kernel
  have wellFormed : metadata.WellFormed :=
    (Metadata.wellFormed_iff (decimals _ List.mem_cons_self)).2 ⟨shallow, by rw [time]; rfl⟩
  have spelled : Metadata.SpelledBy metadata.metadata := by decide +kernel
  have isOther : Metadata.ofStrings metadata.metadata = other := by decide +kernel
  have loaded := (load_writeMetadata decimals wellFormed).1 spelled
  refine ⟨⟨shallow, by decide, canonical, decimals, time⟩, isOther ▸ loaded, fun itself => ?_⟩
  rw [loaded] at itself
  exact metadata.ofStrings_ne spelled (congrArg Recording.metadata (Except.ok.inj itself))

end Load

end Recording
end Chronicle
