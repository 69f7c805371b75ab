import Chronicle.Proofs.Encoding
import Chronicle.Proofs.Reading
import Chronicle.Proofs.Source
import Chronicle.Recording.Text

/-!
# Reading a recording from its lines

The compact text of a value is one line.  So the lines of a text of such values
are the values, and a recording that was written line by line is read back if
its metadata record is and if no frame is nested too deeply.
-/

namespace Chronicle

open Json (Decoder Verdict Located maxDepth)

namespace Json

/-! ## Compact text is one line -/

/-- The characters that can stand within a line. -/
def Printable (text : List Char) : Prop := ∀ c ∈ text, 0x20 ≤ c.toNat

instance (text : List Char) : Decidable (Printable text) :=
  List.decidableBAll (fun c : Char => 0x20 ≤ c.toNat) text

theorem printable_append {front back : List Char} :
    Printable (front ++ back) ↔ Printable front ∧ Printable back :=
  List.forall_mem_append

theorem printable_cons {c : Char} {text : List Char} :
    Printable (c :: text) ↔ 0x20 ≤ c.toNat ∧ Printable text :=
  List.forall_mem_cons

/-- An escaped character stays within the line. -/
theorem printable_escape (c : Char) : Printable (escape c) := by
  have digits (width n : Nat) : Printable (Text.hexDigits width n) := by
    have each : ∀ d : Fin 16, 0x20 ≤ (Text.hexDigit d).toNat := by decide
    induction width generalizing n with
    | zero => exact List.forall_mem_nil _
    | succ width inductionHypothesis =>
        refine printable_append.2 ⟨inductionHypothesis _, printable_cons.2 ⟨?_, ?_⟩⟩
        · exact each ⟨n % 16, Nat.mod_lt n (by decide)⟩
        · exact List.forall_mem_nil _
  unfold escape
  split
  · decide
  · decide
  · decide
  · decide
  · decide
  · decide
  · decide
  · split
    · exact printable_cons.2 ⟨by decide, printable_cons.2 ⟨by decide, digits 4 _⟩⟩
    · rename_i printable
      exact printable_cons.2 ⟨Nat.le_of_not_lt printable, List.forall_mem_nil _⟩

theorem printable_quote (text : String) : Printable (quote text) := by
  refine printable_cons.2 ⟨by decide, printable_append.2 ⟨fun c member => ?_, by decide⟩⟩
  obtain ⟨written, -, inside⟩ := List.mem_flatMap.1 member
  exact printable_escape written c inside

theorem printable_itemChars
    {items : List Json}
    (each : ∀ item ∈ items, Printable item.chars) :
    Printable (itemChars items) := by
  induction items with
  | nil => exact List.forall_mem_nil _
  | cons item rest inductionHypothesis =>
      obtain ⟨first, later⟩ := List.forall_mem_cons.1 each
      exact printable_cons.2
        ⟨by decide, printable_append.2 ⟨first, inductionHypothesis later⟩⟩

theorem printable_memberChars
    {members : List (String × Json)}
    (each : ∀ member ∈ members, Printable member.2.chars) :
    Printable (memberChars members) := by
  induction members with
  | nil => exact List.forall_mem_nil _
  | cons member rest inductionHypothesis =>
      obtain ⟨first, later⟩ := List.forall_mem_cons.1 each
      exact printable_cons.2 ⟨by decide, printable_append.2 ⟨printable_quote member.1,
        printable_cons.2 ⟨by decide, printable_append.2 ⟨first, inductionHypothesis later⟩⟩⟩⟩

/-- The compact text of a value is one line. -/
theorem printable_chars (value : Json) : Printable value.chars := by
  induction value using byParts with
  | null => decide
  | bool b => cases b <;> decide
  | number n =>
      intro c member
      exact Reader.of_isNumeral (fun c => 0x20 ≤ c.toNat) (by decide) (by decide)
        (Number.isNumeral_of_mem_chars member)
  | string text => exact printable_quote text
  | array items parts =>
      cases items with
      | nil => decide
      | cons item rest =>
          obtain ⟨first, later⟩ := List.forall_mem_cons.1 parts
          exact printable_cons.2 ⟨by decide, printable_append.2
            ⟨first, printable_append.2 ⟨printable_itemChars later, by decide⟩⟩⟩
  | object members parts =>
      cases members with
      | nil => decide
      | cons member rest =>
          obtain ⟨first, later⟩ := List.forall_mem_cons.1 parts
          exact printable_cons.2 ⟨by decide, printable_append.2 ⟨printable_quote member.1,
            printable_cons.2 ⟨by decide, printable_append.2
              ⟨first, printable_append.2 ⟨printable_memberChars later, by decide⟩⟩⟩⟩⟩

end Json

namespace Text

open Json (Printable)

/-- A printable line ends at the line feed after it. -/
theorem linesFrom_printable
    {line : List Char}
    (printable : Printable line)
    (begun rest : List Char) :
    linesFrom begun (line ++ '\n' :: rest) =
      dropReturn (begun.reverse ++ line) :: linesFrom [] rest := by
  induction line generalizing begun with
  | nil => simp [linesFrom]
  | cons c later inductionHypothesis =>
      obtain ⟨first, printable⟩ := List.forall_mem_cons.1 printable
      have noBreak : c ≠ '\n' := by
        rintro rfl
        exact absurd first (by decide)
      rw [List.cons_append, linesFrom, if_neg noBreak, inductionHypothesis printable]
      simp

/-- A printable line has no carriage return to drop. -/
theorem dropReturn_printable {line : List Char} (printable : Printable line) :
    dropReturn line = line := by
  apply if_neg
  intro isReturn
  exact absurd (printable _ (List.mem_of_getLast? isReturn)) (by decide)

/-- A printable line is the first one of a text. -/
theorem lines_cons
    {line : List Char}
    (printable : Printable line)
    (rest : List Char) :
    lines (line ++ '\n' :: rest) = line :: lines rest := by
  rw [lines, linesFrom_printable printable, List.reverse_nil, List.nil_append,
    dropReturn_printable printable, lines]

theorem linesFrom_end
    {line : List Char}
    (printable : Printable line)
    {begun : List Char}
    (notEmpty : begun ≠ [] ∨ line ≠ []) :
    linesFrom begun line = [begun.reverse ++ line] := by
  induction line generalizing begun with
  | nil =>
      have filled : begun.isEmpty = false :=
        List.isEmpty_eq_false_iff.2 (notEmpty.resolve_right fun some => some rfl)
      rw [linesFrom, filled, List.append_nil]
      rfl
  | cons c later inductionHypothesis =>
      obtain ⟨first, printable⟩ := List.forall_mem_cons.1 printable
      have noBreak : c ≠ '\n' := by
        rintro rfl
        exact absurd first (by decide)
      rw [linesFrom, if_neg noBreak, inductionHypothesis printable (.inl (List.cons_ne_nil _ _))]
      simp

/-- A text without a line feed is its only line. -/
theorem lines_printable
    {line : List Char}
    (printable : Printable line)
    (notEmpty : line ≠ []) :
    lines line = [line] :=
  linesFrom_end printable (.inr notEmpty)

end Text

namespace Json

/-- What is decoded from the compact text of a value is what is decoded from the
value. -/
theorem Decoder.decodeText_chars
    (decoder : Decoder α)
    {value : Json}
    (readsBack : ∀ number ∈ value.decimals, number.ReadsBack) :
    decoder.decodeText value.chars = decoder maxDepth (.ofJson 1 value) := by
  rw [decodeText, read_chars value readsBack]
  cases decoder maxDepth (.ofJson 1 value) <;> rfl

/-- What is decoded from the line of an object is what is decoded from the
object. -/
theorem Decoder.decodeText_line
    (decoder : Decoder α)
    {members : List (String × Json)}
    (readsBack : ∀ number ∈ (object members).decimals, number.ReadsBack) :
    decoder.decodeText ((object members).chars ++ ['\n']) =
      decoder maxDepth (.ofJson 1 (.object members)) := by
  have document : Document.read ((object members).chars ++ ['\n']) =
      ⟨.ofJson 1 (object members), none⟩ := by
    rw [Document.read, List.foldl_append, foldl_chars_object readsBack]
    rfl
  rw [decodeText, document]
  cases decoder maxDepth (.ofJson 1 (object members)) <;> rfl

/-- The compact text of a value that is not nested too deeply is read as its
canonical form. -/
theorem parse?_compact
    {value : Json}
    (readsBack : ∀ number ∈ value.decimals, number.ReadsBack)
    (shallow : value.depth ≤ maxDepth) :
    parse? value.compact = some value.canonical := by
  have taken := (Decoder.value_restores 1 maxDepth value).taken shallow
  rw [id] at taken
  rw [parse?, Decoder.decode?, compact, String.toList_ofList,
    Decoder.value.decodeText_chars readsBack, taken]
  rfl

end Json

namespace Recording

/-! ## The lines of a recording -/

/-- The values of the lines of a recording. -/
def values (recording : Recording) : List Json :=
  recording.metadata.toJson :: recording.frames.map Frame.toJson

/-- A recording whose decimals all read back as they were printed. -/
def ReadsBack (recording : Recording) : Prop :=
  ∀ value ∈ recording.values, ∀ number ∈ value.decimals, number.ReadsBack

instance (recording : Recording) : Decidable recording.ReadsBack :=
  inferInstanceAs (Decidable (∀ value ∈ recording.values, ∀ number ∈ value.decimals,
    number.ReadsBack))

/-- The line of a metadata record with a text below it. -/
def Metadata.above (metadata : Metadata) (below : List Char) : List Char :=
  metadata.toJson.chars ++ '\n' :: below

/-- The text of the lines of frames. -/
def frameLines (frames : List Frame) : List Char :=
  frames.flatMap fun frame => frame.toJson.chars ++ ['\n']

theorem toList_line (value : Json) : (line value).toList = value.chars ++ ['\n'] := by
  simp [line, Json.compact]

theorem toList_toLines (recording : Recording) :
    recording.toLines.toList = recording.metadata.above (frameLines recording.frames) := by
  have joined (frames : List Frame) :
      (String.join (frames.map fun frame => line frame.toJson)).toList = frameLines frames := by
    induction frames with
    | nil => rfl
    | cons frame rest inductionHypothesis =>
        rw [List.map_cons, String.join_cons, String.toList_append, inductionHypothesis, toList_line]
        rfl
  rw [toLines, String.toList_append, joined, toList_line, Metadata.above, List.append_assoc,
    List.singleton_append]

theorem lines_above (metadata : Metadata) (below : List Char) :
    Text.lines (metadata.above below) = metadata.toJson.chars :: Text.lines below :=
  Text.lines_cons (Json.printable_chars _) below

/-- The lines of frames are the texts of their values. -/
theorem lines_frameLines_append (frames : List Frame) (rest : List Char) :
    Text.lines (frameLines frames ++ rest) =
      (frames.map fun frame => frame.toJson.chars) ++ Text.lines rest := by
  induction frames with
  | nil => rfl
  | cons frame later inductionHypothesis =>
      rw [List.map_cons, List.cons_append, ← inductionHypothesis, frameLines, List.flatMap_cons,
        List.append_assoc, List.append_assoc, List.singleton_append]
      exact Text.lines_cons (Json.printable_chars _) _

theorem lines_frameLines (frames : List Frame) :
    Text.lines (frameLines frames) = frames.map fun frame => frame.toJson.chars := by
  have read := lines_frameLines_append frames []
  rw [List.append_nil] at read
  exact read.trans (List.append_nil _)

/-- The line of an object is not blank. -/
theorem filledLines_object
    (first : Nat)
    (members : List (String × Json))
    (rest : List (List Char)) :
    filledLines first ((Json.object members).chars :: rest) =
      (first, (Json.object members).chars) :: filledLines (first + 1) rest := by
  obtain ⟨text, isText⟩ := Json.exists_chars_object members
  have filled : (Json.object members).chars.all Text.isBlank = false := by
    rw [isText]
    rfl
  rw [filledLines, List.zipIdx_cons, List.filterMap_cons]
  simp only [filled]
  rfl

theorem decodeLine_chars
    {decoder : Decoder α}
    {value : Json}
    {fits : Prop}
    {result : α}
    (readsBack : ∀ number ∈ value.decimals, number.ReadsBack)
    (verdict : Verdict (decoder maxDepth (.ofJson 1 value)) 1 fits result)
    (number : Nat) :
    (fits → decodeLine decoder (number, value.chars) = .ok result) ∧
      (¬fits → decodeLine decoder (number, value.chars) = .error (.json number)) := by
  rw [decodeLine, decoder.decodeText_chars readsBack]
  exact ⟨fun fit => by rw [verdict.taken fit]; rfl, fun unfit => by rw [verdict.refused unfit]; rfl⟩

/-- The lines of frames are taken if none is nested too deeply. -/
theorem mapM_decodeLine
    {frames : List Frame}
    (readsBack : ∀ frame ∈ frames, ∀ number ∈ frame.toJson.decimals, number.ReadsBack)
    (first : Nat) :
    ((∀ frame ∈ frames, frame.toJson.depth ≤ maxDepth) →
      (filledLines first (frames.map fun frame => frame.toJson.chars)).mapM
        (decodeLine Frame.decoder) = .ok (frames.map Frame.asRead)) ∧
    ((¬∀ frame ∈ frames, frame.toJson.depth ≤ maxDepth) →
      ∃ fault, (filledLines first (frames.map fun frame => frame.toJson.chars)).mapM
        (decodeLine Frame.decoder) = .error fault) := by
  induction frames generalizing first with
  | nil => exact ⟨fun _ => rfl, fun deep => absurd (List.forall_mem_nil _) deep⟩
  | cons frame rest inductionHypothesis =>
      obtain ⟨readsFirst, readsLater⟩ := List.forall_mem_cons.1 readsBack
      obtain ⟨taken, refused⟩ := inductionHypothesis readsLater (first + 1)
      obtain ⟨takenFirst, refusedFirst⟩ := decodeLine_chars readsFirst
        (Frame.decoder_restores 1 maxDepth frame) first
      have filled : filledLines first ((frame :: rest).map fun frame => frame.toJson.chars) =
          (first, frame.toJson.chars) ::
            filledLines (first + 1) (rest.map fun frame => frame.toJson.chars) :=
        filledLines_object first _ _
      rw [filled, List.mapM_cons, List.forall_mem_cons]
      constructor
      · rintro ⟨shallow, others⟩
        rw [takenFirst shallow, taken others]
        rfl
      · intro deep
        by_cases shallow : frame.toJson.depth ≤ maxDepth
        · obtain ⟨fault, isFault⟩ := refused fun others => deep ⟨shallow, others⟩
          exact ⟨fault, by rw [takenFirst shallow, isFault]; rfl⟩
        · exact ⟨.json first, by rw [refusedFirst shallow]; rfl⟩

/-! ## Reading a recording -/

/-- A metadata record whose line is read by itself. -/
def Metadata.WellFormed (metadata : Metadata) : Prop :=
  (Metadata.decoder.decode? metadata.toJson.compact).isSome = true

instance (metadata : Metadata) : Decidable metadata.WellFormed :=
  inferInstanceAs (Decidable (_ = true))

/-- What has to be so for the line of a metadata record to be read. -/
theorem Metadata.wellFormed_iff
    {metadata : Metadata}
    (readsBack : ∀ number ∈ metadata.toJson.decimals, number.ReadsBack) :
    metadata.WellFormed ↔
      metadata.toJson.depth ≤ maxDepth ∧
        (Timestamp.ofText? metadata.createdAt.toText).isSome = true := by
  have taken := (metadata.decoder_verdict 1 maxDepth).isOk_iff
  rw [WellFormed, Decoder.decode?, Json.compact, String.toList_ofList,
    decoder.decodeText_chars readsBack, ← taken]
  cases decoder maxDepth (.ofJson 1 metadata.toJson) with
  | ok read => exact iff_of_true rfl ⟨read, rfl⟩
  | error fault => exact iff_of_false Bool.false_ne_true (by rintro ⟨_, taken⟩; cases taken)

/-! ## A text below a metadata record -/

section Above

variable {metadata : Metadata}

/-- A text that goes on with a brace below a metadata record is not one document. -/
theorem decodeText_above_brace
    (readsBack : ∀ number ∈ metadata.toJson.decimals, number.ReadsBack)
    (rest : List Char)
    (decoder : Decoder α) :
    ∃ fault, decoder.decodeText (metadata.above ('{' :: rest)) = .error fault := by
  have first : metadata.toJson.chars.foldl Json.Reader.step Json.Reader.start =
      ⟨1, [], .finished (.ofJson 1 metadata.toJson) none⟩ :=
    Json.foldl_chars_object readsBack
  have second : ('\n' :: '{' :: rest).foldl Json.Reader.step
        ⟨1, [], .finished (.ofJson 1 metadata.toJson) none⟩ =
      rest.foldl Json.Reader.step ⟨2, [], .finished (.ofJson 1 metadata.toJson) (some 2)⟩ := rfl
  have begun : (⟨2, [], .finished (.ofJson 1 metadata.toJson) (some 2)⟩ : Json.Reader).phase =
      .finished (.ofJson 1 metadata.toJson) (some 2) := rfl
  obtain ⟨trailing, isLast, kept⟩ := Json.Reader.foldl_step_finished rest begun
  obtain ⟨fault, isFault⟩ := Option.isSome_iff_exists.1 (kept rfl)
  have document : Json.Document.read (metadata.above ('{' :: rest)) =
      ⟨.ofJson 1 metadata.toJson, some fault⟩ := by
    rw [Json.Document.read, Metadata.above, List.foldl_append, first, second,
      Json.Reader.document]
    simp only [isLast, isFault]
  rw [Decoder.decodeText, document]
  cases decoder maxDepth (.ofJson 1 metadata.toJson) with
  | ok read => exact ⟨fault, rfl⟩
  | error other => exact ⟨other, rfl⟩

/-- A text below a metadata record is read with it as one document if they are one,
and line by line otherwise. -/
theorem ofText_above
    (readsBack : ∀ number ∈ metadata.toJson.decimals, number.ReadsBack)
    (wellFormed : metadata.WellFormed)
    (below : List Char) :
    (∀ document, decoder.decodeText (metadata.above below) = .ok document →
      ofText (metadata.above below) = .ok document) ∧
    (∀ fault, decoder.decodeText (metadata.above below) = .error fault →
      ofText (metadata.above below) = ofLines (metadata.above below)) := by
  obtain ⟨opening, isOpening⟩ : ∃ opening, metadata.above below = '{' :: opening := by
    obtain ⟨inner, isText⟩ : ∃ inner, metadata.toJson.chars = '{' :: (inner ++ ['}']) :=
      Json.exists_chars_object _
    rw [Metadata.above, isText]
    exact ⟨_, rfl⟩
  have trimmed : Text.trimStart (metadata.above below) = metadata.above below := by
    rw [isOpening]
    rfl
  have opens : opensWithValue (metadata.above below) = true := by
    have shallow := ((Metadata.wellFormed_iff readsBack).1 wellFormed).1
    have taken := (Decoder.value_restores 1 maxDepth metadata.toJson).taken shallow
    rw [opensWithValue, lines_above, List.headD_cons, Decoder.value.decodeText_chars readsBack]
    rw [id] at taken
    rw [taken]
  have filled : (metadata.above below).isEmpty = false := by
    rw [isOpening]
    rfl
  constructor
  · intro document isDocument
    simp only [ofText, trimmed, filled, isDocument, Bool.false_eq_true, if_false]
  · intro fault isFault
    simp only [ofText, trimmed, filled, isFault, opens, Bool.false_eq_true, if_false, if_true]

/-- The lines below a metadata record are read as frames. -/
theorem ofLines_above
    (readsBack : ∀ number ∈ metadata.toJson.decimals, number.ReadsBack)
    (wellFormed : metadata.WellFormed)
    (below : List Char) :
    ofLines (metadata.above below) =
      ((filledLines 2 (Text.lines below)).mapM (decodeLine Frame.decoder)).map
        (Recording.mk metadata.asRead) := by
  have first := (decodeLine_chars readsBack (metadata.decoder_verdict 1 maxDepth) 1).1
    ((Metadata.wellFormed_iff readsBack).1 wellFormed)
  have filled : filledLines 1 (Text.lines (metadata.above below)) =
      (1, metadata.toJson.chars) :: filledLines 2 (Text.lines below) := by
    rw [lines_above]
    exact filledLines_object 1 _ _
  simp only [ofLines, filled, first]
  cases (filledLines 2 (Text.lines below)).mapM (decodeLine Frame.decoder) <;> rfl

/-- A text that goes on with a brace below a metadata record is read line by line. -/
theorem ofText_above_brace
    (readsBack : ∀ number ∈ metadata.toJson.decimals, number.ReadsBack)
    (wellFormed : metadata.WellFormed)
    (rest : List Char) :
    ofText (metadata.above ('{' :: rest)) =
      ((filledLines 2 (Text.lines ('{' :: rest))).mapM (decodeLine Frame.decoder)).map
        (Recording.mk metadata.asRead) := by
  obtain ⟨fault, notDocument⟩ := decodeText_above_brace readsBack rest decoder
  exact ((ofText_above readsBack wellFormed _).2 fault notDocument).trans
    (ofLines_above readsBack wellFormed _)

end Above

/-! ## Reading a recording that was written line by line -/

section Parse

variable {recording : Recording}

/-- The text of frames begins with a brace if there is one. -/
theorem exists_frameLines {frames : List Frame} (notEmpty : frames ≠ []) :
    ∃ rest, frameLines frames = '{' :: rest := by
  cases frames with
  | nil => exact absurd rfl notEmpty
  | cons frame rest =>
      obtain ⟨inner, isText⟩ : ∃ inner, frame.toJson.chars = '{' :: (inner ++ ['}']) :=
        Json.exists_chars_object _
      rw [frameLines, List.flatMap_cons, isText]
      exact ⟨_, rfl⟩

/-- A recording that is read back has its ticks and its targets, so it is as valid
as before. -/
theorem validate_asRead (recording : Recording) :
    recording.asRead.validate = recording.validate := by
  have targets (events : List ServerEvent) :
      Frame.checkTargets (events.map ServerEvent.asRead) = Frame.checkTargets events := by
    induction events with
    | nil => rfl
    | cons event rest inductionHypothesis =>
        rw [List.map_cons, Frame.checkTargets, Frame.checkTargets, inductionHypothesis]
        rfl
  have frames (expected : Tick) (frames : List Frame) :
      checkFrames expected (frames.map Frame.asRead) = checkFrames expected frames := by
    induction frames generalizing expected with
    | nil => rfl
    | cons frame rest inductionHypothesis =>
        have same : Frame.checkTargets frame.asRead.serverEvents =
            Frame.checkTargets frame.serverEvents := targets frame.serverEvents
        rw [List.map_cons, checkFrames, checkFrames, inductionHypothesis, same]
        rfl
  exact frames 0 recording.frames

/-- A text with the lines of a recording is read as the recording exactly if no
frame is nested too deeply. -/
theorem parse_of_lines
    (readsBack : recording.ReadsBack)
    (wellFormed : recording.metadata.WellFormed)
    (valid : recording.validate = .ok ())
    {text : String}
    {rest : List Char}
    (isText : text.toList = recording.metadata.above ('{' :: rest))
    (isLines : Text.lines ('{' :: rest) =
      recording.frames.map fun frame => frame.toJson.chars) :
    ((∀ frame ∈ recording.frames, frame.toJson.depth ≤ maxDepth) →
      parse text = .ok recording.asRead) ∧
    ((¬∀ frame ∈ recording.frames, frame.toJson.depth ≤ maxDepth) →
      ∃ fault, parse text = .error fault) := by
  obtain ⟨metadataReads, framesRead⟩ := List.forall_mem_cons.1 readsBack
  obtain ⟨taken, refused⟩ := mapM_decodeLine
    (fun frame member => framesRead _ (List.mem_map_of_mem member)) 2
  rw [parse, isText, ofText_above_brace metadataReads wellFormed, isLines]
  constructor
  · intro shallow
    have stillValid : recording.asRead.validate = .ok () := (validate_asRead recording).trans valid
    rw [asRead] at stillValid
    rw [taken shallow]
    simp only [Except.map, bind, Except.bind, stillValid]
    rfl
  · intro deep
    obtain ⟨fault, isFault⟩ := refused deep
    rw [isFault]
    exact ⟨fault, rfl⟩

/-- A recording that was written line by line is read back exactly if no frame is
nested too deeply. -/
theorem parse_toLines
    (readsBack : recording.ReadsBack)
    (wellFormed : recording.metadata.WellFormed)
    (notEmpty : recording.frames ≠ [])
    (valid : recording.validate = .ok ()) :
    ((∀ frame ∈ recording.frames, frame.toJson.depth ≤ maxDepth) →
      parse recording.toLines = .ok recording.asRead) ∧
    ((¬∀ frame ∈ recording.frames, frame.toJson.depth ≤ maxDepth) →
      ∃ fault, parse recording.toLines = .error fault) := by
  obtain ⟨rest, begins⟩ := exists_frameLines notEmpty
  have isText := toList_toLines recording
  rw [begins] at isText
  exact parse_of_lines readsBack wellFormed valid isText (begins ▸ lines_frameLines _)

end Parse
end Recording
end Chronicle
