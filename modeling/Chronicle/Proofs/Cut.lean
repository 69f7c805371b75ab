import Chronicle.Proofs.RoundTrip
import Chronicle.Proofs.Unfinished

/-!
# Recordings that are cut off

A recording is written line by line.  So what is left of it where it was cut off is
some whole lines, and perhaps the beginning of one more.  Such a beginning is not
taken for a frame, and a text of more than one line is not taken for a document.
-/

namespace Chronicle

open Json (maxDepth)

namespace Recording

/-! ## The first frames -/

/-- The recording of the first frames. -/
def upTo (recording : Recording) (count : Nat) : Recording :=
  { recording with frames := recording.frames.take count }

section UpTo

variable {recording : Recording}

theorem checkFrames_take
    {expected : Tick}
    {frames : List Frame}
    (passed : checkFrames expected frames = .ok ())
    (count : Nat) :
    checkFrames expected (frames.take count) = .ok () := by
  induction frames generalizing expected count with
  | nil =>
      rw [List.take_nil]
      rfl
  | cons frame rest inductionHypothesis =>
      cases count with
      | zero => rfl
      | succ count =>
          rw [List.take_succ_cons]
          rw [checkFrames] at passed ⊢
          split at passed
          · rename_i first
            rw [if_pos first]
            cases addressed : Frame.checkTargets frame.serverEvents with
            | error fault =>
                rw [addressed] at passed
                cases passed
            | ok done =>
                rw [addressed] at passed
                exact inductionHypothesis passed count
          · cases passed

/-- A valid recording each line of which is read by itself. -/
structure Readable (recording : Recording) : Prop where
  valid : recording.validate = .ok ()
  decimals : recording.ReadsBack
  metadata : recording.metadata.WellFormed
  frames : ∀ frame ∈ recording.frames, frame.toJson.depth ≤ maxDepth

theorem Readable.metadata_decimals (readable : recording.Readable) :
    ∀ number ∈ recording.metadata.toJson.decimals, number.ReadsBack :=
  readable.decimals _ List.mem_cons_self

theorem Readable.frame_decimals
    (readable : recording.Readable)
    {frame : Frame}
    (member : frame ∈ recording.frames) :
    ∀ number ∈ frame.toJson.decimals, number.ReadsBack :=
  readable.decimals _ (List.mem_cons_of_mem _ (List.mem_map_of_mem member))

/-- The recording of the first frames is as readable as the whole. -/
theorem Readable.upTo (readable : recording.Readable) (count : Nat) :
    (recording.upTo count).Readable where
  valid := checkFrames_take readable.valid count
  decimals := List.forall_mem_cons.2 ⟨readable.metadata_decimals, List.forall_mem_map.2
    fun _ member => readable.frame_decimals (List.mem_of_mem_take member)⟩
  metadata := readable.metadata
  frames := fun frame member => readable.frames frame (List.mem_of_mem_take member)

theorem Canonical.upTo (canonical : recording.Canonical) (count : Nat) :
    (recording.upTo count).Canonical where
  config := canonical.config
  extensions := canonical.extensions
  frames := fun frame member => canonical.frames frame (List.mem_of_mem_take member)

end UpTo

/-! ## Where a text is cut off -/

theorem above_append (metadata : Metadata) (below rest : List Char) :
    metadata.above below ++ rest = metadata.above (below ++ rest) :=
  List.append_assoc _ _ _

theorem frameLines_snoc (frames : List Frame) (last : Frame) :
    frameLines (frames ++ [last]) = (frameLines frames ++ last.toJson.chars) ++ ['\n'] := by
  rw [frameLines, List.flatMap_append, List.flatMap_singleton, ← List.append_assoc]
  rfl

/-- The text of a frame is not empty. -/
theorem chars_ne_nil (frame : Frame) : frame.toJson.chars ≠ [] := by
  obtain ⟨inner, isText⟩ : ∃ inner, frame.toJson.chars = '{' :: (inner ++ ['}']) :=
    Json.exists_chars_object _
  rw [isText]
  exact List.cons_ne_nil _ _

theorem filledLines_append (first : Nat) (lines later : List (List Char)) :
    filledLines first (lines ++ later) =
      filledLines first lines ++ filledLines (first + lines.length) later := by
  rw [filledLines, List.zipIdx_append, List.filterMap_append]
  rfl

/-- The line that has begun comes after the whole ones. -/
theorem lines_append
    {begun : List Char}
    (printable : Json.Printable begun)
    (notEmpty : begun ≠ [])
    (frames : List Frame) :
    Text.lines (frameLines frames ++ begun) =
      (frames.map fun frame => frame.toJson.chars) ++ [begun] := by
  rw [lines_frameLines_append, Text.lines_printable printable notEmpty]

/-- The text of lines is cut off after some of them, with or without the last line
feed, or within a line. -/
inductive CutAt (frames : List Frame) (kept : List Char) : Prop
  | after (count : Nat) (bound : count ≤ frames.length)
      (ends : kept = frameLines (frames.take count) ∨
        kept ++ ['\n'] = frameLines (frames.take count))
  | within (count : Nat) (begun missing : List Char) {frame : Frame}
      (found : frames[count]? = some frame) (isText : frame.toJson.chars = begun ++ missing)
      (begins : begun ≠ []) (breaks : missing ≠ [])
      (ends : kept = frameLines (frames.take count) ++ begun)

/-- A text that is cut off later on has its first line in front. -/
theorem CutAt.cons
    {rest : List Frame}
    {more : List Char}
    (cut : CutAt rest more)
    (frame : Frame) :
    CutAt (frame :: rest) ((frame.toJson.chars ++ ['\n']) ++ more) := by
  have whole (count : Nat) : frameLines ((frame :: rest).take (count + 1)) =
      (frame.toJson.chars ++ ['\n']) ++ frameLines (rest.take count) := rfl
  cases cut with
  | after count bound ends =>
      refine .after (count + 1) (Nat.succ_le_succ bound) ?_
      rw [whole, List.append_assoc _ more]
      exact ends.imp (congrArg _) (congrArg _)
  | within count begun missing found isText begins breaks ends =>
      refine .within (count + 1) begun missing found isText begins breaks ?_
      rw [whole, ends, List.append_assoc _ _ begun]

/-- A text may be cut off in its first line. -/
theorem cutAt_first
    {frame : Frame}
    {kept : List Char}
    (begins : kept <+: frame.toJson.chars ++ ['\n'])
    (rest : List Frame) :
    CutAt (frame :: rest) kept := by
  have first : frameLines ((frame :: rest).take 1) = frame.toJson.chars ++ ['\n'] :=
    List.append_nil _
  have bound : 1 ≤ (frame :: rest).length := Nat.succ_le_succ (Nat.zero_le _)
  rcases List.prefix_concat_iff.1 begins with isKept | ⟨missing, isText⟩
  · exact .after 1 bound (.inl (isKept.trans first.symm))
  · rcases eq_or_ne missing [] with rfl | breaks
    · rw [List.append_nil] at isText
      exact .after 1 bound (.inr (by rw [first, isText]))
    · rcases eq_or_ne kept [] with none | begins
      · exact .after 0 (Nat.zero_le _) (.inl none)
      · exact .within 0 kept missing rfl isText.symm begins breaks rfl

theorem cutAt_of_append
    {frames : List Frame}
    {kept lost : List Char}
    (written : frameLines frames = kept ++ lost) :
    CutAt frames kept := by
  induction frames generalizing kept with
  | nil => exact .after 0 (Nat.le_refl 0) (.inl (List.append_eq_nil_iff.1 written.symm).1)
  | cons frame rest inductionHypothesis =>
      have written : (frame.toJson.chars ++ ['\n']) ++ frameLines rest = kept ++ lost := written
      rcases List.append_eq_append_iff.1 written with ⟨more, rfl, isRest⟩ | ⟨more, isLine, -⟩
      · exact (inductionHypothesis isRest).cons frame
      · exact cutAt_first ⟨more, isLine.symm⟩ rest

/-- A text ends after the lines of some first frames, with or without the last line
feed. -/
def EndsAfter (recording : Recording) (count : Nat) (kept : String) : Prop :=
  kept = (recording.upTo count).toLines ∨ kept ++ "\n" = (recording.upTo count).toLines

theorem endsAfter_iff {recording : Recording} {count : Nat} {kept : String} :
    recording.EndsAfter count kept ↔
      kept.toList = recording.metadata.above (frameLines (recording.frames.take count)) ∨
        kept.toList ++ ['\n'] =
          recording.metadata.above (frameLines (recording.frames.take count)) := by
  rw [EndsAfter, ← String.toList_inj, ← String.toList_inj, String.toList_append, toList_toLines]
  rfl

section Parse

variable {recording : Recording}

/-- What is left of the text of a recording, with its metadata record, is the record
above a beginning of the text of the frames. -/
theorem exists_below
    {kept lost : String}
    (written : recording.toLines = kept ++ lost)
    (reaches : (line recording.metadata.toJson).length ≤ kept.length) :
    ∃ below, kept.toList = recording.metadata.above below ∧
      frameLines recording.frames = below ++ lost.toList := by
  have whole := (toList_toLines recording).symm.trans (congrArg String.toList written)
  rw [String.toList_append, Metadata.above, ← List.singleton_append, ← List.append_assoc,
    ← toList_line] at whole
  rw [← String.length_toList, ← String.length_toList] at reaches
  obtain ⟨below, isKept⟩ := List.prefix_of_prefix_length_le ⟨_, whole⟩ ⟨_, rfl⟩ reaches
  refine ⟨below, ?_, ?_⟩
  · rw [← isKept, toList_line, Metadata.above, List.append_assoc, List.singleton_append]
  · rw [← isKept, List.append_assoc] at whole
    exact List.append_cancel_left whole

/-- A beginning of the text of frames begins with a brace. -/
theorem exists_brace
    {frames : List Frame}
    {below lost : List Char}
    (written : frameLines frames = below ++ lost)
    (notEmpty : below ≠ []) :
    ∃ rest, below = '{' :: rest := by
  cases below with
  | nil => exact absurd rfl notEmpty
  | cons c rest =>
      have some : frames ≠ [] := by
        rintro rfl
        cases written
      obtain ⟨text, begins⟩ := exists_frameLines some
      rw [begins] at written
      exact ⟨rest, by rw [(List.cons.inj written).1]⟩

/-! ## Reading what is left -/

/-- The last line feed may be missing. -/
theorem parse_without_feed
    (readable : recording.Readable)
    (notEmpty : recording.frames ≠ [])
    {kept : String}
    (written : kept ++ "\n" = recording.toLines) :
    parse kept = .ok recording.asRead := by
  obtain ⟨whole, last, isFrames⟩ : ∃ whole last, recording.frames = whole ++ [last] :=
    ⟨_, _, (List.dropLast_concat_getLast notEmpty).symm⟩
  have isText : kept.toList =
      recording.metadata.above (frameLines whole ++ last.toJson.chars) := by
    have both := congrArg String.toList written
    rw [toList_toLines, isFrames, frameLines_snoc, ← above_append, String.toList_append] at both
    exact List.append_cancel_right both
  have isLines : Text.lines (frameLines whole ++ last.toJson.chars) =
      recording.frames.map fun frame => frame.toJson.chars := by
    rw [isFrames, List.map_append, lines_append (Json.printable_chars _) (chars_ne_nil last)]
    rfl
  have some : frameLines whole ++ last.toJson.chars ≠ [] := fun none =>
    chars_ne_nil last (List.append_eq_nil_iff.1 none).2
  have isPart : frameLines recording.frames =
      (frameLines whole ++ last.toJson.chars) ++ ['\n'] := by
    rw [isFrames, frameLines_snoc]
  obtain ⟨rest, begins⟩ := exists_brace isPart some
  rw [begins] at isText isLines
  exact (parse_of_lines readable.decimals readable.metadata readable.valid isText isLines).1
    readable.frames

/-- A line that has begun is not read as a frame. -/
theorem decodeLine_broken
    {frame : Frame}
    {begun missing : List Char}
    (readsBack : ∀ number ∈ frame.toJson.decimals, number.ReadsBack)
    (isText : frame.toJson.chars = begun ++ missing)
    (begins : begun ≠ [])
    (breaks : missing ≠ [])
    (number : Nat) :
    filledLines number [begun] = [(number, begun)] ∧
      decodeLine Frame.decoder (number, begun) = .error (.json number) := by
  constructor
  · obtain ⟨rest, isBegun⟩ : ∃ rest, begun = '{' :: rest := by
      have written : frameLines [frame] = begun ++ (missing ++ ['\n']) := by
        rw [frameLines, List.flatMap_singleton, isText, List.append_assoc]
      exact exists_brace written begins
    rw [isBegun]
    rfl
  · obtain ⟨fault, refused⟩ : ∃ fault, Frame.decoder.decodeText begun = .error fault :=
      Json.Decoder.decodeText_of_chars_object _ readsBack isText begins breaks
    rw [decodeLine, refused]
    rfl

/-- Where a line breaks off below the lines of a recording, it is the fault. -/
theorem parse_broken
    (readable : recording.Readable)
    {frame : Frame}
    {begun missing : List Char}
    (nextReads : ∀ number ∈ frame.toJson.decimals, number.ReadsBack)
    (isFrame : frame.toJson.chars = begun ++ missing)
    (begins : begun ≠ [])
    (breaks : missing ≠ [])
    {kept : String}
    (isText : kept.toList = recording.metadata.above (frameLines recording.frames ++ begun)) :
    parse kept = .error (.json (Text.lines kept.toList).length) := by
  have isLines : Text.lines (frameLines recording.frames ++ begun) =
      (recording.frames.map fun frame => frame.toJson.chars) ++ [begun] :=
    lines_append (Json.printable_append.1 (isFrame ▸ Json.printable_chars frame.toJson)).1 begins _
  have last : (Text.lines kept.toList).length =
      2 + (recording.frames.map fun frame => frame.toJson.chars).length := by
    rw [isText, lines_above, isLines, List.length_cons, List.length_append, List.length_singleton]
    omega
  obtain ⟨filled, refused⟩ := decodeLine_broken nextReads isFrame begins breaks
    (Text.lines kept.toList).length
  have notFrames : (filledLines 2 (Text.lines (frameLines recording.frames ++ begun))).mapM
      (decodeLine Frame.decoder) = .error (.json (Text.lines kept.toList).length) := by
    have taken := (mapM_decodeLine (fun frame => readable.frame_decimals) 2).1 readable.frames
    rw [isLines, filledLines_append, ← last, filled, List.mapM_append, taken, List.mapM_cons,
      refused]
    rfl
  obtain ⟨rest, isBrace⟩ : ∃ rest, frameLines recording.frames ++ begun = '{' :: rest := by
    have written : frameLines (recording.frames ++ [frame]) =
        (frameLines recording.frames ++ begun) ++ (missing ++ ['\n']) := by
      rw [frameLines_snoc, isFrame, List.append_assoc, List.append_assoc, List.append_assoc]
    exact exists_brace written fun none => begins (List.append_eq_nil_iff.1 none).2
  rw [isBrace] at isText notFrames
  rw [parse, isText, ofText_above_brace readable.metadata_decimals readable.metadata, ← isText,
    notFrames]
  rfl

/-- More than a metadata record is left, so some frames are. -/
theorem EndsAfter.frames_ne_nil
    {count : Nat}
    {kept : String}
    (ends : recording.EndsAfter count kept)
    (longer : (line recording.metadata.toJson).length < kept.length) :
    (recording.upTo count).frames ≠ [] := by
  intro none
  have isLine : (recording.upTo count).toLines = line recording.metadata.toJson := by
    rw [toLines, none, List.map_nil, String.join_nil, String.append_empty, upTo]
  rcases ends with whole | bare
  · rw [whole, isLine] at longer
    exact Nat.lt_irrefl _ longer
  · rw [← isLine, ← bare, String.length_append] at longer
    exact absurd (Nat.le_add_right _ _) (Nat.not_le_of_lt longer)

/-- A text that ends after some first frames is read as the recording of them. -/
theorem parse_of_endsAfter
    (readable : recording.Readable)
    {count : Nat}
    {kept : String}
    (ends : recording.EndsAfter count kept)
    (longer : (line recording.metadata.toJson).length < kept.length) :
    parse kept = .ok (recording.upTo count).asRead := by
  have first := readable.upTo count
  have notEmpty := ends.frames_ne_nil longer
  rcases ends with whole | bare
  · rw [whole]
    exact (parse_toLines first.decimals first.metadata notEmpty first.valid).1 first.frames
  · exact parse_without_feed first notEmpty bare

/-- What is left ends after some first frames, or the line that breaks off is a
fault. -/
theorem endsAfter_or_broken
    (readable : recording.Readable)
    {kept lost : String}
    (written : recording.toLines = kept ++ lost)
    (reaches : (line recording.metadata.toJson).length ≤ kept.length) :
    (∃ count ≤ recording.frames.length, recording.EndsAfter count kept) ∨
      parse kept = .error (.json (Text.lines kept.toList).length) := by
  obtain ⟨below, isText, isFrames⟩ := exists_below written reaches
  cases cutAt_of_append isFrames with
  | after count bound ends =>
      refine .inl ⟨count, bound, endsAfter_iff.2 ?_⟩
      rw [isText, above_append]
      exact ends.imp (congrArg _) (congrArg _)
  | within count begun missing found isFrame begins breaks ends =>
      rw [ends] at isText
      have nextReads := readable.frame_decimals (List.mem_of_getElem? found)
      exact .inr (parse_broken (readable.upTo count) nextReads isFrame begins breaks isText)

/-- What is left of the text of a valid recording, if it is more than the metadata record,
is read as the recording of some first frames exactly if it ends after the line of the last
of them, with or without the line feed.  Any other text that is left is refused at its last
line.  That decimals and times read back as they were printed is assumed. -/
theorem cut_off_parses_iff
    {recording : Recording}
    (valid : recording.validate = .ok ())
    (shallow : ∀ value ∈ recording.values, value.depth ≤ maxDepth)
    (canonical : recording.Canonical)
    (decimals : recording.ReadsBack)
    (time : Timestamp.ofText? recording.metadata.createdAt.toText =
      some recording.metadata.createdAt)
    {batches : List (List Frame)}
    (flushed : batches.flatten = recording.frames)
    {kept lost : String}
    (written : (LineFile.ofBatches recording.metadata batches).bytes = Bytes.utf8 (kept ++ lost))
    (longer : (line recording.metadata.toJson).length < kept.length) :
    (∀ count, parse kept = .ok (recording.upTo count).withoutNullConfig ↔
      recording.EndsAfter count kept) ∧
    ((∀ count ≤ recording.frames.length, ¬recording.EndsAfter count kept) →
      parse kept = .error (.json (Text.lines kept.toList).length)) := by
  have isText : recording.toLines = kept ++ lost := by
    have holds := (LineFile.ofBatches_holds recording.metadata batches).bytes
    rw [flushed, written] at holds
    exact (Bytes.utf8_injective holds).symm
  obtain ⟨metadataShallow, framesShallow⟩ := List.forall_mem_cons.1 shallow
  have readable : recording.Readable :=
    { valid, decimals
      metadata := (Metadata.wellFormed_iff (decimals _ List.mem_cons_self)).2
        ⟨metadataShallow, by rw [time]; rfl⟩
      frames := fun frame member => framesShallow _ (List.mem_map_of_mem member) }
  have read {count : Nat} (ends : recording.EndsAfter count kept) :
      parse kept = .ok (recording.upTo count).withoutNullConfig :=
    (canonical.upTo count).asRead_eq time ▸ parse_of_endsAfter readable ends longer
  have cases := endsAfter_or_broken readable isText longer.le
  refine ⟨fun count => ⟨fun parsed => ?_, read⟩, fun none => ?_⟩
  · rcases cases with ⟨other, -, ends⟩ | broken
    · have frames := congrArg Recording.frames (Except.ok.inj ((read ends).symm.trans parsed))
      have same : recording.upTo other = recording.upTo count :=
        congrArg (Recording.mk recording.metadata) frames
      rw [EndsAfter, ← same]
      exact ends
    · rw [broken] at parsed
      cases parsed
  · refine cases.resolve_left ?_
    rintro ⟨count, bound, ends⟩
    exact none count bound ends

/-- A recording of two ticks, cut off before the line feed of the first frame and
within the second one; a note in the first has braces and a line feed in it. -/
theorem cut_off_parses_of_two_ticks :
    let note : Input :=
      ⟨.action, 0, "Note", .string "\x7d\n\x7b", ⟨some "p1", none, some "s1"⟩, ∅, 0⟩
    let first : Frame := { tick := 0, actions := [note] }
    let second : Frame := { tick := 1, stateHash := some "ee85" }
    let metadata : Metadata :=
      { landId := "books", landType := "ledger", createdAt := .epoch, landConfig := some .null }
    let recording : Recording := ⟨metadata, [first, second]⟩
    let stored := (LineFile.ofBatches metadata [[first], [second]]).bytes
    let ended := line metadata.toJson ++ first.toJson.compact
    let broken := ended ++ "\n" ++ String.ofList (second.toJson.chars.take 9)
    let missing := String.ofList (second.toJson.chars.drop 9) ++ "\n"
    (recording.validate = .ok () ∧ (∀ value ∈ recording.values, value.depth ≤ maxDepth) ∧
      recording.Canonical ∧ recording.ReadsBack ∧
      Timestamp.ofText? recording.metadata.createdAt.toText =
        some recording.metadata.createdAt ∧
      stored = Bytes.utf8 (ended ++ ("\n" ++ line second.toJson)) ∧
      stored = Bytes.utf8 (broken ++ missing) ∧
      (line metadata.toJson).length < ended.length ∧
      (line metadata.toJson).length < broken.length) ∧
    parse ended = .ok ⟨{ metadata with landConfig := none }, [first]⟩ ∧
    parse broken = .error (.json 3) := by
  intro note first second metadata recording stored ended broken missing
  have valid : recording.validate = .ok () := by decide +kernel
  have shallow : ∀ value ∈ recording.values, value.depth ≤ maxDepth := by decide +kernel
  have canonical : recording.Canonical := by decide +kernel
  have decimals : recording.ReadsBack := by decide +kernel
  have time : Timestamp.ofText? recording.metadata.createdAt.toText =
      some recording.metadata.createdAt := by
    decide +kernel
  have holds : stored = Bytes.utf8 recording.toLines :=
    (LineFile.ofBatches_holds metadata [[first], [second]]).bytes
  have afterFirst : stored = Bytes.utf8 (ended ++ ("\n" ++ line second.toJson)) := by
    rw [holds]
    simp [toLines, recording, ended, line, String.append_assoc]
  have withinSecond : stored = Bytes.utf8 (broken ++ missing) := by
    have parts : String.ofList (second.toJson.chars.take 9) ++
        String.ofList (second.toJson.chars.drop 9) = second.toJson.compact := by
      rw [← String.ofList_append, List.take_append_drop, Json.compact]
    rw [afterFirst, line, ← parts]
    simp only [broken, missing, String.append_assoc]
  have endedLonger : (line metadata.toJson).length < ended.length := by
    have some : 0 < first.toJson.chars.length := by decide +kernel
    rw [String.length_append, Json.compact, String.length_ofList]
    exact Nat.lt_add_of_pos_right some
  have brokenLonger : (line metadata.toJson).length < broken.length := by
    rw [String.length_append, String.length_append]
    omega
  have isText : broken.toList =
      metadata.above (first.toJson.chars ++ '\n' :: second.toJson.chars.take 9) := by
    simp [broken, ended, toList_line, Json.compact, Metadata.above]
  have isThird : (Text.lines broken.toList).length = 3 := by
    rw [isText]
    decide +kernel
  have read := (cut_off_parses_iff valid shallow canonical decimals time rfl afterFirst
    endedLonger).1 1
  have refused := (cut_off_parses_iff valid shallow canonical decimals time rfl withinSecond
    brokenLonger).2 (by
      simp only [endsAfter_iff, isText]
      decide +kernel)
  rw [isThird] at refused
  refine ⟨⟨valid, shallow, canonical, decimals, time, afterFirst, withinSecond, endedLonger,
    brokenLonger⟩, read.2 (.inr ?_), refused⟩
  simp [toLines, upTo, recording, ended, line, String.append_assoc]

end Parse

end Recording
end Chronicle
