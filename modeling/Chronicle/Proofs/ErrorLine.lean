import Chronicle.Proofs.Cut

/-!
# The lines that errors name

Line feeds in front of a text move all of its lines down.  An error found line by
line names the line where it then stands; an error in a text that is taken for one
document names the line counted from where the document begins, whatever stands in
front of it.  All that is read, and every other error, stays as it is.
-/

namespace Chronicle

namespace Text

@[simp] theorem lines_newline (text : List Char) : lines ('\n' :: text) = [] :: lines text := rfl

theorem lines_newlines (count : Nat) (text : List Char) :
    lines (List.replicate count '\n' ++ text) = List.replicate count [] ++ lines text := by
  induction count with
  | zero => rfl
  | succ count inductionHypothesis =>
      rw [List.replicate_succ, List.replicate_succ, List.cons_append, List.cons_append,
        lines_newline, inductionHypothesis]

/-- A text begins at the same place, whatever number of line feeds stands in front. -/
theorem trimStart_newlines (count : Nat) (text : List Char) :
    trimStart (List.replicate count '\n' ++ text) = trimStart text := by
  have blanks : ∀ c ∈ List.replicate count '\n', isBlank c = true := by
    intro c member
    rw [List.eq_of_mem_replicate member]
    decide
  exact List.dropWhile_append_of_pos blanks

end Text

namespace FormatError

/-- The error with the line that it names moved down, if it names one. -/
def moveDown (count : Nat) : FormatError → FormatError
  | .json line => .json (line + count)
  | .empty => .empty
  | .gap expected found => .gap expected found
  | .target sequence reason => .target sequence reason

end FormatError

namespace Recording

open FormatError (moveDown)

/-! ## Line by line -/

section Lines

variable (count : Nat)

theorem filledLines_cons (first : Nat) (line : List Char) (rest : List (List Char)) :
    filledLines first (line :: rest) =
      if line.all Text.isBlank then filledLines (first + 1) rest
      else (first, line) :: filledLines (first + 1) rest := by
  rw [filledLines, List.zipIdx_cons, List.filterMap_cons]
  cases line.all Text.isBlank <;> rfl

/-- Lines that are numbered from further down on. -/
theorem filledLines_add (first : Nat) (lines : List (List Char)) :
    filledLines (first + count) lines =
      (filledLines first lines).map fun line => (line.1 + count, line.2) := by
  induction lines generalizing first with
  | nil => rfl
  | cons line rest inductionHypothesis =>
      have later := inductionHypothesis (first + 1)
      rw [Nat.add_right_comm] at later
      rw [filledLines_cons, filledLines_cons, later]
      split
      · rfl
      · rfl

/-- No empty line is filled. -/
theorem filledLines_empty (first : Nat) : filledLines first (List.replicate count []) = [] := by
  induction count generalizing first with
  | zero => rfl
  | succ count inductionHypothesis => exact inductionHypothesis (first + 1)

/-- Empty lines in front of others take numbers, and that is all. -/
theorem filledLines_behind_empty (lines : List (List Char)) :
    filledLines 1 (List.replicate count [] ++ lines) =
      (filledLines 1 lines).map fun line => (line.1 + count, line.2) := by
  rw [filledLines_append, filledLines_empty, List.nil_append, List.length_replicate,
    filledLines_add]

theorem decodeLine_moveDown (decoder : Json.Decoder α) (line : Nat × List Char) :
    decodeLine decoder (line.1 + count, line.2) =
      (decodeLine decoder line).mapError (moveDown count) := by
  unfold decodeLine
  cases decoder.decodeText line.2 <;> rfl

/-- What is read line by line, behind line feeds. -/
theorem ofLines_newlines (text : List Char) :
    ofLines (List.replicate count '\n' ++ text) = (ofLines text).mapError (moveDown count) := by
  rw [ofLines, ofLines, Text.lines_newlines, filledLines_behind_empty]
  cases filledLines 1 (Text.lines text) with
  | nil => rfl
  | cons first rest =>
      have frames : (rest.map fun line => (line.1 + count, line.2)).mapM
            (decodeLine Frame.decoder) =
          (rest.mapM (decodeLine Frame.decoder)).mapError (moveDown count) := by
        rw [List.mapM_map, Json.mapError_mapM]
        exact congrArg (rest.mapM ·) (funext (decodeLine_moveDown count Frame.decoder))
      rw [List.map_cons]
      dsimp only
      rw [decodeLine_moveDown, frames, Json.mapError_bind]
      cases decodeLine Metadata.decoder first with
      | error error => rfl
      | ok metadata => cases rest.mapM (decodeLine Frame.decoder) <;> rfl

end Lines

/-- The lines that are filled, with their numbers. -/
theorem mem_filledLines {first number : Nat} {lines : List (List Char)} {line : List Char} :
    (number, line) ∈ filledLines first lines ↔
      first ≤ number ∧ lines[number - first]? = some line ∧ line.all Text.isBlank = false := by
  rw [filledLines, List.mem_filterMap]
  constructor
  · rintro ⟨⟨other, index⟩, member, filled⟩
    obtain ⟨above, found⟩ := List.mk_mem_zipIdx_iff_le_and_getElem?_sub.1 member
    split at filled
    · cases filled
    · rename_i notBlank
      obtain ⟨rfl, rfl⟩ := Prod.mk.inj (Option.some.inj filled)
      exact ⟨above, found, Bool.eq_false_iff.2 notBlank⟩
  · rintro ⟨above, found, notBlank⟩
    refine ⟨(line, number), List.mk_mem_zipIdx_iff_le_and_getElem?_sub.2 ⟨above, found⟩, ?_⟩
    simp [notBlank]

/-- A line that is not taken names itself. -/
theorem decodeLine_eq_error
    {decoder : Json.Decoder α}
    {line : Nat × List Char}
    {error : FormatError}
    (refused : decodeLine decoder line = .error error) :
    error = .json line.1 ∧ ∃ fault, decoder.decodeText line.2 = .error fault := by
  unfold decodeLine at refused
  cases decoded : decoder.decodeText line.2 with
  | ok value =>
      rw [decoded] at refused
      cases refused
  | error fault =>
      rw [decoded] at refused
      exact ⟨(Except.error.inj refused).symm, fault, rfl⟩

/-- If not all lines are taken, one of them is refused with the error of them all. -/
theorem exists_of_mapM_eq_error
    {decode : α → Except ε β}
    {parts : List α}
    {error : ε}
    (refused : parts.mapM decode = .error error) :
    ∃ part ∈ parts, decode part = .error error := by
  induction parts with
  | nil => cases refused
  | cons part rest inductionHypothesis =>
      rw [List.mapM_cons] at refused
      cases decoded : decode part with
      | error other =>
          rw [decoded] at refused
          exact ⟨part, List.mem_cons_self,
            decoded.trans (congrArg _ (Except.error.inj refused))⟩
      | ok value =>
          rw [decoded] at refused
          cases others : rest.mapM decode with
          | ok values =>
              rw [others] at refused
              cases refused
          | error other =>
              rw [others] at refused
              obtain ⟨later, member, laterRefused⟩ :=
                inductionHypothesis (others.trans (congrArg _ (Except.error.inj refused)))
              exact ⟨later, List.mem_cons_of_mem _ member, laterRefused⟩

/-- The line that is named where a text is read line by line: it is one of the text,
and not the record that it should be. -/
theorem exists_line_of_ofLines
    {text : List Char}
    {number : Nat}
    (refused : ofLines text = .error (.json number)) :
    ∃ line, (number, line) ∈ filledLines 1 (Text.lines text) ∧
      ((∃ fault, Metadata.decoder.decodeText line = .error fault) ∨
        ∃ fault, Frame.decoder.decodeText line = .error fault) := by
  unfold ofLines at refused
  split at refused
  · cases refused
  · rename_i first rest filled
    rw [filled]
    cases isMetadata : decodeLine Metadata.decoder first with
    | error error =>
        rw [isMetadata] at refused
        obtain ⟨itself, unreadable⟩ := decodeLine_eq_error isMetadata
        obtain rfl : first.1 = number :=
          FormatError.json.inj (itself.symm.trans (Except.error.inj refused))
        exact ⟨first.2, List.mem_cons_self, .inl unreadable⟩
    | ok metadata =>
        rw [isMetadata] at refused
        cases areFrames : rest.mapM (decodeLine Frame.decoder) with
        | ok frames =>
            rw [areFrames] at refused
            cases refused
        | error error =>
            rw [areFrames] at refused
            obtain ⟨line, member, isFrame⟩ := exists_of_mapM_eq_error areFrames
            obtain ⟨itself, unreadable⟩ := decodeLine_eq_error isFrame
            obtain rfl : line.1 = number :=
              FormatError.json.inj (itself.symm.trans (Except.error.inj refused))
            exact ⟨line.2, List.mem_cons_of_mem _ member, .inr unreadable⟩

/-! ## In either form -/

/-- A recording is invalid for reasons that name no line. -/
theorem validate_mapError_moveDown (recording : Recording) (count : Nat) :
    recording.validate.mapError (moveDown count) = recording.validate := by
  have targets (events : List ServerEvent) :
      (Frame.checkTargets events).mapError (moveDown count) = Frame.checkTargets events := by
    rcases Frame.checkTargets_cases events with ⟨-, passed⟩ | ⟨event, -, reason, -, refused⟩
    · rw [passed]
      rfl
    · rw [refused]
      rfl
  have frames (expected : Tick) (frames : List Frame) :
      (checkFrames expected frames).mapError (moveDown count) = checkFrames expected frames := by
    induction frames generalizing expected with
    | nil => rfl
    | cons frame rest inductionHypothesis =>
        rw [checkFrames]
        split
        · rw [Json.mapError_bind, targets]
          exact congrArg _ (funext fun _ => inductionHypothesis _)
        · rfl
  exact frames 0 recording.frames

/-- A recording that could be read is not malformed. -/
theorem validate_ne_json (recording : Recording) (line : Nat) :
    recording.validate ≠ .error (.json line) := by
  intro malformed
  have moved := validate_mapError_moveDown recording 1
  rw [malformed] at moved
  have same : line + 1 = line := FormatError.json.inj (Except.error.inj moved)
  omega

/-- A malformed text that is taken for lines is malformed as lines. -/
theorem ofLines_of_parse
    {text : String}
    {line : Nat}
    (malformed : parse text = .error (.json line))
    (opens : opensWithValue (Text.trimStart text.toList) = true) :
    ofLines text.toList = .error (.json line) := by
  have read : ofText text.toList = .error (.json line) := by
    rw [parse] at malformed
    cases isRead : ofText text.toList with
    | error error =>
        rw [isRead] at malformed
        exact congrArg _ (Except.error.inj malformed)
    | ok recording =>
        rw [isRead] at malformed
        cases checked : recording.validate with
        | error error =>
            simp only [bind, Except.bind, checked] at malformed
            exact absurd
              (checked.trans (congrArg Except.error (Except.error.inj malformed)))
              (validate_ne_json recording line)
        | ok valid =>
            simp only [bind, Except.bind, checked] at malformed
            cases malformed
  simp only [ofText, opens, if_true] at read
  split at read
  · cases read
  · split at read
    · cases read
    · exact read

/-- What is read of a text that is not taken for lines depends only on the text behind
the blanks at its start. -/
theorem parse_congr
    {first second : String}
    (same : Text.trimStart first.toList = Text.trimStart second.toList)
    (isDocument : opensWithValue (Text.trimStart first.toList) = false) :
    parse first = parse second := by
  have read : ofText first.toList = ofText second.toList := by
    simp only [ofText, ← same, isDocument]
    rfl
  rw [parse, parse, read]

/-- Line feeds in front of a text change nothing but the line of an error, and that only if
the text is taken for lines. -/
theorem parse_newlines (count : Nat) (text : String) :
    parse (String.ofList (List.replicate count '\n') ++ text) =
      if opensWithValue (Text.trimStart text.toList) then
        (parse text).mapError (moveDown count)
      else parse text := by
  have trimmed : Text.trimStart (String.ofList (List.replicate count '\n') ++ text).toList =
      Text.trimStart text.toList := by
    rw [String.toList_append, String.toList_ofList, Text.trimStart_newlines]
  split
  · rename_i opens
    have read : ofText (String.ofList (List.replicate count '\n') ++ text).toList =
        (ofText text.toList).mapError (moveDown count) := by
      simp only [ofText, trimmed, opens, if_true]
      rw [String.toList_append, String.toList_ofList, ofLines_newlines]
      split
      · rfl
      · cases decoder.decodeText (Text.trimStart text.toList) <;> rfl
    rw [parse, parse, read, Json.mapError_bind]
    refine congrArg _ (funext fun recording => ?_)
    rw [Json.mapError_bind, validate_mapError_moveDown]
    rfl
  · rename_i isDocument
    exact (parse_congr trimmed.symm (Bool.eq_false_iff.2 isDocument)).symm

/-- For a text that is malformed, line feeds in front of it move the line that the error
names exactly if the text is taken for lines, that is, if the first line behind the blanks
at its start is a value by itself.  The error then names a line of the text as it was given,
which is not the record that it should be.  In any other text the same line is named,
whatever number of line feeds stands in front. -/
theorem error_line_moves_iff
    {text : String}
    {line : Nat}
    (malformed : parse text = .error (.json line))
    (count : Nat) :
    (parse (String.ofList (List.replicate count '\n') ++ text) = .error (.json (line + count)) ↔
      count = 0 ∨ opensWithValue (Text.trimStart text.toList) = true) ∧
    (opensWithValue (Text.trimStart text.toList) = true →
      0 < line ∧ ∃ written, (Text.lines text.toList)[line - 1]? = some written ∧
        written.all Text.isBlank = false ∧
        ((∃ fault, Metadata.decoder.decodeText written = .error fault) ∨
          ∃ fault, Frame.decoder.decodeText written = .error fault)) ∧
    (opensWithValue (Text.trimStart text.toList) = false →
      parse (String.ofList (List.replicate count '\n') ++ text) = .error (.json line)) := by
  have moved := parse_newlines count text
  rw [malformed] at moved
  cases opens : opensWithValue (Text.trimStart text.toList) with
  | false =>
      simp only [opens, Bool.false_eq_true, if_false] at moved
      refine ⟨?_, nofun, fun _ => moved⟩
      rw [moved]
      simp
  | true =>
      simp only [opens, if_true] at moved
      refine ⟨iff_of_true moved (.inr rfl), fun _ => ?_, nofun⟩
      obtain ⟨written, member, unreadable⟩ :=
        exists_line_of_ofLines (ofLines_of_parse malformed opens)
      obtain ⟨above, found, filled⟩ := mem_filledLines.1 member
      exact ⟨above, written, found, filled, unreadable⟩

/-- The second frame of a recording stored as lines is cut off within its key.  It
stands on the third line of the file, and on the fifth one behind two line feeds. -/
theorem error_line_moves_of_cut_off_key :
    let metadata : Metadata := { landId := "books", landType := "ledger", createdAt := .epoch }
    let text : String := .ofList
      (metadata.above (frameLines [{ tick := 0 }] ++ ['\x7b', '"', 't', 'i', 'c', 'k']))
    parse text = .error (.json 3) ∧
      parse (String.ofList (List.replicate 2 '\n') ++ text) = .error (.json 5) := by
  intro metadata text
  have malformed : parse text = .error (.json 3) := by
    rw [parse, String.toList_ofList]
    decide +kernel
  have opens : opensWithValue (Text.trimStart text.toList) = true := by
    rw [String.toList_ofList]
    decide +kernel
  exact ⟨malformed, (error_line_moves_iff malformed 2).1.2 (.inr opens)⟩

/-- A text that opens with a brace and no key is malformed at its first line, and a
line feed in front of it does not move the line that is named. -/
theorem brace_below_newline_misplaced :
    parse "\x7bnot json" = .error (.json 1) ∧
      parse (String.ofList (List.replicate 1 '\n') ++ "\x7bnot json") ≠ .error (.json (1 + 1)) := by
  decide +kernel

end Recording
end Chronicle
