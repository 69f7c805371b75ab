import Chronicle.Recording.Text
import Chronicle.Storage.LineFile

/-!
# Files of lines on which no write fails

A file holds a text once all of it was written.  Then a write adds its own text
at the end, so a file to which frames were appended in batches holds the text of
a recording, however the frames were split.
-/

namespace Chronicle

namespace Bytes

@[simp] theorem utf8_append (first second : String) :
    utf8 (first ++ second) = utf8 first ++ utf8 second := by
  simp [utf8]

/-- The bytes of a text are read as the text. -/
theorem fromUTF8?_utf8 (text : String) :
    String.fromUTF8? ⟨(utf8 text).toArray⟩ = some text := by
  have bytes : (⟨(utf8 text).toArray⟩ : ByteArray) = text.toByteArray := rfl
  rw [bytes, String.fromUTF8?, dif_pos text.isValidUTF8]
  rfl

theorem utf8_injective : Function.Injective utf8 := by
  intro first second same
  have read := fromUTF8?_utf8 first
  rw [same, fromUTF8?_utf8] at read
  exact (Option.some.inj read).symm

end Bytes

namespace LineFile

open Recording (Frame Metadata)

variable {file : LineFile} {text : String}

/-- A file that holds a text, all of it written. -/
structure Holds (file : LineFile) (text : String) : Prop where
  bytes : file.bytes = Bytes.utf8 text
  committed : file.committed = file.bytes.length

theorem holds_empty : Holds {} "" := ⟨rfl, rfl⟩

/-- A write adds its text at the end. -/
theorem Holds.write
    (holds : file.Holds text)
    (added : String) :
    (file.write (Bytes.utf8 added) none).1 = .ok () ∧
      (file.write (Bytes.utf8 added) none).2.Holds (text ++ added) := by
  have after : file.write (Bytes.utf8 added) none =
      (.ok (), ⟨file.bytes ++ Bytes.utf8 added,
        file.bytes.length + (Bytes.utf8 added).length⟩) := by
    simp [LineFile.write, writeAt, written, holds.committed]
  rw [after]
  refine ⟨rfl, ?_, (List.length_append).symm⟩
  rw [Bytes.utf8_append, ← holds.bytes]

/-- Values are encoded as their lines, if there is no fault at one of them. -/
theorem encodeFrom_eq_ok
    {fault : Option WriteFault}
    {index : Nat}
    {values : List Json}
    (writable : ∀ place < values.length, refusal? fault (index + place) = none)
    (text : String) :
    encodeFrom fault text index values =
      .ok (text ++ String.join (values.map Recording.line)) := by
  induction values generalizing text index with
  | nil => rw [encodeFrom, List.map_nil, String.join_nil, String.append_empty]
  | cons value rest inductionHypothesis =>
      have later : ∀ place < rest.length, refusal? fault (index + 1 + place) = none := by
        intro place below
        rw [Nat.add_assoc, Nat.add_comm 1]
        exact writable (place + 1) (Nat.succ_lt_succ below)
      have first : refusal? fault index = none := writable 0 (Nat.succ_pos _)
      simp only [encodeFrom, first]
      rw [inductionHypothesis later, List.map_cons, String.join_cons, String.append_assoc]

/-- Without a fault the lines of the values are written. -/
theorem writeLines_none (file : LineFile) (values : List Json) :
    file.writeLines values none =
      file.write (Bytes.utf8 (String.join (values.map Recording.line))) none := by
  rw [writeLines, encodeFrom_eq_ok (fun _ _ => rfl), String.empty_append]

/-- The lines of a batch are appended to a text. -/
theorem Holds.append (holds : file.Holds text) (frames : List Frame) :
    (file.append frames none).2.Holds (text ++ batchText frames) := by
  rw [LineFile.append, writeLines_none, List.map_map]
  exact (holds.write (batchText frames)).2

/-- The lines of a batch follow those of another one. -/
theorem batchText_append (first second : List Frame) :
    batchText (first ++ second) = batchText first ++ batchText second := by
  rw [batchText, List.map_append, String.join_append]
  rfl

/-- Appends batches one after the other. -/
def appendAll (file : LineFile) (batches : List (List Frame)) : LineFile :=
  batches.foldl (fun file batch => (file.append batch none).2) file

theorem Holds.appendAll
    (holds : file.Holds text)
    (batches : List (List Frame)) :
    (file.appendAll batches).Holds (text ++ batchText batches.flatten) := by
  induction batches generalizing file text with
  | nil =>
      rw [List.flatten_nil, batchText, List.map_nil, String.join_nil, String.append_empty]
      exact holds
  | cons batch rest inductionHypothesis =>
      have next := inductionHypothesis (holds.append batch)
      rw [String.append_assoc, ← batchText_append] at next
      exact next

/-- The file of a recording whose frames were appended in batches. -/
def ofBatches (metadata : Metadata) (batches : List (List Frame)) : LineFile :=
  (({} : LineFile).writeMetadata metadata none).2.appendAll batches

/-- The file holds the lines of the recording. -/
theorem ofBatches_holds
    (metadata : Metadata)
    (batches : List (List Frame)) :
    (ofBatches metadata batches).Holds (Recording.toLines ⟨metadata, batches.flatten⟩) := by
  have begun : (({} : LineFile).writeMetadata metadata none).2.Holds
      (Recording.line metadata.toJson) := by
    have written := (holds_empty.write (Recording.line metadata.toJson)).2
    rw [String.empty_append] at written
    rw [writeMetadata, writeLines_none, List.map_singleton, String.join_cons, String.join_nil,
      String.append_empty]
    exact written
  exact begun.appendAll batches

/-- A file is read as the text that it holds. -/
theorem Holds.load (holds : file.Holds text) :
    LineFile.load file.bytes = (Recording.parse text).mapError .format := by
  simp only [LineFile.load, holds.bytes, Bytes.fromUTF8?_utf8]

end LineFile
end Chronicle
