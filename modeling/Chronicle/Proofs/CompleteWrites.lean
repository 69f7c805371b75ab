import Chronicle.Proofs.LineFile

/-!
# Files on which writes fail

A write can fail at any of its steps, and so can the attempt to take it back.  Whatever
fails, the file begins with all that was written completely, and what lies behind that
is cut off before anything is written again.  So a call that succeeds leaves the file
that the successful calls alone would have left, and a call that fails has stored
nothing.
-/

namespace Chronicle
namespace LineFile

open Recording (Frame Metadata)

variable {file : LineFile} {stored : List UInt8}

/-! ## What a file keeps -/

/-- The complete writes of a file are those of some bytes, whatever lies behind them. -/
structure Keeps (file : LineFile) (stored : List UInt8) : Prop where
  committed : file.committed = stored.length
  complete : stored <+: file.bytes

/-- A file with some complete writes and nothing behind them. -/
def ofBytes (stored : List UInt8) : LineFile := ⟨stored, stored.length⟩

theorem keeps_ofBytes (stored : List UInt8) : (ofBytes stored).Keeps stored :=
  ⟨rfl, List.prefix_rfl⟩

/-- The first bytes of a file are those that it keeps. -/
theorem Keeps.take (keeps : file.Keeps stored) : file.bytes.take file.committed = stored := by
  obtain ⟨behind, isFile⟩ := keeps.complete
  rw [← isFile, keeps.committed, List.take_left]

/-- A file that is as long as its complete writes has nothing behind them. -/
theorem Keeps.eq_ofBytes
    (keeps : file.Keeps stored)
    (whole : file.bytes.length = file.committed) :
    file = ofBytes stored := by
  have bytes : file.bytes = stored := by
    rw [← keeps.take, ← whole, List.take_length]
  obtain ⟨_, _⟩ := file
  exact LineFile.mk.injEq .. ▸ ⟨bytes, keeps.committed⟩

/-- Cut to the length of its complete writes, a file has nothing behind them. -/
theorem Keeps.recut (keeps : file.Keeps stored) : file.recut = ofBytes stored := by
  have long : file.committed ≤ file.bytes.length :=
    keeps.committed ▸ keeps.complete.length_le
  have bytes : resize file.committed file.bytes = stored := by
    rw [resize, keeps.take, Nat.sub_eq_zero_of_le long, List.replicate_zero, List.append_nil]
  rw [LineFile.recut, bytes, keeps.committed, ofBytes]

/-- Bytes are written behind the complete writes. -/
theorem written_ofBytes (stored added : List UInt8) :
    (ofBytes stored).written added = stored ++ added := by
  simp [written, ofBytes]

/-! ## One call -/

/-- What comes of a write to a file with nothing behind its complete writes: it is done,
or it fails and the file keeps what it had. -/
theorem writeAt_cases (stored added : List UInt8) (fault : Option WriteFault) :
    (ofBytes stored).writeAt added fault = (.ok (), ofBytes (stored ++ added)) ∨
    ∃ error torn, (ofBytes stored).writeAt added fault = (.error error, torn) ∧
      torn.Keeps stored := by
  have done : (⟨(ofBytes stored).written added, stored.length + added.length⟩ : LineFile) =
      ofBytes (stored ++ added) := by
    rw [written_ofBytes, ofBytes, List.length_append]
  unfold writeAt
  split
  · exact .inr ⟨_, _, rfl, keeps_ofBytes stored⟩
  · rename_i kept cutOff reason
    refine .inr ⟨_, _, rfl, ?_⟩
    have torn : Keeps
        { ofBytes stored with bytes := (ofBytes stored).written (added.take kept) } stored :=
      ⟨rfl, written_ofBytes stored _ ▸ List.prefix_append _ _⟩
    cases cutOff with
    | false => exact torn
    | true =>
        rw [if_pos rfl, torn.recut]
        exact keeps_ofBytes stored
  · exact .inl (Prod.ext rfl done)

/-- What comes of a write: it is done and the file is whole, or it fails and the file
keeps what it had. -/
theorem Keeps.write_cases
    (keeps : file.Keeps stored)
    (added : List UInt8)
    (fault : Option WriteFault) :
    file.write added fault = (.ok (), ofBytes (stored ++ added)) ∨
    ∃ error torn, file.write added fault = (.error error, torn) ∧ torn.Keeps stored := by
  have appended : file.bytes.length = file.committed →
      file.writeAt added fault = (.ok (), ofBytes (stored ++ added)) ∨
        ∃ error torn, file.writeAt added fault = (.error error, torn) ∧ torn.Keeps stored := by
    intro whole
    rw [keeps.eq_ofBytes whole]
    exact writeAt_cases stored added fault
  unfold write
  split
  · exact .inr ⟨_, _, rfl, keeps⟩
  · split
    · rename_i whole
      exact appended whole
    · exact .inr ⟨_, _, rfl, keeps⟩
  · split
    · rename_i whole
      exact appended whole
    · rw [keeps.recut]
      exact writeAt_cases stored added fault

/-- At a value that cannot be encoded, encoding ends without a text. -/
theorem encodeFrom_eq_error
    (index : Nat)
    {values : List Json}
    (place : Nat)
    (reason : String)
    (below : place < values.length)
    (text : String) :
    encodeFrom (some (.encoding (index + place) reason)) text index values =
      .error (.encode reason) := by
  induction values generalizing text index place with
  | nil => exact absurd below (Nat.not_lt_zero _)
  | cons value rest inductionHypothesis =>
      cases place with
      | zero => simp [encodeFrom, refusal?]
      | succ place =>
          have later := inductionHypothesis (index + 1) place (Nat.lt_of_succ_lt_succ below)
          rw [Nat.add_assoc, Nat.add_comm 1] at later
          simpa [encodeFrom, refusal?] using later _

/-- The bytes of the lines of some values. -/
def lineBytes (values : List Json) : List UInt8 :=
  Bytes.utf8 (String.join (values.map Recording.line))

/-- Values are encoded as their lines, or there is a fault at one of them. -/
theorem encode_cases (fault : Option WriteFault) (values : List Json) :
    ((∀ place < values.length, ∀ reason, fault ≠ some (.encoding place reason)) ∧
      encodeFrom fault "" 0 values = .ok (String.join (values.map Recording.line))) ∨
    ∃ place < values.length, ∃ reason, fault = some (.encoding place reason) ∧
      encodeFrom fault "" 0 values = .error (.encode reason) := by
  by_cases strikes : ∃ place < values.length, ∃ reason, fault = some (.encoding place reason)
  · obtain ⟨place, below, reason, rfl⟩ := strikes
    have refused := encodeFrom_eq_error 0 place reason below ""
    rw [Nat.zero_add] at refused
    exact .inr ⟨place, below, reason, rfl, refused⟩
  · have writable : ∀ place < values.length, refusal? fault (0 + place) = none := by
      intro place below
      rw [Nat.zero_add]
      unfold refusal?
      split
      · rename_i other reason
        rw [if_neg]
        rintro rfl
        exact strikes ⟨_, below, reason, rfl⟩
      · rfl
    refine .inl ⟨fun place below reason isFault => strikes ⟨place, below, reason, isFault⟩, ?_⟩
    rw [encodeFrom_eq_ok writable, String.empty_append]

/-- What comes of storing lines: all of them are stored and the file is whole, or the
file keeps what it had. -/
theorem Keeps.writeLines_cases
    (keeps : file.Keeps stored)
    (values : List Json)
    (fault : Option WriteFault) :
    file.writeLines values fault = (.ok (), ofBytes (stored ++ lineBytes values)) ∨
    ∃ error torn, file.writeLines values fault = (.error error, torn) ∧ torn.Keeps stored := by
  unfold writeLines
  rcases encode_cases fault values with ⟨-, encoded⟩ | ⟨_, -, _, -, refused⟩
  · rw [encoded]
    exact keeps.write_cases _ fault
  · rw [refused]
    exact .inr ⟨_, _, rfl, keeps⟩

/-- Whether a fault comes about when values are stored in a file: there is a value at
its index to encode, or something behind the complete writes to cut off. -/
def ComesAbout (file : LineFile) (values : List Json) :
    WriteFault → Prop
  | .encoding index _ => index < values.length
  | .cutting _ => file.bytes.length ≠ file.committed
  | .length _ => True
  | .seeking _ => True
  | .writing _ _ _ => True

/-- A write is done exactly if no fault comes about in it. -/
theorem write_eq_ok_iff (file : LineFile) (added : List UInt8) (fault : Option WriteFault) :
    (file.write added fault).1 = .ok () ↔ ∀ struck ∈ fault, ¬ComesAbout file [] struck := by
  cases fault with
  | none =>
      simp only [write, writeAt]
      split <;> simp
  | some struck =>
      simp only [Option.mem_some_iff, forall_eq']
      cases struck with
      | encoding index reason =>
          simp only [write, writeAt, ComesAbout]
          split <;> simp
      | length reason => simp [write, ComesAbout]
      | cutting reason =>
          simp only [write, writeAt, ComesAbout]
          split <;> simp_all
      | seeking reason =>
          simp only [write, writeAt, ComesAbout]
          split <;> simp
      | writing kept cutOff reason =>
          simp only [write, writeAt, ComesAbout]
          split <;> simp

/-- Lines are stored exactly if no fault comes about. -/
theorem writeLines_eq_ok_iff (file : LineFile) (values : List Json) (fault : Option WriteFault) :
    (file.writeLines values fault).1 = .ok () ↔
      ∀ struck ∈ fault, ¬ComesAbout file values struck := by
  unfold writeLines
  rcases encode_cases fault values with ⟨writable, encoded⟩ | ⟨place, below, reason, rfl, refused⟩
  · rw [encoded]
    refine (write_eq_ok_iff file _ fault).trans (forall₂_congr fun struck isFault => ?_)
    cases struck with
    | encoding index reason =>
        have above : ¬index < values.length := fun below => writable index below reason isFault
        simp [ComesAbout, above]
    | length reason => exact Iff.rfl
    | cutting reason => exact Iff.rfl
    | seeking reason => exact Iff.rfl
    | writing kept cutOff reason => exact Iff.rfl
  · rw [refused]
    simp [ComesAbout, below]

/-! ## Files over time -/

/-- A call that stores lines in a file: the metadata record, or a batch of frames. -/
inductive Call where
  | metadata (record : Metadata)
  | frames (batch : List Frame)
  deriving DecidableEq

/-- The values whose lines a call stores. -/
def Call.values : Call → List Json
  | .metadata record => [record.toJson]
  | .frames batch => batch.map (·.toJson)

/-- Makes a call, with a fault or without. -/
def make (file : LineFile) (fault : Option WriteFault) : Call → Except StorageError Unit × LineFile
  | .metadata record => file.writeMetadata record fault
  | .frames batch => file.append batch fault

theorem make_eq (file : LineFile) (fault : Option WriteFault) (call : Call) :
    file.make fault call = file.writeLines call.values fault := by
  cases call <;> rfl

/-- What can happen to a file: a call is made, with a fault or without, or somebody
else puts other bytes behind the complete writes. -/
inductive Happening where
  | call (call : Call) (fault : Option WriteFault)
  | behind (bytes : List UInt8)

/-- The file after something has happened to it. -/
def after (file : LineFile) : Happening → LineFile
  | .call call fault => (file.make fault call).2
  | .behind bytes => { file with bytes := file.bytes.take file.committed ++ bytes }

/-- The call that was made in a happening, if it was successful. -/
def successful? (file : LineFile) : Happening → Option Call
  | .call call fault =>
      match (file.make fault call).1 with
      | .ok _ => some call
      | .error _ => none
  | .behind _ => none

/-- The calls among what happens to a file that are successful. -/
def successes (file : LineFile) : List Happening → List Call
  | [] => []
  | happening :: rest =>
      (file.successful? happening).toList ++ (file.after happening).successes rest

/-- The bytes of the lines that calls store. -/
def callBytes (calls : List Call) : List UInt8 := calls.flatMap fun call => lineBytes call.values

/-- The file of some calls that were made without a fault. -/
def ofCalls (calls : List Call) : LineFile :=
  calls.foldl (fun file call => (file.make none call).2) {}

/-- What comes of a call: it is successful and the file is whole, or the file keeps what
it had. -/
theorem Keeps.make_cases
    (keeps : file.Keeps stored)
    (fault : Option WriteFault)
    (call : Call) :
    file.make fault call = (.ok (), ofBytes (stored ++ lineBytes call.values)) ∨
    ∃ error torn, file.make fault call = (.error error, torn) ∧ torn.Keeps stored := by
  rw [make_eq]
  exact keeps.writeLines_cases call.values fault

/-- Whatever happens to a file, it keeps the bytes of the successful calls. -/
theorem Keeps.after
    (keeps : file.Keeps stored)
    (happening : Happening) :
    (file.after happening).Keeps (stored ++ callBytes (file.successful? happening).toList) := by
  cases happening with
  | call call fault =>
      rw [LineFile.after, successful?]
      rcases keeps.make_cases fault call with done | ⟨error, torn, failed, still⟩
      · rw [done]
        simpa [callBytes] using keeps_ofBytes _
      · rw [failed]
        simpa [callBytes] using still
  | behind bytes =>
      rw [LineFile.after, successful?, keeps.take]
      simpa [callBytes] using ⟨keeps.committed, List.prefix_append _ _⟩

/-- Whatever happens to a file one after the other, it keeps the bytes of the successful
calls. -/
theorem Keeps.happenings
    (keeps : file.Keeps stored)
    (happenings : List Happening) :
    (happenings.foldl LineFile.after file).Keeps
      (stored ++ callBytes (file.successes happenings)) := by
  induction happenings generalizing file stored with
  | nil => simpa [successes, callBytes] using keeps
  | cons happening rest inductionHypothesis =>
      have later := inductionHypothesis (keeps.after happening)
      rw [List.append_assoc] at later
      simpa [successes, callBytes] using later

/-- A call without a fault adds its bytes to a whole file. -/
theorem make_none (stored : List UInt8) (call : Call) :
    ((ofBytes stored).make none call).2 = ofBytes (stored ++ lineBytes call.values) := by
  have done : ((ofBytes stored).make none call).1 = .ok () := by
    rw [make_eq, writeLines_eq_ok_iff]
    exact nofun
  rcases (keeps_ofBytes stored).make_cases none call with whole | ⟨error, torn, failed, -⟩
  · rw [whole]
  · rw [failed] at done
    cases done

/-- Calls without a fault leave a file with their bytes and nothing else. -/
theorem ofCalls_eq (calls : List Call) : ofCalls calls = ofBytes (callBytes calls) := by
  have added (stored : List UInt8) :
      calls.foldl (fun file call => (file.make none call).2) (ofBytes stored) =
        ofBytes (stored ++ callBytes calls) := by
    induction calls generalizing stored with
    | nil => rw [callBytes, List.flatMap_nil, List.append_nil, List.foldl_nil]
    | cons call rest inductionHypothesis =>
        rw [List.foldl_cons, make_none, inductionHypothesis, List.append_assoc]
        rfl
  exact added []

/-- Whatever happens to a file that was empty at first: what is remembered as its length is
the length of all that the successful calls have stored, and the file begins with exactly
that.  A call is successful exactly if no fault comes about in it, and then the whole file
is what the successful calls alone, made without a fault, would have left.  A value that
cannot be encoded leaves the file as it was. -/
theorem complete_writes_survive (happenings : List Happening) :
    let file := happenings.foldl after {}
    let calls := ({} : LineFile).successes happenings
    file.committed = (callBytes calls).length ∧
      file.bytes.take file.committed = callBytes calls ∧
      ∀ (call : Call) (fault : Option WriteFault),
        ((file.make fault call).1 = .ok () ↔
          ∀ struck ∈ fault, ¬ComesAbout file call.values struck) ∧
        ((file.make fault call).1 = .ok () →
          (file.make fault call).2.bytes = callBytes (calls ++ [call]) ∧
            (file.make fault call).2 = ofCalls (calls ++ [call])) ∧
        ∀ index < call.values.length, ∀ reason,
          file.make (some (.encoding index reason)) call =
            (.error (.encode reason), file) := by
  intro file calls
  have keeps : file.Keeps (callBytes calls) := (keeps_ofBytes []).happenings happenings
  refine ⟨keeps.committed, keeps.take, fun call fault =>
    ⟨?_, fun done => ?_, fun index below reason => ?_⟩⟩
  · rw [make_eq, writeLines_eq_ok_iff]
  · have appended : callBytes (calls ++ [call]) = callBytes calls ++ lineBytes call.values := by
      simp [callBytes]
    rw [ofCalls_eq, appended]
    rcases keeps.make_cases fault call with whole | ⟨error, torn, failed, -⟩
    · rw [whole]
      exact ⟨rfl, rfl⟩
    · rw [failed] at done
      cases done
  · have refused := encodeFrom_eq_error 0 index reason below ""
    rw [Nat.zero_add] at refused
    rw [make_eq, writeLines, refused]

/-- A batch of two frames is torn while it is written and cannot be taken back; somebody
else leaves bytes behind it; the next attempt fails at cutting them off, and the one
after it at encoding the second frame, which is what is said about it.  The attempt that
succeeds leaves the metadata record and the two frames. -/
theorem complete_writes_survive_of_torn_batch :
    let record : Call := .metadata { landId := "books", landType := "ledger", createdAt := .epoch }
    let batch : Call := .frames [{ tick := 0 }, { tick := 1 }]
    let happenings : List Happening :=
      [.call record none, .call batch (some (.writing 9 false "no space left")),
        .behind [0x7b, 0x0a], .call batch (some (.cutting "read-only file")),
        .call batch (some (.encoding 1 "key must be a string"))]
    let file := happenings.foldl after {}
    file.bytes.length = file.committed + 2 ∧
      (file.make none batch).1 = .ok () ∧
      (file.make none batch).2.bytes = callBytes [record, batch] := by
  intro record batch happenings file
  obtain ⟨-, -, calls⟩ := complete_writes_survive happenings
  have isOnly : ({} : LineFile).successes happenings = [record] := by decide +kernel
  have isLonger : file.bytes.length = file.committed + 2 := by decide +kernel
  have done : (file.make none batch).1 = .ok () := (calls batch none).1.2 nofun
  refine ⟨isLonger, done, ?_⟩
  rw [((calls batch none).2.1 done).1, isOnly]
  rfl

end LineFile
end Chronicle
