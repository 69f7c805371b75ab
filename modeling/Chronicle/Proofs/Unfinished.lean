import Chronicle.Proofs.Reading

/-!
# Objects that break off

The reader closes the outermost bracket last.  So a beginning of the text of an
object leaves the object open, whatever strings and brackets stand within it: its
closing brace, which is still to come, would otherwise stand behind the end of the
document.  A record is not decoded from an object that is left open.
-/

namespace Chronicle
namespace Json
namespace Reader

/-! ## The outermost bracket -/

/-- The outermost open bracket is that of an object. -/
inductive Rooted : List Frame → Prop
  | object (line : Nat) (members : List (Key × Located)) : Rooted [.object line members]
  | member (line : Nat) (members : List (Key × Located)) (key : Key) :
      Rooted [.member line members key]
  | within (frame : Frame) {stack : List Frame} (rooted : Rooted stack) : Rooted (frame :: stack)

/-- The outermost value is an object that is still open, or has been read. -/
def InObject (reader : Reader) : Prop :=
  Rooted reader.stack ∨ ∃ root trailing, reader.phase = .finished root trailing

variable {reader : Reader} {stack : List Frame}

/-- What stops at a fault has been read. -/
theorem inObject_abandon (lead fault : Nat) (inner : Option Located) (reader : Reader) :
    (reader.abandon lead fault inner).InObject :=
  .inr ⟨_, _, rfl⟩

theorem inObject_abandonKey (key : Key) (fault : Nat) (reader : Reader) :
    (reader.abandonKey key fault).InObject := by
  unfold abandonKey
  split <;> exact inObject_abandon ..

theorem inObject_cutText
    (start : Nat)
    (units : List TextUnit)
    (lead : Option Nat)
    (fault passFault : Nat)
    (reader : Reader) :
    (reader.cutText start units lead fault passFault).InObject := by
  cases lead with
  | none => exact inObject_abandon ..
  | some lead => exact inObject_abandonKey ..

/-- A value is handed to the innermost bracket, and the outermost one stays open. -/
theorem Rooted.deliver (rooted : Rooted reader.stack) (node : Located) :
    Rooted (reader.deliver node).stack ∧ (reader.deliver node).phase = .separator := by
  obtain ⟨line, stack, phase⟩ := reader
  cases rooted with
  | object line members => exact ⟨.object _ _, rfl⟩
  | member line members key => exact ⟨.object _ _, rfl⟩
  | within frame rooted => cases frame <;> exact ⟨.within _ rooted, rfl⟩

theorem inObject_deliver (node : Located) (inside : reader.stack = [] ∨ Rooted reader.stack) :
    (reader.deliver node).InObject := by
  rcases inside with none | rooted
  · refine .inr ⟨node, .none, ?_⟩
    unfold deliver
    rw [none]
  · exact .inl (rooted.deliver node).1

theorem inObject_beginValue (c : Char) (rooted : Rooted reader.stack) :
    (reader.beginValue c).InObject := by
  unfold beginValue
  split
  · exact .inl (.within _ rooted)
  · exact .inl (.within _ rooted)
  · exact .inl rooted
  · exact .inl rooted
  · exact .inl rooted
  · exact .inl rooted
  · exact .inl rooted
  · split
    · exact .inl rooted
    · exact .inl rooted
    · exact inObject_abandon ..

theorem inObject_close (c : Char) (rooted : Rooted reader.stack) : (reader.close c).InObject := by
  obtain ⟨line, stack, phase⟩ := reader
  have inner {frame : Frame} {rest : List Frame} (rooted : Rooted (frame :: rest)) :
      rest = [] ∨ Rooted rest := by
    cases rooted with
    | object line members => exact .inl rfl
    | member line members key => exact .inl rfl
    | within frame rooted => exact .inr rooted
  unfold close
  split
  · rename_i isStack
    split
    · exact inObject_deliver _ (inner (isStack ▸ rooted))
    · exact inObject_abandon ..
  · rename_i isStack
    split
    · exact inObject_deliver _ (inner (isStack ▸ rooted))
    · exact inObject_abandon ..
  · exact inObject_abandon ..

theorem inObject_stepBetween (c : Char) (rooted : Rooted reader.stack) :
    (reader.stepBetween c).InObject := by
  unfold stepBetween
  split
  · exact inObject_beginValue c rooted
  · split
    · exact inObject_close c rooted
    · exact inObject_beginValue c rooted
  · split
    · exact .inl rooted
    · exact inObject_abandon ..
  · split
    · exact .inl rooted
    · split
      · exact inObject_close c rooted
      · exact inObject_abandon ..
  · dsimp only
    split
    · rename_i isStack
      rw [isStack] at rooted
      cases rooted with
      | object line members => exact .inl (.member _ _ _)
      | within frame rooted => exact .inl (.within _ rooted)
    · exact inObject_abandonKey ..
  · dsimp only
    split
    · exact .inl rooted
    · exact .inl rooted
    · exact inObject_close _ rooted
  · exact .inl rooted
  · exact .inl rooted

theorem inObject_stepText
    {start : Nat}
    {units : List TextUnit}
    {lead : Option Nat}
    (escape : EscapeStage)
    (next : Nat)
    (c : Char)
    (rooted : Rooted reader.stack) :
    (reader.stepText start units escape lead next c).InObject := by
  unfold stepText
  split
  · split
    · cases lead with
      | none => exact inObject_deliver _ (.inr rooted)
      | some lead => exact .inl rooted
    · split
      · exact .inl rooted
      · split
        · exact inObject_cutText ..
        · exact .inl rooted
  · split
    · exact .inl rooted
    · split
      · exact .inl rooted
      · exact inObject_cutText ..
  · dsimp only
    split
    · exact .inl rooted
    · split
      · exact .inl rooted
      · exact inObject_cutText ..

theorem inObject_endNumeral
    (start fault : Nat)
    (stage : NumeralStage)
    (numeral : Numeral)
    (rooted : Rooted reader.stack) :
    (reader.endNumeral start fault stage numeral).InObject := by
  unfold endNumeral
  split
  · exact inObject_deliver _ (.inr rooted)
  · exact inObject_abandon ..

/-- A character between tokens is read within the object, or after its end. -/
theorem InObject.between (inside : reader.InObject) (next : Nat) (c : Char) :
    (reader.between next c).InObject := by
  unfold Reader.between
  split
  · exact inside
  · rcases inside with rooted | ⟨root, trailing, finished⟩
    · exact inObject_stepBetween c rooted
    · unfold stepBetween
      rw [finished]
      cases trailing with
      | none => exact .inr ⟨_, _, rfl⟩
      | some line => exact .inr ⟨_, _, finished⟩

/-- A character is read within the object, or after its end. -/
theorem InObject.step (inside : reader.InObject) (c : Char) : (reader.step c).InObject := by
  rcases inside with rooted | ⟨root, trailing, finished⟩
  · unfold Reader.step
    dsimp only
    split
    · split
      · split
        · split
          · exact inObject_deliver _ (.inr rooted)
          · exact .inl rooted
        · exact inObject_abandon ..
      · exact inObject_deliver _ (.inr rooted)
    · split
      · exact .inl rooted
      · split
        · exact inObject_abandon ..
        · split
          · exact (inObject_endNumeral _ _ _ _ rooted).between _ c
          · exact inObject_endNumeral _ _ _ _ rooted
    · exact inObject_stepText _ _ c rooted
    · exact InObject.between (.inl rooted) _ c
  · obtain ⟨later, isLater, -⟩ := foldl_step_finished [c] finished
    exact .inr ⟨root, later, isLater⟩

/-- A text that begins with a brace is read within an object, or to its end. -/
theorem inObject_foldl_step (rest : List Char) :
    (('{' :: rest).foldl Reader.step start).InObject := by
  have read (rest : List Char) {reader : Reader} (inside : reader.InObject) :
      (rest.foldl Reader.step reader).InObject := by
    induction rest generalizing reader with
    | nil => exact inside
    | cons c rest inductionHypothesis => exact inductionHypothesis (inside.step c)
  have opened : (start.step '{').InObject := .inl (.object 1 [])
  exact read rest opened

/-! ## Where the text ends -/

/-- The reader has stopped within an object. -/
def Broke (reader : Reader) : Prop :=
  ∃ line members lead fault,
    reader.phase = .finished (.object line members (.broken lead fault)) none

/-- What has been read of an open object is an object that breaks off. -/
theorem Rooted.collapse
    (rooted : Rooted stack)
    (lead fault : Nat)
    (inner : Option Located) :
    ∃ line members, Reader.collapse lead fault inner stack =
      .object line members (.broken lead fault) := by
  induction rooted generalizing inner with
  | object line members => exact ⟨_, _, rfl⟩
  | member line members key => exact ⟨_, _, rfl⟩
  | within frame rooted inductionHypothesis => cases frame <;> exact inductionHypothesis _

theorem broke_abandon
    (rooted : Rooted reader.stack)
    (lead fault : Nat)
    (inner : Option Located) :
    (reader.abandon lead fault inner).Broke := by
  obtain ⟨line, members, collapsed⟩ := rooted.collapse lead fault inner
  exact ⟨line, members, lead, fault, by rw [abandon, collapsed]⟩

theorem broke_abandonKey (rooted : Rooted reader.stack) (key : Key) (fault : Nat) :
    (reader.abandonKey key fault).Broke := by
  unfold abandonKey
  split
  · rename_i isStack
    rw [isStack] at rooted
    refine broke_abandon ?_ _ _ _
    cases rooted with
    | object line members => exact .member _ _ _
    | within frame rooted => exact .within _ rooted
  · exact broke_abandon rooted ..

theorem broke_cutText
    (rooted : Rooted reader.stack)
    (start : Nat)
    (units : List TextUnit)
    (lead : Option Nat)
    (fault passFault : Nat) :
    (reader.cutText start units lead fault passFault).Broke := by
  cases lead with
  | none => exact broke_abandon rooted ..
  | some lead => exact broke_abandonKey rooted ..

/-- A text that ends within an object is read as an object that breaks off. -/
theorem document_of_rooted
    (rooted : Rooted reader.stack)
    (unfinished : ∀ root trailing, reader.phase ≠ .finished root trailing) :
    ∃ line members lead fault,
      reader.document = ⟨.object line members (.broken lead fault), none⟩ := by
  have ended {last : Reader} (broke : last.Broke)
      (isEnd : ∀ root, last.phase = .finished root none → reader.document = ⟨root, none⟩) :
      ∃ line members lead fault,
        reader.document = ⟨.object line members (.broken lead fault), none⟩ := by
    obtain ⟨line, members, lead, fault, isLast⟩ := broke
    exact ⟨line, members, lead, fault, isEnd _ isLast⟩
  have abandoned := broke_abandon rooted
  have inBracket := abandoned reader.line reader.line none
  have inValue (start : Nat) :=
    abandoned reader.line reader.line (some (.broken start reader.line))
  cases isPhase : reader.phase with
  | value =>
      refine ended (inValue reader.line) fun root isLast => ?_
      simp only [document, isPhase, abandonValue, isLast]
  | itemOrClose =>
      refine ended inBracket fun root isLast => ?_
      simp only [document, isPhase, isLast]
  | key comma =>
      refine ended (abandoned comma reader.line none) fun root isLast => ?_
      simp only [document, isPhase, isLast]
  | keyOrClose =>
      refine ended inBracket fun root isLast => ?_
      simp only [document, isPhase, isLast]
  | colon comma literal =>
      have inMember := broke_abandonKey rooted ⟨comma, literal, reader.line⟩ reader.line
      refine ended inMember fun root isLast => ?_
      simp only [document, isPhase, isLast]
  | separator =>
      refine ended inBracket fun root isLast => ?_
      simp only [document, isPhase, isLast]
  | literal start rest node =>
      refine ended (inValue start) fun root isLast => ?_
      simp only [document, isPhase, abandonValue, isLast]
  | numeral start stage numeral =>
      by_cases complete : stage.isComplete = true
      · obtain ⟨stillRooted, separated⟩ := rooted.deliver (.number start numeral.number?)
        refine ended (broke_abandon stillRooted reader.line reader.line none) fun root isLast => ?_
        simp only [document, isPhase, endNumeral, if_pos complete, separated, isLast]
      · refine ended (inValue start) fun root isLast => ?_
        simp only [document, isPhase, endNumeral, if_neg complete, abandonValue, isLast]
  | text start units escape comma =>
      have inText := broke_cutText rooted start units comma reader.line reader.line
      refine ended inText fun root isLast => ?_
      simp only [document, isPhase, isLast]
  | finished root trailing => exact absurd isPhase (unfinished root trailing)

/-! ## Beginnings of the text of an object -/

variable {members : List (String × Json)} {begun missing : List Char}

/-- After the end of the value, a closing brace is a fault. -/
theorem trailing_of_brace
    {root : Located}
    {trailing : Option Nat}
    (finished : reader.phase = .finished root trailing)
    (text : List Char) :
    ∃ later, ((text ++ ['}']).foldl step reader).phase = .finished root (some later) := by
  obtain ⟨later, isLater, -⟩ := foldl_step_finished text finished
  rw [List.foldl_append, List.foldl_cons, List.foldl_nil]
  cases later with
  | none => exact ⟨_, by simp only [step, isLater, between, stepBetween]; rfl⟩
  | some line => exact ⟨line, by simp only [step, isLater, between, stepBetween]; exact isLater⟩

/-- The end of the object is not reached before its closing brace. -/
theorem unfinished_of_chars_object
    (readsBack : ∀ number ∈ (object members).decimals, number.ReadsBack)
    (isText : (object members).chars = begun ++ missing)
    (breaks : missing ≠ [])
    (root : Located)
    (trailing : Option Nat) :
    (begun.foldl step start).phase ≠ .finished root trailing := by
  intro finished
  obtain ⟨inner, braces⟩ := exists_chars_object members
  obtain ⟨inside, c, rfl⟩ : ∃ inside c, missing = inside ++ [c] :=
    ⟨_, _, (List.dropLast_concat_getLast breaks).symm⟩
  have isBrace : c = '}' := by
    rw [isText, ← List.append_assoc, ← List.cons_append] at braces
    exact List.singleton_inj.1 (List.append_inj_right' braces rfl)
  obtain ⟨later, isLater⟩ := trailing_of_brace finished inside
  have read := foldl_chars_object readsBack
  rw [isText, isBrace, List.foldl_append] at read
  rw [read] at isLater
  cases isLater

/-- What has been read before the end of the text of an object is an object that
breaks off. -/
theorem read_of_chars_object
    (readsBack : ∀ number ∈ (object members).decimals, number.ReadsBack)
    (isText : (object members).chars = begun ++ missing)
    (begins : begun ≠ [])
    (breaks : missing ≠ []) :
    ∃ line members lead fault,
      Document.read begun = ⟨.object line members (.broken lead fault), none⟩ := by
  obtain ⟨inner, braces⟩ := exists_chars_object members
  have unfinished := unfinished_of_chars_object readsBack isText breaks
  cases begun with
  | nil => exact absurd rfl begins
  | cons c later =>
      have isBrace : c = '{' := by
        rw [isText] at braces
        exact (List.cons.inj braces).1
      subst isBrace
      rcases inObject_foldl_step later with rooted | ⟨root, trailing, finished⟩
      · exact document_of_rooted rooted unfinished
      · exact absurd finished (unfinished root trailing)

end Reader

/-- A record is not decoded from an object that breaks off. -/
theorem Decoder.record_broken
    (fields : Fields α)
    (room line : Nat)
    (members : List (Key × Located))
    (lead fault : Nat) :
    ∃ other, Decoder.record fields room (.object line members (.broken lead fault)) =
      .error other := by
  cases room with
  | zero => exact ⟨line, rfl⟩
  | succ room =>
      have faulty (first : Option Fault) :
          ∃ found, (first <|> (Ending.broken lead fault).fault?.map (Fault.mk members.length)) =
            some found := by
        cases first with
        | none => exact ⟨_, rfl⟩
        | some found => exact ⟨found, rfl⟩
      have settled (found : Fault) (outcome : Except Fault α) :
          ∃ other, settle (some found) outcome = .error other := by
        cases outcome <;> exact ⟨_, rfl⟩
      obtain ⟨found, isFound⟩ := faulty (scan .passed fields.names room 0 [] members)
      rw [record, decodeObject]
      simp only [isFound]
      exact settled found _

/-- A record is not decoded from a part of the text of an object. -/
theorem Decoder.decodeText_of_chars_object
    (fields : Fields α)
    {members : List (String × Json)}
    {begun missing : List Char}
    (readsBack : ∀ number ∈ (object members).decimals, number.ReadsBack)
    (isText : (object members).chars = begun ++ missing)
    (begins : begun ≠ [])
    (breaks : missing ≠ []) :
    ∃ fault, (Decoder.record fields).decodeText begun = .error fault := by
  obtain ⟨line, members, lead, fault, read⟩ :=
    Reader.read_of_chars_object readsBack isText begins breaks
  obtain ⟨other, refused⟩ := record_broken fields maxDepth line members lead fault
  exact ⟨other, by rw [decodeText, read]; simp only [refused]; rfl⟩

end Json
end Chronicle
