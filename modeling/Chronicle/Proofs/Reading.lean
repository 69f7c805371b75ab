import Chronicle.Proofs.Numeral

/-!
# Reading what was printed

The compact text of a value is read back as the tree of that value.  The
invariant is that of a pushdown automaton: reading the text of a value where
one is expected hands its tree to whatever is open, and touches nothing below.
-/

namespace Chronicle
namespace Json

namespace TextUnit

/-- The element of a literal as which a printed character is read: a control
character without a short escape is an escaped unit. -/
def ofChar (c : Char) : TextUnit :=
  if c.toNat < 0x20 ∧ c ∉ ['\x08', '\x0c', '\n', '\r', '\t'] then .unit c.toNat else .plain c

/-- A control character belongs to no surrogate pair. -/
theorem decode_control
    {code : Nat}
    (control : code < 0x20)
    (rest : List TextUnit) :
    decode (.unit code :: rest) = (decode rest).map (Char.ofNat code :: ·) := by
  have notHigh : isHigh code = false := by simp [isHigh]; omega
  have notLow : isLow code = false := by simp [isLow]; omega
  cases rest with
  | nil => simp [decode, notHigh, notLow, Except.map]
  | cons next rest => cases next <;> simp [decode, notHigh, notLow]

/-- The elements of a literal that was printed stand for its characters. -/
theorem decode_ofChar (text : List Char) : decode (text.map ofChar) = .ok text := by
  induction text with
  | nil => rfl
  | cons c rest inductionHypothesis =>
      rw [List.map_cons, ofChar]
      split
      · rename_i control
        rw [decode_control control.1, inductionHypothesis, Char.ofNat_toNat]
        rfl
      · rw [decode, inductionHypothesis]
        rfl

end TextUnit

namespace Reader

/-! ## String literals -/

section Text

variable (line start : Nat) (stack : List Frame) (units : List TextUnit) (lead : Option Nat)

/-- A hexadecimal digit of an escape goes into its code. -/
theorem step_hexDigit
    {bytes value digit : Nat}
    (small : digit < 16) :
    step ⟨line, stack, .text start units (.hex bytes (some value)) lead⟩ (Text.hexDigit digit) =
      ⟨line, stack,
        if bytes + 1 < 4 then .text start units (.hex (bytes + 1) (some (value * 16 + digit))) lead
        else .text start (.unit (value * 16 + digit) :: units) .outside lead⟩ := by
  have size : ∀ d : Fin 16, (Text.hexDigit d).utf8Size = 1 := by decide
  have noBreak : ∀ d : Fin 16, Text.hexDigit d ≠ '\n' := by decide
  simp only [step, stepText, size ⟨digit, small⟩, if_neg (noBreak ⟨digit, small⟩),
    Text.hexValue?_hexDigit small]
  split <;> rfl

/-- A printed character is read as its element. -/
theorem foldl_step_escape (c : Char) :
    (escape c).foldl step ⟨line, stack, .text start units .outside lead⟩ =
      ⟨line, stack, .text start (TextUnit.ofChar c :: units) .outside lead⟩ := by
  unfold escape
  split
  · rfl
  · rfl
  · rfl
  · rfl
  · rfl
  · rfl
  · rfl
  · rename_i notQuote notBackslash notB notF notN notR notT
    have plain : c ∉ ['\x08', '\x0c', '\n', '\r', '\t'] := by
      simp only [List.mem_cons, List.not_mem_nil, or_false]
      rintro (rfl | rfl | rfl | rfl | rfl)
      · exact notB rfl
      · exact notF rfl
      · exact notN rfl
      · exact notR rfl
      · exact notT rfl
    split
    · rename_i control
      have code : (((0 * 16 + c.toNat / 16 / 16 / 16 % 16) * 16 + c.toNat / 16 / 16 % 16) * 16 +
          c.toNat / 16 % 16) * 16 + c.toNat % 16 = c.toNat := by omega
      have opened : List.foldl step ⟨line, stack, .text start units .outside lead⟩ ['\\', 'u'] =
          ⟨line, stack, .text start units (.hex 0 (some 0)) lead⟩ := rfl
      have digits : '\\' :: 'u' :: Text.hexDigits 4 c.toNat = ['\\', 'u'] ++
          [Text.hexDigit (c.toNat / 16 / 16 / 16 % 16), Text.hexDigit (c.toNat / 16 / 16 % 16),
            Text.hexDigit (c.toNat / 16 % 16), Text.hexDigit (c.toNat % 16)] := rfl
      have small (n : Nat) : n % 16 < 16 := Nat.mod_lt n (by decide)
      have isUnit : TextUnit.ofChar c = .unit c.toNat := if_pos ⟨control, plain⟩
      rw [digits, List.foldl_append, opened, isUnit]
      simp only [List.foldl_cons, List.foldl_nil, step_hexDigit, small, Nat.reduceAdd,
        Nat.reduceLT, if_true, if_false, code]
    · rename_i printable
      have noQuote : c ≠ '"' := notQuote
      have noBackslash : c ≠ '\\' := notBackslash
      have isPlain : TextUnit.ofChar c = .plain c := if_neg fun both => printable both.1
      simp only [List.foldl_cons, List.foldl_nil, step, stepText, if_neg noQuote,
        if_neg noBackslash, if_neg printable, isPlain]

/-- The printed characters of a literal are read as their elements. -/
theorem foldl_step_escapes (text : List Char) :
    (text.flatMap escape).foldl step ⟨line, stack, .text start units .outside lead⟩ =
      ⟨line, stack, .text start ((text.map TextUnit.ofChar).reverse ++ units) .outside lead⟩ := by
  induction text generalizing units with
  | nil => rfl
  | cons c rest inductionHypothesis =>
      rw [List.flatMap_cons, List.foldl_append, foldl_step_escape, inductionHypothesis]
      simp

/-- The elements of a printed literal are those of its string. -/
theorem closed_ofChar (text : String) :
    Quoted.closed start ((text.toList.map TextUnit.ofChar).reverse ++ []).reverse =
      .ofString start text := by
  rw [List.append_nil, List.reverse_reverse, Quoted.closed, TextUnit.decode_ofChar]
  simp [Quoted.ofString]

/-- What is handed over does not depend on what was read last. -/
theorem deliver_phase (node : Located) (phase : Phase) :
    deliver node ⟨line, stack, phase⟩ = deliver node ⟨line, stack, .value⟩ := by
  cases stack with
  | nil => rfl
  | cons frame rest => cases frame <;> rfl

/-- After a value comes what stands between the tokens. -/
theorem step_deliver (node : Located) (c : Char) :
    step (deliver node ⟨line, stack, .value⟩) c =
      between (if c = '\n' then line + 1 else line) c (deliver node ⟨line, stack, .value⟩) := by
  cases stack with
  | nil => rfl
  | cons frame rest => cases frame <;> rfl

/-- The closing quote of a key leads to the colon. -/
theorem foldl_step_key (comma : Nat) (text : String) :
    (text.toList.flatMap escape ++ ['"']).foldl step
        ⟨line, stack, .text start [] .outside (some comma)⟩ =
      ⟨line, stack, .colon comma (.ofString start text)⟩ := by
  rw [List.foldl_append, foldl_step_escapes, ← closed_ofChar]
  rfl

/-- The closing quote of a value hands it over. -/
theorem foldl_step_string (text : String) :
    (text.toList.flatMap escape ++ ['"']).foldl step ⟨line, stack, .text start [] .outside none⟩ =
      deliver (.string (.ofString start text)) ⟨line, stack, .value⟩ := by
  rw [List.foldl_append, foldl_step_escapes, ← closed_ofChar]
  exact deliver_phase line stack _ _

end Text

/-! ## Values -/

/-- A value has been read to the end of its text: it has been handed over, or it
is a numeral that the next character ends. -/
def Delivered (line : Nat) (stack : List Frame) (node : Located) (reader : Reader) : Prop :=
  reader = deliver node ⟨line, stack, .value⟩ ∨
    ∃ stage numeral, reader = ⟨line, stack, .numeral line stage numeral⟩ ∧
      stage.isComplete = true ∧ node = .number line numeral.number?

/-- A comma or a closing bracket ends a numeral. -/
theorem Delivered.step_closing
    {line : Nat}
    {stack : List Frame}
    {node : Located}
    {reader : Reader}
    (delivered : Delivered line stack node reader)
    {c : Char}
    (closing : c ∈ [',', ']', '}']) :
    reader.step c = (deliver node ⟨line, stack, .value⟩).step c := by
  rcases delivered with rfl | ⟨stage, numeral, rfl, complete, rfl⟩
  · rfl
  · have notDigit : digit? c = none := by
      simp only [List.mem_cons, List.not_mem_nil, or_false] at closing
      rcases closing with rfl | rfl | rfl <;> rfl
    have notExtended : extend? stage numeral c = none := by
      simp only [List.mem_cons, List.not_mem_nil, or_false] at closing
      rcases closing with rfl | rfl | rfl <;> cases stage <;> rfl
    have noZero : ¬(stage = .zero ∧ (digit? c).isSome = true) := by simp [notDigit]
    rw [step_deliver, step]
    simp only [notExtended, if_neg noZero, endNumeral, complete, if_true, deliver_phase]

/-- A key and its colon open a member. -/
theorem foldl_step_member
    {line start lead : Nat}
    {members : List (Key × Located)}
    {stack : List Frame}
    {phase : Phase}
    (expects : phase = .key lead ∨ phase = .keyOrClose ∧ lead = line)
    (key : String)
    (text : List Char) :
    (quote key ++ ':' :: text).foldl step ⟨line, .object start members :: stack, phase⟩ =
      text.foldl step
        ⟨line, .member start members ⟨lead, .ofString line key, line⟩ :: stack, .value⟩ := by
  have opened : step ⟨line, .object start members :: stack, phase⟩ '"' =
      ⟨line, .object start members :: stack, .text line [] .outside (some lead)⟩ := by
    rcases expects with rfl | ⟨rfl, rfl⟩ <;> rfl
  rw [quote, List.cons_append, List.foldl_cons, opened, List.foldl_append, foldl_step_key]
  rfl

end Reader

open Reader (step deliver Delivered deliver_phase)

mutual

/-- The decimals that occur in a value. -/
def decimals : Json → List Number
  | .null => []
  | .bool _ => []
  | .number (.integer _ _) => []
  | .number (.decimal value finite) => [.decimal value finite]
  | .string _ => []
  | .array items => decimalsOfItems items
  | .object members => decimalsOfMembers members

/-- The decimals that occur in a list of values. -/
def decimalsOfItems : List Json → List Number
  | [] => []
  | item :: rest => item.decimals ++ decimalsOfItems rest

/-- The decimals that occur in a list of members. -/
def decimalsOfMembers : List (String × Json) → List Number
  | [] => []
  | (_, value) :: rest => value.decimals ++ decimalsOfMembers rest

end

mutual

/-- The text of a value is read where one is expected, whatever is open. -/
theorem foldl_chars
    {line : Nat}
    {stack : List Frame}
    {phase : Phase}
    (expects : phase = .value ∨ phase = .itemOrClose) :
    (value : Json) → (∀ number ∈ value.decimals, number.ReadsBack) →
      Delivered line stack (.ofJson line value) (value.chars.foldl step ⟨line, stack, phase⟩)
  | .null, _ => by
      rcases expects with rfl | rfl <;> exact .inl (deliver_phase ..)
  | .bool true, _ => by
      rcases expects with rfl | rfl <;> exact .inl (deliver_phase ..)
  | .bool false, _ => by
      rcases expects with rfl | rfl <;> exact .inl (deliver_phase ..)
  | .number value, readsBack => by
      have spells : Numeral.Spells value.chars value :=
        Number.spells_chars fun value finite isDecimal =>
          readsBack _ (by subst isDecimal; exact List.mem_singleton_self _)
      obtain ⟨stage, numeral, read, complete, denotes⟩ :=
        Reader.foldl_step_spells ⟨line, stack, phase⟩ expects spells
      exact .inr ⟨stage, numeral, read, complete, by rw [Located.ofJson, denotes]⟩
  | .string text, _ => by
      have opened : step ⟨line, stack, phase⟩ '"' =
          ⟨line, stack, .text line [] .outside none⟩ := by
        rcases expects with rfl | rfl <;> rfl
      rw [chars, quote, List.foldl_cons, opened]
      exact .inl (Reader.foldl_step_string line line stack text)
  | .array [], _ => by
      rcases expects with rfl | rfl <;> exact .inl (deliver_phase ..)
  | .array (item :: rest), readsBack => by
      obtain ⟨first, later⟩ := List.forall_mem_append.1 readsBack
      have opened : step ⟨line, stack, phase⟩ '[' =
          ⟨line, .array line [] :: stack, .itemOrClose⟩ := by
        rcases expects with rfl | rfl <;> rfl
      rw [chars, List.foldl_cons, opened, List.foldl_append]
      exact .inl (foldl_itemChars (foldl_chars (.inr rfl) item first) rest later)
  | .object [], _ => by
      rcases expects with rfl | rfl <;> exact .inl (deliver_phase ..)
  | .object ((key, value) :: rest), readsBack => by
      obtain ⟨first, later⟩ := List.forall_mem_append.1 readsBack
      have opened : step ⟨line, stack, phase⟩ '{' =
          ⟨line, .object line [] :: stack, .keyOrClose⟩ := by
        rcases expects with rfl | rfl <;> rfl
      rw [chars, List.foldl_cons, opened, Reader.foldl_step_member (.inr ⟨rfl, rfl⟩),
        List.foldl_append]
      exact .inl (foldl_memberChars (foldl_chars (.inl rfl) value first) rest later)

/-- The items after the first are read one by one, and the bracket closes the
array. -/
theorem foldl_itemChars
    {line start : Nat}
    {stack : List Frame}
    {items : List Located}
    {node : Located}
    {reader : Reader}
    (delivered : Delivered line (.array start items :: stack) node reader) :
    (rest : List Json) → (∀ number ∈ decimalsOfItems rest, number.ReadsBack) →
      (itemChars rest ++ [']']).foldl step reader =
        deliver (.array start ((node :: items).reverse ++ Located.ofItems line rest) (.closed line))
          ⟨line, stack, .value⟩
  | [], _ => by
      rw [itemChars, List.nil_append, List.foldl_cons, List.foldl_nil,
        delivered.step_closing (by decide), Located.ofItems, List.append_nil]
      exact deliver_phase ..
  | item :: rest, readsBack => by
      obtain ⟨first, later⟩ := List.forall_mem_append.1 readsBack
      have comma : step reader ',' = ⟨line, .array start (node :: items) :: stack, .value⟩ := by
        rw [delivered.step_closing (by decide)]
        rfl
      have read : Delivered line (.array start (node :: items) :: stack) (.ofJson line item) _ :=
        foldl_chars (.inl rfl) item first
      rw [itemChars, List.cons_append, List.foldl_cons, comma, List.append_assoc,
        List.foldl_append, foldl_itemChars read rest later, Located.ofItems, List.reverse_cons,
        List.append_assoc, List.singleton_append]

/-- The members after the first are read one by one, and the brace closes the
object. -/
theorem foldl_memberChars
    {line start : Nat}
    {stack : List Frame}
    {members : List (Key × Located)}
    {key : Key}
    {node : Located}
    {reader : Reader}
    (delivered : Delivered line (.member start members key :: stack) node reader) :
    (rest : List (String × Json)) →
      (∀ number ∈ decimalsOfMembers rest, number.ReadsBack) →
      (memberChars rest ++ ['}']).foldl step reader =
        deliver (.object start (((key, node) :: members).reverse ++ Located.ofMembers line rest)
            (.closed line))
          ⟨line, stack, .value⟩
  | [], _ => by
      rw [memberChars, List.nil_append, List.foldl_cons, List.foldl_nil,
        delivered.step_closing (by decide), Located.ofMembers, List.append_nil]
      exact deliver_phase ..
  | (name, value) :: rest, readsBack => by
      obtain ⟨first, later⟩ := List.forall_mem_append.1 readsBack
      have comma : step reader ',' =
          ⟨line, .object start ((key, node) :: members) :: stack, .key line⟩ := by
        rw [delivered.step_closing (by decide)]
        rfl
      have read : Delivered line
          (.member start ((key, node) :: members) ⟨line, .ofString line name, line⟩ :: stack)
          (.ofJson line value) _ := foldl_chars (.inl rfl) value first
      rw [memberChars, List.cons_append, List.foldl_cons, comma, List.append_assoc,
        List.cons_append, List.append_assoc, Reader.foldl_step_member (.inl rfl),
        List.foldl_append, foldl_memberChars read rest later, Located.ofMembers,
        List.reverse_cons, List.append_assoc, List.singleton_append]

end

/-- The text of an object stands between braces. -/
theorem exists_chars_object (members : List (String × Json)) :
    ∃ inner, (object members).chars = '{' :: (inner ++ ['}']) := by
  cases members with
  | nil => exact ⟨[], rfl⟩
  | cons member rest =>
      refine ⟨quote member.1 ++ ':' :: (member.2.chars ++ memberChars rest), ?_⟩
      rw [chars, List.append_assoc, List.cons_append, List.append_assoc]

/-- A printed object is read to its end. -/
theorem foldl_chars_object
    {members : List (String × Json)}
    (readsBack : ∀ number ∈ (object members).decimals, number.ReadsBack) :
    (object members).chars.foldl step Reader.start =
      ⟨1, [], .finished (.ofJson 1 (object members)) none⟩ := by
  rcases foldl_chars (.inl rfl) (object members) readsBack with
    read | ⟨stage, numeral, -, -, isNumber⟩
  · exact read
  · cases isNumber

/-- A printed value is read back as its tree. -/
theorem read_chars
    (value : Json)
    (readsBack : ∀ number ∈ value.decimals, number.ReadsBack) :
    Document.read value.chars = ⟨.ofJson 1 value, none⟩ := by
  rcases foldl_chars (.inl rfl) value readsBack with read | ⟨stage, numeral, read, complete, isNode⟩
  · rw [Document.read, Reader.start, read]
    rfl
  · rw [Document.read, Reader.start, read, isNode]
    simp only [Reader.document, Reader.endNumeral, complete, if_true, deliver]

end Json
end Chronicle
