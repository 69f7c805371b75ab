import Chronicle.Proofs.Reading
import Chronicle.Proofs.Relocation

/-!
# Reading what was spread over lines

The text of a value spread over lines is read as a tree that stands on these
lines.  Moved onto one line it is the tree of the value, so decoders give for
both texts of a value the same.
-/

namespace Chronicle
namespace Json

open Reader (step deliver Delivered deliver_phase between)

namespace Reader

/-- Between the tokens a reader takes every character the same way. -/
def Waits (stack : List Frame) (phase : Phase) : Prop :=
  ∀ line c, step ⟨line, stack, phase⟩ c =
    between (if c = '\n' then line + 1 else line) c ⟨line, stack, phase⟩

/-- A line feed and an indent only count the line. -/
theorem Waits.foldl_newline
    {stack : List Frame}
    {phase : Phase}
    (waits : Waits stack phase)
    (line level : Nat) :
    (newline level).foldl step ⟨line, stack, phase⟩ = ⟨line + 1, stack, phase⟩ := by
  have indent (blanks line : Nat) :
      (List.replicate blanks ' ').foldl step ⟨line, stack, phase⟩ = ⟨line, stack, phase⟩ := by
    induction blanks with
    | zero => rfl
    | succ blanks inductionHypothesis =>
        rw [List.replicate_succ, List.foldl_cons, waits]
        exact inductionHypothesis
  rw [newline, List.foldl_cons, waits]
  exact indent (2 * level) (line + 1)

/-- A line feed ends a numeral, so what follows finds the value handed over. -/
theorem Delivered.foldl_newline
    {line : Nat}
    {stack : List Frame}
    {node : Located}
    {reader : Reader}
    (delivered : Delivered line stack node reader)
    (level : Nat) :
    (newline level).foldl step reader =
      (newline level).foldl step (deliver node ⟨line, stack, .value⟩) := by
  rcases delivered with rfl | ⟨stage, numeral, rfl, complete, rfl⟩
  · rfl
  · have notExtended : extend? stage numeral '\n' = none := by cases stage <;> rfl
    have noZero : ¬(stage = .zero ∧ (digit? '\n').isSome = true) := by
      rintro ⟨-, isDigit⟩
      cases isDigit
    rw [newline, List.foldl_cons, List.foldl_cons, step_deliver, step]
    simp only [notExtended, if_neg noZero, endNumeral, complete, if_true, deliver_phase]

/-- A blank before a value is passed over. -/
theorem blank (line : Nat) (stack : List Frame) :
    step ⟨line, stack, .value⟩ ' ' = ⟨line, stack, .value⟩ := rfl

end Reader

mutual

/-- The text of a value spread over lines is read where one is expected, whatever
is open. -/
theorem foldl_prettyChars
    (line : Nat)
    (stack : List Frame)
    {phase : Phase}
    (expects : phase = .value ∨ phase = .itemOrClose)
    (level : Nat) :
    (value : Json) → (∀ number ∈ value.decimals, number.ReadsBack) →
      ∃ last node, node.relocate 1 = .ofJson 1 value ∧
        Delivered last stack node ((value.prettyChars level).foldl step ⟨line, stack, phase⟩)
  | .null, readsBack => ⟨line, .null line, rfl, foldl_chars expects .null readsBack⟩
  | .bool true, readsBack =>
      ⟨line, .bool line true, rfl, foldl_chars expects (.bool true) readsBack⟩
  | .bool false, readsBack =>
      ⟨line, .bool line false, rfl, foldl_chars expects (.bool false) readsBack⟩
  | .number value, readsBack =>
      ⟨line, .number line (some value), rfl, foldl_chars expects (.number value) readsBack⟩
  | .string text, readsBack =>
      ⟨line, .string (.ofString line text), rfl, foldl_chars expects (.string text) readsBack⟩
  | .array [], readsBack =>
      ⟨line, .array line [] (.closed line), rfl, foldl_chars expects (.array []) readsBack⟩
  | .array (item :: rest), readsBack => by
      obtain ⟨first, later⟩ := List.forall_mem_append.1 readsBack
      have opened : step ⟨line, stack, phase⟩ '[' =
          ⟨line, .array line [] :: stack, .itemOrClose⟩ := by
        rcases expects with rfl | rfl <;> rfl
      have waits : Reader.Waits (.array line [] :: stack) .itemOrClose := fun _ _ => rfl
      obtain ⟨middle, node, isItem, read⟩ :=
        foldl_prettyChars (line + 1) (.array line [] :: stack) (.inr rfl) (level + 1) item first
      obtain ⟨last, nodes, areItems, closed⟩ :=
        foldl_prettyItemChars read (level + 1) level rest later
      refine ⟨last, .array line (node :: nodes) (.closed last), ?_, .inl ?_⟩
      · rw [Located.relocate, Located.relocateItems, isItem, areItems]
        rfl
      · rw [prettyChars, List.foldl_cons, opened, List.foldl_append, waits.foldl_newline,
          List.foldl_append, closed]
        rfl
  | .object [], readsBack =>
      ⟨line, .object line [] (.closed line), rfl, foldl_chars expects (.object []) readsBack⟩
  | .object ((key, value) :: rest), readsBack => by
      obtain ⟨first, later⟩ := List.forall_mem_append.1 readsBack
      have opened : step ⟨line, stack, phase⟩ '{' =
          ⟨line, .object line [] :: stack, .keyOrClose⟩ := by
        rcases expects with rfl | rfl <;> rfl
      have waits : Reader.Waits (.object line [] :: stack) .keyOrClose := fun _ _ => rfl
      obtain ⟨middle, node, isValue, read⟩ := foldl_prettyChars (line + 1)
        (.member line [] ⟨line + 1, .ofString (line + 1) key, line + 1⟩ :: stack) (.inl rfl)
        (level + 1) value first
      obtain ⟨last, nodes, areMembers, closed⟩ :=
        foldl_prettyMemberChars read (level + 1) level rest later
      refine ⟨last, .object line
        ((⟨line + 1, .ofString (line + 1) key, line + 1⟩, node) :: nodes) (.closed last),
        ?_, .inl ?_⟩
      · rw [Located.relocate, Located.relocateMembers, isValue, areMembers]
        rfl
      · rw [prettyChars, List.foldl_cons, opened, List.foldl_append, waits.foldl_newline,
          Reader.foldl_step_member (.inr ⟨rfl, rfl⟩), List.foldl_cons, Reader.blank,
          List.foldl_append, closed]
        rfl

/-- The items after the first are read one by one, each on its line, and the
bracket closes the array. -/
theorem foldl_prettyItemChars
    {line start : Nat}
    {stack : List Frame}
    {items : List Located}
    {node : Located}
    {reader : Reader}
    (delivered : Delivered line (.array start items :: stack) node reader)
    (level outer : Nat) :
    (rest : List Json) → (∀ number ∈ decimalsOfItems rest, number.ReadsBack) →
      ∃ last nodes, Located.relocateItems 1 nodes = Located.ofItems 1 rest ∧
        (prettyItemChars level rest ++ (newline outer ++ [']'])).foldl step reader =
          deliver (.array start ((node :: items).reverse ++ nodes) (.closed last))
            ⟨last, stack, .value⟩
  | [], _ => by
      have waits : Reader.Waits (.array start (node :: items) :: stack) .separator :=
        fun _ _ => rfl
      refine ⟨line + 1, [], rfl, ?_⟩
      rw [prettyItemChars, List.nil_append, List.foldl_append, delivered.foldl_newline,
        List.append_nil]
      exact congrArg (step · ']') (waits.foldl_newline line outer)
  | item :: rest, readsBack => by
      obtain ⟨first, later⟩ := List.forall_mem_append.1 readsBack
      have comma : step reader ',' = ⟨line, .array start (node :: items) :: stack, .value⟩ := by
        rw [delivered.step_closing (by decide)]
        rfl
      have waits : Reader.Waits (.array start (node :: items) :: stack) .value := fun _ _ => rfl
      obtain ⟨middle, next, isItem, read⟩ := foldl_prettyChars (line + 1)
        (.array start (node :: items) :: stack) (.inl rfl) level item first
      obtain ⟨last, nodes, areItems, closed⟩ :=
        foldl_prettyItemChars read level outer rest later
      refine ⟨last, next :: nodes, ?_, ?_⟩
      · rw [Located.relocateItems, isItem, areItems]
        rfl
      · rw [prettyItemChars, List.cons_append, List.foldl_cons, comma, List.append_assoc,
          List.foldl_append, waits.foldl_newline, List.append_assoc, List.foldl_append, closed,
          List.reverse_cons, List.append_assoc, List.singleton_append]

/-- The members after the first are read one by one, each on its line, and the
brace closes the object. -/
theorem foldl_prettyMemberChars
    {line start : Nat}
    {stack : List Frame}
    {members : List (Key × Located)}
    {key : Key}
    {node : Located}
    {reader : Reader}
    (delivered : Delivered line (.member start members key :: stack) node reader)
    (level outer : Nat) :
    (rest : List (String × Json)) →
      (∀ number ∈ decimalsOfMembers rest, number.ReadsBack) →
      ∃ last nodes, Located.relocateMembers 1 nodes = Located.ofMembers 1 rest ∧
        (prettyMemberChars level rest ++ (newline outer ++ ['}'])).foldl step reader =
          deliver (.object start (((key, node) :: members).reverse ++ nodes) (.closed last))
            ⟨last, stack, .value⟩
  | [], _ => by
      have waits : Reader.Waits (.object start ((key, node) :: members) :: stack) .separator :=
        fun _ _ => rfl
      refine ⟨line + 1, [], rfl, ?_⟩
      rw [prettyMemberChars, List.nil_append, List.foldl_append, delivered.foldl_newline,
        List.append_nil]
      exact congrArg (step · '}') (waits.foldl_newline line outer)
  | (name, value) :: rest, readsBack => by
      obtain ⟨first, later⟩ := List.forall_mem_append.1 readsBack
      have comma : step reader ',' =
          ⟨line, .object start ((key, node) :: members) :: stack, .key line⟩ := by
        rw [delivered.step_closing (by decide)]
        rfl
      have waits : Reader.Waits (.object start ((key, node) :: members) :: stack) (.key line) :=
        fun _ _ => rfl
      obtain ⟨middle, next, isValue, read⟩ := foldl_prettyChars (line + 1)
        (.member start ((key, node) :: members)
          ⟨line, .ofString (line + 1) name, line + 1⟩ :: stack) (.inl rfl) level value first
      obtain ⟨last, nodes, areMembers, closed⟩ :=
        foldl_prettyMemberChars read level outer rest later
      refine ⟨last, (⟨line, .ofString (line + 1) name, line + 1⟩, next) :: nodes, ?_, ?_⟩
      · rw [Located.relocateMembers, isValue, areMembers]
        rfl
      · rw [prettyMemberChars, List.cons_append, List.foldl_cons, comma, List.append_assoc,
          List.foldl_append, waits.foldl_newline, List.append_assoc, List.cons_append,
          List.cons_append, Reader.foldl_step_member (.inl rfl), List.foldl_cons, Reader.blank,
          List.append_assoc, List.foldl_append, closed, List.reverse_cons, List.append_assoc,
          List.singleton_append]

end

/-- A value spread over lines is read as a tree that is its own once it is moved
onto one line. -/
theorem read_prettyChars
    (value : Json)
    (readsBack : ∀ number ∈ value.decimals, number.ReadsBack) :
    ∃ node, node.relocate 1 = .ofJson 1 value ∧
      Document.read (value.prettyChars 0) = ⟨node, none⟩ := by
  obtain ⟨last, node, isValue, read⟩ := foldl_prettyChars 1 [] (.inl rfl) 0 value readsBack
  refine ⟨node, isValue, ?_⟩
  rcases read with read | ⟨stage, numeral, read, complete, isNode⟩
  · rw [Document.read, Reader.start, read]
    rfl
  · rw [Document.read, Reader.start, read, isNode]
    simp only [Reader.document, Reader.endNumeral, complete, if_true, deliver]

/-- What is decoded from the text of a value spread over lines is what is decoded
from the value, up to the lines of faults. -/
theorem Decoder.decodeText_prettyChars
    {decoder : Decoder α}
    (relocates : decoder.Relocates)
    {value : Json}
    (readsBack : ∀ number ∈ value.decimals, number.ReadsBack) :
    (decoder.decodeText (value.prettyChars 0)).mapError (fun _ => 1) =
      decoder maxDepth (.ofJson 1 value) := by
  obtain ⟨node, isValue, read⟩ := read_prettyChars value readsBack
  rw [decodeText, read, ← isValue, relocates]
  cases decoder maxDepth node <;> rfl

end Json
end Chronicle
