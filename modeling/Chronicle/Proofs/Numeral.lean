import Chronicle.Json.Decoder
import Chronicle.Json.Printer
import Mathlib.Tactic.IntervalCases

/-!
# Numerals

A numeral is read by one rule for each of its characters, whatever is open
around it.  The text of an integer spells that integer; the text of a decimal
spells it where the text by itself reads back as the decimal.
-/

namespace Chronicle
namespace Json

namespace Reader

/-- A digit is read as what it was written for. -/
theorem digit?_digitChar {digit : Nat} (small : digit < 10) :
    digit? digit.digitChar = some digit := by
  have each : ∀ d : Fin 10, digit? (Nat.digitChar d) = some d.val := by decide
  exact each ⟨digit, small⟩

/-- A character that is a digit was written for it. -/
theorem eq_digitChar_of_digit?
    {c : Char}
    {digit : Nat}
    (isDigit : digit? c = some digit) :
    digit < 10 ∧ c = digit.digitChar := by
  unfold digit? at isDigit
  split at isDigit
  · rename_i bounds
    obtain ⟨low, high⟩ : 48 ≤ c.toNat ∧ c.toNat ≤ 57 := bounds
    have value : c.toNat - 48 = digit := Option.some.inj isDigit
    have small : digit < 10 := by omega
    refine ⟨small, Char.toNat_inj.1 ?_⟩
    rw [Nat.toNat_digitChar_of_lt_ten small]
    omega
  · cases isDigit

/-- Characters that can stand in the text of a number. -/
def isNumeral (c : Char) : Bool :=
  (digit? c).isSome || c == '-' || c == '+' || c == '.' || c == 'e'

/-- A character of a number is a digit or one of four signs. -/
theorem isNumeral_cases {c : Char} (numeral : isNumeral c = true) :
    (∃ digit < 10, c = digit.digitChar) ∨ c ∈ ['-', '+', '.', 'e'] := by
  simp only [isNumeral, Bool.or_eq_true, beq_iff_eq, Option.isSome_iff_exists] at numeral
  rcases numeral with (((⟨digit, isDigit⟩ | minus) | plus) | point) | mark
  · exact .inl ⟨digit, eq_digitChar_of_digit? isDigit⟩
  · exact .inr (by simp [minus])
  · exact .inr (by simp [plus])
  · exact .inr (by simp [point])
  · exact .inr (by simp [mark])

/-- What holds of the digits and the four signs holds of every character of a
number. -/
theorem of_isNumeral
    (holds : Char → Prop)
    (digits : ∀ digit : Fin 10, holds (Nat.digitChar digit))
    (signs : holds '-' ∧ holds '+' ∧ holds '.' ∧ holds 'e')
    {c : Char}
    (numeral : isNumeral c = true) :
    holds c := by
  obtain ⟨minus, plus, point, mark⟩ := signs
  rcases isNumeral_cases numeral with ⟨digit, small, rfl⟩ | sign
  · exact digits ⟨digit, small⟩
  · exact List.forall_mem_cons.2 ⟨minus, List.forall_mem_cons.2 ⟨plus, List.forall_mem_cons.2
      ⟨point, List.forall_mem_singleton.2 mark⟩⟩⟩ c sign

theorem isSpace_of_isNumeral {c : Char} (numeral : isNumeral c = true) : isSpace c = false :=
  of_isNumeral (fun c => isSpace c = false) (by decide) (by decide) numeral

end Reader

open Reader (digit? isNumeral)

namespace Numeral

/-- The numeral that begins with a character. -/
def begin? (c : Char) : Option (NumeralStage × Numeral) :=
  if c = '-' then some (.minus, ⟨true, ∅, none, none⟩)
  else
    match digit? c with
    | some 0 => some (.zero, ⟨false, Log.push ∅ 0, none, none⟩)
    | some d => some (.whole, ⟨false, Log.push ∅ d, none, none⟩)
    | none => none

/-- The numeral that some characters extend. -/
def extendAll? (read : NumeralStage × Numeral) (text : List Char) :
    Option (NumeralStage × Numeral) :=
  text.foldlM (fun read c => Reader.extend? read.1 read.2 c) read

/-- A text spells a number: it is a numeral that may end where the text does and
denotes the number. -/
def Spells : List Char → Number → Prop
  | [], _ => False
  | c :: rest, spelled => ∃ begun stage numeral,
      begin? c = some begun ∧ extendAll? begun rest = some (stage, numeral) ∧
        stage.isComplete = true ∧ numeral.number? = some spelled

/-! ## Integers -/

/-- One more digit is collected as long as the significand stays below the
bound. -/
theorem collect_snoc
    {digits : List Nat}
    {digit significand start : Nat}
    (collected : collect start digits = (significand, digits.length))
    (below : significand * 10 + digit < significandBound) :
    collect start (digits ++ [digit]) = (significand * 10 + digit, digits.length + 1) := by
  induction digits generalizing start with
  | nil =>
      obtain rfl : start = significand := congrArg Prod.fst collected
      simp [collect, below]
  | cons first rest inductionHypothesis =>
      rw [List.cons_append, collect]
      rw [collect] at collected
      split at collected
      · rename_i within
        have tail : collect (start * 10 + first) rest = (significand, rest.length) := by
          simpa [Prod.ext_iff] using collected
        rw [if_pos within, inductionHypothesis tail]
        rfl
      · simp at collected

/-- A positive number is written with digits of which the first is not zero, and
they are collected to it. -/
theorem exists_digits
    {n : Nat}
    (positive : 0 < n)
    (below : n < significandBound) :
    ∃ first rest,
      Number.natChars n = (first :: rest).map Nat.digitChar ∧ first ≠ 0 ∧
        (∀ digit ∈ first :: rest, digit < 10) ∧
        collect 0 (first :: rest) = (n, (first :: rest).length) := by
  induction n using Nat.strongRecOn with
  | ind n inductionHypothesis =>
      by_cases single : n < 10
      · refine ⟨n, [], Nat.toDigits_of_lt_base single, by omega, by simpa using single, ?_⟩
        simp [collect, below]
      · obtain ⟨first, rest, written, notZero, small, collected⟩ :=
          inductionHypothesis (n / 10) (by omega) (by omega) (by omega)
        have last : n % 10 < 10 := Nat.mod_lt _ (by decide)
        have whole : n / 10 * 10 + n % 10 = n := Nat.div_add_mod' n 10
        refine ⟨first, rest ++ [n % 10], ?_, notZero, ?_, ?_⟩
        · rw [Number.natChars, Nat.toDigits_of_base_le (by decide) (by omega)]
          rw [Number.natChars] at written
          rw [written]
          simp
        · intro digit member
          rw [← List.cons_append, List.mem_append, List.mem_singleton] at member
          rcases member with earlier | rfl
          · exact small digit earlier
          · exact last
        · have fits : n / 10 * 10 + n % 10 < significandBound := by rwa [whole]
          have next := collect_snoc collected fits
          rw [whole] at next
          rw [← List.cons_append, next, List.length_append]
          rfl

/-- Digits extend the part of a numeral before the point. -/
theorem extendAll?_digits
    {digits : List Nat}
    (small : ∀ digit ∈ digits, digit < 10)
    (numeral : Numeral) :
    extendAll? (.whole, numeral) (digits.map Nat.digitChar) =
      some (.whole, { numeral with whole := numeral.whole.append digits }) := by
  induction digits generalizing numeral with
  | nil => rfl
  | cons digit rest inductionHypothesis =>
      obtain ⟨first, later⟩ := List.forall_mem_cons.1 small
      have next : Reader.extend? .whole numeral digit.digitChar =
          some (.whole, { numeral with whole := numeral.whole.push digit }) := by
        simp [Reader.extend?, Reader.digit?_digitChar first]
      rw [List.map_cons, extendAll?, List.foldlM_cons, next]
      exact inductionHypothesis later _

/-- The first digit begins a numeral, after a minus sign or without one. -/
theorem begin?_digit {first : Nat} (notZero : first ≠ 0) (small : first < 10) :
    begin? first.digitChar = some (.whole, ⟨false, Log.push ∅ first, none, none⟩) := by
  have each : ∀ d : Fin 10, d.val ≠ 0 → begin? (Nat.digitChar d) =
      some (.whole, ⟨false, Log.push ∅ d.val, none, none⟩) := by decide
  exact each ⟨first, small⟩ notZero

theorem extend?_minus {first : Nat} (notZero : first ≠ 0) (small : first < 10)
    (numeral : Numeral) :
    Reader.extend? .minus numeral first.digitChar =
      some (.whole, { numeral with whole := Log.push ∅ first }) := by
  simp only [Reader.extend?, Reader.digit?_digitChar small]

/-- Without a fraction and an exponent a numeral denotes the integer of its
digits. -/
theorem number?_integer
    (negative : Bool)
    {whole : Log Nat}
    {value : Nat}
    {exact : Int}
    (collected : collect 0 whole.toList = (value, whole.toList.length))
    (notMinusZero : (negative && value == 0) = false)
    (isExact : (if negative then -(value : Int) else value) = exact)
    (fits : FitsWord exact) :
    number? ⟨negative, whole, none, none⟩ = some (.integer exact fits) := by
  subst isExact
  simp only [number?, collected, Log.size_eq_length, Nat.sub_self, notMinusZero, bne_self_eq_false,
    Bool.or_self, Bool.false_eq_true, if_false, dif_pos fits]

/-- The text of an integer spells it. -/
theorem spells_intChars (value : Int) (fits : FitsWord value) :
    Spells (Number.intChars value) (.integer value fits) := by
  by_cases zero : value = 0
  · subst zero
    have collected : collect 0 (Log.push ∅ 0).toList = (0, (Log.push ∅ 0).toList.length) := rfl
    exact ⟨_, .zero, _, rfl, rfl, rfl, number?_integer false collected rfl rfl fits⟩
  have below : value.natAbs < significandBound := by
    obtain ⟨low, high⟩ := fits
    simp only [significandBound]
    omega
  obtain ⟨first, rest, written, notZero, small, collected⟩ :=
    exists_digits (Int.natAbs_pos.2 zero) below
  obtain ⟨smallFirst, smallRest⟩ := List.forall_mem_cons.1 small
  have digits (negative : Bool) :
      extendAll? (.whole, ⟨negative, Log.push ∅ first, none, none⟩) (rest.map Nat.digitChar) =
        some (.whole, ⟨negative, (Log.push ∅ first).append rest, none, none⟩) :=
    extendAll?_digits smallRest _
  have whole : ((Log.push ∅ first).append rest).toList = first :: rest := by simp
  rw [← whole] at collected
  by_cases negative : value < 0
  · have denotes := number?_integer true collected (by simpa using zero)
      (show _ = value by simp only [if_true]; omega) fits
    rw [Number.intChars, if_pos negative, written]
    refine ⟨(.minus, ⟨true, ∅, none, none⟩), .whole, _, rfl, ?_, rfl, denotes⟩
    rw [List.map_cons, extendAll?, List.foldlM_cons, extend?_minus notZero smallFirst]
    exact digits true
  · have denotes := number?_integer false collected rfl
      (show _ = value by simp only [Bool.false_eq_true, if_false]; omega) fits
    rw [Number.intChars, if_neg negative, written]
    exact ⟨_, .whole, _, begin?_digit notZero smallFirst, digits false, rfl, denotes⟩

end Numeral

/-! ## Reading a numeral -/

namespace Reader

/-- A numeral begins where a value is expected. -/
theorem step_begin
    {reader : Reader}
    (expects : reader.phase = .value ∨ reader.phase = .itemOrClose)
    {c : Char}
    {begun : NumeralStage × Numeral}
    (begins : Numeral.begin? c = some begun) :
    reader.step c = { reader with phase := .numeral reader.line begun.1 begun.2 } := by
  obtain ⟨line, stack, phase⟩ := reader
  unfold Numeral.begin? at begins
  split at begins
  · rename_i minus
    obtain rfl := Option.some.inj begins
    subst minus
    rcases expects with rfl | rfl <;> rfl
  · cases isDigit : digit? c with
    | none => simp [isDigit] at begins
    | some digit =>
        obtain ⟨small, rfl⟩ := eq_digitChar_of_digit? isDigit
        rw [isDigit] at begins
        rcases expects with rfl | rfl <;> interval_cases digit <;> cases begins <;> rfl

/-- A character that begins no numeral but can stand in one is no value. -/
theorem step_not_begin
    {reader : Reader}
    (expects : reader.phase = .value)
    {c : Char}
    (numeral : isNumeral c = true)
    (notBegin : Numeral.begin? c = none) :
    reader.step c = reader.abandonValue (.broken reader.line reader.line) reader.line := by
  obtain ⟨line, stack, phase⟩ := reader
  subst expects
  rcases isNumeral_cases numeral with ⟨digit, small, rfl⟩ | sign
  · interval_cases digit <;> cases notBegin
  · simp only [List.mem_cons, List.not_mem_nil, or_false] at sign
    rcases sign with rfl | rfl | rfl | rfl
    · cases notBegin
    · rfl
    · rfl
    · rfl

/-- A numeral goes on with a character that extends it. -/
theorem step_extend
    {reader : Reader}
    {start : Nat}
    {stage : NumeralStage}
    {numeral : Numeral}
    (reads : reader.phase = .numeral start stage numeral)
    {c : Char}
    {more : NumeralStage × Numeral}
    (extended : extend? stage numeral c = some more) :
    reader.step c = { reader with phase := .numeral start more.1 more.2 } := by
  simp only [step, reads, extended]

/-- A numeral goes on with characters that extend it. -/
theorem foldl_step_extendAll
    {text : List Char}
    {reader : Reader}
    {start : Nat}
    {read more : NumeralStage × Numeral}
    (reads : reader.phase = .numeral start read.1 read.2)
    (extended : Numeral.extendAll? read text = some more) :
    text.foldl step reader = { reader with phase := .numeral start more.1 more.2 } := by
  induction text generalizing reader read with
  | nil =>
      obtain rfl := Option.some.inj extended
      rw [← reads]
      rfl
  | cons c rest inductionHypothesis =>
      rw [Numeral.extendAll?, List.foldlM_cons] at extended
      obtain ⟨next, isNext, later⟩ := Option.bind_eq_some_iff.1 extended
      rw [List.foldl_cons, step_extend reads isNext]
      exact inductionHypothesis rfl later

/-- A text that spells a number is read to its end as a numeral. -/
theorem foldl_step_spells
    (reader : Reader)
    (expects : reader.phase = .value ∨ reader.phase = .itemOrClose)
    {text : List Char}
    {spelled : Number}
    (spells : Numeral.Spells text spelled) :
    ∃ stage numeral,
      text.foldl step reader = { reader with phase := .numeral reader.line stage numeral } ∧
        stage.isComplete = true ∧ numeral.number? = some spelled := by
  cases text with
  | nil => exact spells.elim
  | cons c rest =>
      obtain ⟨begun, stage, numeral, begins, extended, complete, denotes⟩ := spells
      refine ⟨stage, numeral, ?_, complete, denotes⟩
      rw [List.foldl_cons, step_begin expects begins, foldl_step_extendAll rfl extended]

/-! ## Decimals -/

/-- What has been read to its end stays, and so does a character after it. -/
theorem foldl_step_finished
    {root : Located}
    (text : List Char)
    {reader : Reader}
    {trailing : Option Nat}
    (finished : reader.phase = .finished root trailing) :
    ∃ later, (text.foldl step reader).phase = .finished root later ∧
      (trailing.isSome = true → later.isSome = true) := by
  induction text generalizing reader trailing with
  | nil => exact ⟨trailing, finished, id⟩
  | cons c rest inductionHypothesis =>
      have next : ∃ later, (reader.step c).phase = .finished root later ∧
          (trailing.isSome = true → later.isSome = true) := by
        simp only [step, finished, between]
        split
        · exact ⟨trailing, rfl, id⟩
        · cases trailing with
          | none => simp [stepBetween, finished]
          | some line => simp [stepBetween, finished]
      obtain ⟨later, isLater, kept⟩ := next
      obtain ⟨last, isLast, keptLater⟩ := inductionHypothesis isLater
      exact ⟨last, isLast, fun given => keptLater (kept given)⟩

/-- A reader that has met a fault or a character after its value. -/
def Spoiled (reader : Reader) : Prop :=
  ∃ root trailing, reader.phase = .finished root trailing ∧
    (trailing.isSome = true ∨ ∃ line fault, root = .broken line fault)

/-- What is spoiled stays so. -/
theorem Spoiled.foldl_step
    {reader : Reader}
    (spoiled : reader.Spoiled)
    (text : List Char) :
    (text.foldl step reader).Spoiled := by
  obtain ⟨root, trailing, finished, fault⟩ := spoiled
  obtain ⟨later, isLater, kept⟩ := foldl_step_finished text finished
  exact ⟨root, later, isLater, fault.imp_left kept⟩

/-- A numeral by itself goes on, or a character that does not extend it spoils
the text. -/
theorem foldl_step_numeral
    {text : List Char}
    (numeral : ∀ c ∈ text, isNumeral c = true)
    {line start : Nat}
    (read : NumeralStage × Numeral) :
    (Numeral.extendAll? read text).isSome = true ∨
      (text.foldl step ⟨line, [], .numeral start read.1 read.2⟩).Spoiled := by
  induction text generalizing read with
  | nil => exact .inl rfl
  | cons c rest inductionHypothesis =>
      obtain ⟨first, later⟩ := List.forall_mem_cons.1 numeral
      rw [Numeral.extendAll?, List.foldlM_cons, List.foldl_cons]
      cases extended : extend? read.1 read.2 c with
      | some next =>
          rw [step_extend rfl extended]
          exact inductionHypothesis later next
      | none =>
          refine .inr (Spoiled.foldl_step ?_ rest)
          have noSpace := isSpace_of_isNumeral first
          simp only [step, extended]
          split
          · exact ⟨_, _, rfl, .inr ⟨_, _, rfl⟩⟩
          · cases complete : read.1.isComplete with
            | true =>
                simp only [endNumeral, complete, if_true, deliver, between, noSpace,
                  Bool.false_eq_true, if_false, stepBetween]
                exact ⟨_, _, rfl, .inl rfl⟩
            | false =>
                simp only [endNumeral, complete, Bool.false_eq_true, if_false]
                exact ⟨_, _, rfl, .inr ⟨_, _, rfl⟩⟩

end Reader

namespace Number

/-- A number whose text by itself reads back as the number. -/
def ReadsBack (number : Number) : Prop :=
  parse? (String.ofList number.chars) = some (.number number)

instance (number : Number) : Decidable number.ReadsBack :=
  inferInstanceAs (Decidable (_ = _))

/-- A text that spoils its reader is no value. -/
theorem parse?_of_spoiled
    {text : List Char}
    (spoiled : (text.foldl Reader.step Reader.start).Spoiled) :
    parse? (String.ofList text) = none := by
  obtain ⟨root, trailing, finished, fault⟩ := spoiled
  have document : Document.read text = ⟨root, trailing⟩ := by
    simp only [Document.read, Reader.document, finished]
  simp only [parse?, Decoder.decode?, Decoder.decodeText, String.toList_ofList, document]
  rcases fault with given | ⟨line, fault, rfl⟩
  · obtain ⟨line, rfl⟩ := Option.isSome_iff_exists.1 given
    cases Decoder.value maxDepth root <;> rfl
  · rfl

/-- A text of digits and signs that reads back as a number spells it. -/
theorem spells_of_parse?
    {text : List Char}
    {spelled : Number}
    (numeral : ∀ c ∈ text, isNumeral c = true)
    (reads : parse? (String.ofList text) = some (.number spelled)) :
    Numeral.Spells text spelled := by
  cases text with
  | nil => cases reads
  | cons c rest =>
      obtain ⟨first, later⟩ := List.forall_mem_cons.1 numeral
      cases begins : Numeral.begin? c with
      | none =>
          have spoiled : ((c :: rest).foldl Reader.step Reader.start).Spoiled := by
            rw [List.foldl_cons, Reader.step_not_begin rfl first begins]
            exact Reader.Spoiled.foldl_step ⟨_, _, rfl, .inr ⟨_, _, rfl⟩⟩ rest
          rw [parse?_of_spoiled spoiled] at reads
          cases reads
      | some begun =>
          have afterFirst : Reader.start.step c = ⟨1, [], .numeral 1 begun.1 begun.2⟩ :=
            Reader.step_begin (.inl rfl) begins
          rcases Reader.foldl_step_numeral later begun with goesOn | spoiled
          · obtain ⟨⟨stage, numeral⟩, extended⟩ := Option.isSome_iff_exists.1 goesOn
            have state : (c :: rest).foldl Reader.step Reader.start =
                ⟨1, [], .numeral 1 stage numeral⟩ := by
              rw [List.foldl_cons, afterFirst, Reader.foldl_step_extendAll rfl extended]
            refine ⟨begun, stage, numeral, begins, extended, ?_⟩
            simp only [parse?, Decoder.decode?, Decoder.decodeText, String.toList_ofList,
              Document.read, state] at reads
            cases complete : stage.isComplete with
            | false =>
                simp only [Reader.document, Reader.endNumeral, complete, Bool.false_eq_true,
                  if_false] at reads
                cases reads
            | true =>
                refine ⟨rfl, ?_⟩
                simp only [Reader.document, Reader.endNumeral, complete, if_true,
                  Reader.deliver] at reads
                cases denotes : numeral.number? with
                | none =>
                    rw [denotes] at reads
                    cases reads
                | some n =>
                    rw [denotes] at reads
                    injection reads with reads
                    injection reads with reads
                    rw [reads]
          · rw [parse?_of_spoiled (by rwa [List.foldl_cons, afterFirst])] at reads
            cases reads

/-! ## The characters of a number -/

/-- The digits of a natural number are numerals. -/
theorem isNumeral_of_mem_natChars {n : Nat} {c : Char} (member : c ∈ natChars n) :
    isNumeral c = true := by
  have isDigit : c.isDigit = true := Nat.isDigit_of_mem_toDigits (by decide) (by decide) member
  rw [Char.isDigit, Bool.and_eq_true, decide_eq_true_iff, decide_eq_true_iff] at isDigit
  have bounds : '0' ≤ c ∧ c ≤ '9' := isDigit
  simp [isNumeral, digit?, bounds]

theorem isNumeral_of_mem_intChars {n : Int} {c : Char} (member : c ∈ intChars n) :
    isNumeral c = true := by
  unfold intChars at member
  split at member
  · rcases List.mem_cons.1 member with rfl | digit
    · rfl
    · exact isNumeral_of_mem_natChars digit
  · exact isNumeral_of_mem_natChars member

/-- The digits that stand for a double are digits. -/
theorem lt_of_mem_shortest {value : Ieee.Double} {digit : Nat}
    (member : digit ∈ value.shortest.digits) : digit < 10 := by
  have significand (n : Nat) (exponent : Int) :
      ∀ digit ∈ (Ieee.Decimal.ofSignificand n exponent).digits, digit < 10 := by
    intro digit member
    simp only [Ieee.Decimal.ofSignificand, Ieee.Decimal.dropTrailingZeros, List.mem_reverse]
      at member
    have kept := (List.dropWhile_sublist _).mem member
    rw [List.mem_reverse, Ieee.decimalDigits, List.mem_map] at kept
    obtain ⟨c, isChar, rfl⟩ := kept
    have isDigit : c.isDigit = true := Nat.isDigit_of_mem_toDigits (by decide) (by decide) isChar
    rw [Char.isDigit, Bool.and_eq_true, decide_eq_true_iff, decide_eq_true_iff] at isDigit
    have high : c.toNat ≤ 57 := isDigit.2
    have zero : '0'.toNat = 48 := rfl
    omega
  have searched (interval : Ieee.RoundingInterval) (leading : Int) (fuel digits : Nat) :
      ∀ decimal ∈ interval.search leading fuel digits, ∀ digit ∈ decimal.digits, digit < 10 := by
    induction fuel generalizing digits with
    | zero => simp [Ieee.RoundingInterval.search]
    | succ fuel inductionHypothesis =>
        rw [Ieee.RoundingInterval.search]
        intro decimal found
        split at found
        · obtain rfl := Option.some.inj found
          exact significand _ _
        · exact inductionHypothesis _ decimal found
  unfold Ieee.Double.shortest at member
  simp only at member
  cases found : Ieee.RoundingInterval.search
      (.ofBits (value.bits.toNat % Ieee.Format.double.signBit))
      (Ieee.RoundingInterval.ofBits
        (value.bits.toNat % Ieee.Format.double.signBit)).leadingExponent 17 1 with
  | none =>
      rw [found] at member
      obtain rfl := List.mem_singleton.1 member
      decide
  | some decimal =>
      rw [found] at member
      exact searched _ _ _ _ decimal found digit member

/-- The text of a decimal consists of digits and signs. -/
theorem isNumeral_of_mem_decimalChars
    {style : DecimalStyle}
    {decimal : Ieee.Decimal}
    (small : ∀ digit ∈ decimal.digits, digit < 10)
    {c : Char}
    (member : c ∈ decimalChars style decimal) :
    isNumeral c = true := by
  have digits : ∀ c ∈ decimal.digits.map digitChar, isNumeral c = true := by
    intro c member
    obtain ⟨digit, isDigit, rfl⟩ := List.mem_map.1 member
    have each : ∀ d : Fin 10, isNumeral (digitChar d) = true := by decide
    exact each ⟨digit, small digit isDigit⟩
  have taken (count : Nat) : ∀ c ∈ (decimal.digits.map digitChar).take count,
      isNumeral c = true := fun c member => digits c (List.mem_of_mem_take member)
  have dropped (count : Nat) : ∀ c ∈ (decimal.digits.map digitChar).drop count,
      isNumeral c = true := fun c member => digits c (List.mem_of_mem_drop member)
  have zeros (count : Nat) : ∀ c ∈ List.replicate count '0', isNumeral c = true :=
    fun c member => List.eq_of_mem_replicate member ▸ rfl
  suffices all : ∀ c ∈ decimalChars style decimal, isNumeral c = true from all c member
  simp only [decimalChars]
  split
  · split
    · refine List.forall_mem_append.2
        ⟨List.forall_mem_append.2 ⟨taken _, zeros _⟩, List.forall_mem_cons.2 ⟨rfl, ?_⟩⟩
      split
      · exact List.forall_mem_singleton.2 rfl
      · exact dropped _
    · exact List.forall_mem_cons.2 ⟨rfl, List.forall_mem_cons.2
        ⟨rfl, List.forall_mem_append.2 ⟨zeros _, digits⟩⟩⟩
  · have point : ∀ c ∈ (if ((decimal.digits.map digitChar).drop 1).isEmpty then []
        else '.' :: (decimal.digits.map digitChar).drop 1), isNumeral c = true := by
      split
      · exact List.forall_mem_nil _
      · exact List.forall_mem_cons.2 ⟨rfl, dropped 1⟩
    have sign : ∀ c ∈ (if 0 < decimal.exponent then ['+'] else []), isNumeral c = true := by
      split
      · exact List.forall_mem_singleton.2 rfl
      · exact List.forall_mem_nil _
    exact List.forall_mem_append.2 ⟨List.forall_mem_append.2 ⟨taken 1, point⟩,
      List.forall_mem_cons.2 ⟨rfl, List.forall_mem_append.2
        ⟨sign, fun _ => isNumeral_of_mem_intChars⟩⟩⟩

/-- The text of a number consists of digits and signs. -/
theorem isNumeral_of_mem_chars {number : Number} {c : Char} (member : c ∈ number.chars) :
    isNumeral c = true := by
  cases number with
  | integer value fits => exact isNumeral_of_mem_intChars member
  | decimal value finite =>
      have magnitude : ∀ c ∈ (if value.isZero then ['0', '.', '0']
          else decimalChars decimalStyle value.shortest), isNumeral c = true := by
        split
        · exact List.all_eq_true.1 rfl
        · exact fun c member =>
            isNumeral_of_mem_decimalChars (fun _ => lt_of_mem_shortest) member
      simp only [chars, doubleChars] at member
      split at member
      · rcases List.mem_cons.1 member with rfl | inside
        · rfl
        · exact magnitude c inside
      · exact magnitude c member

/-- The text of a number spells it, if it is an integer or reads back. -/
theorem spells_chars {number : Number}
    (readsBack : ∀ value finite, number = .decimal value finite → number.ReadsBack) :
    Numeral.Spells number.chars number := by
  cases number with
  | integer value fits => exact Numeral.spells_intChars value fits
  | decimal value finite =>
      exact spells_of_parse? (fun _ => isNumeral_of_mem_chars) (readsBack value finite rfl)

end Number
end Json
end Chronicle
