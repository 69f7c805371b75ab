import Chronicle.Bytes
import Chronicle.Proofs.Dict
import Chronicle.Proofs.LineFile

/-!
# Readers of layouts

A reader takes back what a layout has put down and leaves whatever follows.
From a layout that is cut short it takes nothing: it runs out of bytes, and
finds no other fault before that.  Both laws hold of readers one after the other
if they hold of each, so it is enough to look at the smallest ones.
-/

namespace Chronicle
namespace Bytes

@[simp] theorem length_littleEndian (width n : Nat) : (littleEndian width n).length = width := by
  induction width generalizing n with
  | zero => rfl
  | succ width inductionHypothesis => rw [littleEndian, List.length_cons, inductionHypothesis]

namespace Reader

/-- The bytes of a number have its value, as far as the width goes. -/
theorem value_littleEndian (width n : Nat) :
    value (littleEndian width n) = n % Nat.pow 256 width := by
  induction width generalizing n with
  | zero => exact (Nat.mod_one n).symm
  | succ width inductionHypothesis =>
      have low : (UInt8.ofNat (n % 256)).toNat = n % 256 :=
        UInt8.toNat_ofNat_of_lt' (Nat.mod_lt n (by decide))
      have power : Nat.pow 256 (width + 1) = 256 * Nat.pow 256 width := Nat.mul_comm _ _
      rw [littleEndian, value, List.foldr_cons, low, power, Nat.mod_mul]
      exact congrArg (n % 256 + 256 * ·) (inductionHypothesis (n / 256))

/-! ## The two laws of a reader -/

variable {α β : Type} {reader : Reader α} {layout further : List UInt8} {value : α}

/-- A reader takes a value from its layout, whatever follows, and runs out of
bytes on every layout that is cut short. -/
structure Reads (reader : Reader α) (layout : List UInt8) (value : α) : Prop where
  whole : ∀ rest, reader (layout ++ rest) = .ok (value, rest)
  cut : ∀ kept lost, lost ≠ [] → kept ++ lost = layout → reader kept = .error .tooShort

namespace Reads

/-- Nothing is read from nothing. -/
theorem pure (value : α) : Reads (Pure.pure value) [] value where
  whole _ := rfl
  cut _ _ missing whole := absurd (List.append_eq_nil_iff.1 whole).2 missing

/-- What is read by one reader after another. -/
theorem bind
    {next : α → Reader β}
    {result : β}
    (first : reader.Reads layout value)
    (second : (next value).Reads further result) :
    Reads (reader >>= next) (layout ++ further) result where
  whole rest := by
    have taken := first.whole (further ++ rest)
    have continued := second.whole rest
    rw [List.append_assoc]
    simp only [Bind.bind, StateT.bind, Except.bind, taken, continued]
  cut kept lost missing whole := by
    rcases List.append_eq_append_iff.1 whole with
      ⟨tail, isLayout, isLost⟩ | ⟨tail, isKept, isFurther⟩
    · cases tail with
      | nil =>
          rw [List.append_nil] at isLayout
          rw [List.nil_append] at isLost
          have taken := first.whole []
          have short := second.cut [] further (isLost ▸ missing) rfl
          rw [List.append_nil] at taken
          simp only [← isLayout, Bind.bind, StateT.bind, Except.bind, taken, short]
      | cons byte tail =>
          have short := first.cut kept (byte :: tail) (List.cons_ne_nil _ _) isLayout.symm
          simp only [Bind.bind, StateT.bind, Except.bind, short]
    · have taken := first.whole tail
      have short := second.cut tail lost missing isFurther.symm
      simp only [isKept, Bind.bind, StateT.bind, Except.bind, taken, short]

/-- What is made, without reading on, of a value that is read last. -/
theorem last
    {next : α → Reader β}
    {result : β}
    (first : reader.Reads layout value)
    (second : (next value).Reads [] result) :
    Reads (reader >>= next) layout result := by
  have both := first.bind second
  rwa [List.append_nil] at both

theorem map (first : reader.Reads layout value) (f : α → β) :
    Reads (f <$> reader) layout (f value) := by
  rw [map_eq_pure_bind]
  exact first.last (.pure (f value))

/-- A layout that is a beginning of another one has the same value. -/
theorem eq_of_begins
    {other : α}
    {longer : List UInt8}
    (reads : reader.Reads layout value)
    (readsLonger : reader.Reads longer other)
    (begins : layout <+: longer) :
    value = other := by
  obtain ⟨rest, rfl⟩ := begins
  have same := readsLonger.whole []
  rw [List.append_nil, reads.whole rest] at same
  exact congrArg Prod.fst (Except.ok.inj same)

end Reads

/-! ## The readers -/

theorem take_reads (bytes : List UInt8) : (take bytes.length).Reads bytes bytes where
  whole rest := by simp [take]
  cut kept lost missing whole := by
    have fewer : kept.length < bytes.length := by
      rw [← whole, List.length_append]
      have := List.length_pos_iff.2 missing
      omega
    simp only [take, List.length_take]
    rw [if_neg (by omega)]

theorem number_reads {width n : Nat} (fits : n < Nat.pow 256 width) :
    (number width).Reads (littleEndian width n) n := by
  have taken := take_reads (littleEndian width n)
  rw [length_littleEndian] at taken
  have read := taken.map Reader.value
  rwa [value_littleEndian, Nat.mod_eq_of_lt fits] at read

theorem word32_reads (n : UInt32) : word32.Reads (Bytes.word32 n) n := by
  have read : (number 4).Reads (Bytes.word32 n) n.toNat := number_reads n.toNat_lt
  have word := read.map UInt32.ofNat
  rwa [UInt32.ofNat_toNat] at word

theorem word64_reads (n : UInt64) : word64.Reads (Bytes.word64 n) n := by
  have read : (number 8).Reads (Bytes.word64 n) n.toNat := number_reads n.toNat_lt
  have word := read.map UInt64.ofNat
  rwa [UInt64.ofNat_toNat] at word

/-- A number of entries that 64 bits can hold is read back. -/
theorem count_reads {n : Nat} (fits : n < UInt64.size) : (number 8).Reads (count n) n :=
  number_reads fits

/-- A byte is read as its number. -/
theorem byte_reads (byte : UInt8) : (number 1).Reads [byte] byte.toNat := by
  have read : (number 1).Reads (littleEndian 1 byte.toNat) byte.toNat :=
    number_reads byte.toNat_lt
  have same : littleEndian 1 byte.toNat = [byte] := by
    rw [littleEndian, littleEndian, Nat.mod_eq_of_lt byte.toNat_lt, UInt8.ofNat_toNat]
  rwa [same] at read

theorem text_reads {text : String} (fits : text.utf8ByteSize < UInt64.size) :
    Reader.text.Reads (Bytes.text text) text := by
  refine (count_reads fits).bind ((take_reads (utf8 text)).last ?_)
  rw [fromUTF8?_utf8]
  exact .pure text

theorem bool_reads (b : Bool) : Reader.bool.Reads (Bytes.bool b) b := by
  cases b with
  | false => exact (byte_reads 0).last (.pure false)
  | true => exact (byte_reads 1).last (.pure true)

theorem option_reads
    {layout : α → List UInt8}
    {value : Option α}
    (reads : ∀ content ∈ value, reader.Reads (layout content) content) :
    (option reader).Reads (Bytes.option layout value) value := by
  cases value with
  | none => exact (byte_reads 0).last (.pure none)
  | some content => exact (byte_reads 1).bind ((reads content rfl).map some)

theorem repeated_reads
    {layout : α → List UInt8}
    {values : List α}
    (reads : ∀ value ∈ values, reader.Reads (layout value) value) :
    Reads (repeated reader values.length) (values.flatMap layout) values := by
  induction values with
  | nil => exact .pure []
  | cons first rest inductionHypothesis =>
      obtain ⟨readsFirst, readsRest⟩ := List.forall_mem_cons.1 reads
      rw [List.flatMap_cons]
      exact readsFirst.bind ((inductionHypothesis readsRest).last (.pure (first :: rest)))

theorem list_reads
    {layout : α → List UInt8}
    {values : List α}
    (fits : values.length < UInt64.size)
    (reads : ∀ value ∈ values, reader.Reads (layout value) value) :
    (list reader).Reads (Bytes.list layout values) values :=
  (count_reads fits).bind (repeated_reads reads)

theorem pair_reads
    {other : Reader β}
    {left : α → List UInt8}
    {right : β → List UInt8}
    {value : α × β}
    (first : reader.Reads (left value.1) value.1)
    (second : other.Reads (right value.2) value.2) :
    (pair reader other).Reads (Bytes.pair left right value) value :=
  first.bind (second.last (.pure value))

theorem dict_reads
    {κ : Type}
    [Ord κ] [Std.TransOrd κ] [Std.LawfulEqOrd κ]
    {keyReader : Reader κ}
    {key : κ → List UInt8}
    {layout : α → List UInt8}
    {d : Dict κ α}
    (fits : d.size < UInt64.size)
    (keys : ∀ entry ∈ d.entries, keyReader.Reads (key entry.1) entry.1)
    (values : ∀ entry ∈ d.entries, reader.Reads (layout entry.2) entry.2) :
    (dict keyReader reader).Reads (Bytes.dict key layout d) d := by
  have entries := (list_reads fits fun entry member =>
    pair_reads (keys entry member) (values entry member)).map Dict.ofList
  have same : Dict.ofList d.entries = d := Dict.ext (Dict.entries_ofList d.ascending)
  rwa [same] at entries

end Reader
end Bytes
end Chronicle
