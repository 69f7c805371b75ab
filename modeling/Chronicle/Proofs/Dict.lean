import Chronicle.Dict
import Mathlib.Data.List.Sort

/-!
# Looking up dictionaries

What a dictionary holds under a key after each operation, and how its entries
change.  An entry is in a dictionary exactly when its value is found under its
key.
-/

namespace Chronicle
namespace Dict

variable {κ : Type u} {α : Type v} [Ord κ]

/-- The comparison of two keys decides their equality. -/
theorem compare_beq_eq [Std.LawfulEqOrd κ] {key other : κ} :
    (compare key other == .eq) = true ↔ key = other := by
  rw [beq_iff_eq]
  exact Std.LawfulEqCmp.compare_eq_iff_eq

/-! ## Entries of a list in key order -/

/-- In ascending order no two entries have one key. -/
theorem eq_of_key_eq [Std.LawfulEqOrd κ] {entries : List (κ × α)} (ascending : Ascending entries)
    {first second : κ × α} (here : first ∈ entries) (there : second ∈ entries)
    (same : first.1 = second.1) : first = second := by
  have below {a b : κ × α} (less : compare a.1 b.1 = .lt) : a.1 ≠ b.1 := by
    intro equal
    have reflexive : compare b.1 b.1 = .eq := Std.ReflCmp.compare_self
    rw [equal, reflexive] at less
    exact Ordering.noConfusion less
  have separated := List.Pairwise.forall_of_forall_of_flip
    (R := fun a b : κ × α => a.1 = b.1 → a = b) (l := entries) (fun _ _ _ => rfl)
    (ascending.imp fun less equal => absurd equal (below less))
    (ascending.imp fun less equal => absurd equal.symm (below less))
  exact separated here there same

/-- An inserted entry is in the list. -/
theorem self_mem_insertEntry (key : κ) (value : α) (entries : List (κ × α)) :
    (key, value) ∈ insertEntry key value entries := by
  induction entries with
  | nil => exact List.mem_singleton_self _
  | cons head rest inductionHypothesis =>
      obtain ⟨k, v⟩ := head
      simp only [insertEntry]
      split
      · exact List.mem_cons_self
      · exact List.mem_cons_self
      · exact List.mem_cons_of_mem _ inductionHypothesis

/-- Entries of other keys stay in the list. -/
theorem mem_insertEntry_of_ne [Std.LawfulEqOrd κ] {key : κ} (value : α)
    {entries : List (κ × α)} {entry : κ × α}
    (member : entry ∈ entries) (different : entry.1 ≠ key) :
    entry ∈ insertEntry key value entries := by
  induction entries with
  | nil => exact absurd member List.not_mem_nil
  | cons head rest inductionHypothesis =>
      obtain ⟨k, v⟩ := head
      simp only [insertEntry]
      split
      · exact List.mem_cons_of_mem _ member
      · rename_i same
        obtain rfl : key = k := Std.LawfulEqOrd.eq_of_compare same
        rcases List.mem_cons.1 member with rfl | later
        · exact absurd rfl different
        · exact List.mem_cons_of_mem _ later
      · rcases List.mem_cons.1 member with rfl | later
        · exact List.mem_cons_self
        · exact List.mem_cons_of_mem _ (inductionHypothesis later)

/-- An entry whose key lies above all others is put at the end. -/
theorem insertEntry_of_above [Std.TransOrd κ] {key : κ} (value : α) {entries : List (κ × α)}
    (above : ∀ entry ∈ entries, compare entry.1 key = .lt) :
    insertEntry key value entries = entries ++ [(key, value)] := by
  induction entries with
  | nil => rfl
  | cons head rest inductionHypothesis =>
      obtain ⟨k, v⟩ := head
      have greater : compare key k = .gt :=
        Std.OrientedCmp.gt_of_lt (above (k, v) List.mem_cons_self)
      simp only [insertEntry, greater, List.cons_append]
      rw [inductionHypothesis fun entry member => above entry (List.mem_cons_of_mem _ member)]

/-- An entry of a new key is added to the others. -/
theorem insertEntry_perm [Std.LawfulEqOrd κ] {key : κ} (value : α) {entries : List (κ × α)}
    (fresh : ∀ entry ∈ entries, entry.1 ≠ key) :
    (insertEntry key value entries).Perm ((key, value) :: entries) := by
  induction entries with
  | nil => exact List.Perm.refl _
  | cons head rest inductionHypothesis =>
      obtain ⟨k, v⟩ := head
      simp only [insertEntry]
      split
      · exact List.Perm.refl _
      · rename_i same
        exact absurd (Std.LawfulEqOrd.eq_of_compare same).symm (fresh (k, v) List.mem_cons_self)
      · have tail := inductionHypothesis fun entry member =>
          fresh entry (List.mem_cons_of_mem _ member)
        exact (tail.cons (k, v)).trans (List.Perm.swap _ _ _)

/-- An entry of a key that is there takes the place of the entry that was. -/
theorem exists_insertEntry [Std.TransOrd κ] [Std.LawfulEqOrd κ] {key : κ} {old : α}
    {entries : List (κ × α)} (ascending : Ascending entries)
    (member : (key, old) ∈ entries) (value : α) :
    ∃ before after, entries = before ++ (key, old) :: after ∧
      insertEntry key value entries = before ++ (key, value) :: after := by
  induction entries with
  | nil => exact absurd member List.not_mem_nil
  | cons head rest inductionHypothesis =>
      obtain ⟨above, tail⟩ := List.pairwise_cons.1 ascending
      rcases List.mem_cons.1 member with rfl | later
      · exact ⟨[], rest, rfl, by simp [insertEntry]⟩
      · obtain ⟨before, after, isRest, inserted⟩ := inductionHypothesis tail later
        have greater : compare key head.1 = .gt := Std.OrientedCmp.gt_of_lt (above _ later)
        exact ⟨head :: before, after, by rw [isRest, List.cons_append],
          by simp [insertEntry, greater, inserted]⟩

/-! ## Values under keys -/

/-- A value is found under a key exactly when they form an entry. -/
theorem get?_eq_some_iff [Std.LawfulEqOrd κ] {d : Dict κ α} {key : κ} {value : α} :
    d.get? key = some value ↔ (key, value) ∈ d.entries := by
  simp only [get?, Option.map_eq_some_iff]
  constructor
  · rintro ⟨⟨k, v⟩, found, rfl⟩
    obtain rfl : k = key := compare_beq_eq.1 (List.find?_some (p := fun entry : κ × α =>
      compare entry.1 key == .eq) found)
    exact List.mem_of_find?_eq_some found
  · intro member
    have present : (d.entries.find? fun entry => compare entry.1 key == .eq).isSome :=
      List.find?_isSome.2 ⟨(key, value), member, compare_beq_eq.2 rfl⟩
    obtain ⟨entry, found⟩ := Option.isSome_iff_exists.1 present
    have same : entry.1 = key := compare_beq_eq.1 (List.find?_some (p := fun entry : κ × α =>
      compare entry.1 key == .eq) found)
    refine ⟨entry, found, ?_⟩
    rw [eq_of_key_eq d.ascending (List.mem_of_find?_eq_some found) member same]

/-- Nothing is found under a key exactly when no entry has it. -/
theorem get?_eq_none_iff [Std.LawfulEqOrd κ] {d : Dict κ α} {key : κ} :
    d.get? key = none ↔ ∀ entry ∈ d.entries, entry.1 ≠ key := by
  simp only [get?, Option.map_eq_none_iff, List.find?_eq_none, compare_beq_eq, ne_eq]

/-- A dictionary contains the keys of its entries. -/
theorem contains_iff [Std.LawfulEqOrd κ] {d : Dict κ α} {key : κ} :
    d.contains key = true ↔ ∃ value, (key, value) ∈ d.entries := by
  simp only [contains, Option.isSome_iff_exists, get?_eq_some_iff]

/-- The empty dictionary contains no key. -/
@[simp] theorem contains_empty (key : κ) : (∅ : Dict κ α).contains key = false := rfl

/-- The entries after an insertion: the new one, and those of other keys. -/
theorem mem_entries_insert [Std.TransOrd κ] [Std.LawfulEqOrd κ] {d : Dict κ α} {key : κ}
    {value : α} {entry : κ × α} :
    entry ∈ (d.insert key value).entries ↔
      entry = (key, value) ∨ entry ∈ d.entries ∧ entry.1 ≠ key := by
  constructor
  · intro member
    by_cases same : entry.1 = key
    · exact .inl (eq_of_key_eq (d.insert key value).ascending member
        (self_mem_insertEntry key value d.entries) same)
    · exact (mem_insertEntry member).imp_right fun older => ⟨older, same⟩
  · rintro (rfl | ⟨older, different⟩)
    · exact self_mem_insertEntry key value d.entries
    · exact mem_insertEntry_of_ne value older different

/-- Dictionaries with the same entries are the same. -/
theorem ext_mem [Std.TransOrd κ] [Std.LawfulEqOrd κ] {first second : Dict κ α}
    (same : ∀ entry, entry ∈ first.entries ↔ entry ∈ second.entries) : first = second := by
  have : Std.Irrefl fun a b : κ × α => compare a.1 b.1 = .lt := ⟨fun entry less => by
    have reflexive : compare entry.1 entry.1 = .eq := Std.ReflCmp.compare_self
    rw [reflexive] at less
    exact Ordering.noConfusion less⟩
  have : Std.Antisymm fun a b : κ × α => compare a.1 b.1 = .lt := ⟨fun a b less greater => by
    rw [Std.OrientedCmp.gt_of_lt less] at greater
    exact Ordering.noConfusion greater⟩
  exact ext (first.ascending.eq_of_mem_iff second.ascending same)

/-- Insertions under different keys can be made in either order. -/
theorem insert_comm [Std.TransOrd κ] [Std.LawfulEqOrd κ] (d : Dict κ α) {key other : κ}
    (value another : α) (different : key ≠ other) :
    (d.insert key value).insert other another = (d.insert other another).insert key value := by
  refine ext_mem fun entry => ?_
  simp only [mem_entries_insert]
  constructor
  · rintro (rfl | ⟨rfl | ⟨older, notKey⟩, notOther⟩)
    · exact .inr ⟨.inl rfl, different.symm⟩
    · exact .inl rfl
    · exact .inr ⟨.inr ⟨older, notOther⟩, notKey⟩
  · rintro (rfl | ⟨rfl | ⟨older, notOther⟩, notKey⟩)
    · exact .inr ⟨.inl rfl, different⟩
    · exact .inl rfl
    · exact .inr ⟨.inr ⟨older, notKey⟩, notOther⟩

/-- The value just put under a key is found there. -/
@[simp] theorem get?_insert_self [Std.TransOrd κ] [Std.LawfulEqOrd κ] (d : Dict κ α) (key : κ)
    (value : α) :
    (d.insert key value).get? key = some value :=
  get?_eq_some_iff.2 (mem_entries_insert.2 (.inl rfl))

/-- An insertion under a key that has a value changes that entry alone. -/
theorem entries_insert_of_get? [Std.TransOrd κ] [Std.LawfulEqOrd κ] {d : Dict κ α} {key : κ}
    {old : α} (found : d.get? key = some old) (value : α) :
    ∃ before after, d.entries = before ++ (key, old) :: after ∧
      (d.insert key value).entries = before ++ (key, value) :: after :=
  exists_insertEntry d.ascending (get?_eq_some_iff.1 found) value

/-- An insertion changes nothing under other keys. -/
theorem get?_insert_of_ne [Std.TransOrd κ] [Std.LawfulEqOrd κ] (d : Dict κ α) {key other : κ}
    (value : α) (different : other ≠ key) :
    (d.insert key value).get? other = d.get? other := by
  ext found
  rw [get?_eq_some_iff, get?_eq_some_iff, mem_entries_insert]
  constructor
  · rintro (same | ⟨older, _⟩)
    · exact absurd (congrArg Prod.fst same) different
    · exact older
  · exact fun older => .inr ⟨older, different⟩

/-- An insertion adds its key to those that are contained. -/
theorem contains_insert [Std.TransOrd κ] [Std.LawfulEqOrd κ] [DecidableEq κ] (d : Dict κ α)
    (key other : κ) (value : α) :
    (d.insert key value).contains other = (decide (other = key) || d.contains other) := by
  by_cases same : other = key
  · subst same
    simp [contains]
  · simp [contains, get?_insert_of_ne d value same, same]

/-- An insertion under a key that is contained adds none. -/
theorem contains_insert_of_contains [Std.TransOrd κ] [Std.LawfulEqOrd κ] {d : Dict κ α} {key : κ}
    (there : d.contains key = true) (value : α) (other : κ) :
    (d.insert key value).contains other = d.contains other := by
  classical
  by_cases same : other = key
  · rw [contains_insert, same, there, Bool.or_true]
  · rw [contains_insert, decide_eq_false same, Bool.false_or]

/-- The entries that a filter keeps. -/
theorem mem_entries_filter {d : Dict κ α} {keep : κ × α → Bool} {entry : κ × α} :
    entry ∈ (d.filter keep).entries ↔ entry ∈ d.entries ∧ keep entry = true :=
  List.mem_filter

/-- The entries that are left when a key is removed. -/
theorem mem_entries_erase [Std.LawfulEqOrd κ] {d : Dict κ α} {key : κ} {entry : κ × α} :
    entry ∈ (d.erase key).entries ↔ entry ∈ d.entries ∧ entry.1 ≠ key := by
  rw [erase, mem_entries_filter]
  apply and_congr_right
  intro _
  rw [bne_iff_ne, ne_eq, Std.LawfulEqCmp.compare_eq_iff_eq]

/-- A removal changes nothing under other keys. -/
theorem get?_erase_of_ne [Std.LawfulEqOrd κ] (d : Dict κ α) {key other : κ}
    (different : other ≠ key) :
    (d.erase key).get? other = d.get? other := by
  ext value
  rw [get?_eq_some_iff, get?_eq_some_iff, mem_entries_erase]
  exact and_iff_left different

/-- A removal takes its key from those that are contained. -/
theorem contains_erase [Std.LawfulEqOrd κ] [DecidableEq κ] (d : Dict κ α) (key other : κ) :
    (d.erase key).contains other = (!decide (other = key) && d.contains other) := by
  rw [Bool.eq_iff_iff]
  simp only [contains_iff, mem_entries_erase, Bool.and_eq_true, Bool.not_eq_true',
    decide_eq_false_iff_not]
  exact ⟨fun ⟨value, member, different⟩ => ⟨different, value, member⟩,
    fun ⟨different, value, member⟩ => ⟨value, member, different⟩⟩

/-- A dictionary stays as it is if all its values do. -/
theorem map_eq_self {d : Dict κ α} {f : α → α} (same : ∀ entry ∈ d.entries, f entry.2 = entry.2) :
    d.map f = d := by
  refine ext ((List.map_congr_left fun entry member => ?_).trans (List.map_id _))
  rw [same entry member]
  rfl

/-- A map over the values keeps the keys. -/
@[simp] theorem contains_map [Std.LawfulEqOrd κ] (d : Dict κ α) (f : α → β) (key : κ) :
    (d.map f).contains key = d.contains key := by
  rw [Bool.eq_iff_iff]
  simp only [contains_iff, map, List.mem_map, Prod.mk.injEq]
  constructor
  · rintro ⟨_, ⟨k, value⟩, member, rfl, _⟩
    exact ⟨value, member⟩
  · rintro ⟨value, member⟩
    exact ⟨f value, (key, value), member, rfl, rfl⟩

/-- A map over the values is found under the same keys. -/
@[simp] theorem get?_map (d : Dict κ α) (f : α → β) (key : κ) :
    (d.map f).get? key = (d.get? key).map f := by
  simp [get?, map, List.find?_map, Function.comp_def]

/-- No key occurs twice. -/
theorem nodup_keys [Std.LawfulEqOrd κ] (d : Dict κ α) : (d.entries.map (·.1)).Nodup := by
  refine List.pairwise_map.2 (d.ascending.imp fun {first second} below same => ?_)
  have equal : compare first.1 second.1 = .eq := Std.LawfulEqCmp.compare_eq_iff_eq.2 same
  rw [equal] at below
  cases below

/-- An insertion under a new key adds its value. -/
theorem values_insert_perm [Std.TransOrd κ] [Std.LawfulEqOrd κ] {d : Dict κ α} {key : κ}
    (value : α)
    (fresh : ∀ entry ∈ d.entries, entry.1 ≠ key) :
    (d.insert key value).values.Perm (value :: d.values) :=
  List.Perm.map Prod.snd (insertEntry_perm value fresh)

/-- A removal takes out the entry that was found under its key. -/
theorem entries_erase_perm [Std.LawfulEqOrd κ] (d : Dict κ α) (key : κ) :
    ((d.get? key).toList.map (key, ·) ++ (d.erase key).entries).Perm d.entries := by
  cases found : d.get? key with
  | none =>
      have same : (d.erase key).entries = d.entries := by
        refine List.filter_eq_self.2 fun entry member => ?_
        rw [bne_iff_ne, ne_eq, Std.LawfulEqCmp.compare_eq_iff_eq]
        exact get?_eq_none_iff.1 found entry member
      rw [Option.toList_none, List.map_nil, List.nil_append, same]
  | some value =>
      have distinct : d.entries.Nodup := List.Nodup.of_map (·.1) d.nodup_keys
      refine (List.perm_ext_iff_of_nodup ?_ distinct).2 fun entry => ?_
      · refine List.nodup_cons.2 ⟨fun member => ?_, distinct.filter _⟩
        exact (mem_entries_erase.1 member).2 rfl
      · change entry ∈ (key, value) :: (d.erase key).entries ↔ entry ∈ d.entries
        rw [List.mem_cons, mem_entries_erase]
        constructor
        · rintro (rfl | ⟨member, -⟩)
          · exact get?_eq_some_iff.1 found
          · exact member
        · intro member
          by_cases same : entry.1 = key
          · exact .inl (eq_of_key_eq d.ascending member (get?_eq_some_iff.1 found) same)
          · exact .inr ⟨member, same⟩

/-- A removal takes out the value that was found under its key. -/
theorem values_erase_perm [Std.LawfulEqOrd κ] (d : Dict κ α) (key : κ) :
    ((d.get? key).toList ++ (d.erase key).values).Perm d.values := by
  have taken := (d.entries_erase_perm key).map (·.2)
  simpa [values, Function.comp_def] using taken

/-- An insertion replaces the value under its key, if there is one. -/
theorem values_insert_perm_erase [Std.TransOrd κ] [Std.LawfulEqOrd κ] (d : Dict κ α) (key : κ)
    (value : α) :
    (d.insert key value).values.Perm (value :: (d.erase key).values) := by
  have distinct (d : Dict κ α) : d.entries.Nodup := List.Nodup.of_map (·.1) d.nodup_keys
  have replaced : (d.insert key value).entries.Perm ((key, value) :: (d.erase key).entries) := by
    refine (List.perm_ext_iff_of_nodup (distinct _) ?_).2 fun entry => ?_
    · exact List.nodup_cons.2 ⟨fun member => (mem_entries_erase.1 member).2 rfl, distinct _⟩
    · rw [mem_entries_insert, List.mem_cons, mem_entries_erase]
  exact replaced.map (·.2)

/-! ## Dictionaries of lists -/

/-- Inserting the entries of a list in key order one after the other puts them
behind those that are there. -/
theorem entries_foldl_insert [Std.TransOrd κ] [Std.LawfulEqOrd κ] (d : Dict κ α)
    {entries : List (κ × α)}
    (ascending : Ascending (d.entries ++ entries)) :
    (entries.foldl (fun d entry => d.insert entry.1 entry.2) d).entries =
      d.entries ++ entries := by
  induction entries generalizing d with
  | nil => simp
  | cons head rest inductionHypothesis =>
      have above : ∀ entry ∈ d.entries, compare entry.1 head.1 = .lt := fun entry member =>
        (List.pairwise_append.1 ascending).2.2 entry member head List.mem_cons_self
      have inserted : (d.insert head.1 head.2).entries = d.entries ++ [head] :=
        insertEntry_of_above head.2 above
      rw [List.foldl_cons, inductionHypothesis, inserted]
      · simp
      · rw [inserted]
        simpa using ascending

/-- A list in key order is the list of entries of its dictionary. -/
@[simp] theorem entries_ofList [Std.TransOrd κ] [Std.LawfulEqOrd κ] {entries : List (κ × α)}
    (ascending : Ascending entries) :
    (ofList entries).entries = entries := by
  simpa [ofList] using entries_foldl_insert (empty : Dict κ α) (by simpa using ascending)

/-- Inserting the entries of a list, of which no two have one key, adds them to those of
other keys. -/
theorem mem_entries_foldl_insert [Std.TransOrd κ] [Std.LawfulEqOrd κ] {entries : List (κ × α)}
    (distinct : (entries.map (·.1)).Nodup) (d : Dict κ α) {entry : κ × α} :
    entry ∈ (entries.foldl (fun d entry => d.insert entry.1 entry.2) d).entries ↔
      entry ∈ entries ∨ entry ∈ d.entries ∧ entry.1 ∉ entries.map (·.1) := by
  induction entries generalizing d with
  | nil => simp
  | cons head rest inductionHypothesis =>
      obtain ⟨fresh, others⟩ := List.nodup_cons.1 distinct
      rw [List.foldl_cons, inductionHypothesis others, mem_entries_insert, List.mem_cons,
        List.map_cons, List.mem_cons, not_or]
      constructor
      · rintro (later | ⟨rfl | ⟨older, different⟩, notLater⟩)
        · exact .inl (.inr later)
        · exact .inl (.inl rfl)
        · exact .inr ⟨older, different, notLater⟩
      · rintro ((rfl | later) | ⟨older, different, notLater⟩)
        · exact .inr ⟨.inl rfl, fresh⟩
        · exact .inl later
        · exact .inr ⟨.inr ⟨older, different⟩, notLater⟩

/-- The dictionary of a list of which no two entries have one key. -/
theorem mem_entries_ofList [Std.TransOrd κ] [Std.LawfulEqOrd κ] {entries : List (κ × α)}
    (distinct : (entries.map (·.1)).Nodup) {entry : κ × α} :
    entry ∈ (ofList entries).entries ↔ entry ∈ entries := by
  rw [ofList, mem_entries_foldl_insert distinct]
  simp

/-- With distinct keys the order in which entries are inserted does not matter. -/
theorem ofList_eq_of_perm [Std.TransOrd κ] [Std.LawfulEqOrd κ] {entries others : List (κ × α)}
    (distinct : (entries.map (·.1)).Nodup) (same : entries.Perm others) :
    ofList entries = ofList others := by
  refine ext_mem fun entry => ?_
  rw [mem_entries_ofList distinct, mem_entries_ofList ((same.map _).nodup_iff.1 distinct),
    same.mem_iff]

/-- The dictionary of a list with distinct keys has as many entries as the list. -/
theorem size_ofList [Std.TransOrd κ] [Std.LawfulEqOrd κ] {entries : List (κ × α)}
    (distinct : (entries.map (·.1)).Nodup) :
    (ofList entries).size = entries.length := by
  have same : (ofList entries).entries.Perm entries :=
    (List.perm_ext_iff_of_nodup (.of_map _ (nodup_keys _)) (.of_map _ distinct)).2 fun _ =>
      mem_entries_ofList distinct
  exact same.length_eq

/-- A dictionary without entries is the empty one. -/
theorem eq_empty_of_isEmpty {d : Dict κ α} (none : d.isEmpty = true) : d = ∅ :=
  ext (List.isEmpty_iff.1 none)

/-- A dictionary of a list has no entries but those of the list. -/
theorem mem_of_mem_ofList [Std.TransOrd κ] [Std.LawfulEqOrd κ] {entries : List (κ × α)}
    {entry : κ × α}
    (member : entry ∈ (ofList entries).entries) :
    entry ∈ entries := by
  have inserted (others : List (κ × α)) (d : Dict κ α)
      (inside : entry ∈
        (others.foldl (fun d entry => d.insert entry.1 entry.2) d).entries) :
      entry ∈ d.entries ∨ entry ∈ others := by
    induction others generalizing d with
    | nil => exact .inl inside
    | cons head rest inductionHypothesis =>
        rcases inductionHypothesis _ inside with early | late
        · rcases mem_insertEntry early with rfl | older
          · exact .inr List.mem_cons_self
          · exact .inl older
        · exact .inr (List.mem_cons_of_mem _ late)
  exact (inserted entries empty member).resolve_left List.not_mem_nil

end Dict
end Chronicle
