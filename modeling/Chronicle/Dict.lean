/-!
# Ordered dictionaries

A dictionary is its list of entries in strictly ascending key order.  The
order is part of the type, so two dictionaries with the same entries are equal
and every traversal is in key order.
-/

namespace Chronicle

/-- Entries in strictly ascending key order. -/
def Ascending [Ord κ] (entries : List (κ × α)) : Prop :=
  entries.Pairwise fun a b => compare a.1 b.1 = .lt

/-- A finite map with its entries in strictly ascending key order. -/
structure Dict (κ : Type u) [Ord κ] (α : Type v) where
  entries : List (κ × α)
  ascending : Ascending entries

namespace Dict

section Entries

variable {κ : Type u} {α : Type v} [Ord κ]

/-- Puts an entry into a list in ascending key order; an entry of the same key
gives way. -/
def insertEntry (key : κ) (value : α) : List (κ × α) → List (κ × α)
  | [] => [(key, value)]
  | (k, v) :: rest =>
      match compare key k with
      | .lt => (key, value) :: (k, v) :: rest
      | .eq => (key, value) :: rest
      | .gt => (k, v) :: insertEntry key value rest

/-- The keys of a list after an insertion. -/
theorem mem_insertEntry {key : κ} {value : α} {entries : List (κ × α)} {entry : κ × α}
    (member : entry ∈ insertEntry key value entries) :
    entry = (key, value) ∨ entry ∈ entries := by
  induction entries with
  | nil => simpa [insertEntry] using member
  | cons head rest inductionHypothesis =>
      obtain ⟨k, v⟩ := head
      simp only [insertEntry] at member
      split at member
      · simpa using member
      · rcases List.mem_cons.1 member with same | tail
        · exact .inl same
        · exact .inr (List.mem_cons_of_mem _ tail)
      · rcases List.mem_cons.1 member with same | tail
        · exact .inr (same ▸ List.mem_cons_self)
        · exact (inductionHypothesis tail).imp_right (List.mem_cons_of_mem _)

/-- An insertion keeps the keys ascending. -/
theorem ascending_insertEntry [Std.TransOrd κ] [Std.LawfulEqOrd κ]
    (key : κ) (value : α) {entries : List (κ × α)} (ascending : Ascending entries) :
    Ascending (insertEntry key value entries) := by
  induction entries with
  | nil => simp [insertEntry, Ascending]
  | cons head rest inductionHypothesis =>
      obtain ⟨k, v⟩ := head
      obtain ⟨above, tail⟩ := List.pairwise_cons.1 ascending
      simp only [insertEntry]
      split
      · rename_i below
        refine List.pairwise_cons.2 ⟨fun entry member => ?_, ascending⟩
        rcases List.mem_cons.1 member with rfl | later
        · exact below
        · exact Std.TransCmp.lt_trans below (above entry later)
      · rename_i same
        obtain rfl : key = k := Std.LawfulEqOrd.eq_of_compare same
        exact List.pairwise_cons.2 ⟨above, tail⟩
      · rename_i greater
        refine List.pairwise_cons.2 ⟨fun entry member => ?_, inductionHypothesis tail⟩
        rcases mem_insertEntry member with rfl | older
        · exact Std.OrientedCmp.lt_of_gt greater
        · exact above entry older

end Entries

variable {κ : Type u} {α : Type v} [Ord κ]

@[ext]
theorem ext {a b : Dict κ α} (same : a.entries = b.entries) : a = b := by
  cases a
  cases b
  cases same
  rfl

instance [DecidableEq κ] [DecidableEq α] : DecidableEq (Dict κ α) := fun a b =>
  decidable_of_iff (a.entries = b.entries) ⟨ext, fun same => same ▸ rfl⟩

/-- The dictionary without entries. -/
def empty : Dict κ α := ⟨[], .nil⟩

instance : EmptyCollection (Dict κ α) := ⟨empty⟩
instance : Inhabited (Dict κ α) := ⟨empty⟩

/-- The number of entries. -/
def size (d : Dict κ α) : Nat := d.entries.length

/-- Whether there is no entry. -/
def isEmpty (d : Dict κ α) : Bool := d.entries.isEmpty

/-- The keys in ascending order. -/
def keys (d : Dict κ α) : List κ := d.entries.map (·.1)

/-- The values in ascending key order. -/
def values (d : Dict κ α) : List α := d.entries.map (·.2)

/-- The value under a key. -/
def get? (d : Dict κ α) (key : κ) : Option α :=
  (d.entries.find? fun entry => compare entry.1 key == .eq).map (·.2)

/-- Whether a key has a value. -/
def contains (d : Dict κ α) (key : κ) : Bool := (d.get? key).isSome

/-- Puts a value under a key, in place of the one that was there. -/
def insert [Std.TransOrd κ] [Std.LawfulEqOrd κ] (d : Dict κ α) (key : κ) (value : α) : Dict κ α :=
  ⟨insertEntry key value d.entries, ascending_insertEntry key value d.ascending⟩

/-- Keeps the entries that satisfy a condition. -/
def filter (keep : κ × α → Bool) (d : Dict κ α) : Dict κ α :=
  ⟨d.entries.filter keep, d.ascending.filter _⟩

/-- Removes a key and its value. -/
def erase (d : Dict κ α) (key : κ) : Dict κ α :=
  d.filter fun entry => compare entry.1 key != .eq

/-- The first entry whose value satisfies a condition. -/
def find? (d : Dict κ α) (condition : κ × α → Bool) : Option (κ × α) :=
  d.entries.find? condition

/-- Applies a function to every value. -/
def map (f : α → β) (d : Dict κ α) : Dict κ β :=
  ⟨d.entries.map fun entry => (entry.1, f entry.2), by
    simpa [Ascending, List.pairwise_map] using d.ascending⟩

/-- The dictionary of a list of entries; of two with one key the later counts. -/
def ofList [Std.TransOrd κ] [Std.LawfulEqOrd κ] (entries : List (κ × α)) : Dict κ α :=
  entries.foldl (fun d entry => d.insert entry.1 entry.2) empty

@[simp]
theorem entries_empty : (empty : Dict κ α).entries = [] := rfl

@[simp]
theorem entries_insert [Std.TransOrd κ] [Std.LawfulEqOrd κ]
    (d : Dict κ α) (key : κ) (value : α) :
    (d.insert key value).entries = insertEntry key value d.entries := rfl

end Dict
end Chronicle
