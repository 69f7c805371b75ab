/-!
# Logs

A log is a sequence that grows at its end.  Its entries are kept with the
latest first, together with their number, so adding an entry and asking for
the number take the same time however long the log is.
-/

namespace Chronicle

/-- A sequence that grows at its end. -/
structure Log (α : Type) where
  latest : List α := []
  size : Nat := 0
  size_eq : size = latest.length := by rfl

namespace Log

variable {α : Type}

/-- The entries in the order in which they were added. -/
def toList (log : Log α) : List α := log.latest.reverse

/-- The log without entries. -/
def empty : Log α := {}

instance : EmptyCollection (Log α) := ⟨empty⟩

instance : Inhabited (Log α) := ⟨empty⟩

/-- Whether a log has no entry. -/
def isEmpty (log : Log α) : Bool := log.latest.isEmpty

/-- Adds an entry at the end. -/
def push (log : Log α) (entry : α) : Log α :=
  ⟨entry :: log.latest, log.size + 1, by simp [log.size_eq]⟩

/-- Adds entries at the end, in their order. -/
def append (log : Log α) (entries : List α) : Log α := entries.foldl push log

/-- Logs with the same entries in the same order are equal. -/
theorem ext_toList {first second : Log α} (same : first.toList = second.toList) :
    first = second := by
  obtain ⟨latest, size, size_eq⟩ := first
  obtain ⟨others, number, number_eq⟩ := second
  have entries : latest = others := List.reverse_inj.mp same
  subst entries size_eq number_eq
  rfl

instance [DecidableEq α] : DecidableEq (Log α) := fun first second =>
  decidable_of_iff (first.toList = second.toList) ⟨ext_toList, fun equal => equal ▸ rfl⟩

@[simp] theorem toList_empty : (∅ : Log α).toList = [] := rfl

@[simp] theorem toList_push (log : Log α) (entry : α) :
    (log.push entry).toList = log.toList ++ [entry] := by
  simp [toList, push]

@[simp] theorem toList_append (log : Log α) (entries : List α) :
    (log.append entries).toList = log.toList ++ entries := by
  induction entries generalizing log with
  | nil => simp [append]
  | cons entry rest ih =>
    have step : log.append (entry :: rest) = (log.push entry).append rest := rfl
    simp [step, ih]

/-- The number of entries. -/
theorem size_eq_length (log : Log α) : log.size = log.toList.length := by
  simp [toList, log.size_eq]

/-- A log is empty when there is nothing to list. -/
theorem isEmpty_eq (log : Log α) : log.isEmpty = log.toList.isEmpty := by
  simp [isEmpty, toList]

end Log
end Chronicle
