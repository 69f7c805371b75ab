import Chronicle.Proofs.Dict
import Chronicle.Queue
import Mathlib.Data.List.Nodup

/-!
# What the queue holds

A consistent queue keeps every item under its own place in the order of
execution, has no sequence number twice, and its index lists the numbers that
wait.  Pushing and draining keep a queue consistent, lose nothing and double
nothing.
-/

namespace Chronicle

namespace Item

/-- One item is executed before another: it became ready in an earlier tick, or
in the same tick with a smaller sequence number. -/
def Precedes (first second : Item) : Prop :=
  compare first.orderKey second.orderKey = .lt

instance (first second : Item) : Decidable (first.Precedes second) :=
  inferInstanceAs (Decidable (compare first.orderKey second.orderKey = .lt))

/-- The order of execution, tick by tick. -/
theorem precedes_iff {first second : Item} :
    first.Precedes second ↔
      first.resolvedAt < second.resolvedAt ∨
        first.resolvedAt = second.resolvedAt ∧ first.sequence < second.sequence := by
  have lexicographic : compare first.orderKey second.orderKey =
      (compare first.resolvedAt second.resolvedAt).then
        (compare first.sequence second.sequence) := rfl
  rw [Precedes, lexicographic, Ordering.then_eq_lt, Std.compare_eq_lt, Std.compare_eq_lt,
    Std.LawfulEqCmp.compare_eq_iff_eq]

/-- An item that is not ready later and has a smaller number is executed before. -/
theorem precedes_of_le
    {first second : Item}
    (inTime : first.resolvedAt ≤ second.resolvedAt)
    (smaller : first.sequence < second.sequence) :
    first.Precedes second := by
  rcases UInt64.lt_or_eq_of_le inTime with earlier | together
  · exact precedes_iff.2 (.inl earlier)
  · exact precedes_iff.2 (.inr ⟨together, smaller⟩)

instance : Std.Irrefl Precedes where
  irrefl item before := by
    rcases precedes_iff.1 before with earlier | ⟨_, smaller⟩
    · exact UInt64.lt_irrefl _ earlier
    · exact UInt64.lt_irrefl _ smaller

instance : Std.Antisymm Precedes where
  antisymm first _ before behind :=
    absurd (Std.TransCmp.lt_trans before behind) (Std.Irrefl.irrefl (r := Precedes) first)

/-- Of two items at most one comes before the other. -/
theorem Precedes.asymm {first second : Item} (before : first.Precedes second) :
    ¬ second.Precedes first :=
  fun behind => Std.Irrefl.irrefl (r := Precedes) first (Std.TransCmp.lt_trans before behind)

/-- Items of one place do not come before each other. -/
theorem Precedes.orderKey_ne {first second : Item} (before : first.Precedes second) :
    first.orderKey ≠ second.orderKey := by
  intro equal
  have reflexive : compare second.orderKey second.orderKey = .eq := Std.ReflCmp.compare_self
  rw [Precedes, equal, reflexive] at before
  exact Ordering.noConfusion before

end Item

namespace Queue

/-- Every item stands in its own place, no sequence number is there twice, and
the index lists the numbers that are there. -/
structure Consistent (queue : Queue) : Prop where
  keyed : ∀ entry ∈ queue.items.entries, entry.1 = entry.2.orderKey
  distinct : (queue.toList.map (·.sequence)).Nodup
  indexed : ∀ sequence, queue.sequences.contains sequence = true ↔
    sequence ∈ queue.toList.map (·.sequence)

/-- The items before a tick come before all others. -/
abbrev ready (tick : Tick) (item : Item) : Bool := item.resolvedAt < tick

/-- The size of a queue is the number of the items that wait. -/
theorem size_eq (queue : Queue) : queue.size = queue.toList.length := by
  rw [size, toList, Dict.size, Dict.values, List.length_map]

/-- Every waiting item has an entry under some place. -/
theorem mem_toList {queue : Queue} {item : Item} :
    item ∈ queue.toList ↔ ∃ key, (key, item) ∈ queue.items.entries := by
  rw [toList, Dict.values, List.mem_map]
  constructor
  · rintro ⟨⟨key, _⟩, member, rfl⟩
    exact ⟨key, member⟩
  · rintro ⟨key, member⟩
    exact ⟨(key, item), member, rfl⟩

/-- Items with different numbers can be pushed in either order. -/
theorem push_comm (queue : Queue) (first second : Item)
    (different : first.sequence ≠ second.sequence) :
    (queue.push first).push second = (queue.push second).push first := by
  have places : first.orderKey ≠ second.orderKey :=
    fun same => different (congrArg OrderKey.sequence same)
  have pushed (queue : Queue) (item : Item) : queue.push item =
      if queue.sequences.contains item.sequence then queue
      else ⟨queue.items.insert item.orderKey item, queue.sequences.insert item.sequence ()⟩ := by
    unfold push push?
    split <;> rfl
  by_cases firstWaits : queue.sequences.contains first.sequence = true <;>
    by_cases secondWaits : queue.sequences.contains second.sequence = true
  all_goals
    simp [pushed, firstWaits, secondWaits, Dict.contains_insert, different, different.symm,
      Dict.insert_comm _ _ _ different, Dict.insert_comm _ _ _ places]

/-- The empty queue is consistent. -/
theorem consistent_empty : Consistent {} where
  keyed := fun _ member => absurd member List.not_mem_nil
  distinct := List.nodup_nil
  indexed := fun _ => by simp [toList, Dict.values, EmptyCollection.emptyCollection, Dict.empty,
    Dict.contains, Dict.get?]

namespace Consistent

variable {queue : Queue}

/-- The waiting items stand in the order of execution. -/
theorem ordered (consistent : queue.Consistent) :
    queue.toList.Pairwise Item.Precedes := by
  rw [toList, Dict.values, List.pairwise_map]
  refine queue.items.ascending.imp_of_mem fun {a b} here there less => ?_
  rw [Item.Precedes, ← consistent.keyed a here, ← consistent.keyed b there]
  exact less

/-- Items of one sequence number that both wait are the same. -/
theorem eq_of_sequence_eq (consistent : queue.Consistent) {first second : Item}
    (here : first ∈ queue.toList) (there : second ∈ queue.toList)
    (same : first.sequence = second.sequence) : first = second :=
  List.inj_on_of_nodup_map consistent.distinct here there same

/-! ## Pushing -/

/-- An item whose number waits already changes nothing. -/
theorem push_of_mem (consistent : queue.Consistent) {item : Item}
    (waiting : item.sequence ∈ queue.toList.map (·.sequence)) : queue.push item = queue := by
  have known : queue.sequences.contains item.sequence = true :=
    (consistent.indexed item.sequence).2 waiting
  simp only [push, push?, known, if_true, Option.getD_none]

/-- An item whose number does not wait yet is put into both indexes. -/
theorem push_of_not_mem (consistent : queue.Consistent) {item : Item}
    (fresh : item.sequence ∉ queue.toList.map (·.sequence)) :
    queue.push item =
      ⟨queue.items.insert item.orderKey item, queue.sequences.insert item.sequence ()⟩ := by
  have unknown : ¬ queue.sequences.contains item.sequence = true :=
    fun known => fresh ((consistent.indexed item.sequence).1 known)
  simp only [push, push?, unknown, Bool.false_eq_true, if_false, Option.getD_some]

/-- A new item is added to those that wait. -/
theorem toList_push_perm (consistent : queue.Consistent) {item : Item}
    (fresh : item.sequence ∉ queue.toList.map (·.sequence)) :
    (queue.push item).toList.Perm (item :: queue.toList) := by
  rw [consistent.push_of_not_mem fresh]
  have newPlace : ∀ entry ∈ queue.items.entries, entry.1 ≠ item.orderKey := by
    intro entry member equal
    have place : entry.2.orderKey = item.orderKey := consistent.keyed entry member ▸ equal
    have number : entry.2.sequence = item.sequence := congrArg OrderKey.sequence place
    exact fresh (List.mem_map.2 ⟨entry.2, mem_toList.2 ⟨entry.1, member⟩, number⟩)
  exact (Dict.insertEntry_perm item newPlace).map (·.2)

/-- Pushing keeps a queue consistent. -/
theorem push (consistent : queue.Consistent) (item : Item) : (queue.push item).Consistent := by
  by_cases waiting : item.sequence ∈ queue.toList.map (·.sequence)
  · rwa [consistent.push_of_mem waiting]
  · have added := (consistent.toList_push_perm waiting).map (·.sequence)
    have pushed := consistent.push_of_not_mem waiting
    refine ⟨fun entry member => ?_, ?_, fun sequence => ?_⟩
    · rw [pushed] at member
      rcases Dict.mem_entries_insert.1 member with rfl | ⟨older, _⟩
      · rfl
      · exact consistent.keyed entry older
    · exact added.nodup_iff.2 (List.nodup_cons.2 ⟨waiting, consistent.distinct⟩)
    · rw [added.mem_iff, pushed, Dict.contains_insert, List.map_cons, List.mem_cons,
        Bool.or_eq_true, decide_eq_true_iff, consistent.indexed sequence]

/-! ## Draining -/

/-- Draining takes the items that became ready before the tick. -/
theorem drain_fst (consistent : queue.Consistent) (tick : Tick) :
    (queue.drain tick).1 = queue.toList.filter (ready tick) := by
  simp only [drain, Dict.values, Dict.filter, toList, List.filter_map]
  refine congrArg (List.map Prod.snd) (List.filter_congr fun entry member => ?_)
  simp [consistent.keyed entry member, Item.orderKey]

/-- Draining leaves the other items. -/
theorem toList_drain_snd (consistent : queue.Consistent) (tick : Tick) :
    (queue.drain tick).2.toList = queue.toList.filter fun item => !ready tick item := by
  simp only [drain, Dict.values, Dict.filter, toList, List.filter_map]
  refine congrArg (List.map Prod.snd) (List.filter_congr fun entry member => ?_)
  simp [consistent.keyed entry member, Item.orderKey]

/-- Taking the numbers of items from the index one after the other leaves the
numbers of no item. -/
theorem contains_foldl_erase (items : List Item) (index : Dict Sequence Unit)
    (sequence : Sequence) :
    (items.foldl (fun index item => index.erase item.sequence) index).contains sequence = true ↔
      index.contains sequence = true ∧ sequence ∉ items.map (·.sequence) := by
  induction items generalizing index with
  | nil => simp
  | cons item rest inductionHypothesis =>
      rw [List.foldl_cons, inductionHypothesis, Dict.contains_erase, List.map_cons,
        List.mem_cons, not_or, Bool.and_eq_true, Bool.not_eq_true', decide_eq_false_iff_not]
      exact ⟨fun ⟨⟨other, known⟩, later⟩ => ⟨known, other, later⟩,
        fun ⟨known, other, later⟩ => ⟨⟨other, known⟩, later⟩⟩

/-- Draining keeps a queue consistent. -/
theorem drain (consistent : queue.Consistent) (tick : Tick) :
    (queue.drain tick).2.Consistent where
  keyed := fun entry member => consistent.keyed entry (Dict.mem_entries_filter.1 member).1
  distinct := by
    rw [consistent.toList_drain_snd]
    exact consistent.distinct.sublist (List.filter_sublist.map _)
  indexed := by
    intro sequence
    have taken : (queue.drain tick).2.sequences =
        (queue.drain tick).1.foldl (fun index item => index.erase item.sequence)
          queue.sequences := rfl
    rw [taken, contains_foldl_erase, consistent.indexed, consistent.drain_fst,
      consistent.toList_drain_snd]
    simp only [List.mem_map, List.mem_filter, not_exists, not_and]
    constructor
    · rintro ⟨⟨item, waiting, rfl⟩, others⟩
      refine ⟨item, ⟨waiting, ?_⟩, rfl⟩
      rw [Bool.not_eq_true']
      exact Bool.eq_false_iff.2 fun early => others item ⟨waiting, early⟩ rfl
    · rintro ⟨item, ⟨waiting, late⟩, rfl⟩
      refine ⟨⟨item, waiting, rfl⟩, fun other ⟨there, early⟩ same => ?_⟩
      rw [consistent.eq_of_sequence_eq there waiting same] at early
      rw [early] at late
      exact Bool.noConfusion late

end Consistent
end Queue
end Chronicle
