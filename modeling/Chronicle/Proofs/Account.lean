import Chronicle.Proofs.Frame
import Chronicle.Proofs.History
import Mathlib.Data.List.Induction

/-!
# The account of a run

An item enters the queue when its submission is admitted without resolvers or
when its resolvers are done, and leaves it when its tick is executed.  The
account of a run says where every item is: executed or waiting, resolving or
dropped.  Each operation keeps it balanced.
-/

namespace Chronicle

namespace Passage

variable {σ : Type}

/-- The submission that an operation admits, to be queued or resolved. -/
def admitted? (rules : Rules σ) (passage : Passage σ) : Option Submission :=
  match passage.operation with
  | .submit inbound =>
      match (passage.before.submit rules inbound).1 with
      | .ok (.queued sequence) => some (inbound.submission sequence)
      | .ok (.resolving resolution) => some resolution.submission
      | .error _ => none
  | _ => none

/-- The submission whose resolvers an operation starts. -/
def resolving? (rules : Rules σ) (passage : Passage σ) : Option Submission :=
  match passage.operation with
  | .submit inbound =>
      match (passage.before.submit rules inbound).1 with
      | .ok (.resolving resolution) => some resolution.submission
      | _ => none
  | _ => none

/-- The item of a submission that needs no resolvers. -/
def direct? (rules : Rules σ) (passage : Passage σ) : Option Item :=
  match passage.operation with
  | .submit inbound =>
      match (passage.before.submit rules inbound).1 with
      | .ok (.queued sequence) =>
          some ((inbound.submission sequence).resolve ∅ passage.before.nextTick)
      | _ => none
  | _ => none

/-- The item of a submission whose resolvers are done. -/
def resolved? (passage : Passage σ) : Option Item :=
  match passage.operation with
  | .complete completion => completion.result.toOption.map fun outputs =>
      completion.submission.resolve outputs passage.before.nextTick
  | _ => none

/-- The item that enters the queue in an operation. -/
def enters? (rules : Rules σ) (passage : Passage σ) : Option Item :=
  (passage.direct? rules).or passage.resolved?

/-- The submission that is dropped because a resolver has failed. -/
def dropped? (passage : Passage σ) : Option Submission :=
  match passage.operation with
  | .complete ⟨submission, .error _⟩ => some submission
  | _ => none

/-- The submission whose resolvers are done. -/
def completed? (passage : Passage σ) : Option Submission :=
  match passage.operation with
  | .complete completion => some completion.submission
  | _ => none

/-- The items that a step executes. -/
def executed (passage : Passage σ) : List Item :=
  match passage.operation with
  | .step => passage.before.take.1
  | _ => []

end Passage

section Account

variable {σ : Type}

/-- The items executed in a run, in the order of execution. -/
def log (past : List (Passage σ)) : List Item := past.flatMap Passage.executed

/-- The items that have entered the queue, in the order in which they came. -/
def entries (rules : Rules σ) (past : List (Passage σ)) : List Item :=
  past.filterMap (Passage.enters? rules)

/-- The submissions admitted in a run. -/
def admitted (rules : Rules σ) (past : List (Passage σ)) : List Submission :=
  past.filterMap (Passage.admitted? rules)

/-- The items of submissions without resolvers, in the order of submission. -/
def direct (rules : Rules σ) (past : List (Passage σ)) : List Item :=
  past.filterMap (Passage.direct? rules)

/-- The submissions dropped in a run. -/
def dropped (past : List (Passage σ)) : List Submission := past.filterMap Passage.dropped?

/-- The submissions whose resolvers are running, after one more operation. -/
def settle (rules : Rules σ) (running : List Submission) (passage : Passage σ) :
    List Submission :=
  match passage.operation with
  | .complete completion => running.erase completion.submission
  | _ => running ++ (passage.resolving? rules).toList

/-- The submissions whose resolvers were started and are not done yet. -/
def outstanding (rules : Rules σ) (past : List (Passage σ)) : List Submission :=
  past.foldl (settle rules) []

/-- Every completion is of a submission whose resolvers are running, given those
that are running at first. -/
def GenuineFrom (rules : Rules σ) (running : List Submission) : List (Passage σ) → Prop
  | [] => True
  | passage :: rest =>
      (∀ submission ∈ passage.completed?, submission ∈ running) ∧
        GenuineFrom rules (settle rules running passage) rest

instance decidableGenuineFrom (rules : Rules σ) :
    (running : List Submission) → (past : List (Passage σ)) →
      Decidable (GenuineFrom rules running past)
  | _, [] => isTrue trivial
  | running, passage :: rest =>
      have := decidableGenuineFrom rules (settle rules running passage) rest
      inferInstanceAs (Decidable (_ ∧ _))

/-- Every completion of a run is of a submission whose resolvers are running.
The runner of the resolvers sends one completion for each submission that it was
given. -/
def Genuine (rules : Rules σ) (past : List (Passage σ)) : Prop := GenuineFrom rules [] past

instance (rules : Rules σ) (past : List (Passage σ)) : Decidable (Genuine rules past) :=
  decidableGenuineFrom rules [] past

/-- The numbers that were given to submissions, by what became of them. -/
def given (rules : Rules σ) (past : List (Passage σ)) : List Sequence :=
  (entries rules past).map (·.sequence) ++ (outstanding rules past ++ dropped past).map (·.sequence)

variable {rules : Rules σ} {past : List (Passage σ)} {last : Passage σ}

/-- The log after one more operation. -/
theorem log_snoc : log (past ++ [last]) = log past ++ last.executed := by
  simp [log]

/-- The entries after one more operation. -/
theorem entries_snoc :
    entries rules (past ++ [last]) = entries rules past ++ (last.enters? rules).toList := by
  rw [entries, List.filterMap_append, List.filterMap_cons, List.filterMap_nil]
  cases last.enters? rules <;> rfl

/-- The admitted submissions after one more operation. -/
theorem admitted_snoc :
    admitted rules (past ++ [last]) = admitted rules past ++ (last.admitted? rules).toList := by
  rw [admitted, List.filterMap_append, List.filterMap_cons, List.filterMap_nil]
  cases last.admitted? rules <;> rfl

/-- The dropped submissions after one more operation. -/
theorem dropped_snoc : dropped (past ++ [last]) = dropped past ++ last.dropped?.toList := by
  rw [dropped, List.filterMap_append, List.filterMap_cons, List.filterMap_nil]
  cases last.dropped? <;> rfl

/-- The outstanding submissions after one more operation. -/
theorem outstanding_snoc :
    outstanding rules (past ++ [last]) = settle rules (outstanding rules past) last := by
  rw [outstanding, List.foldl_append]
  rfl

/-- The items without resolvers after one more operation. -/
theorem direct_snoc :
    direct rules (past ++ [last]) = direct rules past ++ (last.direct? rules).toList := by
  rw [direct, List.filterMap_append, List.filterMap_cons, List.filterMap_nil]
  cases last.direct? rules <;> rfl

/-- Items without resolvers enter the queue. -/
theorem mem_entries_of_direct {item : Item} (member : item ∈ direct rules past) :
    item ∈ entries rules past := by
  obtain ⟨passage, there, isDirect⟩ := List.mem_filterMap.1 member
  refine List.mem_filterMap.2 ⟨passage, there, ?_⟩
  rw [Passage.enters?, isDirect, Option.some_or]

/-- An item that has entered has a number that was given. -/
theorem sequence_mem_given {item : Item} (entered : item ∈ entries rules past) :
    item.sequence ∈ given rules past :=
  List.mem_append_left _ (List.mem_map_of_mem entered)

/-- An item enters the queue for the tick that comes next. -/
theorem Passage.resolvedAt_of_enters
    {item : Item}
    (entered : last.enters? rules = some item) :
    item.resolvedAt = last.before.nextTick := by
  obtain ⟨land, operation⟩ := last
  cases operation with
  | submit inbound =>
      simp only [enters?, direct?, resolved?, Option.or_none] at entered
      split at entered
      · obtain rfl := Option.some.inj entered
        rfl
      · exact nomatch entered
  | complete completion =>
      simp only [enters?, direct?, resolved?, Option.none_or, Option.map_eq_some_iff] at entered
      obtain ⟨outputs, _, rfl⟩ := entered
      rfl
  | step => exact nomatch entered

/-- An item without resolvers carries the next number of the land. -/
theorem Passage.sequence_of_direct
    {queue : Queue}
    {recorder : Recorder}
    {started : Nat}
    {item : Item}
    (live : last.before.mode = .live queue recorder started)
    (isDirect : last.direct? rules = some item) :
    item.sequence = last.before.numbering.next := by
  obtain ⟨land, operation⟩ := last
  cases operation with
  | submit inbound =>
      rcases Land.submit_live_cases rules live inbound with
        ⟨error, refused⟩ | ⟨sequence, numbering, -, next, queued⟩ |
          ⟨resolvers, sequence, numbering, -, -, -, resolving⟩
      · simp [direct?, refused] at isDirect
      · simp only [direct?, queued, Option.some.injEq] at isDirect
        obtain ⟨-, issued, -⟩ := Numbering.issue_eq_ok_iff.1 next
        rw [← isDirect, ← issued]
        exact inbound.sequence_submission sequence
      · simp [direct?, resolving] at isDirect
  | complete completion => exact nomatch isDirect
  | step => exact nomatch isDirect

/-- What was admitted stays admitted. -/
theorem admitted_subset_snoc : admitted rules past ⊆ admitted rules (past ++ [last]) := by
  rw [admitted, admitted, List.filterMap_append]
  exact List.subset_append_left _ _

/-- What the last operation admits was admitted. -/
theorem mem_admitted_last
    {submission : Submission}
    (admits : last.admitted? rules = some submission) :
    submission ∈ admitted rules (past ++ [last]) :=
  List.mem_filterMap.2 ⟨last, List.mem_append_right _ List.mem_cons_self, admits⟩

/-- Operations are genuine when the first ones are and the others complete only what is
running after them. -/
theorem genuineFrom_append_iff {running : List Submission} {later : List (Passage σ)} :
    GenuineFrom rules running (past ++ later) ↔
      GenuineFrom rules running past ∧
        GenuineFrom rules (past.foldl (settle rules) running) later := by
  induction past generalizing running with
  | nil => simp [GenuineFrom]
  | cons first rest inductionHypothesis =>
      simp only [List.cons_append, GenuineFrom, inductionHypothesis, List.foldl_cons, and_assoc]

/-- A run is genuine when a beginning of it is and the rest completes only what is
running after that. -/
theorem genuine_append_iff {later : List (Passage σ)} :
    Genuine rules (past ++ later) ↔
      Genuine rules past ∧ GenuineFrom rules (outstanding rules past) later :=
  genuineFrom_append_iff

/-- A run is genuine when it was before its last operation and that is no
completion of anything but an outstanding submission. -/
theorem genuine_snoc_iff :
    Genuine rules (past ++ [last]) ↔
      Genuine rules past ∧
        ∀ submission ∈ last.completed?, submission ∈ outstanding rules past := by
  simp only [genuine_append_iff, GenuineFrom, and_true]

/-- A run stays genuine in an operation that completes nothing. -/
theorem genuine_snoc (genuine : Genuine rules past) (nothing : last.completed? = none) :
    Genuine rules (past ++ [last]) := by
  refine genuine_snoc_iff.2 ⟨genuine, fun submission isCompleted => ?_⟩
  rw [nothing] at isCompleted
  cases isCompleted

/-- Only admitted submissions are resolved. -/
theorem mem_admitted_of_outstanding
    {submission : Submission}
    (running : submission ∈ outstanding rules past) :
    submission ∈ admitted rules past := by
  induction past using List.reverseRecOn with
  | nil => exact absurd running List.not_mem_nil
  | append_singleton past last inductionHypothesis =>
      obtain ⟨land, operation⟩ := last
      rw [outstanding_snoc] at running
      cases operation with
      | submit inbound =>
          rcases List.mem_append.1 running with earlier | now
          · exact admitted_subset_snoc (inductionHypothesis earlier)
          · apply mem_admitted_last
            simp only [Passage.resolving?, Passage.admitted?, Option.mem_toList] at now ⊢
            split at now
            · rename_i result
              rw [result]
              exact now
            · exact nomatch now
      | complete completion =>
          exact admitted_subset_snoc (inductionHypothesis (List.mem_of_mem_erase running))
      | step =>
          rcases List.mem_append.1 running with earlier | now
          · exact admitted_subset_snoc (inductionHypothesis earlier)
          · exact absurd now List.not_mem_nil

/-- Only items of admitted submissions enter the queue. -/
theorem mem_admitted_of_entries
    (genuine : Genuine rules past)
    {item : Item}
    (entered : item ∈ entries rules past) :
    item.toSubmission ∈ admitted rules past := by
  induction past using List.reverseRecOn with
  | nil => exact absurd entered List.not_mem_nil
  | append_singleton past last inductionHypothesis =>
      rw [entries_snoc] at entered
      rcases List.mem_append.1 entered with earlier | now
      · exact admitted_subset_snoc (inductionHypothesis (genuine_snoc_iff.1 genuine).1 earlier)
      · obtain ⟨land, operation⟩ := last
        rw [Option.mem_toList, Passage.enters?] at now
        cases operation with
        | submit inbound =>
            apply mem_admitted_last
            simp only [Passage.direct?, Passage.resolved?, Passage.admitted?, Option.or_none]
              at now ⊢
            split at now
            · rename_i sequence result
              obtain rfl := Option.some.inj now
              rw [result]
              rfl
            · exact nomatch now
        | complete completion =>
            simp only [Passage.direct?, Passage.resolved?, Option.none_or,
              Option.map_eq_some_iff] at now
            obtain ⟨outputs, _, rfl⟩ := now
            exact admitted_subset_snoc (mem_admitted_of_outstanding
              ((genuine_snoc_iff.1 genuine).2 _ rfl))
        | step => exact nomatch now

/-- An operation that completes only what is running gives a number to the submission
that it admits, and keeps the others. -/
theorem given_snoc
    (running : ∀ submission ∈ last.completed?, submission ∈ outstanding rules past) :
    (given rules (past ++ [last])).Perm
      ((last.admitted? rules).toList.map (·.sequence) ++ given rules past) := by
  obtain ⟨land, operation⟩ := last
  rw [given, entries_snoc, outstanding_snoc, dropped_snoc]
  cases operation with
  | submit inbound =>
      cases result : (land.submit rules inbound).1 with
      | error error =>
          simp [given, settle, Passage.enters?, Passage.direct?, Passage.resolved?,
            Passage.resolving?, Passage.dropped?, Passage.admitted?, result]
      | ok admission =>
          cases admission with
          | queued sequence =>
              simp [given, settle, Passage.enters?, Passage.direct?, Passage.resolving?,
                Passage.dropped?, Passage.admitted?, result, Submission.resolve]
          | resolving resolution =>
              simp only [given, settle, Passage.enters?, Passage.direct?, Passage.resolved?,
                Passage.resolving?, Passage.dropped?, Passage.admitted?, result, Option.none_or,
                Option.toList_some, Option.toList_none, List.append_nil, List.map_append,
                List.map_cons, List.map_nil, List.append_assoc, List.singleton_append]
              exact (List.perm_middle.append_left _).trans List.perm_middle
  | complete completion =>
      have before : (outstanding rules past).Perm
          (completion.submission :: (outstanding rules past).erase completion.submission) :=
        List.perm_cons_erase (running _ rfl)
      refine List.Perm.trans ?_ (((before.append_right (dropped past)).map _).append_left _).symm
      obtain ⟨submission, result⟩ := completion
      cases result with
      | ok outputs =>
          simp only [settle, Passage.enters?, Passage.direct?, Passage.resolved?,
            Passage.dropped?, Except.toOption, Option.map_some, Option.none_or,
            Option.toList_some, Option.toList_none, List.append_nil, List.map_append,
            List.map_cons, List.map_nil, List.append_assoc, List.cons_append]
          rfl
      | error error =>
          simp only [settle, Passage.enters?, Passage.direct?, Passage.resolved?,
            Passage.dropped?, Except.toOption, Option.map_none, Option.none_or,
            Option.toList_some, Option.toList_none, List.append_nil, List.map_append,
            List.map_cons, List.map_nil, List.cons_append]
          apply List.Perm.append_left _
          rw [← List.append_assoc]
          exact List.perm_append_comm
  | step =>
      simp [given, settle, Passage.enters?, Passage.direct?, Passage.resolved?,
        Passage.resolving?, Passage.dropped?, Passage.admitted?]

/-- In a genuine run every number that was given belongs to an admitted submission. -/
theorem given_perm (genuine : Genuine rules past) :
    (given rules past).Perm ((admitted rules past).map (·.sequence)) := by
  induction past using List.reverseRecOn with
  | nil => exact List.Perm.nil
  | append_singleton past last inductionHypothesis =>
      obtain ⟨older, running⟩ := genuine_snoc_iff.1 genuine
      rw [admitted_snoc, List.map_append]
      exact (given_snoc running).trans
        (List.perm_append_comm.trans ((inductionHypothesis older).append_right _))

end Account

/-- Numbers of which none was given twice and all were issued by a counter. -/
structure Issued (numbers : List Sequence) (numbering : Numbering) : Prop where
  distinct : numbers.Nodup
  below : ∀ number ∈ numbers, number < numbering.next

namespace Issued

variable {numbers others : List Sequence} {numbering later : Numbering}

/-- The order of the numbers does not matter. -/
theorem perm (issued : Issued numbers numbering) (same : others.Perm numbers) :
    Issued others numbering where
  distinct := same.nodup_iff.2 issued.distinct
  below := fun number member => issued.below number (same.mem_iff.1 member)

/-- A counter that has gone on has issued the numbers as well. -/
theorem mono (issued : Issued numbers numbering) (behind : numbering.Behind later) :
    Issued numbers later where
  distinct := issued.distinct
  below := fun number member =>
    UInt64.lt_of_lt_of_le (issued.below number member) (UInt64.le_iff_toNat_le.2 behind)

/-- A number that is issued is a new one. -/
theorem cons
    (issued : Issued numbers numbering)
    {number : Sequence}
    (next : numbering.issue = .ok (number, later)) :
    Issued (number :: numbers) later := by
  obtain ⟨-, rfl, successor⟩ := Numbering.issue_eq_ok_iff.1 next
  have grown : numbering.next < later.next := by
    rw [UInt64.lt_iff_toNat_lt, successor]
    exact Nat.lt_succ_self _
  refine ⟨List.nodup_cons.2 ⟨fun old => ?_, issued.distinct⟩, fun number member => ?_⟩
  · exact UInt64.lt_irrefl _ (issued.below _ old)
  · rcases List.mem_cons.1 member with rfl | old
    · exact grown
    · exact UInt64.lt_trans (issued.below number old) grown

end Issued

/-- The account of a run is balanced: every item that has entered was executed
in its tick or waits for the next one, and no number was given twice. -/
structure Balanced
    {σ : Type}
    (rules : Rules σ)
    (past : List (Passage σ))
    (land : Land σ)
    (queue : Queue) : Prop where
  conserved : (log past ++ queue.toList).Perm (entries rules past)
  waiting : ∀ item ∈ queue.toList, item.resolvedAt = land.nextTick
  done : ∀ item ∈ log past, item.resolvedAt < land.nextTick
  issued : Issued (given rules past) land.numbering

namespace Balanced

variable {σ : Type} {rules : Rules σ} {past : List (Passage σ)} {land after : Land σ}
  {queue : Queue} {operation : Operation}

/-- The account of a run in which nothing has happened. -/
theorem begins (land : Land σ) : Balanced rules [] land {} where
  conserved := List.Perm.refl _
  waiting := fun _ member => absurd member List.not_mem_nil
  done := fun _ member => absurd member List.not_mem_nil
  issued := ⟨List.nodup_nil, fun _ member => absurd member List.not_mem_nil⟩

/-- An operation in which no item moves keeps the balance. -/
theorem keep
    (balanced : Balanced rules past land queue)
    (sameLog : (⟨land, operation⟩ : Passage σ).executed = [])
    (sameEntries : (⟨land, operation⟩ : Passage σ).enters? rules = none)
    (nextTick : after.nextTick = land.nextTick)
    (issued : Issued (given rules (past ++ [⟨land, operation⟩])) after.numbering) :
    Balanced rules (past ++ [⟨land, operation⟩]) after queue where
  conserved := by
    rw [log_snoc, entries_snoc, sameLog, sameEntries]
    simpa using balanced.conserved
  waiting := by
    rw [nextTick]
    exact balanced.waiting
  done := by
    rw [log_snoc, sameLog, List.append_nil, nextTick]
    exact balanced.done
  issued := issued

/-- An operation in which an item of a new number enters keeps the balance. -/
theorem enter
    (balanced : Balanced rules past land queue)
    (consistent : queue.Consistent)
    {item : Item}
    (sameLog : (⟨land, operation⟩ : Passage σ).executed = [])
    (entered : (⟨land, operation⟩ : Passage σ).enters? rules = some item)
    (resolvedAt : item.resolvedAt = land.nextTick)
    (nextTick : after.nextTick = land.nextTick)
    (issued : Issued (given rules (past ++ [⟨land, operation⟩])) after.numbering) :
    Balanced rules (past ++ [⟨land, operation⟩]) after (queue.push item) := by
  have newEntries :
      entries rules (past ++ [⟨land, operation⟩]) = entries rules past ++ [item] := by
    rw [entries_snoc, entered]
    rfl
  have fresh : item.sequence ∉ queue.toList.map (·.sequence) := by
    intro known
    have distinct := (List.nodup_append.1 issued.distinct).1
    rw [newEntries, List.map_append, List.nodup_append] at distinct
    obtain ⟨other, waits, same⟩ := List.mem_map.1 known
    have old := balanced.conserved.mem_iff.1 (List.mem_append_right (log past) waits)
    exact distinct.2.2 _ (List.mem_map_of_mem old) _ List.mem_cons_self same
  have pushed := consistent.toList_push_perm fresh
  refine ⟨?_, fun other waits => ?_, ?_, issued⟩
  · rw [log_snoc, sameLog, List.append_nil, newEntries]
    apply (pushed.append_left (log past)).trans
    refine List.perm_middle.trans (List.Perm.trans ?_ List.perm_append_comm)
    exact balanced.conserved.cons item
  · rw [nextTick]
    rcases List.mem_cons.1 (pushed.mem_iff.1 waits) with rfl | old
    · exact resolvedAt
    · exact balanced.waiting other old
  · rw [log_snoc, sameLog, List.append_nil, nextTick]
    exact balanced.done

/-- A submission keeps the balance. -/
theorem submit
    {recorder : Recorder}
    {started : Nat}
    (balanced : Balanced rules past land queue)
    (live : land.mode = .live queue recorder started)
    (consistent : queue.Consistent)
    (inbound : Inbound) :
    ∃ queue recorder started,
      (land.submit rules inbound).2.mode = .live queue recorder started ∧
        Balanced rules (past ++ [⟨land, .submit inbound⟩]) (land.submit rules inbound).2 queue := by
  have sameLog : (⟨land, .submit inbound⟩ : Passage σ).executed = [] := rfl
  have newGiven : (given rules (past ++ [⟨land, .submit inbound⟩])).Perm _ := given_snoc nofun
  rcases Land.submit_live_cases rules live inbound with
    ⟨error, refused⟩ | ⟨sequence, numbering, -, next, queued⟩ |
      ⟨resolvers, sequence, numbering, -, -, next, resolving⟩
  · have noEntry : (⟨land, .submit inbound⟩ : Passage σ).enters? rules = none := by
      simp [Passage.enters?, Passage.direct?, Passage.resolved?, refused]
    have nothing : (⟨land, .submit inbound⟩ : Passage σ).admitted? rules = none := by
      simp [Passage.admitted?, refused]
    rw [nothing] at newGiven
    rw [refused, Land.note_eq]
    exact ⟨queue, recorder, started, live,
      balanced.keep sameLog noEntry rfl (balanced.issued.perm newGiven)⟩
  · have entered : (⟨land, .submit inbound⟩ : Passage σ).enters? rules =
        some ((inbound.submission sequence).resolve ∅ land.nextTick) := by
      simp [Passage.enters?, Passage.direct?, queued]
    have admits : (⟨land, .submit inbound⟩ : Passage σ).admitted? rules =
        some (inbound.submission sequence) := by
      simp [Passage.admitted?, queued]
    rw [admits, Option.toList_some, List.map_singleton, Inbound.sequence_submission] at newGiven
    rw [queued]
    exact ⟨_, recorder, started, rfl, balanced.enter consistent sameLog entered rfl rfl
      ((balanced.issued.cons next).perm newGiven)⟩
  · have noEntry : (⟨land, .submit inbound⟩ : Passage σ).enters? rules = none := by
      simp [Passage.enters?, Passage.direct?, Passage.resolved?, resolving]
    have admits : (⟨land, .submit inbound⟩ : Passage σ).admitted? rules =
        some (inbound.submission sequence) := by
      simp [Passage.admitted?, resolving]
    rw [admits, Option.toList_some, List.map_singleton, Inbound.sequence_submission] at newGiven
    rw [resolving]
    exact ⟨queue, recorder, _, rfl, balanced.keep sameLog noEntry rfl
      ((balanced.issued.cons next).perm newGiven)⟩

/-- The completion of an outstanding submission keeps the balance. -/
theorem complete
    {recorder : Recorder}
    {started : Nat}
    (balanced : Balanced rules past land queue)
    (live : land.mode = .live queue recorder started)
    (consistent : queue.Consistent)
    {completion : Completion}
    (running : completion.submission ∈ outstanding rules past) :
    ∃ queue recorder started,
      (land.complete completion).2.mode = .live queue recorder started ∧
        Balanced rules (past ++ [⟨land, .complete completion⟩]) (land.complete completion).2
          queue := by
  have sameLog : (⟨land, .complete completion⟩ : Passage σ).executed = [] := rfl
  have sameGiven : (given rules (past ++ [⟨land, .complete completion⟩])).Perm
      (given rules past) := by
    refine given_snoc fun submission isCompleted => ?_
    obtain rfl := Option.some.inj isCompleted
    exact running
  have issued := balanced.issued.perm sameGiven
  rcases Land.complete_live_cases live completion with
    ⟨outputs, done, resolved⟩ | ⟨error, failed, dropped⟩
  · have entered : (⟨land, .complete completion⟩ : Passage σ).enters? rules =
        some (completion.submission.resolve outputs land.nextTick) := by
      simp [Passage.enters?, Passage.direct?, Passage.resolved?, done, Except.toOption]
    rw [resolved]
    exact ⟨_, recorder, started, rfl, balanced.enter consistent sameLog entered rfl rfl issued⟩
  · have noEntry : (⟨land, .complete completion⟩ : Passage σ).enters? rules = none := by
      simp [Passage.enters?, Passage.direct?, Passage.resolved?, failed, Except.toOption]
    rw [dropped]
    exact ⟨queue, recorder, started, live, balanced.keep sameLog noEntry rfl issued⟩

/-- The numbers of two ticks that follow each other. -/
theorem lt_next_iff {tick : Tick} (notFinal : tick ≠ finalTick) (other : Tick) :
    other < tick + 1 ↔ other < tick ∨ other = tick := by
  have bound : tick.toNat < 18446744073709551616 := tick.toNat_lt
  have notLast : tick.toNat ≠ 18446744073709551615 :=
    fun last => notFinal (UInt64.toNat_inj.1 last)
  have successor : (tick + 1).toNat = tick.toNat + 1 := by
    rw [UInt64.toNat_add]
    exact Nat.mod_eq_of_lt (by simp; omega)
  rw [UInt64.lt_iff_toNat_lt, UInt64.lt_iff_toNat_lt, successor, ← UInt64.toNat_inj]
  omega

/-- A step executes everything that waits. -/
theorem executed_step
    {recorder : Recorder}
    {started : Nat}
    (balanced : Balanced rules past land queue)
    (live : land.mode = .live queue recorder started)
    (consistent : queue.Consistent)
    (notFinal : land.nextTick ≠ finalTick) :
    (⟨land, .step⟩ : Passage σ).executed = queue.toList ∧
      (queue.drain (land.nextTick + 1)).2.toList = [] := by
  have ready : ∀ item ∈ queue.toList, Queue.ready (land.nextTick + 1) item = true := by
    intro item waits
    rw [decide_eq_true_iff, lt_next_iff notFinal]
    exact .inr (balanced.waiting item waits)
  constructor
  · simp only [Passage.executed, Land.take, live, consistent.drain_fst]
    exact List.filter_eq_self.2 ready
  · rw [consistent.toList_drain_snd, List.filter_eq_nil_iff]
    intro item waits
    rw [ready item waits]
    exact Bool.false_ne_true

/-- A step that ends its tick keeps the balance. -/
theorem step
    {recorder : Recorder}
    {started : Nat}
    (balanced : Balanced rules past land queue)
    (live : land.mode = .live queue recorder started)
    (consistent : queue.Consistent)
    (notFinal : land.nextTick ≠ finalTick)
    (nextTick : after.nextTick = land.nextTick + 1)
    (numbering : land.numbering.Behind after.numbering) :
    Balanced rules (past ++ [⟨land, .step⟩]) after (queue.drain (land.nextTick + 1)).2 := by
  obtain ⟨everything, nothing⟩ := balanced.executed_step live consistent notFinal
  have sameEntries : entries rules (past ++ [⟨land, .step⟩]) = entries rules past := by
    rw [entries_snoc]
    exact List.append_nil _
  have sameGiven : given rules (past ++ [⟨land, .step⟩]) = given rules past := by
    rw [given, sameEntries, outstanding_snoc, dropped_snoc]
    simp [given, settle, Passage.resolving?, Passage.dropped?]
  refine ⟨?_, fun item waits => ?_, fun item executed => ?_, ?_⟩
  · rw [log_snoc, everything, nothing, sameEntries, List.append_nil]
    exact balanced.conserved
  · rw [nothing] at waits
    exact absurd waits List.not_mem_nil
  · rw [nextTick, lt_next_iff notFinal]
    rw [log_snoc, everything, List.mem_append] at executed
    rcases executed with earlier | now
    · exact .inl (balanced.done item earlier)
    · exact .inr (balanced.waiting item now)
  · rw [sameGiven]
    exact balanced.issued.mono numbering

end Balanced
end Chronicle
