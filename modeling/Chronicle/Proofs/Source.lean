import Chronicle.Proofs.Dict
import Chronicle.Source

/-!
# Sources of valid recordings

A recording whose frames number the ticks from zero on and whose targets are
well formed makes a source, which gives every frame back under its tick.
-/

namespace Chronicle

namespace Recording

/-- Every server event of a frame has a target that can be read back. -/
def Frame.Addressed (frame : Frame) : Prop :=
  ∀ event ∈ frame.serverEvents, ∃ target, event.target.toTarget = .ok target

/-- Frames number the ticks from zero on. -/
def Numbered (frames : List Frame) : Prop :=
  ∀ (index : Nat) (frame : Frame), frames[index]? = some frame → frame.tick.toNat = index

/-- Frames number the ticks from zero on, with zero again after the greatest
one. -/
def Onward (frames : List Frame) : Prop :=
  ∀ (index : Nat) (frame : Frame), frames[index]? = some frame → frame.tick = UInt64.ofNat index

/-- Frames that never come to the greatest tick go on without a zero. -/
theorem Numbered.onward {frames : List Frame} (numbered : Numbered frames) : Onward frames := by
  intro index frame found
  rw [← UInt64.toNat_inj, numbered index frame found]
  refine (UInt64.toNat_ofNat_of_lt' ?_).symm
  rw [← numbered index frame found]
  exact frame.tick.toNat_lt

/-- Server events pass the check, or the target of one of them cannot be read
back. -/
theorem Frame.checkTargets_cases (events : List ServerEvent) :
    ((∀ event ∈ events, ∃ target, event.target.toTarget = .ok target) ∧
      checkTargets events = .ok ()) ∨
    ∃ event ∈ events, ∃ reason, event.target.toTarget = .error reason ∧
      checkTargets events = .error (.target event.sequence reason) := by
  induction events with
  | nil => exact .inl ⟨List.forall_mem_nil _, rfl⟩
  | cons event rest inductionHypothesis =>
      rw [checkTargets]
      cases result : event.target.toTarget with
      | error reason => exact .inr ⟨event, List.mem_cons_self, reason, result, rfl⟩
      | ok target =>
          refine inductionHypothesis.imp (fun ⟨others, passed⟩ => ?_)
            fun ⟨other, member, refused⟩ => ⟨other, List.mem_cons_of_mem _ member, refused⟩
          exact ⟨List.forall_mem_cons.2 ⟨⟨target, result⟩, others⟩, passed⟩

/-- Frames that number the ticks from one on pass the check, or the target of an
event in one of them cannot be read back. -/
theorem checkFrames_cases
    {expected : Tick}
    {frames : List Frame}
    (numbered : ∀ (index : Nat) (frame : Frame), frames[index]? = some frame →
      frame.tick = expected + UInt64.ofNat index) :
    ((∀ frame ∈ frames, frame.Addressed) ∧ checkFrames expected frames = .ok ()) ∨
    ∃ frame ∈ frames, ∃ event ∈ frame.serverEvents, ∃ reason,
      event.target.toTarget = .error reason ∧
        checkFrames expected frames = .error (.target event.sequence reason) := by
  induction frames generalizing expected with
  | nil => exact .inl ⟨List.forall_mem_nil _, rfl⟩
  | cons frame rest inductionHypothesis =>
      have first : frame.tick = expected := (numbered 0 frame rfl).trans (UInt64.add_zero _)
      have next := @inductionHypothesis (expected + 1) fun index later found => by
        rw [numbered (index + 1) later found, UInt64.ofNat_add, UInt64.add_assoc,
          UInt64.add_comm 1]
        rfl
      rw [checkFrames, if_pos first]
      rcases Frame.checkTargets_cases frame.serverEvents with
        ⟨addressed, passed⟩ | ⟨event, member, reason, unreadable, refused⟩
      · rw [passed]
        refine next.imp (fun ⟨others, passed⟩ => ?_)
          fun ⟨other, member, refused⟩ => ⟨other, List.mem_cons_of_mem _ member, refused⟩
        exact ⟨List.forall_mem_cons.2 ⟨addressed, others⟩, passed⟩
      · rw [refused]
        exact .inr ⟨frame, List.mem_cons_self, event, member, reason, unreadable, rfl⟩

/-- A recording whose frames number the ticks is valid, or the target of an event
cannot be read back. -/
theorem validate_cases {recording : Recording} (onward : Onward recording.frames) :
    ((∀ frame ∈ recording.frames, frame.Addressed) ∧ recording.validate = .ok ()) ∨
    ∃ frame ∈ recording.frames, ∃ event ∈ frame.serverEvents, ∃ reason,
      event.target.toTarget = .error reason ∧
        recording.validate = .error (.target event.sequence reason) := by
  refine checkFrames_cases fun index frame found => ?_
  rw [UInt64.zero_add]
  exact onward index frame found

/-- Numbered and addressed frames are valid. -/
theorem validate_eq_ok
    {recording : Recording}
    (numbered : Numbered recording.frames)
    (addressed : ∀ frame ∈ recording.frames, frame.Addressed) :
    recording.validate = .ok () := by
  rcases validate_cases numbered.onward with
    ⟨-, passed⟩ | ⟨frame, inside, event, recorded, _, refused, -⟩
  · exact passed
  · obtain ⟨target, readable⟩ := addressed frame inside event recorded
    rw [refused] at readable
    cases readable

/-- Frames that pass the check number the ticks from the expected one on, and
their targets can be read back. -/
theorem of_checkFrames
    {expected : Tick}
    {frames : List Frame}
    (passed : checkFrames expected frames = .ok ()) :
    (∀ (index : Nat) (frame : Frame), frames[index]? = some frame →
      frame.tick = expected + UInt64.ofNat index) ∧
    ∀ frame ∈ frames, frame.Addressed := by
  induction frames generalizing expected with
  | nil => exact ⟨fun _ _ none => (nomatch none), List.forall_mem_nil _⟩
  | cons frame rest inductionHypothesis =>
      rw [checkFrames] at passed
      split at passed
      · rename_i first
        rcases Frame.checkTargets_cases frame.serverEvents with
          ⟨addressed, accepted⟩ | ⟨_, _, _, _, refused⟩
        · rw [accepted] at passed
          obtain ⟨numbered, others⟩ := inductionHypothesis passed
          refine ⟨fun index later found => ?_, List.forall_mem_cons.2 ⟨addressed, others⟩⟩
          cases index with
          | zero =>
              obtain rfl := Option.some.inj found
              exact first.trans (UInt64.add_zero _).symm
          | succ index =>
              rw [numbered index later found, UInt64.ofNat_add, UInt64.add_comm _ (UInt64.ofNat 1),
                ← UInt64.add_assoc]
              rfl
        · rw [refused] at passed
          cases passed
      · cases passed

/-- Frames that go on from zero without coming to a second zero number the
ticks. -/
theorem Onward.numbered
    {frames : List Frame}
    (onward : Onward frames)
    (fits : frames.length ≤ UInt64.size) :
    Numbered frames := by
  intro index frame found
  rw [onward index frame found]
  exact UInt64.toNat_ofNat_of_lt' (Nat.lt_of_lt_of_le (List.getElem?_eq_some_iff.1 found).1 fits)

/-- A valid recording with no more frames than there are ticks numbers its ticks,
and its targets can be read back. -/
theorem of_validate
    {recording : Recording}
    (valid : recording.validate = .ok ())
    (fits : recording.frames.length ≤ UInt64.size) :
    Numbered recording.frames ∧ ∀ frame ∈ recording.frames, frame.Addressed := by
  obtain ⟨going, addressed⟩ := of_checkFrames valid
  refine ⟨Onward.numbered (fun index frame found => ?_) fits, addressed⟩
  rw [going index frame found, UInt64.zero_add]

/-- The ticks of numbered frames ascend. -/
theorem Numbered.ascending
    {frames : List Frame}
    (numbered : Numbered frames) :
    Ascending (frames.map fun frame => (frame.tick, frame)) := by
  rw [Ascending, List.pairwise_map, List.pairwise_iff_getElem]
  intro i j first second before
  refine Std.compare_eq_lt.2 (UInt64.lt_iff_toNat_lt.2 ?_)
  rwa [numbered i _ (List.getElem?_eq_getElem first),
    numbered j _ (List.getElem?_eq_getElem second)]

/-- The last of numbered frames has the greatest tick. -/
theorem Numbered.le_last
    {frames : List Frame}
    (numbered : Numbered frames)
    {frame : Frame}
    (member : frame ∈ frames) :
    ∃ last ∈ frames.getLast?.map (·.tick), frame.tick ≤ last := by
  obtain ⟨index, found⟩ := List.getElem?_of_mem member
  have inside := (List.getElem?_eq_some_iff.1 found).1
  have isLast := List.getElem?_eq_getElem (l := frames) (i := frames.length - 1) (by omega)
  refine ⟨_, Option.mem_map_of_mem _ (List.getLast?_eq_getElem?.trans isLast), ?_⟩
  rw [UInt64.le_iff_toNat_le, numbered index frame found, numbered _ _ isLast]
  omega

end Recording

namespace Source

open Recording (Numbered)

/-- The source of a valid recording has its frames under their ticks and ends
with the last one. -/
theorem ofRecording_eq_ok
    {recording : Recording}
    (numbered : Numbered recording.frames)
    (addressed : ∀ frame ∈ recording.frames, frame.Addressed) :
    ∃ source,
      ofRecording recording = .ok source ∧
        source.metadata = recording.metadata ∧
        (∀ frame ∈ recording.frames, source.frame? frame.tick = some frame) ∧
        source.lastTick? = recording.frames.getLast?.map (·.tick) := by
  have entries := Dict.entries_ofList numbered.ascending
  refine ⟨⟨recording.metadata, .ofList (recording.frames.map fun frame => (frame.tick, frame))⟩,
    ?_, rfl, fun frame member => ?_, ?_⟩
  · rw [ofRecording, Recording.validate_eq_ok numbered addressed]
  · rw [frame?, Dict.get?_eq_some_iff, entries]
    exact List.mem_map.2 ⟨frame, member, rfl⟩
  · rw [lastTick?, Dict.keys, entries, List.map_map, List.getLast?_map]
    rfl

end Source
end Chronicle
