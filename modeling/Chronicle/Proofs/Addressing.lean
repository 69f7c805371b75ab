import Chronicle.Clients
import Chronicle.Proofs.Loadable
import Chronicle.Proofs.RoundTrip

/-!
# Targets and their records

The record of a target stands for that target, also when it was written as JSON and read
back, unless the target is an empty list of players.  A record stands for a target
exactly if its number of ids suits its case, and no two records stand for the same one.
-/

namespace Chronicle

open Json (Decoder)

namespace TargetRecord

/-- The number of ids of a record suits its case. -/
def Suits (record : TargetRecord) : Prop :=
  match record.case with
  | .all => record.ids = []
  | .player | .client | .session => record.ids.length = 1
  | .players => 1 ≤ record.ids.length

/-! ## Written and read back -/

/-- The stored form of a record holds strings alone. -/
@[simp] theorem decimals_toJson (record : TargetRecord) : record.toJson.decimals = [] := by
  have strings (ids : List String) : Json.decimalsOfItems (ids.map .string) = [] := by
    induction ids with
    | nil => rfl
    | cons id rest inductionHypothesis =>
        rw [List.map_cons, Json.decimalsOfItems, inductionHypothesis]
        rfl
  simp [toJson, Json.decimals, Json.decimalsOfMembers, strings]

/-- The stored form of a record opens two brackets at most. -/
theorem depth_toJson_le (record : TargetRecord) : record.toJson.depth ≤ Json.maxDepth := by
  have strings (ids : List String) : Json.depthItems (ids.map .string) = 0 := by
    induction ids with
    | nil => rfl
    | cons id rest inductionHypothesis =>
        rw [List.map_cons, Json.depthItems, inductionHypothesis]
        rfl
  simp [toJson, Json.depth, Json.depthMembers, strings, Json.maxDepth]

/-- A record is read back from its text, on one line or spread over several. -/
theorem decode?_toJson (record : TargetRecord) :
    decoder.decode? record.toJson.compact = some record ∧
      decoder.decode? record.toJson.pretty = some record := by
  have decimals : ∀ number ∈ record.toJson.decimals, number.ReadsBack := by simp
  have taken : decoder Json.maxDepth (.ofJson 1 record.toJson) = .ok record :=
    (decoder_restores 1 Json.maxDepth record).taken record.depth_toJson_le
  have spread := Decoder.decodeText_prettyChars decoder_relocates decimals
  rw [taken] at spread
  constructor
  · rw [Decoder.decode?, Json.compact, String.toList_ofList, decoder.decodeText_chars decimals,
      taken]
    rfl
  · rw [Decoder.decode?, Json.pretty, String.toList_ofList]
    cases read : decoder.decodeText (record.toJson.prettyChars 0) with
    | error line =>
        rw [read] at spread
        cases spread
    | ok value =>
        rw [read] at spread
        exact congrArg some (Except.ok.inj spread)

/-! ## What a record stands for -/

/-- A record stands for the target whose record it is, if its number of ids suits its
case; otherwise the error names its case and its number of ids. -/
theorem toTarget_cases (record : TargetRecord) :
    (record.Suits ∧ ∃ target, record.toTarget = .ok target ∧ target.toRecord = record) ∨
      (¬record.Suits ∧ record.toTarget = .error ⟨record.case, record.ids.length⟩) := by
  obtain ⟨case, ids⟩ := record
  cases case with
  | all =>
      cases ids with
      | nil => exact .inl ⟨rfl, .all, rfl, rfl⟩
      | cons id rest => exact .inr ⟨List.cons_ne_nil id rest, rfl⟩
  | players =>
      cases ids with
      | nil => exact .inr ⟨Nat.not_succ_le_zero 0, rfl⟩
      | cons id rest =>
          exact .inl ⟨Nat.succ_le_succ (Nat.zero_le _), .players (id :: rest), rfl, rfl⟩
  | player | client | session =>
      match ids with
      | [] => exact .inr ⟨Nat.zero_ne_one, rfl⟩
      | [id] => exact .inl ⟨rfl, _, rfl, rfl⟩
      | first :: second :: rest => exact .inr ⟨by simp [Suits], rfl⟩

/-- The record of a target that a record stands for is the record itself. -/
theorem toRecord_of_toTarget {record : TargetRecord} {target : Target}
    (stands : record.toTarget = .ok target) :
    target.toRecord = record := by
  rcases record.toTarget_cases with ⟨-, other, isOther, same⟩ | ⟨-, fault⟩
  · obtain rfl := Except.ok.inj (stands.symm.trans isOther)
    exact same
  · exact nomatch stands.symm.trans fault

/-- A record stands for a target exactly if its number of ids suits its case. -/
theorem exists_toTarget_iff {record : TargetRecord} :
    (∃ target, record.toTarget = .ok target) ↔ record.Suits := by
  rcases record.toTarget_cases with ⟨suits, target, isTarget, -⟩ | ⟨unsuited, fault⟩
  · exact iff_of_true ⟨target, isTarget⟩ suits
  · exact iff_of_false (fun ⟨target, isTarget⟩ => nomatch isTarget.symm.trans fault) unsuited

/-- Reading a record fails, with its case and its number of ids, exactly if they do not
suit each other. -/
theorem toTarget_eq_error_iff {record : TargetRecord} {error : TargetError} :
    record.toTarget = .error error ↔
      ¬record.Suits ∧ error = ⟨record.case, record.ids.length⟩ := by
  rcases record.toTarget_cases with ⟨suits, target, isTarget, -⟩ | ⟨unsuited, fault⟩
  · exact iff_of_false (fun failed => nomatch isTarget.symm.trans failed)
      fun unsuited => unsuited.1 suits
  · rw [fault, Except.error.injEq]
    exact ⟨fun same => ⟨unsuited, same.symm⟩, fun both => both.2.symm⟩

end TargetRecord

/-- A target other than an empty list of players is what its record stands for. -/
theorem Target.toTarget_toRecord_of_ne {target : Target} (addressed : target ≠ .players []) :
    target.toRecord.toTarget = .ok target := by
  refine Target.toTarget_toRecord fun empty => addressed ?_
  cases target with
  | players ids => exact congrArg Target.players (TargetRecord.mk.inj empty).2
  | all | player | client | session => exact nomatch (TargetRecord.mk.inj empty).1

/-- A target other than an empty list of players comes back from the text of its record, and
selects the same clients as before.  A record stands for a target exactly if its number of
ids suits its case; then the record of that target is the record itself, and otherwise the
error has its case and its number of ids. -/
theorem records_image_targets :
    (∀ target : Target, target ≠ .players [] →
      ∀ text, text = target.toRecord.toJson.compact ∨ text = target.toRecord.toJson.pretty →
        ∃ record restored,
          TargetRecord.decoder.decode? text = some record ∧ record.toTarget = .ok restored ∧
            restored = target ∧
            ∀ clients : Clients, clients.addressesFor restored = clients.addressesFor target) ∧
    (∀ record : TargetRecord, (∃ target, record.toTarget = .ok target) ↔ record.Suits) ∧
    (∀ record target, TargetRecord.toTarget record = .ok target → target.toRecord = record) ∧
    ∀ record error, TargetRecord.toTarget record = .error error ↔
      ¬record.Suits ∧ error = ⟨record.case, record.ids.length⟩ := by
  refine ⟨fun target addressed text isText => ?_, fun _ => TargetRecord.exists_toTarget_iff,
    fun _ _ => TargetRecord.toRecord_of_toTarget, fun _ _ => TargetRecord.toTarget_eq_error_iff⟩
  have readable : TargetRecord.decoder.decode? text = some target.toRecord := by
    rcases isText with rfl | rfl
    · exact target.toRecord.decode?_toJson.1
    · exact target.toRecord.decode?_toJson.2
  exact ⟨target.toRecord, target, readable, Target.toTarget_toRecord_of_ne addressed, rfl,
    fun _ => rfl⟩

/-- A list of players comes back, also one with quotes and line breaks in its ids.  Two
ids do not suit a client, and one does. -/
theorem records_image_targets_of_players :
    let target : Target := .players ["p1", "zoë \"2\"\n"]
    let client : TargetRecord := ⟨.client, ["c1"]⟩
    target ≠ .players [] ∧
    (∃ record restored,
      TargetRecord.decoder.decode? target.toRecord.toJson.compact = some record ∧
        record.toTarget = .ok restored ∧ restored = target ∧
        ∀ clients : Clients, clients.addressesFor restored = clients.addressesFor target) ∧
    (client.toTarget = .ok (.client "c1") ∧ (Target.client "c1").toRecord = client) ∧
    TargetRecord.toTarget ⟨.client, ["c1", "c2"]⟩ = .error ⟨.client, 2⟩ := by
  intro target client
  have addressed : target ≠ .players [] := by decide
  obtain ⟨back, -, same, failed⟩ := records_image_targets
  exact ⟨addressed, back target addressed _ (.inl rfl), ⟨rfl, same client _ rfl⟩,
    (failed _ _).2 ⟨by simp [TargetRecord.Suits], rfl⟩⟩

end Chronicle
