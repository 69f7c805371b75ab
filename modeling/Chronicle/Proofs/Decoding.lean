import Chronicle.Json.Decoder
import Chronicle.Proofs.Dict

/-!
# Decoding what was printed

A value that was printed stands on one line, so every fault in it is on that
line and only the nesting decides whether it is taken.  A verdict says both:
the result if the value is shallow enough, and a fault otherwise.  Verdicts are
put together as decoders are.
-/

namespace Chronicle
namespace Json

/-- Values are built from parts that are items or members. -/
@[elab_as_elim]
theorem byParts
    {motive : Json → Prop}
    (null : motive .null)
    (bool : ∀ value, motive (.bool value))
    (number : ∀ value, motive (.number value))
    (string : ∀ value, motive (.string value))
    (array : ∀ items, (∀ item ∈ items, motive item) → motive (.array items))
    (object : ∀ members, (∀ member ∈ members, motive member.2) → motive (.object members))
    (value : Json) :
    motive value := by
  refine @Json.rec motive (fun items => ∀ item ∈ items, motive item)
    (fun members => ∀ member ∈ members, motive member.2) (fun member => motive member.2)
    null bool number string array object ?_ ?_ ?_ ?_ ?_ value
  · exact List.forall_mem_nil _
  · exact fun _ _ first rest => List.forall_mem_cons.2 ⟨first, rest⟩
  · exact List.forall_mem_nil _
  · exact fun _ _ first rest => List.forall_mem_cons.2 ⟨first, rest⟩
  · exact fun _ _ value => value

mutual

/-- A value as it is kept once it has been read: its objects are canonical. -/
def canonical : Json → Json
  | .null => .null
  | .bool value => .bool value
  | .number value => .number value
  | .string value => .string value
  | .array items => .array (canonicalItems items)
  | .object members => .ofMembers (canonicalMembers members)

/-- A list of values as they are kept. -/
def canonicalItems : List Json → List Json
  | [] => []
  | item :: rest => item.canonical :: canonicalItems rest

/-- A list of members as they are kept. -/
def canonicalMembers : List (String × Json) → List (String × Json)
  | [] => []
  | (key, value) :: rest => (key, value.canonical) :: canonicalMembers rest

end

theorem canonicalItems_eq (items : List Json) : canonicalItems items = items.map canonical := by
  induction items with
  | nil => rfl
  | cons item rest inductionHypothesis => rw [canonicalItems, inductionHypothesis, List.map_cons]

theorem canonicalMembers_eq (members : List (String × Json)) :
    canonicalMembers members = members.map fun member => (member.1, member.2.canonical) := by
  induction members with
  | nil => rfl
  | cons member rest inductionHypothesis =>
      rw [canonicalMembers, inductionHypothesis, List.map_cons]

/-- The object of a list of members is that of its dictionary. -/
theorem ofMembers_eq (members : List (String × Json)) :
    ofMembers members = .ofDict (.ofList members) := by
  have inserted (sorted : Dict String Json) :
      members.foldl (fun sorted member => insertMember member.1 member.2 sorted) sorted.entries =
        (members.foldl (fun d member => d.insert member.1 member.2) sorted).entries := by
    induction members generalizing sorted with
    | nil => rfl
    | cons member rest inductionHypothesis =>
        rw [List.foldl_cons, List.foldl_cons, ← inductionHypothesis]
        rfl
  exact congrArg Json.object (inserted .empty)

/-- Members with ascending keys are the members of their object. -/
theorem ofMembers_of_ascending {members : List (String × Json)} (ascending : Ascending members) :
    ofMembers members = .object members := by
  rw [ofMembers_eq, ofDict, Dict.entries_ofList ascending]

/-- A list of values is as deep as its deepest item. -/
theorem depthItems_le_iff {items : List Json} {room : Nat} :
    depthItems items ≤ room ↔ ∀ item ∈ items, item.depth ≤ room := by
  induction items with
  | nil => simp [depthItems]
  | cons item rest inductionHypothesis =>
      rw [depthItems, Nat.max_le, inductionHypothesis, List.forall_mem_cons]

/-- A list of members is as deep as its deepest value. -/
theorem depthMembers_le_iff {members : List (String × Json)} {room : Nat} :
    depthMembers members ≤ room ↔ ∀ member ∈ members, member.2.depth ≤ room := by
  induction members with
  | nil => simp [depthMembers]
  | cons member rest inductionHypothesis =>
      rw [depthMembers, Nat.max_le, inductionHypothesis, List.forall_mem_cons]

/-! ## Verdicts -/

/-- An outcome of decoding what stands on one line: the result if it fits, and a
fault otherwise. -/
structure Verdict (outcome : Except Nat α) (line : Nat) (fits : Prop) (result : α) : Prop where
  taken : fits → outcome = .ok result
  refused : ¬fits → outcome = .error line

namespace Verdict

variable {outcome : Except Nat α} {line : Nat} {fits : Prop} {result : α}

/-- What fits may be said in another way. -/
theorem congr
    {others : Prop}
    (verdict : Verdict outcome line fits result)
    (same : others ↔ fits) :
    Verdict outcome line others result :=
  ⟨fun fit => verdict.taken (same.1 fit), fun unfit => verdict.refused (unfit ∘ same.2)⟩

/-- A result that fits. -/
theorem always (fit : fits) : Verdict (.ok result) line fits result :=
  ⟨fun _ => rfl, fun unfit => absurd fit unfit⟩

/-- A fault of what does not fit. -/
theorem never (unfit : ¬fits) : Verdict (.error line) line fits result :=
  ⟨fun fit => absurd fit unfit, fun _ => rfl⟩

/-- A result is taken exactly if it fits. -/
theorem isOk_iff (verdict : Verdict outcome line fits result) :
    (∃ taken, outcome = .ok taken) ↔ fits := by
  by_cases fit : fits
  · exact iff_of_true ⟨result, verdict.taken fit⟩ fit
  · rw [verdict.refused fit]
    exact iff_of_false (by rintro ⟨_, taken⟩; cases taken) fit

/-- One outcome after another. -/
theorem bind
    {next : α → Except Nat β}
    {nextFits : Prop}
    {nextResult : β}
    (first : Verdict outcome line fits result)
    (second : Verdict (next result) line nextFits nextResult) :
    Verdict (outcome >>= next) line (fits ∧ nextFits) nextResult := by
  by_cases fit : fits
  · rw [first.taken fit]
    exact second.congr (and_iff_right fit)
  · rw [first.refused fit]
    exact never fun both => fit both.1

/-- A function of the result. -/
theorem map (verdict : Verdict outcome line fits result) (f : α → β) :
    Verdict (outcome.map f) line fits (f result) :=
  ⟨fun fit => by rw [verdict.taken fit]; rfl, fun unfit => by rw [verdict.refused unfit]; rfl⟩

/-- A list is taken if each of its parts is. -/
theorem mapM
    {parts : List β}
    {decode : β → Except Nat γ}
    {partFits : β → Prop}
    {partResult : β → γ}
    (each : ∀ part ∈ parts, Verdict (decode part) line (partFits part) (partResult part)) :
    Verdict (parts.mapM decode) line (∀ part ∈ parts, partFits part) (parts.map partResult) := by
  induction parts with
  | nil => exact always (List.forall_mem_nil _)
  | cons part rest inductionHypothesis =>
      obtain ⟨first, later⟩ := List.forall_mem_cons.1 each
      rw [List.mapM_cons, List.map_cons]
      have others : Verdict (do return partResult part :: (← rest.mapM decode)) line
          ((∀ part ∈ rest, partFits part) ∧ True) (partResult part :: rest.map partResult) :=
        (inductionHypothesis later).bind (always trivial)
      apply (first.bind others).congr
      rw [List.forall_mem_cons, and_true]

end Verdict

namespace Located

theorem ofItems_eq (line : Nat) (items : List Json) :
    ofItems line items = items.map (ofJson line) := by
  induction items with
  | nil => rfl
  | cons item rest inductionHypothesis => rw [ofItems, inductionHypothesis, List.map_cons]

theorem ofMembers_eq (line : Nat) (members : List (String × Json)) :
    ofMembers line members =
      members.map fun member => (⟨line, .ofString line member.1, line⟩, ofJson line member.2) := by
  induction members with
  | nil => rfl
  | cons member rest inductionHypothesis => rw [ofMembers, inductionHypothesis, List.map_cons]

end Located

namespace Decoder

/-- A decoder restores what was stored: it takes the stored form if its brackets
can be opened, and keeps so much of it. -/
def Restores (decoder : Decoder α) (encode : β → Json) (kept : β → α) : Prop :=
  ∀ line room value,
    Verdict (decoder room (.ofJson line (encode value))) line ((encode value).depth ≤ room)
      (kept value)

/-- Items are taken one by one. -/
theorem items_verdict
    (decoder : Decoder α)
    (encode : β → Json)
    (kept : β → α)
    {line room : Nat}
    {values : List β}
    (each : ∀ value ∈ values,
      Verdict (decoder room (.ofJson line (encode value))) line ((encode value).depth ≤ room)
        (kept value)) :
    Verdict ((Located.ofItems line (values.map encode)).mapM (decoder room)) line
      (depthItems (values.map encode) ≤ room) (values.map kept) := by
  have verdict := Verdict.mapM each
  rw [Located.ofItems_eq, List.map_map, List.mapM_map]
  apply verdict.congr
  rw [depthItems_le_iff, List.forall_mem_map]

/-- Members are taken one by one, with their keys. -/
theorem members_verdict
    (decoder : Decoder α)
    (encode : β → Json)
    (kept : β → α)
    {line room : Nat}
    {entries : List (String × β)}
    (each : ∀ entry ∈ entries,
      Verdict (decoder room (.ofJson line (encode entry.2))) line
        ((encode entry.2).depth ≤ room) (kept entry.2)) :
    Verdict
      ((Located.ofMembers line (entries.map fun entry => (entry.1, encode entry.2))).mapM
        fun member => do
          let key ← member.1.literal.content
          return (key, ← decoder room member.2))
      line (depthMembers (entries.map fun entry => (entry.1, encode entry.2)) ≤ room)
      (entries.map fun entry => (entry.1, kept entry.2)) := by
  have keyed (entry : String × β) (member : entry ∈ entries) :
      Verdict (do return (entry.1, ← decoder room (.ofJson line (encode entry.2)))) line
        ((encode entry.2).depth ≤ room ∧ True) (entry.1, kept entry.2) :=
    (each entry member).bind (.always trivial)
  have verdict := Verdict.mapM keyed
  rw [Located.ofMembers_eq, List.map_map, List.mapM_map]
  apply verdict.congr
  rw [depthMembers_le_iff, List.forall_mem_map]
  simp

/-- The closing bracket is there. -/
theorem closed_verdict
    {outcome : Except Nat α}
    {line : Nat}
    {fits : Prop}
    {result : α}
    (inside : Verdict outcome line fits result)
    (f : α → β) :
    Verdict (do
        let taken ← outcome
        checkEnding (.closed line)
        return f taken)
      line fits (f result) :=
  ⟨fun fit => by rw [inside.taken fit]; rfl, fun unfit => by rw [inside.refused unfit]; rfl⟩

/-- Any value is kept with its objects in canonical order. -/
theorem value_restores : Restores value id canonical := by
  intro line room stored
  rw [id]
  induction stored using byParts generalizing room with
  | null =>
      rw [Located.ofJson, value, canonical]
      exact Verdict.always (Nat.zero_le room)
  | bool b =>
      rw [Located.ofJson, value, canonical]
      exact Verdict.always (Nat.zero_le room)
  | number n =>
      rw [Located.ofJson, value, canonical]
      exact Verdict.always (Nat.zero_le room)
  | string text =>
      rw [Located.ofJson, value, canonical]
      exact Verdict.always (Nat.zero_le room)
  | array items parts =>
      rw [Located.ofJson, canonical]
      cases room with
      | zero =>
          rw [value]
          exact Verdict.never (Nat.not_succ_le_zero _)
      | succ room =>
          have taken := items_verdict value id canonical fun item member => parts item member room
          rw [List.map_id] at taken
          rw [value, canonicalItems_eq]
          exact (closed_verdict taken Json.array).congr Nat.succ_le_succ_iff
  | object members parts =>
      rw [Located.ofJson, canonical]
      cases room with
      | zero =>
          rw [value]
          exact Verdict.never (Nat.not_succ_le_zero _)
      | succ room =>
          have taken := members_verdict value id canonical fun member inside =>
            parts member inside room
          have same : (members.map fun member => (member.1, id member.2)) = members :=
            List.map_id members
          rw [same] at taken
          rw [value, canonicalMembers_eq]
          exact (closed_verdict taken Json.ofMembers).congr Nat.succ_le_succ_iff

/-- The canonical form of a dictionary's object is that of its values. -/
theorem canonical_ofDict (d : Dict String Json) :
    (ofDict d).canonical = ofDict (d.map canonical) := by
  rw [ofDict, canonical, canonicalMembers_eq, ofMembers_eq]
  exact congrArg ofDict (Dict.ext (Dict.entries_ofList (d.map canonical).ascending))

/-- What holds of everything that a function takes holds of what it takes from a
list. -/
theorem forall_of_mapM
    {decode : α → Except Nat β}
    {holds : β → Prop}
    (each : ∀ part result, decode part = .ok result → holds result)
    {parts : List α}
    {results : List β}
    (taken : parts.mapM decode = .ok results) :
    ∀ result ∈ results, holds result := by
  induction parts generalizing results with
  | nil =>
      cases taken
      exact List.forall_mem_nil _
  | cons part rest inductionHypothesis =>
      rw [List.mapM_cons] at taken
      cases first : decode part with
      | error fault =>
          rw [first] at taken
          cases taken
      | ok result =>
          cases others : rest.mapM decode with
          | error fault =>
              rw [first, others] at taken
              cases taken
          | ok later =>
              rw [first, others] at taken
              obtain rfl := Except.ok.inj taken
              exact List.forall_mem_cons.2 ⟨each part result first, inductionHypothesis others⟩

/-- Any value that was taken is canonical. -/
theorem canonical_of_value {stored : Json} :
    (room : Nat) → (node : Located) → value room node = .ok stored → stored.canonical = stored
  | _, .null _, taken => by
      rw [value] at taken
      obtain rfl := Except.ok.inj taken
      rfl
  | _, .bool _ b, taken => by
      rw [value] at taken
      obtain rfl := Except.ok.inj taken
      rfl
  | _, .number _ none, taken => by
      rw [value] at taken
      cases taken
  | _, .number _ (some n), taken => by
      rw [value] at taken
      obtain rfl := Except.ok.inj taken
      rfl
  | _, .string ⟨_, .error _, _⟩, taken => by
      rw [value] at taken
      cases taken
  | _, .string ⟨_, .ok text, _⟩, taken => by
      rw [value] at taken
      obtain rfl := Except.ok.inj taken
      rfl
  | _, .broken _ _, taken => by
      rw [value] at taken
      cases taken
  | 0, .array _ _ _, taken => by
      rw [value] at taken
      cases taken
  | 0, .object _ _ _, taken => by
      rw [value] at taken
      cases taken
  | room + 1, .array _ items ending, taken => by
      rw [value] at taken
      cases inside : items.mapM (value room) with
      | error fault =>
          rw [inside] at taken
          cases taken
      | ok parts =>
          have each := forall_of_mapM (fun node _ => canonical_of_value room node) inside
          rw [inside] at taken
          cases ending with
          | broken lead fault => cases taken
          | closed line =>
              obtain rfl := Except.ok.inj taken
              rw [canonical, canonicalItems_eq, List.map_congr_left each, List.map_id']
  | room + 1, .object _ members ending, taken => by
      rw [value] at taken
      cases inside : members.mapM (fun member => do
          let key ← member.1.literal.content
          return (key, ← value room member.2)) with
      | error fault =>
          rw [inside] at taken
          cases taken
      | ok parts =>
          have one (member : Key × Located) (part : String × Json)
              (isPart : (do
                let key ← member.1.literal.content
                return (key, ← value room member.2)) = Except.ok part) :
              part.2.canonical = part.2 := by
            cases key : member.1.literal.content with
            | error fault =>
                rw [key] at isPart
                cases isPart
            | ok name =>
                cases inner : value room member.2 with
                | error fault =>
                    rw [key, inner] at isPart
                    cases isPart
                | ok part =>
                    rw [key, inner] at isPart
                    obtain rfl := Except.ok.inj isPart
                    exact canonical_of_value room member.2 inner
          have each := forall_of_mapM one inside
          rw [inside] at taken
          cases ending with
          | broken lead fault => cases taken
          | closed line =>
              obtain rfl := Except.ok.inj taken
              have same : ((Dict.ofList parts).map canonical).entries =
                  (Dict.ofList parts).entries := by
                refine (List.map_congr_left fun entry member => ?_).trans (List.map_id _)
                rw [each entry (Dict.mem_of_mem_ofList member)]
                rfl
              rw [ofMembers_eq, canonical_ofDict, Dict.ext same]

/-! ## Decoders of single values -/

theorem string_restores : Restores string .string id :=
  fun _ _ _ => .always (Nat.zero_le _)

theorem bool_restores : Restores bool .bool id :=
  fun _ _ _ => .always (Nat.zero_le _)

theorem integer_ofJson
    {low high value : Int}
    {fits : FitsWord value}
    (line room : Nat)
    (within : low ≤ value ∧ value < high) :
    integer low high room (.ofJson line (.number (.integer value fits))) = .ok value := by
  rw [Located.ofJson, integer, if_pos within]

theorem word64_restores : Restores word64 ofUInt64 id := by
  intro line room n
  have within : (0 : Int) ≤ (n.toNat : Int) ∧ (n.toNat : Int) < (UInt64.size : Nat) :=
    ⟨Int.natCast_nonneg _, Int.ofNat_lt.2 n.toNat_lt_size⟩
  rw [word64, ofUInt64, Number.ofUInt64, integer_ofJson line room within, Except.map,
    Int.toNat_natCast, UInt64.ofNat_toNat]
  exact .always (Nat.zero_le _)

/-- A named value is restored if its name is that of no other. -/
theorem variant_restores
    {named : String → Option α}
    {name : α → String}
    (distinct : ∀ value, named (name value) = some value) :
    Restores (variant named) (fun value => .string (name value)) id := by
  intro line room value
  have taken : variant named room (.ofJson line (.string (name value))) = .ok value := by
    simp [variant, choice, Located.ofJson, Quoted.ofString, distinct]
  rw [taken]
  exact .always (Nat.zero_le _)

/-- What is not null is left to the decoder. -/
theorem nullable_ofJson
    {decoder : Decoder α}
    {line room : Nat}
    {stored : Json}
    (notNull : stored ≠ .null) :
    nullable decoder room (.ofJson line stored) =
      (decoder room (.ofJson line stored)).map some := by
  cases stored with
  | null => exact absurd rfl notNull
  | _ => rfl

/-- Null stands for nothing, where the stored form of something is not null. -/
theorem nullable_restores
    {decoder : Decoder α}
    {encode : α → Json}
    (restores : Restores decoder encode id)
    (notNull : ∀ value, encode value ≠ .null) :
    Restores (nullable decoder) (ofOption encode) id := by
  intro line room value
  cases value with
  | none => exact .always (Nat.zero_le _)
  | some value =>
      rw [ofOption, nullable_ofJson (notNull value)]
      exact (restores line room value).map some

/-- A value that is null counts as none. -/
theorem nullable_value_restores :
    Restores (nullable value) id fun stored =>
      if stored = .null then none else some stored.canonical := by
  intro line room stored
  by_cases isNull : stored = .null
  · subst isNull
    exact .always (Nat.zero_le _)
  · simp only [if_neg isNull, id, nullable_ofJson isNull]
    exact (value_restores line room stored).map some

theorem list_restores
    {decoder : Decoder α}
    {encode : β → Json}
    {kept : β → α}
    (restores : Restores decoder encode kept) :
    Restores (list decoder) (fun values => .array (values.map encode)) (List.map kept) := by
  intro line room values
  cases room with
  | zero => exact .never (Nat.not_succ_le_zero _)
  | succ room =>
      have taken := items_verdict decoder encode kept fun value (_ : value ∈ values) =>
        restores line room value
      exact (closed_verdict taken id).congr Nat.succ_le_succ_iff

theorem dict_restores
    {decoder : Decoder α}
    {encode : β → Json}
    {kept : β → α}
    (restores : Restores decoder encode kept) :
    Restores (dict decoder) (fun values => .ofDict (values.map encode)) (Dict.map kept) := by
  intro line room values
  cases room with
  | zero => exact .never (Nat.not_succ_le_zero _)
  | succ room =>
      have taken := members_verdict decoder encode kept
        fun entry (_ : entry ∈ values.entries) => restores line room entry.2
      have whole : Dict.ofList (values.entries.map fun entry => (entry.1, kept entry.2)) =
          values.map kept := Dict.ext (Dict.entries_ofList (values.map kept).ascending)
      rw [← whole]
      exact (closed_verdict taken Dict.ofList).congr Nat.succ_le_succ_iff

end Decoder

/-! ## Records -/

/-- The first value under a name. -/
def valueOf? (name : String) (members : List (String × Json)) : Option Json :=
  (members.find? fun member => member.1 == name).map (·.2)

namespace Members

/-- The members of an object that was printed on a line. -/
def onLine (line : Nat) (members : List (String × Json)) : Members :=
  let located := Located.ofMembers line members
  ⟨Decoder.ranked 0 located, false, ⟨located.length + 1, line⟩⟩

variable {line : Nat} {members : List (String × Json)} {name : String}

/-- A member is found under its name. -/
theorem find?_onLine :
    ((onLine line members).find? name).map (·.2) =
      (valueOf? name members).map (Located.ofJson line) := by
  have ranked (rank : Nat) :
      (((Decoder.ranked rank (Located.ofMembers line members)).find? fun member =>
        member.1 == name).map (·.2)).map (·.2) =
          (valueOf? name members).map (Located.ofJson line) := by
    induction members generalizing rank with
    | nil => rfl
    | cons member rest inductionHypothesis =>
        have first : Decoder.ranked rank (Located.ofMembers line (member :: rest)) =
            (member.1, rank, .ofJson line member.2) ::
              Decoder.ranked (rank + 1) (Located.ofMembers line rest) := rfl
        rw [first, valueOf?]
        cases same : member.1 == name with
        | true => simp only [List.find?_cons, same, Option.map_some]
        | false =>
            simp only [List.find?_cons, same]
            exact inductionHypothesis (rank + 1)
  exact ranked 0

/-- All members of a name are found. -/
theorem all_onLine :
    (onLine line members).all name =
      (members.filter fun member => member.1 == name).map fun member =>
        .ofJson line member.2 := by
  have ranked (rank : Nat) :
      ((Decoder.ranked rank (Located.ofMembers line members)).filter fun member =>
        member.1 == name).map (·.2.2) =
          (members.filter fun member => member.1 == name).map fun member =>
            .ofJson line member.2 := by
    induction members generalizing rank with
    | nil => rfl
    | cons member rest inductionHypothesis =>
        have first : Decoder.ranked rank (Located.ofMembers line (member :: rest)) =
            (member.1, rank, .ofJson line member.2) ::
              Decoder.ranked (rank + 1) (Located.ofMembers line rest) := rfl
        rw [first, List.filter_cons, List.filter_cons]
        split
        · rw [List.map_cons, List.map_cons, inductionHypothesis]
        · exact inductionHypothesis (rank + 1)
  exact ranked 0

end Members

namespace Fields

@[simp] theorem mem_names_seq (f : Fields (α → β)) (x : Fields α) {name : String} :
    name ∈ (f <*> x).names ↔ name ∈ f.names ∨ name ∈ x.names := List.mem_append

@[simp] theorem mem_names_map (f : α → β) (x : Fields α) {name : String} :
    name ∈ (f <$> x).names ↔ name ∈ x.names := Iff.rfl

@[simp] theorem mem_names_required (known : String) (decoder : Decoder α) {name : String} :
    name ∈ (required known decoder).names ↔ name = known := List.mem_singleton

@[simp] theorem mem_names_defaulted (known : String) (decoder : Decoder α) (default : α)
    {name : String} :
    name ∈ (defaulted known decoder default).names ↔ name = known := List.mem_singleton

@[simp] theorem mem_names_optional (known : String) (decoder : Decoder α) {name : String} :
    name ∈ (optional known decoder).names ↔ name = known := List.mem_singleton

/-- What fields make of the members of an object that was printed on a line, up
to the ranks of the faults. -/
def Gives (fields : Fields α) (line room : Nat) (members : List (String × Json)) (fits : Prop)
    (result : α) : Prop :=
  Verdict ((fields.decode room (.onLine line members)).mapError (·.line)) line fits result

section Gives

variable {line room : Nat} {members : List (String × Json)} {fits : Prop}

/-- What fits may be said in another way. -/
theorem Gives.congr
    {fields : Fields α}
    {result : α}
    {others : Prop}
    (gives : fields.Gives line room members fits result)
    (same : others ↔ fits) :
    fields.Gives line room members others result :=
  Verdict.congr gives same

/-- Independent fields fit if both do. -/
theorem Gives.seq
    {f : Fields (α → β)}
    {x : Fields α}
    {function : α → β}
    {argument : α}
    {others : Prop}
    (first : f.Gives line room members fits function)
    (second : x.Gives line room members others argument) :
    (f <*> x).Gives line room members (fits ∧ others) (function argument) := by
  have decoded : (f <*> x).decode room (.onLine line members) =
      both (f.decode room (.onLine line members)) (x.decode room (.onLine line members)) := rfl
  rw [Gives] at first second ⊢
  rw [decoded]
  generalize f.decode room (.onLine line members) = left at first
  generalize x.decode room (.onLine line members) = right at second
  constructor
  · rintro ⟨fit, other⟩
    have isFunction := first.taken fit
    have isArgument := second.taken other
    cases left <;> cases right <;> cases isFunction <;> cases isArgument
    rfl
  · intro unfit
    cases left with
    | ok f =>
        have fit : fits := first.isOk_iff.1 ⟨f, rfl⟩
        have isFault := second.refused fun other => unfit ⟨fit, other⟩
        cases right with
        | ok x => cases isFault
        | error fault => exact congrArg Except.error (Except.error.inj isFault)
    | error fault =>
        have isFault : fault.line = line :=
          Except.error.inj (first.refused fun fit => by cases first.taken fit)
        cases right with
        | ok x => exact congrArg Except.error isFault
        | error other =>
            have isOther : other.line = line :=
              Except.error.inj (second.refused fun fit => by cases second.taken fit)
            have isEarlier : (earlier fault other).line = line := by
              unfold earlier
              split
              · exact isOther
              · exact isFault
            exact congrArg Except.error isEarlier

theorem Gives.map
    {x : Fields α}
    {argument : α}
    (gives : x.Gives line room members fits argument)
    (f : α → β) :
    (f <$> x).Gives line room members (True ∧ fits) (f argument) := by
  have whole : (pure f : Fields (α → β)).Gives line room members True f := .always trivial
  exact whole.seq gives

/-- A field that is there is decoded. -/
theorem gives_field
    {name : String}
    {decoder : Decoder α}
    {missing : Members → Except Fault α}
    {stored : Json}
    {result : α}
    (found : valueOf? name members = some stored)
    (verdict : Verdict (decoder room (.ofJson line stored)) line fits result) :
    (field name decoder missing).Gives line room members fits result := by
  have located : ((Members.onLine line members).find? name).map (·.2) =
      some (.ofJson line stored) := by
    rw [Members.find?_onLine, found]
    rfl
  obtain ⟨⟨rank, node⟩, isFound, isNode⟩ := Option.map_eq_some_iff.1 located
  have decoded : ((field name decoder missing).decode room (.onLine line members)).mapError
      (·.line) = decoder room (.ofJson line stored) := by
    simp only at isNode
    simp only [field, isFound, isNode]
    cases decoder room (.ofJson line stored) <;> rfl
  rw [Gives, decoded]
  exact verdict

section Restored

variable {name : String} {decoder : Decoder α} {encode : β → Json} {kept : β → α}

/-- A field that has to be there is restored. -/
theorem gives_required
    (restores : decoder.Restores encode kept)
    (value : β)
    (found : valueOf? name members = some (encode value)) :
    (required name decoder).Gives line room members ((encode value).depth ≤ room) (kept value) :=
  gives_field found (restores line room value)

/-- A field with a default is restored where it is there. -/
theorem gives_defaulted
    {default : α}
    (restores : decoder.Restores encode kept)
    (value : β)
    (found : valueOf? name members = some (encode value)) :
    (defaulted name decoder default).Gives line room members ((encode value).depth ≤ room)
      (kept value) :=
  gives_field found (restores line room value)

/-- A field that may be null is restored. -/
theorem gives_optional
    {encode : α → Json}
    (restores : decoder.Restores encode id)
    (notNull : ∀ value, encode value ≠ .null)
    (value : Option α)
    (found : valueOf? name members = some (ofOption encode value)) :
    (optional name decoder).Gives line room members ((ofOption encode value).depth ≤ room)
      value :=
  gives_defaulted (Decoder.nullable_restores restores notNull) value found

/-- A list that is there is restored. -/
theorem gives_list
    (restores : decoder.Restores encode kept)
    (values : List β)
    (found : valueOf? name members = some (.array (values.map encode))) :
    (defaulted name (Decoder.list decoder) []).Gives line room members
      ((Json.array (values.map encode)).depth ≤ room) (values.map kept) :=
  gives_defaulted (Decoder.list_restores restores) values found

end Restored

/-- A field that is missing means what its rule says. -/
theorem gives_absent
    {name : String}
    {decoder : Decoder α}
    {missing : Members → Except Fault α}
    {result : α}
    (notFound : valueOf? name members = none)
    (verdict : Verdict ((missing (.onLine line members)).mapError (·.line)) line fits result) :
    (field name decoder missing).Gives line room members fits result := by
  have located : ((Members.onLine line members).find? name).map (·.2) = none := by
    rw [Members.find?_onLine, notFound]
    rfl
  have decoded : (field name decoder missing).decode room (.onLine line members) =
      missing (.onLine line members) := by
    simp only [field, Option.map_eq_none_iff.1 located]
  rw [Gives, decoded]
  exact verdict

/-- A field with a default may be missing. -/
theorem gives_default
    {name : String}
    {decoder : Decoder α}
    {default : α}
    (notFound : valueOf? name members = none) :
    (defaulted name decoder default).Gives line room members True default :=
  gives_absent notFound (.always trivial)

/-- A field that has to be there must not be missing. -/
theorem gives_missing
    {name : String}
    {decoder : Decoder α}
    {result : α}
    (notFound : valueOf? name members = none) :
    (required name decoder).Gives line room members False result :=
  gives_absent notFound (.never not_false)

/-- A field of an embedded group is restored. -/
theorem gives_embedded
    {name : String}
    {decoder : Decoder α}
    {encode : α → Json}
    {value : Option α}
    (restores : decoder.Restores encode id)
    (notNull : ∀ value, encode value ≠ .null)
    (found : (members.filter fun member => member.1 == name) =
      [(name, ofOption encode value)]) :
    (embedded name decoder).Gives line room members ((ofOption encode value).depth ≤ room)
      value := by
  have verdict := Decoder.nullable_restores restores notNull line room value
  have located : (Members.onLine line members).all name =
      [.ofJson line (ofOption encode value)] := by
    rw [Members.all_onLine, found]
    rfl
  constructor
  · intro fit
    simp only [embedded, located, verdict.taken fit]
    rfl
  · intro unfit
    simp only [embedded, located, verdict.refused unfit]
    rfl

end Gives
end Fields

namespace Decoder

/-- What was printed can be passed over. -/
theorem passFault_ofJson (line : Nat) (stored : Json) :
    (Located.ofJson line stored).passFault = none := by
  have items (parts : List Json)
      (each : ∀ item ∈ parts, (Located.ofJson line item).passFault = none) :
      Located.passFaultItems (Located.ofItems line parts) = none := by
    induction parts with
    | nil => rfl
    | cons item rest inductionHypothesis =>
        obtain ⟨first, later⟩ := List.forall_mem_cons.1 each
        rw [Located.ofItems, Located.passFaultItems, first, inductionHypothesis later]
        rfl
  have members (parts : List (String × Json))
      (each : ∀ member ∈ parts, (Located.ofJson line member.2).passFault = none) :
      Located.passFaultMembers (Located.ofMembers line parts) = none := by
    induction parts with
    | nil => rfl
    | cons member rest inductionHypothesis =>
        obtain ⟨first, later⟩ := List.forall_mem_cons.1 each
        rw [Located.ofMembers, Located.passFaultMembers, first, inductionHypothesis later]
        rfl
  induction stored using byParts with
  | null => rfl
  | bool b => rfl
  | number n => rfl
  | string text => rfl
  | array parts each =>
      rw [Located.ofJson, Located.passFault, items parts each]
      rfl
  | object parts each =>
      rw [Located.ofJson, Located.passFault, members parts each]
      rfl

/-- Nothing but the fields of a printed record can be at fault, if what is kept
beside them is not nested. -/
theorem scan_onLine
    (surplus : Surplus)
    {names : List String}
    (line room rank : Nat)
    {seen : List String}
    {members : List (String × Json)}
    (distinct : (members.map (·.1)).Nodup)
    (notSeen : ∀ member ∈ members, member.1 ∉ seen)
    (flat : surplus = .kept →
      ∀ member ∈ members, names.contains member.1 = true ∨ member.2.depth = 0) :
    scan surplus names room rank seen (Located.ofMembers line members) = none := by
  induction members generalizing rank seen with
  | nil => rfl
  | cons member rest inductionHypothesis =>
      obtain ⟨name, stored⟩ := member
      obtain ⟨firstNotSeen, notSeen⟩ := List.forall_mem_cons.1 notSeen
      obtain ⟨firstDistinct, distinct⟩ := List.nodup_cons.1 distinct
      have laterFlat (kept : surplus = .kept) :
          ∀ member ∈ rest, names.contains member.1 = true ∨ member.2.depth = 0 :=
        (List.forall_mem_cons.1 (flat kept)).2
      have isName : (Quoted.ofString line name).content = .ok name := rfl
      simp only [Located.ofMembers, scan, isName]
      by_cases known : names.contains name = true
      · rw [if_pos known, if_neg (by simpa using firstNotSeen)]
        refine inductionHypothesis (rank + 1) distinct (fun member inside => ?_) laterFlat
        refine List.not_mem_cons_of_ne_of_not_mem (fun same => ?_) (notSeen member inside)
        exact firstDistinct (List.mem_map.2 ⟨member, inside, same⟩)
      · have later := inductionHypothesis (rank + 1) distinct notSeen laterFlat
        rw [if_neg known]
        cases surplus with
        | passed =>
            simp only [passFault_ofJson]
            exact later
        | kept =>
            have depth : stored.depth = 0 :=
              (List.forall_mem_cons.1 (flat rfl)).1.resolve_left known
            have taken := (value_restores line room stored).taken (by rw [id, depth]; omega)
            rw [id] at taken
            simp only [taken]
            exact later

/-- A record is taken if its fields are. -/
theorem decodeObject_verdict
    {surplus : Surplus}
    {fields : Fields α}
    {line room : Nat}
    {members : List (String × Json)}
    {fits : Prop}
    {result : α}
    (distinct : (members.map (·.1)).Nodup)
    (flat : surplus = .kept →
      ∀ member ∈ members, fields.names.contains member.1 = true ∨ member.2.depth = 0)
    (gives : fields.Gives line room members fits result) :
    Verdict (decodeObject surplus fields room (Located.ofMembers line members) (.closed line))
      line fits result := by
  rw [decodeObject, scan_onLine surplus line room 0 distinct (fun _ _ => List.not_mem_nil) flat]
  exact gives

/-- A record whose other members are passed over is taken if its fields are. -/
theorem decodeObject_passed_verdict
    {fields : Fields α}
    {line room : Nat}
    {members : List (String × Json)}
    {fits : Prop}
    {result : α}
    (distinct : (members.map (·.1)).Nodup)
    (gives : fields.Gives line room members fits result) :
    Verdict (decodeObject .passed fields room (Located.ofMembers line members) (.closed line))
      line fits result :=
  decodeObject_verdict distinct (fun kept => by cases kept) gives

section Record

variable {fields : Fields α} {line : Nat} {members : List (String × Json)} {result : α}

/-- A record is taken if its brackets can be opened. -/
theorem record_verdict
    (distinct : (members.map (·.1)).Nodup)
    (gives : ∀ room, fields.Gives line room members (depthMembers members ≤ room) result)
    (room : Nat) :
    Verdict (record fields room (.ofJson line (.object members))) line
      ((object members).depth ≤ room) result := by
  cases room with
  | zero => exact .never (Nat.not_succ_le_zero _)
  | succ room =>
      exact (decodeObject_passed_verdict distinct (gives room)).congr Nat.succ_le_succ_iff

/-- A record with an embedded group is taken if its brackets can be opened. -/
theorem embedding_verdict
    (distinct : (members.map (·.1)).Nodup)
    (flat : ∀ member ∈ members, fields.names.contains member.1 = true ∨ member.2.depth = 0)
    (gives : ∀ room, fields.Gives line room members (depthMembers members ≤ room) result)
    (room : Nat) :
    Verdict (embedding fields room (.ofJson line (.object members))) line
      ((object members).depth ≤ room) result := by
  cases room with
  | zero => exact .never (Nat.not_succ_le_zero _)
  | succ room =>
      exact (decodeObject_verdict distinct (fun _ => flat) (gives room)).congr Nat.succ_le_succ_iff

end Record

end Decoder
end Json
end Chronicle
