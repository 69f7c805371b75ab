import Chronicle.Proofs.Decoding

/-!
# Decoding wherever a text breaks its lines

A tree can be moved onto one line.  Every decoder then gives the same result, or
a fault on that line instead of another one, so what is decoded does not depend
on how a text is laid out.
-/

namespace Chronicle
namespace Json

/-! ## Moving a tree -/

/-- A literal moved onto a line. -/
def Quoted.relocate (line : Nat) (literal : Quoted) : Quoted :=
  ⟨line, literal.content.mapError fun _ => line, literal.passFault.map fun _ => line⟩

/-- An ending moved onto a line. -/
def Ending.relocate (line : Nat) : Ending → Ending
  | .closed _ => .closed line
  | .broken _ _ => .broken line line

/-- A key moved onto a line. -/
def Key.relocate (line : Nat) (key : Key) : Key := ⟨line, key.literal.relocate line, line⟩

namespace Located

mutual

/-- A tree moved onto a line. -/
def relocate (line : Nat) : Located → Located
  | .null _ => .null line
  | .bool _ value => .bool line value
  | .number _ value => .number line value
  | .string literal => .string (literal.relocate line)
  | .array _ items ending => .array line (relocateItems line items) (ending.relocate line)
  | .object _ members ending => .object line (relocateMembers line members) (ending.relocate line)
  | .broken _ _ => .broken line line

/-- A list of trees moved onto a line. -/
def relocateItems (line : Nat) : List Located → List Located
  | [] => []
  | item :: rest => item.relocate line :: relocateItems line rest

/-- A list of members moved onto a line. -/
def relocateMembers (line : Nat) : List (Key × Located) → List (Key × Located)
  | [] => []
  | (key, value) :: rest => (key.relocate line, value.relocate line) :: relocateMembers line rest

end

theorem relocateItems_eq (line : Nat) (items : List Located) :
    relocateItems line items = items.map (relocate line) := by
  induction items with
  | nil => rfl
  | cons item rest inductionHypothesis =>
      rw [relocateItems, inductionHypothesis, List.map_cons]

theorem relocateMembers_eq (line : Nat) (members : List (Key × Located)) :
    relocateMembers line members =
      members.map fun member => (member.1.relocate line, member.2.relocate line) := by
  induction members with
  | nil => rfl
  | cons member rest inductionHypothesis =>
      rw [relocateMembers, inductionHypothesis, List.map_cons]

@[simp] theorem line_relocate (line : Nat) (node : Located) : (node.relocate line).line = line := by
  cases node <;> rw [relocate] <;> rfl

@[simp] theorem refusal_relocate (line : Nat) (node : Located) :
    (node.relocate line).refusal = line := by
  cases node with
  | string literal =>
      obtain ⟨_, content, _⟩ := literal
      rw [relocate]
      cases content <;> rfl
  | _ => rw [relocate]; rfl

end Located

@[simp] theorem Ending.line_relocate (line : Nat) (ending : Ending) :
    (ending.relocate line).line = line := by
  cases ending <;> rfl

@[simp] theorem Ending.fault?_relocate (line : Nat) (ending : Ending) :
    (ending.relocate line).fault? = ending.fault?.map fun _ => line := by
  cases ending <;> rfl

/-- The first of two faults is moved to where both of them are moved. -/
theorem map_orElse {f : α → β} (first second : Option α) :
    (first <|> second).map f = (first.map f <|> second.map f) := by
  cases first <;> rfl

namespace Located

mutual

/-- Passing over a moved tree meets a fault on its line if there is one. -/
theorem passFault_relocate (line : Nat) :
    (node : Located) → (node.relocate line).passFault = node.passFault.map fun _ => line
  | .null _ => by rw [relocate]; rfl
  | .bool _ _ => by rw [relocate]; rfl
  | .number _ _ => by rw [relocate]; rfl
  | .string _ => by rw [relocate]; rfl
  | .array _ items ending => by
      rw [relocate, passFault, passFault, passFaultItems_relocate line items,
        Ending.fault?_relocate, map_orElse]
  | .object _ members ending => by
      rw [relocate, passFault, passFault, passFaultMembers_relocate line members,
        Ending.fault?_relocate, map_orElse]
  | .broken _ _ => by rw [relocate]; rfl

theorem passFaultItems_relocate (line : Nat) :
    (items : List Located) →
      passFaultItems (relocateItems line items) = (passFaultItems items).map fun _ => line
  | [] => rfl
  | item :: rest => by
      rw [relocateItems, passFaultItems, passFaultItems, passFault_relocate line item,
        passFaultItems_relocate line rest, map_orElse]

theorem passFaultMembers_relocate (line : Nat) :
    (members : List (Key × Located)) →
      passFaultMembers (relocateMembers line members) =
        (passFaultMembers members).map fun _ => line
  | [] => rfl
  | (key, value) :: rest => by
      rw [relocateMembers, passFaultMembers, passFaultMembers, passFault_relocate line value,
        passFaultMembers_relocate line rest, map_orElse, map_orElse]
      rfl

end

end Located

/-! ## Decoders of values -/

section MapError

variable {f : ε → δ}

@[simp] theorem mapError_ok (value : α) :
    (Except.ok value : Except ε α).mapError f = .ok value := rfl

theorem mapError_bind (outcome : Except ε α) (next : α → Except ε β) :
    (outcome >>= next).mapError f =
      outcome.mapError f >>= fun value => (next value).mapError f := by
  cases outcome <;> rfl

theorem mapError_map (outcome : Except ε α) (g : α → β) :
    (outcome.map g).mapError f = (outcome.mapError f).map g := by
  cases outcome <;> rfl

theorem mapError_mapM (decode : α → Except ε β) (parts : List α) :
    (parts.mapM decode).mapError f = parts.mapM fun part => (decode part).mapError f := by
  induction parts with
  | nil => rfl
  | cons part rest inductionHypothesis =>
      rw [List.mapM_cons, List.mapM_cons, mapError_bind, ← inductionHypothesis]
      cases decode part with
      | error fault => rfl
      | ok value => cases rest.mapM decode <;> rfl

end MapError

namespace Decoder

/-- A decoder whose results do not depend on where a tree stands. -/
def Relocates (decoder : Decoder α) : Prop :=
  ∀ line room node, decoder room (node.relocate line) = (decoder room node).mapError fun _ => line

/-- Items are decoded wherever they stand. -/
theorem mapM_relocate
    {decode : Located → Except Nat α}
    {line : Nat}
    (each : ∀ node, decode (node.relocate line) = (decode node).mapError fun _ => line)
    (items : List Located) :
    (Located.relocateItems line items).mapM decode =
      (items.mapM decode).mapError fun _ => line := by
  rw [Located.relocateItems_eq, List.mapM_map, mapError_mapM]
  exact congrArg (items.mapM ·) (funext each)

/-- Members are decoded wherever they stand. -/
theorem mapM_relocate_members
    {decode : Located → Except Nat α}
    {line : Nat}
    (each : ∀ node, decode (node.relocate line) = (decode node).mapError fun _ => line)
    (members : List (Key × Located)) :
    ((Located.relocateMembers line members).mapM fun member : Key × Located => do
        let key ← member.1.literal.content
        return (key, ← decode member.2)) =
      (members.mapM fun member : Key × Located => do
        let key ← member.1.literal.content
        return (key, ← decode member.2)).mapError fun _ => line := by
  rw [Located.relocateMembers_eq, List.mapM_map, mapError_mapM]
  refine congrArg (members.mapM ·) (funext fun member => ?_)
  have key : (member.1.relocate line).literal.content =
      member.1.literal.content.mapError fun _ => line := rfl
  simp only [Function.comp, key, each, mapError_bind]
  rfl

/-- The ending comes after what is inside. -/
theorem ended_relocate
    {line : Nat}
    (outcome : Except Nat α)
    (ending : Ending)
    (f : α → β) :
    (do
        let inside ← outcome.mapError fun _ => line
        checkEnding (ending.relocate line)
        return f inside) =
      (do
        let inside ← outcome
        checkEnding ending
        return f inside).mapError fun _ => line := by
  cases outcome <;> cases ending <;> rfl

/-- A value is read the same on every line.  Every bracket takes one off the room, so the
induction is on the room and not on the tree. -/
theorem value_relocates : Relocates value := by
  intro line room node
  induction room generalizing node with
  | zero =>
      cases node with
      | number _ n => cases n <;> rfl
      | string literal => exact (mapError_map _ _).symm
      | _ => rw [Located.relocate]; rfl
  | succ room inductionHypothesis =>
      cases node with
      | number _ n => cases n <;> rfl
      | string literal => exact (mapError_map _ _).symm
      | array _ items ending =>
          rw [Located.relocate, value, value, mapM_relocate (inductionHypothesis ·)]
          exact ended_relocate _ ending Json.array
      | object _ members ending =>
          rw [Located.relocate, value, value, mapM_relocate_members (inductionHypothesis ·)]
          exact ended_relocate _ ending Json.ofMembers
      | _ => rw [Located.relocate]; rfl

/-- A node of the wrong kind is refused where it stands. -/
theorem refused_relocate (line : Nat) (node : Located) :
    (Except.error (node.relocate line).refusal : Except Nat α) =
      (Except.error node.refusal).mapError fun _ => line :=
  congrArg Except.error (Located.refusal_relocate line node)

theorem string_relocates : Relocates string := by
  intro line room node
  have refused := refused_relocate (α := String) line node
  cases node with
  | string literal => rfl
  | _ => exact refused

theorem bool_relocates : Relocates bool := by
  intro line room node
  have refused := refused_relocate (α := Bool) line node
  cases node with
  | bool _ b => rfl
  | _ => exact refused

theorem unit_relocates : Relocates unit := by
  intro line room node
  have refused := refused_relocate (α := Unit) line node
  cases node with
  | null _ => rfl
  | _ => exact refused

theorem integer_relocates (low high : Int) : Relocates (integer low high) := by
  intro line room node
  have refused := refused_relocate (α := Int) line node
  cases node with
  | number _ n =>
      rcases n with _ | ⟨n, fits⟩ | ⟨value, finite⟩
      · rfl
      · rw [Located.relocate, integer, integer]
        split <;> rfl
      · rfl
  | _ => exact refused

theorem word64_relocates : Relocates word64 := by
  intro line room node
  rw [word64, integer_relocates]
  exact (mapError_map _ _).symm

theorem parsed_relocates (parse : String → Option α) : Relocates (parsed parse) := by
  intro line room node
  have refused := refused_relocate (α := α) line node
  cases node with
  | string literal =>
      obtain ⟨start, content, passFault⟩ := literal
      cases content with
      | error fault => rfl
      | ok text =>
          rw [Located.relocate]
          simp only [parsed, Quoted.relocate, mapError_ok]
          cases parse text <;> rfl
  | _ => exact refused

theorem nullable_relocates
    {decoder : Decoder α}
    (relocates : Relocates decoder) :
    Relocates (nullable decoder) := by
  intro line room node
  have moved : (decoder room (node.relocate line)).map some =
      ((decoder room node).map some).mapError fun _ => line := by
    rw [relocates, mapError_map]
  cases node with
  | null _ => rfl
  | _ => exact moved

theorem list_relocates
    {decoder : Decoder α}
    (relocates : Relocates decoder) :
    Relocates (list decoder) := by
  intro line room node
  have refused := refused_relocate (α := List α) line node
  cases node with
  | array _ items ending =>
      cases room with
      | zero => rfl
      | succ room =>
          rw [Located.relocate, list, list, mapM_relocate (relocates line room)]
          exact ended_relocate _ ending id
  | _ => cases room <;> exact refused

theorem dict_relocates
    {decoder : Decoder α}
    (relocates : Relocates decoder) :
    Relocates (dict decoder) := by
  intro line room node
  have refused := refused_relocate (α := Dict String α) line node
  cases node with
  | object _ members ending =>
      cases room with
      | zero => rfl
      | succ room =>
          rw [Located.relocate, dict, dict, mapM_relocate_members (relocates line room)]
          exact ended_relocate _ ending Dict.ofList
  | _ => cases room <;> exact refused

theorem variant_relocates (named : String → Option α) : Relocates (variant named) := by
  intro line room node
  have refused : (Except.error (node.relocate line).line : Except Nat α) =
      (Except.error node.line).mapError fun _ => line :=
    congrArg Except.error (Located.line_relocate line node)
  cases node with
  | string literal =>
      obtain ⟨start, content, passFault⟩ := literal
      cases content with
      | error fault => rfl
      | ok name =>
          rw [Located.relocate]
          simp only [variant, choice, Quoted.relocate, mapError_ok]
          cases named name <;> rfl
  | object _ members ending =>
      cases room with
      | zero => rfl
      | succ room =>
          cases members with
          | nil => cases ending <;> rfl
          | cons member rest =>
              obtain ⟨⟨lead, ⟨start, content, passFault⟩, colon⟩, node⟩ := member
              have same := unit_relocates line room node
              cases content with
              | error fault => rfl
              | ok name =>
                  rw [Located.relocate, Located.relocateMembers]
                  simp only [variant, choice, Key.relocate, Quoted.relocate, same, bind,
                    Except.bind, mapError_ok]
                  cases named name with
                  | none => rfl
                  | some value =>
                      cases unit room node with
                      | error fault => rfl
                      | ok taken =>
                          cases rest with
                          | nil => cases ending <;> rfl
                          | cons next rest => rfl
  | _ => cases room <;> exact refused

end Decoder

/-! ## Decoders of records -/

/-- A fault moved onto a line. -/
def Fault.relocate (line : Nat) (fault : Fault) : Fault := ⟨fault.rank, line⟩

/-- Members moved onto a line. -/
def Members.relocate (line : Nat) (members : Members) : Members where
  named := members.named.map fun member => (member.1, member.2.1, member.2.2.relocate line)
  positional := members.positional
  last := members.last.relocate line

namespace Members

theorem find?_relocate (line : Nat) (members : Members) (name : String) :
    (members.relocate line).find? name =
      (members.find? name).map fun found => (found.1, found.2.relocate line) := by
  simp only [find?, relocate, List.find?_map, Option.map_map]
  rfl

theorem all_relocate (line : Nat) (members : Members) (name : String) :
    (members.relocate line).all name = (members.all name).map (Located.relocate line) := by
  simp only [all, relocate, List.filter_map, List.map_map]
  rfl

end Members

namespace Fields

/-- Fields whose results do not depend on where their members stand. -/
def Relocates (fields : Fields α) : Prop :=
  ∀ line room members, fields.decode room (members.relocate line) =
    (fields.decode room members).mapError (Fault.relocate line)

theorem earlier_relocate (line : Nat) (first second : Fault) :
    earlier (first.relocate line) (second.relocate line) = (earlier first second).relocate line :=
  (apply_ite (Fault.relocate line) _ _ _).symm

theorem pure_relocates (value : α) : Relocates (pure value : Fields α) := fun _ _ _ => rfl

theorem Relocates.seq
    {f : Fields (α → β)}
    {x : Fields α}
    (first : f.Relocates)
    (second : x.Relocates) :
    (f <*> x).Relocates := by
  intro line room members
  change both (f.decode room (members.relocate line)) (x.decode room (members.relocate line)) =
    (both (f.decode room members) (x.decode room members)).mapError (Fault.relocate line)
  rw [first, second]
  cases f.decode room members <;> cases x.decode room members
  · exact congrArg Except.error (earlier_relocate line _ _)
  · rfl
  · rfl
  · rfl

theorem Relocates.map
    {x : Fields α}
    (relocates : x.Relocates)
    (f : α → β) :
    (f <$> x).Relocates :=
  (pure_relocates f).seq relocates

theorem field_relocates
    {name : String}
    {decoder : Decoder α}
    {missing : Members → Except Fault α}
    (relocates : decoder.Relocates)
    (default : ∀ line members,
      missing (members.relocate line) = (missing members).mapError (Fault.relocate line)) :
    (field name decoder missing).Relocates := by
  intro line room members
  simp only [field, Members.find?_relocate]
  cases members.find? name with
  | none => exact default line members
  | some found =>
      simp only [Option.map_some, relocates line room found.2]
      cases decoder room found.2 <;> rfl

theorem required_relocates
    {name : String}
    {decoder : Decoder α}
    (relocates : decoder.Relocates) :
    (required name decoder).Relocates :=
  field_relocates relocates fun _ _ => rfl

theorem defaulted_relocates
    {name : String}
    {decoder : Decoder α}
    {default : α}
    (relocates : decoder.Relocates) :
    (defaulted name decoder default).Relocates :=
  field_relocates relocates fun _ _ => rfl

theorem optional_relocates
    {name : String}
    {decoder : Decoder α}
    (relocates : decoder.Relocates) :
    (optional name decoder).Relocates :=
  defaulted_relocates (Decoder.nullable_relocates relocates)

theorem embedded_relocates
    {name : String}
    {decoder : Decoder α}
    (relocates : decoder.Relocates) :
    (embedded name decoder).Relocates := by
  intro line room members
  simp only [embedded, Members.all_relocate]
  rcases members.all name with _ | ⟨node, _ | ⟨other, rest⟩⟩
  · rfl
  · simp only [List.map_cons, List.map_nil, Decoder.nullable_relocates relocates line room node]
    cases Decoder.nullable decoder room node <;> rfl
  · rfl

end Fields

namespace Decoder

theorem scan_relocate
    (surplus : Surplus)
    (names : List String)
    (line room rank : Nat)
    (seen : List String)
    (members : List (Key × Located)) :
    scan surplus names room rank seen (Located.relocateMembers line members) =
      (scan surplus names room rank seen members).map (Fault.relocate line) := by
  induction members generalizing rank seen with
  | nil => rfl
  | cons member rest inductionHypothesis =>
      obtain ⟨⟨lead, ⟨start, content, passFault⟩, colon⟩, node⟩ := member
      rw [Located.relocateMembers]
      cases content with
      | error fault => rfl
      | ok name =>
          simp only [scan, Key.relocate, Quoted.relocate, mapError_ok]
          by_cases known : names.contains name = true
          · rw [if_pos known, if_pos known]
            by_cases again : seen.contains name = true
            · rw [if_pos again, if_pos again]
              rfl
            · rw [if_neg again, if_neg again]
              exact inductionHypothesis (rank + 1) (name :: seen)
          · rw [if_neg known, if_neg known]
            cases surplus with
            | passed =>
                simp only [Located.passFault_relocate]
                cases node.passFault with
                | none => exact inductionHypothesis (rank + 1) seen
                | some fault => rfl
            | kept =>
                simp only [value_relocates line room node]
                cases value room node with
                | error fault => rfl
                | ok value => exact inductionHypothesis (rank + 1) seen

theorem ranked_relocate (line rank : Nat) (members : List (Key × Located)) :
    ranked rank (Located.relocateMembers line members) =
      (ranked rank members).map fun member =>
        (member.1, member.2.1, member.2.2.relocate line) := by
  induction members generalizing rank with
  | nil => rfl
  | cons member rest inductionHypothesis =>
      obtain ⟨⟨lead, ⟨start, content, passFault⟩, colon⟩, node⟩ := member
      rw [Located.relocateMembers]
      cases content with
      | error fault => rfl
      | ok name => exact congrArg _ (inductionHypothesis (rank + 1))

theorem settle_relocate (line : Nat) (fault : Option Fault) (outcome : Except Fault α) :
    settle (fault.map (Fault.relocate line)) (outcome.mapError (Fault.relocate line)) =
      (settle fault outcome).mapError fun _ => line := by
  cases fault with
  | none => cases outcome <;> rfl
  | some fault =>
      cases outcome with
      | ok result => rfl
      | error other =>
          exact congrArg (fun fault : Fault => Except.error fault.line)
            (Fields.earlier_relocate line fault other)

/-- A record is decoded wherever it stands. -/
theorem decodeObject_relocate
    {fields : Fields α}
    (relocates : fields.Relocates)
    (surplus : Surplus)
    (line room : Nat)
    (members : List (Key × Located))
    (ending : Ending) :
    decodeObject surplus fields room (Located.relocateMembers line members)
        (ending.relocate line) =
      (decodeObject surplus fields room members ending).mapError fun _ => line := by
  have count : (Located.relocateMembers line members).length = members.length := by
    rw [Located.relocateMembers_eq, List.length_map]
  have faults : (scan surplus fields.names room 0 [] (Located.relocateMembers line members) <|>
      (ending.relocate line).fault?.map (Fault.mk members.length)) =
        (scan surplus fields.names room 0 [] members <|>
          ending.fault?.map (Fault.mk members.length)).map (Fault.relocate line) := by
    rw [scan_relocate, Ending.fault?_relocate, map_orElse, Option.map_map, Option.map_map]
    rfl
  have moved := relocates line room
    ⟨ranked 0 members, false, ⟨members.length + 1, ending.line⟩⟩
  simp only [decodeObject, count, faults, ranked_relocate, Ending.line_relocate]
  rw [← settle_relocate, ← moved]
  rfl

/-- A record without names is decoded wherever it stands. -/
theorem decodeArray_relocate
    {fields : Fields α}
    (relocates : fields.Relocates)
    (line room : Nat)
    (items : List Located)
    (ending : Ending) :
    decodeArray fields room (Located.relocateItems line items) (ending.relocate line) =
      (decodeArray fields room items ending).mapError fun _ => line := by
  rw [Located.relocateItems_eq]
  have moved := relocates line room
    ⟨(fields.names.zip items.zipIdx).map fun entry => (entry.1, entry.2.2, entry.2.1), true,
      ⟨items.length + 1, ending.line⟩⟩
  have named : ((fields.names.zip (items.map (Located.relocate line)).zipIdx).map
      fun entry => (entry.1, entry.2.2, entry.2.1)) =
        ((fields.names.zip items.zipIdx).map fun entry => (entry.1, entry.2.2, entry.2.1)).map
          fun member => (member.1, member.2.1, member.2.2.relocate line) := by
    rw [List.zipIdx_map, List.zip_map_right, List.map_map, List.map_map]
    rfl
  simp only [decodeArray, List.length_map, Ending.line_relocate]
  rw [← settle_relocate, ← moved, named]
  refine congrArg (settle · _) ?_
  rw [← List.map_drop]
  cases items.drop fields.names.length with
  | nil => cases ending <;> rfl
  | cons extra rest =>
      simp only [List.map_cons, Located.line_relocate]
      rfl

theorem record_relocates
    {fields : Fields α}
    (relocates : fields.Relocates) :
    Relocates (record fields) := by
  intro line room node
  have refused := refused_relocate (α := α) line node
  cases node with
  | array _ items ending =>
      cases room with
      | zero => rfl
      | succ room => exact decodeArray_relocate relocates line room items ending
  | object _ members ending =>
      cases room with
      | zero => rfl
      | succ room => exact decodeObject_relocate relocates .passed line room members ending
  | _ => cases room <;> exact refused

theorem embedding_relocates
    {fields : Fields α}
    (relocates : fields.Relocates) :
    Relocates (embedding fields) := by
  intro line room node
  have refused := refused_relocate (α := α) line node
  cases node with
  | object _ members ending =>
      cases room with
      | zero => rfl
      | succ room => exact decodeObject_relocate relocates .kept line room members ending
  | _ => cases room <;> exact refused

end Decoder
end Json
end Chronicle
