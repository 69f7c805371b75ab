import Chronicle.Arena
import Chronicle.Proofs.Bytes
import Mathlib.Logic.ExistsUnique

/-!
# Fingerprints see every byte

Each step of a hash can be undone when its byte is known, and keeps different bytes
apart.  So byte strings of one length that differ in one position have different
fingerprints.  The layout of an arena is read back as the arena, hence two arenas whose
layouts differ in one byte are different, and so are their fingerprints.
-/

namespace Chronicle

/-! ## One different byte -/

namespace Bytes

/-- Byte strings of one length that differ in exactly one position. -/
def DifferOnce (first second : List UInt8) : Prop :=
  first.length = second.length ∧ ∃! position : Nat, first[position]? ≠ second[position]?

/-- Byte strings differ in one position if they have a common front and a common back
around different bytes. -/
theorem differOnce_of_parts (front back : List UInt8) {byte other : UInt8}
    (different : byte ≠ other) :
    DifferOnce (front ++ byte :: back) (front ++ other :: back) := by
  refine ⟨by simp, front.length, by simp [different], fun position differs => ?_⟩
  by_contra elsewhere
  refine differs ?_
  rw [List.getElem?_append, List.getElem?_append]
  split
  · rfl
  · rename_i behind
    obtain ⟨more, isMore⟩ : ∃ more, position - front.length = more + 1 :=
      Nat.exists_eq_succ_of_ne_zero (by omega)
    rw [isMore, List.getElem?_cons_succ, List.getElem?_cons_succ]

/-- Byte strings that differ in one position have a common front and a common back
around different bytes. -/
theorem DifferOnce.exists_parts {first second : List UInt8} (differ : DifferOnce first second) :
    ∃ front byte other back, byte ≠ other ∧
      first = front ++ byte :: back ∧ second = front ++ other :: back := by
  obtain ⟨sameLength, position, differs, only⟩ := differ
  have inside : position < first.length := by
    by_contra outside
    refine differs ?_
    rw [List.getElem?_eq_none (by omega), List.getElem?_eq_none (by omega)]
  have insideToo : position < second.length := sameLength ▸ inside
  have fronts : first.take position = second.take position := by
    refine List.ext_getElem? fun place => ?_
    rw [List.getElem?_take, List.getElem?_take]
    split
    · rename_i before
      by_contra apart
      exact absurd (only place apart) (Nat.ne_of_lt before)
    · rfl
  have backs : first.drop (position + 1) = second.drop (position + 1) := by
    refine List.ext_getElem? fun place => ?_
    rw [List.getElem?_drop, List.getElem?_drop]
    by_contra apart
    have := only _ apart
    omega
  refine ⟨first.take position, first[position], second[position], first.drop (position + 1),
    fun same => differs ?_, ?_, ?_⟩
  · rw [List.getElem?_eq_getElem inside, List.getElem?_eq_getElem insideToo, same]
  · rw [← List.drop_eq_getElem_cons inside, List.take_append_drop]
  · rw [fronts, backs, ← List.drop_eq_getElem_cons insideToo, List.take_append_drop]

/-- Byte strings that differ in one position still do so between other bytes. -/
theorem DifferOnce.within {first second : List UInt8} (differ : DifferOnce first second)
    (before after : List UInt8) :
    DifferOnce (before ++ first ++ after) (before ++ second ++ after) := by
  obtain ⟨front, byte, other, back, different, rfl, rfl⟩ := differ.exists_parts
  have between := differOnce_of_parts (before ++ front) (back ++ after) different
  simpa using between

end Bytes

/-! ## Hashes -/

namespace Fingerprint

open Bytes (DifferOnce)

/-- The number by which a multiplication is undone. -/
def inverse : UInt64 := 0xce965057aff6957b

theorem prime_mul_inverse : prime * inverse = 1 := by decide

/-- A multiplication can be undone. -/
theorem mul_prime_inj {a b : UInt64} : a * prime = b * prime ↔ a = b := by
  constructor
  · intro same
    calc a
      _ = a * prime * inverse := by rw [UInt64.mul_assoc, prime_mul_inverse, UInt64.mul_one]
      _ = b * prime * inverse := by rw [same]
      _ = b := by rw [UInt64.mul_assoc, prime_mul_inverse, UInt64.mul_one]
  · rintro rfl
    rfl

/-- A step keeps different hashes apart. -/
theorem absorb_left_inj {hash other : UInt64} (byte : UInt8) :
    absorb hash byte = absorb other byte ↔ hash = other := by
  rw [absorb, absorb, mul_prime_inj, UInt64.xor_left_inj]

/-- A step keeps different bytes apart. -/
theorem absorb_right_inj {byte other : UInt8} (hash : UInt64) :
    absorb hash byte = absorb hash other ↔ byte = other := by
  rw [absorb, absorb, mul_prime_inj, UInt64.xor_right_inj, UInt8.toUInt64_inj]

/-- However many bytes follow, different hashes stay apart. -/
theorem foldl_absorb_inj (bytes : List UInt8) {hash other : UInt64} :
    bytes.foldl absorb hash = bytes.foldl absorb other ↔ hash = other := by
  induction bytes generalizing hash other with
  | nil => rfl
  | cons byte rest inductionHypothesis =>
      rw [List.foldl_cons, List.foldl_cons, inductionHypothesis, absorb_left_inj]

/-- Byte strings that differ in one position have different hashes. -/
theorem hash_ne {first second : List UInt8} (differ : DifferOnce first second) :
    hash first ≠ hash second := by
  obtain ⟨front, byte, other, back, different, rfl, rfl⟩ := differ.exists_parts
  intro same
  rw [hash, hash, List.foldl_append, List.foldl_append, List.foldl_cons, List.foldl_cons,
    foldl_absorb_inj, absorb_right_inj] at same
  exact different same

/-- A hash is read from its sixteen digits. -/
theorem ofHex_format (hash : UInt64) : Text.ofHex (format hash).toList = hash.toNat := by
  rw [format, String.toList_ofList, Text.ofHex_hexDigits, Nat.mod_eq_of_lt hash.toNat_lt]

theorem length_format (hash : UInt64) : (format hash).length = 16 := by
  rw [format, String.length_ofList, Text.length_hexDigits]

/-- Different hashes have different digits. -/
theorem format_inj {hash other : UInt64} : format hash = format other ↔ hash = other := by
  constructor
  · intro same
    rw [← UInt64.toNat_inj, ← ofHex_format, ← ofHex_format, same]
  · rintro rfl
    rfl

/-- Byte strings that differ in one position have different fingerprints. -/
theorem ofBytes_ne {first second : List UInt8} (differ : DifferOnce first second) :
    ofBytes first ≠ ofBytes second :=
  fun same => hash_ne differ (format_inj.1 same)

end Fingerprint

/-! ## Layouts of arenas -/

namespace Arena

open Bytes (DifferOnce Reader)
open Bytes.Reader (word32_reads word64_reads text_reads bool_reads dict_reads)

namespace Avatar

/-- Reads an avatar. -/
def read : Reader Avatar := do
  let x ← Reader.word32
  let y ← Reader.word32
  let targetX ← Reader.word32
  let targetY ← Reader.word32
  let isGuest ← Reader.bool
  return ⟨⟨x⟩, ⟨y⟩, ⟨targetX⟩, ⟨targetY⟩, isGuest⟩

/-- The layout of an avatar is read as the avatar. -/
theorem read_reads (avatar : Avatar) : read.Reads avatar.layout avatar := by
  simp only [layout, List.append_assoc]
  exact (word32_reads _).bind <| (word32_reads _).bind <| (word32_reads _).bind <|
    (word32_reads _).bind <| (bool_reads _).last <| .pure avatar

end Avatar

namespace State

/-- The lengths that are laid out within a state: of its dictionary in entries, and of the
names of its players in bytes. -/
def lengths (state : State) : List Nat :=
  state.players.size :: state.players.entries.map (·.1.utf8ByteSize)

/-- A state whose lengths can be laid out in 64 bits, which is so for every state that
has a place in memory. -/
def Fits (state : State) : Prop := ∀ length ∈ state.lengths, length < UInt64.size

instance (state : State) : Decidable state.Fits :=
  inferInstanceAs (Decidable (∀ length ∈ state.lengths, length < UInt64.size))

/-- Reads a state. -/
def read : Reader State := do
  let tick ← Reader.word64
  let players ← Reader.dict Reader.text Avatar.read
  let chats ← Reader.word64
  return ⟨tick, players, chats⟩

/-- The layout of a state is read as the state. -/
theorem read_reads {state : State} (fits : state.Fits) : read.Reads state.layout state := by
  have players : (Reader.dict Reader.text Avatar.read).Reads
      (Bytes.dict Bytes.text Avatar.layout state.players) state.players :=
    dict_reads (fits _ List.mem_cons_self)
      (fun _ member => text_reads <| fits _ <| List.mem_cons_of_mem _ <| List.mem_map_of_mem member)
      fun entry _ => entry.2.read_reads
  rw [layout, List.append_assoc]
  exact (word64_reads _).bind <| players.bind <| (word64_reads _).last <| .pure state

/-- States of one layout are the same. -/
theorem eq_of_layout_eq {first second : State} (fits : first.Fits) (fitsToo : second.Fits)
    (same : first.layout = second.layout) :
    first = second :=
  (read_reads fits).eq_of_begins (read_reads fitsToo) (same ▸ List.prefix_rfl)

end State

/-! ## Small changes of arenas -/

/-- Changes of a state by which one byte of its layout changes. -/
inductive Nudge : State → State → Prop where
  /-- The flag of a guest is flipped. -/
  | guest (state : State) {player : String} {avatar : Avatar}
      (found : state.players.get? player = some avatar) :
      Nudge state
        { state with
          players := state.players.insert player { avatar with isGuest := !avatar.isGuest } }
  /-- One chat message more is counted, without a carry to the next byte. -/
  | chat (state : State) (noCarry : state.chats.toNat % 256 ≠ 255) :
      Nudge state { state with chats := state.chats + 1 }
  /-- A character in the name of a player is changed to another one whose bytes differ
  once, and the name keeps its place. -/
  | rename (state : State) {players : Dict String Avatar} {before after : List (String × Avatar)}
      {avatar : Avatar} {front back : String} {character other : Char}
      (differ : DifferOnce (Bytes.utf8 (.singleton character)) (Bytes.utf8 (.singleton other)))
      (named : state.players.entries =
        before ++ (front ++ .singleton character ++ back, avatar) :: after)
      (renamed : players.entries =
        before ++ (front ++ .singleton other ++ back, avatar) :: after) :
      Nudge state { state with players := players }

/-- Different characters of one byte differ once. -/
theorem differOnce_singleton {character other : Char} (short : character.utf8Size = 1)
    (shortToo : other.utf8Size = 1) (different : character ≠ other) :
    DifferOnce (Bytes.utf8 (.singleton character)) (Bytes.utf8 (.singleton other)) := by
  have bytes {c : Char} (isShort : c.utf8Size = 1) :
      Bytes.utf8 (.singleton c) = [c.val.toUInt8] := by
    have encoded : (String.singleton c).toUTF8 = (String.utf8EncodeChar c).toByteArray :=
      String.toByteArray_singleton.trans List.utf8Encode_singleton
    rw [Bytes.utf8, encoded, List.toList_data_toByteArray,
      String.utf8EncodeChar_eq_singleton isShort]
  rw [bytes short, bytes shortToo]
  refine Bytes.differOnce_of_parts [] [] fun same => different ?_
  have texts : String.singleton character = .singleton other :=
    Bytes.utf8_injective (by rw [bytes short, bytes shortToo, same])
  simpa using congrArg String.toList texts

/-- The layouts of dictionaries differ once if those of two entries in the same place do. -/
theorem differOnce_dict {first second : Dict String Avatar} {before after : List (String × Avatar)}
    {entry other : String × Avatar}
    (isFirst : first.entries = before ++ entry :: after)
    (isSecond : second.entries = before ++ other :: after)
    (differ : DifferOnce (Bytes.pair Bytes.text Avatar.layout entry)
      (Bytes.pair Bytes.text Avatar.layout other)) :
    DifferOnce (Bytes.dict Bytes.text Avatar.layout first)
      (Bytes.dict Bytes.text Avatar.layout second) := by
  have within := differ.within
    (Bytes.count (before ++ entry :: after).length ++
      before.flatMap (Bytes.pair Bytes.text Avatar.layout))
    (after.flatMap (Bytes.pair Bytes.text Avatar.layout))
  simpa [Bytes.dict, Bytes.list, isFirst, isSecond] using within

/-- The layouts of texts differ once if their bytes do. -/
theorem differOnce_text {first second : String}
    (differ : DifferOnce (Bytes.utf8 first) (Bytes.utf8 second)) :
    DifferOnce (Bytes.text first) (Bytes.text second) := by
  have within := differ.within (Bytes.count (Bytes.utf8 second).length) []
  rw [List.append_nil, List.append_nil] at within
  rwa [Bytes.text, Bytes.text, differ.1]

/-- The layouts of a word and the next one differ once if nothing is carried. -/
theorem differOnce_word64 {word : UInt64} (noCarry : word.toNat % 256 ≠ 255) :
    DifferOnce (Bytes.word64 word) (Bytes.word64 (word + 1)) := by
  have bound : word.toNat < 18446744073709551616 := word.toNat_lt
  have next : (word + 1).toNat = word.toNat + 1 := by
    rw [UInt64.toNat_add, UInt64.toNat_one]
    omega
  have high : (word.toNat + 1) / 256 = word.toNat / 256 := by omega
  have low : UInt8.ofNat (word.toNat % 256) ≠ UInt8.ofNat ((word.toNat + 1) % 256) := by
    intro same
    have numbers := congrArg UInt8.toNat same
    rw [UInt8.toNat_ofNat', UInt8.toNat_ofNat'] at numbers
    omega
  have parts (n : Nat) :
      Bytes.littleEndian 8 n = UInt8.ofNat (n % 256) :: Bytes.littleEndian 7 (n / 256) := rfl
  rw [Bytes.word64, Bytes.word64, next, parts, parts, high]
  exact Bytes.differOnce_of_parts [] _ low

/-- A small change changes one byte of the layout. -/
theorem Nudge.differOnce {state next : State} (nudge : Nudge state next) :
    DifferOnce state.layout next.layout := by
  have around {players other : Dict String Avatar}
      (differ : DifferOnce (Bytes.dict Bytes.text Avatar.layout players)
        (Bytes.dict Bytes.text Avatar.layout other)) :
      DifferOnce (State.layout { state with players })
        (State.layout { state with players := other }) :=
    differ.within (Bytes.word64 state.tick) (Bytes.word64 state.chats)
  cases nudge with
  | @guest player avatar found =>
      obtain ⟨before, after, named, flipped⟩ := Dict.entries_insert_of_get? found
        { avatar with isGuest := !avatar.isGuest }
      have flags : DifferOnce (Bytes.bool avatar.isGuest) (Bytes.bool !avatar.isGuest) := by
        cases avatar.isGuest <;> exact Bytes.differOnce_of_parts [] [] (by decide)
      have entry := flags.within
        (Bytes.text player ++ Bytes.word32 avatar.x.bits ++ Bytes.word32 avatar.y.bits ++
          Bytes.word32 avatar.targetX.bits ++ Bytes.word32 avatar.targetY.bits) []
      refine around (differOnce_dict named flipped ?_)
      simpa [Bytes.pair, Avatar.layout] using entry
  | chat noCarry =>
      have counts := (differOnce_word64 noCarry).within
        (Bytes.word64 state.tick ++ Bytes.dict Bytes.text Avatar.layout state.players) []
      rwa [List.append_nil, List.append_nil] at counts
  | @rename players before after avatar front back character other differ named renamed =>
      have bytes : DifferOnce (Bytes.utf8 (front ++ .singleton character ++ back))
          (Bytes.utf8 (front ++ .singleton other ++ back)) := by
        simpa only [Bytes.utf8_append] using differ.within (Bytes.utf8 front) (Bytes.utf8 back)
      have entry := (differOnce_text bytes).within [] avatar.layout
      exact around (differOnce_dict named renamed entry)

/-- Byte strings of one length that differ in one position have different hashes, of
different sixteen digits.  Two arenas whose lengths can be laid out have the same layout
only if they are the same.  Arenas whose layouts differ in one byte have different
fingerprints, which is so after every small change. -/
theorem fingerprint_sees_bytes :
    (∀ first second, DifferOnce first second →
      Fingerprint.hash first ≠ Fingerprint.hash second ∧
        Fingerprint.format (Fingerprint.hash first) ≠
          Fingerprint.format (Fingerprint.hash second) ∧
        (Fingerprint.format (Fingerprint.hash first)).length = 16 ∧
        (Fingerprint.format (Fingerprint.hash second)).length = 16) ∧
    (∀ first second : State, first.Fits → second.Fits → first.layout = second.layout →
      first = second) ∧
    (∀ first second : State, DifferOnce first.layout second.layout →
      first.fingerprint ≠ second.fingerprint) ∧
    ∀ state next : State, Nudge state next →
      DifferOnce state.layout next.layout ∧ state.fingerprint ≠ next.fingerprint := by
  refine ⟨fun first second differ => ?_, fun _ _ => State.eq_of_layout_eq,
    fun _ _ => Fingerprint.ofBytes_ne, fun _ _ nudge => ?_⟩
  · exact ⟨Fingerprint.hash_ne differ, Fingerprint.ofBytes_ne differ,
      Fingerprint.length_format _, Fingerprint.length_format _⟩
  · exact ⟨nudge.differOnce, Fingerprint.ofBytes_ne nudge.differOnce⟩

/-- An arena of two players after a flag was flipped, a message counted, or a player
renamed. -/
theorem fingerprint_sees_bytes_of_two_players :
    let avatar := Avatar.standingAt (.ofInt 100) (.ofInt 200) false
    let guest := { avatar with isGuest := true }
    let state : State :=
      { tick := 3, players := .ofList [("p1", avatar), ("p3", avatar)], chats := 7 }
    let flipped := { state with players := state.players.insert "p3" guest }
    let renamed := { state with players := .ofList [("p2", avatar), ("p3", avatar)] }
    Fingerprint.hash [1, 2, 3] ≠ Fingerprint.hash [1, 9, 3] ∧
    (state.Fits ∧ flipped.Fits ∧ state.layout ≠ flipped.layout) ∧
    (Nudge state flipped ∧ state.fingerprint ≠ flipped.fingerprint) ∧
    (Nudge state { state with chats := 8 } ∧
      state.fingerprint ≠ State.fingerprint { state with chats := 8 }) ∧
    Nudge state renamed ∧ state.fingerprint ≠ renamed.fingerprint := by
  intro avatar guest state flipped renamed
  obtain ⟨apart, injective, -, changed⟩ := fingerprint_sees_bytes
  have fits : state.Fits := by decide +kernel
  have fitsToo : flipped.Fits := by decide +kernel
  have flip : Nudge state flipped := .guest state (by decide +kernel)
  have count : Nudge state { state with chats := 8 } := .chat state (by decide)
  have digits : DifferOnce (Bytes.utf8 (.singleton '1')) (Bytes.utf8 (.singleton '2')) :=
    differOnce_singleton rfl rfl (by decide)
  have named : state.players.entries =
      [] ++ ("p" ++ .singleton '1' ++ "", avatar) :: [("p3", avatar)] := by decide +kernel
  have renames : renamed.players.entries =
      [] ++ ("p" ++ .singleton '2' ++ "", avatar) :: [("p3", avatar)] := by decide +kernel
  have name : Nudge state renamed := .rename state digits named renames
  have different : state ≠ flipped := by decide +kernel
  exact ⟨(apart _ _ (Bytes.differOnce_of_parts [1] [3] (by decide))).1,
    ⟨fits, fitsToo, fun same => different (injective _ _ fits fitsToo same)⟩,
    ⟨flip, (changed _ _ flip).2⟩, ⟨count, (changed _ _ count).2⟩, name, (changed _ _ name).2⟩

end Arena
end Chronicle
