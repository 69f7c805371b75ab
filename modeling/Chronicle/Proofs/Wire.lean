import Chronicle.Packet.Wire
import Chronicle.Proofs.Bytes

/-!
# Packets come back from the wire

The bytes of a packet are read back as the packet, whatever follows them, and
bytes that break off before their end are too short for any packet.  So the bytes
of one packet never begin those of another one.
-/

namespace Chronicle
namespace Packet

open Bytes (Reader)
open Bytes.Reader (word32_reads word64_reads text_reads bool_reads option_reads dict_reads)

/-- The lengths that are sent within a packet: of its strings in bytes, and of its
dictionary in entries. -/
def lengths : Packet → List Nat
  | .join _ player device _ metadata =>
      player.utf8ByteSize :: metadata.size :: (device.toList.map String.utf8ByteSize ++
        metadata.entries.flatMap fun entry => [entry.1.utf8ByteSize, entry.2.utf8ByteSize])
  | .action _ type payload => [type.utf8ByteSize, payload.utf8ByteSize]
  | .clientEvent _ type payload => [type.utf8ByteSize, payload.utf8ByteSize]
  | .heartbeat => []
  | .leave => []
  | .joined player client session =>
      [player.utf8ByteSize, client.utf8ByteSize, session.utf8ByteSize]
  | .ack _ _ => []
  | .rejected _ reason => [reason.utf8ByteSize]
  | .serverEvent _ type payload => [type.utf8ByteSize, payload.utf8ByteSize]
  | .disconnected reason => [reason.utf8ByteSize]

/-- A packet whose lengths can be sent in 64 bits, which is so for every packet
that has a place in memory. -/
def Fits (packet : Packet) : Prop := ∀ length ∈ packet.lengths, length < UInt64.size

instance (packet : Packet) : Decidable packet.Fits :=
  inferInstanceAs (Decidable (∀ length ∈ packet.lengths, length < UInt64.size))

/-- The bytes of a packet are read as the packet. -/
theorem read_reads {packet : Packet} (fits : packet.Fits) :
    Packet.read.Reads packet.encode packet := by
  have text {text : String} (sent : text.utf8ByteSize ∈ packet.lengths) :
      Reader.text.Reads (Bytes.text text) text := text_reads (fits _ sent)
  cases packet with
  | join version player device guest metadata =>
      have sizes {entry : String × String} (member : entry ∈ metadata.entries) :
          entry.1.utf8ByteSize ∈ lengths (.join version player device guest metadata) ∧
            entry.2.utf8ByteSize ∈ lengths (.join version player device guest metadata) := by
        simp only [lengths, List.mem_cons, List.mem_append, List.mem_flatMap]
        exact ⟨.inr (.inr (.inr ⟨entry, member, .inl rfl⟩)),
          .inr (.inr (.inr ⟨entry, member, .inr (.inl rfl)⟩))⟩
      have strings :
          (Reader.dict Reader.text Reader.text).Reads (stringsLayout metadata) metadata :=
        dict_reads (fits _ (by simp [lengths])) (fun _ member => text (sizes member).1)
          fun _ member => text (sizes member).2
      simp only [encode, List.append_assoc]
      refine (word32_reads 0).bind <| (word32_reads version).bind <|
        (text (by simp [lengths])).bind <| (option_reads fun content isContent => ?_).bind <|
        (bool_reads guest).bind <| strings.last <| .pure _
      apply text
      simp [lengths, Option.mem_def.1 isContent]
  | action request type payload =>
      simp only [encode, List.append_assoc]
      exact (word32_reads 1).bind <| (word32_reads request).bind <|
        (text (by simp [lengths])).bind <| (text (by simp [lengths])).last <| .pure _
  | clientEvent request type payload =>
      simp only [encode, List.append_assoc]
      exact (word32_reads 2).bind <| (word32_reads request).bind <|
        (text (by simp [lengths])).bind <| (text (by simp [lengths])).last <| .pure _
  | heartbeat => exact (word32_reads 3).last (.pure _)
  | leave => exact (word32_reads 4).last (.pure _)
  | joined player client session =>
      simp only [encode, List.append_assoc]
      exact (word32_reads 5).bind <| (text (by simp [lengths])).bind <|
        (text (by simp [lengths])).bind <| (text (by simp [lengths])).last <| .pure _
  | ack request sequence =>
      simp only [encode, List.append_assoc]
      exact (word32_reads 6).bind <| (word32_reads request).bind <|
        (word64_reads sequence).last <| .pure _
  | rejected request reason =>
      simp only [encode, List.append_assoc]
      exact (word32_reads 7).bind <| (word32_reads request).bind <|
        (text (by simp [lengths])).last <| .pure _
  | serverEvent tick type payload =>
      simp only [encode, List.append_assoc]
      exact (word32_reads 8).bind <| (word64_reads tick).bind <|
        (text (by simp [lengths])).bind <| (text (by simp [lengths])).last <| .pure _
  | disconnected reason =>
      exact (word32_reads 9).bind <| (text (by simp [lengths])).last <| .pure _

/-- The packet of a datagram is what is read at its beginning. -/
theorem decode_eq (bytes : List UInt8) : decode bytes = (Packet.read bytes).map (·.1) := by
  rw [decode, StateT.run']
  cases Packet.read bytes <;> rfl

/-- A packet comes back from its bytes, and whatever follows them is ignored.  From bytes
that break off before their end no packet comes, and they are found to be too short.  So the
bytes of a packet never begin those of another one, and two packets never have the same
bytes. -/
theorem packets_come_back {packet : Packet} (fits : packet.Fits) :
    (∀ rest, decode (packet.encode ++ rest) = .ok packet) ∧
    (∀ kept, kept <+: packet.encode → kept ≠ packet.encode → decode kept = .error .tooShort) ∧
    (∀ other : Packet, other.Fits → other.encode <+: packet.encode → other = packet) ∧
    (∀ other : Packet, other.Fits → other.encode = packet.encode → other = packet) := by
  have reads := read_reads fits
  have begins (other : Packet) (otherFits : other.Fits)
      (isBeginning : other.encode <+: packet.encode) : other = packet :=
    (read_reads otherFits).eq_of_begins reads isBeginning
  refine ⟨fun rest => ?_, ?_, begins, fun other otherFits same => ?_⟩
  · rw [decode_eq, reads.whole rest]
    rfl
  · rintro kept ⟨lost, whole⟩ notWhole
    have missing : lost ≠ [] := by
      rintro rfl
      exact notWhole ((List.append_nil kept).symm.trans whole)
    rw [decode_eq, reads.cut kept lost missing whole]
    rfl
  · exact begins other otherFits (same ▸ List.prefix_rfl)

/-- A join with a device, a guest and characters beyond ASCII comes back before
other bytes, and breaks off within its last string. -/
theorem packets_come_back_of_join :
    let joining : Packet :=
      .join 1 "zoë" (some "device-7") true (.ofList [("region", "eu"), ("", "😀")])
    let leaving : Packet := .leave
    joining.Fits ∧ leaving.Fits ∧
    decode (joining.encode ++ [1, 2, 3]) = .ok joining ∧
    (joining.encode.take 80 <+: joining.encode ∧ joining.encode.take 80 ≠ joining.encode ∧
      decode (joining.encode.take 80) = .error .tooShort) ∧
    ¬leaving.encode <+: joining.encode := by
  intro joining leaving
  have fits : joining.Fits := by decide +kernel
  have leavingFits : leaving.Fits := by decide
  obtain ⟨whole, cut, begins, -⟩ := packets_come_back fits
  have short : joining.encode.take 80 ≠ joining.encode := by decide +kernel
  have isBeginning := List.take_prefix 80 joining.encode
  exact ⟨fits, leavingFits, whole [1, 2, 3], ⟨isBeginning, short, cut _ isBeginning short⟩,
    fun same => nomatch begins leaving leavingFits same⟩

end Packet
end Chronicle
