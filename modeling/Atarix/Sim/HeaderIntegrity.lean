import Atarix.Foundation.CrcBurst
import Atarix.Sim.Replay

/-! # What a mailbox header vouches for

Validation accepts a header exactly if construction makes it for the payload at
hand, so a payload other than the one it was made for passes only by having the
same checksum, and a short burst of errors never leaves the checksum alone.
-/

namespace Atarix

/-! ## The header that construction makes -/

/-- The header that `atarix_mailbox_build_header` makes of valid arguments. -/
def builtHeader (type : BitVec 16) (sequence : BitVec 32) (payload : Option Memory)
    (length : BitVec 16) : MailboxHeader where
  magic := mailboxMagicV1
  type := type
  length := length
  sequence := sequence
  crc32 := mailboxCrc32 payload length.toNat

variable {type : BitVec 16} {sequence : BitVec 32} {payload : Option Memory}

/-- Construction succeeds on a known type and a payload that is present and not
too long, and otherwise changes nothing. -/
theorem mailboxBuildHeader_cases (header : Option MailboxHeader) (type : BitVec 16)
    (sequence : BitVec 32) (payload : Option Memory) (length : BitVec 16) :
    (header.isSome ∧ (payload.isNone → length = 0) ∧ mailboxMessageTypeKnown type ∧
      length.toNat ≤ mailboxMaxPayloadV1 ∧
      mailboxBuildHeader header type sequence payload length =
        (.ok, some (builtHeader type sequence payload length))) ∨
    ∃ status, status ≠ .ok ∧
      mailboxBuildHeader header type sequence payload length = (status, header) := by
  cases header with
  | none => exact Or.inr ⟨.null, by decide, rfl⟩
  | some header =>
      simp only [mailboxBuildHeader]
      split_ifs with hnull htype hlength
      · exact Or.inr ⟨.null, by decide, rfl⟩
      · exact Or.inr ⟨.invalidLength, by decide, rfl⟩
      · refine Or.inl ⟨rfl, ?_, htype, Nat.not_lt.mp hlength, rfl⟩
        intro hnone
        by_contra hne
        exact hnull ⟨hnone, hne⟩
      · exact Or.inr ⟨.unknownType, by decide, rfl⟩

/-- What validation asks of a header, field by field. -/
theorem mailboxValidateHeader_ok_iff {header : MailboxHeader} {length : Nat} :
    mailboxValidateHeader (some header) payload length = .ok ↔
      (payload.isNone → length = 0) ∧ header.magic = mailboxMagicV1 ∧
        mailboxMessageTypeKnown header.type ∧ header.length.toNat ≤ mailboxMaxPayloadV1 ∧
        header.length.toNat = length ∧ mailboxCrc32 payload length = header.crc32 := by
  simp only [mailboxValidateHeader]
  split_ifs with hnull hmagic htype hlength hcrc <;> grind

/-- The length field of a payload that is not too long holds its length. -/
theorem toNat_lengthField {length : Nat} (hle : length ≤ mailboxMaxPayloadV1) :
    (BitVec.ofNat 16 length).toNat = length :=
  Nat.mod_eq_of_lt (Nat.lt_of_le_of_lt hle (by decide))

/-- A valid header is the one that construction makes. -/
theorem mailboxValidateHeader_ok_iff_eq {header : MailboxHeader} {length : Nat}
    (hpresent : payload.isNone → length = 0) :
    mailboxValidateHeader (some header) payload length = .ok ↔
      length ≤ mailboxMaxPayloadV1 ∧ mailboxMessageTypeKnown header.type ∧
        header = builtHeader header.type header.sequence payload (BitVec.ofNat 16 length) := by
  rw [mailboxValidateHeader_ok_iff]
  constructor
  · rintro ⟨-, hmagic, htype, hmax, rfl, hcrc⟩
    refine ⟨hmax, htype, ?_⟩
    obtain ⟨magic, type, length, sequence, crc32⟩ := header
    simp_all [builtHeader]
  · rintro ⟨hmax, htype, hheader⟩
    have hlength := toNat_lengthField hmax
    rw [hheader]
    refine ⟨hpresent, rfl, htype, ?_, hlength, ?_⟩
    · rw [builtHeader, hlength]
      exact hmax
    · rw [builtHeader, hlength]

/-- Sending either stamps and counts the packet or changes nothing. -/
theorem simMailboxSend_cases (source : Option SimNode) (packet : Option SimMailboxPacket)
    (type : BitVec 16) (sequence : BitVec 32) (payload : Option Memory) (length : BitVec 16) :
    (∃ sender, source = some sender ∧
      simMailboxSend source packet type sequence payload length =
        (.ok, some (simNodeRecordTx sender),
          some ⟨builtHeader type sequence payload length, payload, length.toNat⟩)) ∨
    ∃ status, status ≠ .ok ∧
      simMailboxSend source packet type sequence payload length = (status, source, packet) := by
  cases source with
  | none => exact Or.inr ⟨.null, by decide, rfl⟩
  | some sender =>
      cases packet with
      | none => exact Or.inr ⟨.null, by decide, rfl⟩
      | some packet =>
          simp only [simMailboxSend]
          split_ifs with hnull
          · exact Or.inr ⟨.null, by decide, rfl⟩
          · rcases mailboxBuildHeader_cases (some packet.header) type sequence payload length with
              ⟨-, -, -, -, hbuild⟩ | ⟨status, hstatus, hbuild⟩
            · rw [hbuild]
              exact Or.inl ⟨sender, rfl, rfl⟩
            · refine Or.inr ⟨status, hstatus, ?_⟩
              rw [hbuild]
              cases status <;> first | rfl | exact absurd rfl hstatus

/-- Validation and construction are inverse to each other, and a construction or
a send that fails leaves every object as it was. -/
theorem mailboxHeader_exact :
    (∀ (header : MailboxHeader) (payload : Option Memory) (length : Nat),
      (payload.isNone → length = 0) →
      (mailboxValidateHeader (some header) payload length = .ok ↔
        length ≤ mailboxMaxPayloadV1 ∧ mailboxMessageTypeKnown header.type ∧
          ∀ prior, mailboxBuildHeader (some prior) header.type header.sequence payload
            (BitVec.ofNat 16 length) = (.ok, some header))) ∧
    (∀ (header : Option MailboxHeader) (type : BitVec 16) (sequence : BitVec 32)
      (payload : Option Memory) (length : BitVec 16),
      (mailboxBuildHeader header type sequence payload length).1 ≠ .ok →
        (mailboxBuildHeader header type sequence payload length).2 = header) ∧
    ∀ (source : Option SimNode) (packet : Option SimMailboxPacket) (type : BitVec 16)
      (sequence : BitVec 32) (payload : Option Memory) (length : BitVec 16),
      (simMailboxSend source packet type sequence payload length).1 ≠ .ok →
        (simMailboxSend source packet type sequence payload length).2 = (source, packet) := by
  refine ⟨?_, ?_, ?_⟩
  · intro header payload length hpresent
    rw [mailboxValidateHeader_ok_iff_eq hpresent]
    refine and_congr_right fun hmax => and_congr_right fun htype => ?_
    have hlength := toNat_lengthField hmax
    have hbuilds : ∀ prior, mailboxBuildHeader (some prior) header.type header.sequence payload
        (BitVec.ofNat 16 length) =
          (.ok, some
            (builtHeader header.type header.sequence payload (BitVec.ofNat 16 length))) := by
      intro prior
      have hnull : ¬ (payload.isNone ∧ BitVec.ofNat 16 length ≠ 0) := by
        rintro ⟨hnone, hne⟩
        exact hne (by rw [hpresent hnone]; rfl)
      rw [mailboxBuildHeader, if_neg hnull, if_neg (not_not.mpr htype), if_neg (by omega)]
      rfl
    constructor
    · intro hheader prior
      rw [hbuilds prior, ← hheader]
    · intro hbuilt
      exact Option.some.inj (congrArg Prod.snd ((hbuilt header).symm.trans (hbuilds header)))
  · intro header type sequence payload length hfails
    rcases mailboxBuildHeader_cases header type sequence payload length with
      ⟨-, -, -, -, hbuild⟩ | ⟨status, -, hbuild⟩
    · exact absurd (congrArg Prod.fst hbuild) hfails
    · rw [hbuild]
  · intro source packet type sequence payload length hfails
    rcases simMailboxSend_cases source packet type sequence payload length with
      ⟨sender, -, hsend⟩ | ⟨status, -, hsend⟩
    · exact absurd (congrArg Prod.fst hsend) hfails
    · rw [hsend]

/-! ## Corrupted payloads -/

theorem mailboxCrc32BitStep_eq : mailboxCrc32BitStep = Crc.polynomialStep 0xEDB88320 := by
  funext crc
  rw [mailboxCrc32BitStep, Crc.polynomialStep]
  simp only [Crc.and_one_ne_zero_iff]
  split_ifs with hodd
  · rfl
  · exact (BitVec.xor_zero).symm

/-- A burst of errors of at most four bytes changes the checksum. -/
theorem mailboxCrc32_ne_of_burst {sent received : Memory} {length start : Nat}
    (hagree : ∀ index < length, index < start ∨ start + 4 ≤ index → sent index = received index)
    (hdiffer : ∃ index < length, sent index ≠ received index) :
    mailboxCrc32 (some received) length ≠ mailboxCrc32 (some sent) length := by
  intro heq
  have hregisters := (BitVec.xor_left_inj _).mp heq
  rw [mailboxCrc32BitStep_eq] at hregisters
  exact Crc.update_ne_of_burst (by decide) _ hagree hdiffer hregisters.symm

/-- The header of a payload is refused for any other payload of its length that
differs within four consecutive bytes, and the receiver keeps its window. -/
theorem corrupted_payload_refused (prior : MailboxHeader) (htype : mailboxMessageTypeKnown type)
    (sequence : BitVec 32) {sent received : Memory} {length : BitVec 16} (start : Nat)
    (hlength : length.toNat ≤ mailboxMaxPayloadV1)
    (hagree : ∀ index < length.toNat, index < start ∨ start + 4 ≤ index →
      sent index = received index)
    (hdiffer : ∃ index < length.toNat, sent index ≠ received index) :
    ∃ header, mailboxBuildHeader (some prior) type sequence (some sent) length =
        (.ok, some header) ∧
      mailboxValidateHeader (some header) (some received) length.toNat = .crcMismatch ∧
      ∀ destination,
        (simMailboxReceive destination (some ⟨header, some received, length.toNat⟩)).2 =
          destination := by
  have hrefused : mailboxValidateHeader (some (builtHeader type sequence (some sent) length))
      (some received) length.toNat = .crcMismatch := by
    have hcrc := mailboxCrc32_ne_of_burst hagree hdiffer
    simp [mailboxValidateHeader, builtHeader, htype, hcrc, Nat.not_lt.mpr hlength]
  refine ⟨builtHeader type sequence (some sent) length, ?_, hrefused, ?_⟩
  · rw [mailboxBuildHeader, if_neg (by simp), if_neg (not_not.mpr htype), if_neg (by omega)]
    rfl
  · intro destination
    cases destination with
    | none => rfl
    | some destination =>
        rcases simMailboxReceive_cases destination
            (some ⟨builtHeader type sequence (some sent) length, some received, length.toNat⟩) with
          ⟨packet, node, hdelivery, -, hvalid, -⟩ | ⟨status, -, hkeeps⟩
        · cases hdelivery
          exact absurd (hrefused.symm.trans hvalid) (by decide)
        · rw [hkeeps]

/-- One flipped byte in a payload of three. -/
theorem corrupted_payload_refused_flip :
    ∃ header, mailboxBuildHeader (some ⟨0, 0, 0, 0, 0⟩) MailboxMessage.ping 7
        (some (Memory.ofList [1, 2, 3])) 3 = (.ok, some header) ∧
      mailboxValidateHeader (some header) (some (Memory.ofList [1, 9, 3])) 3 = .crcMismatch ∧
      ∀ destination,
        (simMailboxReceive destination (some ⟨header, some (Memory.ofList [1, 9, 3]), 3⟩)).2 =
          destination :=
  corrupted_payload_refused ⟨0, 0, 0, 0, 0⟩ (by decide) 7 1 (by decide) (by decide)
    ⟨1, by decide⟩

end Atarix
