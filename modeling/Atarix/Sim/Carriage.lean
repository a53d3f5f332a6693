import Atarix.Rtl.RequestFields
import Atarix.Sim.HeaderIntegrity

/-! # Which declared message types are carried

The ABI declares the types of a message in an enumeration, the mailbox lists the
ones it knows in a switch, and the lookup accelerator compares the type of a
request with one constant. The types of the lookup service are in the first
place and the third, but not in the second.
-/

namespace Atarix

/-- `atarix_mailbox_message_type_t`. -/
inductive MailboxMessageType where
  | invalid
  | ping
  | pong
  | versionQuery
  | versionReply
  | statusQuery
  | statusReply
  | readRegister
  | writeRegister
  | resetRequest
  | faultReport
  | discoveryRecordPush
  | capabilityEvaluate
  | indexQuery
  | indexMutate
  | indexRecover
  | indexStatus
deriving DecidableEq, Repr

namespace MailboxMessageType

/-- The value of an enumerator. -/
def value : MailboxMessageType → BitVec 16
  | invalid => 0x0000
  | ping => MailboxMessage.ping
  | pong => MailboxMessage.pong
  | versionQuery => MailboxMessage.versionQuery
  | versionReply => MailboxMessage.versionReply
  | statusQuery => MailboxMessage.statusQuery
  | statusReply => MailboxMessage.statusReply
  | readRegister => MailboxMessage.readRegister
  | writeRegister => MailboxMessage.writeRegister
  | resetRequest => MailboxMessage.resetRequest
  | faultReport => MailboxMessage.faultReport
  | discoveryRecordPush => MailboxMessage.discoveryRecordPush
  | capabilityEvaluate => MailboxMessage.capabilityEvaluate
  | indexQuery => 0x0020
  | indexMutate => 0x0021
  | indexRecover => 0x0022
  | indexStatus => 0x0023

/-- The types of the lookup acceleration service. -/
def lookupService : List MailboxMessageType :=
  [indexQuery, indexMutate, indexRecover, indexStatus]

/-- The switch knows every declared type but those of the lookup service. -/
theorem known_iff {type : MailboxMessageType} (hdeclared : type ≠ invalid) :
    mailboxMessageTypeKnown type.value ↔ type ∉ lookupService := by
  cases type
  case invalid => exact absurd rfl hdeclared
  all_goals decide

end MailboxMessageType

/-- A message of `type` can be sent from any node into any packet, and is received
at any endpoint that has just been initialised. -/
def Carried (type : BitVec 16) (sequence : BitVec 32) (payload : Option Memory)
    (length : BitVec 16) : Prop :=
  ∀ (source destination : SimNode) (prior : SimMailboxPacket) (endpoint : SimMailboxEndpoint),
    ∃ sender packet,
      simMailboxSend (some source) (some prior) type sequence payload length =
        (.ok, sender, some packet) ∧
      (simMailboxReceive (simMailboxEndpointInit (some endpoint) (some destination))
        (some packet)).1 = .ok

variable {type : BitVec 16} {sequence : BitVec 32} {payload : Option Memory} {length : BitVec 16}

/-- A send that succeeds is of a known type. -/
theorem known_of_send {source : Option SimNode} {prior : Option SimMailboxPacket}
    (hok : (simMailboxSend source prior type sequence payload length).1 = .ok) :
    mailboxMessageTypeKnown type := by
  by_contra hunknown
  cases source with
  | none => cases hok
  | some source =>
      cases prior with
      | none => cases hok
      | some prior =>
          simp only [simMailboxSend] at hok
          split_ifs at hok with hnull
          simp only [mailboxBuildHeader, if_neg hnull, if_pos hunknown] at hok
          cases hok

theorem carried_of_known (hknown : mailboxMessageTypeKnown type)
    (hpresent : payload.isNone → length = 0) (hlength : length.toNat ≤ mailboxMaxPayloadV1) :
    Carried type sequence payload length := by
  intro source destination prior endpoint
  have hnull : ¬ (payload.isNone ∧ length ≠ 0) := fun hnull => hnull.2 (hpresent hnull.1)
  refine ⟨some (simNodeRecordTx source),
    ⟨builtHeader type sequence payload length, payload, length.toNat⟩, ?_, ?_⟩
  · simp only [simMailboxSend, if_neg hnull, mailboxBuildHeader, if_neg (not_not.mpr hknown),
      if_neg (Nat.not_lt.mpr hlength)]
    rfl
  · have hvalid : mailboxValidateHeader (some (builtHeader type sequence payload length)) payload
        length.toNat = .ok := by
      rw [mailboxValidateHeader_ok_iff]
      refine ⟨fun hnone => ?_, rfl, hknown, hlength, rfl, rfl⟩
      rw [hpresent hnone]
      rfl
    -- a window that has accepted nothing yet expects any number
    have hexpects : SequenceWindow.zeroed.Expects
        (builtHeader type sequence payload length).sequence := fun hinit => absurd hinit (by decide)
    simp only [simMailboxEndpointInit, Option.map_some, simMailboxReceive, hvalid]
    rw [SequenceWindow.accept_of_expects hexpects]

/-- What carries a message of a type is the switch. -/
theorem carried_iff_known (hpresent : payload.isNone → length = 0)
    (hlength : length.toNat ≤ mailboxMaxPayloadV1) :
    Carried type sequence payload length ↔ mailboxMessageTypeKnown type := by
  constructor
  · intro hcarried
    obtain ⟨sender, packet, hsend, -⟩ :=
      hcarried (simNodeInit 1) (simNodeInit 2) ⟨builtHeader 0 0 none 0, none, 0⟩ ⟨none, ⟨0, false⟩⟩
    exact known_of_send (congrArg Prod.fst hsend)
  · intro hknown
    exact carried_of_known hknown hpresent hlength

/-- A declared type is carried, with any payload it may have and any number,
exactly if it is not one of the lookup service's. -/
theorem declared_carried_iff {type : MailboxMessageType} {sequence : BitVec 32}
    {payload : Option Memory} {length : BitVec 16} (hdeclared : type ≠ .invalid)
    (hpresent : payload.isNone → length = 0) (hlength : length.toNat ≤ mailboxMaxPayloadV1) :
    Carried type.value sequence payload length ↔ type ∉ MailboxMessageType.lookupService := by
  rw [carried_iff_known hpresent hlength, MailboxMessageType.known_iff hdeclared]

/-- Of one payload of three bytes, a register write is carried and a query is not. -/
theorem declared_carried_iff_writeRegister :
    let payload := some (Memory.ofList [0x10, 0x00, 0x2A])
    Carried MailboxMessageType.writeRegister.value 7 payload 3 ∧
      ¬ Carried MailboxMessageType.indexQuery.value 7 payload 3 := by
  intro payload
  have hpresent : payload.isNone → (3 : BitVec 16) = 0 := fun hnone => Bool.noConfusion hnone
  constructor
  · rw [declared_carried_iff (by decide) hpresent (by decide)]
    decide
  · rw [declared_carried_iff (by decide) hpresent (by decide)]
    decide

/-- The type gate of the accelerator lets through the declared type INDEX_QUERY
and no other, and no packet of that type can be sent or is valid. -/
theorem index_query_not_carried :
    (∀ req, Accelerator.validateVerdict req ≠ some Accelerator.statusInvalidHeader ↔
        req.type = MailboxMessageType.indexQuery.value) ∧
      ¬ Carried MailboxMessageType.indexQuery.value 0 none 0 ∧
      ∀ packet : SimMailboxPacket,
        packet.header.type = MailboxMessageType.indexQuery.value → ¬ packet.Valid := by
  refine ⟨fun req => ?_, ?_, ?_⟩
  · have hgate : Accelerator.typeIndexQuery = MailboxMessageType.indexQuery.value := rfl
    have hdistinct : some Accelerator.statusCrcMismatch ≠ some Accelerator.statusInvalidHeader := by
      decide
    simp only [Accelerator.validateVerdict, ← hgate]
    split_ifs with htype <;> simp_all
  · rw [carried_iff_known (fun _ => rfl) (by decide)]
    decide
  · intro packet htype hvalid
    have hknown := (mailboxValidateHeader_ok_iff.mp hvalid).2.2.1
    rw [htype] at hknown
    exact absurd hknown (by decide)

end Atarix
