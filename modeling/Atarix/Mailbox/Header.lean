import Atarix.Foundation.Crc

/-! # Mailbox headers

The 16-byte header of `mailbox.h`, its construction and its validation.
-/

namespace Atarix

/-- `atarix_mailbox_status_t`. -/
inductive MailboxStatus where
  | ok
  | null
  | invalidHeader
  | invalidLength
  | crcMismatch
  | sequenceError
  | duplicate
  | outOfOrder
  | unknownType
  | ringDenied
  | policyDenied
  | capabilityDenied
  | quarantined
  | busy
  | timeout
deriving DecidableEq, Repr

/-- `atarix_mailbox_header_v1_t`. -/
structure MailboxHeader where
  magic : BitVec 32
  type : BitVec 16
  length : BitVec 16
  sequence : BitVec 32
  crc32 : BitVec 32
deriving DecidableEq, Repr

def mailboxMagicV1 : BitVec 32 := 0x58424D41

def mailboxMaxPayloadV1 : Nat := 4096

namespace MailboxMessage

def ping : BitVec 16 := 0x0001
def pong : BitVec 16 := 0x0002
def versionQuery : BitVec 16 := 0x0003
def versionReply : BitVec 16 := 0x0004
def statusQuery : BitVec 16 := 0x0005
def statusReply : BitVec 16 := 0x0006
def readRegister : BitVec 16 := 0x0007
def writeRegister : BitVec 16 := 0x0008
def resetRequest : BitVec 16 := 0x0009
def faultReport : BitVec 16 := 0x000A
def discoveryRecordPush : BitVec 16 := 0x000B
def capabilityEvaluate : BitVec 16 := 0x000C

end MailboxMessage

/-- The inner loop body of `crc32_update`. -/
def mailboxCrc32BitStep (crc : BitVec 32) : BitVec 32 :=
  if crc &&& 1 ≠ 0 then (crc >>> 1) ^^^ 0xEDB88320 else crc >>> 1

/-- `none` is the NULL pointer, which has a checksum only when it carries no bytes. -/
def mailboxCrc32 (data : Option Memory) (length : Nat) : BitVec 32 :=
  match data with
  | none => if length ≠ 0 then 0 else 0xFFFFFFFF ^^^ 0xFFFFFFFF
  | some data => Crc.update mailboxCrc32BitStep 0xFFFFFFFF data length ^^^ 0xFFFFFFFF

def mailboxMessageTypeKnown (type : BitVec 16) : Bool :=
  type ∈ [MailboxMessage.ping, MailboxMessage.pong, MailboxMessage.versionQuery,
    MailboxMessage.versionReply, MailboxMessage.statusQuery, MailboxMessage.statusReply,
    MailboxMessage.readRegister, MailboxMessage.writeRegister, MailboxMessage.resetRequest,
    MailboxMessage.faultReport, MailboxMessage.discoveryRecordPush,
    MailboxMessage.capabilityEvaluate]

/-- Returns the status and the header object the caller sees afterwards. -/
def mailboxBuildHeader (header : Option MailboxHeader) (type : BitVec 16) (sequence : BitVec 32)
    (payload : Option Memory) (payloadLength : BitVec 16) :
    MailboxStatus × Option MailboxHeader :=
  match header with
  | none => (.null, none)
  | some header =>
    if payload.isNone ∧ payloadLength ≠ 0 then (.null, some header)
    else if ¬ mailboxMessageTypeKnown type then (.unknownType, some header)
    else if payloadLength.toNat > mailboxMaxPayloadV1 then (.invalidLength, some header)
    else
      (.ok, some
        { magic := mailboxMagicV1
          type := type
          length := payloadLength
          sequence := sequence
          crc32 := mailboxCrc32 payload payloadLength.toNat })

def mailboxValidateHeader (header : Option MailboxHeader) (payload : Option Memory)
    (payloadLength : Nat) : MailboxStatus :=
  match header with
  | none => .null
  | some header =>
    if payload.isNone ∧ payloadLength ≠ 0 then .null
    else if header.magic ≠ mailboxMagicV1 then .invalidHeader
    else if ¬ mailboxMessageTypeKnown header.type then .unknownType
    else if header.length.toNat > mailboxMaxPayloadV1 ∨ header.length.toNat ≠ payloadLength then
      .invalidLength
    else if mailboxCrc32 payload payloadLength ≠ header.crc32 then .crcMismatch
    else .ok

end Atarix
