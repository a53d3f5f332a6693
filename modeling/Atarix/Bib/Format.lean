import Atarix.Foundation.Crc

/-! # Boot information blocks

The layout of `bib.h`: a 64-byte header, then records of a 16-byte header and a
payload, padded to multiples of eight.
-/

namespace Atarix

/-- `atarix_bib_error_t`. -/
inductive BibError where
  | ok
  | window
  | magic
  | version
  | headerLength
  | totalLength
  | crc
  | headerReserved
  | tlvBounds
  | tlvReserved
  | unknownMandatory
  | requiredRecord
  | referenceOverflow
  | referenceAuthority
  | referenceIntegrity
deriving DecidableEq, Repr

def bibVersionMajorV1 : BitVec 16 := 1
def bibVersionMinorV0 : BitVec 16 := 0
def bibHeaderSizeV1 : BitVec 32 := 64
def bibTlvHeaderSizeV1 : BitVec 32 := 16
def bibReferenceFixedSizeV1 : BitVec 32 := 40
def bibRecommendedMaxSizeV1 : BitVec 32 := 64 * 1024

/-- The magic bytes, `ATARXBIB`. -/
def bibMagic : List (BitVec 8) := [0x41, 0x54, 0x41, 0x52, 0x58, 0x42, 0x49, 0x42]

def bibHeaderKnownFlagsV1 : BitVec 16 := 0x000F
def bibTlvKnownFlagsV1 : BitVec 16 := 0x0003
def bibTlvFlagMandatory : BitVec 16 := 1
def bibTlvFlagSensitive : BitVec 16 := 2

def bibFlagRecoveryBoot : BitVec 16 := 1
def bibFlagDegradedBoot : BitVec 16 := 2
def bibFlagSecurePolicyActive : BitVec 16 := 4
def bibFlagDiagnosticBoot : BitVec 16 := 8

namespace BibTlv

def reserved : BitVec 16 := 0x0000
def serviceDirectoryReference : BitVec 16 := 0x0001
def memoryMapReference : BitVec 16 := 0x0002
def bootDeviceIdentity : BitVec 16 := 0x0003
def bootImageIdentity : BitVec 16 := 0x0004
def bootArguments : BitVec 16 := 0x0005
def consoleServiceIdentity : BitVec 16 := 0x0006
def supervisorServiceIdentity : BitVec 16 := 0x0007
def auditLogReference : BitVec 16 := 0x0008
def firmwareBuildIdentity : BitVec 16 := 0x0009
def entropySeedReference : BitVec 16 := 0x000A
def experimentalBegin : BitVec 16 := 0x8000

end BibTlv

def bibLengthIsAligned (length : BitVec 32) : Bool := length &&& 7 = 0

def bibHeaderFlagsAreKnown (flags : BitVec 16) : Bool := flags &&& ~~~ bibHeaderKnownFlagsV1 = 0

def bibTlvFlagsAreKnown (flags : BitVec 16) : Bool := flags &&& ~~~ bibTlvKnownFlagsV1 = 0

def bibTlvTypeIsExperimental (type : BitVec 16) : Bool := type ≥ BibTlv.experimentalBegin

/-- The inner loop body of the builder's and the reader's checksum. -/
def crc32cBitStep (crc : BitVec 32) : BitVec 32 :=
  (crc >>> 1) ^^^ (if crc &&& 1 ≠ 0 then 0x82F63B78 else 0)

theorem bibLengthIsAligned_iff (length : BitVec 32) :
    bibLengthIsAligned length ↔ length.toNat % 8 = 0 := by
  have hmask : (length &&& 7).toNat = length.toNat % 8 := by
    rw [BitVec.toNat_and]
    exact Nat.and_two_pow_sub_one_eq_mod length.toNat 3
  rw [bibLengthIsAligned, decide_eq_true_iff, ← hmask, ← BitVec.toNat_inj]
  rfl

end Atarix
