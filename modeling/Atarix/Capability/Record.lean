import Atarix.Foundation.Flags

/-! # Capability records

The rings of `rings.h`, the capability record of `capability.h`, and the checks
that `capability_policy.c` makes of one record alone.
-/

namespace Atarix

open FlagWord

/-! ## Rings -/

/-- `atarix_ring_t`. A C enumeration object holds any `int`, so every integer is
a value here and the enumerators are only named points. -/
abbrev Ring := Int

namespace Ring

def supervisor : Ring := -2
def fabric : Ring := -1
def kernel : Ring := 0
def driver : Ring := 1
def service : Ring := 2
def application : Ring := 3
def quarantine : Ring := 4

end Ring

/-- `atarix_ring_wire_t`: the 16-bit encodings stored in records. -/
abbrev RingWire := BitVec 16

namespace RingWire

def supervisor : RingWire := 0xFFFE
def fabric : RingWire := 0xFFFF
def kernel : RingWire := 0x0000
def driver : RingWire := 0x0001
def service : RingWire := 0x0002
def application : RingWire := 0x0003
def quarantine : RingWire := 0x0004

end RingWire

/-- Values outside the enumeration fall to `application`. -/
def ringToWire (ring : Ring) : RingWire :=
  if ring = Ring.supervisor then RingWire.supervisor
  else if ring = Ring.fabric then RingWire.fabric
  else if ring = Ring.kernel then RingWire.kernel
  else if ring = Ring.driver then RingWire.driver
  else if ring = Ring.service then RingWire.service
  else if ring = Ring.application then RingWire.application
  else if ring = Ring.quarantine then RingWire.quarantine
  else RingWire.application

/-- `atarix_ring_is_valid` of `ring.c`. -/
def ringIsValid (ring : Ring) : Bool := ring ≥ Ring.supervisor ∧ ring ≤ Ring.quarantine

/-- Every ordinary wire encoding is the encoding of some ring. -/
theorem exists_ringToWire_eq {wire : RingWire} (hle : wire ≤ RingWire.application) :
    ∃ ring, ringToWire ring = wire := by
  have hcases : wire = RingWire.kernel ∨ wire = RingWire.driver ∨ wire = RingWire.service ∨
      wire = RingWire.application := by
    unfold RingWire.kernel RingWire.driver RingWire.service RingWire.application at *
    bv_omega
  rcases hcases with rfl | rfl | rfl | rfl
  · exact ⟨Ring.kernel, rfl⟩
  · exact ⟨Ring.driver, rfl⟩
  · exact ⟨Ring.service, rfl⟩
  · exact ⟨Ring.application, rfl⟩

/-! ## Operations and capability flags -/

namespace Operation

def invalid : BitVec 32 := 0x00000000
def read : BitVec 32 := 0x00000001
def write : BitVec 32 := 0x00000002
def control : BitVec 32 := 0x00000003

end Operation

namespace CapabilityFlag

def readAllowed : BitVec 32 := 1 <<< 0
def writeAllowed : BitVec 32 := 1 <<< 1
def controlAllowed : BitVec 32 := 1 <<< 2
def delegationAllowed : BitVec 32 := 1 <<< 3
def timeLimited : BitVec 32 := 1 <<< 5
def recoveryOnly : BitVec 32 := 1 <<< 7

end CapabilityFlag

/-! ## Records -/

/-- `atarix_capability_record_v1_t`, less the delegation mask and the reserved
word, which no function of the repository reads. -/
structure CapabilityRecord where
  capabilityId : BitVec 32
  operationId : BitVec 32
  targetHandle : BitVec 64
  minimumRing : RingWire
  maximumRing : RingWire
  flags : BitVec 32
  expirationOrLifetime : BitVec 64
  issuerHandle : BitVec 64
  trustRequirement : BitVec 32
deriving DecidableEq, Repr

/-- `atarix_policy_status_t`. -/
inductive PolicyStatus where
  | ok
  | null
  | invalidRequest
  | invalidCapability
  | untrustedIssuer
  | untrustedOwner
  | revoked
  | expired
  | ringDenied
  | ownerMismatch
  | delegationDenied
  | resourceDenied
  | operationDenied
deriving DecidableEq, Repr

def capabilityRingRangeValid (capability : CapabilityRecord) : Bool :=
  if capability.minimumRing = RingWire.supervisor then
    capability.maximumRing = RingWire.supervisor
  else if capability.minimumRing = RingWire.fabric then
    capability.maximumRing = RingWire.fabric ∨
      capability.maximumRing ≤ RingWire.application
  else
    capability.minimumRing ≤ capability.maximumRing ∧
      capability.maximumRing ≤ RingWire.application

def ringInCapabilityRange (callerRing : Ring) (capability : CapabilityRecord) : Bool :=
  if capability.minimumRing = RingWire.supervisor then
    ringToWire callerRing = RingWire.supervisor
  else if capability.minimumRing = RingWire.fabric then
    ringToWire callerRing = RingWire.fabric
  else
    ringToWire callerRing ≥ capability.minimumRing ∧
      ringToWire callerRing ≤ capability.maximumRing

def capabilityUsesSupervisorAuthority (capability : CapabilityRecord) : Bool :=
  capability.minimumRing = RingWire.supervisor ∨
    capability.maximumRing = RingWire.supervisor

/-- `none` is the NULL pointer. -/
def capabilityRecordValidate : Option CapabilityRecord → PolicyStatus
  | none => .null
  | some capability =>
    if capability.capabilityId = 0 then .invalidCapability
    else if capability.operationId = Operation.invalid then .invalidCapability
    else if ¬ capabilityRingRangeValid capability then .invalidCapability
    else if capability.targetHandle = 0 then .invalidCapability
    else if capability.issuerHandle = 0 then .invalidCapability
    else .ok

def capabilityRecordAllowsOperation (capability : Option CapabilityRecord)
    (operationId : BitVec 32) : Bool :=
  match capability with
  | none => false
  | some capability =>
    if capability.operationId ≠ operationId then false
    else if operationId = Operation.read then
      Has capability.flags CapabilityFlag.readAllowed
    else if operationId = Operation.write then
      Has capability.flags CapabilityFlag.writeAllowed
    else if operationId = Operation.control then
      Has capability.flags CapabilityFlag.controlAllowed
    else true

theorem capabilityRecordValidate_ok_iff (capability : CapabilityRecord) :
    capabilityRecordValidate (some capability) = .ok ↔
      capability.capabilityId ≠ 0 ∧ capability.operationId ≠ Operation.invalid ∧
        capabilityRingRangeValid capability ∧ capability.targetHandle ≠ 0 ∧
          capability.issuerHandle ≠ 0 := by
  simp only [capabilityRecordValidate]
  split_ifs <;> simp_all

/-- The operation flags only ever grant: a word with more of them allows at
least the same operation. -/
theorem capabilityRecordAllowsOperation_mono {small large : CapabilityRecord}
    (hoperation : large.operationId = small.operationId)
    (hflags : Subset small.flags large.flags) (operationId : BitVec 32)
    (hallowed : capabilityRecordAllowsOperation (some small) operationId) :
    capabilityRecordAllowsOperation (some large) operationId := by
  simp only [capabilityRecordAllowsOperation, hoperation] at hallowed ⊢
  split_ifs at hallowed ⊢ with hsame hread hwrite hcontrol
  all_goals first
    | rfl
    | exact decide_eq_true (Has.mono hflags (of_decide_eq_true hallowed))

/-- Only a fabric-floored record admits the fabric ring, and a record with a
valid range that is neither fabric- nor supervisor-floored stays within the
ordinary rings. -/
theorem ringRangeValid_ordinary {capability : CapabilityRecord}
    (hvalid : capabilityRingRangeValid capability)
    (hsupervisor : capability.minimumRing ≠ RingWire.supervisor)
    (hfabric : capability.minimumRing ≠ RingWire.fabric) :
    capability.minimumRing ≤ capability.maximumRing ∧
      capability.maximumRing ≤ RingWire.application := by
  simpa [capabilityRingRangeValid, hsupervisor, hfabric] using hvalid

end Atarix
