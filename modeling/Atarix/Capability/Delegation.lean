import Atarix.Capability.Policy

/-! # Delegation

`atarix_capability_delegation_validate` and what it guarantees about authority.
A delegated record is meant to be good for no request that its parent refuses.
The validator compares flag words by subset and rings by their raw wire
encodings, and both comparisons let something through: a time limit is a flag
that restricts, and the fabric ring is encoded above every ordinary ring.
-/

namespace Atarix

open FlagWord

def capabilityDelegationValidate (parent child : Option CapabilityRecord) : PolicyStatus :=
  match parent, child with
  | some parent, some child =>
    match capabilityRecordValidate (some parent) with
    | .ok =>
      match capabilityRecordValidate (some child) with
      | .ok =>
        if ¬ Has parent.flags CapabilityFlag.delegationAllowed then .delegationDenied
        else if capabilityUsesSupervisorAuthority parent ∨
            capabilityUsesSupervisorAuthority child then .delegationDenied
        else if parent.targetHandle ≠ child.targetHandle then .resourceDenied
        else if parent.operationId ≠ child.operationId then .operationDenied
        else if ¬ Subset child.flags parent.flags then .delegationDenied
        else if child.minimumRing < parent.minimumRing ∨
            child.maximumRing < parent.minimumRing then .delegationDenied
        else if child.maximumRing > parent.maximumRing then .delegationDenied
        else .ok
      | status => status
    | status => status
  | _, _ => .null

/-- Everything a successful delegation check has established. -/
structure Delegable (parent child : CapabilityRecord) : Prop where
  parent_valid : capabilityRecordValidate (some parent) = .ok
  child_valid : capabilityRecordValidate (some child) = .ok
  delegation_allowed : Has parent.flags CapabilityFlag.delegationAllowed
  parent_not_supervisor : capabilityUsesSupervisorAuthority parent = false
  child_not_supervisor : capabilityUsesSupervisorAuthority child = false
  target_eq : parent.targetHandle = child.targetHandle
  operation_eq : parent.operationId = child.operationId
  flags_subset : Subset child.flags parent.flags
  minimum_le : parent.minimumRing ≤ child.minimumRing
  minimum_le_maximum : parent.minimumRing ≤ child.maximumRing
  maximum_le : child.maximumRing ≤ parent.maximumRing

theorem capabilityDelegationValidate_ok_iff (parent child : CapabilityRecord) :
    capabilityDelegationValidate (some parent) (some child) = .ok ↔
      Delegable parent child := by
  simp only [capabilityDelegationValidate]
  constructor
  · intro hok
    cases hparent : capabilityRecordValidate (some parent) <;>
      cases hchild : capabilityRecordValidate (some child) <;>
      simp only [hparent, hchild, reduceCtorEq] at hok
    split_ifs at hok
    constructor <;> simp_all
  · rintro ⟨hparent, hchild, hallowed, hps, hcs, htarget, hoperation, hflags, hmin, hmid, hmax⟩
    simp only [hparent, hchild]
    have hfloor : ¬ (child.minimumRing < parent.minimumRing ∨
        child.maximumRing < parent.minimumRing) :=
      not_or.mpr ⟨BitVec.not_lt.mpr hmin, BitVec.not_lt.mpr hmid⟩
    have hceiling : ¬ child.maximumRing > parent.maximumRing := BitVec.not_lt.mpr hmax
    simp [hallowed, hps, hcs, htarget, hoperation, hflags, hfloor, hceiling]

/-! ## When delegation narrows -/

/-- The last moment at which a record's time limit lets it be used. -/
def lastUsableTime (capability : CapabilityRecord) : BitVec 64 :=
  if Has capability.flags CapabilityFlag.timeLimited then capability.expirationOrLifetime
  else BitVec.allOnes 64

/-- No request is ever allowed on such a record: its own operation lacks the
granting flag, or it is time limited with no expiration set. -/
def NeverUsable (capability : CapabilityRecord) : Prop :=
  capabilityRecordAllowsOperation (some capability) capability.operationId = false ∨
    Has capability.flags CapabilityFlag.timeLimited ∧ capability.expirationOrLifetime = 0

/-- The delegated record ends no later than its parent and is floored at the
fabric ring only where the parent is. -/
def NarrowsLimits (parent child : CapabilityRecord) : Prop :=
  lastUsableTime child ≤ lastUsableTime parent ∧
    (child.minimumRing = RingWire.fabric → parent.minimumRing = RingWire.fabric)

theorem requestCapabilityExpired_false_iff (request : PolicyRequest)
    (capability : CapabilityRecord) :
    requestCapabilityExpired request capability = false ↔
      ¬ (Has capability.flags CapabilityFlag.timeLimited ∧
        capability.expirationOrLifetime = 0) ∧
      request.currentTime ≤ lastUsableTime capability := by
  have hmax : request.currentTime ≤ BitVec.allOnes 64 := by
    rw [BitVec.le_def, BitVec.toNat_allOnes]
    have := request.currentTime.isLt
    omega
  unfold requestCapabilityExpired lastUsableTime
  split_ifs <;> simp_all

/-- A child that ends no later is unexpired only while its parent is. -/
theorem requestCapabilityExpired_mono {parent child : CapabilityRecord}
    (hlast : lastUsableTime child ≤ lastUsableTime parent) {request : PolicyRequest}
    (hchild : requestCapabilityExpired request child = false) :
    requestCapabilityExpired request parent = false := by
  rw [requestCapabilityExpired_false_iff] at hchild ⊢
  refine ⟨?_, BitVec.le_trans hchild.2 hlast⟩
  rintro ⟨hlimited, hzero⟩
  have hparent : lastUsableTime parent = 0 := by simp [lastUsableTime, hlimited, hzero]
  rw [hparent] at hlast
  have hchildLast : lastUsableTime child = 0 := by simpa using hlast
  unfold lastUsableTime at hchildLast
  split_ifs at hchildLast with hchildLimited
  · exact hchild.1 ⟨hchildLimited, hchildLast⟩
  · exact absurd hchildLast (by decide)

namespace Delegable

variable {parent child : CapabilityRecord}

theorem minimum_ne_supervisor (h : Delegable parent child) :
    parent.minimumRing ≠ RingWire.supervisor ∧ child.minimumRing ≠ RingWire.supervisor := by
  have hparent := h.parent_not_supervisor
  have hchild := h.child_not_supervisor
  simp only [capabilityUsesSupervisorAuthority, decide_eq_false_iff_not, not_or] at hparent hchild
  exact ⟨hparent.1, hchild.1⟩

/-- Nothing is encoded above the fabric ring, so a fabric-floored parent only
delegates fabric-floored records. -/
theorem child_fabric (h : Delegable parent child)
    (hparent : parent.minimumRing = RingWire.fabric) : child.minimumRing = RingWire.fabric := by
  have hmin := h.minimum_le
  rw [hparent] at hmin
  have hlt := child.minimumRing.isLt
  unfold RingWire.fabric at hmin ⊢
  bv_omega

theorem ringInCapabilityRange_mono (h : Delegable parent child)
    (hfabric : child.minimumRing = RingWire.fabric → parent.minimumRing = RingWire.fabric)
    {ring : Ring} (hring : ringInCapabilityRange ring child) :
    ringInCapabilityRange ring parent := by
  obtain ⟨hps, hcs⟩ := h.minimum_ne_supervisor
  by_cases hchild : child.minimumRing = RingWire.fabric
  · simpa [ringInCapabilityRange, hps, hcs, hchild, hfabric hchild] using hring
  · have hparent : parent.minimumRing ≠ RingWire.fabric := fun heq => hchild (h.child_fabric heq)
    simp only [ringInCapabilityRange, hps, hcs, hchild, hparent, if_false, ge_iff_le,
      decide_eq_true_eq] at hring ⊢
    exact ⟨BitVec.le_trans h.minimum_le hring.1, BitVec.le_trans hring.2 h.maximum_le⟩

/-- The fabric ring passes a valid, ordinary-floored range of no parent. -/
theorem parent_fabric_of_admits (h : Delegable parent child)
    (hring : ringInCapabilityRange Ring.fabric parent) :
    parent.minimumRing = RingWire.fabric := by
  by_contra hparent
  obtain ⟨hps, _⟩ := h.minimum_ne_supervisor
  have hvalid := ((capabilityRecordValidate_ok_iff parent).mp h.parent_valid).2.2.1
  have hmax := (ringRangeValid_ordinary hvalid hps hparent).2
  simp only [ringInCapabilityRange, hps, hparent, if_false, ge_iff_le, decide_eq_true_eq] at hring
  exact absurd (BitVec.le_trans hring.2 hmax) (by decide)

/-- Some ring is admitted by every delegated record. -/
theorem exists_admitted_ring (h : Delegable parent child) :
    ∃ ring, ringInCapabilityRange ring child ∧
      (child.minimumRing = RingWire.fabric → ring = Ring.fabric) := by
  obtain ⟨_, hcs⟩ := h.minimum_ne_supervisor
  by_cases hfabric : child.minimumRing = RingWire.fabric
  · exact ⟨Ring.fabric, by simp [ringInCapabilityRange, hfabric]; decide, fun _ => rfl⟩
  · have hvalid := ((capabilityRecordValidate_ok_iff child).mp h.child_valid).2.2.1
    obtain ⟨hle, hmax⟩ := ringRangeValid_ordinary hvalid hcs hfabric
    obtain ⟨ring, hwire⟩ := exists_ringToWire_eq hmax
    refine ⟨ring, ?_, fun heq => absurd heq hfabric⟩
    simp only [ringInCapabilityRange, hcs, hfabric, if_false, hwire, ge_iff_le, decide_eq_true_eq]
    exact ⟨hle, BitVec.le_refl _⟩

/-- Limits that narrow carry every allowed request from child to parent. -/
theorem authority_subset_of_narrows (h : Delegable parent child)
    (hnarrows : NarrowsLimits parent child) : authority child ⊆ authority parent := by
  intro request hrequest
  rw [mem_authority_iff, policyCheckRequest_ok_iff] at hrequest ⊢
  obtain ⟨_, hrevoked, hexpired, hissuer, howner, hprincipal, hring, htarget, hoperation⟩ :=
    hrequest
  exact ⟨h.parent_valid, hrevoked, requestCapabilityExpired_mono hnarrows.1 hexpired, hissuer,
    howner, hprincipal, h.ringInCapabilityRange_mono hnarrows.2 hring,
    htarget.trans h.target_eq.symm,
    capabilityRecordAllowsOperation_mono h.operation_eq h.flags_subset _ hoperation⟩

theorem authority_eq_empty_of_neverUsable (hnever : NeverUsable child) : authority child = ∅ := by
  apply Set.eq_empty_of_forall_notMem
  intro request hrequest
  rw [mem_authority_iff, policyCheckRequest_ok_iff] at hrequest
  obtain ⟨_, _, hexpired, _, _, _, _, _, hoperation⟩ := hrequest
  rcases hnever with hflag | hlimit
  · -- allowing the requested operation forces it to be the record's own
    have hsame : child.operationId = request.operationId := by
      by_contra hne
      simp [capabilityRecordAllowsOperation, hne] at hoperation
    rw [← hsame, hflag] at hoperation
    exact Bool.false_ne_true hoperation
  · exact ((requestCapabilityExpired_false_iff request child).mp hexpired).1 hlimit

/-- The request that uses `child` at its last moment from an admitted ring. -/
def lastRequest (child : CapabilityRecord) (ring : Ring) : PolicyRequest where
  callerPrincipalId := 0
  ownerPrincipalId := 0
  callerRing := ring
  issuerTrust := TrustLevel.trusted
  ownerTrust := TrustLevel.trusted
  targetHandle := child.targetHandle
  operationId := child.operationId
  currentTime := lastUsableTime child
  requestFlags := 0
  capability := none

theorem lastRequest_mem_authority (h : Delegable parent child) (husable : ¬ NeverUsable child)
    {ring : Ring} (hring : ringInCapabilityRange ring child) :
    lastRequest child ring ∈ authority child := by
  simp only [NeverUsable, not_or, Bool.not_eq_false] at husable
  rw [mem_authority_iff, policyCheckRequest_ok_iff]
  have hrevoked : requestCapabilityRevoked (lastRequest child ring) = false :=
    decide_eq_false (not_has_zero _)
  have hexpired : requestCapabilityExpired (lastRequest child ring) child = false :=
    (requestCapabilityExpired_false_iff _ _).mpr ⟨husable.2, BitVec.le_refl _⟩
  exact ⟨h.child_valid, hrevoked, hexpired, rfl, rfl, rfl, hring, rfl, husable.1⟩

/-- The parent allows that request only if both limits narrow. -/
theorem narrows_of_authority_subset (h : Delegable parent child) (husable : ¬ NeverUsable child)
    (hsub : authority child ⊆ authority parent) : NarrowsLimits parent child := by
  obtain ⟨ring, hring, hfabric⟩ := h.exists_admitted_ring
  have hparent := hsub (h.lastRequest_mem_authority husable hring)
  rw [mem_authority_iff, policyCheckRequest_ok_iff] at hparent
  obtain ⟨_, _, hexpired, _, _, _, hparentRing, _⟩ := hparent
  refine ⟨((requestCapabilityExpired_false_iff _ _).mp hexpired).2, fun hchild => ?_⟩
  have heq : ring = Ring.fabric := hfabric hchild
  rw [heq] at hparentRing
  exact h.parent_fabric_of_admits hparentRing

end Delegable

/-- A validated delegation keeps the child's authority within the parent's
exactly when both limits narrow, or the child is unusable to begin with. -/
theorem delegation_authority_subset_iff (parent child : CapabilityRecord)
    (hok : capabilityDelegationValidate (some parent) (some child) = .ok) :
    authority child ⊆ authority parent ↔ NeverUsable child ∨ NarrowsLimits parent child := by
  have h := (capabilityDelegationValidate_ok_iff parent child).mp hok
  constructor
  · intro hsub
    by_cases hnever : NeverUsable child
    · exact Or.inl hnever
    · exact Or.inr (h.narrows_of_authority_subset hnever hsub)
  · rintro (hnever | hnarrows)
    · rw [Delegable.authority_eq_empty_of_neverUsable hnever]
      exact Set.empty_subset _
    · exact h.authority_subset_of_narrows hnarrows

/-- A read capability for the ordinary rings, with the flags a case needs. -/
def readCapability (capabilityId : BitVec 32) (minimumRing : RingWire) (flags : BitVec 32)
    (expiration : BitVec 64) : CapabilityRecord where
  capabilityId := capabilityId
  operationId := Operation.read
  targetHandle := 0x0003000100000001
  minimumRing := minimumRing
  maximumRing := RingWire.application
  flags := CapabilityFlag.readAllowed ||| flags
  expirationOrLifetime := expiration
  issuerHandle := 0x0001000100000001
  trustRequirement := TrustLevel.identified

theorem delegation_authority_subset_iff_service :
    authority (readCapability 302 RingWire.service 0 0) ⊆
        authority (readCapability 301 RingWire.kernel CapabilityFlag.delegationAllowed 0) ↔
      NeverUsable (readCapability 302 RingWire.service 0 0) ∨
        NarrowsLimits (readCapability 301 RingWire.kernel CapabilityFlag.delegationAllowed 0)
          (readCapability 302 RingWire.service 0 0) :=
  delegation_authority_subset_iff _ _ (by decide)

/-- A copy without the time-limit flag is good for a request made after its
parent has expired, and a copy floored at the fabric ring admits a ring that its
parent excludes. The validator passes both. -/
theorem delegation_widens_authority :
    let expiring := readCapability 301 RingWire.kernel
      (CapabilityFlag.delegationAllowed ||| CapabilityFlag.timeLimited) 100
    let unlimited := readCapability 302 RingWire.kernel 0 0
    let late := Delegable.lastRequest unlimited Ring.kernel
    let ordinary := readCapability 303 RingWire.kernel CapabilityFlag.delegationAllowed 0
    let fabric := readCapability 304 RingWire.fabric 0 0
    let fromFabric := Delegable.lastRequest fabric Ring.fabric
    (capabilityDelegationValidate (some expiring) (some unlimited) = .ok ∧
      late ∈ authority unlimited ∧ late ∉ authority expiring) ∧
    (capabilityDelegationValidate (some ordinary) (some fabric) = .ok ∧
      fromFabric ∈ authority fabric ∧ fromFabric ∉ authority ordinary) := by
  simp only [mem_authority_iff]
  decide

end Atarix
