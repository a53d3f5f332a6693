import Atarix.Capability.Evaluator

/-! # Delegation and the capability engine

The engine reads three things that the delegation check compares the wrong way
or not at all: the trust requirement, the recovery flag, which restricts and may
be dropped, and the fabric floor. A delegated record keeps within its parent in
the engine's eyes exactly where these three are kept.
-/

namespace Atarix

open FlagWord

/-- The requests that the engine, given `capability` alone, allows. -/
def engineAuthority (capability : CapabilityRecord) : Set CapabilityRequest :=
  {request | ∀ prior, (capabilityEvaluate (some [capability]) (some request)
    (some prior)).2.map CapabilityEvaluation.decision = some .allow}

theorem mem_engineAuthority_iff (request : CapabilityRequest) (capability : CapabilityRecord) :
    request ∈ engineAuthority capability ↔
      capability.targetHandle = request.targetHandle ∧
      capability.operationId = request.operationId ∧
      capability.trustRequirement ≤ request.trustLevel ∧
      ringAllows capability.minimumRing capability.maximumRing request.requesterRing ∧
      ¬ Has capability.flags CapabilityFlag.recoveryOnly := by
  have hprior : Nonempty CapabilityEvaluation := ⟨⟨.deny, none, 0⟩⟩
  rw [← capabilityEvaluateRecords_allow_iff]
  simp only [engineAuthority, Set.mem_ofPred_eq, capabilityEvaluate, Option.map_some,
    Option.some.injEq, forall_const]

theorem engineAuthority_eq_empty {capability : CapabilityRecord}
    (hrecovery : Has capability.flags CapabilityFlag.recoveryOnly) :
    engineAuthority capability = ∅ := by
  apply Set.eq_empty_of_forall_notMem
  intro request hrequest
  rw [mem_engineAuthority_iff] at hrequest
  exact hrequest.2.2.2.2 hrecovery

/-- The child asks for no less trust than its parent, does not shed a recovery
restriction and is floored at the fabric ring only where its parent is. -/
structure KeepsRestrictions (parent child : CapabilityRecord) : Prop where
  trust : parent.trustRequirement ≤ child.trustRequirement
  recovery : ¬ Has parent.flags CapabilityFlag.recoveryOnly
  fabric : child.minimumRing = RingWire.fabric → parent.minimumRing = RingWire.fabric

/-- The request of a principal with just the trust that `child` asks for. -/
def barelyTrusted (child : CapabilityRecord) (ring : Ring) : CapabilityRequest where
  targetHandle := child.targetHandle
  operationId := child.operationId
  requesterRing := ring
  trustLevel := child.trustRequirement

theorem barelyTrusted_mem {child : CapabilityRecord} {ring : Ring}
    (hring : ringInCapabilityRange ring child)
    (hrecovery : ¬ Has child.flags CapabilityFlag.recoveryOnly) :
    barelyTrusted child ring ∈ engineAuthority child := by
  rw [mem_engineAuthority_iff]
  exact ⟨rfl, rfl, BitVec.le_refl _, (ringAllows_iff child ring).mpr (Or.inl hring), hrecovery⟩

namespace Delegable

variable {parent child : CapabilityRecord}

/-- Where the fabric floor is kept the engine admits no ring to the child that
it refuses to the parent. -/
theorem ringAllows_mono (h : Delegable parent child)
    (hfabric : child.minimumRing = RingWire.fabric → parent.minimumRing = RingWire.fabric)
    {ring : Ring} (hring : ringAllows child.minimumRing child.maximumRing ring) :
    ringAllows parent.minimumRing parent.maximumRing ring := by
  rw [ringAllows_iff] at hring ⊢
  rcases hring with hrange | ⟨hfloor, hsupervisor⟩
  · exact Or.inl (h.ringInCapabilityRange_mono hfabric hrange)
  · exact Or.inr ⟨hfabric hfloor, hsupervisor⟩

/-- Restrictions that are kept carry every allowed request to the parent. -/
theorem engineAuthority_subset_of_keeps (h : Delegable parent child)
    (hkeeps : KeepsRestrictions parent child) : engineAuthority child ⊆ engineAuthority parent := by
  intro request hrequest
  rw [mem_engineAuthority_iff] at hrequest ⊢
  obtain ⟨htarget, hoperation, htrust, hring, -⟩ := hrequest
  exact ⟨h.target_eq.trans htarget, h.operation_eq.trans hoperation,
    BitVec.le_trans hkeeps.trust htrust, h.ringAllows_mono hkeeps.fabric hring, hkeeps.recovery⟩

/-- The barely trusted request tells which restrictions were kept. -/
theorem keeps_of_engineAuthority_subset (h : Delegable parent child)
    (hrecovery : ¬ Has child.flags CapabilityFlag.recoveryOnly)
    (hsub : engineAuthority child ⊆ engineAuthority parent) : KeepsRestrictions parent child := by
  obtain ⟨ring, hring, hfabric⟩ := h.exists_admitted_ring
  have hparent := hsub (barelyTrusted_mem hring hrecovery)
  rw [mem_engineAuthority_iff] at hparent
  obtain ⟨-, -, htrust, hparentRing, hparentRecovery⟩ := hparent
  refine ⟨htrust, hparentRecovery, fun hfloor => ?_⟩
  rcases (ringAllows_iff parent ring).mp hparentRing with hrange | ⟨hparentFloor, -⟩
  · rw [hfabric hfloor] at hrange
    exact h.parent_fabric_of_admits hrange
  · exact hparentFloor

end Delegable

/-- A validated delegation keeps the child's engine authority within the parent's
exactly when the child is for recovery only itself, or keeps the restrictions. -/
theorem delegation_engineAuthority_subset_iff (parent child : CapabilityRecord)
    (hok : capabilityDelegationValidate (some parent) (some child) = .ok) :
    engineAuthority child ⊆ engineAuthority parent ↔
      Has child.flags CapabilityFlag.recoveryOnly ∨ KeepsRestrictions parent child := by
  have h := (capabilityDelegationValidate_ok_iff parent child).mp hok
  constructor
  · intro hsub
    by_cases hrecovery : Has child.flags CapabilityFlag.recoveryOnly
    · exact Or.inl hrecovery
    · exact Or.inr (h.keeps_of_engineAuthority_subset hrecovery hsub)
  · rintro (hrecovery | hkeeps)
    · rw [engineAuthority_eq_empty hrecovery]
      exact Set.empty_subset _
    · exact h.engineAuthority_subset_of_keeps hkeeps

theorem delegation_engineAuthority_subset_iff_service :
    engineAuthority (readCapability 302 RingWire.service 0 0) ⊆
        engineAuthority (readCapability 301 RingWire.kernel CapabilityFlag.delegationAllowed 0) ↔
      Has (readCapability 302 RingWire.service 0 0).flags CapabilityFlag.recoveryOnly ∨
        KeepsRestrictions
          (readCapability 301 RingWire.kernel CapabilityFlag.delegationAllowed 0)
          (readCapability 302 RingWire.service 0 0) :=
  delegation_engineAuthority_subset_iff _ _ (by decide)

/-- Copies that lower the trust requirement, shed the recovery flag or move to
the fabric floor pass the check, and the engine allows what it denies on the parent. -/
theorem delegation_weakens_restrictions :
    let demanding := { readCapability 301 RingWire.kernel CapabilityFlag.delegationAllowed 0 with
      trustRequirement := TrustLevel.privileged }
    let lenient := readCapability 302 RingWire.kernel 0 0
    let recovery := readCapability 303 RingWire.kernel
      (CapabilityFlag.delegationAllowed ||| CapabilityFlag.recoveryOnly) 0
    let unrestricted := readCapability 304 RingWire.kernel 0 0
    let ordinary := readCapability 305 RingWire.kernel CapabilityFlag.delegationAllowed 0
    let fabric := readCapability 306 RingWire.fabric 0 0
    (capabilityDelegationValidate (some demanding) (some lenient) = .ok ∧
      barelyTrusted lenient Ring.driver ∈ engineAuthority lenient ∧
      barelyTrusted lenient Ring.driver ∉ engineAuthority demanding) ∧
    (capabilityDelegationValidate (some recovery) (some unrestricted) = .ok ∧
      barelyTrusted unrestricted Ring.driver ∈ engineAuthority unrestricted ∧
      barelyTrusted unrestricted Ring.driver ∉ engineAuthority recovery) ∧
    (capabilityDelegationValidate (some ordinary) (some fabric) = .ok ∧
      barelyTrusted fabric Ring.supervisor ∈ engineAuthority fabric ∧
      barelyTrusted fabric Ring.supervisor ∉ engineAuthority ordinary) := by
  simp only [mem_engineAuthority_iff]
  decide

end Atarix
