import Atarix.Capability.Chain
import Atarix.Capability.EngineDelegation
import Mathlib.Logic.Relation

/-! # What delegation can reach

A record may be delegated on by whoever was given it, so what a record is worth
includes everything that any chain of delegations can make of it. Two copies of
it are worth as much: one without its restrictions, and the same on the fabric.
-/

namespace Atarix

open FlagWord

/-- The validator passes `child` as a delegation of `parent`. -/
def Delegates (parent child : CapabilityRecord) : Prop :=
  capabilityDelegationValidate (some parent) (some child) = .ok

/-- The requests that `grants` gives to some record delegated from `parent`, over
any number of delegations. -/
def reachedBy {Request : Type} (grants : CapabilityRecord → Set Request)
    (parent : CapabilityRecord) : Set Request :=
  {request | ∃ child, Relation.TransGen Delegates parent child ∧ request ∈ grants child}

/-- Some record can be delegated from this one. -/
structure CanDelegate (parent : CapabilityRecord) : Prop where
  valid : capabilityRecordValidate (some parent) = .ok
  allowed : Has parent.flags CapabilityFlag.delegationAllowed
  not_supervisor : capabilityUsesSupervisorAuthority parent = false
  fabric : parent.minimumRing = RingWire.fabric → parent.maximumRing = RingWire.fabric

/-- The flags that restrict. -/
def restrictingFlags : BitVec 32 := CapabilityFlag.timeLimited ||| CapabilityFlag.recoveryOnly

/-- The record without time limit, recovery restriction and trust requirement. -/
def loosest (parent : CapabilityRecord) : CapabilityRecord :=
  { parent with flags := clear parent.flags restrictingFlags, trustRequirement := 0 }

/-- The same, floored at the fabric ring. -/
def onFabric (parent : CapabilityRecord) : CapabilityRecord :=
  { loosest parent with minimumRing := RingWire.fabric }

variable {parent child : CapabilityRecord}

theorem delegates_iff : Delegates parent child ↔ Delegable parent child :=
  capabilityDelegationValidate_ok_iff parent child

/-- A chain of delegations is worth a single one. -/
theorem transGen_delegates_iff :
    Relation.TransGen Delegates parent child ↔ Delegable parent child := by
  constructor
  · intro hchain
    induction hchain with
    | single hlast => exact delegates_iff.mp hlast
    | tail _ hlast ih => exact ih.trans (delegates_iff.mp hlast)
  · intro hdelegable
    exact .single (delegates_iff.mpr hdelegable)

/-! ## The two copies can be delegated -/

theorem Delegable.canDelegate (h : Delegable parent child) : CanDelegate parent where
  valid := h.parent_valid
  allowed := h.delegation_allowed
  not_supervisor := h.parent_not_supervisor
  fabric := by
    intro hfloor
    have hmin := h.minimum_le_maximum
    have hmax := h.maximum_le
    rw [hfloor] at hmin
    unfold RingWire.fabric at hmin ⊢
    bv_omega

theorem fabric_ne_supervisor : RingWire.fabric ≠ RingWire.supervisor := by
  decide

theorem not_supervisor_iff :
    capabilityUsesSupervisorAuthority parent = false ↔
      parent.minimumRing ≠ RingWire.supervisor ∧ parent.maximumRing ≠ RingWire.supervisor := by
  rw [← avoidsSupervisor_iff, AvoidsSupervisor]

/-- The floor of a record that can be delegated is at most its ceiling. -/
theorem CanDelegate.minimum_le_maximum (h : CanDelegate parent) :
    parent.minimumRing ≤ parent.maximumRing := by
  by_cases hfloor : parent.minimumRing = RingWire.fabric
  · rw [hfloor, h.fabric hfloor]
    exact BitVec.le_refl _
  · have hvalid := ((capabilityRecordValidate_ok_iff parent).mp h.valid).2.2.1
    exact (ringRangeValid_ordinary hvalid (not_supervisor_iff.mp h.not_supervisor).1 hfloor).1

theorem CanDelegate.loosest (h : CanDelegate parent) : Delegable parent (loosest parent) where
  parent_valid := h.valid
  child_valid := h.valid
  delegation_allowed := h.allowed
  parent_not_supervisor := h.not_supervisor
  child_not_supervisor := h.not_supervisor
  target_eq := rfl
  operation_eq := rfl
  flags_subset := subset_clear _ _
  minimum_le := BitVec.le_refl _
  minimum_le_maximum := h.minimum_le_maximum
  maximum_le := BitVec.le_refl _

theorem CanDelegate.onFabric_valid (h : CanDelegate parent) :
    capabilityRecordValidate (some (onFabric parent)) = .ok := by
  obtain ⟨hid, hoperation, hrange, htarget, hissuer⟩ :=
    (capabilityRecordValidate_ok_iff parent).mp h.valid
  refine (capabilityRecordValidate_ok_iff _).mpr ⟨hid, hoperation, ?_, htarget, hissuer⟩
  have hceiling : parent.maximumRing = RingWire.fabric ∨
      parent.maximumRing ≤ RingWire.application := by
    by_cases hfloor : parent.minimumRing = RingWire.fabric
    · exact .inl (h.fabric hfloor)
    · exact .inr (ringRangeValid_ordinary hrange
        (not_supervisor_iff.mp h.not_supervisor).1 hfloor).2
  simp only [capabilityRingRangeValid, onFabric, fabric_ne_supervisor, if_false, if_true]
  exact decide_eq_true hceiling

theorem CanDelegate.onFabric (h : CanDelegate parent) : Delegable parent (onFabric parent) where
  parent_valid := h.valid
  child_valid := h.onFabric_valid
  delegation_allowed := h.allowed
  parent_not_supervisor := h.not_supervisor
  child_not_supervisor :=
    not_supervisor_iff.mpr ⟨fabric_ne_supervisor, (not_supervisor_iff.mp h.not_supervisor).2⟩
  target_eq := rfl
  operation_eq := rfl
  flags_subset := subset_clear _ _
  minimum_le := by
    have hlt := parent.minimumRing.isLt
    change parent.minimumRing ≤ RingWire.fabric
    unfold RingWire.fabric
    bv_omega
  minimum_le_maximum := h.minimum_le_maximum
  maximum_le := BitVec.le_refl _

/-! ## No delegation is worth more than the two -/

/-- The operations allowed do not depend on the restricting flags. -/
theorem loosest_allowsOperation (parent : CapabilityRecord) (operationId : BitVec 32) :
    capabilityRecordAllowsOperation (some (loosest parent)) operationId =
      capabilityRecordAllowsOperation (some parent) operationId := by
  have hread : Has (loosest parent).flags CapabilityFlag.readAllowed ↔
      Has parent.flags CapabilityFlag.readAllowed := has_clear_iff (by decide) _
  have hwrite : Has (loosest parent).flags CapabilityFlag.writeAllowed ↔
      Has parent.flags CapabilityFlag.writeAllowed := has_clear_iff (by decide) _
  have hcontrol : Has (loosest parent).flags CapabilityFlag.controlAllowed ↔
      Has parent.flags CapabilityFlag.controlAllowed := has_clear_iff (by decide) _
  have hoperation : (loosest parent).operationId = parent.operationId := rfl
  simp only [capabilityRecordAllowsOperation, hread, hwrite, hcontrol, hoperation]

theorem loosest_not_expired (parent : CapabilityRecord) (request : PolicyRequest) :
    requestCapabilityExpired request (loosest parent) = false := by
  have hlimited : ¬ Has (loosest parent).flags CapabilityFlag.timeLimited :=
    not_has_clear (by decide) _
  rw [requestCapabilityExpired, if_pos hlimited]

/-- A ring in the range of a delegated record is in that of one of the copies. -/
theorem Delegable.range_covered (h : Delegable parent child) {ring : Ring}
    (hring : ringInCapabilityRange ring child) :
    ringInCapabilityRange ring (Atarix.loosest parent) ∨
      ringInCapabilityRange ring (Atarix.onFabric parent) := by
  by_cases hfloor : child.minimumRing = RingWire.fabric
  · right
    have hdistinct : RingWire.fabric ≠ RingWire.supervisor := by decide
    simp only [ringInCapabilityRange, hfloor, hdistinct, if_false, if_true] at hring
    simpa only [ringInCapabilityRange, Atarix.onFabric, fabric_ne_supervisor, if_false,
      if_true] using hring
  · left
    have hrange := h.ringInCapabilityRange_mono (fun hfabric => absurd hfabric hfloor) hring
    exact hrange

theorem Delegable.authority_covered (h : Delegable parent child) :
    authority child ⊆ authority (Atarix.loosest parent) ∪ authority (Atarix.onFabric parent) := by
  intro request hrequest
  rw [mem_authority_iff, policyCheckRequest_ok_iff] at hrequest
  obtain ⟨-, hrevoked, -, hissuer, howner, hprincipal, hring, htarget, hoperation⟩ := hrequest
  have hparent := capabilityRecordAllowsOperation_mono h.operation_eq h.flags_subset _ hoperation
  rw [← loosest_allowsOperation] at hparent
  have htarget' := htarget.trans h.target_eq.symm
  rcases h.range_covered hring with hrange | hrange
  · left
    rw [mem_authority_iff, policyCheckRequest_ok_iff]
    exact ⟨h.parent_valid, hrevoked, loosest_not_expired _ _, hissuer, howner, hprincipal, hrange,
      htarget', hparent⟩
  · right
    rw [mem_authority_iff, policyCheckRequest_ok_iff]
    exact ⟨h.canDelegate.onFabric_valid, hrevoked, loosest_not_expired _ _, hissuer, howner,
      hprincipal, hrange, htarget', hparent⟩

theorem Delegable.engineAuthority_covered (h : Delegable parent child) :
    engineAuthority child ⊆
      engineAuthority (Atarix.loosest parent) ∪ engineAuthority (Atarix.onFabric parent) := by
  intro request hrequest
  rw [mem_engineAuthority_iff] at hrequest
  obtain ⟨htarget, hoperation, -, hring, -⟩ := hrequest
  have htarget' := h.target_eq.trans htarget
  have hoperation' := h.operation_eq.trans hoperation
  have htrust : (0 : BitVec 32) ≤ request.trustLevel := Nat.zero_le _
  have hrecovery : ¬ Has (clear parent.flags restrictingFlags) CapabilityFlag.recoveryOnly :=
    not_has_clear (by decide) _
  rw [ringAllows_iff] at hring
  rcases hring with hrange | ⟨-, hsupervisor⟩
  · rcases h.range_covered hrange with hrange | hrange
    · left
      rw [mem_engineAuthority_iff]
      exact ⟨htarget', hoperation', htrust, (ringAllows_iff _ _).mpr (.inl hrange), hrecovery⟩
    · right
      rw [mem_engineAuthority_iff]
      exact ⟨htarget', hoperation', htrust, (ringAllows_iff _ _).mpr (.inl hrange), hrecovery⟩
  · -- a record on the fabric is also good for the supervisor
    right
    rw [mem_engineAuthority_iff]
    refine ⟨htarget', hoperation', htrust, ?_, hrecovery⟩
    exact (ringAllows_iff (Atarix.onFabric parent) _).mpr (.inr ⟨rfl, hsupervisor⟩)

/-- Where each delegation is covered by the two copies, so is every chain. -/
theorem reachedBy_eq {Request : Type} {grants : CapabilityRecord → Set Request}
    (hcovered : ∀ {parent child}, Delegable parent child →
      grants child ⊆ grants (loosest parent) ∪ grants (onFabric parent))
    (parent : CapabilityRecord) :
    reachedBy grants parent = {request | CanDelegate parent ∧
      (request ∈ grants (loosest parent) ∨ request ∈ grants (onFabric parent))} := by
  ext request
  constructor
  · rintro ⟨child, hchain, hrequest⟩
    have h := transGen_delegates_iff.mp hchain
    exact ⟨h.canDelegate, hcovered h hrequest⟩
  · rintro ⟨hcan, hloosest | hfabric⟩
    · exact ⟨loosest parent, transGen_delegates_iff.mpr hcan.loosest, hloosest⟩
    · exact ⟨onFabric parent, transGen_delegates_iff.mpr hcan.onFabric, hfabric⟩

/-- What any chain of delegations from a record is good for, before the policy
check and before the engine: the record itself without its restrictions, and
without them on the fabric, if it can be delegated at all. -/
theorem delegation_reach (parent : CapabilityRecord) :
    reachedBy authority parent = {request | CanDelegate parent ∧
        (request ∈ authority (loosest parent) ∨ request ∈ authority (onFabric parent))} ∧
      reachedBy engineAuthority parent = {request | CanDelegate parent ∧
        (request ∈ engineAuthority (loosest parent) ∨
          request ∈ engineAuthority (onFabric parent))} :=
  ⟨reachedBy_eq Delegable.authority_covered parent,
    reachedBy_eq Delegable.engineAuthority_covered parent⟩

end Atarix
