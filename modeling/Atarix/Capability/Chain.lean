import Atarix.Capability.Delegation

/-! # Chains of delegations

Each test of the delegation check relates parent to child by an equality or an
order, so the check composes: what a chain of delegations ends with could have
been delegated by its first record. The supervisor never occurs in a chain.
-/

namespace Atarix

namespace Delegable

variable {parent child grandchild : CapabilityRecord}

theorem trans (hfirst : Delegable parent child) (hsecond : Delegable child grandchild) :
    Delegable parent grandchild where
  parent_valid := hfirst.parent_valid
  child_valid := hsecond.child_valid
  delegation_allowed := hfirst.delegation_allowed
  parent_not_supervisor := hfirst.parent_not_supervisor
  child_not_supervisor := hsecond.child_not_supervisor
  target_eq := hfirst.target_eq.trans hsecond.target_eq
  operation_eq := hfirst.operation_eq.trans hsecond.operation_eq
  flags_subset := hsecond.flags_subset.trans hfirst.flags_subset
  minimum_le := BitVec.le_trans hfirst.minimum_le hsecond.minimum_le
  minimum_le_maximum := BitVec.le_trans hfirst.minimum_le hsecond.minimum_le_maximum
  maximum_le := BitVec.le_trans hsecond.maximum_le hfirst.maximum_le

end Delegable

/-- The record has the supervisor at neither end of its ring range. -/
def AvoidsSupervisor (capability : CapabilityRecord) : Prop :=
  capability.minimumRing ≠ RingWire.supervisor ∧ capability.maximumRing ≠ RingWire.supervisor

theorem avoidsSupervisor_iff (capability : CapabilityRecord) :
    AvoidsSupervisor capability ↔ capabilityUsesSupervisorAuthority capability = false := by
  simp [AvoidsSupervisor, capabilityUsesSupervisorAuthority]

section Chain

variable {records : Nat → CapabilityRecord}

/-- The last record of a chain is delegable by its first. -/
theorem delegable_of_chain {last : Nat} (hpos : 1 ≤ last)
    (hchain : ∀ i < last, Delegable (records i) (records (i + 1))) :
    Delegable (records 0) (records last) := by
  induction last, hpos using Nat.le_induction with
  | base => exact hchain 0 Nat.one_pos
  | succ last _ ih =>
      have hbefore := ih fun i hi => hchain i (Nat.lt_succ_of_lt hi)
      exact hbefore.trans (hchain last (Nat.lt_succ_self last))

/-- Every record of a chain is the parent or the child of a delegation. -/
theorem avoidsSupervisor_of_chain {last : Nat} (hpos : 1 ≤ last)
    (hchain : ∀ i < last, Delegable (records i) (records (i + 1))) {i : Nat} (hle : i ≤ last) :
    AvoidsSupervisor (records i) := by
  rw [avoidsSupervisor_iff]
  rcases Nat.lt_or_eq_of_le hle with hlt | rfl
  · exact (hchain i hlt).parent_not_supervisor
  · obtain ⟨before, rfl⟩ := Nat.exists_eq_succ_of_ne_zero (Nat.one_le_iff_ne_zero.mp hpos)
    exact (hchain before (Nat.lt_succ_self before)).child_not_supervisor

end Chain

/-- The delegation check composes along chains of any length, and no record of a
chain reaches the supervisor. -/
theorem delegation_composes (records : Nat → CapabilityRecord) (last : Nat) (hpos : 1 ≤ last)
    (hchain : ∀ i < last,
      capabilityDelegationValidate (some (records i)) (some (records (i + 1))) = .ok) :
    capabilityDelegationValidate (some (records 0)) (some (records last)) = .ok ∧
      ∀ i ≤ last, AvoidsSupervisor (records i) := by
  have hdelegable : ∀ i < last, Delegable (records i) (records (i + 1)) :=
    fun i hi => (capabilityDelegationValidate_ok_iff _ _).mp (hchain i hi)
  refine ⟨?_, fun i hle => avoidsSupervisor_of_chain hpos hdelegable hle⟩
  rw [capabilityDelegationValidate_ok_iff]
  exact delegable_of_chain hpos hdelegable

/-- Kernel to driver to service, each passing the right to delegate on. -/
def readChain : Nat → CapabilityRecord
  | 0 => readCapability 301 RingWire.kernel CapabilityFlag.delegationAllowed 0
  | 1 => readCapability 302 RingWire.driver CapabilityFlag.delegationAllowed 0
  | _ => readCapability 303 RingWire.service 0 0

theorem delegation_composes_readChain :
    capabilityDelegationValidate (some (readChain 0)) (some (readChain 2)) = .ok ∧
      ∀ i ≤ 2, AvoidsSupervisor (readChain i) := by
  refine delegation_composes readChain 2 (by decide) ?_
  decide

end Atarix
