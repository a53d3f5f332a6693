import Atarix.Capability.Record
import Mathlib.Data.Set.Basic

/-! # Policy evaluation

`atarix_policy_evaluate` of `capability_policy.c`: one capability record, one
request, one decision. `authority` collects the requests a record is good for,
and is what delegation and revocation arguments are about.
-/

namespace Atarix

open FlagWord

/-- `atarix_trust_level_t`, an unsigned C enumeration: any 32-bit value. -/
abbrev TrustLevel := BitVec 32

namespace TrustLevel

def untrusted : TrustLevel := 0
def identified : TrustLevel := 1
def validated : TrustLevel := 2
def trusted : TrustLevel := 3
def privileged : TrustLevel := 4
def revoked : TrustLevel := 7

end TrustLevel

/-- `ATARIX_POLICY_REQUEST_FLAG_CAPABILITY_REVOKED`. -/
def policyRequestFlagCapabilityRevoked : BitVec 32 := 1 <<< 0

/-- `atarix_policy_decision_t`. -/
inductive PolicyDecision where
  | deny
  | allow
  | restrict
  | recoveryOnly
deriving DecidableEq, Repr

/-- `atarix_policy_request_t`, less the issuer principal, which is never read. -/
structure PolicyRequest where
  callerPrincipalId : BitVec 32
  ownerPrincipalId : BitVec 32
  callerRing : Ring
  issuerTrust : TrustLevel
  ownerTrust : TrustLevel
  targetHandle : BitVec 64
  operationId : BitVec 32
  currentTime : BitVec 64
  requestFlags : BitVec 32
  capability : Option CapabilityRecord

/-- `atarix_policy_result_t`. -/
structure PolicyResult where
  decision : PolicyDecision
  status : PolicyStatus
  matchedCapability : Option CapabilityRecord

def trustIsUsable (trust : TrustLevel) : Bool :=
  trust ≠ TrustLevel.untrusted ∧ trust ≠ TrustLevel.revoked

def requestCapabilityRevoked (request : PolicyRequest) : Bool :=
  Has request.requestFlags policyRequestFlagCapabilityRevoked

/-- The source takes the record from the request; it is passed here because the
caller has already checked it against NULL. -/
def requestCapabilityExpired (request : PolicyRequest) (capability : CapabilityRecord) : Bool :=
  if ¬ Has capability.flags CapabilityFlag.timeLimited then false
  else if capability.expirationOrLifetime = 0 then true
  else request.currentTime > capability.expirationOrLifetime

/-- The checks of `atarix_policy_evaluate` after the record itself has been
validated, in source order. -/
def policyCheckRequest (request : PolicyRequest) (capability : CapabilityRecord) :
    PolicyStatus :=
  if requestCapabilityRevoked request then .revoked
  else if requestCapabilityExpired request capability then .expired
  else if ¬ trustIsUsable request.issuerTrust then .untrustedIssuer
  else if ¬ trustIsUsable request.ownerTrust then .untrustedOwner
  else if request.callerPrincipalId ≠ request.ownerPrincipalId then .ownerMismatch
  else if ¬ ringInCapabilityRange request.callerRing capability then .ringDenied
  else if request.targetHandle ≠ capability.targetHandle then .resourceDenied
  else if ¬ capabilityRecordAllowsOperation (some capability) request.operationId then
    .operationDenied
  else .ok

/-- Returns the status and the result object the caller sees afterwards. -/
def policyEvaluate (request : Option PolicyRequest) (result : Option PolicyResult) :
    PolicyStatus × Option PolicyResult :=
  match request, result with
  | some request, some _ =>
    match request.capability with
    | none => (.null, some ⟨.deny, .null, none⟩)
    | some capability =>
      match capabilityRecordValidate (some capability) with
      | .ok =>
        match policyCheckRequest request capability with
        | .ok => (.ok, some ⟨.allow, .ok, some capability⟩)
        | status => (status, some ⟨.deny, status, some capability⟩)
      | status => (status, some ⟨.deny, status, none⟩)
  | _, _ => (.null, result)

/-- Evaluating `request` stores ALLOW, whatever the result object held before. -/
def PolicyAllows (request : PolicyRequest) : Prop :=
  ∀ prior, (policyEvaluate (some request) (some prior)).2.map PolicyResult.decision = some .allow

/-- The requests that `capability` is good for. -/
def authority (capability : CapabilityRecord) : Set PolicyRequest :=
  {request | PolicyAllows { request with capability := some capability }}

/-- A refusing test is passed if its condition is clear. -/
theorem ite_status_eq_ok {condition : Prop} [Decidable condition] {status rest : PolicyStatus}
    (hstatus : status ≠ .ok) :
    (if condition then status else rest) = .ok ↔ ¬ condition ∧ rest = .ok := by
  split_ifs with hcondition <;> simp [hcondition, hstatus]

theorem policyCheckRequest_ok_iff (request : PolicyRequest) (capability : CapabilityRecord) :
    policyCheckRequest request capability = .ok ↔
      requestCapabilityRevoked request = false ∧
      requestCapabilityExpired request capability = false ∧
      trustIsUsable request.issuerTrust ∧ trustIsUsable request.ownerTrust ∧
      request.callerPrincipalId = request.ownerPrincipalId ∧
      ringInCapabilityRange request.callerRing capability ∧
      request.targetHandle = capability.targetHandle ∧
      capabilityRecordAllowsOperation (some capability) request.operationId := by
  simp (disch := decide) only [policyCheckRequest, ite_status_eq_ok, Bool.not_eq_true, not_not,
    ne_eq, Bool.not_eq_false, and_true]

/-- The decision on a request that carries a capability. -/
theorem policyEvaluate_decision {request : PolicyRequest} {capability : CapabilityRecord}
    (hcapability : request.capability = some capability) (prior : PolicyResult) :
    (policyEvaluate (some request) (some prior)).2.map PolicyResult.decision =
      some (if capabilityRecordValidate (some capability) = .ok ∧
        policyCheckRequest request capability = .ok then .allow else .deny) := by
  simp only [policyEvaluate, hcapability]
  generalize capabilityRecordValidate (some capability) = valid
  generalize policyCheckRequest request capability = check
  cases valid with
  | ok => cases check <;> rfl
  | _ => rfl

theorem policyAllows_iff (request : PolicyRequest) :
    PolicyAllows request ↔ ∃ capability, request.capability = some capability ∧
      capabilityRecordValidate (some capability) = .ok ∧
      policyCheckRequest request capability = .ok := by
  have hprior : Nonempty PolicyResult := ⟨⟨.deny, .null, none⟩⟩
  cases hcapability : request.capability with
  | none => simp [PolicyAllows, policyEvaluate, hcapability]
  | some capability =>
      simp only [PolicyAllows, policyEvaluate_decision hcapability, forall_const,
        Option.some.injEq, exists_eq_left']
      split_ifs with hallowed
      · exact iff_of_true rfl hallowed
      · exact iff_of_false (by decide) hallowed

/-- The checks of a request never read the capability field itself. -/
theorem mem_authority_iff (request : PolicyRequest) (capability : CapabilityRecord) :
    request ∈ authority capability ↔
      capabilityRecordValidate (some capability) = .ok ∧
      policyCheckRequest request capability = .ok := by
  change PolicyAllows _ ↔ _
  rw [policyAllows_iff]
  simp only [Option.some.injEq, exists_eq_left']
  exact Iff.rfl

end Atarix
