import Atarix.Capability.Soundness

/-! # The capability engine

`capability_evaluator.c`, the second decision procedure over capability records,
and how far it agrees with policy evaluation. It reads the trust requirement and
the recovery flag, which policy evaluation does not; policy evaluation reads the
operation flags, which the engine does not; and they admit different rings to a
record floored at the fabric.
-/

namespace Atarix

open FlagWord

/-- `atarix_decision_t`. -/
inductive CapabilityDecision where
  | allow
  | deny
  | restrict
  | recoveryOnly
deriving DecidableEq, Repr

/-- `atarix_capability_request_t`, less the flags, which are never read. -/
structure CapabilityRequest where
  targetHandle : BitVec 64
  operationId : BitVec 32
  requesterRing : Ring
  trustLevel : TrustLevel
deriving DecidableEq, Repr

/-- `atarix_capability_evaluation_t`. -/
structure CapabilityEvaluation where
  decision : CapabilityDecision
  matchedCapability : Option CapabilityRecord
  reasonCode : BitVec 32
deriving DecidableEq, Repr

def ringAllows (minimumRingWire maximumRingWire : RingWire) (requesterRing : Ring) : Bool :=
  if minimumRingWire = RingWire.supervisor then
    ringToWire requesterRing = RingWire.supervisor
  else if minimumRingWire = RingWire.fabric then
    ringToWire requesterRing = RingWire.supervisor ∨ ringToWire requesterRing = RingWire.fabric
  else
    ringToWire requesterRing ≥ minimumRingWire ∧ ringToWire requesterRing ≤ maximumRingWire

/-- The loop of `atarix_capability_evaluate` and what follows it. -/
def capabilityEvaluateRecords (request : CapabilityRequest) :
    List CapabilityRecord → CapabilityEvaluation
  | [] => ⟨.deny, none, 3⟩
  | capability :: rest =>
    if capability.targetHandle ≠ request.targetHandle then capabilityEvaluateRecords request rest
    else if capability.operationId ≠ request.operationId then
      capabilityEvaluateRecords request rest
    else if request.trustLevel < capability.trustRequirement then
      ⟨.restrict, some capability, 1⟩
    else if ¬ ringAllows capability.minimumRing capability.maximumRing request.requesterRing then
      ⟨.deny, some capability, 2⟩
    else if Has capability.flags CapabilityFlag.recoveryOnly then
      ⟨.recoveryOnly, some capability, 0⟩
    else ⟨.allow, some capability, 0⟩

/-- Returns the C result and the evaluation object the caller sees afterwards. -/
def capabilityEvaluate (capabilities : Option (List CapabilityRecord))
    (request : Option CapabilityRequest) (evaluation : Option CapabilityEvaluation) :
    Int × Option CapabilityEvaluation :=
  match capabilities, request, evaluation with
  | some capabilities, some request, some _ =>
    (0, some (capabilityEvaluateRecords request capabilities))
  | _, _, _ => (-1, evaluation)

/-! ## The two engines on one record -/

/-- The request to the engine that a policy request corresponds to. -/
def PolicyRequest.toCapabilityRequest (request : PolicyRequest) : CapabilityRequest where
  targetHandle := request.targetHandle
  operationId := request.operationId
  requesterRing := request.callerRing
  trustLevel := request.ownerTrust

/-- The engine, given `capability` alone, decides ALLOW. -/
def EngineAllows (capability : CapabilityRecord) (request : PolicyRequest) : Prop :=
  ∀ prior, (capabilityEvaluate (some [capability]) (some request.toCapabilityRequest)
    (some prior)).2.map CapabilityEvaluation.decision = some .allow

/-- A policy request on `capability` that the checks both engines leave to policy
evaluation do not stop. -/
structure Comparable (capability : CapabilityRecord) (request : PolicyRequest) : Prop where
  carries : request.capability = some capability
  valid : capabilityRecordValidate (some capability) = .ok
  notRevoked : requestCapabilityRevoked request = false
  notExpired : requestCapabilityExpired request capability = false
  issuer : trustIsUsable request.issuerTrust
  owner : trustIsUsable request.ownerTrust
  principal : request.callerPrincipalId = request.ownerPrincipalId

/-- The record is about the target and the operation of the request. -/
def Concerns (capability : CapabilityRecord) (request : PolicyRequest) : Prop :=
  request.targetHandle = capability.targetHandle ∧ request.operationId = capability.operationId

instance (capability : CapabilityRecord) (request : PolicyRequest) :
    Decidable (Concerns capability request) :=
  inferInstanceAs (Decidable (_ ∧ _))

/-- The READ, WRITE or CONTROL flag that belongs to an operation is set. -/
def OperationFlagged (capability : CapabilityRecord) (operationId : BitVec 32) : Prop :=
  (operationId = Operation.read → Has capability.flags CapabilityFlag.readAllowed) ∧
    (operationId = Operation.write → Has capability.flags CapabilityFlag.writeAllowed) ∧
    (operationId = Operation.control → Has capability.flags CapabilityFlag.controlAllowed)

/-- What the engine alone asks: enough trust, and not for recovery only. -/
def MeetsRequirement (capability : CapabilityRecord) (trust : TrustLevel) : Prop :=
  capability.trustRequirement ≤ trust ∧ ¬ Has capability.flags CapabilityFlag.recoveryOnly

instance (capability : CapabilityRecord) (trust : TrustLevel) :
    Decidable (MeetsRequirement capability trust) :=
  inferInstanceAs (Decidable (_ ∧ _))

/-- The two engines' own tests come out alike: in the ring range the operation
flag is set exactly if the requirement is met, and the supervisor does not meet
it on a record floored at the fabric. -/
structure TestsAgree (capability : CapabilityRecord) (request : PolicyRequest) : Prop where
  inRange : Concerns capability request → ringInCapabilityRange request.callerRing capability →
    (OperationFlagged capability request.operationId ↔
      MeetsRequirement capability request.ownerTrust)
  supervisor : Concerns capability request → capability.minimumRing = RingWire.fabric →
    request.callerRing = Ring.supervisor → ¬ MeetsRequirement capability request.ownerTrust

theorem ringToWire_eq_supervisor_iff (ring : Ring) :
    ringToWire ring = RingWire.supervisor ↔ ring = Ring.supervisor := by
  constructor
  · intro hwire
    by_contra hring
    simp only [ringToWire, if_neg hring] at hwire
    split_ifs at hwire <;> exact absurd hwire (by decide)
  · rintro rfl
    rfl

/-- The engine admits the rings policy evaluation admits, and the supervisor to
records floored at the fabric. -/
theorem ringAllows_iff (capability : CapabilityRecord) (ring : Ring) :
    ringAllows capability.minimumRing capability.maximumRing ring ↔
      ringInCapabilityRange ring capability ∨
        (capability.minimumRing = RingWire.fabric ∧ ring = Ring.supervisor) := by
  have hdistinct : RingWire.fabric ≠ RingWire.supervisor := by decide
  simp only [ringAllows, ringInCapabilityRange, ← ringToWire_eq_supervisor_iff]
  split_ifs with hsupervisor hfabric
  · simp [hsupervisor, Ne.symm hdistinct]
  · simp [hfabric, or_comm]
  · simp [hfabric]

/-- The supervisor is outside the range of a record floored at the fabric. -/
theorem not_inRange_of_supervisor {capability : CapabilityRecord}
    (hfabric : capability.minimumRing = RingWire.fabric) :
    ¬ ringInCapabilityRange Ring.supervisor capability := by
  have hdistinct : RingWire.fabric ≠ RingWire.supervisor := by decide
  simp only [ringInCapabilityRange, hfabric, if_neg hdistinct, if_true]
  decide

theorem capabilityEvaluateRecords_allow_iff (request : CapabilityRequest)
    (capability : CapabilityRecord) :
    (capabilityEvaluateRecords request [capability]).decision = .allow ↔
      capability.targetHandle = request.targetHandle ∧
      capability.operationId = request.operationId ∧
      capability.trustRequirement ≤ request.trustLevel ∧
      ringAllows capability.minimumRing capability.maximumRing request.requesterRing ∧
      ¬ Has capability.flags CapabilityFlag.recoveryOnly := by
  simp only [capabilityEvaluateRecords, ← BitVec.not_lt]
  split_ifs with htarget hoperation htrust hring hrecovery <;> simp_all

theorem engineAllows_iff (capability : CapabilityRecord) (request : PolicyRequest) :
    EngineAllows capability request ↔ Concerns capability request ∧
      MeetsRequirement capability request.ownerTrust ∧
      ringAllows capability.minimumRing capability.maximumRing request.callerRing := by
  have hprior : Nonempty CapabilityEvaluation := ⟨⟨.deny, none, 0⟩⟩
  simp only [EngineAllows, capabilityEvaluate, Option.map_some, Option.some.injEq, forall_const,
    capabilityEvaluateRecords_allow_iff, PolicyRequest.toCapabilityRequest, Concerns,
    MeetsRequirement]
  rw [eq_comm, eq_comm (b := request.operationId)]
  tauto

theorem policyAllows_iff_of_comparable {capability : CapabilityRecord} {request : PolicyRequest}
    (hcomparable : Comparable capability request) :
    PolicyAllows request ↔ Concerns capability request ∧
      OperationFlagged capability request.operationId ∧
      ringInCapabilityRange request.callerRing capability := by
  obtain ⟨hcapability, hvalid, hrevoked, hexpired, hissuer, howner, hprincipal⟩ := hcomparable
  rw [policyAllows_iff]
  simp only [hcapability, Option.some.injEq, exists_eq_left', hvalid, true_and,
    policyCheckRequest_ok_iff, hrevoked, hexpired, hissuer, howner, hprincipal,
    capabilityRecordAllowsOperation_iff, Concerns, OperationFlagged]
  tauto

/-- The engines agree on a record and a request exactly when their own tests do. -/
theorem enginesAgree_iff {capability : CapabilityRecord} {request : PolicyRequest}
    (hcomparable : Comparable capability request) :
    (PolicyAllows request ↔ EngineAllows capability request) ↔ TestsAgree capability request := by
  rw [policyAllows_iff_of_comparable hcomparable, engineAllows_iff, ringAllows_iff]
  constructor
  · intro hagree
    constructor
    · intro hconcerns hrange
      tauto
    · intro hconcerns hfabric hsupervisor hmeets
      have hallowed := (hagree.mpr ⟨hconcerns, hmeets, Or.inr ⟨hfabric, hsupervisor⟩⟩).2.2
      rw [hsupervisor] at hallowed
      exact not_inRange_of_supervisor hfabric hallowed
  · rintro ⟨hinRange, hsupervisor⟩
    constructor
    · rintro ⟨hconcerns, hflagged, hrange⟩
      exact ⟨hconcerns, (hinRange hconcerns hrange).mp hflagged, Or.inl hrange⟩
    · rintro ⟨hconcerns, hmeets, hrange | ⟨hfabric, hring⟩⟩
      · exact ⟨hconcerns, (hinRange hconcerns hrange).mpr hmeets, hrange⟩
      · exact absurd hmeets (hsupervisor hconcerns hfabric hring)

/-- A read request on `capability` by a trusted owner in the given ring. -/
def readRequestOn (capability : CapabilityRecord) (callerRing : Ring) : PolicyRequest :=
  { readRequest callerRing TrustLevel.trusted TrustLevel.trusted with
    capability := some capability }

theorem comparable_readRequestOn {capability : CapabilityRecord}
    (hvalid : capabilityRecordValidate (some capability) = .ok)
    (hlasting : ¬ Has capability.flags CapabilityFlag.timeLimited) (callerRing : Ring) :
    Comparable capability (readRequestOn capability callerRing) where
  carries := rfl
  valid := hvalid
  notRevoked := decide_eq_false (not_has_zero _)
  notExpired := by
    rw [requestCapabilityExpired_iff_unexpired]
    exact fun hlimited => absurd hlimited hlasting
  issuer := rfl
  owner := rfl
  principal := rfl

theorem enginesAgree_iff_plain :
    let capability := readCapability 301 RingWire.kernel 0 0
    (PolicyAllows (readRequestOn capability Ring.driver) ↔
        EngineAllows capability (readRequestOn capability Ring.driver)) ↔
      TestsAgree capability (readRequestOn capability Ring.driver) :=
  enginesAgree_iff (comparable_readRequestOn (by decide) (by decide) Ring.driver)

/-- A requirement above the owner's trust and the recovery flag stop the engine
alone, a missing read flag stops policy evaluation alone, and the engine alone
admits the supervisor at the fabric floor. -/
theorem engines_disagree :
    let demanding := { readCapability 301 RingWire.kernel 0 0 with
      trustRequirement := TrustLevel.privileged }
    let recovery := readCapability 302 RingWire.kernel CapabilityFlag.recoveryOnly 0
    let unflagged := { readCapability 303 RingWire.kernel 0 0 with flags := 0 }
    let fabric := readCapability 304 RingWire.fabric 0 0
    let onDemanding := readRequestOn demanding Ring.driver
    let onRecovery := readRequestOn recovery Ring.driver
    let onUnflagged := readRequestOn unflagged Ring.driver
    let onFabric := readRequestOn fabric Ring.supervisor
    (Comparable demanding onDemanding ∧ Comparable recovery onRecovery ∧
        Comparable unflagged onUnflagged ∧ Comparable fabric onFabric) ∧
      (PolicyAllows onDemanding ∧ ¬ EngineAllows demanding onDemanding) ∧
      (PolicyAllows onRecovery ∧ ¬ EngineAllows recovery onRecovery) ∧
      (¬ PolicyAllows onUnflagged ∧ EngineAllows unflagged onUnflagged) ∧
      (¬ PolicyAllows onFabric ∧ EngineAllows fabric onFabric) := by
  intro demanding recovery unflagged fabric onDemanding onRecovery onUnflagged onFabric
  refine ⟨⟨?_, ?_, ?_, ?_⟩, ?_⟩
  iterate 4 exact comparable_readRequestOn (by decide) (by decide) _
  simp only [engineAllows_iff, policyAllows_iff]
  have hpolicy : ∀ capability ring, capabilityRecordValidate (some capability) = .ok →
      ((∃ found, (readRequestOn capability ring).capability = some found ∧
          capabilityRecordValidate (some found) = .ok ∧
          policyCheckRequest (readRequestOn capability ring) found = .ok) ↔
        policyCheckRequest (readRequestOn capability ring) capability = .ok) := by
    intro capability ring hvalid
    simp [readRequestOn, hvalid]
  rw [hpolicy demanding _ (by decide), hpolicy recovery _ (by decide),
    hpolicy unflagged _ (by decide), hpolicy fabric _ (by decide)]
  decide

end Atarix
