import Atarix.Capability.Delegation

/-! # What ALLOW means

A decision is ALLOW or a recorded denial. ALLOW is meant to rest on eleven
conditions; the evaluator tests two of them by exclusion, so values outside the
named rings and standing trust levels pass where nothing else stops them.
-/

namespace Atarix

open FlagWord

/-! ## The outcomes of an evaluation -/

/-- An evaluation allows after every check, or records the denial it returns. -/
inductive PolicyOutcome (request : PolicyRequest) :
    PolicyStatus × Option PolicyResult → Prop where
  | allowed (capability : CapabilityRecord) (hcapability : request.capability = some capability)
      (hvalid : capabilityRecordValidate (some capability) = .ok)
      (hcheck : policyCheckRequest request capability = .ok) :
      PolicyOutcome request (.ok, some ⟨.allow, .ok, some capability⟩)
  | denied (status : PolicyStatus) (matched : Option CapabilityRecord) (hstatus : status ≠ .ok) :
      PolicyOutcome request (status, some ⟨.deny, status, matched⟩)

theorem policyEvaluate_outcome (request : PolicyRequest) (prior : PolicyResult) :
    PolicyOutcome request (policyEvaluate (some request) (some prior)) := by
  simp only [policyEvaluate]
  cases hcapability : request.capability with
  | none => exact .denied .null none (by decide)
  | some capability =>
      by_cases hvalid : capabilityRecordValidate (some capability) = .ok
      · by_cases hcheck : policyCheckRequest request capability = .ok
        · simp only [hvalid, hcheck]
          exact .allowed capability hcapability hvalid hcheck
        · have hdenied : PolicyOutcome request (policyCheckRequest request capability,
              some ⟨.deny, policyCheckRequest request capability, some capability⟩) :=
            .denied _ (some capability) hcheck
          simp only [hvalid]
          generalize policyCheckRequest request capability = status at hcheck hdenied
          cases status <;> exact hdenied
      · have hdenied : PolicyOutcome request (capabilityRecordValidate (some capability),
            some ⟨.deny, capabilityRecordValidate (some capability), none⟩) :=
          .denied _ none hvalid
        dsimp only
        generalize capabilityRecordValidate (some capability) = status at hvalid hdenied
        cases status <;> first | exact hdenied | exact absurd rfl hvalid

/-! ## The conditions behind ALLOW -/

/-- The trust levels that grant: IDENTIFIED to PRIVILEGED. -/
def StandingTrust (trust : TrustLevel) : Prop :=
  trust = TrustLevel.identified ∨ trust = TrustLevel.validated ∨ trust = TrustLevel.trusted ∨
    trust = TrustLevel.privileged

instance (trust : TrustLevel) : Decidable (StandingTrust trust) :=
  inferInstanceAs (Decidable (_ ∨ _))

/-- What an ALLOW on `capability` is supposed to rest on. -/
structure SoundAllow (request : PolicyRequest) (capability : CapabilityRecord) : Prop where
  record : capabilityRecordValidate (some capability) = .ok
  notRevoked : ¬ Has request.requestFlags policyRequestFlagCapabilityRevoked
  unexpired : Has capability.flags CapabilityFlag.timeLimited →
    capability.expirationOrLifetime ≠ 0 ∧ request.currentTime ≤ capability.expirationOrLifetime
  issuer : StandingTrust request.issuerTrust
  owner : StandingTrust request.ownerTrust
  principal : request.callerPrincipalId = request.ownerPrincipalId
  ringValid : ringIsValid request.callerRing
  ringNotQuarantine : request.callerRing ≠ Ring.quarantine
  ringInRange : ringInCapabilityRange request.callerRing capability
  target : request.targetHandle = capability.targetHandle
  operation : request.operationId = capability.operationId
  read : request.operationId = Operation.read → Has capability.flags CapabilityFlag.readAllowed
  write : request.operationId = Operation.write → Has capability.flags CapabilityFlag.writeAllowed
  control : request.operationId = Operation.control →
    Has capability.flags CapabilityFlag.controlAllowed

/-- An evaluation allows only on these conditions, and otherwise stores DENY with
the status it returns. -/
def FailsClosed (request : PolicyRequest) : Prop :=
  ∀ prior, ∃ stored, (policyEvaluate (some request) (some prior)).2 = some stored ∧
    (stored.decision = .allow →
      ∃ capability, request.capability = some capability ∧ SoundAllow request capability) ∧
    (stored.decision ≠ .allow → stored.decision = .deny ∧ stored.status ≠ .ok ∧
      (policyEvaluate (some request) (some prior)).1 = stored.status)

/-- The enumeration fields hold values that mean what their checks take them for. -/
structure EnumerationsStand (request : PolicyRequest) : Prop where
  issuer : StandingTrust request.issuerTrust
  owner : StandingTrust request.ownerTrust
  ring : ringIsValid request.callerRing

/-- One of the evaluator's own tests refuses the request. -/
def Refused (request : PolicyRequest) : Prop :=
  ∀ capability, request.capability = some capability →
    capabilityRecordValidate (some capability) ≠ .ok ∨
      requestCapabilityRevoked request ∨ requestCapabilityExpired request capability ∨
      ¬ trustIsUsable request.issuerTrust ∨ ¬ trustIsUsable request.ownerTrust ∨
      request.callerPrincipalId ≠ request.ownerPrincipalId ∨
      ¬ ringInCapabilityRange request.callerRing capability ∨
      request.targetHandle ≠ capability.targetHandle ∨
      ¬ capabilityRecordAllowsOperation (some capability) request.operationId

theorem refused_iff (request : PolicyRequest) :
    Refused request ↔ ∀ capability, request.capability = some capability →
      capabilityRecordValidate (some capability) = .ok →
      policyCheckRequest request capability ≠ .ok := by
  refine forall_congr' fun capability => forall_congr' fun _ => ?_
  have hcheck := policyCheckRequest_ok_iff request capability
  simp only [← Bool.not_eq_true] at hcheck
  rw [ne_eq (policyCheckRequest request capability), hcheck]
  simp only [imp_iff_not_or, not_and_or, not_not, ne_eq]

/-! ## The tests, as conditions -/

theorem requestCapabilityExpired_iff_unexpired (request : PolicyRequest)
    (capability : CapabilityRecord) :
    requestCapabilityExpired request capability = false ↔
      (Has capability.flags CapabilityFlag.timeLimited →
        capability.expirationOrLifetime ≠ 0 ∧
          request.currentTime ≤ capability.expirationOrLifetime) := by
  unfold requestCapabilityExpired
  split_ifs with hlimited hzero
  · exact iff_of_false id fun hunexpired => (hunexpired hlimited).1 hzero
  · rw [decide_eq_false_iff_not, gt_iff_lt, BitVec.not_lt]
    exact ⟨fun hle _ => ⟨hzero, hle⟩, fun hunexpired => (hunexpired hlimited).2⟩
  · exact iff_of_true rfl fun hhas => absurd hhas hlimited

theorem capabilityRecordAllowsOperation_iff (capability : CapabilityRecord)
    (operationId : BitVec 32) :
    capabilityRecordAllowsOperation (some capability) operationId ↔
      operationId = capability.operationId ∧
      (operationId = Operation.read → Has capability.flags CapabilityFlag.readAllowed) ∧
      (operationId = Operation.write → Has capability.flags CapabilityFlag.writeAllowed) ∧
      (operationId = Operation.control → Has capability.flags CapabilityFlag.controlAllowed) := by
  have hread : Operation.read ≠ Operation.write ∧ Operation.read ≠ Operation.control := by decide
  have hwrite : Operation.write ≠ Operation.read ∧ Operation.write ≠ Operation.control := by decide
  have hcontrol : Operation.control ≠ Operation.read ∧ Operation.control ≠ Operation.write := by
    decide
  simp only [capabilityRecordAllowsOperation]
  split_ifs with hsame hisRead hisWrite hisControl
  · simp [Ne.symm hsame]
  · subst hisRead
    simp [not_not.mp hsame, hread]
  · subst hisWrite
    simp [not_not.mp hsame, hwrite]
  · subst hisControl
    simp [not_not.mp hsame, hcontrol]
  · simp [not_not.mp hsame, hisRead, hisWrite, hisControl]

/-- No valid record admits the quarantine ring. -/
theorem not_quarantine_of_inRange {ring : Ring} {capability : CapabilityRecord}
    (hvalid : capabilityRecordValidate (some capability) = .ok)
    (hrange : ringInCapabilityRange ring capability) : ring ≠ Ring.quarantine := by
  rintro rfl
  obtain ⟨-, -, hringRange, -, -⟩ := (capabilityRecordValidate_ok_iff capability).mp hvalid
  have hwire : ringToWire Ring.quarantine = RingWire.quarantine := rfl
  simp only [ringInCapabilityRange, hwire] at hrange
  split_ifs at hrange with hsupervisor hfabric
  · exact absurd hrange (by decide)
  · exact absurd hrange (by decide)
  · have hordinary := (ringRangeValid_ordinary hringRange hsupervisor hfabric).2
    have hmaximum : RingWire.quarantine ≤ capability.maximumRing := (of_decide_eq_true hrange).2
    exact absurd (BitVec.le_trans hmaximum hordinary) (by decide)

/-- The checks make an ALLOW sound where the enumeration fields stand. -/
theorem soundAllow_iff {request : PolicyRequest} {capability : CapabilityRecord}
    (hvalid : capabilityRecordValidate (some capability) = .ok)
    (hcheck : policyCheckRequest request capability = .ok) :
    SoundAllow request capability ↔ EnumerationsStand request := by
  obtain ⟨hrevoked, hexpired, -, -, hprincipal, hrange, htarget, hallowed⟩ :=
    (policyCheckRequest_ok_iff request capability).mp hcheck
  obtain ⟨hoperation, hread, hwrite, hcontrol⟩ :=
    (capabilityRecordAllowsOperation_iff capability request.operationId).mp hallowed
  constructor
  · intro hsound
    exact ⟨hsound.issuer, hsound.owner, hsound.ringValid⟩
  · rintro ⟨hissuer, howner, hring⟩
    exact ⟨hvalid, of_decide_eq_false hrevoked,
      (requestCapabilityExpired_iff_unexpired request capability).mp hexpired, hissuer, howner,
      hprincipal, hring, not_quarantine_of_inRange hvalid hrange, hrange, htarget, hoperation,
      hread, hwrite, hcontrol⟩

/-- Evaluation fails closed exactly on the requests whose trust levels and ring
are standing ones, and on those another test refuses. -/
theorem failsClosed_iff (request : PolicyRequest) :
    FailsClosed request ↔ EnumerationsStand request ∨ Refused request := by
  constructor
  · intro hcloses
    by_contra hneither
    obtain ⟨hstand, hrefused⟩ := not_or.mp hneither
    simp only [refused_iff, not_forall, Ne, not_not] at hrefused
    obtain ⟨capability, hcapability, hvalid, hcheck⟩ := hrefused
    obtain ⟨stored, hstored, hallow, -⟩ := hcloses ⟨.deny, .null, none⟩
    have hdecision : stored.decision = .allow := by
      simp only [policyEvaluate, hcapability, hvalid, hcheck, Option.some.injEq] at hstored
      rw [← hstored]
    obtain ⟨matched, hmatched, hsound⟩ := hallow hdecision
    obtain rfl : capability = matched := Option.some.inj (hcapability.symm.trans hmatched)
    exact hstand ((soundAllow_iff hvalid hcheck).mp hsound)
  · intro hcondition prior
    have houtcome := policyEvaluate_outcome request prior
    generalize policyEvaluate (some request) (some prior) = outcome at houtcome
    cases houtcome with
    | allowed capability hcapability hvalid hcheck =>
        refine ⟨_, rfl, fun _ => ⟨capability, hcapability, ?_⟩, fun hne => absurd rfl hne⟩
        rcases hcondition with hstand | hrefused
        · exact (soundAllow_iff hvalid hcheck).mpr hstand
        · exact absurd hcheck ((refused_iff request).mp hrefused capability hcapability hvalid)
    | denied status matched hstatus =>
        exact ⟨_, rfl, fun hallow => PolicyDecision.noConfusion hallow,
          fun _ => ⟨rfl, hstatus, rfl⟩⟩

/-- A read request on a plain capability, with the enumeration values a case needs. -/
def readRequest (callerRing : Ring) (issuerTrust ownerTrust : TrustLevel) : PolicyRequest where
  callerPrincipalId := 1
  ownerPrincipalId := 1
  callerRing := callerRing
  issuerTrust := issuerTrust
  ownerTrust := ownerTrust
  targetHandle := 0x0003000100000001
  operationId := Operation.read
  currentTime := 0
  requestFlags := 0
  capability := some (readCapability 301 RingWire.kernel 0 0)

/-- The reserved trust level 5 and the ring 9 are both allowed. -/
theorem reserved_trust_allowed :
    (PolicyAllows (readRequest Ring.kernel 5 TrustLevel.trusted) ∧
      ¬ FailsClosed (readRequest Ring.kernel 5 TrustLevel.trusted)) ∧
    (PolicyAllows (readRequest 9 TrustLevel.trusted TrustLevel.trusted) ∧
      ¬ FailsClosed (readRequest 9 TrustLevel.trusted TrustLevel.trusted)) := by
  have hclosed : ∀ request : PolicyRequest, PolicyAllows request → ¬ EnumerationsStand request →
      ¬ FailsClosed request := by
    intro request hallows hstand hcloses
    obtain ⟨stored, hstored, hallow, -⟩ := hcloses ⟨.deny, .null, none⟩
    have hdecision := hallows ⟨.deny, .null, none⟩
    rw [hstored, Option.map_some, Option.some.injEq] at hdecision
    obtain ⟨capability, -, hsound⟩ := hallow hdecision
    exact hstand ⟨hsound.issuer, hsound.owner, hsound.ringValid⟩
  have htrust : PolicyAllows (readRequest Ring.kernel 5 TrustLevel.trusted) :=
    (policyAllows_iff _).mpr ⟨_, rfl, by decide, by decide⟩
  have hring : PolicyAllows (readRequest 9 TrustLevel.trusted TrustLevel.trusted) :=
    (policyAllows_iff _).mpr ⟨_, rfl, by decide, by decide⟩
  exact ⟨⟨htrust, hclosed _ htrust fun hstand => absurd hstand.issuer (by decide)⟩,
    hring, hclosed _ hring fun hstand => absurd hstand.ring (by decide)⟩

end Atarix
