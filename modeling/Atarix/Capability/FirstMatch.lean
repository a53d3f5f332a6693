import Atarix.Capability.Evaluator

/-! # The record that decides

The engine stops at the first record about the target and the operation of a
request and reports that record's verdict. What follows for the order of the
records, and for a requester whose trust is revoked.
-/

namespace Atarix

open FlagWord

/-- The record passes the two tests that let the loop go on to the next one. -/
def matchesRequest (request : CapabilityRequest) (capability : CapabilityRecord) : Bool :=
  capability.targetHandle = request.targetHandle ∧ capability.operationId = request.operationId

/-- What the engine decides on a record that matches. -/
def recordVerdict (request : CapabilityRequest) (capability : CapabilityRecord) :
    CapabilityDecision :=
  if request.trustLevel < capability.trustRequirement then .restrict
  else if ¬ ringAllows capability.minimumRing capability.maximumRing request.requesterRing then
    .deny
  else if Has capability.flags CapabilityFlag.recoveryOnly then .recoveryOnly
  else .allow

/-- The decision that a call stores in the evaluation object. -/
def engineDecision (capabilities : List CapabilityRecord) (request : CapabilityRequest)
    (prior : CapabilityEvaluation) : Option CapabilityDecision :=
  (capabilityEvaluate (some capabilities) (some request) (some prior)).2.map
    CapabilityEvaluation.decision

variable {request : CapabilityRequest} {capabilities : List CapabilityRecord}
  {capability : CapabilityRecord} {prior : CapabilityEvaluation}

/-- The loop is a search for the first match. -/
theorem capabilityEvaluateRecords_decision (request : CapabilityRequest)
    (capabilities : List CapabilityRecord) :
    (capabilityEvaluateRecords request capabilities).decision =
      ((capabilities.find? (matchesRequest request)).map (recordVerdict request)).getD .deny := by
  induction capabilities with
  | nil => rfl
  | cons capability rest ih =>
      by_cases hmatches : matchesRequest request capability
      · rw [List.find?_cons_of_pos hmatches]
        obtain ⟨htarget, hoperation⟩ := of_decide_eq_true hmatches
        simp only [capabilityEvaluateRecords, if_neg (not_not.mpr htarget),
          if_neg (not_not.mpr hoperation), Option.map_some, Option.getD_some, recordVerdict]
        split_ifs <;> rfl
      · rw [List.find?_cons_of_neg hmatches, ← ih, capabilityEvaluateRecords]
        by_cases htarget : capability.targetHandle = request.targetHandle
        · have hoperation : capability.operationId ≠ request.operationId :=
            fun heq => hmatches (decide_eq_true ⟨htarget, heq⟩)
          rw [if_neg (not_not.mpr htarget), if_pos hoperation]
        · rw [if_pos htarget]

theorem engineDecision_eq (capabilities : List CapabilityRecord) (request : CapabilityRequest)
    (prior : CapabilityEvaluation) :
    engineDecision capabilities request prior =
      some (((capabilities.find? (matchesRequest request)).map (recordVerdict request)).getD
        .deny) :=
  congrArg some (capabilityEvaluateRecords_decision request capabilities)

/-- A match in front decides. -/
theorem engineDecision_cons (hmatches : matchesRequest request capability)
    (rest : List CapabilityRecord) :
    engineDecision (capability :: rest) request prior =
      some (recordVerdict request capability) := by
  rw [engineDecision_eq, List.find?_cons_of_pos hmatches]
  rfl

/-! ## The order of the records -/

/-- No order of the records changes the decision, and no record that alone yields
ALLOW is shadowed by another. -/
structure OrderIndependent (capabilities : List CapabilityRecord) (request : CapabilityRequest) :
    Prop where
  permuted : ∀ other prior, capabilities.Perm other →
    engineDecision capabilities request prior = engineDecision other request prior
  unshadowed : ∀ capability ∈ capabilities, ∀ prior,
    engineDecision [capability] request prior = some .allow →
      engineDecision capabilities request prior = some .allow

/-- All records that match have the same verdict. -/
def Unanimous (capabilities : List CapabilityRecord) (request : CapabilityRequest) : Prop :=
  ∀ first ∈ capabilities, ∀ second ∈ capabilities, matchesRequest request first →
    matchesRequest request second → recordVerdict request first = recordVerdict request second

/-- Among unanimous records any match has the verdict of the list. -/
theorem Unanimous.decision (hunanimous : Unanimous capabilities request)
    (hmem : capability ∈ capabilities) (hmatches : matchesRequest request capability) :
    engineDecision capabilities request prior = some (recordVerdict request capability) := by
  obtain ⟨first, hfirst⟩ := Option.isSome_iff_exists.mp
    (List.find?_isSome.mpr ⟨capability, hmem, hmatches⟩)
  rw [engineDecision_eq, hfirst, Option.map_some, Option.getD_some,
    hunanimous first (List.mem_of_find?_eq_some hfirst) capability hmem (List.find?_some hfirst)
      hmatches]

theorem engineDecision_of_no_match
    (hnone : ∀ capability ∈ capabilities, ¬ matchesRequest request capability) :
    engineDecision capabilities request prior = some .deny := by
  rw [engineDecision_eq, List.find?_eq_none.mpr hnone]
  rfl

theorem Unanimous.perm {other : List CapabilityRecord} (hunanimous : Unanimous capabilities request)
    (hperm : capabilities.Perm other) : Unanimous other request :=
  fun first hfirst second hsecond =>
    hunanimous first (hperm.mem_iff.mpr hfirst) second (hperm.mem_iff.mpr hsecond)

/-- A match that is brought to the front decides. -/
theorem OrderIndependent.decision (hindependent : OrderIndependent capabilities request)
    (hmem : capability ∈ capabilities) (hmatches : matchesRequest request capability)
    (prior : CapabilityEvaluation) :
    engineDecision capabilities request prior = some (recordVerdict request capability) := by
  obtain ⟨before, after, rfl⟩ := List.append_of_mem hmem
  rw [hindependent.permuted _ prior List.perm_middle, engineDecision_cons hmatches]

theorem OrderIndependent.unanimous (hindependent : OrderIndependent capabilities request) :
    Unanimous capabilities request := by
  intro first hfirst second hsecond hmatches hmatches'
  have hleft := hindependent.decision hfirst hmatches ⟨.deny, none, 0⟩
  have hright := hindependent.decision hsecond hmatches' ⟨.deny, none, 0⟩
  exact Option.some.inj (hleft.symm.trans hright)

theorem Unanimous.orderIndependent (hunanimous : Unanimous capabilities request) :
    OrderIndependent capabilities request where
  permuted := by
    intro other prior hperm
    by_cases hsome : ∃ capability ∈ capabilities, matchesRequest request capability
    · obtain ⟨capability, hmem, hmatches⟩ := hsome
      rw [hunanimous.decision hmem hmatches,
        (hunanimous.perm hperm).decision (hperm.mem_iff.mp hmem) hmatches]
    · have hnone : ∀ capability ∈ capabilities, ¬ matchesRequest request capability :=
        fun capability hmem hmatches => hsome ⟨capability, hmem, hmatches⟩
      rw [engineDecision_of_no_match hnone, engineDecision_of_no_match]
      exact fun capability hmem => hnone capability (hperm.mem_iff.mpr hmem)
  unshadowed := by
    intro capability hmem prior hallow
    by_cases hmatches : matchesRequest request capability
    · rw [engineDecision_cons hmatches] at hallow
      rw [hunanimous.decision hmem hmatches, hallow]
    · have hdenied : engineDecision [capability] request prior = some .deny :=
        engineDecision_of_no_match fun other hother => List.mem_singleton.mp hother ▸ hmatches
      exact absurd (hdenied.symm.trans hallow) (by decide)

/-- The first record that matches decides, and without a match the answer is DENY. The
order of the records is immaterial exactly where those that match agree on the request. -/
theorem firstMatch_decides (capabilities : List CapabilityRecord) (request : CapabilityRequest) :
    (∀ prior, engineDecision capabilities request prior =
      some (((capabilities.find? (matchesRequest request)).map (recordVerdict request)).getD
        .deny)) ∧
    (OrderIndependent capabilities request ↔ Unanimous capabilities request) :=
  ⟨engineDecision_eq capabilities request,
    OrderIndependent.unanimous, Unanimous.orderIndependent⟩

/-- A record that alone allows, with one of a higher requirement in front of it
or behind it. -/
theorem demanding_record_shadows :
    let plain := readCapability 301 RingWire.kernel 0 0
    let demanding := { plain with capabilityId := 302, trustRequirement := TrustLevel.privileged }
    let request := (readRequestOn plain Ring.driver).toCapabilityRequest
    engineDecision [plain, demanding] request ⟨.deny, none, 0⟩ = some .allow ∧
      engineDecision [demanding, plain] request ⟨.deny, none, 0⟩ = some .restrict ∧
      ¬ OrderIndependent [plain, demanding] request := by
  intro plain demanding request
  refine ⟨by decide, by decide, fun hindependent => ?_⟩
  have hsame := hindependent.permuted [demanding, plain] ⟨.deny, none, 0⟩ (List.Perm.swap _ _ _)
  exact absurd hsame (by decide)

/-! ## Revoked requesters -/

/-- The decision lets nobody through, neither for normal operation nor for recovery. -/
def Refuses (decision : Option CapabilityDecision) : Prop :=
  decision ≠ some .allow ∧ decision ≠ some .recoveryOnly

/-- A record refuses whoever lacks the trust or the ring it asks for. -/
theorem refuses_recordVerdict_iff (request : CapabilityRequest) (capability : CapabilityRecord) :
    Refuses (some (recordVerdict request capability)) ↔
      request.trustLevel < capability.trustRequirement ∨
        ¬ ringAllows capability.minimumRing capability.maximumRing request.requesterRing := by
  unfold Refuses recordVerdict
  split_ifs with htrust hring hrecovery <;> simp_all

/-- The first record that matches, if there is one, asks for a trust above
REVOKED or does not admit the ring. -/
def FirstMatchRefuses (capabilities : List CapabilityRecord) (request : CapabilityRequest) : Prop :=
  ∀ capability, capabilities.find? (matchesRequest request) = some capability →
    TrustLevel.revoked < capability.trustRequirement ∨
      ¬ ringAllows capability.minimumRing capability.maximumRing request.requesterRing

/-- A revoked requester is refused exactly where the first record that matches
asks for more than any trust level or does not admit its ring. -/
theorem revoked_refused_iff {request : CapabilityRequest}
    (hrevoked : request.trustLevel = TrustLevel.revoked) (capabilities : List CapabilityRecord)
    (prior : CapabilityEvaluation) :
    Refuses (engineDecision capabilities request prior) ↔
      FirstMatchRefuses capabilities request := by
  rw [engineDecision_eq]
  unfold FirstMatchRefuses
  cases hfirst : capabilities.find? (matchesRequest request) with
  | none => simp [Refuses]
  | some capability =>
      simp only [Option.map_some, Option.getD_some, refuses_recordVerdict_iff, hrevoked,
        Option.some.injEq, forall_eq']

theorem firstMatchRefuses_cons_iff (hmatches : matchesRequest request capability)
    (rest : List CapabilityRecord) :
    FirstMatchRefuses (capability :: rest) request ↔
      TrustLevel.revoked < capability.trustRequirement ∨
        ¬ ringAllows capability.minimumRing capability.maximumRing request.requesterRing := by
  simp only [FirstMatchRefuses, List.find?_cons_of_pos hmatches, Option.some.injEq, forall_eq']

/-- A request by a revoked owner to read what `capability` is for. -/
def revokedRequestOn (capability : CapabilityRecord) : CapabilityRequest :=
  { (readRequestOn capability Ring.driver).toCapabilityRequest with
    trustLevel := TrustLevel.revoked }

/-- A revoked driver is stopped by a requirement above every level and by a range of
rings that leaves it out, if these records come first, and not by a plain record. -/
theorem revoked_refused_iff_matching :
    let plain := readCapability 301 RingWire.kernel 0 0
    let demanding := { plain with capabilityId := 302, trustRequirement := 8 }
    let secluded := readCapability 303 RingWire.service 0 0
    let request := revokedRequestOn plain
    Refuses (engineDecision [demanding, plain] request ⟨.allow, none, 0⟩) ∧
      Refuses (engineDecision [secluded, plain] request ⟨.allow, none, 0⟩) ∧
      ¬ Refuses (engineDecision [plain, demanding, secluded] request ⟨.deny, none, 0⟩) := by
  intro plain demanding secluded request
  refine ⟨?_, ?_, ?_⟩
  · rw [revoked_refused_iff rfl, firstMatchRefuses_cons_iff rfl]
    exact .inl (by decide)
  · rw [revoked_refused_iff rfl, firstMatchRefuses_cons_iff rfl]
    exact .inr (by decide)
  · rw [revoked_refused_iff rfl, firstMatchRefuses_cons_iff rfl]
    decide

/-- A revoked requester meets every requirement that a level names, that of a
privileged one included. -/
theorem revoked_allowed :
    let capability := { readCapability 301 RingWire.kernel 0 0 with
      trustRequirement := TrustLevel.privileged }
    let recovery := { capability with flags := CapabilityFlag.recoveryOnly }
    (revokedRequestOn capability).trustLevel = TrustLevel.revoked ∧
      engineDecision [capability] (revokedRequestOn capability) ⟨.deny, none, 0⟩ = some .allow ∧
      engineDecision [recovery] (revokedRequestOn recovery) ⟨.deny, none, 0⟩ =
        some .recoveryOnly := by
  decide

end Atarix
