import Atarix.Rtl.AcceleratorRun
import Mathlib.Tactic.IntervalCases

/-! # When the request fields are read

The key hash and the base are latched at acceptance; every other field is read
at the port by the phase that uses it. Two runs that differ in the fields alone
give a request the same outcome exactly when every phase reads the same from
both.
-/

namespace Atarix

namespace Accelerator

/-- Everything but the request fields is the same. -/
def SameExceptRequest (left right : Inputs) : Prop :=
  right = { left with req := right.req }

/-! ## What a phase reads of the request -/

/-- The status with which `STATE_VALIDATE` refuses a request. -/
def validateVerdict (req : Request) : Option (BitVec 8) :=
  if req.type ≠ typeIndexQuery then some statusInvalidHeader
  else if ¬ req.crcOk then some statusCrcMismatch
  else none

/-- The status with which `STATE_AUTH` refuses a request. -/
def authVerdict (req : Request) : Option (BitVec 8) :=
  if ¬ req.ringOk then some statusRingDenied
  else if ¬ req.capabilityOk then some statusCapDenied
  else if ¬ req.policyOk then some statusPolicyDenied
  else none

/-- The phase of `regs` reads the same from the fields of both inputs. -/
def SameSample (regs : Registers) (left right : Inputs) : Prop :=
  match regs.state with
  | .validate => validateVerdict left.req = validateVerdict right.req
  | .auth => authVerdict left.req = authVerdict right.req
  | .probe => simdHit left regs ∨
      (regs.probeCount ≥ left.req.probeLimit ↔ regs.probeCount ≥ right.req.probeLimit)
  | .audit => left.req.sequence = right.req.sequence ∧ left.req.registryId = right.req.registryId
  | .idle | .fetch | .step | .respond | .unused => True

theorem validateEdge_eq (input : Inputs) (regs : Registers) :
    validateEdge input regs =
      match validateVerdict input.req with
      | some status => { regs with respStatus := status, state := .audit }
      | none => { regs with state := .auth } := by
  unfold validateEdge validateVerdict
  split_ifs <;> rfl

theorem authEdge_eq (input : Inputs) (regs : Registers) :
    authEdge input regs =
      match authVerdict input.req with
      | some status => { regs with respStatus := status, state := .audit }
      | none => { regs with probeValid := true, state := .fetch } := by
  unfold authEdge authVerdict
  split_ifs <;> rfl

/-- A busy machine steps alike on inputs that its phase cannot tell apart. -/
theorem edge_eq_of_sameSample {left right : Inputs} {regs : Registers}
    (hsame : SameExceptRequest left right) (hbusy : regs.state ≠ .idle)
    (hsample : SameSample regs left right) : edge left regs = edge right regs := by
  obtain ⟨req, rfl⟩ : ∃ req, right = { left with req } := ⟨right.req, hsame⟩
  have hphase : phaseEdge left regs = phaseEdge { left with req } regs := by
    cases hstate : regs.state <;> simp only [SameSample, hstate] at hsample <;>
      simp only [phaseEdge, hstate]
    case idle => exact absurd hstate hbusy
    case validate => rw [validateEdge_eq, validateEdge_eq, hsample]
    case auth => rw [authEdge_eq, authEdge_eq, hsample]
    case fetch => rfl
    case probe =>
        unfold probeEdge
        by_cases hhit : simdHit left regs
        · have hhit' : simdHit { left with req } regs := hhit
          rw [if_pos hhit, if_pos hhit']
          rfl
        · have hhit' : ¬ simdHit { left with req } regs := hhit
          have hlimit := hsample.resolve_left hhit
          rw [if_neg hhit, if_neg hhit']
          exact if_congr hlimit rfl rfl
    case audit => simp only [auditEdge, hsample.1, hsample.2]
    case respond => rfl
  simp only [edge, hphase]

/-! ## What a request produces -/

structure AuditRecord where
  sequence : BitVec 32
  status : BitVec 8
  registryId : BitVec 32
  generation : BitVec 32
  probeCount : BitVec 8
  matchOffset : BitVec 4
deriving DecidableEq, Repr

structure Response where
  status : BitVec 8
  resolvedId : BitVec 32
  resolvedGeneration : BitVec 32
  matchOffset : BitVec 4
  cycles : BitVec 32
deriving DecidableEq, Repr

def Registers.auditRecord (regs : Registers) : AuditRecord :=
  ⟨regs.auditSequence, regs.auditStatus, regs.auditRegistryId, regs.auditGeneration,
    regs.auditProbeCount, regs.auditMatchOffset⟩

def Registers.response (regs : Registers) : Response :=
  ⟨regs.respStatus, regs.respResolvedId, regs.respResolvedGeneration, regs.respMatchOffset,
    regs.respCycles⟩

/-- The response to the request accepted at `a` transfers at `t`. -/
def Answers (inputs : Nat → Inputs) (a t : Nat) : Prop :=
  Processing inputs a t ∧ ResponseTransfer (inputs t) (machine.regs inputs t)

section TwoRuns

variable (left right : Nat → Inputs) (a l : Nat)

/-- The runs agree up to the acceptance at `a` and everywhere else except in the
request fields. -/
structure AgreeExceptRequest : Prop where
  before : ∀ k ≤ a, left k = right k
  after : ∀ k, SameExceptRequest (left k) (right k)

/-- The right run answers its request with the response and audit record of the
left, and every record the left run presents the right presents too. -/
def SameOutcome : Prop :=
  ∃ r, Answers right a r ∧
    (machine.regs left l).response = (machine.regs right r).response ∧
    (machine.regs left l).auditRecord = (machine.regs right r).auditRecord ∧
    ∀ t, a < t → t ≤ l → (machine.regs left t).auditValid →
      (machine.regs left t).auditRecord = (machine.regs right t).auditRecord

/-- Every phase of the left request reads the same from the fields of both runs. -/
def SamplesAgree : Prop :=
  ∀ k, a < k → k ≤ l → SameSample (machine.regs left k) (left k) (right k)

end TwoRuns

variable {left right : Nat → Inputs} {a l r : Nat}

/-- Up to the first edge at which the samples differ the runs are in lockstep. -/
theorem lockstep_of_samples (hagree : AgreeExceptRequest left right a)
    (hprocessing : Processing left a l) {last : Nat} (hlt : a < last) (hle : last ≤ l + 1)
    (hsamples : ∀ k, a < k → k < last → SameSample (machine.regs left k) (left k) (right k)) :
    machine.regs left last = machine.regs right last := by
  obtain ⟨count, rfl⟩ := Nat.exists_eq_add_of_le hlt
  apply machine.lockstep
  · exact machine.regs_congr fun k hk => hagree.before k (by omega)
  · intro k hk hklt
    exact edge_eq_of_sameSample (hagree.after k) (hprocessing.busy k hk (by omega))
      (hsamples k hk hklt)

theorem Answers.idle_succ (hanswers : Answers right a r) :
    (machine.regs right (r + 1)).state = .idle :=
  ((responseTransfer_iff (regs_coherent right r)).mp hanswers.2).2.2

/-- A request is answered once. -/
theorem Answers.unique (hl : Answers right a l) (hr : Answers right a r) : l = r := by
  rcases Nat.lt_trichotomy l r with hlt | heq | hlt
  · exact absurd hl.idle_succ (hr.1.busy (l + 1) (Nat.lt_succ_of_lt hl.1.lt) hlt)
  · exact heq
  · exact absurd hr.idle_succ (hl.1.busy (r + 1) (Nat.lt_succ_of_lt hr.1.lt) hlt)

theorem sameOutcome_of_samplesAgree (hagree : AgreeExceptRequest left right a)
    (hanswers : Answers left a l) (hsamples : SamplesAgree left right a l) :
    SameOutcome left right a l := by
  have hlock : ∀ t, a < t → t ≤ l → machine.regs left t = machine.regs right t :=
    fun t hlt hle => lockstep_of_samples hagree hanswers.1 hlt (by omega)
      fun k hk hkt => hsamples k hk (by omega)
  obtain ⟨hprocessing, htransfer⟩ := hanswers
  have hlast := hlock l hprocessing.lt le_rfl
  have hready : (left l).rstN = (right l).rstN ∧ (left l).respReady = (right l).respReady := by
    rw [hagree.after l]
    exact ⟨rfl, rfl⟩
  refine ⟨l, ⟨⟨hprocessing.lt, ?_, ?_⟩, ?_⟩, by rw [hlast], by rw [hlast], ?_⟩
  · have hstart := machine.regs_congr fun k hk => hagree.before k (Nat.le_of_lt hk)
    rw [← hstart, ← hagree.before a le_rfl]
    exact hprocessing.accepts
  · intro k hk hle
    rw [← hlock k hk hle]
    exact hprocessing.busy k hk hle
  · rw [← hlast]
    exact ⟨hready.1 ▸ htransfer.1, htransfer.2.1, hready.2 ▸ htransfer.2.2⟩
  · intro t hlt hle _
    rw [hlock t hlt hle]

/-! ## A different sample shows in the outcome -/

def refusalStatuses : List (BitVec 8) := [statusRingDenied, statusCapDenied, statusPolicyDenied]

def lookupStatuses : List (BitVec 8) := [statusTimeout, statusOk, statusSequenceError]

/-- The statuses a request can still be answered with. -/
def possibleStatuses (regs : Registers) : List (BitVec 8) :=
  match regs.state with
  | .auth => refusalStatuses ++ lookupStatuses
  | .fetch | .probe | .step => lookupStatuses
  | .audit | .respond => [regs.respStatus]
  | .unused => [statusInvalidHeader]
  | .idle | .validate =>
      [statusInvalidHeader, statusCrcMismatch] ++ refusalStatuses ++ lookupStatuses

/-- The edges of a request only narrow what it can be answered with. -/
theorem possibleStatuses_edge {input : Inputs} {regs : Registers} (hrst : input.rstN)
    (hbusy : regs.state ≠ .idle) (hnext : (edge input regs).state ≠ .idle) :
    possibleStatuses (edge input regs) ⊆ possibleStatuses regs := by
  rw [edge_of_phase hrst] at hnext ⊢
  change (phaseEdge input regs).state ≠ .idle at hnext
  change possibleStatuses (phaseEdge input regs) ⊆ _
  cases hphase : regs.state <;> simp only [phaseEdge, hphase] at hnext ⊢
  case idle => exact absurd hphase hbusy
  case validate =>
      unfold validateEdge
      split_ifs <;> simp only [possibleStatuses, hphase] <;> decide
  case auth => unfold authEdge; split_ifs <;> simp only [possibleStatuses, hphase] <;> decide
  case fetch => unfold fetchEdge; split_ifs <;> simp only [possibleStatuses, hphase] <;> decide
  case probe => unfold probeEdge; split_ifs <;> simp only [possibleStatuses, hphase] <;> decide
  case step => simp only [possibleStatuses, stepEdge, hphase]; exact List.Subset.refl _
  case audit =>
      unfold auditEdge
      split_ifs <;> simp only [possibleStatuses, hphase] <;> exact List.Subset.refl _
  case respond =>
      obtain ⟨cycles, seen, heq⟩ := respondEdge_of_busy hnext
      simp only [heq, possibleStatuses, hphase]
      exact List.Subset.refl _
  case unused => simp only [possibleStatuses, unusedEdge, hphase]; exact List.Subset.refl _

theorem Answers.respond (hanswers : Answers right a r) :
    (machine.regs right r).state = .respond :=
  ((responseTransfer_iff (regs_coherent right r)).mp hanswers.2).2.1

/-- A request is answered with a status that was possible at each of its edges. -/
theorem Answers.status_mem (hanswers : Answers right a r) {k : Nat} (hlt : a < k) (hle : k ≤ r) :
    (machine.regs right r).respStatus ∈ possibleStatuses (machine.regs right k) := by
  have hsubset :
      possibleStatuses (machine.regs right r) ⊆ possibleStatuses (machine.regs right k) :=
    hanswers.1.preserves
      (fun regs => possibleStatuses regs ⊆ possibleStatuses (machine.regs right k))
      (fun input regs hrst hbusy hnext hinv =>
        List.Subset.trans (possibleStatuses_edge hrst hbusy hnext) hinv)
      hlt hle (List.Subset.refl _)
  apply hsubset
  simp [possibleStatuses, hanswers.respond]

/-- No status can be given on both sides. -/
def StatusesApart (left right : Registers) : Prop :=
  ∀ status ∈ possibleStatuses left, status ∉ possibleStatuses right

theorem statusesApart_validate {left right : Inputs} {regs : Registers} (hleft : left.rstN)
    (hright : right.rstN) (hphase : regs.state = .validate)
    (hverdict : validateVerdict left.req ≠ validateVerdict right.req) :
    StatusesApart (edge left regs) (edge right regs) := by
  rw [edge_of_phase hleft, edge_of_phase hright]
  simp only [phaseEdge, hphase, validateEdge_eq]
  unfold validateVerdict at hverdict ⊢
  split_ifs at hverdict ⊢
  all_goals first
    | exact absurd rfl hverdict
    | simp only [StatusesApart, possibleStatuses, Registers.setCycleCounter]; decide

theorem statusesApart_auth {left right : Inputs} {regs : Registers} (hleft : left.rstN)
    (hright : right.rstN) (hphase : regs.state = .auth)
    (hverdict : authVerdict left.req ≠ authVerdict right.req) :
    StatusesApart (edge left regs) (edge right regs) := by
  rw [edge_of_phase hleft, edge_of_phase hright]
  simp only [phaseEdge, hphase, authEdge_eq]
  unfold authVerdict at hverdict ⊢
  split_ifs at hverdict ⊢
  all_goals first
    | exact absurd rfl hverdict
    | simp only [StatusesApart, possibleStatuses, Registers.setCycleCounter]; decide

/-- The probe loop ended at its limit with this count. -/
def LimitedAt (count : Nat) (regs : Registers) : Prop :=
  (regs.state = .audit ∨ regs.state = .respond) ∧
    regs.respStatus = statusSequenceError ∧ regs.probeCount.toNat = count

/-- The probe loop went past this count: still in it, or ended otherwise. -/
def WentPast (count : Nat) (regs : Registers) : Prop :=
  match regs.state with
  | .fetch | .probe | .step => count ≤ regs.probeCount.toNat
  | .audit | .respond =>
      regs.respStatus = statusSequenceError → regs.probeCount.toNat ≠ count
  | .idle | .validate | .auth | .unused => False

theorem limitedAt_edge {count : Nat} {input : Inputs} {regs : Registers} (hrst : input.rstN)
    (hnext : (edge input regs).state ≠ .idle) (hlimited : LimitedAt count regs) :
    LimitedAt count (edge input regs) := by
  obtain ⟨hphase, hstatus, hcount⟩ := hlimited
  rw [edge_of_phase hrst] at hnext ⊢
  change (phaseEdge input regs).state ≠ .idle at hnext
  change LimitedAt count (phaseEdge input regs)
  rcases hphase with hphase | hphase <;> simp only [phaseEdge, hphase] at hnext ⊢
  · unfold auditEdge
    split_ifs
    · exact ⟨Or.inr rfl, hstatus, hcount⟩
    · exact ⟨Or.inl hphase, hstatus, hcount⟩
  · obtain ⟨cycles, seen, heq⟩ := respondEdge_of_busy hnext
    rw [heq]
    exact ⟨Or.inr hphase, hstatus, hcount⟩

theorem wentPast_edge {count : Nat} (hpos : 0 < count) {input : Inputs} {regs : Registers}
    (hrst : input.rstN) (hnext : (edge input regs).state ≠ .idle) (hpast : WentPast count regs) :
    WentPast count (edge input regs) := by
  rw [edge_of_phase hrst] at hnext ⊢
  change (phaseEdge input regs).state ≠ .idle at hnext
  change WentPast count (phaseEdge input regs)
  cases hphase : regs.state <;> simp only [WentPast, hphase] at hpast <;>
    simp only [phaseEdge, hphase] at hnext ⊢
  case fetch =>
      unfold fetchEdge
      split_ifs
      · exact hpast
      · intro htimeout
        exact absurd (show statusTimeout = statusSequenceError from htimeout) (by decide)
  case probe =>
      have hbound := regs.probeCount.isLt
      have hsucc : (regs.probeCount + 1).toNat = (regs.probeCount.toNat + 1) % 2 ^ 8 := by
        rw [BitVec.toNat_add]
        rfl
      unfold probeEdge
      split_ifs with hhit hlimit
      · intro hok
        exact absurd (show statusOk = statusSequenceError from hok) (by decide)
      · intro _
        change (regs.probeCount + 1).toNat ≠ count
        omega
      · -- below the limit the count has room
        have hroom := input.req.probeLimit.isLt
        rw [ge_iff_le, BitVec.le_def] at hlimit
        change count ≤ (regs.probeCount + 1).toNat
        omega
  case step => exact hpast
  case audit =>
      unfold auditEdge
      split_ifs
      · exact hpast
      · simpa only [WentPast, hphase] using hpast
  case respond =>
      obtain ⟨cycles, seen, heq⟩ := respondEdge_of_busy hnext
      rw [heq]
      simpa only [WentPast, hphase] using hpast

/-- A missed probe at its limit ends the loop with the count it has then. -/
theorem limitedAt_probe {input : Inputs} {regs : Registers} (hrst : input.rstN)
    (hphase : regs.state = .probe) (hmiss : ¬ simdHit input regs)
    (hlimit : regs.probeCount ≥ input.req.probeLimit) :
    LimitedAt (regs.probeCount + 1).toNat (edge input regs) := by
  rw [edge_of_phase hrst]
  simp only [phaseEdge, hphase, probeEdge, if_neg hmiss, if_pos hlimit]
  exact ⟨Or.inl rfl, rfl, rfl⟩

/-- A missed probe below its limit goes past that count. -/
theorem wentPast_probe {input : Inputs} {regs : Registers} (hrst : input.rstN)
    (hphase : regs.state = .probe) (hmiss : ¬ simdHit input regs)
    (hlimit : ¬ regs.probeCount ≥ input.req.probeLimit) :
    0 < (regs.probeCount + 1).toNat ∧ WentPast (regs.probeCount + 1).toNat (edge input regs) := by
  constructor
  · have hroom := input.req.probeLimit.isLt
    have hsucc : (regs.probeCount + 1).toNat = (regs.probeCount.toNat + 1) % 2 ^ 8 := by
      rw [BitVec.toNat_add]
      rfl
    rw [ge_iff_le, BitVec.le_def] at hlimit
    omega
  · rw [edge_of_phase hrst]
    simp only [phaseEdge, hphase, probeEdge, if_neg hmiss, if_neg hlimit]
    exact Nat.le_refl _

/-- A request that ended at its limit is not answered as one that went past it. -/
theorem limit_shows (hleft : Answers left a l) (hright : Answers right a r) {k count : Nat}
    (hlt : a < k) (hlk : k ≤ l) (hrk : k ≤ r) (hpos : 0 < count)
    (hlimited : LimitedAt count (machine.regs left k))
    (hpast : WentPast count (machine.regs right k))
    (hstatus : (machine.regs left l).respStatus = (machine.regs right r).respStatus) :
    (machine.regs left l).auditRecord ≠ (machine.regs right r).auditRecord := by
  intro hrecord
  have hend : LimitedAt count (machine.regs left l) :=
    hleft.1.preserves (LimitedAt count)
      (fun _ _ hrst _ hnext hlimited => limitedAt_edge hrst hnext hlimited) hlt hlk hlimited
  have hother : WentPast count (machine.regs right r) :=
    hright.1.preserves (WentPast count)
      (fun _ _ hrst _ hnext hpast => wentPast_edge hpos hrst hnext hpast) hlt hrk hpast
  obtain ⟨-, hlimitStatus, hcount⟩ := hend
  simp only [WentPast, hright.respond] at hother
  apply hother (hstatus.symm.trans hlimitStatus)
  have hprobes : (machine.regs left l).auditProbeCount = (machine.regs right r).auditProbeCount :=
    congrArg AuditRecord.probeCount hrecord
  rw [(regs_recorded left l hleft.respond).2.1, (regs_recorded right r hright.respond).2.1]
    at hprobes
  rw [← hprobes, hcount]

/-- The response phase keeps the audit record. -/
theorem Answers.auditRecord_eq (hanswers : Answers right a r) {k : Nat} (hlt : a < k)
    (hle : k ≤ r) (hrespond : (machine.regs right k).state = .respond) :
    (machine.regs right r).auditRecord = (machine.regs right k).auditRecord := by
  refine (hanswers.1.preserves (fun regs => regs.state = .respond ∧
    regs.auditRecord = (machine.regs right k).auditRecord) ?_ hlt hle ⟨hrespond, rfl⟩).2
  rintro input regs hrst - hnext ⟨hphase, hrecord⟩
  rw [edge_of_phase hrst] at hnext ⊢
  change (phaseEdge input regs).state ≠ .idle at hnext
  simp only [phaseEdge, hphase] at hnext ⊢
  obtain ⟨cycles, seen, heq⟩ := respondEdge_of_busy hnext
  rw [heq]
  exact ⟨hphase, hrecord⟩

/-- The audit phase copies the fields into the record. -/
theorem auditRecord_of_audit {input : Inputs} {regs : Registers} (hrst : input.rstN)
    (hphase : regs.state = .audit) :
    (edge input regs).auditRecord.sequence = input.req.sequence ∧
      (edge input regs).auditRecord.registryId = input.req.registryId := by
  rw [edge_of_phase hrst]
  simp only [phaseEdge, hphase]
  unfold auditEdge
  split_ifs <;> exact ⟨rfl, rfl⟩

/-- A different sample at `k`, with the runs in lockstep until there, and both
requests in flight past it. -/
structure FirstDifference (left right : Nat → Inputs) (a l r k : Nat) : Prop where
  after : a < k
  left_past : k + 1 ≤ l
  right_past : k + 1 ≤ r
  regs_eq : machine.regs left k = machine.regs right k
  differs : ¬ SameSample (machine.regs left k) (left k) (right k)

theorem exists_firstDifference (hagree : AgreeExceptRequest left right a)
    (hleft : Answers left a l) (hright : Answers right a r)
    (hdiffers : ¬ SamplesAgree left right a l) : ∃ k, FirstDifference left right a l r k := by
  classical
  have hsome : ∃ k, a < k ∧ k ≤ l ∧ ¬ SameSample (machine.regs left k) (left k) (right k) := by
    simpa only [SamplesAgree, not_forall, exists_prop] using hdiffers
  obtain ⟨hafter, hle, hdiffers⟩ := Nat.find_spec hsome
  have hbefore : ∀ j, a < j → j < Nat.find hsome →
      SameSample (machine.regs left j) (left j) (right j) := by
    intro j hj hlt
    by_contra hother
    exact Nat.find_min hsome hlt ⟨hj, by omega, hother⟩
  generalize Nat.find hsome = k at hafter hle hdiffers hbefore
  have hlock : ∀ t, a < t → t ≤ k → machine.regs left t = machine.regs right t :=
    fun t hlt htk => lockstep_of_samples hagree hleft.1 hlt (by omega)
      fun j hj hjt => hbefore j hj (by omega)
  -- the response phase reads no request field, so it is not where the samples differ
  have hphase : (machine.regs left k).state ≠ .respond := by
    intro hrespond
    exact hdiffers (by simp only [SameSample, hrespond])
  refine ⟨k, hafter, ?_, ?_, hlock k hafter le_rfl, hdiffers⟩
  · rcases Nat.lt_or_eq_of_le hle with hlt | rfl
    · exact hlt
    · exact absurd hleft.respond hphase
  · by_contra hshort
    rcases Nat.lt_or_eq_of_le (show r ≤ k by omega) with hlt | rfl
    · have hbusy := hleft.1.busy (r + 1) (Nat.lt_succ_of_lt hright.1.lt) (by omega)
      rw [hlock (r + 1) (Nat.lt_succ_of_lt hright.1.lt) hlt] at hbusy
      exact hbusy hright.idle_succ
    · exact hphase ((hlock r hafter le_rfl).symm ▸ hright.respond)

section FirstDifference

variable {k : Nat} (hdiff : FirstDifference left right a l r k)

include hdiff

theorem FirstDifference.left_rst (hleft : Answers left a l) : (left k).rstN :=
  rst_of_busy (hleft.1.busy (k + 1) (Nat.lt_succ_of_lt hdiff.after) hdiff.left_past)

theorem FirstDifference.right_rst (hright : Answers right a r) : (right k).rstN :=
  rst_of_busy (hright.1.busy (k + 1) (Nat.lt_succ_of_lt hdiff.after) hdiff.right_past)

theorem FirstDifference.right_succ :
    machine.regs right (k + 1) = edge (right k) (machine.regs left k) := by
  rw [hdiff.regs_eq]
  rfl

/-- Two requests that can no longer be answered alike are not. -/
theorem FirstDifference.not_apart (hleft : Answers left a l) (hright : Answers right a r)
    (hstatus : (machine.regs left l).respStatus = (machine.regs right r).respStatus) :
    ¬ StatusesApart (edge (left k) (machine.regs left k))
      (edge (right k) (machine.regs left k)) := by
  intro hapart
  have hlt := Nat.lt_succ_of_lt hdiff.after
  rw [← hdiff.right_succ] at hapart
  refine hapart _ (hleft.status_mem hlt hdiff.left_past) ?_
  rw [hstatus]
  exact hright.status_mem hlt hdiff.right_past

/-- A probe without a hit shows whether it reached its limit. -/
theorem FirstDifference.limit_iff (hagree : AgreeExceptRequest left right a)
    (hleft : Answers left a l) (hright : Answers right a r)
    (hphase : (machine.regs left k).state = .probe)
    (hmiss : ¬ simdHit (left k) (machine.regs left k))
    (hstatus : (machine.regs left l).respStatus = (machine.regs right r).respStatus)
    (hrecord : (machine.regs left l).auditRecord = (machine.regs right r).auditRecord) :
    (machine.regs left k).probeCount ≥ (left k).req.probeLimit ↔
      (machine.regs left k).probeCount ≥ (right k).req.probeLimit := by
  have hmiss' : ¬ simdHit (right k) (machine.regs left k) := by
    rw [hagree.after k]
    exact hmiss
  have hlt := Nat.lt_succ_of_lt hdiff.after
  constructor
  · intro hlimit
    by_contra hlimit'
    have hlimited : LimitedAt _ (machine.regs left (k + 1)) :=
      limitedAt_probe (hdiff.left_rst hleft) hphase hmiss hlimit
    obtain ⟨hpos, hpast⟩ := wentPast_probe (hdiff.right_rst hright) hphase hmiss' hlimit'
    rw [← hdiff.right_succ] at hpast
    exact limit_shows hleft hright hlt hdiff.left_past hdiff.right_past hpos hlimited hpast
      hstatus hrecord
  · intro hlimit'
    by_contra hlimit
    have hlimited := limitedAt_probe (hdiff.right_rst hright) hphase hmiss' hlimit'
    obtain ⟨hpos, hpast⟩ := wentPast_probe (hdiff.left_rst hleft) hphase hmiss hlimit
    rw [← hdiff.right_succ] at hlimited
    exact limit_shows hright hleft hlt hdiff.right_past hdiff.left_past hpos hlimited hpast
      hstatus.symm hrecord.symm

/-- The fields are in the audit record after the audit phase's edge, and that
record is presented or kept for good. -/
theorem FirstDifference.auditFields_eq (hagree : AgreeExceptRequest left right a)
    (hleft : Answers left a l) (hright : Answers right a r)
    (hphase : (machine.regs left k).state = .audit)
    (hrecord : (machine.regs left l).auditRecord = (machine.regs right r).auditRecord)
    (hpresented : ∀ t, a < t → t ≤ l → (machine.regs left t).auditValid →
      (machine.regs left t).auditRecord = (machine.regs right t).auditRecord) :
    (left k).req.sequence = (right k).req.sequence ∧
      (left k).req.registryId = (right k).req.registryId := by
  have hlt := Nat.lt_succ_of_lt hdiff.after
  have hleftRst := hdiff.left_rst hleft
  have hrightRst := hdiff.right_rst hright
  have hleftNext : machine.regs left (k + 1) = edge (left k) (machine.regs left k) := rfl
  have hready : (left k).auditReady = (right k).auditReady := by rw [hagree.after k]
  have hsame : (machine.regs left (k + 1)).auditRecord =
      (machine.regs right (k + 1)).auditRecord := by
    cases hconsumed : (left k).auditReady with
    | false =>
        apply hpresented (k + 1) hlt hdiff.left_past
        rw [hleftNext, edge_of_phase hleftRst]
        simp [phaseEdge, hphase, auditEdge, hconsumed, Registers.setCycleCounter]
    | true =>
        have hleftRespond : (machine.regs left (k + 1)).state = .respond := by
          rw [hleftNext, edge_of_phase hleftRst]
          simp [phaseEdge, hphase, auditEdge, hconsumed, Registers.setCycleCounter]
        have hrightRespond : (machine.regs right (k + 1)).state = .respond := by
          rw [hdiff.right_succ, edge_of_phase hrightRst]
          simp [phaseEdge, hphase, auditEdge, ← hready, hconsumed, Registers.setCycleCounter]
        rw [← hleft.auditRecord_eq hlt hdiff.left_past hleftRespond, hrecord,
          hright.auditRecord_eq hlt hdiff.right_past hrightRespond]
  rw [hleftNext, hdiff.right_succ] at hsame
  have hleftFields := auditRecord_of_audit hleftRst hphase
  have hrightFields := auditRecord_of_audit hrightRst hphase
  rw [hsame] at hleftFields
  exact ⟨hleftFields.1.symm.trans hrightFields.1, hleftFields.2.symm.trans hrightFields.2⟩

end FirstDifference

theorem samplesAgree_of_sameOutcome (hagree : AgreeExceptRequest left right a)
    (hleft : Answers left a l) (houtcome : SameOutcome left right a l) :
    SamplesAgree left right a l := by
  obtain ⟨r, hright, hresponse, hrecord, hpresented⟩ := houtcome
  by_contra hdisagree
  obtain ⟨k, hdiff⟩ := exists_firstDifference hagree hleft hright hdisagree
  have hstatus : (machine.regs left l).respStatus = (machine.regs right r).respStatus :=
    congrArg Response.status hresponse
  have hapart := hdiff.not_apart hleft hright hstatus
  have hdiffers := hdiff.differs
  cases hphase : (machine.regs left k).state <;> simp only [SameSample, hphase] at hdiffers
  case validate =>
      exact hapart (statusesApart_validate (hdiff.left_rst hleft) (hdiff.right_rst hright) hphase
        hdiffers)
  case auth =>
      exact hapart (statusesApart_auth (hdiff.left_rst hleft) (hdiff.right_rst hright) hphase
        hdiffers)
  case probe =>
      obtain ⟨hmiss, hlimits⟩ := not_or.mp hdiffers
      exact hlimits (hdiff.limit_iff hagree hleft hright hphase hmiss hstatus hrecord)
  case audit =>
      exact hdiffers (hdiff.auditFields_eq hagree hleft hright hphase hrecord hpresented)
  all_goals exact hdiffers trivial

/-- The outcome of a request is independent of changes to its fields after its
acceptance exactly where no phase reads a changed field differently. -/
theorem sameOutcome_iff {left right : Nat → Inputs} {a l : Nat}
    (hagree : AgreeExceptRequest left right a) (hanswers : Answers left a l) :
    SameOutcome left right a l ↔ SamplesAgree left right a l :=
  ⟨samplesAgree_of_sameOutcome hagree hanswers, sameOutcome_of_samplesAgree hagree hanswers⟩

/-! ## A request answered with other fields than it was accepted with -/

/-- A request that its ring does not permit, over a table that holds its key. -/
def deniedRequest : Inputs where
  rstN := true
  reqValid := true
  req := ⟨1, typeIndexQuery, true, false, true, true, 7, 0, 0, 0⟩
  tableControlBytes := 0x80
  tableGeneration := 5
  tableBaseResolvedId := 0x2000
  tableLookupValid := true
  respReady := true
  auditReady := true

/-- The same request with `req` at the ports after its acceptance. -/
def thenDriven (req : Request) (t : Nat) : Inputs :=
  { deniedRequest with req := if t = 0 then deniedRequest.req else req }

theorem agree_thenDriven (req : Request) :
    AgreeExceptRequest (fun _ => deniedRequest) (thenDriven req) 0 := by
  refine ⟨fun k hk => ?_, fun k => rfl⟩
  obtain rfl := Nat.le_zero.mp hk
  rfl

theorem deniedRequest_answers : Answers (fun _ => deniedRequest) 0 5 := by
  refine ⟨⟨by decide, by decide, fun k hlt hle => ?_⟩, by decide⟩
  interval_cases k <;> decide

/-- Fields no phase reads may change. -/
theorem sameOutcome_expectedGeneration :
    SameOutcome (fun _ => deniedRequest)
      (thenDriven { deniedRequest.req with expectedGeneration := 6 }) 0 5 := by
  refine (sameOutcome_iff (agree_thenDriven _) deniedRequest_answers).mpr fun k hlt _ => ?_
  have hdriven : thenDriven { deniedRequest.req with expectedGeneration := 6 } k =
      { deniedRequest with req := { deniedRequest.req with expectedGeneration := 6 } } := by
    rw [thenDriven, if_neg (by omega)]
  rw [hdriven]
  cases hphase : (machine.regs (fun _ => deniedRequest) k).state <;>
    simp [SameSample, hphase, validateVerdict, authVerdict]

/-- A requester that raises `req_ring_ok` after acceptance is answered OK where
the request as accepted is denied, and the audit record carries the new sequence. -/
theorem denied_request_answered :
    AgreeExceptRequest (fun _ => deniedRequest)
        (thenDriven { deniedRequest.req with ringOk := true, sequence := 2 }) 0 ∧
      Answers (fun _ => deniedRequest) 0 5 ∧
      Answers (thenDriven { deniedRequest.req with ringOk := true, sequence := 2 }) 0 7 ∧
      (machine.regs (fun _ => deniedRequest) 5).response.status = statusRingDenied ∧
      (machine.regs (thenDriven { deniedRequest.req with ringOk := true, sequence := 2 })
        7).response.status = statusOk ∧
      (machine.regs (thenDriven { deniedRequest.req with ringOk := true, sequence := 2 })
        7).auditRecord.sequence = 2 := by
  refine ⟨agree_thenDriven _, deniedRequest_answers,
    ⟨⟨by decide, by decide, fun k hlt hle => ?_⟩, by decide⟩, by decide, by decide, by decide⟩
  interval_cases k <;> decide

end Accelerator

end Atarix
