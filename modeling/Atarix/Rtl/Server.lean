import Atarix.Rtl.Generation
import Atarix.Rtl.Lookup

/-! # The accelerator as a server

Without clock and registers the accelerator is a function from requests to answers:
the gates refuse, and what they let pass is searched. A run answers its requests one
after the other with that function, and each of them at a time that the answer and
the consumers determine.
-/

namespace Atarix

namespace Accelerator

/-! ## The abstract server -/

/-- The status with which a gate refuses a request. -/
def gateVerdict (req : Request) : Option (BitVec 8) :=
  (validateVerdict req).or (authVerdict req)

/-- What the server answers to a request with a base. -/
def answer (table : Table) (generation base : BitVec 32) (req : Request) : LookupResult :=
  (gateVerdict req).elim (search table generation base req.keyHash req.probeLimit)
    fun status => ⟨status, 0xFFFFFFFF, 0, 0, 0⟩

/-- A run without reset, in which the table stays as it is and the requester holds its fields
while the request accepted at `a` is in flight. -/
structure Environment (table : Table) (generation : BitVec 32) (inputs : Nat → Inputs) (a : Nat) :
    Prop where
  rst : ∀ t, (inputs t).rstN
  held : ∀ t, Processing inputs a t →
    Holds table generation (inputs a).req (inputs t) (machine.regs inputs t)

variable {table : Table} {generation : BitVec 32} {inputs : Nat → Inputs} {a t : Nat}

theorem gateVerdict_eq_none_iff (req : Request) : gateVerdict req = none ↔ req.Admitted := by
  have hgates : req.Admitted ↔ (req.type = typeIndexQuery ∧ req.crcOk) ∧
      req.ringOk ∧ req.capabilityOk ∧ req.policyOk :=
    ⟨fun ⟨htype, hcrc, hring, hcapability, hpolicy⟩ =>
        ⟨⟨htype, hcrc⟩, hring, hcapability, hpolicy⟩,
      fun ⟨⟨htype, hcrc⟩, hring, hcapability, hpolicy⟩ =>
        ⟨htype, hcrc, hring, hcapability, hpolicy⟩⟩
  rw [hgates, gateVerdict, Option.or_eq_none_iff]
  unfold validateVerdict authVerdict
  split_ifs <;> simp_all

/-! ## Requests in flight -/

/-- Out of reset a request is in flight until its response transfers. -/
theorem processing_of_awaits (hrst : ∀ t, (inputs t).rstN)
    (haccepts : Accepts (inputs a) (machine.regs inputs a)) (hlt : a < t)
    (hawaits : AwaitsResponse inputs a t) : Processing inputs a t := by
  induction t, hlt using Nat.le_induction with
  | base =>
      refine ⟨Nat.lt_succ_self a, haccepts, fun k hk hle => ?_⟩
      obtain rfl : k = a + 1 := by omega
      rw [regs_succ_of_rst haccepts.1]
      simp [Registers.setCycleCounter, phaseEdge, haccepts.2.1, idleEdge, haccepts.2.2]
  | succ t hlt ih =>
      have hprocessing := ih fun k hk hkt => hawaits k hk (by omega)
      refine hprocessing.succ fun hrest => hawaits t hlt (Nat.lt_succ_self t) ?_
      exact responseTransfer_of_rest (regs_coherent inputs t) (hrst t)
        (hprocessing.busy t hlt le_rfl) hrest

/-- An admitted request is looked up. -/
theorem Environment.lookup_of_admitted (henvironment : Environment table generation inputs a)
    (haccepts : Accepts (inputs a) (machine.regs inputs a))
    (hadmitted : (inputs a).req.Admitted) :
    Lookup table generation (inputs a).tableBaseResolvedId (inputs a).req inputs a where
  accepts := haccepts
  fields := rfl
  base := rfl
  admitted := hadmitted
  held t hlt hawaits :=
    henvironment.held t (processing_of_awaits henvironment.rst haccepts hlt hawaits)

/-- A request that a gate refuses, by the phase it is in. -/
def Refusing (req : Request) (status : BitVec 8) (windows : Nat) (regs : Registers) : Prop :=
  windows = 0 ∧ match regs.state with
    | .validate => Cleared regs
    | .auth => validateVerdict req = none ∧ Cleared regs
    | .audit | .respond => regs.lookupResult 0 = ⟨status, 0xFFFFFFFF, 0, 0, 0⟩
    | _ => False

theorem Refusing.setCycleCounter {req : Request} {status : BitVec 8} {windows : Nat}
    {regs : Registers} (hrefusing : Refusing req status windows regs) (cycles : BitVec 32) :
    Refusing req status windows (regs.setCycleCounter cycles) := by
  obtain ⟨hwindows, hphases⟩ := hrefusing
  have hstate : (regs.setCycleCounter cycles).state = regs.state := rfl
  refine ⟨hwindows, ?_⟩
  cases hphase : regs.state <;> simp only [hstate, hphase] at hphases ⊢
  case validate => exact ⟨hphases.1, hphases.2, hphases.3⟩
  case auth => exact ⟨hphases.1, hphases.2.1, hphases.2.2, hphases.2.3⟩
  case audit => exact hphases
  case respond => exact hphases

theorem refused_result {regs : Registers} {status : BitVec 8} (hcleared : Cleared regs) :
    Registers.lookupResult { regs with respStatus := status, state := .audit } 0 =
      ⟨status, 0xFFFFFFFF, 0, 0, 0⟩ := by
  simp only [Registers.lookupResult, hcleared.resolvedId, hcleared.resolvedGeneration,
    hcleared.matchOffset]

/-- An edge of a refused request takes it one phase further. -/
theorem refusing_edge {req : Request} {status : BitVec 8} {windows : Nat} {input : Inputs}
    {regs : Registers} (hrst : input.rstN) (hfields : input.req = req)
    (hverdict : gateVerdict req = some status) (hbusy : (edge input regs).state ≠ .idle)
    (hrefusing : Refusing req status windows regs) :
    Refusing req status (windows + if regs.state = .probe then 1 else 0) (edge input regs) := by
  obtain ⟨rfl, hphases⟩ := hrefusing
  rw [edge_of_phase hrst] at hbusy ⊢
  change (phaseEdge input regs).state ≠ .idle at hbusy
  apply Refusing.setCycleCounter
  -- the other phases are none of a refused request
  cases hphase : regs.state <;> simp only [hphase] at hphases <;>
    simp only [phaseEdge, hphase, reduceCtorEq, if_false, Nat.add_zero] at hbusy ⊢
  case validate =>
      rw [validateEdge_eq, hfields]
      cases hvalidated : validateVerdict req with
      | none => exact ⟨rfl, hvalidated, hphases.1, hphases.2, hphases.3⟩
      | some refused =>
          rw [gateVerdict, hvalidated, Option.some_or] at hverdict
          obtain rfl := Option.some.inj hverdict
          exact ⟨rfl, refused_result hphases⟩
  case auth =>
      rw [authEdge_eq, hfields]
      rw [gateVerdict, hphases.1, Option.none_or] at hverdict
      rw [hverdict]
      exact ⟨rfl, refused_result hphases.2⟩
  case audit =>
      unfold auditEdge
      split_ifs <;> simp only [Refusing, hphase, true_and] <;> exact hphases
  case respond =>
      obtain ⟨cycles, seen, heq⟩ := respondEdge_of_busy hbusy
      rw [heq]
      simp only [Refusing, hphase, true_and]
      exact hphases

theorem Environment.refusing (henvironment : Environment table generation inputs a)
    (hprocessing : Processing inputs a t) {status : BitVec 8}
    (hverdict : gateVerdict (inputs a).req = some status) :
    Refusing (inputs a).req status (windowsCompared inputs a t) (machine.regs inputs t) := by
  induction t, hprocessing.lt using Nat.le_induction with
  | base =>
      obtain ⟨hrst, hidle, hvalid⟩ := hprocessing.accepts
      rw [windowsCompared_start hprocessing.accepts, regs_succ_of_rst hrst]
      simp only [phaseEdge, hidle, idleEdge, hvalid, if_true]
      exact ⟨rfl, rfl, rfl, rfl⟩
  | succ t hlt ih =>
      have hbefore := hprocessing.of_le hlt (Nat.le_succ t)
      have hbusy := hprocessing.busy (t + 1) (Nat.lt_succ_of_lt hlt) le_rfl
      rw [windowsCompared_succ hlt]
      exact refusing_edge (henvironment.rst t) (henvironment.held t hbefore).fields hverdict hbusy
        (ih hbefore)

/-- What the result registers hold once a request is decided. -/
theorem Environment.result (henvironment : Environment table generation inputs a)
    (hprocessing : Processing inputs a t)
    (hdecided : (machine.regs inputs t).state = .audit ∨ (machine.regs inputs t).state = .respond) :
    (machine.regs inputs t).lookupResult (windowsCompared inputs a t) =
      answer table generation (inputs a).tableBaseResolvedId (inputs a).req := by
  cases hverdict : gateVerdict (inputs a).req with
  | none =>
      have hadmitted := (gateVerdict_eq_none_iff _).mp hverdict
      have hlookup := henvironment.lookup_of_admitted hprocessing.accepts hadmitted
      have hsearching := (hlookup.searching hprocessing.lt hprocessing.awaits).2
      rw [answer, hverdict, Option.elim_none]
      rcases hdecided with hphase | hphase <;> simpa only [Searching, hphase] using hsearching
  | some status =>
      obtain ⟨hwindows, hphases⟩ := henvironment.refusing hprocessing hverdict
      rw [answer, hverdict, Option.elim_some, hwindows]
      rcases hdecided with hphase | hphase <;> simpa only [hphase] using hphases

/-! ## When a request is decided -/

/-- The edges from acceptance to the audit phase, by the status a request ends with and the
windows it compares. -/
def edgesToAudit (status : BitVec 8) (windows : Nat) : Nat :=
  if status ∈ [statusInvalidHeader, statusCrcMismatch] then 2
  else if status ∈ [statusRingDenied, statusCapDenied, statusPolicyDenied] then 3
  else if status = statusTimeout then 4 + 3 * windows
  else 2 + 3 * windows

section Timing

variable (inputs) (a t)

/-- The clock of a request accepted at `a` that has compared `windows` windows. -/
def Timed (windows : Nat) (regs : Registers) : Prop :=
  match regs.state with
  | .validate => t = a + 1 ∧ windows = 0
  | .auth => t = a + 2 ∧ windows = 0
  | .fetch => t = a + 3 + 3 * windows
  | .probe => t = a + 4 + 3 * windows
  | .step => t = a + 2 + 3 * windows
  | .audit => a + edgesToAudit regs.respStatus windows ≤ t ∧
      ∀ k, a + edgesToAudit regs.respStatus windows ≤ k → k ≤ t →
        (machine.regs inputs k).state = .audit
  | .respond => True
  | .idle | .unused => False

end Timing

/-- A request that enters the audit phase does so when its status says. -/
theorem timed_audit {windows : Nat} {regs : Registers}
    (hregs : machine.regs inputs (t + 1) = regs) (hphase : regs.state = .audit)
    (hedges : t + 1 = a + edgesToAudit regs.respStatus windows) :
    Timed inputs a (t + 1) windows regs := by
  simp only [Timed, hphase]
  refine ⟨hedges.ge, fun k hk hle => ?_⟩
  obtain rfl : k = t + 1 := by omega
  rw [hregs]
  exact hphase

theorem validateVerdict_mem {req : Request} {status : BitVec 8}
    (hverdict : validateVerdict req = some status) (windows : Nat) :
    edgesToAudit status windows = 2 := by
  unfold validateVerdict at hverdict
  split_ifs at hverdict
  all_goals obtain rfl := Option.some.inj hverdict
  all_goals rfl

theorem authVerdict_mem {req : Request} {status : BitVec 8}
    (hverdict : authVerdict req = some status) (windows : Nat) :
    edgesToAudit status windows = 3 := by
  unfold authVerdict at hverdict
  split_ifs at hverdict
  all_goals obtain rfl := Option.some.inj hverdict
  all_goals rfl

/-- The audit phase goes on, or the request has gone through it. -/
theorem timed_audit_succ {windows : Nat} (hrst : (inputs t).rstN)
    (haudit : (machine.regs inputs t).state = .audit)
    (hsince : a + edgesToAudit (machine.regs inputs t).respStatus windows ≤ t)
    (hall : ∀ k, a + edgesToAudit (machine.regs inputs t).respStatus windows ≤ k → k ≤ t →
      (machine.regs inputs k).state = .audit) :
    Timed inputs a (t + 1) windows (machine.regs inputs (t + 1)) := by
  have hnext := regs_succ_of_rst hrst
  simp only [phaseEdge, haudit] at hnext
  unfold auditEdge at hnext
  split_ifs at hnext
  · rw [hnext]
    trivial
  · -- a stalled record leaves the status that the bound is about
    have hstatus : (machine.regs inputs (t + 1)).respStatus =
        (machine.regs inputs t).respStatus := by
      rw [hnext]
      rfl
    have hstays : (machine.regs inputs (t + 1)).state = .audit := by
      rw [hnext]
      exact haudit
    simp only [Timed, hstays, hstatus]
    refine ⟨Nat.le_succ_of_le hsince, fun k hk hle => ?_⟩
    rcases Nat.le_succ_iff.mp hle with hle | rfl
    · exact hall k hk hle
    · exact hstays

/-- An edge of a request in flight keeps its clock. -/
theorem timed_edge {windows : Nat} (hrst : (inputs t).rstN)
    (hbusy : (machine.regs inputs (t + 1)).state ≠ .idle)
    (htimed : Timed inputs a t windows (machine.regs inputs t)) :
    Timed inputs a (t + 1)
      (windows + if (machine.regs inputs t).state = .probe then 1 else 0)
      (machine.regs inputs (t + 1)) := by
  have hnext := regs_succ_of_rst hrst
  -- up to the audit phase every phase lasts one edge, so the clock tells the phase
  cases hphase : (machine.regs inputs t).state <;> simp only [Timed, hphase] at htimed <;>
    simp only [phaseEdge, hphase] at hnext <;>
    simp only [reduceCtorEq, if_true, if_false, Nat.add_zero]
  case validate =>
      obtain ⟨rfl, rfl⟩ := htimed
      rw [validateEdge_eq] at hnext
      cases hverdict : validateVerdict (inputs (a + 1)).req with
      | none =>
          rw [hnext, hverdict]
          exact ⟨rfl, rfl⟩
      | some status =>
          rw [hverdict] at hnext
          apply timed_audit rfl <;> rw [hnext]
          · rfl
          · exact congrArg (a + ·) (validateVerdict_mem hverdict 0).symm
  case auth =>
      obtain ⟨rfl, rfl⟩ := htimed
      rw [authEdge_eq] at hnext
      cases hverdict : authVerdict (inputs (a + 2)).req with
      | none =>
          rw [hnext, hverdict]
          rfl
      | some status =>
          rw [hverdict] at hnext
          apply timed_audit rfl <;> rw [hnext]
          · rfl
          · exact congrArg (a + ·) (authVerdict_mem hverdict 0).symm
  case fetch =>
      unfold fetchEdge at hnext
      split_ifs at hnext
      · rw [hnext]
        change t + 1 = _
        omega
      · apply timed_audit rfl <;> rw [hnext]
        · rfl
        · change t + 1 = a + (4 + 3 * windows)
          omega
  case probe =>
      unfold probeEdge at hnext
      split_ifs at hnext
      · apply timed_audit rfl <;> rw [hnext]
        · rfl
        · change t + 1 = a + (2 + 3 * (windows + 1))
          omega
      · apply timed_audit rfl <;> rw [hnext]
        · rfl
        · change t + 1 = a + (2 + 3 * (windows + 1))
          omega
      · rw [hnext]
        change t + 1 = _
        omega
  case step =>
      rw [hnext]
      change t + 1 = _
      omega
  case audit => exact timed_audit_succ hrst hphase htimed.1 htimed.2
  case respond =>
      have hstay : (respondEdge (inputs t) (machine.regs inputs t)).state ≠ .idle := by
        rw [hnext] at hbusy
        exact hbusy
      obtain ⟨cycles, seen, heq⟩ := respondEdge_of_busy hstay
      have hstays : (machine.regs inputs (t + 1)).state = .respond := by
        rw [hnext, heq]
        exact hphase
      simp only [Timed, hstays]

theorem Processing.timed (hprocessing : Processing inputs a t) :
    Timed inputs a t (windowsCompared inputs a t) (machine.regs inputs t) := by
  induction t, hprocessing.lt using Nat.le_induction with
  | base =>
      obtain ⟨hrst, hidle, hvalid⟩ := hprocessing.accepts
      rw [windowsCompared_start hprocessing.accepts, regs_succ_of_rst hrst]
      simp only [phaseEdge, hidle, idleEdge, hvalid, if_true]
      exact ⟨rfl, rfl⟩
  | succ t hlt ih =>
      have hbefore := hprocessing.of_le hlt (Nat.le_succ t)
      have hbusy := hprocessing.busy (t + 1) (Nat.lt_succ_of_lt hlt) le_rfl
      rw [windowsCompared_succ hlt]
      exact timed_edge (rst_of_busy hbusy) hbusy (ih hbefore)

/-- Out of reset every request is decided, whoever is ready. -/
theorem exists_audit (hrst : ∀ t, (inputs t).rstN)
    (haccepts : Accepts (inputs a) (machine.regs inputs a)) :
    ∃ t, Processing inputs a t ∧ (machine.regs inputs t).state = .audit := by
  have hstart := processing_of_awaits hrst haccepts (Nat.lt_succ_self a) fun k hk hlt => by omega
  have hphase : (machine.regs inputs (a + 1)).state ≠ .respond := by
    have htimed := hstart.timed
    intro hrespond
    have haudit := audit_of_respond (hrst a) hrespond
      (by rw [haccepts.2.1]; exact Phase.noConfusion)
    exact Phase.noConfusion (haccepts.2.1.symm.trans haudit)
  have hstep : ∀ t, Processing inputs a t ∧ (machine.regs inputs t).state ≠ .respond →
      (machine.regs inputs t).state ≠ .audit →
      (Processing inputs a (t + 1) ∧ (machine.regs inputs (t + 1)).state ≠ .respond) ∧
        edgesToRespond (machine.regs inputs (t + 1)) < edgesToRespond (machine.regs inputs t) := by
    rintro t ⟨hprocessing, hearly⟩ haudit
    have hbusy := hprocessing.busy t hprocessing.lt le_rfl
    refine ⟨⟨hprocessing.succ (busy_of_early (hrst t) hbusy hearly), ?_⟩,
      edgesToRespond_lt (hrst t) (fun h => absurd h haudit) hbusy hearly⟩
    exact fun hrespond => haudit (audit_of_respond (hrst t) hrespond hearly)
  obtain ⟨t, -, ⟨hprocessing, -⟩, haudit⟩ := Nat.exists_of_rank _ _
    (fun t => edgesToRespond (machine.regs inputs t)) hstep ⟨hstart, hphase⟩
  exact ⟨t, hprocessing, haudit⟩

/-! ## When a request is answered -/

/-- The audit phase is entered as many edges after acceptance as the answer says. -/
theorem Environment.audits (henvironment : Environment table generation inputs a)
    (haccepts : Accepts (inputs a) (machine.regs inputs a)) {result : LookupResult}
    (hresult : answer table generation (inputs a).tableBaseResolvedId (inputs a).req = result) :
    Processing inputs a (a + edgesToAudit result.status result.windows) ∧
      (machine.regs inputs (a + edgesToAudit result.status result.windows)).state = .audit := by
  obtain ⟨t, hprocessing, haudit⟩ := exists_audit henvironment.rst haccepts
  have htimed := hprocessing.timed
  have hdecided := henvironment.result hprocessing (.inl haudit)
  have hstatus := congrArg LookupResult.status (hdecided.trans hresult)
  have hwindows := congrArg LookupResult.windows (hdecided.trans hresult)
  simp only [Registers.lookupResult] at hstatus hwindows
  simp only [Timed, haudit, hstatus, hwindows] at htimed
  have hpos : 0 < edgesToAudit result.status result.windows := by
    unfold edgesToAudit
    split_ifs <;> omega
  exact ⟨hprocessing.of_le (by omega) htimed.1, htimed.2 _ le_rfl htimed.1⟩

/-- The free-running counter is the number of edges since reset. -/
theorem cycleCounter_eq (hrst : ∀ t, (inputs t).rstN) (t : Nat) :
    (machine.regs inputs t).cycleCounter = BitVec.ofNat 32 t := by
  induction t with
  | zero => rfl
  | succ t ih =>
      rw [regs_succ_of_rst (hrst t), BitVec.ofNat_add, ← ih]
      rfl

/-- The state of a request in the edges in which its response waits for the consumer. -/
structure Presents (inputs : Nat → Inputs) (a audited t : Nat) : Prop where
  processing : Processing inputs a t
  respond : (machine.regs inputs t).state = .respond
  valid : (machine.regs inputs t).respValid
  cycles : (machine.regs inputs t).respCycles = BitVec.ofNat 32 (audited + 1)

/-- A decided request presents its response two edges after its record is taken. -/
theorem presents_of_audit {audited : Nat} (hrst : ∀ t, (inputs t).rstN)
    (hprocessing : Processing inputs a audited)
    (haudit : (machine.regs inputs audited).state = .audit) (hready : (inputs audited).auditReady) :
    Presents inputs a audited (audited + 2) := by
  have hcoherent := regs_coherent inputs audited
  have hseen : (machine.regs inputs audited).responseSeen = false := by
    rw [hcoherent.seen_eq_valid]
    by_contra hvalid
    have hrespond := hcoherent.valid_respond (by simpa using hvalid)
    exact Phase.noConfusion (haudit.symm.trans hrespond)
  have hnext := regs_succ_of_rst (hrst audited)
  simp only [phaseEdge, haudit, auditEdge, hready, if_true] at hnext
  have hrespond : (machine.regs inputs (audited + 1)).state = .respond := by rw [hnext]; rfl
  -- the first edge of the respond phase only raises `resp_valid`
  have hlast := regs_succ_of_rst (hrst (audited + 1))
  have hunseen : (machine.regs inputs (audited + 1)).responseSeen = false := by
    rw [hnext]
    exact hseen
  simp only [phaseEdge, hrespond, respondEdge, hunseen, Bool.false_eq_true, not_false_eq_true,
    if_true] at hlast
  have hstays : (machine.regs inputs (audited + 2)).state = .respond := by
    rw [hlast]
    rfl
  refine ⟨(hprocessing.succ ?_).succ ?_, hstays, ?_, ?_⟩
  · rw [hrespond]
    exact Phase.noConfusion
  · rw [hstays]
    exact Phase.noConfusion
  · rw [hlast]
    rfl
  · rw [hlast]
    exact cycleCounter_eq hrst (audited + 1)

/-- A consumer that is not ready keeps the response waiting. -/
theorem Presents.succ {audited : Nat} (hrst : ∀ t, (inputs t).rstN)
    (hpresents : Presents inputs a audited t) (hready : ¬ (inputs t).respReady) :
    Presents inputs a audited (t + 1) := by
  have hnext := regs_succ_of_rst (hrst t)
  have hseen : (machine.regs inputs t).responseSeen = true := by
    rw [(regs_coherent inputs t).seen_eq_valid]
    exact hpresents.valid
  simp only [phaseEdge, hpresents.respond, respondEdge, hseen, not_true_eq_false, hready,
    if_false] at hnext
  have hstays : (machine.regs inputs (t + 1)).state = .respond := by
    rw [hnext]
    rfl
  refine ⟨hpresents.processing.succ ?_, hstays, ?_, ?_⟩
  · rw [hstays]
    exact Phase.noConfusion
  · rw [hnext]
    rfl
  · rw [hnext]
    exact hpresents.cycles

/-- When the response to a request transfers, and what it is: the audit phase is entered at a
distance that the answer alone determines, goes on until its consumer is ready, and two edges
later the response waits for its own consumer. -/
theorem response_time (henvironment : Environment table generation inputs a)
    (haccepts : Accepts (inputs a) (machine.regs inputs a)) {result : LookupResult}
    (hresult : answer table generation (inputs a).tableBaseResolvedId (inputs a).req = result)
    {audited last : Nat}
    (haudited : Nat.FirstFrom (fun k => (inputs k).auditReady)
      (a + edgesToAudit result.status result.windows) audited)
    (hlast : Nat.FirstFrom (fun k => (inputs k).respReady) (audited + 2) last) :
    Answers inputs a last ∧
      (machine.regs inputs last).lookupResult (windowsCompared inputs a last) = result ∧
      (machine.regs inputs last).respCycles = BitVec.ofNat 32 (audited + 1) ∧
      ∀ t, Answers inputs a t → t = last := by
  have hrst := henvironment.rst
  obtain ⟨hprocessing, haudit⟩ : Processing inputs a audited ∧
      (machine.regs inputs audited).state = .audit := by
    refine haudited.waits
      (fun t => Processing inputs a t ∧ (machine.regs inputs t).state = .audit)
      (henvironment.audits haccepts hresult) ?_
    rintro t ⟨hprocessing, haudit⟩ hready
    have hnext : (machine.regs inputs (t + 1)).state = .audit := by
      rw [regs_succ_of_rst (hrst t)]
      simp [Registers.setCycleCounter, phaseEdge, haudit, auditEdge, hready]
    exact ⟨hprocessing.succ (by rw [hnext]; exact Phase.noConfusion), hnext⟩
  have hpresents : Presents inputs a audited last := by
    refine hlast.waits (Presents inputs a audited)
      (presents_of_audit hrst hprocessing haudit haudited.holds) ?_
    exact fun t hpresents hready => hpresents.succ hrst hready
  have hanswers : Answers inputs a last :=
    ⟨hpresents.processing, hrst last, hpresents.valid, hlast.holds⟩
  refine ⟨hanswers, ?_, hpresents.cycles, fun t hother => hother.unique hanswers⟩
  exact (henvironment.result hpresents.processing (.inr hpresents.respond)).trans hresult

/-- A requester and consumers that never wait, over the table with every window occupied. -/
theorem occupied_environment (a : Nat) :
    Environment occupiedTable 9 (fun _ => occupiedLookup) a :=
  ⟨fun _ => rfl, fun _ _ => ⟨rfl, rfl, rfl, rfl, rfl⟩⟩

/-- A hit in the first window is answered seven edges after acceptance. -/
theorem response_time_occupied :
    Answers (fun _ => occupiedLookup) 0 7 ∧
      (machine.regs (fun _ => occupiedLookup) 7).lookupResult
        (windowsCompared (fun _ => occupiedLookup) 0 7) = ⟨statusOk, 1, 9, 2, 1⟩ := by
  have hanswer : answer occupiedTable 9 0xFFFFFFFF occupiedQuery = ⟨statusOk, 1, 9, 2, 1⟩ := by
    decide
  have haudited : Nat.FirstFrom (fun _ => occupiedLookup.auditReady) (0 + edgesToAudit statusOk 1)
      5 := by
    have hedges : 0 + edgesToAudit statusOk 1 = 5 := by decide
    rw [hedges]
    exact .here rfl
  have haccepts : Accepts occupiedLookup (machine.regs (fun _ => occupiedLookup) 0) :=
    ⟨rfl, rfl, rfl⟩
  have htime := response_time (occupied_environment 0) haccepts hanswer haudited (.here rfl)
  exact ⟨htime.1, htime.2.1⟩

/-! ## The whole run -/

/-- What a response says of a result at its port. -/
def LookupResult.ports (result : LookupResult) : BitVec 8 × BitVec 32 × BitVec 32 × BitVec 4 :=
  (result.status, result.resolvedId, result.resolvedGeneration, result.matchOffset)

/-- The requests accepted before `t`, with the base of each. -/
def requests (inputs : Nat → Inputs) : Nat → List (BitVec 32 × Request)
  | 0 => []
  | t + 1 => requests inputs t ++
      if Accepts (inputs t) (machine.regs inputs t) then
        [((inputs t).tableBaseResolvedId, (inputs t).req)]
      else []

/-- The responses transferred before `t`. -/
def responses (inputs : Nat → Inputs) : Nat → List (BitVec 8 × BitVec 32 × BitVec 32 × BitVec 4)
  | 0 => []
  | t + 1 => responses inputs t ++
      if ResponseTransfer (inputs t) (machine.regs inputs t) then
        [((machine.regs inputs t).respStatus, (machine.regs inputs t).respResolvedId,
          (machine.regs inputs t).respResolvedGeneration, (machine.regs inputs t).respMatchOffset)]
      else []

/-- What the server answers to requests. -/
def answers (table : Table) (generation : BitVec 32) (requests : List (BitVec 32 × Request)) :
    List (BitVec 8 × BitVec 32 × BitVec 32 × BitVec 4) :=
  requests.map fun request => (answer table generation request.1 request.2).ports

/-- All requests so far are answered, or all but the one in flight. -/
inductive Serves (table : Table) (generation : BitVec 32) (inputs : Nat → Inputs) (t : Nat) :
    Prop where
  | idle (hidle : (machine.regs inputs t).state = .idle)
      (hresponses : responses inputs t = answers table generation (requests inputs t))
  | busy (a : Nat) (earlier : List (BitVec 32 × Request)) (hprocessing : Processing inputs a t)
      (hrequests : requests inputs t =
        earlier ++ [((inputs a).tableBaseResolvedId, (inputs a).req)])
      (hresponses : responses inputs t = answers table generation earlier)

/-- By induction on the edges: an acceptance adds a request, a transfer its answer. -/
theorem serves (henvironment : ∀ a, Environment table generation inputs a) (t : Nat) :
    Serves table generation inputs t := by
  have hrst := (henvironment 0).rst
  induction t with
  | zero => exact .idle rfl rfl
  | succ t ih =>
      have hcoherent := regs_coherent inputs t
      cases ih with
      | idle hidle hresponses =>
          -- there is nothing that could transfer
          have hnone : ¬ ResponseTransfer (inputs t) (machine.regs inputs t) := fun htransfer =>
            Phase.noConfusion (hidle.symm.trans (hcoherent.valid_respond htransfer.2.1))
          have hsame : responses inputs (t + 1) = responses inputs t := by
            rw [responses, if_neg hnone, List.append_nil]
          by_cases haccepts : Accepts (inputs t) (machine.regs inputs t)
          · refine .busy t (requests inputs t) ?_ ?_ (hsame.trans hresponses)
            · exact processing_of_awaits hrst haccepts (Nat.lt_succ_self t)
                fun k hk hlt => by omega
            · rw [requests, if_pos haccepts]
          · have hrest : (machine.regs inputs (t + 1)).state = .idle := by
              by_contra hbusy
              exact haccepts (accepts_of_busy hidle hbusy)
            refine .idle hrest ?_
            rw [hsame, hresponses, requests, if_neg haccepts, List.append_nil]
      | busy a earlier hprocessing hrequests hresponses =>
          -- a busy machine accepts nothing, so at most one request is in flight
          have hbusy := hprocessing.busy t hprocessing.lt le_rfl
          have hnone : ¬ Accepts (inputs t) (machine.regs inputs t) := fun haccepts =>
            hbusy haccepts.2.1
          have hsame : requests inputs (t + 1) = requests inputs t := by
            rw [requests, if_neg hnone, List.append_nil]
          by_cases htransfer : ResponseTransfer (inputs t) (machine.regs inputs t)
          · have hphases := (responseTransfer_iff hcoherent).mp htransfer
            have hresult := congrArg LookupResult.ports
              ((henvironment a).result hprocessing (.inr hphases.2.1))
            refine .idle hphases.2.2 ?_
            rw [responses, if_pos htransfer, hresponses, hsame, hrequests, answers, answers,
              List.map_append, List.map_singleton, ← hresult]
            rfl
          · have hnext : (machine.regs inputs (t + 1)).state ≠ .idle := fun hrest =>
              htransfer (responseTransfer_of_rest hcoherent (hrst t) hbusy hrest)
            refine .busy a earlier (hprocessing.succ hnext) (hsame.trans hrequests) ?_
            rw [responses, if_neg htransfer, List.append_nil, hresponses]

/-- At every time of a run the responses are the answers of the abstract server to the requests
in their order, all of them but at most one that is in flight. -/
theorem server_refines (henvironment : ∀ a, Environment table generation inputs a) (t : Nat) :
    ∃ pending, pending.length ≤ 1 ∧
      answers table generation (requests inputs t) = responses inputs t ++ pending := by
  cases serves henvironment t with
  | idle _ hresponses =>
      refine ⟨[], Nat.zero_le 1, ?_⟩
      rw [hresponses, List.append_nil]
  | busy a earlier _ hrequests hresponses =>
      refine ⟨[(answer table generation (inputs a).tableBaseResolvedId (inputs a).req).ports],
        le_rfl, ?_⟩
      rw [hrequests, hresponses, answers, List.map_append]
      rfl

theorem server_refines_occupied :
    ∃ pending, pending.length ≤ 1 ∧
      answers occupiedTable 9 (requests (fun _ => occupiedLookup) 20) =
        responses (fun _ => occupiedLookup) 20 ++ pending :=
  server_refines occupied_environment 20

end Accelerator

end Atarix
