import Atarix.Rtl.Generation

/-! # What the audit record says of the response

`STATE_AUDIT` writes the record again at every edge on which the sink stalls,
from the ports. With the request fields held that is the same record each time,
except for the generation, which is the table's at that edge.
-/

namespace Atarix

namespace Accelerator

/-- The audit sink stalls at this edge. -/
def Stalls (input : Inputs) (regs : Registers) : Prop :=
  input.rstN ∧ regs.state = .audit ∧ ¬ input.auditReady

instance (input : Inputs) (regs : Registers) : Decidable (Stalls input regs) :=
  inferInstanceAs (Decidable (_ ∧ _ ∧ _))

/-- The record that the audit phase writes at this edge. -/
def recordOf (input : Inputs) (regs : Registers) : AuditRecord :=
  ⟨input.req.sequence, regs.respStatus, input.req.registryId, input.tableGeneration,
    regs.probeCount, regs.respMatchOffset⟩

/-- A stalled edge writes the record, presents it and keeps what it is made of. -/
theorem stall_edge {input : Inputs} {regs : Registers} (hstalls : Stalls input regs) :
    (edge input regs).state = .audit ∧ (edge input regs).auditValid ∧
      (edge input regs).auditRecord = recordOf input regs ∧
      (edge input regs).probeCount = regs.probeCount ∧
      (edge input regs).result = regs.result := by
  obtain ⟨hrst, hphase, hstall⟩ := hstalls
  rw [edge_of_phase hrst]
  simp only [phaseEdge, hphase, auditEdge, if_neg hstall]
  exact ⟨rfl, rfl, rfl, rfl, rfl⟩

theorem edge_of_ready {input : Inputs} {regs : Registers} (hrst : input.rstN)
    (hphase : regs.state = .audit) (hready : input.auditReady) :
    (edge input regs).state = .respond := by
  rw [edge_of_phase hrst]
  simp [phaseEdge, hphase, auditEdge, hready, Registers.setCycleCounter]

/-- A record is presented by an edge on which the sink stalls. -/
theorem stalls_of_presents {input : Inputs} {regs : Registers} (hregs : Coherent regs)
    (hvalid : (edge input regs).auditValid) : Stalls input regs := by
  have hnext := (edge_coherent input regs hregs).auditing_audit hvalid
  have hrst : input.rstN := rst_of_busy (by rw [hnext]; exact Phase.noConfusion)
  have hearlier : regs.auditValid → regs.state = .audit := hregs.auditing_audit
  rw [edge_of_phase hrst] at hvalid hnext
  change (phaseEdge input regs).auditValid at hvalid
  change (phaseEdge input regs).state = .audit at hnext
  cases hphase : regs.state <;> simp only [hphase, reduceCtorEq, imp_false] at hearlier <;>
    simp only [phaseEdge, hphase] at hvalid hnext
  case idle => unfold idleEdge at hvalid; split_ifs at hvalid
  case validate =>
      unfold validateEdge at hvalid
      split_ifs at hvalid <;> exact absurd hvalid hearlier
  case auth => unfold authEdge at hvalid; split_ifs at hvalid <;> exact absurd hvalid hearlier
  case fetch => unfold fetchEdge at hvalid; split_ifs at hvalid <;> exact absurd hvalid hearlier
  case probe => unfold probeEdge at hvalid; split_ifs at hvalid <;> exact absurd hvalid hearlier
  case step => exact absurd hvalid hearlier
  case audit =>
      refine ⟨hrst, hphase, fun hready => ?_⟩
      simp [auditEdge, hready] at hnext
  case respond =>
      unfold respondEdge at hvalid
      split_ifs at hvalid <;> exact absurd hvalid hearlier
  case unused => exact absurd hphase hregs.used

section Run

variable (inputs : Nat → Inputs)

/-- The requester holds its fields from acceptance to response. -/
def RequestsHeld : Prop :=
  ∀ a t, Processing inputs a t → (inputs t).req = (inputs a).req

/-- A presented record stands until its sink takes it, and agrees with the response
of its request from the edge on at which that is presented, taken or not. -/
structure AuditDescribes : Prop where
  stands : ∀ t u, t ≤ u → (machine.regs inputs t).auditValid →
    (∀ k, t ≤ k → k < u → (inputs k).rstN ∧ ¬ (inputs k).auditReady) →
    (machine.regs inputs u).auditValid ∧
      (machine.regs inputs u).auditRecord = (machine.regs inputs t).auditRecord
  agrees : ∀ a r t, Processing inputs a r → (machine.regs inputs r).respValid → a < t → t ≤ r →
    (machine.regs inputs t).auditValid →
    (machine.regs inputs t).auditRecord.status = (machine.regs inputs r).response.status ∧
      (machine.regs inputs t).auditRecord.matchOffset =
        (machine.regs inputs r).response.matchOffset ∧
      ((machine.regs inputs r).response.status = statusOk →
        (machine.regs inputs t).auditRecord.generation =
          (machine.regs inputs r).response.resolvedGeneration)

/-- The table keeps its generation from edge to edge while the sink stalls, and from
the hit of a request whose response is presented into the stall after it. -/
structure GenerationSteady : Prop where
  stalled : ∀ t, Stalls (inputs t) (machine.regs inputs t) →
    Stalls (inputs (t + 1)) (machine.regs inputs (t + 1)) →
    (inputs (t + 1)).tableGeneration = (inputs t).tableGeneration
  found : ∀ a r h, Processing inputs a r → (machine.regs inputs r).respValid → a < h → h < r →
    Hits (inputs h) (machine.regs inputs h) →
    Stalls (inputs (h + 1)) (machine.regs inputs (h + 1)) →
    (inputs (h + 1)).tableGeneration = (inputs h).tableGeneration

end Run

variable {inputs : Nat → Inputs} {a h r t : Nat}

/-- The stalled edge that presented a record. -/
theorem exists_stalls (hvalid : (machine.regs inputs t).auditValid) :
    ∃ k, t = k + 1 ∧ Stalls (inputs k) (machine.regs inputs k) ∧
      (machine.regs inputs t).auditRecord = recordOf (inputs k) (machine.regs inputs k) := by
  cases t with
  | zero => exact absurd hvalid Bool.false_ne_true
  | succ k =>
      have hstalls := stalls_of_presents (regs_coherent inputs k) hvalid
      exact ⟨k, rfl, hstalls, (stall_edge hstalls).2.2.1⟩

/-- Two stalled edges in a row belong to one request. -/
theorem fields_eq_of_stalls (hheld : RequestsHeld inputs)
    (hfirst : Stalls (inputs t) (machine.regs inputs t))
    (hsecond : Stalls (inputs (t + 1)) (machine.regs inputs (t + 1))) :
    (inputs (t + 1)).req = (inputs t).req := by
  obtain ⟨a, hprocessing, -⟩ := regs_history_of_phase hsecond.2.1 (by decide)
  have hne : a ≠ t := by
    rintro rfl
    exact Phase.noConfusion (hprocessing.accepts.2.1.symm.trans hfirst.2.1)
  have hlt : a < t := lt_of_le_of_ne (Nat.le_of_lt_succ hprocessing.lt) hne
  have hbefore := hprocessing.of_le hlt (Nat.le_succ t)
  rw [hheld a (t + 1) hprocessing, hheld a t hbefore]

/-- What a stalled edge writes again differs in the generation at most. -/
theorem recordOf_succ (hheld : RequestsHeld inputs)
    (hfirst : Stalls (inputs t) (machine.regs inputs t))
    (hsecond : Stalls (inputs (t + 1)) (machine.regs inputs (t + 1))) :
    recordOf (inputs (t + 1)) (machine.regs inputs (t + 1)) =
      { recordOf (inputs t) (machine.regs inputs t) with
        generation := (inputs (t + 1)).tableGeneration } := by
  obtain ⟨-, -, -, hcount, hresult⟩ := stall_edge hfirst
  change (machine.regs inputs (t + 1)).probeCount = _ at hcount
  change (machine.regs inputs (t + 1)).result = _ at hresult
  simp only [Registers.result, Prod.mk.injEq] at hresult
  simp only [recordOf, fields_eq_of_stalls hheld hfirst hsecond, hcount, hresult.1, hresult.2.2]

/-- One stalled edge keeps the record, if the table keeps its generation. -/
theorem record_succ (hheld : RequestsHeld inputs) (hsteady : GenerationSteady inputs)
    (hvalid : (machine.regs inputs t).auditValid) (hrst : (inputs t).rstN)
    (hstall : ¬ (inputs t).auditReady) :
    (machine.regs inputs (t + 1)).auditValid ∧
      (machine.regs inputs (t + 1)).auditRecord = (machine.regs inputs t).auditRecord := by
  have hsecond : Stalls (inputs t) (machine.regs inputs t) :=
    ⟨hrst, (regs_coherent inputs t).auditing_audit hvalid, hstall⟩
  obtain ⟨-, hpresents, hrecord, -, -⟩ := stall_edge hsecond
  obtain ⟨k, rfl, hfirst, hbefore⟩ := exists_stalls hvalid
  have hsame := recordOf_succ hheld hfirst hsecond
  rw [hsteady.stalled k hfirst hsecond] at hsame
  refine ⟨hpresents, ?_⟩
  rw [hbefore, machine.regs_succ]
  exact hrecord.trans hsame

/-- Between the hit of a request and a stalled edge of it the sink only stalls. -/
theorem FoundAt.stalls (hfound : FoundAt inputs a h t) (hprocessing : Processing inputs a t)
    (hstalls : Stalls (inputs t) (machine.regs inputs t)) {k : Nat} (hlt : h < k) (hle : k ≤ t) :
    Stalls (inputs k) (machine.regs inputs k) := by
  -- a request that reached its response phase does not return to the audit phase
  have hnever : ∀ j, h < j → j ≤ t → (machine.regs inputs j).state ≠ .respond := by
    intro j hj hjt hrespond
    have hend := hprocessing.preserves (fun regs => regs.state = .respond)
      (fun input regs hrst _ hnext hphase => ?_) (hfound.after.trans hj) hjt hrespond
    · exact Phase.noConfusion (hstalls.2.1.symm.trans hend)
    · have hsucc := edge_successor hrst regs
      rw [hphase] at hsucc
      exact hsucc.resolve_right hnext
  rcases Nat.lt_or_eq_of_le hle with hkt | rfl
  · have hphase := (hfound.decided k hlt hle).resolve_right (hnever k hlt hle)
    have hrst := rst_of_busy
      (hprocessing.busy (k + 1) (Nat.lt_succ_of_lt (hfound.after.trans hlt)) hkt)
    exact ⟨hrst, hphase, fun hready =>
      hnever (k + 1) (Nat.lt_succ_of_lt hlt) hkt (edge_of_ready hrst hphase hready)⟩
  · exact hstalls

/-- A steady table shows at a stalled edge what it showed at the hit. -/
theorem generation_eq_of_steady (hsteady : GenerationSteady inputs)
    (hanswered : Processing inputs a r) (hpresented : (machine.regs inputs r).respValid)
    (htr : t ≤ r) (hfound : FoundAt inputs a h t)
    (hstalls : Stalls (inputs t) (machine.regs inputs t)) :
    (inputs t).tableGeneration = (inputs h).tableGeneration := by
  have hprocessing := hanswered.of_le (hfound.after.trans hfound.before) htr
  have hrun : ∀ k, h + 1 ≤ k → k ≤ t → (inputs k).tableGeneration = (inputs h).tableGeneration := by
    intro k hle
    induction k, hle using Nat.le_induction with
    | base =>
        intro hle
        exact hsteady.found a r h hanswered hpresented hfound.after (hfound.before.trans_le htr)
          hfound.hits (hfound.stalls hprocessing hstalls (Nat.lt_succ_self h) hle)
    | succ k hlt ih =>
        intro hle
        have hfirst := hfound.stalls hprocessing hstalls hlt (Nat.le_of_succ_le hle)
        have hsecond := hfound.stalls hprocessing hstalls (Nat.lt_succ_of_lt hlt) hle
        rw [hsteady.stalled k hfirst hsecond, ih (Nat.le_of_succ_le hle)]
  exact hrun t hfound.before le_rfl

/-- A stalled edge of a request writes the result that the request keeps. -/
theorem result_of_stalls (hprocessing : Processing inputs a r) (hlt : a < t) (htr : t ≤ r)
    (hstalls : Stalls (inputs t) (machine.regs inputs t)) :
    (machine.regs inputs r).result = (machine.regs inputs t).result :=
  (hprocessing.decided hlt htr (Or.inl hstalls.2.1)).2

theorem auditDescribes_of_steady (hheld : RequestsHeld inputs) (hsteady : GenerationSteady inputs) :
    AuditDescribes inputs where
  stands := by
    intro t u hle hvalid hwaits
    induction u, hle using Nat.le_induction with
    | base => exact ⟨hvalid, rfl⟩
    | succ u hle ih =>
        obtain ⟨hvalid', hrecord⟩ := ih fun k hk hku => hwaits k hk (Nat.lt_succ_of_lt hku)
        obtain ⟨hrst, hstall⟩ := hwaits u hle (Nat.lt_succ_self u)
        obtain ⟨hnext, hsame⟩ := record_succ hheld hsteady hvalid' hrst hstall
        exact ⟨hnext, hsame.trans hrecord⟩
  agrees := by
    intro a r t hprocessing hpresented hlt hle hvalid
    obtain ⟨k, rfl, hstalls, hrecord⟩ := exists_stalls hvalid
    have hne : a ≠ k := by
      rintro rfl
      exact Phase.noConfusion (hprocessing.accepts.2.1.symm.trans hstalls.2.1)
    have hak : a < k := lt_of_le_of_ne (Nat.le_of_lt_succ hlt) hne
    have hkr : k ≤ r := Nat.le_of_succ_le hle
    have hresult := result_of_stalls hprocessing hak hkr hstalls
    simp only [Registers.result, Prod.mk.injEq] at hresult
    obtain ⟨hstatus, hgeneration, hoffset⟩ := hresult
    rw [hrecord]
    refine ⟨hstatus.symm, hoffset.symm, fun hok => ?_⟩
    obtain ⟨h, hfound⟩ := exists_foundAt (hprocessing.of_le hak hkr) (Or.inl hstalls.2.1)
      (hstatus.symm.trans hok)
    calc (inputs k).tableGeneration
        = (inputs h).tableGeneration :=
          generation_eq_of_steady hsteady hprocessing hpresented hkr hfound hstalls
      _ = (machine.regs inputs k).respResolvedGeneration := hfound.generation.symm
      _ = (machine.regs inputs r).respResolvedGeneration := hgeneration.symm

theorem steady_of_auditDescribes (hdescribes : AuditDescribes inputs) :
    GenerationSteady inputs where
  stalled := by
    intro t hfirst hsecond
    obtain ⟨-, hvalid, hbefore, -, -⟩ := stall_edge hfirst
    obtain ⟨-, -, hafter, -, -⟩ := stall_edge hsecond
    obtain ⟨-, hstands⟩ := hdescribes.stands (t + 1) (t + 2) (Nat.le_succ _) hvalid
      fun k hk hlt => by
        obtain rfl : k = t + 1 := by omega
        exact ⟨hsecond.1, hsecond.2.2⟩
    exact congrArg AuditRecord.generation (hafter.symm.trans (hstands.trans hbefore))
  found := by
    intro a r h hprocessing hpresented hah hhr hhits hstalls
    obtain ⟨hdecided, hok, hgeneration⟩ := decided_of_hits hhits
    have hresult := result_of_stalls hprocessing (Nat.lt_succ_of_lt hah) hhr hstalls
    simp only [Registers.result, Prod.mk.injEq] at hresult
    -- the stalled edge is not the last of the request, so its record is presented in time
    have hlast : h + 1 ≠ r := by
      rintro rfl
      have hrespond := (regs_coherent inputs (h + 1)).valid_respond hpresented
      exact Phase.noConfusion (hstalls.2.1.symm.trans hrespond)
    obtain ⟨-, hvalid, hrecord, -, -⟩ := stall_edge hstalls
    obtain ⟨-, -, hagrees⟩ :=
      hdescribes.agrees a r (h + 2) hprocessing hpresented (by omega) (by omega) hvalid
    have hsame := hagrees (hresult.1.trans hok)
    calc (inputs (h + 1)).tableGeneration
        = (machine.regs inputs (h + 2)).auditRecord.generation :=
          (congrArg AuditRecord.generation hrecord).symm
      _ = (machine.regs inputs r).response.resolvedGeneration := hsame
      _ = (machine.regs inputs (h + 1)).respResolvedGeneration := hresult.2.1
      _ = (inputs h).tableGeneration := hgeneration

/-- With its fields held a run's audit records describe its responses exactly if
the table keeps its generation from a hit to the end of the stall after it. -/
theorem auditDescribes_iff {inputs : Nat → Inputs} (hheld : RequestsHeld inputs) :
    AuditDescribes inputs ↔ GenerationSteady inputs :=
  ⟨steady_of_auditDescribes, auditDescribes_of_steady hheld⟩

/-- A lookup whose audit sink stalls at edges 5 and 6. -/
def slowSink (t : Nat) : Inputs :=
  { staleLookup with auditReady := decide (7 ≤ t) }

theorem auditDescribes_iff_slowSink :
    AuditDescribes slowSink ∧ (machine.regs slowSink 6).auditValid :=
  ⟨(auditDescribes_iff fun _ _ _ => rfl).mpr ⟨fun _ _ _ => rfl, fun _ _ _ _ _ _ _ _ _ => rfl⟩,
    by decide⟩

/-- The same over a table whose generation is the number of the edge. -/
def rebuiltTable (t : Nat) : Inputs :=
  { slowSink t with tableGeneration := BitVec.ofNat 32 t }

/-- The record presented during the stall changes, and neither version carries
the generation of the response. -/
theorem audit_record_drifts :
    RequestsHeld rebuiltTable ∧ Answers rebuiltTable 0 9 ∧
      (machine.regs rebuiltTable 6).auditValid ∧
      (machine.regs rebuiltTable 6).auditRecord.generation = 5 ∧
      (machine.regs rebuiltTable 7).auditRecord.generation = 6 ∧
      (machine.regs rebuiltTable 9).response.status = statusOk ∧
      (machine.regs rebuiltTable 9).response.resolvedGeneration = 4 ∧
      ¬ AuditDescribes rebuiltTable := by
  have hanswers : Answers rebuiltTable 0 9 := by
    refine ⟨⟨by decide, by decide, fun k hlt hle => ?_⟩, by decide⟩
    interval_cases k <;> decide
  refine ⟨fun _ _ _ => rfl, hanswers, by decide, by decide, by decide, by decide, by decide, ?_⟩
  intro hdescribes
  obtain ⟨-, -, hagrees⟩ := hdescribes.agrees 0 9 6 hanswers.1 (by decide) (by decide) (by decide)
    (by decide)
  exact absurd (hagrees (by decide)) (by decide)

end Accelerator

end Atarix
