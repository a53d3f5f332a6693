import Atarix.Rtl.Gates
import Atarix.Rtl.RequestFields

/-! # The generation of a result

Which edge the result in the response registers comes from. An OK result is
latched at the one hit of its request, with the generation the table shows at
that edge; the generation the requester expects is not compared with it.
-/

namespace Atarix

namespace Accelerator

/-- The response registers hold the result of the request in flight. -/
def Decided (regs : Registers) : Prop :=
  regs.state = .audit ∨ regs.state = .respond

/-- The result registers that the audit record is compared with. -/
def Registers.result (regs : Registers) : BitVec 8 × BitVec 32 × BitVec 4 :=
  (regs.respStatus, regs.respResolvedGeneration, regs.respMatchOffset)

/-- A decided request keeps its result until it is answered. -/
theorem result_edge {input : Inputs} {regs : Registers} (hrst : input.rstN)
    (hdecided : Decided regs) (hbusy : (edge input regs).state ≠ .idle) :
    Decided (edge input regs) ∧ (edge input regs).result = regs.result := by
  rw [edge_of_phase hrst] at hbusy ⊢
  change (phaseEdge input regs).state ≠ .idle at hbusy
  change Decided (phaseEdge input regs) ∧ (phaseEdge input regs).result = regs.result
  rcases hdecided with hphase | hphase <;> simp only [phaseEdge, hphase] at hbusy ⊢
  · unfold auditEdge
    split_ifs
    · exact ⟨Or.inr rfl, rfl⟩
    · exact ⟨Or.inl hphase, rfl⟩
  · obtain ⟨cycles, seen, heq⟩ := respondEdge_of_busy hbusy
    rw [heq]
    exact ⟨Or.inr hphase, rfl⟩

/-- An edge that decides a request as OK is a hit. -/
theorem hits_of_decides {input : Inputs} {regs : Registers} (hrst : input.rstN)
    (hused : regs.state ≠ .unused) (hopen : ¬ Decided regs) (hdecided : Decided (edge input regs))
    (hok : (edge input regs).respStatus = statusOk) :
    Hits input regs ∧ (edge input regs).respResolvedGeneration = input.tableGeneration := by
  rw [edge_of_phase hrst] at hdecided hok ⊢
  change Decided (phaseEdge input regs) at hdecided
  change (phaseEdge input regs).respStatus = statusOk at hok
  change _ ∧ (phaseEdge input regs).respResolvedGeneration = _
  cases hphase : regs.state <;> simp only [phaseEdge, hphase] at hdecided hok ⊢
  case idle =>
      unfold idleEdge at hdecided
      split_ifs at hdecided <;> simp [Decided, hphase] at hdecided
  case validate =>
      unfold validateEdge at hdecided hok
      split_ifs at hdecided hok
      · exact absurd hok (by decide : statusInvalidHeader ≠ statusOk)
      · simp [Decided] at hdecided
      · exact absurd hok (by decide : statusCrcMismatch ≠ statusOk)
  case auth =>
      unfold authEdge at hdecided hok
      split_ifs at hdecided hok
      · simp [Decided] at hdecided
      · exact absurd hok (by decide : statusPolicyDenied ≠ statusOk)
      · exact absurd hok (by decide : statusCapDenied ≠ statusOk)
      · exact absurd hok (by decide : statusRingDenied ≠ statusOk)
  case fetch =>
      unfold fetchEdge at hdecided hok
      split_ifs at hdecided hok
      · simp [Decided] at hdecided
      · exact absurd hok (by decide : statusTimeout ≠ statusOk)
  case probe =>
      unfold probeEdge at hdecided hok ⊢
      split_ifs at hdecided hok ⊢ with hhit
      · exact ⟨⟨hrst, hphase, hhit⟩, rfl⟩
      · exact absurd hok (by decide : statusSequenceError ≠ statusOk)
      · simp [Decided] at hdecided
  case step => simp [Decided, stepEdge] at hdecided
  case audit => exact absurd (Or.inl hphase) hopen
  case respond => exact absurd (Or.inr hphase) hopen
  case unused => exact absurd hphase hused

section Run

variable {inputs : Nat → Inputs} {a h t : Nat}

/-- A request in flight was in flight at each of its edges. -/
theorem Processing.of_le (hprocessing : Processing inputs a t) (hlt : a < h) (hle : h ≤ t) :
    Processing inputs a h :=
  ⟨hlt, hprocessing.accepts, fun k hk hkh => hprocessing.busy k hk (hkh.trans hle)⟩

/-- Acceptance decides nothing. -/
theorem not_decided_of_accepts (haccepts : Accepts (inputs a) (machine.regs inputs a)) :
    ¬ Decided (machine.regs inputs (a + 1)) := by
  obtain ⟨hrst, hidle, hvalid⟩ := haccepts
  rw [regs_succ_of_rst hrst]
  simp [Decided, Registers.setCycleCounter, phaseEdge, hidle, idleEdge, hvalid]

/-- Once decided a request stays decided, with the same result. -/
theorem Processing.decided (hprocessing : Processing inputs a t) (hlt : a < h) (hle : h ≤ t)
    (hdecided : Decided (machine.regs inputs h)) :
    Decided (machine.regs inputs t) ∧
      (machine.regs inputs t).result = (machine.regs inputs h).result := by
  refine hprocessing.preserves (fun regs => Decided regs ∧
    regs.result = (machine.regs inputs h).result) ?_ hlt hle ⟨hdecided, rfl⟩
  rintro input regs hrst - hnext ⟨hdecided, hresult⟩
  obtain ⟨hdecided', hresult'⟩ := result_edge hrst hdecided hnext
  exact ⟨hdecided', hresult'.trans hresult⟩

/-- The OK result that stands at `t` was latched at the hit `h`. -/
structure FoundAt (inputs : Nat → Inputs) (a h t : Nat) : Prop where
  after : a < h
  before : h < t
  hits : Hits (inputs h) (machine.regs inputs h)
  generation : (machine.regs inputs t).respResolvedGeneration = (inputs h).tableGeneration
  decided : ∀ k, h < k → k ≤ t → Decided (machine.regs inputs k)

/-- An OK result was latched at a hit of its request. -/
theorem exists_foundAt (hprocessing : Processing inputs a t)
    (hdecided : Decided (machine.regs inputs t))
    (hok : (machine.regs inputs t).respStatus = statusOk) : ∃ h, FoundAt inputs a h t := by
  induction t, hprocessing.lt using Nat.le_induction with
  | base => exact absurd hdecided (not_decided_of_accepts hprocessing.accepts)
  | succ t hlt ih =>
      have hbefore := hprocessing.of_le hlt (Nat.le_succ t)
      have hbusy := hprocessing.busy (t + 1) (Nat.lt_succ_of_lt hlt) le_rfl
      have hrst := rst_of_busy hbusy
      by_cases hearly : Decided (machine.regs inputs t)
      · obtain ⟨-, hresult⟩ := result_edge hrst hearly hbusy
        have hstatus : (machine.regs inputs (t + 1)).respStatus =
            (machine.regs inputs t).respStatus := congrArg Prod.fst hresult
        have hgeneration : (machine.regs inputs (t + 1)).respResolvedGeneration =
            (machine.regs inputs t).respResolvedGeneration :=
          congrArg (fun result => result.2.1) hresult
        obtain ⟨h, hfound⟩ := ih hbefore hearly (hstatus.symm.trans hok)
        refine ⟨h, hfound.after, Nat.lt_succ_of_lt hfound.before, hfound.hits,
          hgeneration.trans hfound.generation, fun k hk hle => ?_⟩
        rcases Nat.le_succ_iff.mp hle with hle | rfl
        · exact hfound.decided k hk hle
        · exact hdecided
      · have hused := (regs_coherent inputs t).used
        obtain ⟨hhits, hgeneration⟩ := hits_of_decides hrst hused hearly hdecided hok
        refine ⟨t, hlt, Nat.lt_succ_self t, hhits, hgeneration, fun k hk hle => ?_⟩
        obtain rfl : k = t + 1 := by omega
        exact hdecided

/-- A hit decides its request. -/
theorem decided_of_hits (hhits : Hits (inputs h) (machine.regs inputs h)) :
    Decided (machine.regs inputs (h + 1)) ∧
      (machine.regs inputs (h + 1)).respStatus = statusOk ∧
      (machine.regs inputs (h + 1)).respResolvedGeneration = (inputs h).tableGeneration := by
  obtain ⟨hrst, hphase, hhit⟩ := hhits
  rw [regs_succ_of_rst hrst]
  simp [Decided, Registers.setCycleCounter, phaseEdge, hphase, probeEdge, hhit]

theorem not_hits_of_decided (hdecided : Decided (machine.regs inputs t)) :
    ¬ Hits (inputs t) (machine.regs inputs t) := by
  rintro ⟨-, hprobe, -⟩
  rcases hdecided with hphase | hphase <;> exact Phase.noConfusion (hphase.symm.trans hprobe)

/-- A request hits once. -/
theorem FoundAt.unique (hfound : FoundAt inputs a h t) (hprocessing : Processing inputs a t)
    {k : Nat} (hlt : a < k) (hle : k < t) (hhits : Hits (inputs k) (machine.regs inputs k)) :
    k = h := by
  rcases Nat.lt_trichotomy k h with hkh | heq | hhk
  · have hdecided := ((hprocessing.of_le hfound.after hfound.before.le).decided
      (Nat.lt_succ_of_lt hlt) hkh (decided_of_hits hhits).1).1
    exact absurd hfound.hits (not_hits_of_decided hdecided)
  · exact heq
  · exact absurd hhits (not_hits_of_decided (hfound.decided k hhk hle.le))

end Run

/-! ## The expected generation -/

/-- An OK response to the request accepted at `a` carries the generation it
expects. -/
def GenerationChecked (inputs : Nat → Inputs) : Prop :=
  ∀ a t, Processing inputs a t → (machine.regs inputs t).respValid →
    (machine.regs inputs t).respStatus = statusOk →
    (machine.regs inputs t).respResolvedGeneration = (inputs a).req.expectedGeneration

/-- The OK response at `t` to the request accepted at `a` carries the generation
of its hit, which the requester expects exactly if the table shows it there. -/
structure ReportsGeneration (inputs : Nat → Inputs) (a t : Nat) : Prop where
  sampled : ∃ h, a < h ∧ h < t ∧ Hits (inputs h) (machine.regs inputs h) ∧
    (machine.regs inputs t).respResolvedGeneration = (inputs h).tableGeneration
  expected_iff :
    (machine.regs inputs t).respResolvedGeneration = (inputs a).req.expectedGeneration ↔
    ∀ h, a < h → h < t → Hits (inputs h) (machine.regs inputs h) →
      (inputs h).tableGeneration = (inputs a).req.expectedGeneration

/-- The same run with other expected generations at the port. -/
def expecting (expected : Nat → BitVec 32) (inputs : Nat → Inputs) (t : Nat) : Inputs :=
  { inputs t with req := { (inputs t).req with expectedGeneration := expected t } }

theorem edge_expecting (expected : Nat → BitVec 32) (inputs : Nat → Inputs) (t : Nat)
    (regs : Registers) : edge (expecting expected inputs t) regs = edge (inputs t) regs := by
  have hphase : phaseEdge (expecting expected inputs t) regs = phaseEdge (inputs t) regs := by
    cases hstate : regs.state <;> simp only [phaseEdge, hstate] <;> rfl
  unfold edge
  rw [hphase]
  rfl

/-- No register depends on the expected generations. -/
theorem regs_expecting (expected : Nat → BitVec 32) (inputs : Nat → Inputs) (t : Nat) :
    machine.regs (expecting expected inputs) t = machine.regs inputs t := by
  induction t with
  | zero => rfl
  | succ t ih =>
      rw [machine.regs_succ, machine.regs_succ, ih]
      exact edge_expecting expected inputs t _

/-- In every run an OK response reports the generation that the table showed at
the one hit of its request, whatever generation the requester expects. -/
theorem response_generation (inputs : Nat → Inputs) :
    (∀ t, (machine.regs inputs t).respValid → (machine.regs inputs t).respStatus = statusOk →
      ∃ a, Processing inputs a t ∧ ReportsGeneration inputs a t) ∧
    ∀ expected t, machine.regs (expecting expected inputs) t = machine.regs inputs t := by
  refine ⟨fun t hvalid hok => ?_, fun expected => regs_expecting expected inputs⟩
  have hphase := (regs_coherent inputs t).valid_respond hvalid
  obtain ⟨a, hprocessing, -⟩ := regs_history_of_phase hphase (by decide)
  obtain ⟨h, hfound⟩ := exists_foundAt hprocessing (Or.inr hphase) hok
  refine ⟨a, hprocessing, ⟨h, hfound.after, hfound.before, hfound.hits, hfound.generation⟩, ?_, ?_⟩
  · intro hexpected k hlt hle hhits
    obtain rfl := hfound.unique hprocessing hlt hle hhits
    exact hfound.generation.symm.trans hexpected
  · intro hshown
    exact hfound.generation.trans (hshown h hfound.after hfound.before hfound.hits)

/-- A lookup that expects generation 5 of a table at generation 6. -/
def staleLookup : Inputs :=
  { deniedRequest with
    req := ⟨1, typeIndexQuery, true, true, true, true, 7, 0, 5, 0⟩, tableGeneration := 6 }

theorem staleLookup_processing : Processing (fun _ => staleLookup) 0 7 := by
  refine ⟨by decide, by decide, fun k hlt hle => ?_⟩
  interval_cases k <;> decide

theorem response_generation_stale :
    ∃ a, Processing (fun _ => staleLookup) a 7 ∧ ReportsGeneration (fun _ => staleLookup) a 7 :=
  (response_generation fun _ => staleLookup).1 7 (by decide) (by decide)

/-- The stale lookup is answered OK, with the generation it did not expect. -/
theorem stale_lookup_answered :
    (machine.regs (fun _ => staleLookup) 7).respStatus = statusOk ∧
      (machine.regs (fun _ => staleLookup) 7).respResolvedGeneration = 6 ∧
      staleLookup.req.expectedGeneration = 5 ∧ ¬ GenerationChecked fun _ => staleLookup := by
  refine ⟨by decide, by decide, rfl, fun hchecked => ?_⟩
  have hexpected := hchecked 0 7 staleLookup_processing (by decide) (by decide)
  exact absurd hexpected (by decide)

end Accelerator

end Atarix
