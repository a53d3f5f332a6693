import Atarix.Rtl.Accelerator

/-! # Runs of the accelerator

The events of a run, and the facts its handshake registers keep about the
state register. A run is a stream of inputs with `rst_n` among them, so resets
may fall anywhere.
-/

namespace Atarix

namespace Accelerator

/-! ## Events at an edge -/

/-- The process takes a request at this edge. -/
def Accepts (input : Inputs) (regs : Registers) : Prop :=
  input.rstN ∧ regs.state = .idle ∧ input.reqValid

/-- Both sides of the request handshake are high at this edge. -/
def RequestTransfer (input : Inputs) (regs : Registers) : Prop :=
  input.rstN ∧ input.reqValid ∧ regs.reqReady

/-- Both sides of the response handshake are high at this edge. -/
def ResponseTransfer (input : Inputs) (regs : Registers) : Prop :=
  input.rstN ∧ regs.respValid ∧ input.respReady

instance (input : Inputs) (regs : Registers) : Decidable (Accepts input regs) :=
  inferInstanceAs (Decidable (_ ∧ _ ∧ _))

instance (input : Inputs) (regs : Registers) : Decidable (RequestTransfer input regs) :=
  inferInstanceAs (Decidable (_ ∧ _ ∧ _))

instance (input : Inputs) (regs : Registers) : Decidable (ResponseTransfer input regs) :=
  inferInstanceAs (Decidable (_ ∧ _ ∧ _))

/-! ## One edge, by phase -/

theorem edge_reset {input : Inputs} (hreset : input.rstN = false) (regs : Registers) :
    edge input regs = resetRegisters := by
  simp [edge, hreset]

/-- Out of reset an edge is the branch of its phase, and the counter moves. -/
theorem edge_of_phase {input : Inputs} (hrst : input.rstN) (regs : Registers) :
    edge input regs = (phaseEdge input regs).setCycleCounter (regs.cycleCounter + 1) := by
  simp [edge, hrst]

/-- Where an edge leads: each phase with the successors its branch has. -/
def Successor : Phase → Phase → Prop
  | .idle, next => next = .idle ∨ next = .validate
  | .validate, next => next = .auth ∨ next = .audit
  | .auth, next => next = .fetch ∨ next = .audit
  | .fetch, next => next = .probe ∨ next = .audit
  | .probe, next => next = .step ∨ next = .audit
  | .step, next => next = .fetch
  | .audit, next => next = .audit ∨ next = .respond
  | .respond, next => next = .respond ∨ next = .idle
  | .unused, next => next = .audit

theorem edge_successor {input : Inputs} (hrst : input.rstN) (regs : Registers) :
    Successor regs.state (edge input regs).state := by
  rw [edge_of_phase hrst]
  change Successor regs.state (phaseEdge input regs).state
  cases hphase : regs.state <;> simp only [phaseEdge, hphase, Successor]
  case idle => unfold idleEdge; split_ifs <;> simp [hphase]
  case validate => unfold validateEdge; split_ifs <;> simp
  case auth => unfold authEdge; split_ifs <;> simp
  case fetch => unfold fetchEdge; split_ifs <;> simp
  case probe => unfold probeEdge; split_ifs <;> simp
  case step => simp [stepEdge]
  case audit => unfold auditEdge; split_ifs <;> simp [hphase]
  case respond => unfold respondEdge; split_ifs <;> simp [hphase]
  case unused => simp [unusedEdge]

/-- Only the response phase ends a request. -/
theorem respond_of_rest {input : Inputs} {regs : Registers} (hrst : input.rstN)
    (hbusy : regs.state ≠ .idle) (hrest : (edge input regs).state = .idle) :
    regs.state = .respond := by
  have hsucc := edge_successor hrst regs
  rw [hrest] at hsucc
  cases hphase : regs.state <;> simp_all [Successor]

/-- Only the audit phase leads to the response phase. -/
theorem audit_of_respond {input : Inputs} {regs : Registers} (hrst : input.rstN)
    (hrespond : (edge input regs).state = .respond) (hearly : regs.state ≠ .respond) :
    regs.state = .audit := by
  have hsucc := edge_successor hrst regs
  rw [hrespond] at hsucc
  cases hphase : regs.state <;> simp_all [Successor]

/-- A response phase that goes on touches the response handshake only. -/
theorem respondEdge_of_busy {input : Inputs} {regs : Registers}
    (hbusy : (respondEdge input regs).state ≠ .idle) :
    ∃ cycles seen, respondEdge input regs =
      { regs with respValid := true, respCycles := cycles, responseSeen := seen } := by
  unfold respondEdge at hbusy ⊢
  split_ifs at hbusy ⊢
  · exact absurd rfl hbusy
  · exact ⟨regs.respCycles, regs.responseSeen, rfl⟩
  · exact ⟨regs.cycleCounter, true, rfl⟩

/-- A machine that is busy after an edge was not reset by it. -/
theorem rst_of_busy {input : Inputs} {regs : Registers} (hbusy : (edge input regs).state ≠ .idle) :
    input.rstN := by
  by_contra hreset
  rw [edge_reset (by simpa using hreset)] at hbusy
  exact hbusy rfl

/-- An idle machine leaves idle exactly by taking a request. -/
theorem accepts_of_busy {input : Inputs} {regs : Registers} (hidle : regs.state = .idle)
    (hbusy : (edge input regs).state ≠ .idle) : Accepts input regs := by
  have hrst := rst_of_busy hbusy
  refine ⟨hrst, hidle, ?_⟩
  by_contra hvalid
  apply hbusy
  rw [edge_of_phase hrst, phaseEdge, hidle]
  simp only [idleEdge, hvalid]
  exact hidle

/-! ## Handshake registers -/

/-- What the handshake registers say about the state register. -/
structure Coherent (regs : Registers) : Prop where
  ready_idle : regs.reqReady → regs.state = .idle
  seen_eq_valid : regs.responseSeen = regs.respValid
  valid_respond : regs.respValid → regs.state = .respond
  probing_fetch : regs.probeValid → regs.state = .fetch
  auditing_audit : regs.auditValid → regs.state = .audit
  used : regs.state ≠ .unused

theorem resetRegisters_coherent : Coherent resetRegisters := by
  constructor <;> simp [resetRegisters]

theorem phaseEdge_coherent (input : Inputs) (regs : Registers) (hregs : Coherent regs) :
    Coherent (phaseEdge input regs) := by
  obtain ⟨hready, hseen, hvalid, hprobe, haudit, hused⟩ := hregs
  -- outside its own phase a handshake register is low, and a branch leaves it so
  cases hphase : regs.state <;> simp only [hphase, reduceCtorEq, imp_false, Bool.not_eq_true]
    at hready hvalid hprobe haudit <;> simp only [phaseEdge, hphase]
  case idle => unfold idleEdge; split_ifs <;> constructor <;> simp [hphase]
  case validate => unfold validateEdge; split_ifs <;> constructor <;> simp [*]
  case auth => unfold authEdge; split_ifs <;> constructor <;> simp [*]
  case fetch => unfold fetchEdge; split_ifs <;> constructor <;> simp [*]
  case probe => unfold probeEdge; split_ifs <;> constructor <;> simp [*]
  case step => constructor <;> simp [stepEdge, *]
  case audit => unfold auditEdge; split_ifs <;> constructor <;> simp [*]
  case respond => unfold respondEdge; split_ifs <;> constructor <;> simp_all
  case unused => exact absurd hphase hused

theorem edge_coherent (input : Inputs) (regs : Registers) (hregs : Coherent regs) :
    Coherent (edge input regs) := by
  cases hrst : input.rstN with
  | false =>
      rw [edge_reset hrst]
      exact resetRegisters_coherent
  | true =>
      rw [edge_of_phase hrst]
      obtain ⟨hready, hseen, hvalid, hprobe, haudit, hused⟩ := phaseEdge_coherent input regs hregs
      exact ⟨hready, hseen, hvalid, hprobe, haudit, hused⟩

theorem regs_coherent (inputs : Nat → Inputs) (t : Nat) : Coherent (machine.regs inputs t) :=
  machine.invariant Coherent resetRegisters_coherent edge_coherent inputs t

/-- The edge on which a response transfers is the one that returns to idle. -/
theorem responseTransfer_iff {input : Inputs} {regs : Registers} (hregs : Coherent regs) :
    ResponseTransfer input regs ↔
      input.rstN ∧ regs.state = .respond ∧ (edge input regs).state = .idle := by
  constructor
  · rintro ⟨hrst, hvalid, hready⟩
    have hphase := hregs.valid_respond hvalid
    have hseen : regs.responseSeen = true := by rw [hregs.seen_eq_valid]; exact hvalid
    refine ⟨hrst, hphase, ?_⟩
    rw [edge_of_phase hrst]
    change (phaseEdge input regs).state = .idle
    simp [phaseEdge, hphase, respondEdge, hseen, hready]
  · rintro ⟨hrst, hphase, hidle⟩
    rw [edge_of_phase hrst] at hidle
    change (phaseEdge input regs).state = .idle at hidle
    simp only [phaseEdge, hphase, respondEdge, hregs.seen_eq_valid] at hidle
    split_ifs at hidle with hvalid hready
    exact ⟨hrst, hvalid, hready⟩

/-- Out of reset a busy machine comes to rest by a response transfer. -/
theorem responseTransfer_of_rest {input : Inputs} {regs : Registers} (hregs : Coherent regs)
    (hrst : input.rstN) (hbusy : regs.state ≠ .idle) (hrest : (edge input regs).state = .idle) :
    ResponseTransfer input regs :=
  (responseTransfer_iff hregs).mpr ⟨hrst, respond_of_rest hrst hbusy hrest, hrest⟩

/-! ## The audit registers -/

/-- In the response phase the audit registers repeat the result registers. -/
def Recorded (regs : Registers) : Prop :=
  regs.state = .respond → regs.auditStatus = regs.respStatus ∧
    regs.auditProbeCount = regs.probeCount ∧ regs.auditMatchOffset = regs.respMatchOffset

theorem edge_recorded (input : Inputs) (regs : Registers) (hregs : Recorded regs) :
    Recorded (edge input regs) := by
  intro hrespond
  have hbusy : (edge input regs).state ≠ .idle := by
    rw [hrespond]
    exact Phase.noConfusion
  have hrst := rst_of_busy hbusy
  have hsucc := edge_successor hrst regs
  rw [hrespond] at hsucc
  rw [edge_of_phase hrst]
  cases hphase : regs.state <;> simp only [hphase, Successor, reduceCtorEq, or_false, or_true]
    at hsucc <;> simp only [phaseEdge, hphase]
  case audit => unfold auditEdge; split_ifs <;> exact ⟨rfl, rfl, rfl⟩
  case respond => unfold respondEdge; split_ifs <;> exact hregs hphase

theorem regs_recorded (inputs : Nat → Inputs) (t : Nat) : Recorded (machine.regs inputs t) :=
  machine.invariant Recorded Phase.noConfusion edge_recorded inputs t

/-! ## The request in flight -/

theorem regs_succ_of_rst {inputs : Nat → Inputs} {t : Nat} (hrst : (inputs t).rstN) :
    machine.regs inputs (t + 1) =
      (phaseEdge (inputs t) (machine.regs inputs t)).setCycleCounter
        ((machine.regs inputs t).cycleCounter + 1) :=
  edge_of_phase hrst _

/-- The request in flight at `t` was accepted at edge `a`. -/
structure Processing (inputs : Nat → Inputs) (a t : Nat) : Prop where
  lt : a < t
  accepts : Accepts (inputs a) (machine.regs inputs a)
  busy : ∀ k, a < k → k ≤ t → (machine.regs inputs k).state ≠ .idle

variable {inputs : Nat → Inputs} {a t : Nat}

theorem Processing.succ (hprocessing : Processing inputs a t)
    (hbusy : (machine.regs inputs (t + 1)).state ≠ .idle) : Processing inputs a (t + 1) := by
  obtain ⟨hlt, haccepts, hbefore⟩ := hprocessing
  refine ⟨by omega, haccepts, fun k hk hle => ?_⟩
  rcases Nat.le_succ_iff.mp hle with hle | rfl
  · exact hbefore k hk hle
  · exact hbusy

/-- What the edges of a request in flight preserve holds from any of them on. -/
theorem Processing.preserves (hprocessing : Processing inputs a t) (inv : Registers → Prop)
    (hstep : ∀ input regs, input.rstN → regs.state ≠ .idle → (edge input regs).state ≠ .idle →
      inv regs → inv (edge input regs))
    {k : Nat} (hlt : a < k) (hle : k ≤ t) (hinv : inv (machine.regs inputs k)) :
    inv (machine.regs inputs t) := by
  obtain ⟨count, rfl⟩ := Nat.exists_eq_add_of_le hle
  have hrun : ∀ length ≤ count, inv (machine.regs inputs (k + length)) := by
    intro length hlength
    induction length with
    | zero => exact hinv
    | succ length ih =>
        have hbefore := hprocessing.busy (k + length) (by omega) (by omega)
        have hafter := hprocessing.busy (k + (length + 1)) (by omega) (by omega)
        exact hstep _ _ (rst_of_busy hafter) hbefore hafter (ih (by omega))
  exact hrun count le_rfl

end Accelerator

end Atarix
