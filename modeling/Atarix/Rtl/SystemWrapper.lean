import Atarix.Rtl.AuditLogWindow
import Atarix.Rtl.Progress

/-! # The system wrapper

`atx_spec_020_system_wrapper` ties `audit_ready` high and writes a projection of
the audit record whenever `audit_valid` is high. With `audit_ready` high the
accelerator's second assignment to `audit_valid` always clears it, so the window
is never written and a run is audited only if it never answers.
-/

namespace Atarix

namespace SystemWrapper

/-- The wrapper's inputs: the accelerator's without `audit_ready`. -/
structure Inputs where
  rstN : Bool
  reqValid : Bool
  req : Accelerator.Request
  tableControlBytes : BitVec 128
  tableGeneration : BitVec 32
  tableBaseResolvedId : BitVec 32
  tableLookupValid : Bool
  respReady : Bool
deriving DecidableEq, Repr

structure State where
  accelerator : Accelerator.Registers
  auditWindow : AuditLogWindow.Registers 8

/-- The accelerator's ports, with `audit_ready` tied high. -/
def Inputs.accelerator (input : Inputs) : Accelerator.Inputs where
  rstN := input.rstN
  reqValid := input.reqValid
  req := input.req
  tableControlBytes := input.tableControlBytes
  tableGeneration := input.tableGeneration
  tableBaseResolvedId := input.tableBaseResolvedId
  tableLookupValid := input.tableLookupValid
  respReady := input.respReady
  auditReady := true

/-- The reduction `^word`, as a byte. -/
def parity {width : Nat} (word : BitVec width) : BitVec 8 :=
  if (List.finRange width).foldl (fun acc index => xor acc word[index]) false then 1 else 0

def auditProjectionByte (state : State) : BitVec 8 :=
  let regs := state.accelerator
  regs.auditStatus ^^^ parity regs.auditSequence ^^^ parity regs.auditRegistryId ^^^
    parity regs.auditGeneration ^^^ regs.auditProbeCount ^^^ regs.auditMatchOffset.setWidth 8 ^^^
    parity regs.probeAddr ^^^ parity (Accelerator.probeNextAddr regs) ^^^
    (BitVec.ofBool regs.probeValid).setWidth 8 ^^^ state.auditWindow.headPointer ^^^
    (BitVec.ofBool state.auditWindow.wrapped).setWidth 8

/-- The window's ports. -/
def auditWindowInput (input : Inputs) (state : State) : AuditLogWindow.Inputs where
  rstN := input.rstN
  writeData := auditProjectionByte state
  writeEn := state.accelerator.auditValid

/-- One activation of both clocked processes. -/
def edge (input : Inputs) (state : State) : State where
  accelerator := Accelerator.edge input.accelerator state.accelerator
  auditWindow := AuditLogWindow.edge 256 8 (auditWindowInput input state) state.auditWindow

def machine (storage : Memory) : Clocked Inputs State :=
  ⟨⟨Accelerator.resetRegisters, ⟨storage, 0, false⟩⟩, edge⟩

/-- `audit_read_data` at `audit_read_addr`. -/
def auditReadData (state : State) (auditReadAddr : BitVec 8) : BitVec 8 :=
  AuditLogWindow.readData state.auditWindow auditReadAddr

/-! ## Events -/

/-- A byte is written into the audit window at this edge. -/
def AuditWritten (input : Inputs) (state : State) : Prop :=
  AuditLogWindow.Writes (auditWindowInput input state)

/-- A request's response phase is entered at this edge. -/
def ResponseEntered (input : Inputs) (state : State) : Prop :=
  state.accelerator.state ≠ .respond ∧ (edge input state).accelerator.state = .respond

instance (input : Inputs) (state : State) : Decidable (AuditWritten input state) :=
  inferInstanceAs (Decidable (AuditLogWindow.Writes _))

instance (input : Inputs) (state : State) : Decidable (ResponseEntered input state) :=
  inferInstanceAs (Decidable (_ ∧ _))

section Run

variable (storage : Memory) (inputs : Nat → Inputs)

/-- Bytes written into the window before time `t`. -/
def auditWrites (t : Nat) : Nat :=
  Nat.count (fun k => AuditWritten (inputs k) ((machine storage).regs inputs k)) t

/-- Response phases entered before time `t`. -/
def responsesEntered (t : Nat) : Nat :=
  Nat.count (fun k => ResponseEntered (inputs k) ((machine storage).regs inputs k)) t

/-- At all times one byte has been committed for each response phase entered. -/
def EveryResponseAudited : Prop :=
  ∀ t, auditWrites storage inputs t = responsesEntered storage inputs t

end Run

variable {storage : Memory} {inputs : Nat → Inputs}

/-- The accelerator inside the wrapper runs as it does alone. -/
theorem regs_accelerator (storage : Memory) (inputs : Nat → Inputs) (t : Nat) :
    ((machine storage).regs inputs t).accelerator =
      Accelerator.machine.regs (fun k => (inputs k).accelerator) t := by
  induction t with
  | zero => rfl
  | succ t ih =>
      rw [Clocked.regs_succ, Clocked.regs_succ, ← ih]
      rfl

/-- The window inside the wrapper runs as it does alone. -/
theorem regs_auditWindow (storage : Memory) (inputs : Nat → Inputs) (t : Nat) :
    ((machine storage).regs inputs t).auditWindow =
      (AuditLogWindow.machine 256 8 storage).regs
        (fun k => auditWindowInput (inputs k) ((machine storage).regs inputs k)) t := by
  induction t with
  | zero => rfl
  | succ t ih =>
      rw [Clocked.regs_succ, Clocked.regs_succ, ← ih]
      rfl

/-- The head pointer counts the bytes written, around the 256 cells. -/
theorem headPointer_eq_auditWrites (storage : Memory) (inputs : Nat → Inputs)
    (hrst : ∀ t, (inputs t).rstN) (t : Nat) :
    ((machine storage).regs inputs t).auditWindow.headPointer.toNat =
      auditWrites storage inputs t % 256 := by
  rw [regs_auditWindow]
  exact AuditLogWindow.headPointer_eq_count storage _ hrst (by decide) (by decide) t

/-- With `audit_ready` tied high no edge leaves `audit_valid` high. -/
theorem edge_auditValid (input : Inputs) {state : State}
    (hlow : state.accelerator.auditValid = false) :
    (edge input state).accelerator.auditValid = false := by
  change (Accelerator.edge input.accelerator state.accelerator).auditValid = false
  cases hrst : input.rstN with
  | false => rw [Accelerator.edge_reset hrst]; rfl
  | true =>
      rw [Accelerator.edge_of_phase hrst]
      change (Accelerator.phaseEdge input.accelerator state.accelerator).auditValid = false
      unfold Accelerator.phaseEdge
      split
      case h_1 => unfold Accelerator.idleEdge; split_ifs <;> rfl
      case h_2 => unfold Accelerator.validateEdge; split_ifs <;> exact hlow
      case h_3 => unfold Accelerator.authEdge; split_ifs <;> exact hlow
      case h_4 => unfold Accelerator.fetchEdge; split_ifs <;> exact hlow
      case h_5 => unfold Accelerator.probeEdge; split_ifs <;> exact hlow
      case h_6 => exact hlow
      case h_7 => rfl
      case h_8 => unfold Accelerator.respondEdge; split_ifs <;> exact hlow
      case h_9 => exact hlow

theorem regs_auditValid (storage : Memory) (inputs : Nat → Inputs) (t : Nat) :
    ((machine storage).regs inputs t).accelerator.auditValid = false :=
  (machine storage).invariant (fun state => state.accelerator.auditValid = false) rfl
    (fun input _ hlow => edge_auditValid input hlow) inputs t

/-- The window is never written. -/
theorem auditWrites_eq_zero (storage : Memory) (inputs : Nat → Inputs) (t : Nat) :
    auditWrites storage inputs t = 0 := by
  apply Nat.count_iff_forall_not.mpr
  rintro k - ⟨-, hwrite⟩
  exact Bool.false_ne_true ((regs_auditValid storage inputs k).symm.trans hwrite)

/-- Without requests the accelerator stays idle. -/
theorem regs_idle (storage : Memory) (hquiet : ∀ t, (inputs t).reqValid = false) (t : Nat) :
    ((machine storage).regs inputs t).accelerator.state = .idle := by
  induction t with
  | zero => rfl
  | succ t ih =>
      by_contra hbusy
      obtain ⟨-, -, hvalid⟩ := Accelerator.accepts_of_busy ih hbusy
      exact Bool.false_ne_true ((hquiet t).symm.trans hvalid)

/-- A run that is presented a request enters a response phase. -/
theorem exists_responseEntered (storage : Memory) (hrst : ∀ t, (inputs t).rstN) {t : Nat}
    (hvalid : (inputs t).reqValid) :
    ∃ k, ResponseEntered (inputs k) ((machine storage).regs inputs k) := by
  have hbusy : ∃ start,
      (Accelerator.machine.regs (fun k => (inputs k).accelerator) start).state ≠ .idle := by
    by_cases hidle :
        (Accelerator.machine.regs (fun k => (inputs k).accelerator) t).state = .idle
    · refine ⟨t + 1, ?_⟩
      rw [Clocked.regs_succ]
      change (Accelerator.edge _ _).state ≠ .idle
      rw [Accelerator.edge_of_phase (hrst t), Accelerator.phaseEdge, hidle]
      have hpresented : (inputs t).accelerator.reqValid = true := hvalid
      simp [Accelerator.idleEdge, hpresented, Accelerator.Registers.setCycleCounter]
    · exact ⟨t, hidle⟩
  obtain ⟨start, hbusy⟩ := hbusy
  obtain ⟨last, -, hrespond⟩ :=
    Accelerator.eventually_responds (fun k => hrst k) (fun _ => rfl) hbusy
  rw [← regs_accelerator storage] at hrespond
  have hinit : (machine storage).init.accelerator.state ≠ .respond := Accelerator.Phase.noConfusion
  obtain ⟨k, -, hentry⟩ := (machine storage).exists_entry
    (fun state => state.accelerator.state = .respond) inputs hinit hrespond
  exact ⟨k, hentry⟩

/-- Out of reset, every answered lookup is audited in exactly the runs that are
never presented a request. -/
theorem everyResponseAudited_iff (storage : Memory) (inputs : Nat → Inputs)
    (hrst : ∀ t, (inputs t).rstN) :
    EveryResponseAudited storage inputs ↔ ∀ t, (inputs t).reqValid = false := by
  constructor
  · intro haudited t
    by_contra hvalid
    have hpresented : (inputs t).reqValid = true := by simpa using hvalid
    obtain ⟨k, hentered⟩ := exists_responseEntered storage hrst hpresented
    have hnone := haudited (k + 1)
    rw [auditWrites_eq_zero, responsesEntered, Nat.count_succ, if_pos hentered] at hnone
    omega
  · intro hquiet t
    rw [auditWrites_eq_zero, responsesEntered, eq_comm]
    apply Nat.count_iff_forall_not.mpr
    rintro k - ⟨-, hrespond⟩
    have hidle := regs_idle storage hquiet (k + 1)
    exact Accelerator.Phase.noConfusion (hidle.symm.trans hrespond)

/-- One request of the wrong type, with everything else in its favour. -/
def request (t : Nat) : Inputs where
  rstN := true
  reqValid := t = 0
  req := ⟨1, 0, true, true, true, true, 7, 0, 0, 0⟩
  tableControlBytes := 0
  tableGeneration := 0
  tableBaseResolvedId := 0
  tableLookupValid := true
  respReady := false

/-- The run with the request is not audited, and the one that starts behind it is. -/
theorem everyResponseAudited_request :
    ¬ EveryResponseAudited (fun _ => 0) request ∧
      EveryResponseAudited (fun _ => 0) fun t => request (t + 1) := by
  constructor
  · rw [everyResponseAudited_iff _ _ fun _ => rfl]
    exact fun hquiet => absurd (hquiet 0) (by decide)
  · rw [everyResponseAudited_iff _ _ fun _ => rfl]
    exact fun t => by simp [request]

/-- The request is answered and no byte was committed for it. -/
theorem response_without_audit :
    (∀ t, (request t).rstN) ∧
      ((machine fun _ => 0).regs request 4).accelerator.respValid ∧
      responsesEntered (fun _ => 0) request 4 = 1 ∧ auditWrites (fun _ => 0) request 4 = 0 := by
  refine ⟨fun _ => rfl, ?_⟩
  decide

end SystemWrapper

end Atarix
