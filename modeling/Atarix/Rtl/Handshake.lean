import Atarix.Rtl.AcceleratorRun

/-! # The request handshake

`req_ready` is a register that idle raises one edge after it is entered, so a
request on the first idle edge after a response is taken while the requester
still sees `req_ready` low. This is the only way the handshake is broken.
-/

namespace Atarix

namespace Accelerator

section Run

variable (inputs : Nat → Inputs)

/-- The handshake is honoured over a run: requests start on transfers only, no
more are started than transfer, and a requester that holds `req_valid` from
`first` to the first edge `last` at which it sees `req_ready` has its request
started once in between. -/
structure HandshakeHonoured : Prop where
  starts_on_transfer : ∀ t, Accepts (inputs t) (machine.regs inputs t) →
    RequestTransfer (inputs t) (machine.regs inputs t)
  starts_le_transfers : ∀ t,
    Nat.count (fun k => Accepts (inputs k) (machine.regs inputs k)) t ≤
      Nat.count (fun k => RequestTransfer (inputs k) (machine.regs inputs k)) t
  held_starts_once : ∀ first last, first ≤ last →
    (∀ k, first ≤ k → k ≤ last → (inputs k).rstN ∧ (inputs k).reqValid) →
    (∀ k, first ≤ k → k < last → (machine.regs inputs k).reqReady = false) →
    (machine.regs inputs last).reqReady →
    Nat.count (fun k => Accepts (inputs k) (machine.regs inputs k)) (last + 1) =
      Nat.count (fun k => Accepts (inputs k) (machine.regs inputs k)) first + 1

/-- No request is presented on the edge after a response transfer. -/
def QuietAfterResponse : Prop :=
  ∀ t, ResponseTransfer (inputs t) (machine.regs inputs t) → (inputs (t + 1)).rstN →
    (inputs (t + 1)).reqValid = false

end Run

variable {inputs : Nat → Inputs}

/-- A low `req_ready` in idle was left by a response transfer one edge ago. -/
theorem idle_not_ready {t : Nat} (hidle : (machine.regs inputs t).state = .idle)
    (hready : (machine.regs inputs t).reqReady = false) :
    ∃ u, t = u + 1 ∧ ResponseTransfer (inputs u) (machine.regs inputs u) := by
  cases t with
  | zero => simp [machine, Clocked.regs_zero, resetRegisters] at hready
  | succ u =>
      refine ⟨u, rfl, ?_⟩
      rw [Clocked.regs_succ] at hidle hready
      cases hrst : (inputs u).rstN with
      | false =>
          simp [machine, edge_reset hrst, resetRegisters] at hready
      | true =>
          rw [responseTransfer_iff (regs_coherent inputs u)]
          refine ⟨hrst, ?_, hidle⟩
          have hsucc := edge_successor hrst (machine.regs inputs u)
          change Successor _ (machine.step _ _).state at hsucc
          rw [hidle] at hsucc
          cases hphase : (machine.regs inputs u).state <;> simp [hphase, Successor] at hsucc
          case respond => rfl
          case idle =>
            -- staying idle raises `req_ready`
            change (edge (inputs u) (machine.regs inputs u)).reqReady = false at hready
            change (edge (inputs u) (machine.regs inputs u)).state = .idle at hidle
            rw [edge_of_phase hrst] at hready hidle
            change (phaseEdge _ _).reqReady = false at hready
            change (phaseEdge _ _).state = .idle at hidle
            simp only [phaseEdge, hphase, idleEdge] at hready hidle
            split_ifs at hready hidle

/-- After a response transfer the process is idle with `req_ready` low. -/
theorem idle_after_response {t : Nat}
    (htransfer : ResponseTransfer (inputs t) (machine.regs inputs t)) :
    (machine.regs inputs (t + 1)).state = .idle ∧
      (machine.regs inputs (t + 1)).reqReady = false := by
  have hregs := regs_coherent inputs t
  obtain ⟨hrst, hphase, hidle⟩ := (responseTransfer_iff hregs).mp htransfer
  refine ⟨hidle, ?_⟩
  have hlow : (machine.regs inputs t).reqReady = false := by
    by_contra hready
    have := hregs.ready_idle (by simpa using hready)
    rw [hphase] at this
    cases this
  change (edge _ _).reqReady = false
  rw [edge_of_phase hrst]
  change (phaseEdge _ _).reqReady = false
  simp only [phaseEdge, hphase, respondEdge]
  split_ifs <;> exact hlow

/-- The handshake is honoured in exactly the runs that leave the edge after each
response free of requests. -/
theorem handshakeHonoured_iff (inputs : Nat → Inputs) :
    HandshakeHonoured inputs ↔ QuietAfterResponse inputs := by
  constructor
  · intro hhonoured t htransfer hrst
    by_contra hvalid
    obtain ⟨hidle, hready⟩ := idle_after_response htransfer
    obtain ⟨-, -, hhigh⟩ :=
      hhonoured.starts_on_transfer (t + 1) ⟨hrst, hidle, by simpa using hvalid⟩
    exact Bool.false_ne_true (hready.symm.trans hhigh)
  · intro hquiet
    have hstarts : ∀ t, Accepts (inputs t) (machine.regs inputs t) →
        RequestTransfer (inputs t) (machine.regs inputs t) := by
      rintro t ⟨hrst, hidle, hvalid⟩
      refine ⟨hrst, hvalid, ?_⟩
      by_contra hready
      obtain ⟨u, rfl, htransfer⟩ := idle_not_ready hidle (by simpa using hready)
      rw [hquiet u htransfer hrst] at hvalid
      exact Bool.false_ne_true hvalid
    refine ⟨hstarts, fun t => Nat.count_mono_left fun k _ => hstarts k, ?_⟩
    intro first last hle hheld hlow hready
    have hlast : Accepts (inputs last) (machine.regs inputs last) :=
      ⟨(hheld last hle le_rfl).1, (regs_coherent inputs last).ready_idle hready,
        (hheld last hle le_rfl).2⟩
    have hnone : ∀ k, first ≤ k → k < last → ¬ Accepts (inputs k) (machine.regs inputs k) := by
      intro k hfirst hk hstart
      have := (hstarts k hstart).2.2
      rw [hlow k hfirst hk] at this
      exact Bool.false_ne_true this
    rw [Nat.count_succ, if_pos hlast, Nat.count_eq_of_none hle hnone]

/-- A request held high, answered at once and offered again. -/
def heldRequest : Inputs where
  rstN := true
  reqValid := true
  req := ⟨0, 0, true, true, true, true, 0, 0, 0, 0⟩
  tableControlBytes := 0
  tableGeneration := 0
  tableBaseResolvedId := 0
  tableLookupValid := true
  respReady := true
  auditReady := true

/-- The held request transfers at edge 0 and is started again at edge 5, where
`req_ready` is low: two starts for one transfer. -/
theorem held_request_started_twice :
    Accepts heldRequest (machine.regs (fun _ => heldRequest) 5) ∧
      ¬ RequestTransfer heldRequest (machine.regs (fun _ => heldRequest) 5) ∧
      Nat.count (fun k => Accepts heldRequest (machine.regs (fun _ => heldRequest) k)) 6 = 2 ∧
      Nat.count (fun k => RequestTransfer heldRequest
        (machine.regs (fun _ => heldRequest) k)) 6 = 1 := by
  decide

end Accelerator

end Atarix
