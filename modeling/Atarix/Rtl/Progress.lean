import Atarix.Rtl.AcceleratorRun

/-! # Progress of a request

The probe count has eight bits and so has the limit it is compared with, so the
probe loop ends. While the audit consumer is ready every edge brings a request
closer to its response.
-/

namespace Atarix

namespace Accelerator

/-- A bound on the edges a request still needs to reach `STATE_RESPOND`. -/
def edgesToRespond (regs : Registers) : Nat :=
  match regs.state with
  | .idle | .respond => 0
  | .validate => 770
  | .auth => 769
  | .fetch => 3 * (255 - regs.probeCount.toNat) + 3
  | .probe => 3 * (255 - regs.probeCount.toNat) + 2
  | .step => 3 * (255 - regs.probeCount.toNat) + 4
  | .audit => 1
  | .unused => 2

theorem edgesToRespond_lt {input : Inputs} {regs : Registers} (hrst : input.rstN)
    (haudit : regs.state = .audit → input.auditReady) (hbusy : regs.state ≠ .idle)
    (hearly : regs.state ≠ .respond) : edgesToRespond (edge input regs) < edgesToRespond regs := by
  rw [edge_of_phase hrst]
  have hcount := regs.probeCount.isLt
  cases hphase : regs.state <;> simp only [phaseEdge, edgesToRespond, hphase]
  case idle => exact absurd hphase hbusy
  case validate => unfold validateEdge; split_ifs <;> simp [Registers.setCycleCounter]
  case auth =>
      unfold authEdge
      split_ifs <;> simp only [Registers.setCycleCounter] <;> omega
  case fetch => unfold fetchEdge; split_ifs <;> simp only [Registers.setCycleCounter] <;> omega
  case probe =>
      unfold probeEdge
      split_ifs with hhit hlimit <;> simp only [Registers.setCycleCounter]
      · omega
      · omega
      · -- below the limit the count has room, so the increment does not wrap
        have hroom : regs.probeCount.toNat < 255 := by
          have := input.req.probeLimit.isLt
          simp only [ge_iff_le, BitVec.le_def] at hlimit
          omega
        have hnext : (regs.probeCount + 1).toNat = regs.probeCount.toNat + 1 := by
          rw [BitVec.toNat_add]
          exact Nat.mod_eq_of_lt (show _ + 1 < 2 ^ 8 by omega)
        rw [hnext]
        omega
  case step => simp only [stepEdge, Registers.setCycleCounter]; omega
  case audit => simp [auditEdge, haudit hphase, Registers.setCycleCounter]
  case respond => exact absurd hphase hearly
  case unused => simp [unusedEdge, Registers.setCycleCounter]

theorem busy_of_early {input : Inputs} {regs : Registers} (hrst : input.rstN)
    (hbusy : regs.state ≠ .idle) (hearly : regs.state ≠ .respond) :
    (edge input regs).state ≠ .idle := by
  intro hrest
  exact hearly (respond_of_rest hrst hbusy hrest)

/-- A request in flight reaches its response. -/
theorem eventually_responds {inputs : Nat → Inputs} (hrst : ∀ t, (inputs t).rstN)
    (haudit : ∀ t, (inputs t).auditReady) {start : Nat}
    (hbusy : (machine.regs inputs start).state ≠ .idle) :
    ∃ t, start ≤ t ∧ (machine.regs inputs t).state = .respond := by
  refine machine.eventually (fun regs => regs.state ≠ .idle) (fun regs => regs.state = .respond)
    edgesToRespond inputs ?_ hbusy
  intro t hbusy hearly
  exact ⟨busy_of_early (hrst t) hbusy hearly,
    edgesToRespond_lt (hrst t) (fun _ => haudit t) hbusy hearly⟩

end Accelerator

end Atarix
