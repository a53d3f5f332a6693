import Atarix.Rtl.AcceleratorRun

/-! # Authorization gates and fail-closed results

The history of the request in flight: which edges passed its gates, and what the
result registers hold at each phase. Nothing else reaches the table, and a
response that is not OK carries the cleared result.
-/

namespace Atarix

namespace Accelerator

/-! ## Samples taken at an edge -/

/-- The request passes `STATE_VALIDATE` at this edge. -/
def Validates (input : Inputs) (regs : Registers) : Prop :=
  input.rstN ∧ regs.state = .validate ∧ input.req.type = typeIndexQuery ∧ input.req.crcOk

/-- The request passes `STATE_AUTH` at this edge. -/
def Authorizes (input : Inputs) (regs : Registers) : Prop :=
  input.rstN ∧ regs.state = .auth ∧
    input.req.ringOk ∧ input.req.capabilityOk ∧ input.req.policyOk

/-- A table window is fetched at this edge. -/
def Fetches (input : Inputs) (regs : Registers) : Prop :=
  input.rstN ∧ regs.state = .fetch ∧ input.tableLookupValid

/-- A lane matches at this edge. -/
def Hits (input : Inputs) (regs : Registers) : Prop :=
  input.rstN ∧ regs.state = .probe ∧ simdHit input regs

/-- The result registers as acceptance leaves them. -/
structure Cleared (regs : Registers) : Prop where
  resolvedId : regs.respResolvedId = 0xFFFFFFFF
  resolvedGeneration : regs.respResolvedGeneration = 0
  matchOffset : regs.respMatchOffset = 0

section Run

variable (inputs : Nat → Inputs)

/-- The request in flight at `t`, accepted at `a`, passed both gates in the two
edges after its acceptance. -/
structure Gated (a t : Nat) : Prop where
  processing : Processing inputs a t
  lt : a + 2 < t
  validates : Validates (inputs (a + 1)) (machine.regs inputs (a + 1))
  authorizes : Authorizes (inputs (a + 2)) (machine.regs inputs (a + 2))

/-- Since `a` a window was fetched and a lane of it matched at the next edge. -/
def Found (a t : Nat) : Prop :=
  ∃ f, a < f ∧ f + 1 < t ∧ Fetches (inputs f) (machine.regs inputs f) ∧
    Hits (inputs (f + 1)) (machine.regs inputs (f + 1))

/-- What the registers of a request accepted at `a` say about its edges so far. -/
def History (a t : Nat) (regs : Registers) : Prop :=
  match regs.state with
  | .validate => t = a + 1 ∧ regs.respStatus = statusOk ∧ Cleared regs
  | .auth => t = a + 2 ∧ Validates (inputs (a + 1)) (machine.regs inputs (a + 1)) ∧
      regs.respStatus = statusOk ∧ Cleared regs
  | .fetch | .step => Gated inputs a t ∧ regs.respStatus = statusOk ∧ Cleared regs
  | .probe => Gated inputs a t ∧
      (∃ f, a < f ∧ t = f + 1 ∧ Fetches (inputs f) (machine.regs inputs f)) ∧
      regs.respStatus = statusOk ∧ Cleared regs
  | .audit | .respond =>
      if regs.respStatus = statusOk then Gated inputs a t ∧ Found inputs a t else Cleared regs
  | .idle | .unused => False

end Run

variable {inputs : Nat → Inputs} {a t : Nat}

theorem Gated.succ (hgated : Gated inputs a t)
    (hbusy : (machine.regs inputs (t + 1)).state ≠ .idle) : Gated inputs a (t + 1) :=
  ⟨hgated.processing.succ hbusy, Nat.lt_succ_of_lt hgated.lt, hgated.validates, hgated.authorizes⟩

theorem Found.succ (hfound : Found inputs a t) : Found inputs a (t + 1) := by
  obtain ⟨f, hlt, hle, hfetch, hhit⟩ := hfound
  exact ⟨f, hlt, Nat.lt_succ_of_lt hle, hfetch, hhit⟩

/-- Acceptance starts a history. -/
theorem history_start (haccepts : Accepts (inputs t) (machine.regs inputs t)) :
    History inputs t (t + 1) (machine.regs inputs (t + 1)) := by
  obtain ⟨hrst, hidle, hvalid⟩ := haccepts
  rw [regs_succ_of_rst hrst]
  simp only [phaseEdge, hidle, idleEdge, hvalid, if_true]
  exact ⟨rfl, rfl, rfl, rfl, rfl⟩

/-- A refusal leaves a history whatever came before it. -/
theorem history_refused {regs : Registers} (status : BitVec 8) (hrefused : status ≠ statusOk)
    (hphase : regs.state = .audit) (hstatus : regs.respStatus = status) (hclear : Cleared regs) :
    History inputs a t regs := by
  simp only [History, hphase, hstatus, if_neg hrefused]
  exact hclear

/-- A decided request keeps its decision while its result registers stand. -/
theorem history_decided {regs next : Registers}
    (hdecided : if regs.respStatus = statusOk then Gated inputs a t ∧ Found inputs a t
      else Cleared regs)
    (hbusy : (machine.regs inputs (t + 1)).state ≠ .idle)
    (hphase : next.state = .audit ∨ next.state = .respond)
    (hstatus : next.respStatus = regs.respStatus) (hclear : Cleared regs → Cleared next) :
    History inputs a (t + 1) next := by
  have hgoal : if next.respStatus = statusOk then Gated inputs a (t + 1) ∧ Found inputs a (t + 1)
      else Cleared next := by
    rw [hstatus]
    split_ifs at hdecided ⊢
    · exact ⟨hdecided.1.succ hbusy, hdecided.2.succ⟩
    · exact hclear hdecided
  rcases hphase with hphase | hphase <;> simpa only [History, hphase] using hgoal

/-- An edge that does not end the request extends its history. -/
theorem history_succ (hprocessing : Processing inputs a t)
    (hhistory : History inputs a t (machine.regs inputs t))
    (hbusy : (machine.regs inputs (t + 1)).state ≠ .idle) :
    History inputs a (t + 1) (machine.regs inputs (t + 1)) := by
  have hrst := rst_of_busy hbusy
  have hnext := regs_succ_of_rst hrst
  have hprocessing' := hprocessing.succ hbusy
  rw [hnext]
  cases hphase : (machine.regs inputs t).state <;>
    simp only [History, hphase] at hhistory <;> simp only [phaseEdge, hphase]
  case validate =>
      obtain ⟨rfl, hstatus, hclear⟩ := hhistory
      unfold validateEdge
      split_ifs with htype hcrc
      · exact history_refused statusInvalidHeader (by decide) rfl rfl
          ⟨hclear.1, hclear.2, hclear.3⟩
      · have hvalidates : Validates (inputs (a + 1)) (machine.regs inputs (a + 1)) :=
          ⟨hrst, hphase, not_not.mp htype, hcrc⟩
        exact ⟨rfl, hvalidates, hstatus, hclear.1, hclear.2, hclear.3⟩
      · exact history_refused statusCrcMismatch (by decide) rfl rfl
          ⟨hclear.1, hclear.2, hclear.3⟩
  case auth =>
      obtain ⟨rfl, hvalidates, hstatus, hclear⟩ := hhistory
      unfold authEdge
      split_ifs with hring hcapability hpolicy
      · have hauthorizes : Authorizes (inputs (a + 2)) (machine.regs inputs (a + 2)) :=
          ⟨hrst, hphase, hring, hcapability, hpolicy⟩
        exact ⟨⟨hprocessing', by omega, hvalidates, hauthorizes⟩, hstatus,
          hclear.1, hclear.2, hclear.3⟩
      · exact history_refused statusPolicyDenied (by decide) rfl rfl
          ⟨hclear.1, hclear.2, hclear.3⟩
      · exact history_refused statusCapDenied (by decide) rfl rfl
          ⟨hclear.1, hclear.2, hclear.3⟩
      · exact history_refused statusRingDenied (by decide) rfl rfl
          ⟨hclear.1, hclear.2, hclear.3⟩
  case fetch =>
      obtain ⟨hgated, hstatus, hclear⟩ := hhistory
      unfold fetchEdge
      split_ifs with hlookup
      · exact ⟨hgated.succ hbusy, ⟨t, hprocessing.lt, rfl, hrst, hphase, hlookup⟩, hstatus,
          hclear.1, hclear.2, hclear.3⟩
      · exact history_refused statusTimeout (by decide) rfl rfl
          ⟨hclear.1, hclear.2, hclear.3⟩
  case probe =>
      obtain ⟨hgated, ⟨f, hlt, rfl, hfetch⟩, hstatus, hclear⟩ := hhistory
      unfold probeEdge
      split_ifs with hhit hlimit
      · exact ⟨hgated.succ hbusy, f, hlt, by omega, hfetch, hrst, hphase, hhit⟩
      · exact history_refused statusSequenceError (by decide) rfl rfl
          ⟨hclear.1, hclear.2, hclear.3⟩
      · exact ⟨hgated.succ hbusy, hstatus, hclear.1, hclear.2, hclear.3⟩
  case step =>
      obtain ⟨hgated, hstatus, hclear⟩ := hhistory
      exact ⟨hgated.succ hbusy, hstatus, hclear.1, hclear.2, hclear.3⟩
  case audit =>
      unfold auditEdge
      split_ifs
      · exact history_decided hhistory hbusy (Or.inr rfl) rfl
          fun hclear => ⟨hclear.1, hclear.2, hclear.3⟩
      · exact history_decided hhistory hbusy (Or.inl hphase) rfl
          fun hclear => ⟨hclear.1, hclear.2, hclear.3⟩
  case respond =>
      have hstay : (respondEdge (inputs t) (machine.regs inputs t)).state ≠ .idle := by
        rw [hnext, phaseEdge, hphase] at hbusy
        exact hbusy
      obtain ⟨cycles, seen, heq⟩ := respondEdge_of_busy hstay
      rw [heq]
      exact history_decided hhistory hbusy (Or.inr hphase) rfl
        fun hclear => ⟨hclear.1, hclear.2, hclear.3⟩

/-- At every time the machine is idle or its registers tell the history of the
request in flight. -/
theorem regs_history (inputs : Nat → Inputs) (t : Nat) :
    (machine.regs inputs t).state = .idle ∨
      ∃ a, Processing inputs a t ∧ History inputs a t (machine.regs inputs t) := by
  induction t with
  | zero => exact Or.inl rfl
  | succ t ih =>
      by_cases hbusy : (machine.regs inputs (t + 1)).state = .idle
      · exact Or.inl hbusy
      right
      rcases ih with hidle | ⟨a, hprocessing, hhistory⟩
      · have haccepts := accepts_of_busy hidle hbusy
        refine ⟨t, ⟨Nat.lt_succ_self t, haccepts, fun k hk hle => ?_⟩, history_start haccepts⟩
        obtain rfl : k = t + 1 := by omega
        exact hbusy
      · exact ⟨a, hprocessing.succ hbusy, history_succ hprocessing hhistory hbusy⟩

/-- The history of a machine in a phase other than idle. -/
theorem regs_history_of_phase {phase : Phase} (hphase : (machine.regs inputs t).state = phase)
    (hbusy : phase ≠ .idle) :
    ∃ a, Processing inputs a t ∧ History inputs a t (machine.regs inputs t) := by
  rcases regs_history inputs t with hidle | hhistory
  · exact absurd (hphase.symm.trans hidle) hbusy
  · exact hhistory

/-- In every run the table is probed only for a request that passed both gates,
an OK response belongs to such a request whose probe hit a fetched window, and
any other response carries the cleared result. -/
theorem gates_fail_closed (inputs : Nat → Inputs) (t : Nat) :
    ((machine.regs inputs t).probeValid → ∃ a, Gated inputs a t) ∧
      ((machine.regs inputs t).respValid →
        if (machine.regs inputs t).respStatus = statusOk then
          ∃ a, Gated inputs a t ∧ Found inputs a t
        else Cleared (machine.regs inputs t)) := by
  have hcoherent := regs_coherent inputs t
  constructor
  · intro hprobe
    have hphase := hcoherent.probing_fetch hprobe
    obtain ⟨a, -, hhistory⟩ := regs_history_of_phase hphase (by decide)
    simp only [History, hphase] at hhistory
    exact ⟨a, hhistory.1⟩
  · intro hvalid
    have hphase := hcoherent.valid_respond hvalid
    obtain ⟨a, -, hhistory⟩ := regs_history_of_phase hphase (by decide)
    simp only [History, hphase] at hhistory
    split_ifs at hhistory ⊢
    · exact ⟨a, hhistory⟩
    · exact hhistory

end Accelerator

end Atarix
