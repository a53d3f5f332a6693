import Atarix.Rtl.Handshake
import Atarix.Rtl.RequestFields

/-! # One stable response per request

The acceptances and response transfers of a run, in the order of its edges. Out
of reset the state register says which of the two is due: an idle machine owes
an acceptance, a busy one a response.
-/

namespace Atarix

namespace Accelerator

inductive Event where
  | acceptance
  | responseTransfer
deriving DecidableEq, Repr

def Event.other : Event → Event
  | .acceptance => .responseTransfer
  | .responseTransfer => .acceptance

/-- The events of one edge. -/
def edgeEvents (input : Inputs) (regs : Registers) : List Event :=
  (if Accepts input regs then [.acceptance] else []) ++
    if ResponseTransfer input regs then [.responseTransfer] else []

/-- The events of the edges before `t`, oldest first. -/
def events (inputs : Nat → Inputs) : Nat → List Event
  | 0 => []
  | t + 1 => events inputs t ++ edgeEvents (inputs t) (machine.regs inputs t)

/-- The two events in strict turns, `due` first. -/
def Alternates (due : Event) : List Event → Prop
  | [] => True
  | event :: rest => event = due ∧ Alternates due.other rest

/-- Whose turn it is after a sequence of events that `due` opens. -/
def dueAfter (due : Event) : List Event → Event
  | [] => due
  | _ :: rest => dueAfter due.other rest

theorem Alternates.append {due : Event} {first second : List Event}
    (hfirst : Alternates due first) (hsecond : Alternates (dueAfter due first) second) :
    Alternates due (first ++ second) := by
  induction first generalizing due with
  | nil => exact hsecond
  | cons event rest ih => exact ⟨hfirst.1, ih hfirst.2 hsecond⟩

theorem dueAfter_append (due : Event) (first second : List Event) :
    dueAfter due (first ++ second) = dueAfter (dueAfter due first) second := by
  induction first generalizing due with
  | nil => rfl
  | cons event rest ih => exact ih due.other

/-- The event a phase waits for. -/
def Phase.due : Phase → Event
  | .idle => .acceptance
  | _ => .responseTransfer

theorem Phase.due_eq_of_busy {phase : Phase} (hbusy : phase ≠ .idle) :
    phase.due = .responseTransfer := by
  cases phase <;> first | rfl | exact absurd rfl hbusy

/-- An edge out of reset brings what is due or nothing, and hands the turn on
exactly when it brings it. -/
theorem edgeEvents_cases {input : Inputs} {regs : Registers} (hrst : input.rstN)
    (hregs : Coherent regs) :
    (edgeEvents input regs = [] ∧ (edge input regs).state.due = regs.state.due) ∨
      (edgeEvents input regs = [regs.state.due] ∧
        (edge input regs).state.due = regs.state.due.other) := by
  by_cases hidle : regs.state = .idle
  · have hno : ¬ ResponseTransfer input regs := by
      intro htransfer
      have hrespond := ((responseTransfer_iff hregs).mp htransfer).2.1
      rw [hidle] at hrespond
      exact Phase.noConfusion hrespond
    by_cases haccepts : Accepts input regs
    · right
      have hnext : (edge input regs).state = .validate := by
        rw [edge_of_phase hrst]
        change (phaseEdge input regs).state = .validate
        simp [phaseEdge, hidle, idleEdge, haccepts.2.2]
      simp [edgeEvents, haccepts, hno, hnext, hidle, Phase.due, Event.other]
    · left
      have hnext : (edge input regs).state = .idle :=
        Decidable.byContradiction fun hbusy => haccepts (accepts_of_busy hidle hbusy)
      simp [edgeEvents, haccepts, hno, hnext, hidle]
  · have hno : ¬ Accepts input regs := fun haccepts => hidle haccepts.2.1
    have hdue := Phase.due_eq_of_busy hidle
    by_cases htransfer : ResponseTransfer input regs
    · right
      have hnext := ((responseTransfer_iff hregs).mp htransfer).2.2
      simp [edgeEvents, htransfer, hno, hnext, Phase.due, Event.other]
    · left
      have hbusy : (edge input regs).state ≠ .idle := fun hrest =>
        htransfer (responseTransfer_of_rest hregs hrst hidle hrest)
      rw [Phase.due_eq_of_busy hbusy, hdue]
      simp [edgeEvents, htransfer, hno]

/-- Out of reset the events take turns, and the phase knows whose turn is next. -/
theorem events_alternate {inputs : Nat → Inputs} (hrst : ∀ t, (inputs t).rstN) (t : Nat) :
    Alternates .acceptance (events inputs t) ∧
      dueAfter .acceptance (events inputs t) = (machine.regs inputs t).state.due := by
  induction t with
  | zero => exact ⟨trivial, rfl⟩
  | succ t ih =>
      obtain ⟨halternates, hdue⟩ := ih
      have hnext : machine.regs inputs (t + 1) = edge (inputs t) (machine.regs inputs t) := rfl
      rw [events, dueAfter_append, hdue, hnext]
      rcases edgeEvents_cases (hrst t) (regs_coherent inputs t) with ⟨hnone, hsame⟩ | ⟨hone, hother⟩
      · rw [hnone, List.append_nil, hsame]
        exact ⟨halternates, rfl⟩
      · rw [hone, hother]
        refine ⟨halternates.append ?_, rfl⟩
        rw [hdue]
        exact ⟨rfl, trivial⟩

/-- A response that is not taken stays as it is. -/
theorem response_held {input : Inputs} {regs : Registers} (hrst : input.rstN)
    (hregs : Coherent regs) (hvalid : regs.respValid) (hready : input.respReady = false) :
    (edge input regs).respValid ∧ (edge input regs).response = regs.response := by
  have hphase := hregs.valid_respond hvalid
  have hseen : regs.responseSeen = true := by
    rw [hregs.seen_eq_valid]
    exact hvalid
  have hedge : phaseEdge input regs = { regs with respValid := true } := by
    simp [phaseEdge, hphase, respondEdge, hseen, hready]
  rw [edge_of_phase hrst, hedge]
  exact ⟨rfl, rfl⟩

/-- A run answers each request once: acceptances and response transfers take
turns, acceptance first, and a response that waits for `resp_ready` waits
unchanged. -/
structure OneStableResponse (inputs : Nat → Inputs) : Prop where
  alternates : ∀ t, Alternates .acceptance (events inputs t)
  stable : ∀ t, (machine.regs inputs t).respValid → (inputs t).respReady = false →
    (machine.regs inputs (t + 1)).respValid ∧
      (machine.regs inputs (t + 1)).response = (machine.regs inputs t).response

theorem one_stable_response (inputs : Nat → Inputs) (hrst : ∀ t, (inputs t).rstN) :
    OneStableResponse inputs where
  alternates t := (events_alternate hrst t).1
  stable t := response_held (hrst t) (regs_coherent inputs t)

theorem one_stable_response_heldRequest : OneStableResponse fun _ => heldRequest :=
  one_stable_response (fun _ => heldRequest) fun _ => rfl

example : events (fun _ => heldRequest) 6 = [.acceptance, .responseTransfer, .acceptance] := by
  decide

end Accelerator

end Atarix
