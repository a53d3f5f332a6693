import Mathlib.Data.Nat.Count
import Mathlib.Tactic.Common

/-! # Clocked machines

A machine has registers, a reset value for them and one step per clock edge. A
run is driven by a stream of inputs, one for each edge; the registers at time
`t` are those visible before edge `t`. The rules are the ones a proof about
every run uses: an invariant, agreement of two runs, progress by a rank.
-/

/-- Over an interval free of an event its count stands still. -/
theorem Nat.count_eq_of_none {event : Nat → Prop} [DecidablePred event] {first last : Nat}
    (hle : first ≤ last) (hnone : ∀ k, first ≤ k → k < last → ¬ event k) :
    Nat.count event last = Nat.count event first := by
  obtain ⟨length, rfl⟩ := Nat.exists_eq_add_of_le hle
  have hzero : Nat.count (fun k => event (first + k)) length = 0 :=
    Nat.count_iff_forall_not.mpr fun k hk => hnone (first + k) (by omega) (by omega)
  rw [Nat.count_add, hzero, Nat.add_zero]

/-- What, short of a goal, goes on and lowers a rank at every instant reaches the
goal. -/
theorem Nat.exists_of_rank (inv goal : Nat → Prop) (rank : Nat → Nat)
    (hstep : ∀ t, inv t → ¬ goal t → inv (t + 1) ∧ rank (t + 1) < rank t)
    {start : Nat} (hstart : inv start) : ∃ t, start ≤ t ∧ inv t ∧ goal t := by
  generalize hrank : rank start = value
  induction value using Nat.strong_induction_on generalizing start with
  | _ value ih =>
      by_cases hgoal : goal start
      · exact ⟨start, le_rfl, hstart, hgoal⟩
      obtain ⟨hinv, hlt⟩ := hstep start hstart hgoal
      obtain ⟨t, hle, hreached⟩ := ih _ (hrank ▸ hlt) hinv rfl
      exact ⟨t, by omega, hreached⟩

/-- What waits for a condition that keeps returning meets it. -/
theorem Nat.exists_of_recurs {waits condition : Nat → Prop}
    (hrecurs : ∀ t, ∃ k, t ≤ k ∧ condition k)
    (hstep : ∀ t, waits t → ¬ condition t → waits (t + 1)) {start : Nat} (hstart : waits start) :
    ∃ t, start ≤ t ∧ waits t ∧ condition t := by
  obtain ⟨last, hle, hlast⟩ := hrecurs start
  have hbefore : ∀ t, waits t ∧ t ≤ last → ¬ condition t →
      (waits (t + 1) ∧ t + 1 ≤ last) ∧ last - (t + 1) < last - t := by
    rintro t ⟨hwaits, hle⟩ hcondition
    have hne : t ≠ last := fun heq => hcondition (heq ▸ hlast)
    exact ⟨⟨hstep t hwaits hcondition, by omega⟩, by omega⟩
  obtain ⟨t, hfirst, ⟨hwaits, -⟩, hcondition⟩ :=
    Nat.exists_of_rank _ condition (fun t => last - t) hbefore ⟨hstart, hle⟩
  exact ⟨t, hfirst, hwaits, hcondition⟩

/-- The first instant from `start` on at which a condition holds. -/
structure Nat.FirstFrom (condition : Nat → Prop) (start first : Nat) : Prop where
  le : start ≤ first
  holds : condition first
  before : ∀ k, start ≤ k → k < first → ¬ condition k

theorem Nat.FirstFrom.here {condition : Nat → Prop} {start : Nat} (hholds : condition start) :
    Nat.FirstFrom condition start start :=
  ⟨le_rfl, hholds, fun _ hk hlt => absurd hk (Nat.not_le.mpr hlt)⟩

/-- What goes on while it waits for a condition is there when the condition holds. -/
theorem Nat.FirstFrom.waits {condition : Nat → Prop} {start first : Nat}
    (hfirst : Nat.FirstFrom condition start first) (waits : Nat → Prop) (hstart : waits start)
    (hstep : ∀ t, waits t → ¬ condition t → waits (t + 1)) : waits first := by
  have hall : ∀ k, start ≤ k → k ≤ first → waits k := by
    intro k hk
    induction k, hk using Nat.le_induction with
    | base => exact fun _ => hstart
    | succ k hk ih => exact fun hle => hstep k (ih (by omega)) (hfirst.before k hk (by omega))
  exact hall first hfirst.le le_rfl

universe uInput uState

/-- A synchronous machine over one clock. -/
structure Clocked (Input : Type uInput) (State : Type uState) where
  init : State
  step : Input → State → State

namespace Clocked

variable {Input : Type uInput} {State : Type uState} (machine : Clocked Input State)

/-- The registers before edge `t` of the run that `inputs` drive. -/
def regs (inputs : Nat → Input) : Nat → State
  | 0 => machine.init
  | t + 1 => machine.step (inputs t) (regs inputs t)

theorem regs_zero (inputs : Nat → Input) : machine.regs inputs 0 = machine.init := rfl

theorem regs_succ (inputs : Nat → Input) (t : Nat) :
    machine.regs inputs (t + 1) = machine.step (inputs t) (machine.regs inputs t) := rfl

/-- What reset establishes and every edge preserves holds at all times. -/
theorem invariant (inv : State → Prop) (hinit : inv machine.init)
    (hstep : ∀ input state, inv state → inv (machine.step input state))
    (inputs : Nat → Input) (t : Nat) : inv (machine.regs inputs t) := by
  induction t with
  | zero => exact hinit
  | succ t ih => exact hstep _ _ ih

/-- Two runs whose inputs agree before `t` have the same registers at `t`. -/
theorem regs_congr {left right : Nat → Input} {t : Nat}
    (hagree : ∀ k < t, left k = right k) :
    machine.regs left t = machine.regs right t := by
  induction t with
  | zero => rfl
  | succ t ih => rw [regs_succ, regs_succ, hagree t (by omega), ih fun k hk => hagree k (by omega)]

/-- Two runs stay together over edges at which the common registers take the
two inputs to the same successor. -/
theorem lockstep {left right : Nat → Input} {start : Nat}
    (hstart : machine.regs left start = machine.regs right start) (count : Nat)
    (hedge : ∀ k, start ≤ k → k < start + count →
      machine.step (left k) (machine.regs left k) = machine.step (right k) (machine.regs left k)) :
    machine.regs left (start + count) = machine.regs right (start + count) := by
  induction count with
  | zero => exact hstart
  | succ count ih =>
      have hsame := ih fun k hk hlt => hedge k hk (by omega)
      have hlast := hedge (start + count) (by omega) (by omega)
      rw [← Nat.add_assoc, regs_succ, regs_succ, hlast, hsame]

/-- A run that, short of the goal, keeps an invariant and lowers a rank at every
edge reaches the goal. -/
theorem eventually (inv goal : State → Prop) (rank : State → Nat) (inputs : Nat → Input)
    (hstep : ∀ t, inv (machine.regs inputs t) → ¬ goal (machine.regs inputs t) →
      inv (machine.regs inputs (t + 1)) ∧
        rank (machine.regs inputs (t + 1)) < rank (machine.regs inputs t))
    {start : Nat} (hstart : inv (machine.regs inputs start)) :
    ∃ t, start ≤ t ∧ goal (machine.regs inputs t) := by
  obtain ⟨t, hle, -, hgoal⟩ := Nat.exists_of_rank (fun t => inv (machine.regs inputs t))
    (fun t => goal (machine.regs inputs t)) (fun t => rank (machine.regs inputs t)) hstep hstart
  exact ⟨t, hle, hgoal⟩

/-- A predicate that fails at reset and holds later is entered by some edge. -/
theorem exists_entry (goal : State → Prop) (inputs : Nat → Input)
    (hinit : ¬ goal machine.init) {t : Nat} (hgoal : goal (machine.regs inputs t)) :
    ∃ k < t, ¬ goal (machine.regs inputs k) ∧ goal (machine.regs inputs (k + 1)) := by
  induction t with
  | zero => exact absurd hgoal hinit
  | succ t ih =>
      by_cases hbefore : goal (machine.regs inputs t)
      · obtain ⟨k, hk, hentry⟩ := ih hbefore
        exact ⟨k, by omega, hentry⟩
      · exact ⟨t, by omega, hbefore, hgoal⟩

end Clocked
