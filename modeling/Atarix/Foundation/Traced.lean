import Mathlib.Tactic.Common

/-! # Computations with a trace

A program that touches memory is modelled by its value together with the events
it causes, in order. A bound on every access is then a predicate on the trace,
and it is checked piece by piece along the program.
-/

universe u v

/-- A value and the events that computing it caused. -/
@[ext] structure Traced (Event : Type u) (α : Type v) where
  value : α
  trace : List Event

namespace Traced

variable {Event : Type u} {α β : Type v}

instance : Monad (Traced Event) where
  pure value := ⟨value, []⟩
  bind program next := ⟨(next program.value).value, program.trace ++ (next program.value).trace⟩

/-- Events caused for no value. -/
def emit {Event : Type u} (events : List Event) : Traced Event PUnit := ⟨⟨⟩, events⟩

@[simp] theorem trace_emit (events : List Event) :
    (emit events : Traced Event PUnit.{v + 1}).trace = events := rfl

@[simp] theorem value_pure (value : α) : (pure value : Traced Event α).value = value := rfl

@[simp] theorem trace_pure (value : α) : (pure value : Traced Event α).trace = [] := rfl

@[simp] theorem value_bind (program : Traced Event α) (next : α → Traced Event β) :
    (program >>= next).value = (next program.value).value := rfl

@[simp] theorem trace_bind (program : Traced Event α) (next : α → Traced Event β) :
    (program >>= next).trace = program.trace ++ (next program.value).trace := rfl

@[simp] theorem trace_map (f : α → β) (program : Traced Event α) :
    (f <$> program).trace = program.trace :=
  List.append_nil _

theorem value_ite (condition : Prop) [Decidable condition] (yes no : Traced Event α) :
    (if condition then yes else no).value = if condition then yes.value else no.value :=
  apply_ite Traced.value condition yes no

/-- What follows a program matters at its value only. -/
theorem bind_congr {program : Traced Event α} {next next' : α → Traced Event β}
    (hnext : next program.value = next' program.value) : program >>= next = program >>= next' := by
  ext1
  · rw [value_bind, value_bind, hnext]
  · rw [trace_bind, trace_bind, hnext]

/-- What follows a program is determined by the whole. -/
theorem bind_cancel {program : Traced Event α} {next next' : α → Traced Event β}
    (hbind : program >>= next = program >>= next') : next program.value = next' program.value := by
  have hvalue := congrArg value hbind
  have htrace := congrArg trace hbind
  rw [value_bind, value_bind] at hvalue
  rw [trace_bind, trace_bind] at htrace
  exact Traced.ext hvalue (List.append_cancel_left htrace)

/-- Every event of the program is a permitted one. -/
def Respects (permitted : Event → Prop) (program : Traced Event α) : Prop :=
  ∀ event ∈ program.trace, permitted event

variable {permitted : Event → Prop}

@[simp] theorem respects_pure (value : α) :
    Respects permitted (pure value : Traced Event α) := by
  simp [Respects]

theorem respects_bind {program : Traced Event α} {next : α → Traced Event β} :
    Respects permitted (program >>= next) ↔
      Respects permitted program ∧ Respects permitted (next program.value) := by
  simp only [Respects, trace_bind, List.forall_mem_append]

theorem respects_ite {condition : Prop} [Decidable condition] {yes no : Traced Event α} :
    Respects permitted (if condition then yes else no) ↔
      (condition → Respects permitted yes) ∧ (¬ condition → Respects permitted no) := by
  split_ifs with hcondition <;> simp [hcondition]

theorem respects_mono {stronger : Event → Prop} (hmono : ∀ event, stronger event → permitted event)
    {program : Traced Event α} (hprogram : Respects stronger program) :
    Respects permitted program :=
  fun event hevent => hmono event (hprogram event hevent)

end Traced
