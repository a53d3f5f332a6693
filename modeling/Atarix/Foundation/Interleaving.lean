import Mathlib.Data.List.Perm.Basic
import Mathlib.Data.List.Count
import Mathlib.Tactic.Common

/-! # Interleaved events

Parties share one state, and a run is any order of their events. What one party
sees of a run is a run of its own, on what it was given, whatever the others do in
between; and runs that give every party the same differ in the order alone.
-/

namespace Interleaving

variable {State Event Note Local Out : Type*}

/-- The state after events. -/
def run (step : State → Event → State) (state : State) (events : List Event) : State :=
  events.foldl step state

/-- What an observer notes of the events, each in the state it meets. -/
def log (step : State → Event → State) (note : State → Event → Option Note) :
    State → List Event → List Note
  | _, [] => []
  | state, event :: rest => (note state event).toList ++ log step note (step state event) rest

section Basic

variable (step : State → Event → State) (note : State → Event → Option Note) (state : State)

@[simp] theorem run_nil : run step state [] = state := rfl

@[simp] theorem run_cons (event : Event) (rest : List Event) :
    run step state (event :: rest) = run step (step state event) rest := rfl

@[simp] theorem log_nil : log step note state [] = [] := rfl

theorem log_cons (event : Event) (rest : List Event) :
    log step note state (event :: rest) =
      (note state event).toList ++ log step note (step state event) rest := rfl

theorem run_append (earlier later : List Event) :
    run step state (earlier ++ later) = run step (run step state earlier) later :=
  List.foldl_append

theorem log_append (earlier later : List Event) :
    log step note state (earlier ++ later) =
      log step note state earlier ++ log step note (run step state earlier) later := by
  induction earlier generalizing state with
  | nil => rfl
  | cons event rest ih => rw [List.cons_append, log_cons, log_cons, ih, List.append_assoc, run_cons]

/-- What is noted of a part of the events: the other notes are left out. -/
theorem log_filterMap {Part : Type*} (choose : Note → Option Part) (events : List Event) :
    log step (fun state event => (note state event).bind choose) state events =
      (log step note state events).filterMap choose := by
  induction events generalizing state with
  | nil => rfl
  | cons event rest ih =>
      rw [log_cons, log_cons, List.filterMap_append, ih]
      cases note state event with
      | none => rfl
      | some noted =>
          rw [Option.bind_some, Option.toList_some, List.filterMap_cons, List.filterMap_nil]
          cases choose noted <;> rfl

end Basic

/-! ## One party of a run -/

section View

variable {step : State → Event → State} {note : State → Event → Option Note}
  (view : State → Local) (localStep : Local → Note → Local)

/-- The view of a party after a run is what its own notes make of it. -/
theorem view_run (hlocal : ∀ state event, view (step state event) =
      (note state event).elim (view state) (localStep (view state)))
    (state : State) (events : List Event) :
    view (run step state events) = run localStep (view state) (log step note state events) := by
  induction events generalizing state with
  | nil => rfl
  | cons event rest ih =>
      rw [run_cons, ih, hlocal, log_cons]
      cases note state event <;> rfl

/-- What a party puts out in a run is what it puts out on its own notes. -/
theorem log_view {out : State → Event → Option Out} (localOut : Local → Note → Option Out)
    (hlocal : ∀ state event, view (step state event) =
      (note state event).elim (view state) (localStep (view state)))
    (hout : ∀ state event, out state event = (note state event).bind (localOut (view state)))
    (state : State) (events : List Event) :
    log step out state events =
      log localStep localOut (view state) (log step note state events) := by
  induction events generalizing state with
  | nil => rfl
  | cons event rest ih =>
      rw [log_cons, log_cons, ih, hlocal, hout]
      cases note state event <;> rfl

end View

/-! ## Two orders of one run -/

/-- Lists that agree under every key hold the same elements. -/
theorem perm_of_filter_eq {Element Key : Type*} [DecidableEq Key] {key : Element → Key}
    {first second : List Element}
    (hsame : ∀ wanted, first.filter (key · = wanted) = second.filter (key · = wanted)) :
    first.Perm second := by
  classical
  rw [List.perm_iff_count]
  intro element
  have hcount (elements : List Element) :
      (elements.filter (key · = key element)).count element = elements.count element :=
    List.count_filter (by simp)
  rw [← hcount first, ← hcount second, hsame]

end Interleaving
