import Atarix.Foundation.Lines

/-! # Notations that end by themselves

A notation tells something of a value if it can be cut off from whatever is written
behind it and determines what it tells. Such notations can be written one after the
other, and a sequence in them can be read back up to the end of the text.
-/

namespace Delimited

variable {α β γ χ : Type*}

/-- What is written for a value ends by itself and determines the view of the value. -/
def Tells (write : α → List χ) (view : α → β) : Prop :=
  ∀ ⦃first second : α⦄ ⦃rest rest' : List χ⦄,
    write first ++ rest = write second ++ rest' → view first = view second ∧ rest = rest'

variable {write write' : α → List χ} {view : α → β} {view' : α → γ}

theorem Tells.append (htells : Tells write view) (htells' : Tells write' view') :
    Tells (fun value => write value ++ write' value) fun value => (view value, view' value) := by
  intro first second rest rest' heq
  rw [List.append_assoc, List.append_assoc] at heq
  obtain ⟨hview, hrest⟩ := htells heq
  obtain ⟨hview', hend⟩ := htells' hrest
  exact ⟨Prod.ext hview hview', hend⟩

/-- A text in front that is the same for all values changes nothing. -/
theorem Tells.behind (text : List χ) (htells : Tells write view) :
    Tells (fun value => text ++ write value) view := by
  intro first second rest rest' heq
  rw [List.append_assoc, List.append_assoc] at heq
  exact htells (List.append_cancel_left heq)

theorem Tells.of_view (htells : Tells write view)
    (hview : ∀ first second, view first = view second → view' first = view' second) :
    Tells write view' := by
  intro first second rest rest' heq
  obtain ⟨hsame, hrest⟩ := htells heq
  exact ⟨hview first second hsame, hrest⟩

/-- A text without the separator is closed by it. -/
theorem tells_closed {separator : χ} (hplain : ∀ value, separator ∉ write value)
    (hview : ∀ first second, write first = write second → view first = view second) :
    Tells (fun value => write value ++ [separator]) view := by
  intro first second rest rest' heq
  rw [List.append_assoc, List.append_assoc] at heq
  obtain ⟨htext, hrest⟩ := Text.append_separator_inj (hplain first) (hplain second) heq
  exact ⟨hview first second htext, hrest⟩

theorem Tells.injective (htells : Tells write id) : Function.Injective write := by
  intro first second heq
  exact (htells (congrArg (· ++ []) heq)).1

/-! ## Sequences -/

/-- The values one after the other, each in the notation of its place. -/
def writeFrom (write : Nat → α → List χ) : Nat → List α → List χ
  | _, [] => []
  | place, value :: values => write place value ++ writeFrom write (place + 1) values

/-- By induction on a sequence: no notation is empty, so the end of the text is the end of
the sequence. -/
theorem writeFrom_injective {write : Nat → α → List χ} (htells : ∀ place, Tells (write place) id)
    (hsome : ∀ place value, write place value ≠ []) (place : Nat) :
    Function.Injective (writeFrom write place) := by
  intro values values' heq
  induction values generalizing place values' with
  | nil =>
      cases values' with
      | nil => rfl
      | cons value' values' =>
          exact absurd (List.append_eq_nil_iff.mp heq.symm).1 (hsome place value')
  | cons value values ih =>
      cases values' with
      | nil => exact absurd (List.append_eq_nil_iff.mp heq).1 (hsome place value)
      | cons value' values' =>
          obtain ⟨hvalue, hrest⟩ := htells place heq
          rw [show value = value' from hvalue, ih (place + 1) hrest]

end Delimited
