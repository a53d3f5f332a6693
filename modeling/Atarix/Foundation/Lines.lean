import Mathlib.Data.List.Basic

/-! # Text in lines

Text is written in lines, each closed by a line feed, and read back by the labels
that the lines start with.
-/

namespace Text

/-- The lines one after the other, each closed by a line feed. -/
def ofLines (lines : List (List Char)) : List Char := lines.flatMap (· ++ ['\n'])

/-- The closed lines of a text. -/
def toLines (text : List Char) : List (List Char) := (text.splitOn '\n').dropLast

/-- What stands behind the label, in each of the lines that start with it. -/
def behind (label : List Char) (lines : List (List Char)) : List (List Char) :=
  lines.filterMap (·.dropPrefix? label)

variable {lines lines' : List (List Char)} {label : List Char}

theorem ofLines_append : ofLines (lines ++ lines') = ofLines lines ++ ofLines lines' :=
  List.flatMap_append

/-- Lines without a line feed of their own are read back. -/
theorem toLines_ofLines (hplain : ∀ line ∈ lines, '\n' ∉ line) :
    toLines (ofLines lines) = lines := by
  have hsplit : (ofLines lines).splitOn '\n' = lines ++ [[]] := by
    induction lines with
    | nil => rfl
    | cons line lines ih =>
        obtain ⟨hline, hlines⟩ := List.forall_mem_cons.mp hplain
        rw [ofLines, List.flatMap_cons, List.append_assoc, List.singleton_append,
          List.splitOn_append_cons_self, List.splitOn_eq_singleton hline]
        exact congrArg (line :: ·) (ih hlines)
  rw [toLines, hsplit, List.dropLast_concat]

theorem behind_append :
    behind label (lines ++ lines') = behind label lines ++ behind label lines' :=
  List.filterMap_append

theorem behind_of_prefix (text : List Char) : behind label [label ++ text] = [text] := by
  have hdrop : (label ++ text).dropPrefix? label = some text :=
    List.dropPrefix?_append_of_beq text (beq_self_eq_true label)
  simp [behind, hdrop]

/-- Nothing is read from a line that does not start with the label. -/
theorem behind_of_not_prefix {line : List Char} (hother : ∀ text, line ≠ label ++ text) :
    behind label [line] = [] := by
  have hnone : line.dropPrefix? label = none := by
    cases hdrop : line.dropPrefix? label with
    | none => rfl
    | some text =>
        obtain ⟨start, hline, hstart⟩ := List.dropPrefix?_eq_some_iff.mp hdrop
        rw [eq_of_beq hstart] at hline
        exact absurd hline (hother text)
  simp [behind, hnone]

/-- What stands in front of the first separator can be read back. -/
theorem append_separator_inj {α : Type*} {separator : α} {left right rest rest' : List α}
    (hleft : separator ∉ left) (hright : separator ∉ right)
    (heq : left ++ separator :: rest = right ++ separator :: rest') :
    left = right ∧ rest = rest' := by
  induction left generalizing right with
  | nil =>
      cases right with
      | nil => exact ⟨rfl, List.tail_eq_of_cons_eq heq⟩
      | cons char right =>
          obtain rfl : separator = char := List.head_eq_of_cons_eq heq
          exact absurd List.mem_cons_self hright
  | cons char left ih =>
      cases right with
      | nil =>
          obtain rfl : char = separator := List.head_eq_of_cons_eq heq
          exact absurd List.mem_cons_self hleft
      | cons char' right =>
          obtain rfl : char = char' := List.head_eq_of_cons_eq heq
          obtain ⟨rfl, hrest⟩ := ih (List.not_mem_of_not_mem_cons hleft)
            (List.not_mem_of_not_mem_cons hright) (List.tail_eq_of_cons_eq heq)
          exact ⟨rfl, hrest⟩

end Text
