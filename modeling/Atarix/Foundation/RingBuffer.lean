import Mathlib.Data.List.Basic
import Mathlib.Logic.Function.Basic
import Mathlib.Tactic.Common

/-! # Ring buffers

Cells used in turn keep the latest values of a history: value `k` stands in cell
`k` modulo the number of cells, until that cell's next turn.
-/

universe uValue

namespace RingBuffer

variable {Value : Type uValue}

/-- The cells hold the last `depth` values of the history. -/
def Holds (depth : Nat) (cells : Nat → Value) (history : List Value) : Prop :=
  ∀ k (hk : k < history.length), history.length ≤ k + depth → cells (k % depth) = history[k]

variable {depth : Nat} {cells : Nat → Value} {history : List Value}

/-- Less than a turn apart two values stand in different cells. -/
theorem mod_ne_of_lt {k next : Nat} (hlt : k < next) (hturn : next < k + depth) :
    k % depth ≠ next % depth := by
  intro hmod
  have hdvd : depth ∣ next - k :=
    Nat.dvd_of_mod_eq_zero (Nat.sub_mod_eq_zero_of_mod_eq hmod.symm)
  have hle := Nat.le_of_dvd (by omega) hdvd
  omega

/-- Storing the next value in its cell keeps the other recent ones. -/
theorem Holds.push (hholds : Holds depth cells history) (value : Value) :
    Holds depth (Function.update cells (history.length % depth) value) (history ++ [value]) := by
  intro k hk hrecent
  rw [List.length_append, List.length_singleton] at hk hrecent
  rcases Nat.lt_or_eq_of_le (Nat.le_of_lt_succ hk) with hlt | rfl
  · rw [Function.update_of_ne (mod_ne_of_lt hlt (by omega)), List.getElem_append_left hlt]
    exact hholds k hlt (by omega)
  · rw [Function.update_self, List.getElem_concat_length rfl]

/-- The cells have been used up once exactly if the last one has had its turn. -/
theorem le_succ_iff (hpos : 0 < depth) (count : Nat) :
    depth ≤ count + 1 ↔ depth ≤ count ∨ count % depth = depth - 1 := by
  constructor
  · intro hle
    rcases Nat.lt_or_eq_of_le hle with hlt | heq
    · exact Or.inl (Nat.le_of_lt_succ hlt)
    · right
      rw [Nat.mod_eq_of_lt (by omega)]
      omega
  · rintro (hle | hlast)
    · omega
    · have := Nat.mod_le count depth
      omega

end RingBuffer
