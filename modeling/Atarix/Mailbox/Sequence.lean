import Atarix.Mailbox.Header

/-! # Receive windows

`atarix_mailbox_sequence_accept` keeps the last accepted sequence number and
takes only its successor. Numbers are compared as unsigned words and the
successor is computed with wrap-around; the two disagree at the largest word,
and there the window closes for good.
-/

namespace Atarix

/-- `atarix_mailbox_sequence_window_t`. -/
structure SequenceWindow where
  lastSequence : BitVec 32
  initialized : Bool
deriving DecidableEq, Repr

/-- The window as `memset` leaves it. -/
def SequenceWindow.zeroed : SequenceWindow := ⟨0, false⟩

/-- Returns the status and the window object the caller sees afterwards. -/
def mailboxSequenceAccept (window : Option SequenceWindow) (sequence : BitVec 32) :
    MailboxStatus × Option SequenceWindow :=
  match window with
  | none => (.null, none)
  | some window =>
    if ¬ window.initialized then (.ok, some ⟨sequence, true⟩)
    else if sequence = window.lastSequence then (.duplicate, some window)
    else if sequence < window.lastSequence then (.outOfOrder, some window)
    else if sequence ≠ window.lastSequence + 1 then (.sequenceError, some window)
    else (.ok, some { window with lastSequence := sequence })

namespace SequenceWindow

/-- `sequence` is the one `window` takes next: any number at first, and then
only the successor as a natural number. -/
def Expects (window : SequenceWindow) (sequence : BitVec 32) : Prop :=
  window.initialized → sequence.toNat = window.lastSequence.toNat + 1

/-- An accepting call moves the window to the number it accepted. -/
theorem accept_of_expects {window : SequenceWindow} {sequence : BitVec 32}
    (hexpects : window.Expects sequence) :
    mailboxSequenceAccept (some window) sequence = (.ok, some ⟨sequence, true⟩) := by
  obtain ⟨last, initialized⟩ := window
  cases initialized with
  | false => simp [mailboxSequenceAccept]
  | true =>
      have hnext : sequence.toNat = last.toNat + 1 := hexpects rfl
      have hne : sequence ≠ last := fun heq => by rw [heq] at hnext; omega
      have hlt : ¬ sequence < last := by rw [BitVec.lt_def]; omega
      have hsucc : sequence = last + 1 := by bv_omega
      simp only [mailboxSequenceAccept, not_true_eq_false, if_false]
      rw [if_neg hne, if_neg hlt, if_neg (not_not.mpr hsucc)]

/-- A call that meets any other number leaves the window as it was. -/
theorem accept_of_not_expects {window : SequenceWindow} {sequence : BitVec 32}
    (hexpects : ¬ window.Expects sequence) :
    ∃ status, status ≠ .ok ∧
      mailboxSequenceAccept (some window) sequence = (status, some window) := by
  obtain ⟨last, initialized⟩ := window
  simp only [Expects, Classical.not_imp] at hexpects
  obtain ⟨hinit, hnext⟩ := hexpects
  simp only [mailboxSequenceAccept, hinit, not_true_eq_false, if_false]
  by_cases hdup : sequence = last
  · exact ⟨.duplicate, by decide, by simp [hdup]⟩
  by_cases hold : sequence < last
  · exact ⟨.outOfOrder, by decide, by simp [hdup, hold]⟩
  have hgap : sequence ≠ last + 1 := by
    intro heq
    apply hnext
    rw [BitVec.lt_def] at hold
    bv_omega
  exact ⟨.sequenceError, by decide, by rw [if_neg hdup, if_neg hold, if_pos hgap]⟩

/-- The largest word has no successor among the words. -/
theorem expects_successor_iff {window : SequenceWindow} (hinit : window.initialized) :
    window.Expects (window.lastSequence + 1) ↔ window.lastSequence ≠ BitVec.allOnes 32 := by
  have hmax : window.lastSequence = BitVec.allOnes 32 ↔
      window.lastSequence.toNat = 2 ^ 32 - 1 := by
    rw [← BitVec.toNat_inj, BitVec.toNat_allOnes]
  have hlt := window.lastSequence.isLt
  simp only [Expects, hinit, true_implies, ne_eq, hmax, BitVec.toNat_add, BitVec.ofNat_eq_ofNat,
    BitVec.toNat_ofNat]
  omega

end SequenceWindow

/-- The window after a run of calls. -/
def mailboxSequenceRun (window : SequenceWindow) : List (BitVec 32) → SequenceWindow
  | [] => window
  | sequence :: rest =>
    mailboxSequenceRun ((mailboxSequenceAccept (some window) sequence).2.getD window) rest

/-- In every initialised window a run can reach, the wrapping successor of the
last number is accepted exactly when it does not wrap. -/
theorem sequenceAccept_successor_iff (sequences : List (BitVec 32))
    (hinit : (mailboxSequenceRun .zeroed sequences).initialized) :
    let window := mailboxSequenceRun .zeroed sequences
    mailboxSequenceAccept (some window) (window.lastSequence + 1) =
        (.ok, some { window with lastSequence := window.lastSequence + 1 }) ↔
      window.lastSequence ≠ BitVec.allOnes 32 := by
  intro window
  rw [← SequenceWindow.expects_successor_iff hinit]
  constructor
  · intro haccept
    by_contra hexpects
    obtain ⟨status, hstatus, hreject⟩ := SequenceWindow.accept_of_not_expects hexpects
    rw [hreject, Prod.mk.injEq] at haccept
    exact hstatus haccept.1
  · intro hexpects
    rw [SequenceWindow.accept_of_expects hexpects]
    have hwindow : window.initialized = true := hinit
    rw [hwindow]

theorem sequenceAccept_successor_iff_ten :
    mailboxSequenceAccept (some ⟨10, true⟩) 11 = (.ok, some ⟨11, true⟩) ↔
      (10 : BitVec 32) ≠ BitVec.allOnes 32 :=
  sequenceAccept_successor_iff [10] rfl

/-- A window that has seen the largest word refuses the number after it. -/
theorem sequenceAccept_successor_locked_out :
    mailboxSequenceRun .zeroed [0xFFFFFFFF] = ⟨0xFFFFFFFF, true⟩ ∧
      mailboxSequenceAccept (some ⟨0xFFFFFFFF, true⟩) (0xFFFFFFFF + 1) =
        (.outOfOrder, some ⟨0xFFFFFFFF, true⟩) := by
  decide

/-- From then on every number is refused and the window never moves. -/
theorem mailboxSequenceRun_closed (sequences : List (BitVec 32)) :
    mailboxSequenceRun ⟨BitVec.allOnes 32, true⟩ sequences = ⟨BitVec.allOnes 32, true⟩ := by
  induction sequences with
  | nil => rfl
  | cons sequence rest ih =>
      have hexpects : ¬ SequenceWindow.Expects ⟨BitVec.allOnes 32, true⟩ sequence := by
        simp only [SequenceWindow.Expects, BitVec.toNat_allOnes, true_implies]
        have := sequence.isLt
        omega
      obtain ⟨status, _, hreject⟩ := SequenceWindow.accept_of_not_expects hexpects
      rw [mailboxSequenceRun, hreject]
      exact ih

end Atarix
