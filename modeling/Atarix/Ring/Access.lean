import Atarix.Capability.Record
import Atarix.Mailbox.Header
import Mathlib.Logic.Relation

/-! # Access between rings

`ring.c`, and the ring check that `mailbox.c` makes of a message. A requester in
one ring may have others act for it by sending them messages; what it reaches
through any chain of them is decided by its own ring.
-/

namespace Atarix

/-- `atarix_ring_operation_t`, as the `int` it is passed as. -/
abbrev RingOperation := Int

namespace RingOperation

def observe : RingOperation := 0
def request : RingOperation := 1
def manage : RingOperation := 2
def quarantine : RingOperation := 3
def recover : RingOperation := 4

end RingOperation

/-- `atarix_ring_status_t`. -/
inductive RingStatus where
  | allow
  | deny
  | invalidRing
  | invalidOperation
deriving DecidableEq, Repr

def ringOperationIsValid (operation : RingOperation) : Bool :=
  operation ≥ RingOperation.observe ∧ operation ≤ RingOperation.recover

def ringCanAccess (requester target : Ring) (operation : RingOperation) : RingStatus :=
  if ¬ ringIsValid requester ∨ ¬ ringIsValid target then .invalidRing
  else if ¬ ringOperationIsValid operation then .invalidOperation
  else if requester = Ring.quarantine then .deny
  else if target = Ring.quarantine then
    if requester = Ring.supervisor then .allow else .deny
  else if requester = target then .allow
  else if requester > target then .deny
  else if operation = RingOperation.manage ∨ operation = RingOperation.quarantine ∨
      operation = RingOperation.recover then
    if requester = Ring.supervisor then .allow else .deny
  else .allow

def mailboxRingAuthorize (sourceRing targetRing : Ring) (messageType : BitVec 16) : MailboxStatus :=
  if ¬ mailboxMessageTypeKnown messageType then .unknownType
  else if ringCanAccess sourceRing targetRing RingOperation.request ≠ .allow then .ringDenied
  else .ok

/-! ## The order the checks follow -/

/-- One ring is above another or the same, quarantine being below the supervisor only. -/
structure Ring.Dominates (requester target : Ring) : Prop where
  requester_valid : ringIsValid requester
  target_valid : ringIsValid target
  not_quarantined : requester ≠ Ring.quarantine
  above : requester = Ring.supervisor ∨ (requester ≤ target ∧ target ≠ Ring.quarantine)

/-- The operations that change the standing of a ring. -/
def RingOperation.Controls (operation : RingOperation) : Prop :=
  operation = manage ∨ operation = quarantine ∨ operation = recover

theorem Ring.Dominates.refl {ring : Ring} (hvalid : ringIsValid ring)
    (hquarantined : ring ≠ Ring.quarantine) : ring.Dominates ring :=
  ⟨hvalid, hvalid, hquarantined, .inr ⟨le_refl ring, hquarantined⟩⟩

/-- Only the supervisor dominates the supervisor. -/
theorem Ring.Dominates.eq_supervisor {requester : Ring}
    (hdominates : requester.Dominates Ring.supervisor) : requester = Ring.supervisor := by
  have hvalid := hdominates.requester_valid
  rcases hdominates.above with hsupervisor | ⟨hle, -⟩
  · exact hsupervisor
  · simp only [ringIsValid, decide_eq_true_eq] at hvalid
    exact le_antisymm hle hvalid.1

theorem Ring.Dominates.trans {first second third : Ring} (hfirst : first.Dominates second)
    (hsecond : second.Dominates third) : first.Dominates third := by
  refine ⟨hfirst.requester_valid, hsecond.target_valid, hfirst.not_quarantined, ?_⟩
  rcases hsecond.above with rfl | ⟨hle, hquarantined⟩
  · exact .inl hfirst.eq_supervisor
  · rcases hfirst.above with hsupervisor | ⟨hbelow, -⟩
    · exact .inl hsupervisor
    · exact .inr ⟨hbelow.trans hle, hquarantined⟩

/-- Access is granted downwards, control by the supervisor or within one ring only. -/
theorem ringCanAccess_allow_iff (requester target : Ring) (operation : RingOperation) :
    ringCanAccess requester target operation = .allow ↔
      requester.Dominates target ∧ ringOperationIsValid operation ∧
        (operation.Controls → requester = Ring.supervisor ∨
          (requester = target ∧ target ≠ Ring.quarantine)) := by
  have hdominates : requester.Dominates target ↔ ringIsValid requester ∧ ringIsValid target ∧
      requester ≠ Ring.quarantine ∧
      (requester = Ring.supervisor ∨ (requester ≤ target ∧ target ≠ Ring.quarantine)) :=
    ⟨fun ⟨hrequester, htarget, hnot, habove⟩ => ⟨hrequester, htarget, hnot, habove⟩,
      fun ⟨hrequester, htarget, hnot, habove⟩ => ⟨hrequester, htarget, hnot, habove⟩⟩
  have hlow (hvalid : ringIsValid target) : Ring.supervisor ≤ target := by
    simp only [ringIsValid, decide_eq_true_eq] at hvalid
    exact hvalid.1
  rw [hdominates]
  unfold ringCanAccess RingOperation.Controls
  split_ifs with hrings hoperation hquarantined htarget hsupervisor hsame habove hcontrols hmanager
  all_goals grind

/-! ## Acting through others -/

/-- One ring may send a message of some type to another. -/
def Ring.Sends (source target : Ring) : Prop :=
  ∃ messageType, mailboxRingAuthorize source target messageType = .ok

/-- A request goes from ring to ring, any number of times. -/
def Ring.Relays : Ring → Ring → Prop := Relation.ReflTransGen Ring.Sends

theorem mailboxRingAuthorize_ok_iff (source target : Ring) (messageType : BitVec 16) :
    mailboxRingAuthorize source target messageType = .ok ↔
      mailboxMessageTypeKnown messageType ∧ source.Dominates target := by
  have hrequest : ¬ RingOperation.request.Controls := by
    unfold RingOperation.Controls
    decide
  have haccess := ringCanAccess_allow_iff source target RingOperation.request
  have hvalid : ringOperationIsValid RingOperation.request := by decide
  simp only [hrequest, hvalid, IsEmpty.forall_iff, and_true] at haccess
  unfold mailboxRingAuthorize
  split_ifs with hknown hdenied
  · have hnot := mt haccess.mpr hdenied
    simp [hnot]
  · exact iff_of_true rfl ⟨hknown, haccess.mp (not_not.mp hdenied)⟩
  · simp [hknown]

theorem Ring.sends_iff (source target : Ring) : source.Sends target ↔ source.Dominates target := by
  have hping : mailboxMessageTypeKnown MailboxMessage.ping := by decide
  constructor
  · rintro ⟨messageType, hok⟩
    exact ((mailboxRingAuthorize_ok_iff source target messageType).mp hok).2
  · intro hdominates
    exact ⟨_, (mailboxRingAuthorize_ok_iff source target MailboxMessage.ping).mpr
      ⟨hping, hdominates⟩⟩

/-- By induction on the relays: a chain of them is no longer than its ends allow. -/
theorem Ring.Relays.dominates {source deputy : Ring} (hrelays : source.Relays deputy) :
    source = deputy ∨ source.Dominates deputy := by
  induction hrelays with
  | refl => exact .inl rfl
  | tail _ hsends ih =>
      have hlast := (Ring.sends_iff _ _).mp hsends
      rcases ih with rfl | hbefore
      · exact .inr hlast
      · exact .inr (hbefore.trans hlast)

/-- What a ring gets done through any chain of deputies, each reached by a message the ring
check lets pass: every valid operation on the rings it dominates, and nothing else. For
operations that do not control a ring that is what it may do itself. -/
theorem deputies_exact (source target : Ring) (operation : RingOperation) :
    ((∃ deputy, source.Relays deputy ∧ ringCanAccess deputy target operation = .allow) ↔
        source.Dominates target ∧ ringOperationIsValid operation) ∧
      (¬ operation.Controls →
        ((∃ deputy, source.Relays deputy ∧ ringCanAccess deputy target operation = .allow) ↔
          ringCanAccess source target operation = .allow)) := by
  have hexact : (∃ deputy, source.Relays deputy ∧
      ringCanAccess deputy target operation = .allow) ↔
        source.Dominates target ∧ ringOperationIsValid operation := by
    constructor
    · rintro ⟨deputy, hrelays, hallow⟩
      obtain ⟨hdominates, hvalid, -⟩ := (ringCanAccess_allow_iff deputy target operation).mp hallow
      rcases hrelays.dominates with rfl | hsource
      · exact ⟨hdominates, hvalid⟩
      · exact ⟨hsource.trans hdominates, hvalid⟩
    · rintro ⟨hdominates, hvalid⟩
      rcases hdominates.above with hsupervisor | ⟨-, hquarantined⟩
      · refine ⟨source, .refl, ?_⟩
        exact (ringCanAccess_allow_iff source target operation).mpr
          ⟨hdominates, hvalid, fun _ => .inl hsupervisor⟩
      · -- the target ring manages itself: it is its own deputy
        have hself := Ring.Dominates.refl hdominates.target_valid hquarantined
        refine ⟨target, .single ((Ring.sends_iff source target).mpr hdominates), ?_⟩
        exact (ringCanAccess_allow_iff target target operation).mpr
          ⟨hself, hvalid, fun _ => .inr ⟨rfl, hquarantined⟩⟩
  refine ⟨hexact, fun hcontrols => ?_⟩
  rw [hexact, ringCanAccess_allow_iff]
  simp [hcontrols]

end Atarix
