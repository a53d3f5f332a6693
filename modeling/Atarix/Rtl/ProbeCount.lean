import Atarix.Rtl.AuditPayload
import Atarix.Rtl.Lookup

/-! # How many windows the audit record counts

The probe counter has eight bits, and a request with the largest limit may
compare 256 windows. Window `k` is fetched at the third edge after acceptance
plus three for each window before it, so the inputs alone say when that happens.
-/

namespace Atarix

namespace Accelerator

section Inputs

variable (inputs : Nat → Inputs) (a : Nat)

/-- The lookup of window `k` of the request accepted at `a` succeeds. -/
def WindowFetched (k : Nat) : Prop := (inputs (a + 3 + 3 * k)).tableLookupValid

/-- Window `k` of the request accepted at `a` has a lane that holds its key. -/
def WindowHits (k : Nat) : Prop :=
  SimdProbeCore.matchFound (inputs (a + 4 + 3 * k)).tableControlBytes
    ((inputs a).req.keyHash.setWidth 7)

/-- The requester holds its fields until `t`. -/
def HeldUntil (t : Nat) : Prop := ∀ k, a < k → k < t → (inputs k).req = (inputs a).req

/-- The search of the request accepted at `a` comes to its window `k`. -/
structure ComesTo (k : Nat) : Prop where
  admitted : (inputs a).req.Admitted
  within : k ≤ (inputs a).req.probeLimit.toNat
  fetched : ∀ j < k, WindowFetched inputs a j
  missed : ∀ j < k, ¬ WindowHits inputs a j

/-- An admitted request with the largest limit, of which 256 windows are fetched
and the first 255 miss. -/
structure Overruns : Prop where
  admitted : (inputs a).req.Admitted
  limit : (inputs a).req.probeLimit = 255
  fetched : ∀ j < 256, WindowFetched inputs a j
  missed : ∀ j < 255, ¬ WindowHits inputs a j

/-- Where the request is at `t`, by its phase and the windows compared so far. -/
def Tracks (t windows : Nat) (phase : Phase) : Prop :=
  match phase with
  | .validate => t = a + 1 ∧ windows = 0
  | .auth => t = a + 2 ∧ windows = 0 ∧ validateVerdict (inputs a).req = none
  | .fetch => t = a + 3 + 3 * windows ∧ ComesTo inputs a windows
  | .probe => t = a + 4 + 3 * windows ∧ ComesTo inputs a windows ∧ WindowFetched inputs a windows
  | .step => t = a + 2 + 3 * windows ∧ ComesTo inputs a windows
  | .audit | .respond => windows ≤ 256 ∧ (windows = 256 ↔ Overruns inputs a)
  | .idle | .unused => False

end Inputs

variable {inputs : Nat → Inputs} {a t : Nat}

/-! ## The registers of the loop -/

/-- The fingerprint stays the one latched at acceptance. -/
theorem Processing.fingerprint (hprocessing : Processing inputs a t) :
    (machine.regs inputs t).h2Fingerprint = (inputs a).req.keyHash.setWidth 7 := by
  refine hprocessing.preserves
    (fun regs => regs.h2Fingerprint = (inputs a).req.keyHash.setWidth 7) ?_
    (Nat.lt_succ_self a) hprocessing.lt ?_
  · intro input regs hrst hbusy hnext hlatched
    rw [edge_of_phase hrst]
    change (phaseEdge input regs).h2Fingerprint = _
    cases hphase : regs.state <;> simp only [phaseEdge, hphase]
    case idle => exact absurd hphase hbusy
    case validate => unfold validateEdge; split_ifs <;> exact hlatched
    case auth => unfold authEdge; split_ifs <;> exact hlatched
    case fetch => unfold fetchEdge; split_ifs <;> exact hlatched
    case probe => unfold probeEdge; split_ifs <;> exact hlatched
    case step => exact hlatched
    case audit => unfold auditEdge; split_ifs <;> exact hlatched
    case respond => unfold respondEdge; split_ifs <;> exact hlatched
    case unused => exact hlatched
  · obtain ⟨hrst, hidle, hvalid⟩ := hprocessing.accepts
    rw [regs_succ_of_rst hrst]
    simp [Registers.setCycleCounter, phaseEdge, hidle, idleEdge, hvalid]

/-- One edge of a request in flight moves the counter exactly if it compares. -/
theorem probeCount_edge {input : Inputs} {regs : Registers} (hrst : input.rstN)
    (hbusy : regs.state ≠ .idle) :
    (edge input regs).probeCount =
      regs.probeCount + BitVec.ofNat 8 (if regs.state = .probe then 1 else 0) := by
  rw [edge_of_phase hrst]
  change (phaseEdge input regs).probeCount = _
  cases hphase : regs.state <;> simp only [phaseEdge, hphase, reduceCtorEq, if_false, if_true,
    BitVec.add_zero]
  case idle => exact absurd hphase hbusy
  case validate => unfold validateEdge; split_ifs <;> rfl
  case auth => unfold authEdge; split_ifs <;> rfl
  case fetch => unfold fetchEdge; split_ifs <;> rfl
  case probe => unfold probeEdge; split_ifs <;> rfl
  case step => rfl
  case audit => unfold auditEdge; split_ifs <;> rfl
  case respond => unfold respondEdge; split_ifs <;> rfl
  case unused => rfl

/-- The counter is the number of windows compared, in eight bits. -/
theorem Processing.probeCount_eq (hprocessing : Processing inputs a t) :
    (machine.regs inputs t).probeCount = BitVec.ofNat 8 (windowsCompared inputs a t) := by
  induction t, hprocessing.lt using Nat.le_induction with
  | base =>
      obtain ⟨hrst, hidle, hvalid⟩ := hprocessing.accepts
      rw [windowsCompared_start hprocessing.accepts, regs_succ_of_rst hrst]
      simp [Registers.setCycleCounter, phaseEdge, hidle, idleEdge, hvalid]
  | succ t hlt ih =>
      have hbefore := hprocessing.of_le hlt (Nat.le_succ t)
      have hrst := rst_of_busy (hprocessing.busy (t + 1) (Nat.lt_succ_of_lt hlt) le_rfl)
      rw [machine.regs_succ, windowsCompared_succ hlt, BitVec.ofNat_add, ← ih hbefore]
      exact probeCount_edge hrst (hbefore.busy t hlt le_rfl)

/-! ## The rounds of the loop -/

/-- A request is admitted if neither gate has a verdict on it. -/
theorem admitted_iff (req : Request) :
    req.Admitted ↔ validateVerdict req = none ∧ authVerdict req = none := by
  constructor
  · rintro ⟨htype, hcrc, hring, hcapability, hpolicy⟩
    exact ⟨by simp [validateVerdict, htype, hcrc],
      by simp [authVerdict, hring, hcapability, hpolicy]⟩
  · rintro ⟨hvalidate, hauth⟩
    simp only [validateVerdict] at hvalidate
    simp only [authVerdict] at hauth
    split_ifs at hvalidate with htype hcrc
    split_ifs at hauth with hring hcapability hpolicy
    exact ⟨not_not.mp htype, hcrc, hring, hcapability, hpolicy⟩

section Round

variable {windows : Nat}

theorem ComesTo.lt (hcomes : ComesTo inputs a windows) : windows < 256 :=
  Nat.lt_of_le_of_lt hcomes.within (inputs a).req.probeLimit.isLt

/-- A window that is fetched and misses takes the search below its limit on. -/
theorem ComesTo.succ (hcomes : ComesTo inputs a windows) (hfetched : WindowFetched inputs a windows)
    (hmiss : ¬ WindowHits inputs a windows) (hlimit : windows < (inputs a).req.probeLimit.toNat) :
    ComesTo inputs a (windows + 1) where
  admitted := hcomes.admitted
  within := hlimit
  fetched := Nat.forall_lt_succ_right.mpr ⟨hcomes.fetched, hfetched⟩
  missed := Nat.forall_lt_succ_right.mpr ⟨hcomes.missed, hmiss⟩

/-- A search that comes to window 255 and fetches it overruns. -/
theorem ComesTo.overruns (hcomes : ComesTo inputs a 255) (hfetched : WindowFetched inputs a 255) :
    Overruns inputs a where
  admitted := hcomes.admitted
  limit := by
    have hlt := (inputs a).req.probeLimit.isLt
    exact BitVec.eq_of_toNat_eq (Nat.le_antisymm (Nat.le_of_lt_succ hlt) hcomes.within)
  fetched := Nat.forall_lt_succ_right.mpr ⟨hcomes.fetched, hfetched⟩
  missed := hcomes.missed

/-- A search that ends before its window 255 is compared does not overrun. -/
theorem tracks_settled {phase : Phase} (hphase : phase = .audit) (hwindows : windows < 256)
    (hends : ¬ Overruns inputs a) : Tracks inputs a t windows phase := by
  subst hphase
  exact ⟨Nat.le_of_lt hwindows, fun heq => absurd heq (Nat.ne_of_lt hwindows),
    fun hoverruns => absurd hoverruns hends⟩

/-- A comparison that ends the search. -/
theorem tracks_compared {phase : Phase} (hphase : phase = .audit)
    (hcomes : ComesTo inputs a windows) (hfetched : WindowFetched inputs a windows)
    (hends : WindowHits inputs a windows ∨ (inputs a).req.probeLimit.toNat ≤ windows) :
    Tracks inputs a t (windows + 1) phase := by
  rcases Nat.lt_or_eq_of_le (Nat.le_of_lt_succ hcomes.lt) with hlt | rfl
  · refine tracks_settled hphase (by omega) fun hoverruns => ?_
    rcases hends with hhit | hlimit
    · exact hoverruns.missed windows hlt hhit
    · rw [hoverruns.limit] at hlimit
      exact absurd hlimit (Nat.not_le.mpr hlt)
  · subst hphase
    exact ⟨le_rfl, fun _ => hcomes.overruns hfetched, fun _ => rfl⟩

/-- A comparison ends the search or takes it to the step before the next window. -/
theorem tracks_probed {regs : Registers}
    (hfields : (inputs (a + 4 + 3 * windows)).req = (inputs a).req)
    (hfingerprint : regs.h2Fingerprint = (inputs a).req.keyHash.setWidth 7)
    (hcount : regs.probeCount = BitVec.ofNat 8 windows) (hcomes : ComesTo inputs a windows)
    (hfetched : WindowFetched inputs a windows) :
    Tracks inputs a (a + 4 + 3 * windows + 1) (windows + 1)
      (probeEdge (inputs (a + 4 + 3 * windows)) regs).state := by
  have hcompared : simdHit (inputs (a + 4 + 3 * windows)) regs ↔ WindowHits inputs a windows := by
    rw [simdHit, hfingerprint, WindowHits]
  have hlimited : regs.probeCount ≥ (inputs (a + 4 + 3 * windows)).req.probeLimit ↔
      (inputs a).req.probeLimit.toNat ≤ windows := by
    rw [hfields, hcount, ge_iff_le, BitVec.le_def, BitVec.toNat_ofNat,
      Nat.mod_eq_of_lt hcomes.lt]
  unfold probeEdge
  split_ifs with hhit hlimit
  · exact tracks_compared rfl hcomes hfetched (Or.inl (hcompared.mp hhit))
  · exact tracks_compared rfl hcomes hfetched (Or.inr (hlimited.mp hlimit))
  · refine ⟨by omega, hcomes.succ hfetched (fun hits => hhit (hcompared.mpr hits)) ?_⟩
    exact Nat.not_le.mp fun hle => hlimit (hlimited.mpr hle)

end Round

/-- An edge of a held request takes it one phase further. -/
theorem tracks_edge {windows : Nat} (hrst : (inputs t).rstN)
    (hfields : (inputs t).req = (inputs a).req)
    (hfingerprint : (machine.regs inputs t).h2Fingerprint = (inputs a).req.keyHash.setWidth 7)
    (hcount : (machine.regs inputs t).probeCount = BitVec.ofNat 8 windows)
    (hbusy : (machine.regs inputs (t + 1)).state ≠ .idle)
    (htracks : Tracks inputs a t windows (machine.regs inputs t).state) :
    Tracks inputs a (t + 1) (windows + if (machine.regs inputs t).state = .probe then 1 else 0)
      (machine.regs inputs (t + 1)).state := by
  rw [machine.regs_succ] at hbusy ⊢
  generalize machine.regs inputs t = regs at *
  change (edge (inputs t) regs).state ≠ .idle at hbusy
  change Tracks inputs a (t + 1) _ (edge (inputs t) regs).state
  rw [edge_of_phase hrst] at hbusy ⊢
  change (phaseEdge (inputs t) regs).state ≠ .idle at hbusy
  change Tracks inputs a (t + 1) _ (phaseEdge (inputs t) regs).state
  cases hphase : regs.state <;> simp only [Tracks, hphase] at htracks <;>
    simp only [phaseEdge, hphase, reduceCtorEq, if_true, if_false, Nat.add_zero] at hbusy ⊢
  case validate =>
      obtain ⟨rfl, rfl⟩ := htracks
      rw [validateEdge_eq, hfields]
      cases hverdict : validateVerdict (inputs a).req with
      | none => exact ⟨rfl, rfl, hverdict⟩
      | some status =>
          refine tracks_settled rfl (by omega) fun hoverruns => ?_
          have hnone := ((admitted_iff _).mp hoverruns.admitted).1
          exact absurd (hverdict.symm.trans hnone) (Option.some_ne_none status)
  case auth =>
      obtain ⟨rfl, rfl, hvalidated⟩ := htracks
      rw [authEdge_eq, hfields]
      cases hverdict : authVerdict (inputs a).req with
      | none =>
          refine ⟨rfl, (admitted_iff _).mpr ⟨hvalidated, hverdict⟩, Nat.zero_le _, ?_, ?_⟩
          · exact fun j hj => absurd hj (Nat.not_lt_zero j)
          · exact fun j hj => absurd hj (Nat.not_lt_zero j)
      | some status =>
          refine tracks_settled rfl (by omega) fun hoverruns => ?_
          have hnone := ((admitted_iff _).mp hoverruns.admitted).2
          exact absurd (hverdict.symm.trans hnone) (Option.some_ne_none status)
  case fetch =>
      obtain ⟨rfl, hcomes⟩ := htracks
      unfold fetchEdge
      split_ifs with hvalid
      · exact ⟨by omega, hcomes, hvalid⟩
      · exact tracks_settled rfl hcomes.lt fun hoverruns =>
          hvalid (hoverruns.fetched windows hcomes.lt)
  case probe =>
      obtain ⟨rfl, hcomes, hfetched⟩ := htracks
      exact tracks_probed hfields hfingerprint hcount hcomes hfetched
  case step =>
      obtain ⟨rfl, hcomes⟩ := htracks
      exact ⟨by omega, hcomes⟩
  case audit =>
      unfold auditEdge
      split_ifs <;> simp only [hphase] <;> exact htracks
  case respond =>
      obtain ⟨cycles, seen, heq⟩ := respondEdge_of_busy hbusy
      rw [heq]
      simp only [hphase]
      exact htracks

/-- A held request is tracked while it is in flight. -/
theorem Processing.tracks (hprocessing : Processing inputs a t) (hheld : HeldUntil inputs a t) :
    Tracks inputs a t (windowsCompared inputs a t) (machine.regs inputs t).state := by
  induction t, hprocessing.lt using Nat.le_induction with
  | base =>
      obtain ⟨hrst, hidle, hvalid⟩ := hprocessing.accepts
      have hphase : (machine.regs inputs (a + 1)).state = .validate := by
        rw [regs_succ_of_rst hrst]
        simp [Registers.setCycleCounter, phaseEdge, hidle, idleEdge, hvalid]
      rw [hphase, windowsCompared_start hprocessing.accepts]
      exact ⟨rfl, rfl⟩
  | succ t hlt ih =>
      have hbefore := hprocessing.of_le hlt (Nat.le_succ t)
      have hbusy := hprocessing.busy (t + 1) (Nat.lt_succ_of_lt hlt) le_rfl
      rw [windowsCompared_succ hlt]
      exact tracks_edge (rst_of_busy hbusy) (hheld t hlt (Nat.lt_succ_self t)) hbefore.fingerprint
        hbefore.probeCount_eq hbusy (ih hbefore fun k hk hkt => hheld k hk (Nat.lt_succ_of_lt hkt))

/-! ## The audit record -/

/-- The audit record of the request in flight is presented or kept. -/
def RecordStands (regs : Registers) : Prop := regs.auditValid ∨ regs.state = .respond

/-- A standing record has the count of its request, in eight bits. -/
theorem auditProbeCount_eq (hprocessing : Processing inputs a t)
    (hrecord : RecordStands (machine.regs inputs t)) :
    (machine.regs inputs t).auditProbeCount = BitVec.ofNat 8 (windowsCompared inputs a t) := by
  rw [← hprocessing.probeCount_eq]
  rcases hrecord with hvalid | hrespond
  · obtain ⟨k, rfl, hstalls, hwritten⟩ := exists_stalls hvalid
    obtain ⟨-, -, -, hcount, -⟩ := stall_edge hstalls
    change (machine.regs inputs (k + 1)).probeCount = _ at hcount
    rw [hcount]
    exact congrArg AuditRecord.probeCount hwritten
  · exact (regs_recorded inputs t hrespond).2.1

/-- The count in the audit record is the number of windows compared exactly if
the request does not overrun its counter. -/
theorem auditProbeCount_exact_iff {inputs : Nat → Inputs} {a t : Nat}
    (hprocessing : Processing inputs a t) (hheld : HeldUntil inputs a t)
    (hrecord : RecordStands (machine.regs inputs t)) :
    (machine.regs inputs t).auditProbeCount.toNat = windowsCompared inputs a t ↔
      ¬ Overruns inputs a := by
  have htracks : windowsCompared inputs a t ≤ 256 ∧
      (windowsCompared inputs a t = 256 ↔ Overruns inputs a) := by
    have hall := hprocessing.tracks hheld
    rcases hrecord with hvalid | hrespond
    · rwa [(regs_coherent inputs t).auditing_audit hvalid] at hall
    · rwa [hrespond] at hall
  rw [auditProbeCount_eq hprocessing hrecord, BitVec.toNat_ofNat, ← htracks.2]
  have hle := htracks.1
  omega

/-- Two steps and three windows are counted. -/
theorem auditProbeCount_exact_iff_sparse :
    windowsCompared sparseLookup 0 12 = 3 ∧
      (machine.regs sparseLookup 12).auditProbeCount.toNat = 3 := by
  have hwindows : windowsCompared sparseLookup 0 12 = 3 := by decide
  have hprocessing : Processing sparseLookup 0 12 := by
    refine ⟨by decide, by decide, fun k hlt hle => ?_⟩
    interval_cases k <;> decide
  have hfits : ¬ Overruns sparseLookup 0 := fun hoverruns => absurd hoverruns.limit (by decide)
  refine ⟨hwindows, ?_⟩
  rw [← hwindows]
  exact (auditProbeCount_exact_iff hprocessing (fun _ _ _ => rfl) (Or.inr (by decide))).mpr hfits

/-- A query with the largest limit over a table without keys. -/
def longestLookup : Inputs :=
  { occupiedLookup with
    req := { occupiedQuery with probeLimit := 255 }, tableControlBytes := 0 }

theorem overruns_longestLookup : Overruns (fun _ => longestLookup) 0 := by
  refine ⟨⟨rfl, rfl, rfl, rfl, rfl⟩, rfl, fun _ _ => rfl, fun _ _ hhit => ?_⟩
  exact absurd hhit (by decide : ¬ SimdProbeCore.matchFound 0 5)

/-- The longest search is recorded with a count of zero. -/
theorem longest_search_uncounted :
    ∃ t, Processing (fun _ => longestLookup) 0 t ∧
      (machine.regs (fun _ => longestLookup) t).state = .respond ∧
      windowsCompared (fun _ => longestLookup) 0 t = 256 ∧
      (machine.regs (fun _ => longestLookup) t).auditProbeCount = 0 := by
  have hlookup : Lookup ⟨fun _ => 0, fun _ => true⟩ 9 0xFFFFFFFF longestLookup.req
      (fun _ => longestLookup) 0 :=
    ⟨⟨rfl, rfl, rfl⟩, rfl, rfl, ⟨rfl, rfl, rfl, rfl, rfl⟩, fun _ _ _ => ⟨rfl, rfl, rfl, rfl, rfl⟩⟩
  obtain ⟨t, hsettled, haudit⟩ := hlookup.settles
  have hrespond : (machine.regs (fun _ => longestLookup) (t + 1)).state = .respond :=
    @edge_of_ready longestLookup _ rfl haudit rfl
  have hprocessing : Processing (fun _ => longestLookup) 0 (t + 1) :=
    hsettled.succ (by rw [hrespond]; exact Phase.noConfusion)
  have htracks := hprocessing.tracks fun _ _ _ => rfl
  rw [hrespond] at htracks
  have hwindows := htracks.2.mpr overruns_longestLookup
  refine ⟨t + 1, hprocessing, hrespond, hwindows, ?_⟩
  rw [auditProbeCount_eq hprocessing (Or.inr hrespond), hwindows]
  rfl

end Accelerator

end Atarix
