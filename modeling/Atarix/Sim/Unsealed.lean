import Atarix.Bib.BuilderRun
import Atarix.Sim.BibCapture

/-! # Nothing is published before it is sealed

Until `seal` the header carries a total length of zero, which the reader refuses
whatever the records hold. No call that adds a record reaches the header.
-/

namespace Atarix

open Memory

/-- The reader opens the buffer through no view and in no window. -/
def Unopenable (p : Memory) : Prop :=
  ∀ view windowLength, (bibReaderOpen view (some p) windowLength).value.1 ≠ .ok

theorem unopenable_of_total {p : Memory} (htotal : p.load32 16 = 0) : Unopenable p := by
  intro view windowLength hok
  cases view with
  | none => cases hok
  | some view =>
      obtain ⟨-, hheader, -⟩ := (bibReaderOpen_ok_iff view p windowLength).mp hok
      have hge := hheader.total_ge
      rw [htotal] at hge
      exact absurd hge (by decide)

variable {builder : BibBuilder} {p : Memory} {block : BibBlock}

/-- A block at work is not openable. -/
theorem BibBuilder.Builds.unopenable (hbuilds : builder.Builds p block) : Unopenable p := by
  obtain ⟨hheader, -⟩ := holds_append.mp hbuilds.contents
  obtain ⟨-, -, -, -, -, htotal, -⟩ := block.holds_header.mp hheader
  exact unopenable_of_total htotal.load32

/-- A call that adds keeps a block at work, whether it succeeds or is refused. -/
theorem BibAdd.apply_working (hbuilds : builder.Builds p block) (add : BibAdd) :
    ∃ (next : BibBuilder) (p' : Memory) (block' : BibBlock),
      (add.apply (some builder)).2 = some next ∧ next.Builds p' block' := by
  by_cases hok : (add.apply (some builder)).1 = .ok
  · obtain ⟨next, p', hknown, hnext, hbuilds'⟩ := add.apply_builds hbuilds hok
    exact ⟨next, p', _, hnext, hbuilds'⟩
  · exact ⟨builder, p, block, add.apply_refused hok, hbuilds⟩

theorem addAll_working (hbuilds : builder.Builds p block) (adds : List BibAdd) :
    ∃ (final : BibBuilder) (p' : Memory) (block' : BibBlock),
      (addAll (some builder) adds).2 = some final ∧ final.Builds p' block' := by
  induction adds generalizing builder p block with
  | nil => exact ⟨builder, p, block, rfl, hbuilds⟩
  | cons add adds ih =>
      obtain ⟨next, q, block', hnext, hbuilds'⟩ := add.apply_working hbuilds
      obtain ⟨final, p', block'', hfinal, hworking⟩ := ih hbuilds'
      refine ⟨final, p', block'', ?_, hworking⟩
      simp only [addAll, hnext, hfinal]

/-- The buffer behind the builder is not openable. -/
def LeavesUnopenable (builder : Option BibBuilder) : Prop :=
  ∃ p, builder.bind BibBuilder.buffer = some p ∧ Unopenable p

theorem BibBuilder.Builds.leavesUnopenable {next : Option BibBuilder}
    (hbuilds : builder.Builds p block) (hnext : next = some builder) : LeavesUnopenable next := by
  refine ⟨p, ?_, hbuilds.unopenable⟩
  rw [hnext]
  exact hbuilds.buffer

section Init

variable {prior : Option BibBuilder} {buffer : Option Memory} {capacity : Nat}
  {headerFlags : BitVec 16} {bootId producerId createdCounter : BitVec 64}

/-- Adding records to a fresh block, in any number and with any outcome, never
makes it openable. -/
theorem adds_leaveUnopenable
    (hinit : (bibBuilderInit prior buffer capacity headerFlags bootId producerId
      createdCounter).1 = .ok) (adds : List BibAdd) :
    LeavesUnopenable (addAll (bibBuilderInit prior buffer capacity headerFlags bootId producerId
      createdCounter).2 adds).2 := by
  obtain ⟨started, p, hknown, hstarted, hbuilds⟩ := bibBuilderInit_builds hinit
  rw [hstarted]
  obtain ⟨final, p', block, hfinal, hworking⟩ := addAll_working hbuilds adds
  exact hworking.leavesUnopenable hfinal

/-- `init` knows no capacity error. -/
theorem bibBuilderInit_ne_capacity :
    (bibBuilderInit prior buffer capacity headerFlags bootId producerId createdCounter).1 ≠
      .capacity := by
  rcases prior with _ | prior
  · exact BibBuilderResult.noConfusion
  rcases buffer with _ | p
  · exact BibBuilderResult.noConfusion
  simp only [bibBuilderInit]
  split_ifs <;> exact BibBuilderResult.noConfusion

/-- `seal` knows no capacity error. -/
theorem bibBuilderSeal_ne_capacity (slot : Option (BitVec 32)) :
    (bibBuilderSeal prior slot).1 ≠ .capacity := by
  rcases prior with _ | prior
  · exact BibBuilderResult.noConfusion
  cases hbuffer : prior.buffer with
  | none =>
      simp only [bibBuilderSeal, hbuffer]
      exact BibBuilderResult.noConfusion
  | some p =>
      simp only [bibBuilderSeal, hbuffer]
      split_ifs <;> exact BibBuilderResult.noConfusion

end Init

/-- A capture that runs out of room leaves what its calls so far have built. -/
theorem simBibCapture_leavesUnopenable {config : Option SimBibCaptureConfig}
    {buffer : Option Memory} {capacity : Nat} {slot : Option (BitVec 32)} {stack : BibBuilder}
    (hcapture : (simBibCapture config buffer capacity slot stack).1 = .capacity) :
    ∃ p, (simBibCapture config buffer capacity slot stack).2.1 = some p ∧ Unopenable p := by
  rcases config with _ | config
  · cases hcapture
  rcases buffer with _ | q
  · cases hcapture
  rcases slot with _ | slot
  · cases hcapture
  simp only [simBibCapture] at hcapture ⊢
  split_ifs at hcapture ⊢ with hinit hservice hmemory
  · exact absurd hcapture bibBuilderInit_ne_capacity
  · exact adds_leaveUnopenable (not_not.mp hinit)
      [.reference BibTlv.serviceDirectoryReference bibTlvFlagMandatory config.serviceObjectId
        config.serviceAddress config.serviceLength 1 0]
  · exact adds_leaveUnopenable (not_not.mp hinit) config.adds
  · exact absurd hcapture (bibBuilderSeal_ne_capacity (some slot))

/-- A boot block is not consumable before it is sealed: not after `init` and any
calls that add records, and not after a capture that failed for lack of room. -/
theorem unsealed_not_consumable :
    (∀ prior buffer capacity headerFlags bootId producerId createdCounter,
      (bibBuilderInit prior buffer capacity headerFlags bootId producerId
        createdCounter).1 = .ok → ∀ adds,
      LeavesUnopenable (addAll (bibBuilderInit prior buffer capacity headerFlags bootId producerId
        createdCounter).2 adds).2) ∧
    ∀ config buffer capacity slot stack,
      (simBibCapture config buffer capacity slot stack).1 = .capacity →
      ∃ p, (simBibCapture config buffer capacity slot stack).2.1 = some p ∧ Unopenable p := by
  constructor
  · intro prior buffer capacity headerFlags bootId producerId createdCounter hinit adds
    exact adds_leaveUnopenable hinit adds
  · intro config buffer capacity slot stack hcapture
    exact simBibCapture_leavesUnopenable hcapture

/-- 120 bytes are room for one of the two references that a block must have. The second
one is refused, of the calls that add as well as of a capture. -/
theorem unsealed_not_consumable_small :
    let prior : BibBuilder := ⟨none, 0, 0, 0, false⟩
    let started := (bibBuilderInit (some prior) (some fun _ => 0xFF) 120 0 1 2 3).2
    let adds : List BibAdd :=
      [.reference BibTlv.serviceDirectoryReference bibTlvFlagMandatory 1 0x100000 0x2000 1 0,
        .reference BibTlv.memoryMapReference bibTlvFlagMandatory 2 0x200000 0x1000 1 0]
    ((addAll started adds).1 = [.ok, .capacity] ∧ LeavesUnopenable (addAll started adds).2) ∧
      ∃ p, (simBibCapture (some (sampleConfig 0)) (some fun _ => 0xFF) 120 (some 0) prior).2.1 =
        some p ∧ Unopenable p := by
  intro prior started adds
  refine ⟨⟨by decide, ?_⟩, ?_⟩
  · exact unsealed_not_consumable.1 _ _ _ _ _ _ _ (by decide) adds
  · exact unsealed_not_consumable.2 _ _ _ _ _ (by decide)

end Atarix
