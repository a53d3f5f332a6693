import Atarix.Bib.Normalisation
import Atarix.Foundation.Registry

/-! # Building a block

A whole run of the builder: start, add, seal. It succeeds exactly if its arguments
are in order and the block fits, and what it leaves is the encoding of that block.
The order of the calls decides where the records lie, and nothing that a lookup
finds.
-/

namespace Atarix

open Memory

/-- The arguments of `init`. -/
structure BibStart where
  builder : Option BibBuilder
  buffer : Option Memory
  capacity : Nat
  flags : BitVec 16
  bootId : BitVec 64
  producerId : BitVec 64
  createdCounter : BitVec 64

/-- The results of a run, and the builder and the caller's length after it. -/
structure BibBuild where
  results : List BibBuilderResult
  builder : Option BibBuilder
  length : Option (BitVec 32)

/-- Start a block, add its records and seal it. -/
def buildBlock (start : BibStart) (adds : List BibAdd) (slot : Option (BitVec 32)) : BibBuild :=
  let started := bibBuilderInit start.builder start.buffer start.capacity start.flags start.bootId
    start.producerId start.createdCounter
  let filled := addAll started.2 adds
  let finished := bibBuilderSeal filled.2 slot
  { results := started.1 :: filled.1 ++ [finished.1]
    builder := finished.2.1
    length := finished.2.2 }

def BibBuild.Succeeds (build : BibBuild) : Prop := ∀ result ∈ build.results, result = .ok

/-- `init` accepts the arguments. -/
structure BibStart.WellFormed (start : BibStart) : Prop where
  builder : start.builder.isSome
  buffer : start.buffer.isSome
  capacity_ge : 64 ≤ start.capacity
  capacity_lt : start.capacity < 2 ^ 32
  known : bibHeaderFlagsAreKnown start.flags

namespace BibAdd

/-- A payload that is not empty is there. -/
def Backed : BibAdd → Prop
  | tlv _ _ payload payloadLength => payloadLength ≠ 0 → payload.isSome
  | reference .. => True

/-- The call passes the checks that do not depend on the builder. -/
@[mk_iff] structure WellFormed (add : BibAdd) : Prop where
  backed : add.Backed
  known : bibTlvFlagsAreKnown add.record.flags

end BibAdd

/-! ## One call -/

variable {builder : BibBuilder} {p : Memory} {block : BibBlock}

theorem BibBuilder.Builds.addTlv_ok_iff (hbuilds : builder.Builds p block) (type flags : BitVec 16)
    (payload : Option Memory) (payloadLength : BitVec 32) :
    (bibBuilderAddTlv (some builder) type flags payload payloadLength).1 = .ok ↔
      (payloadLength ≠ 0 → payload.isSome) ∧ bibTlvFlagsAreKnown flags ∧
        block.size + BibRecord.size ⟨type, flags, payloadBytes payload payloadLength⟩ ≤
          builder.capacity := by
  constructor
  · intro hok
    obtain ⟨current, -, recordLength, hcurrent, -, hbacked, hknown, hlength, hroom, -⟩ :=
      bibBuilderAddTlv_ok hok
    obtain rfl := Option.some.inj hcurrent
    rw [hbuilds.length, hlength] at hroom
    exact ⟨hbacked, hknown, hroom⟩
  · rintro ⟨hbacked, hknown, hroom⟩
    cases payload with
    | some payload => exact hbuilds.add_ok payload hknown hroom
    | none =>
        -- a NULL payload is empty, and an empty payload is not read
        obtain rfl : payloadLength = 0 := not_not.mp fun hne => absurd (hbacked hne) (by simp)
        have hnull : bibBuilderAddTlv (some builder) type flags none 0 =
            bibBuilderAddTlv (some builder) type flags (some fun _ => 0) 0 := by
          simp [bibBuilderAddTlv]
        rw [hnull]
        exact hbuilds.add_ok (fun _ => 0) hknown hroom

theorem BibAdd.apply_ok_iff (hbuilds : builder.Builds p block) (add : BibAdd) :
    (add.apply (some builder)).1 = .ok ↔
      add.WellFormed ∧ block.size + add.record.size ≤ builder.capacity := by
  rw [add.wellFormed_iff, and_assoc]
  cases add with
  | tlv type flags payload payloadLength =>
      exact hbuilds.addTlv_ok_iff type flags payload payloadLength
  | reference type flags objectId address length formatMajor formatMinor =>
      have hiff := hbuilds.addTlv_ok_iff type flags
        (some (referencePayload objectId address length formatMajor formatMinor))
        bibReferenceFixedSizeV1
      rw [referencePayload_bytes] at hiff
      refine hiff.trans (and_congr_left fun _ => ?_)
      exact iff_of_true (fun _ => rfl) trivial

/-- A call that succeeds leaves the capacity alone. -/
theorem BibAdd.apply_capacity (add : BibAdd) {added : BibBuilder}
    (hok : (add.apply (some builder)).1 = .ok)
    (hadded : (add.apply (some builder)).2 = some added) :
    added.capacity = builder.capacity := by
  cases add with
  | tlv | reference =>
      obtain ⟨current, p, recordLength, hcurrent, -, -, -, -, -, hafter⟩ := bibBuilderAddTlv_ok hok
      obtain rfl := Option.some.inj hcurrent
      obtain rfl := Option.some.inj (hafter.symm.trans hadded)
      rfl

/-! ## Runs of calls -/

theorem addAll_ok_iff (hbuilds : builder.Builds p block) (adds : List BibAdd) :
    (∀ result ∈ (addAll (some builder) adds).1, result = .ok) ↔
      (∀ add ∈ adds, add.WellFormed) ∧
        block.size + recordsSize (adds.map BibAdd.record) ≤ builder.capacity := by
  induction adds generalizing builder p block with
  | nil => simpa [addAll, recordsSize] using hbuilds.fits
  | cons add adds ih =>
      have hhead := add.apply_ok_iff hbuilds
      simp only [addAll, List.forall_mem_cons, List.map_cons, recordsSize_cons]
      by_cases hok : (add.apply (some builder)).1 = .ok
      · obtain ⟨hwell, -⟩ := hhead.mp hok
        obtain ⟨added, q, hknown, hadded, hbuilds'⟩ := add.apply_builds hbuilds hok
        have hrest := ih hbuilds'
        rw [add.apply_capacity hok hadded, block.size_add, Nat.add_assoc] at hrest
        rw [hadded, hrest]
        constructor
        · rintro ⟨-, htail, hroom⟩
          exact ⟨⟨hwell, htail⟩, hroom⟩
        · rintro ⟨⟨-, htail⟩, hroom⟩
          exact ⟨hok, htail, hroom⟩
      · refine iff_of_false (fun hall => hok hall.1) ?_
        rintro ⟨⟨hwell, -⟩, hroom⟩
        exact hok (hhead.mpr ⟨hwell, by omega⟩)

theorem bibBuilderInit_ok_iff (start : BibStart) :
    (bibBuilderInit start.builder start.buffer start.capacity start.flags start.bootId
      start.producerId start.createdCounter).1 = .ok ↔ start.WellFormed := by
  obtain ⟨builder, buffer, capacity, flags, bootId, producerId, createdCounter⟩ := start
  constructor
  · intro hok
    obtain ⟨started, p, hknown, -, hbuilds⟩ := bibBuilderInit_builds hok
    cases builder with
    | none => cases hok
    | some builder =>
        cases buffer with
        | none => cases hok
        | some buffer =>
            have hcapacity : ¬ (capacity < bibHeaderSizeV1.toNat ∨ capacity > 0xFFFFFFFF) := by
              intro hbounds
              simp only [bibBuilderInit, if_pos hbounds, reduceCtorEq] at hok
            obtain ⟨hmin, hmax⟩ := not_or.mp hcapacity
            exact ⟨rfl, rfl, Nat.not_lt.mp hmin, Nat.lt_succ_of_le (Nat.not_lt.mp hmax), hknown⟩
  · rintro ⟨hbuilder, hbuffer, hmin, hmax, hknown⟩
    obtain ⟨builder, rfl⟩ := Option.isSome_iff_exists.mp hbuilder
    obtain ⟨buffer, rfl⟩ := Option.isSome_iff_exists.mp hbuffer
    obtain ⟨started, q, hinit, -⟩ := bibBuilderInit_of_fits builder buffer bootId producerId
      createdCounter hmin hmax hknown
    exact congrArg Prod.fst hinit

/-- `init` takes the capacity it is given. -/
theorem bibBuilderInit_capacity {start : BibStart} {started : BibBuilder}
    (hwell : start.WellFormed)
    (hstarted : (bibBuilderInit start.builder start.buffer start.capacity start.flags start.bootId
      start.producerId start.createdCounter).2 = some started) :
    started.capacity = start.capacity := by
  obtain ⟨builder, hbuilder⟩ := Option.isSome_iff_exists.mp hwell.builder
  obtain ⟨buffer, hbuffer⟩ := Option.isSome_iff_exists.mp hwell.buffer
  obtain ⟨started', q, hinit, hcapacity, -⟩ := bibBuilderInit_of_fits builder buffer start.bootId
    start.producerId start.createdCounter hwell.capacity_ge hwell.capacity_lt hwell.known
  rw [hbuilder, hbuffer, hinit] at hstarted
  rw [← Option.some.inj hstarted, hcapacity]

/-! ## A whole run -/

/-- The run left the encoding of the block, and its length where it was asked for. -/
structure BibBuild.Left (build : BibBuild) (slot : Option (BitVec 32)) (p : Memory)
    (block : BibBlock) : Prop where
  buffer : build.builder.bind BibBuilder.buffer = some p
  length : build.length = slot.map fun _ => BitVec.ofNat 32 block.size
  holds : p.Holds 0 block.encode

/-- The block that was asked for. -/
structure BibBlock.Requested (block : BibBlock) (start : BibStart) (adds : List BibAdd) : Prop where
  flags : block.flags = start.flags
  bootId : block.bootId = start.bootId
  producerId : block.producerId = start.producerId
  createdCounter : block.createdCounter = start.createdCounter
  records : block.records = adds.map BibAdd.record

theorem BibBuild.succeeds_iff (start : BibStart) (adds : List BibAdd) (slot : Option (BitVec 32)) :
    (buildBlock start adds slot).Succeeds ↔
      (bibBuilderInit start.builder start.buffer start.capacity start.flags start.bootId
        start.producerId start.createdCounter).1 = .ok ∧
      (∀ result ∈ (addAll (bibBuilderInit start.builder start.buffer start.capacity start.flags
        start.bootId start.producerId start.createdCounter).2 adds).1, result = .ok) ∧
      (bibBuilderSeal (addAll (bibBuilderInit start.builder start.buffer start.capacity start.flags
        start.bootId start.producerId start.createdCounter).2 adds).2 slot).1 = .ok := by
  simp only [Succeeds, buildBlock, List.cons_append, List.forall_mem_cons, List.forall_mem_append,
    List.not_mem_nil, IsEmpty.forall_iff, implies_true, and_true]

theorem buildBlock_left {start : BibStart} {adds : List BibAdd} {slot : Option (BitVec 32)}
    (hsucceeds : (buildBlock start adds slot).Succeeds) :
    ∃ p block, (buildBlock start adds slot).Left slot p block ∧ block.Requested start adds ∧
      block.size < 2 ^ 32 := by
  obtain ⟨hopened, hresults, hclosed⟩ := (BibBuild.succeeds_iff start adds slot).mp hsucceeds
  obtain ⟨sealed, p, block, hfinished, hbuffer, hlength, hholds, hsize, hflags, hboot, hproducer,
    hcounter, hrecords⟩ := build_encodes (Prod.ext hopened rfl) rfl hresults (Prod.ext hclosed rfl)
  refine ⟨p, block, ⟨?_, hlength, hholds⟩, ⟨hflags, hboot, hproducer, hcounter, hrecords⟩, hsize⟩
  have hbuilder : (buildBlock start adds slot).builder = some sealed := hfinished
  rw [hbuilder]
  exact hbuffer

theorem buildBlock_succeeds_iff (start : BibStart) (adds : List BibAdd)
    (slot : Option (BitVec 32)) :
    (buildBlock start adds slot).Succeeds ↔ start.WellFormed ∧ (∀ add ∈ adds, add.WellFormed) ∧
      64 + recordsSize (adds.map BibAdd.record) ≤ start.capacity := by
  rw [BibBuild.succeeds_iff, bibBuilderInit_ok_iff]
  refine and_congr_right fun hwell => ?_
  obtain ⟨started, p, hknown, hstarted, hbuilds⟩ :=
    bibBuilderInit_builds ((bibBuilderInit_ok_iff start).mpr hwell)
  have hadds := addAll_ok_iff hbuilds adds
  rw [bibBuilderInit_capacity hwell hstarted] at hadds
  rw [hstarted, hadds]
  refine and_iff_left_of_imp fun hfits => ?_
  -- sealing cannot fail once every call has succeeded
  obtain ⟨filled, q, block, hfilled, hbuilds', -⟩ := addAll_builds hbuilds adds (hadds.mpr hfits)
  rw [hfilled, bibBuilderSeal_of_builds hbuilds' slot]

/-- A run succeeds exactly if `init` accepts its arguments, every call is well
formed and the block fits the capacity; and then the buffer holds the encoding of
the block that was asked for. -/
theorem build_exact (start : BibStart) (adds : List BibAdd) (slot : Option (BitVec 32)) :
    ((buildBlock start adds slot).Succeeds ↔ start.WellFormed ∧ (∀ add ∈ adds, add.WellFormed) ∧
        64 + recordsSize (adds.map BibAdd.record) ≤ start.capacity) ∧
      ((buildBlock start adds slot).Succeeds →
        ∃ p block, (buildBlock start adds slot).Left slot p block ∧
          block.Requested start adds) := by
  refine ⟨buildBlock_succeeds_iff start adds slot, fun hsucceeds => ?_⟩
  obtain ⟨p, block, hleft, hrequested, -⟩ := buildBlock_left hsucceeds
  exact ⟨p, block, hleft, hrequested⟩

/-! ## The order of the calls -/

theorem recordsSize_perm {first second : List BibRecord} (hperm : first.Perm second) :
    recordsSize first = recordsSize second :=
  (hperm.map BibRecord.size).sum_eq

theorem countType_perm (type : BitVec 16) {first second : List BibRecord}
    (hperm : first.Perm second) : countType type first = countType type second :=
  hperm.countP_eq _

theorem RecordsAcceptable.perm {first second : List BibRecord} (hperm : first.Perm second)
    (hacceptable : RecordsAcceptable first) : RecordsAcceptable second where
  known_or_optional record hrecord :=
    hacceptable.known_or_optional record (hperm.mem_iff.mpr hrecord)
  one_service := (countType_perm _ hperm).symm.trans hacceptable.one_service
  one_memory := (countType_perm _ hperm).symm.trans hacceptable.one_memory
  references record hrecord := hacceptable.references record (hperm.mem_iff.mpr hrecord)

/-- A reference of a type that occurs once is found wherever its record stands. -/
theorem BibBlock.reference_perm {first second : BibBlock}
    (hperm : first.records.Perm second.records) {type : BitVec 16}
    (honce : countType type first.records ≤ 1) : first.reference type = second.reference type := by
  rw [reference, reference, List.find?_perm hperm honce]

/-- The same calls in another order succeed alike and give a block of the same
length that is opened alike, with the same header fields and the same reference
for every type that was added at most once. -/
theorem build_order_free (start : BibStart) {adds adds' : List BibAdd} (hperm : adds.Perm adds')
    (slot : Option (BitVec 32)) (hsucceeds : (buildBlock start adds slot).Succeeds) :
    (buildBlock start adds' slot).Succeeds ∧
      (buildBlock start adds' slot).length = (buildBlock start adds slot).length ∧
      ∃ p q, (buildBlock start adds slot).builder.bind BibBuilder.buffer = some p ∧
        (buildBlock start adds' slot).builder.bind BibBuilder.buffer = some q ∧
        ∀ prior windowLength opened, (bibReaderOpen (some prior) (some p) windowLength).value =
            (.ok, some opened) →
          ∃ other, (bibReaderOpen (some prior) (some q) windowLength).value = (.ok, some other) ∧
            other = { opened with buffer := some q } ∧
            ∀ type, countType type (adds.map BibAdd.record) ≤ 1 → ∀ slot,
              readReference q other slot type = readReference p opened slot type := by
  have hrecords : (adds.map BibAdd.record).Perm (adds'.map BibAdd.record) := hperm.map _
  have hsucceeds' : (buildBlock start adds' slot).Succeeds := by
    obtain ⟨hwell, hadds, hroom⟩ := (buildBlock_succeeds_iff start adds slot).mp hsucceeds
    refine (buildBlock_succeeds_iff start adds' slot).mpr ⟨hwell, ?_, ?_⟩
    · exact fun add hadd => hadds add (hperm.mem_iff.mpr hadd)
    · rwa [← recordsSize_perm hrecords]
  obtain ⟨p, block, hleft, hrequested, hsize⟩ := buildBlock_left hsucceeds
  obtain ⟨q, block', hleft', hrequested', -⟩ := buildBlock_left hsucceeds'
  have hblocks : block.records.Perm block'.records := by
    rwa [hrequested.records, hrequested'.records]
  have hsame : block'.size = block.size := by
    rw [BibBlock.size, BibBlock.size, recordsSize_perm hblocks]
  refine ⟨hsucceeds', ?_, p, q, hleft.buffer, hleft'.buffer, ?_⟩
  · rw [hleft.length, hleft'.length, hsame]
  intro prior windowLength opened hopen
  have hok := congrArg Prod.fst hopen
  obtain ⟨-, hheader, -⟩ := (bibReaderOpen_ok_iff prior p windowLength).mp hok
  obtain ⟨hwindow, -⟩ := (block.headerAccepted_iff hleft.holds hsize).mp hheader
  obtain ⟨hmax, hacceptable⟩ := (block.open_ok_iff hleft.holds hsize hwindow prior).mp hok
  obtain ⟨hopened, hanswers⟩ := block.opened_answers hleft.holds hmax hacceptable hwindow prior
  rw [← hsame] at hmax hwindow
  obtain ⟨hother, hanswers'⟩ :=
    block'.opened_answers hleft'.holds hmax (hacceptable.perm hblocks) hwindow prior
  obtain rfl : opened = viewOf p :=
    Option.some.inj (congrArg Prod.snd (hopen.symm.trans hopened))
  refine ⟨viewOf q, hother, ?_, ?_⟩
  · rw [BibBlock.viewOf_eq hleft.holds, BibBlock.viewOf_eq hleft'.holds]
    simp only [BibBlock.view, hsame, hblocks.length_eq, hrequested.flags, hrequested'.flags,
      hrequested.bootId, hrequested'.bootId, hrequested.producerId, hrequested'.producerId,
      hrequested.createdCounter, hrequested'.createdCounter]
  · intro type honce slot
    rw [← hrequested.records] at honce
    rw [hanswers.reference, hanswers'.reference, BibBlock.reference_perm hblocks honce]

/-- The required references, the other way round. -/
theorem build_order_free_required :
    (buildBlock ⟨some ⟨none, 0, 0, 0, false⟩, some fun _ => 0xFF, 256, 8, 1, 2, 3⟩
      requiredAdds.reverse (some 0)).Succeeds :=
  (build_order_free ⟨some ⟨none, 0, 0, 0, false⟩, some fun _ => 0xFF, 256, 8, 1, 2, 3⟩
    (List.reverse_perm requiredAdds).symm (some 0)
    (by unfold BibBuild.Succeeds; decide +kernel)).1

end Atarix
