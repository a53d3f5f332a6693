import Atarix.Bib.BuilderSpec

/-! # Every sequence of builder calls

One builder, one buffer and any calls in any order, with any arguments. A call
either is refused and changes nothing, or starts, extends or seals the block, so
what the builder says of its buffer is true after every call.
-/

namespace Atarix

open Memory

/-! ## Refused calls -/

theorem bibBuilderInit_refused {builder : Option BibBuilder} {buffer : Option Memory}
    {capacity : Nat} {flags : BitVec 16} {bootId producerId createdCounter : BitVec 64}
    (hrefused : (bibBuilderInit builder buffer capacity flags bootId producerId createdCounter).1 ≠
      .ok) :
    (bibBuilderInit builder buffer capacity flags bootId producerId createdCounter).2 =
      builder := by
  rcases builder with _ | builder
  · rfl
  rcases buffer with _ | p
  · rfl
  simp only [bibBuilderInit] at hrefused ⊢
  split_ifs at hrefused ⊢ with hcapacity hflags
  · rfl
  · exact absurd rfl hrefused
  · rfl

theorem bibBuilderAddTlv_refused {builder : Option BibBuilder} {type flags : BitVec 16}
    {payload : Option Memory} {payloadLength : BitVec 32}
    (hrefused : (bibBuilderAddTlv builder type flags payload payloadLength).1 ≠ .ok) :
    (bibBuilderAddTlv builder type flags payload payloadLength).2 = builder := by
  rcases builder with _ | builder
  · rfl
  cases hbuffer : builder.buffer with
  | none => simp only [bibBuilderAddTlv, hbuffer]
  | some p =>
      simp only [bibBuilderAddTlv, hbuffer] at hrefused ⊢
      split_ifs at hrefused ⊢ with hpayload hsealed hflags hlength
      all_goals try rfl
      cases halign : align8U32 (bibTlvHeaderSizeV1 + payloadLength) with
      | none => rfl
      | some recordLength =>
          simp only [halign] at hrefused ⊢
          split_ifs at hrefused ⊢
          · rfl
          · exact absurd rfl hrefused

theorem BibAdd.apply_refused {builder : Option BibBuilder} (add : BibAdd)
    (hrefused : (add.apply builder).1 ≠ .ok) : (add.apply builder).2 = builder := by
  cases add with
  | tlv type flags payload payloadLength => exact bibBuilderAddTlv_refused hrefused
  | reference type flags objectId address length formatMajor formatMinor =>
      exact bibBuilderAddTlv_refused hrefused

/-- A call that adds finds an unsealed builder with a buffer. -/
theorem BibAdd.unsealed_of_ok {builder : BibBuilder} (add : BibAdd)
    (hadd : (add.apply (some builder)).1 = .ok) :
    builder.buffer.isSome ∧ builder.sealed = false := by
  have htlv : ∀ type flags payload payloadLength,
      (bibBuilderAddTlv (some builder) type flags payload payloadLength).1 = .ok →
        builder.buffer.isSome ∧ builder.sealed = false := by
    intro type flags payload payloadLength hadd
    cases hbuffer : builder.buffer with
    | none =>
        simp only [bibBuilderAddTlv, hbuffer] at hadd
        cases hadd
    | some p =>
        simp only [bibBuilderAddTlv, hbuffer] at hadd
        split_ifs at hadd with hpayload hsealed
        exact ⟨rfl, by simpa using hsealed⟩
  cases add with
  | tlv type flags payload payloadLength => exact htlv _ _ _ _ hadd
  | reference type flags objectId address length formatMajor formatMinor => exact htlv _ _ _ _ hadd

theorem bibBuilderSeal_refused {builder : Option BibBuilder} {slot : Option (BitVec 32)}
    (hrefused : (bibBuilderSeal builder slot).1 ≠ .ok) :
    (bibBuilderSeal builder slot).2.1 = builder := by
  rcases builder with _ | builder
  · rfl
  cases hbuffer : builder.buffer with
  | none => simp only [bibBuilderSeal, hbuffer]
  | some p =>
      simp only [bibBuilderSeal, hbuffer] at hrefused ⊢
      split_ifs at hrefused ⊢ with hsealed
      · rfl
      · exact absurd rfl hrefused

theorem bibBuilderSeal_ok {builder : BibBuilder} {slot : Option (BitVec 32)}
    (hseal : (bibBuilderSeal (some builder) slot).1 = .ok) :
    builder.buffer.isSome ∧ builder.sealed = false := by
  cases hbuffer : builder.buffer with
  | none =>
      simp only [bibBuilderSeal, hbuffer] at hseal
      cases hseal
  | some p =>
      simp only [bibBuilderSeal, hbuffer] at hseal
      split_ifs at hseal with hsealed
      exact ⟨rfl, by simpa using hsealed⟩

/-! ## Bytes that a call leaves alone -/

theorem writeRecord_of_outside {p payload : Memory} {record index : Nat} {type flags : BitVec 16}
    {recordLength payloadLength : BitVec 32}
    (hfits : 16 + payloadLength.toNat ≤ recordLength.toNat)
    (houtside : index < record ∨ record + recordLength.toNat ≤ index) :
    writeRecord p record type flags recordLength payloadLength payload index = p index := by
  apply holds_singleton.mp
  exact (holds_writeRecord hfits houtside).mpr (holds_singleton.mpr rfl)

theorem writeHeader_of_outside {p : Memory} {flags : BitVec 16}
    {bootId producerId createdCounter : BitVec 64} {capacity index : Nat} (hmin : 64 ≤ capacity)
    (houtside : capacity ≤ index) :
    writeHeader (p.zeroRange 0 capacity) flags bootId producerId createdCounter index =
      p index := by
  apply holds_singleton.mp
  apply (holds_writeHeader (hmin.trans houtside)).mpr
  apply (holds_zeroRange_of_disjoint (Or.inr (by rwa [Nat.zero_add]))).mpr
  exact holds_singleton.mpr rfl

/-- Sealing writes inside the header. -/
theorem writeSeal_of_outside {p : Memory} {length tlvCount : BitVec 32} {index : Nat}
    (houtside : 64 ≤ index) : writeSeal p length tlvCount index = p index := by
  have hafter : ∀ (memory : Memory) (offset : Nat) (value : BitVec 32), offset + 4 ≤ index →
      memory.write offset (le32 value) index = memory index :=
    fun memory offset value hle => write_of_outside (Or.inr hle)
  simp only [writeSeal]
  rw [hafter _ 20 _ (by omega), hafter _ 52 _ (by omega), hafter _ 20 _ (by omega),
    hafter _ 16 _ (by omega)]

/-! ## Calls and their history -/

/-- The caller's buffer and its builder. -/
structure BuilderState where
  memory : Memory
  builder : BibBuilder

/-- A pointer argument, NULL unless it is given. -/
def given {α : Type} (present : Bool) (value : α) : Option α := if present then some value else none

/-- The functions of `bib_builder.h`. The first arguments tell whether the builder
and the buffer are given or NULL. -/
inductive BuilderCall where
  | builderInit (builder buffer : Bool) (capacity : Nat) (headerFlags : BitVec 16)
      (bootId producerId createdCounter : BitVec 64)
  | builderAdd (builder : Bool) (add : BibAdd)
  | builderSeal (builder : Bool) (serializedLength : Option (BitVec 32))

/-- What the caller sees after a call that hands back `builder`. -/
def BuilderState.after (state : BuilderState) (builder : Option BibBuilder) : BuilderState :=
  match builder with
  | none => state
  | some builder => ⟨builder.buffer.getD state.memory, builder⟩

namespace BuilderCall

def apply (state : BuilderState) : BuilderCall → BibBuilderResult × BuilderState
  | builderInit builder buffer capacity headerFlags bootId producerId createdCounter =>
    let (result, builder) := bibBuilderInit (given builder state.builder)
      (given buffer state.memory) capacity headerFlags bootId producerId createdCounter
    (result, state.after builder)
  | builderAdd builder add =>
    let (result, builder) := add.apply (given builder state.builder)
    (result, state.after builder)
  | builderSeal builder serializedLength =>
    let (result, builder, _) := bibBuilderSeal (given builder state.builder) serializedLength
    (result, state.after builder)

/-- The records added since the last `init` that succeeded, `none` before one did. -/
def history (call : BuilderCall) (result : BibBuilderResult) (records : Option (List BibRecord)) :
    Option (List BibRecord) :=
  if result ≠ .ok then records
  else
    match call with
    | builderInit .. => some []
    | builderAdd _ add => records.map (· ++ [add.record])
    | builderSeal .. => records

def isInit : BuilderCall → Bool
  | builderInit .. => true
  | _ => false

def isSeal : BuilderCall → Bool
  | builderSeal .. => true
  | _ => false

end BuilderCall

/-- The state and the history after a sequence of calls. -/
def runCalls (state : BuilderState) (records : Option (List BibRecord)) :
    List BuilderCall → BuilderState × Option (List BibRecord)
  | [] => (state, records)
  | call :: calls =>
    let (result, next) := call.apply state
    runCalls next (call.history result records) calls

/-! ## What holds after every call -/

/-- What an initialised builder says of its buffer. -/
structure BuilderState.Accounts (state : BuilderState) (records : List BibRecord) : Prop where
  buffer : state.builder.buffer = some state.memory
  length : state.builder.length.toNat = 64 + recordsSize records
  aligned : state.builder.length.toNat % 8 = 0
  fits : state.builder.length.toNat ≤ state.builder.capacity
  tlvCount : state.builder.tlvCount.toNat = records.length
  rest : ∀ index, state.builder.length.toNat ≤ index → index < state.builder.capacity →
    state.memory index = 0

/-- A call writes inside the capacity, changes nothing unless it succeeds, and
leaves a sealed buffer alone unless it initialises. A block counts as sealed behind a
seal that succeeds, and behind no other call that does. -/
structure BuilderCall.Confined (call : BuilderCall) (state : BuilderState) : Prop where
  outside : ∀ index, (call.apply state).2.builder.capacity ≤ index →
    (call.apply state).2.memory index = state.memory index
  refused : (call.apply state).1 ≠ .ok → (call.apply state).2 = state
  frozen : state.builder.sealed → ¬ call.isInit → (call.apply state).2.memory = state.memory
  seals : (call.apply state).1 = .ok → (call.apply state).2.builder.sealed = call.isSeal

/-- The state that sealing the block at work leaves. -/
def BuilderState.seal (memory : Memory) (builder : BibBuilder) : BuilderState :=
  ⟨writeSeal memory builder.length builder.tlvCount,
    { builder with
      buffer := some (writeSeal memory builder.length builder.tlvCount), sealed := true }⟩

/-- The state belongs to its history: no buffer yet, a block at work, or one sealed. -/
inductive Tracks : BuilderState → Option (List BibRecord) → Prop where
  | detached {memory : Memory} {builder : BibBuilder} (hbuffer : builder.buffer = none) :
      Tracks ⟨memory, builder⟩ none
  | working {memory : Memory} {builder : BibBuilder} {block : BibBlock}
      (hbuilds : builder.Builds memory block) : Tracks ⟨memory, builder⟩ (some block.records)
  | sealed {memory : Memory} {builder : BibBuilder} {block : BibBlock}
      (hbuilds : builder.Builds memory block) :
      Tracks (BuilderState.seal memory builder) (some block.records)

namespace BuilderState

variable {state : BuilderState} {records : Option (List BibRecord)}

/-- Handing back the builder that was there changes nothing. -/
theorem after_given (htracks : Tracks state records) (present : Bool) :
    state.after (given present state.builder) = state := by
  cases present with
  | false => rfl
  | true =>
      have hmemory : state.builder.buffer.getD state.memory = state.memory := by
        cases htracks with
        | detached hbuffer => rw [hbuffer, Option.getD_none]
        | working hbuilds => rw [hbuilds.buffer, Option.getD_some]
        | sealed hbuilds => rfl
      change BuilderState.mk (state.builder.buffer.getD state.memory) state.builder = state
      rw [hmemory]

theorem Accounts.of_builds {block : BibBlock} (hbuilds : state.builder.Builds state.memory block) :
    state.Accounts block.records where
  buffer := hbuilds.buffer
  length := hbuilds.length
  aligned := by rw [hbuilds.length, block.size_aligned]
  fits := by
    rw [hbuilds.length]
    exact hbuilds.fits
  tlvCount := hbuilds.tlvCount
  rest := by
    intro index hle hlt
    rw [hbuilds.length] at hle
    have hbyte := holds_iff.mp hbuilds.rest (index - block.size)
      (by rw [List.length_replicate]; omega)
    rw [Nat.add_sub_cancel' hle, List.getElem_replicate] at hbyte
    exact hbyte

/-- A state that belongs to a history accounts for its records. -/
theorem accounts_of_tracks {added : List BibRecord} (htracks : Tracks state (some added)) :
    state.Accounts added := by
  cases htracks with
  | working hbuilds => exact Accounts.of_builds hbuilds
  | @sealed memory builder block hbuilds =>
      have hworking : Accounts ⟨memory, builder⟩ block.records := Accounts.of_builds hbuilds
      obtain ⟨-, hlength, haligned, hfits, hcount, hrest⟩ := hworking
      refine ⟨rfl, hlength, haligned, hfits, hcount, fun index hle hlt => ?_⟩
      change builder.length.toNat ≤ index at hle
      have hheader : 64 ≤ index := by
        rw [hbuilds.length, BibBlock.size] at hle
        omega
      exact (writeSeal_of_outside hheader).trans (hrest index hle hlt)

end BuilderState

namespace BuilderCall

variable {state : BuilderState} {records : Option (List BibRecord)}

/-- A call that does not succeed leaves builder and buffer as they were. -/
theorem apply_refused (htracks : Tracks state records) (call : BuilderCall)
    (hrefused : (call.apply state).1 ≠ .ok) : (call.apply state).2 = state := by
  cases call with
  | builderInit builder buffer capacity headerFlags bootId producerId createdCounter =>
      exact (congrArg state.after (bibBuilderInit_refused hrefused)).trans
        (BuilderState.after_given htracks builder)
  | builderAdd builder add =>
      exact (congrArg state.after (add.apply_refused hrefused)).trans
        (BuilderState.after_given htracks builder)
  | builderSeal builder slot =>
      exact (congrArg state.after (bibBuilderSeal_refused hrefused)).trans
        (BuilderState.after_given htracks builder)

/-- A call through a builder that succeeds was given one. -/
theorem given_of_add {builder : Bool} {add : BibAdd}
    (hadd : (add.apply (given builder state.builder)).1 = .ok) : builder = true := by
  cases builder with
  | true => rfl
  | false => cases add <;> cases hadd

theorem given_of_seal {builder : Bool} {slot : Option (BitVec 32)}
    (hseal : (bibBuilderSeal (given builder state.builder) slot).1 = .ok) : builder = true := by
  cases builder with
  | true => rfl
  | false => cases hseal

/-- Only an unsealed block is extended or sealed. -/
theorem working_of_unsealed (htracks : Tracks state records)
    (hunsealed : state.builder.buffer.isSome ∧ state.builder.sealed = false) :
    ∃ block : BibBlock, state.builder.Builds state.memory block ∧ records = some block.records := by
  cases htracks with
  | detached hbuffer => exact absurd hunsealed.1 (by rw [hbuffer]; exact Bool.false_ne_true)
  | @working _ _ block hbuilds => exact ⟨block, hbuilds, rfl⟩
  | sealed hbuilds => exact absurd hunsealed.2 Bool.true_eq_false_eq_False

/-- A call that succeeds leaves the block at work, or sealed if the call seals. -/
theorem apply_ok (htracks : Tracks state records) (call : BuilderCall)
    (hok : (call.apply state).1 = .ok) :
    ∃ memory builder, ∃ block : BibBlock, builder.Builds memory block ∧
      call.history .ok records = some block.records ∧
      (call.apply state).2 =
        if call.isSeal then BuilderState.seal memory builder else ⟨memory, builder⟩ := by
  cases call with
  | builderInit builder buffer capacity headerFlags bootId producerId createdCounter =>
      obtain ⟨started, p, hknown, hstarted, hbuilds⟩ := bibBuilderInit_builds hok
      have hafter : (apply state (.builderInit builder buffer capacity headerFlags bootId
          producerId createdCounter)).2 = ⟨p, started⟩ := by
        simp only [apply, hstarted, BuilderState.after, hbuilds.buffer, Option.getD_some]
      exact ⟨p, started, _, hbuilds, rfl, hafter⟩
  | builderAdd builder add =>
      obtain rfl := given_of_add hok
      obtain ⟨block, hbuilds, rfl⟩ := working_of_unsealed htracks (add.unsealed_of_ok hok)
      obtain ⟨added, p, hknown, hadded, hbuilds'⟩ := add.apply_builds hbuilds hok
      have hafter : (apply state (.builderAdd true add)).2 = ⟨p, added⟩ := by
        simp only [apply, given, if_true, hadded, BuilderState.after, hbuilds'.buffer,
          Option.getD_some]
      exact ⟨p, added, _, hbuilds', rfl, hafter⟩
  | builderSeal builder slot =>
      obtain rfl := given_of_seal hok
      obtain ⟨block, hbuilds, rfl⟩ := working_of_unsealed htracks (bibBuilderSeal_ok hok)
      have hafter : (apply state (.builderSeal true slot)).2 =
          state.after (bibBuilderSeal (some state.builder) slot).2.1 := rfl
      rw [bibBuilderSeal_of_builds hbuilds] at hafter
      exact ⟨state.memory, state.builder, block, hbuilds, rfl, hafter⟩

/-- Every call leads to a state that belongs to its history. -/
theorem apply_tracks (htracks : Tracks state records) (call : BuilderCall) :
    Tracks (call.apply state).2 (call.history (call.apply state).1 records) := by
  by_cases hok : (call.apply state).1 = .ok
  case neg =>
    have hhistory : call.history (call.apply state).1 records = records := if_pos hok
    rw [hhistory, apply_refused htracks call hok]
    exact htracks
  obtain ⟨memory, builder, block, hbuilds, hhistory, hafter⟩ := apply_ok htracks call hok
  rw [hok, hhistory, hafter]
  split_ifs with hseal
  · exact Tracks.sealed hbuilds
  · exact Tracks.working hbuilds

/-- The flag that a call leaves when it succeeds. -/
theorem apply_sealed (htracks : Tracks state records) (call : BuilderCall)
    (hok : (call.apply state).1 = .ok) :
    (call.apply state).2.builder.sealed = call.isSeal := by
  obtain ⟨memory, builder, block, hbuilds, -, hafter⟩ := apply_ok htracks call hok
  rw [hafter]
  split_ifs with hseal
  · exact hseal.symm
  · rw [hbuilds.unsealed]
    exact (Bool.eq_false_iff.mpr hseal).symm

/-- No call writes outside the capacity. -/
theorem apply_outside (htracks : Tracks state records) (call : BuilderCall) {index : Nat}
    (houtside : (call.apply state).2.builder.capacity ≤ index) :
    (call.apply state).2.memory index = state.memory index := by
  by_cases hok : (call.apply state).1 = .ok
  case neg => rw [apply_refused htracks call hok]
  cases call with
  | builderInit builder buffer capacity headerFlags bootId producerId createdCounter =>
      rcases builder with _ | _
      · cases hok
      rcases buffer with _ | _
      · cases hok
      simp only [apply, given, if_true, bibBuilderInit] at hok houtside ⊢
      split_ifs at hok houtside ⊢ with hcapacity hflags
      exact writeHeader_of_outside (Nat.not_lt.mp (not_or.mp hcapacity).1) houtside
  | builderAdd builder add =>
      obtain rfl := given_of_add hok
      obtain ⟨block, hbuilds, rfl⟩ := working_of_unsealed htracks (add.unsealed_of_ok hok)
      have htlv : ∀ type flags payload payloadLength,
          (bibBuilderAddTlv (some state.builder) type flags payload payloadLength).1 = .ok →
          (state.after (bibBuilderAddTlv (some state.builder) type flags payload
            payloadLength).2).builder.capacity ≤ index →
          (state.after (bibBuilderAddTlv (some state.builder) type flags payload
            payloadLength).2).memory index = state.memory index := by
        intro type flags payload payloadLength hadd hcapacity
        obtain ⟨current, p, recordLength, hcurrent, hbuffer, -, -, hlength, hfits, hafter⟩ :=
          bibBuilderAddTlv_ok hadd
        obtain rfl := Option.some.inj hcurrent
        obtain rfl : p = state.memory := Option.some.inj (hbuffer.symm.trans hbuilds.buffer)
        rw [hafter] at hcapacity ⊢
        have hrecord := BibRecord.payload_fits
          ⟨type, flags, payloadBytes payload payloadLength⟩
        rw [← hlength, payloadBytes, length_slice] at hrecord
        exact writeRecord_of_outside hrecord (Or.inr (hfits.trans hcapacity))
      cases add with
      | tlv type flags payload payloadLength => exact htlv _ _ _ _ hok houtside
      | reference type flags objectId address length formatMajor formatMinor =>
          exact htlv _ _ _ _ hok houtside
  | builderSeal builder slot =>
      obtain rfl := given_of_seal hok
      obtain ⟨block, hbuilds, rfl⟩ := working_of_unsealed htracks (bibBuilderSeal_ok hok)
      have hfits := hbuilds.fits
      simp only [apply, given, if_true, bibBuilderSeal_of_builds hbuilds, BuilderState.after,
        Option.getD_some] at houtside ⊢
      rw [BibBlock.size] at hfits
      exact writeSeal_of_outside (by omega)

/-- A sealed builder refuses every call but `init`. -/
theorem refused_of_sealed (hsealed : state.builder.sealed) (call : BuilderCall)
    (hother : ¬ call.isInit) : (call.apply state).1 ≠ .ok := by
  intro hok
  cases call with
  | builderInit => exact hother rfl
  | builderAdd builder add =>
      obtain rfl := given_of_add hok
      exact absurd hsealed (by rw [(add.unsealed_of_ok hok).2]; exact Bool.false_ne_true)
  | builderSeal builder slot =>
      obtain rfl := given_of_seal hok
      exact absurd hsealed (by rw [(bibBuilderSeal_ok hok).2]; exact Bool.false_ne_true)

theorem confined_of_tracks (htracks : Tracks state records) (call : BuilderCall) :
    call.Confined state where
  outside _ houtside := apply_outside htracks call houtside
  refused hrefused := apply_refused htracks call hrefused
  frozen hsealed hother :=
    congrArg BuilderState.memory
      (apply_refused htracks call (refused_of_sealed hsealed call hother))
  seals hok := apply_sealed htracks call hok

end BuilderCall

theorem runCalls_tracks {state : BuilderState} {records : Option (List BibRecord)}
    (htracks : Tracks state records) (calls : List BuilderCall) :
    Tracks (runCalls state records calls).1 (runCalls state records calls).2 := by
  induction calls generalizing state records with
  | nil => exact htracks
  | cons call calls ih => exact ih (call.apply_tracks htracks)

/-- A builder before its first call: it points nowhere, and the rest is arbitrary. -/
def BibBuilder.detached (builder : BibBuilder) : BibBuilder := { builder with buffer := none }

/-- After any sequence of calls an initialised builder accounts for the records
added since, and the next call, whichever it is, is confined. -/
theorem builder_invariant (memory : Memory) (builder : BibBuilder) (calls : List BuilderCall) :
    (∀ records, (runCalls ⟨memory, builder.detached⟩ none calls).2 = some records →
      (runCalls ⟨memory, builder.detached⟩ none calls).1.Accounts records) ∧
    ∀ call : BuilderCall, call.Confined (runCalls ⟨memory, builder.detached⟩ none calls).1 := by
  have hstart : Tracks ⟨memory, builder.detached⟩ none := Tracks.detached rfl
  have htracks := runCalls_tracks hstart calls
  refine ⟨fun records hrecords => ?_, fun call => BuilderCall.confined_of_tracks htracks call⟩
  rw [hrecords] at htracks
  exact BuilderState.accounts_of_tracks htracks

-- the second record does not fit, and the block is sealed with the first
example : (runCalls ⟨fun _ => 0xFF, BibBuilder.detached ⟨none, 0, 0, 0, false⟩⟩ none
    [.builderInit true true 96 0 1 2 3,
      .builderAdd true (.tlv 5 0 (some (ofList [0x78])) 1),
      .builderAdd true (.tlv 5 0 (some (ofList [0x79])) 1),
      .builderSeal true none]).2 = some [⟨5, 0, [0x78]⟩] := by
  decide +kernel

end Atarix
