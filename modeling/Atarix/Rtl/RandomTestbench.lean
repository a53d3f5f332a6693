import Atarix.Rtl.ProbeCount
import Atarix.Rtl.Server

/-! # The oracle of the random testbench

`atx_spec_020_random_tb` builds a case from random words, one for the request and one for
each lane, and predicts the audit record and the response of the accelerator from its own
notes. The prediction is right for every word that the generator may draw.
-/

namespace Atarix

namespace RandomTestbench

open Accelerator

/-! ## The case and the prediction -/

/-- The registers that are set for a case, and the lane that is noted. -/
structure Case where
  req : Request
  tableControlBytes : BitVec 128
  tableGeneration : BitVec 32
  tableBaseResolvedId : BitVec 32
  tableLookupValid : Bool
  lowestLane : Int

structure Expected where
  status : BitVec 8
  resolved : BitVec 32
  generation : BitVec 32
  offset : BitVec 4
  probes : BitVec 8
deriving DecidableEq, Repr

/-- The task `set_lane`: bits `lane * 8` to `lane * 8 + 7` become an occupied lane. -/
def setLane (tableControlBytes : BitVec 128) (lane : Fin 16) (laneFingerprint : BitVec 7) :
    BitVec 128 :=
  tableControlBytes &&& ~~~((BitVec.allOnes 8).setWidth 128 <<< (lane * 8 : Nat)) |||
    (1#1 ++ laneFingerprint).setWidth 128 <<< (lane * 8 : Nat)

/-- What the lane loop changes. -/
structure Lanes where
  tableControlBytes : BitVec 128
  lowestLane : Int

/-- A fingerprint that differs from the one that is looked for. -/
def nonmatchFingerprint (fingerprint : BitVec 7) (rv : BitVec 32) : BitVec 7 :=
  if rv.setWidth 7 ^^^ 0x55 = fingerprint then rv.setWidth 7 ^^^ 0x55 ^^^ 0x01
  else rv.setWidth 7 ^^^ 0x55

/-- An iteration of the lane loop with the word it draws. -/
def laneStep (fingerprint : BitVec 7) (words : Fin 16 → BitVec 32) (lanes : Lanes)
    (lane : Fin 16) : Lanes :=
  if words lane &&& 3 = 0 then
    { tableControlBytes := setLane lanes.tableControlBytes lane fingerprint
      lowestLane := if lanes.lowestLane < 0 then lane else lanes.lowestLane }
  else if words lane &&& 7 = 1 then
    { lanes with
      tableControlBytes :=
        setLane lanes.tableControlBytes lane (nonmatchFingerprint fingerprint (words lane)) }
  else lanes

def buildLanes (fingerprint : BitVec 7) (words : Fin 16 → BitVec 32) : Lanes :=
  (List.finRange 16).foldl (laneStep fingerprint words) ⟨0, -1⟩

/-- Case `i`, from the word `rv` and a word for each lane. -/
def buildCase (i rv : BitVec 32) (words : Fin 16 → BitVec 32) : Case :=
  let fingerprint : BitVec 7 := rv.setWidth 7
  let lanes := buildLanes fingerprint words
  { req :=
      { sequence := 0x80000000 + i
        type := if rv % 13 = 0 then 0x9999 else 0x0020
        crcOk := (rv >>> 4) % 11 ≠ 0
        ringOk := (rv >>> 8) % 9 ≠ 0
        capabilityOk := (rv >>> 12) % 8 ≠ 0
        policyOk := (rv >>> 16) % 7 ≠ 0
        registryId := 0x1000 + i
        keyHash := fingerprint.setWidth 32
        expectedGeneration := 5
        probeLimit := ((rv >>> 24) &&& 0x0F).setWidth 8 }
    tableControlBytes := lanes.tableControlBytes
    tableGeneration := 0x5000 + i
    tableBaseResolvedId := 0x20000000 + i * 32
    tableLookupValid := (rv >>> 20) % 10 ≠ 0
    lowestLane := lanes.lowestLane }

/-- What is expected of a request that finds nothing. -/
def missed (status : BitVec 8) (probes : BitVec 8) : Expected := ⟨status, 0xFFFFFFFF, 0, 0, probes⟩

/-- The branches of `build_expected` behind the gates. -/
def expectedOfLookup (drawn : Case) : Expected :=
  if ¬ drawn.tableLookupValid then missed statusTimeout 0
  else if drawn.lowestLane ≥ 0 then
    { status := statusOk
      resolved := drawn.tableBaseResolvedId + BitVec.ofInt 32 drawn.lowestLane
      generation := drawn.tableGeneration
      offset := (BitVec.ofInt 32 drawn.lowestLane).setWidth 4
      probes := 1 }
  else missed statusSequenceError (drawn.req.probeLimit + 1)

/-- The task `build_expected`. -/
def buildExpected (drawn : Case) : Expected :=
  if drawn.req.type ≠ 0x0020 then missed statusInvalidHeader 0
  else if ¬ drawn.req.crcOk then missed statusCrcMismatch 0
  else if ¬ drawn.req.ringOk then missed statusRingDenied 0
  else if ¬ drawn.req.capabilityOk then missed statusCapDenied 0
  else if ¬ drawn.req.policyOk then missed statusPolicyDenied 0
  else expectedOfLookup drawn

/-! ## The lanes that are set -/

/-- The byte of a lane. -/
def laneByte (tableControlBytes : BitVec 128) (lane : Fin 16) : BitVec 8 :=
  tableControlBytes.extractLsb' (lane * 8) 8

theorem getLsbD_laneByte (tableControlBytes : BitVec 128) (lane : Fin 16) {bit : Nat}
    (hbit : bit < 8) :
    (laneByte tableControlBytes lane).getLsbD bit = tableControlBytes.getLsbD (lane * 8 + bit) := by
  rw [laneByte, BitVec.getLsbD_extractLsb', decide_eq_true hbit, Bool.true_and]

/-- The mask takes the bits of the lane out, and the shifted byte brings its own in. -/
theorem getLsbD_setLane (tableControlBytes : BitVec 128) (lane : Fin 16)
    (laneFingerprint : BitVec 7) {index : Nat} (hindex : index < 128) :
    (setLane tableControlBytes lane laneFingerprint).getLsbD index =
      if lane * 8 ≤ index ∧ index < lane * 8 + 8 then
        (1#1 ++ laneFingerprint).getLsbD (index - lane * 8)
      else tableControlBytes.getLsbD index := by
  simp only [setLane, BitVec.getLsbD_or, BitVec.getLsbD_and, BitVec.getLsbD_not,
    BitVec.getLsbD_shiftLeft, BitVec.getLsbD_setWidth, BitVec.getLsbD_allOnes]
  split_ifs with hinside
  · simp [hindex, Nat.not_lt.mpr hinside.1, show index - lane * 8 < 8 by omega,
      show index - lane * 8 < 128 by omega]
  · by_cases hbefore : index < lane * 8
    · simp [hindex, hbefore]
    · have hzero : (1#1 ++ laneFingerprint).getLsbD (index - lane * 8) = false :=
        BitVec.getLsbD_of_ge _ _ (by omega)
      simp [hindex, hbefore, hzero, show ¬ index - (lane : Nat) * 8 < 8 by omega]

theorem laneByte_setLane (tableControlBytes : BitVec 128) (lane other : Fin 16)
    (laneFingerprint : BitVec 7) :
    laneByte (setLane tableControlBytes lane laneFingerprint) other =
      if other = lane then 1#1 ++ laneFingerprint else laneByte tableControlBytes other := by
  have hother := other.isLt
  apply BitVec.eq_of_getLsbD_eq
  intro bit hbit
  rw [getLsbD_laneByte _ _ hbit, getLsbD_setLane _ _ _ (by omega)]
  by_cases hsame : other = lane
  · subst hsame
    rw [if_pos ⟨by omega, by omega⟩, if_pos rfl, Nat.add_sub_cancel_left]
  · have hne : (other : Nat) ≠ lane := fun hval => hsame (Fin.ext hval)
    rw [if_neg (by omega), if_neg hsame, getLsbD_laneByte _ _ hbit]

/-- The byte that an iteration sets, if it sets one. -/
def drawnByte (fingerprint : BitVec 7) (rv : BitVec 32) : Option (BitVec 8) :=
  if rv &&& 3 = 0 then some (1#1 ++ fingerprint)
  else if rv &&& 7 = 1 then some (1#1 ++ nonmatchFingerprint fingerprint rv)
  else none

section Loop

variable (fingerprint : BitVec 7) (words : Fin 16 → BitVec 32)

theorem laneStep_tableControlBytes (lanes : Lanes) (lane : Fin 16) :
    (laneStep fingerprint words lanes lane).tableControlBytes =
      if words lane &&& 3 = 0 then setLane lanes.tableControlBytes lane fingerprint
      else if words lane &&& 7 = 1 then
        setLane lanes.tableControlBytes lane (nonmatchFingerprint fingerprint (words lane))
      else lanes.tableControlBytes := by
  unfold laneStep
  split_ifs <;> rfl

theorem laneByte_laneStep (lanes : Lanes) (lane other : Fin 16) :
    laneByte (laneStep fingerprint words lanes lane).tableControlBytes other =
      if other = lane then
        (drawnByte fingerprint (words other)).getD (laneByte lanes.tableControlBytes other)
      else laneByte lanes.tableControlBytes other := by
  rw [laneStep_tableControlBytes]
  unfold drawnByte
  by_cases heq : other = lane
  · subst heq
    rw [if_pos rfl]
    split_ifs
    · rw [laneByte_setLane, if_pos rfl, Option.getD_some]
    · rw [laneByte_setLane, if_pos rfl, Option.getD_some]
    · rfl
  · rw [if_neg heq]
    split_ifs
    · rw [laneByte_setLane, if_neg heq]
    · rw [laneByte_setLane, if_neg heq]
    · rfl

/-- By induction on the lanes: each has the byte of its word. -/
theorem laneByte_foldl (order : List (Fin 16)) (lanes : Lanes) (other : Fin 16) :
    laneByte (order.foldl (laneStep fingerprint words) lanes).tableControlBytes other =
      if other ∈ order then
        (drawnByte fingerprint (words other)).getD (laneByte lanes.tableControlBytes other)
      else laneByte lanes.tableControlBytes other := by
  induction order generalizing lanes with
  | nil => rfl
  | cons lane order ih =>
      rw [List.foldl_cons, ih, laneByte_laneStep]
      by_cases heq : other = lane
      · subst heq
        cases drawnByte fingerprint (words other) <;> simp
      · simp only [List.mem_cons, heq, if_false, false_or]

/-- The first lane with a matching word is noted. -/
theorem lowestLane_foldl (order : List (Fin 16)) (lanes : Lanes) :
    (order.foldl (laneStep fingerprint words) lanes).lowestLane =
      if lanes.lowestLane < 0 then
        (order.find? fun lane => words lane &&& 3 = 0).elim lanes.lowestLane
          fun lane => (lane : Int)
      else lanes.lowestLane := by
  induction order generalizing lanes with
  | nil => simp
  | cons lane order ih =>
      have hlane : ¬ ((lane : Nat) : Int) < 0 := by omega
      rw [List.foldl_cons, ih, List.find?_cons]
      by_cases hmatch : words lane &&& 3 = 0
      · have hstep : (laneStep fingerprint words lanes lane).lowestLane =
            if lanes.lowestLane < 0 then (lane : Int) else lanes.lowestLane := by
          rw [laneStep, if_pos hmatch]
        rw [hstep, decide_eq_true hmatch]
        split_ifs <;> simp_all
      · have hstep : (laneStep fingerprint words lanes lane).lowestLane = lanes.lowestLane := by
          rw [laneStep, if_neg hmatch]
          split_ifs <;> rfl
        rw [hstep, decide_eq_false hmatch]

end Loop

/-- An occupied lane in the form in which the comparator looks for it. -/
theorem occupied_byte : ∀ fingerprint : BitVec 7,
    (1#1 ++ fingerprint : BitVec 8) = 0x80#8 ||| fingerprint.setWidth 8 := by
  decide

theorem occupied_byte_low : ∀ fingerprint : BitVec 7,
    (1#1 ++ fingerprint : BitVec 8).setWidth 7 = fingerprint := by
  decide

theorem occupied_byte_ne_zero : ∀ fingerprint : BitVec 7,
    (0 : BitVec 8) ≠ 1#1 ++ fingerprint := by
  decide

theorem fingerprint_flipped_ne : ∀ fingerprint : BitVec 7, fingerprint ^^^ 1 ≠ fingerprint := by
  decide

theorem nonmatchFingerprint_ne (fingerprint : BitVec 7) (rv : BitVec 32) :
    nonmatchFingerprint fingerprint rv ≠ fingerprint := by
  unfold nonmatchFingerprint
  split_ifs with heq
  · rw [heq]
    exact fingerprint_flipped_ne fingerprint
  · exact heq

/-- A drawn lane holds the key exactly if its word matches. -/
theorem drawnByte_eq_iff (fingerprint : BitVec 7) (rv : BitVec 32) :
    (drawnByte fingerprint rv).getD 0 = 1#1 ++ fingerprint ↔ rv &&& 3 = 0 := by
  unfold drawnByte
  split_ifs with hmatch hother
  · exact iff_of_true rfl hmatch
  · refine iff_of_false (fun heq => ?_) hmatch
    have hsame := congrArg (BitVec.setWidth 7) heq
    rw [Option.getD_some, occupied_byte_low, occupied_byte_low] at hsame
    exact nonmatchFingerprint_ne fingerprint rv hsame
  · exact iff_of_false (occupied_byte_ne_zero fingerprint) hmatch

/-- The lane that is noted is the lowest that the comparator finds. -/
theorem lowestLane_buildLanes (fingerprint : BitVec 7) (words : Fin 16 → BitVec 32) :
    (buildLanes fingerprint words).lowestLane =
      (lowestLane (buildLanes fingerprint words).tableControlBytes
        (fingerprint.setWidth 32)).elim (-1) fun lane => (lane : Int) := by
  have hkey : (fingerprint.setWidth 32).setWidth 7 = fingerprint := by
    rw [BitVec.setWidth_setWidth_of_le _ (by decide), BitVec.setWidth_eq]
  have hzero (lane : Fin 16) : laneByte 0 lane = 0 := by
    simp [laneByte]
  have hholds : laneHolds (buildLanes fingerprint words).tableControlBytes
      (fingerprint.setWidth 32) = fun lane => decide (words lane &&& 3 = 0) := by
    funext lane
    have hbyte := laneByte_foldl fingerprint words (List.finRange 16) ⟨0, -1⟩ lane
    rw [if_pos (List.mem_finRange lane), hzero] at hbyte
    rw [Bool.eq_iff_iff, decide_eq_true_iff, ← drawnByte_eq_iff fingerprint (words lane), ← hbyte,
      occupied_byte, laneHolds, hkey, beq_iff_eq]
    rfl
  rw [lowestLane, hholds, buildLanes, lowestLane_foldl, if_pos (by decide)]

/-! ## The prediction is the answer -/

/-- The table of a case shows the same window at every address. -/
def Case.table (drawn : Case) : Table :=
  ⟨fun _ => drawn.tableControlBytes, fun _ => drawn.tableLookupValid⟩

/-- The answer to the request of a case. -/
def Case.answer (drawn : Case) : LookupResult :=
  Accelerator.answer drawn.table drawn.tableGeneration drawn.tableBaseResolvedId drawn.req

/-- An answer as the testbench compares it, the windows counted in eight bits. -/
def Expected.ofResult (result : LookupResult) : Expected :=
  ⟨result.status, result.resolvedId, result.resolvedGeneration, result.matchOffset,
    BitVec.ofNat 8 result.windows⟩

/-- The first window of a table that is the same everywhere decides the search. -/
theorem search_uniform (drawn : Case) (keyHash : BitVec 32) (probeLimit : BitVec 8) :
    search drawn.table drawn.tableGeneration drawn.tableBaseResolvedId keyHash probeLimit =
      if ¬ drawn.tableLookupValid then ⟨statusTimeout, 0xFFFFFFFF, 0, 0, 0⟩
      else (lowestLane drawn.tableControlBytes keyHash).elim
        ⟨statusSequenceError, 0xFFFFFFFF, 0, 0, probeLimit.toNat + 1⟩ fun lane =>
          ⟨statusOk, drawn.tableBaseResolvedId + BitVec.ofNat 32 lane, drawn.tableGeneration,
            BitVec.ofFin lane, 1⟩ := by
  by_cases hvalid : drawn.tableLookupValid = true
  · rw [if_neg (not_not.mpr hvalid)]
    cases hlowest : lowestLane drawn.tableControlBytes keyHash with
    | none =>
        apply search_of_clear
        intro window _
        simp [windowVerdict, Case.table, hvalid, hlowest]
    | some lane =>
        apply search_of_verdict (fun window hlt => absurd hlt (Nat.not_lt_zero window))
          (Nat.zero_le _)
        simp [windowVerdict, Case.table, hvalid, hlowest, windowAddr]
  · rw [if_pos hvalid]
    apply search_of_verdict (fun window hlt => absurd hlt (Nat.not_lt_zero window)) (Nat.zero_le _)
    simp [windowVerdict, Case.table, hvalid]

/-- The testbench orders the gates as the accelerator does. -/
theorem buildExpected_gates (drawn : Case) :
    buildExpected drawn =
      (gateVerdict drawn.req).elim (expectedOfLookup drawn) fun status => missed status 0 := by
  unfold buildExpected gateVerdict validateVerdict authVerdict typeIndexQuery
  split_ifs <;> rfl

/-- With the lowest lane noted the lookup is predicted. -/
theorem expectedOfLookup_eq {drawn : Case}
    (hnoted : drawn.lowestLane =
      (lowestLane drawn.tableControlBytes drawn.req.keyHash).elim (-1) fun lane => (lane : Int)) :
    expectedOfLookup drawn = Expected.ofResult (search drawn.table drawn.tableGeneration
      drawn.tableBaseResolvedId drawn.req.keyHash drawn.req.probeLimit) := by
  rw [search_uniform, expectedOfLookup, hnoted]
  by_cases hvalid : drawn.tableLookupValid = true
  · rw [if_neg (not_not.mpr hvalid), if_neg (not_not.mpr hvalid)]
    cases lowestLane drawn.tableControlBytes drawn.req.keyHash with
    | none =>
        have hcount : drawn.req.probeLimit + 1 =
            BitVec.ofNat 8 (drawn.req.probeLimit.toNat + 1) := by
          rw [BitVec.ofNat_add, BitVec.ofNat_toNat, BitVec.setWidth_eq]
          rfl
        rw [Option.elim_none, if_neg (by decide), hcount]
        rfl
    | some lane =>
        have hoffset : ∀ lane : Fin 16,
            (BitVec.ofInt 32 ((lane : Nat) : Int)).setWidth 4 = BitVec.ofFin lane := by
          decide
        have hwide : BitVec.ofInt 32 ((lane : Nat) : Int) = BitVec.ofNat 32 lane :=
          BitVec.ofInt_natCast _ _
        rw [Option.elim_some, if_pos (Int.natCast_nonneg _), hoffset, hwide]
        rfl
  · rw [if_pos hvalid, if_pos hvalid]
    rfl

theorem buildExpected_eq {drawn : Case}
    (hnoted : drawn.lowestLane =
      (lowestLane drawn.tableControlBytes drawn.req.keyHash).elim (-1) fun lane => (lane : Int)) :
    buildExpected drawn = Expected.ofResult drawn.answer := by
  rw [buildExpected_gates, expectedOfLookup_eq hnoted, Case.answer, Accelerator.answer]
  cases gateVerdict drawn.req <;> rfl

/-- A drawn case has its lowest lane noted. -/
theorem buildCase_lowestLane (i rv : BitVec 32) (words : Fin 16 → BitVec 32) :
    (buildCase i rv words).lowestLane =
      (lowestLane (buildCase i rv words).tableControlBytes
        (buildCase i rv words).req.keyHash).elim (-1) fun lane => (lane : Int) :=
  lowestLane_buildLanes _ _

/-! ## The accelerator does what is predicted -/

/-- While its request is in flight the accelerator is given what the case says. -/
structure Drives (drawn : Case) (inputs : Nat → Inputs) (a : Nat) : Prop where
  rst : ∀ t, (inputs t).rstN
  accepts : Accepts (inputs a) (machine.regs inputs a)
  base : (inputs a).tableBaseResolvedId = drawn.tableBaseResolvedId
  req : (inputs a).req = drawn.req
  held : ∀ t, Processing inputs a t → (inputs t).req = drawn.req
  window : ∀ t, Processing inputs a t → (inputs t).tableControlBytes = drawn.tableControlBytes
  generation : ∀ t, Processing inputs a t → (inputs t).tableGeneration = drawn.tableGeneration
  lookup : ∀ t, Processing inputs a t → (inputs t).tableLookupValid = drawn.tableLookupValid

variable {drawn : Case} {inputs : Nat → Inputs} {a t : Nat}

theorem Drives.environment (hdrives : Drives drawn inputs a) :
    Environment drawn.table drawn.tableGeneration inputs a where
  rst := hdrives.rst
  held t hprocessing :=
    { rst := hdrives.rst t
      fields := (hdrives.held t hprocessing).trans hdrives.req.symm
      window := hdrives.window t hprocessing
      lookup := hdrives.lookup t hprocessing
      generation := hdrives.generation t hprocessing }

theorem Drives.result (hdrives : Drives drawn inputs a) (hprocessing : Processing inputs a t)
    (hdecided : (machine.regs inputs t).state = .audit ∨ (machine.regs inputs t).state = .respond) :
    (machine.regs inputs t).lookupResult (windowsCompared inputs a t) = drawn.answer := by
  rw [hdrives.environment.result hprocessing hdecided, hdrives.base, hdrives.req]
  rfl

/-- The record that the testbench compares. -/
def expectedRecord (drawn : Case) : AuditRecord where
  sequence := drawn.req.sequence
  status := (buildExpected drawn).status
  registryId := drawn.req.registryId
  generation := drawn.tableGeneration
  probeCount := (buildExpected drawn).probes
  matchOffset := (buildExpected drawn).offset

/-- The record is written by a stalled edge of the audit phase, from the decided request. -/
theorem Drives.record (hdrives : Drives drawn inputs a)
    (hpredicted : buildExpected drawn = Expected.ofResult drawn.answer)
    (hprocessing : Processing inputs a t) (hvalid : (machine.regs inputs t).auditValid) :
    (machine.regs inputs t).auditRecord = expectedRecord drawn := by
  obtain ⟨k, rfl, hstalls, hwritten⟩ := exists_stalls hvalid
  have hne : a ≠ k := by
    rintro rfl
    exact Phase.noConfusion (hprocessing.accepts.2.1.symm.trans hstalls.2.1)
  have hbefore := hprocessing.of_le (lt_of_le_of_ne (Nat.le_of_lt_succ hprocessing.lt) hne)
    (Nat.le_succ k)
  have hresult := hdrives.result hbefore (.inl hstalls.2.1)
  rw [hwritten, recordOf, hbefore.probeCount_eq, hdrives.held k hbefore,
    hdrives.generation k hbefore, expectedRecord, hpredicted, ← hresult]
  rfl

/-- What the testbench compares of a response. -/
def expectedPorts (drawn : Case) : BitVec 8 × BitVec 32 × BitVec 32 × BitVec 4 :=
  ((buildExpected drawn).status, (buildExpected drawn).resolved,
    (buildExpected drawn).generation, (buildExpected drawn).offset)

/-- A request of a limit below sixteen is decided within fifty edges. -/
theorem edgesToAudit_le (hlimit : drawn.req.probeLimit.toNat < 16) :
    edgesToAudit drawn.answer.status drawn.answer.windows ≤ 50 := by
  have hmiss (windows : Nat) : edgesToAudit statusSequenceError windows = 2 + 3 * windows := rfl
  rw [Case.answer, Accelerator.answer]
  cases gateVerdict drawn.req with
  | some status =>
      have hrefused : edgesToAudit status 0 ≤ 4 := by
        unfold edgesToAudit
        split_ifs <;> omega
      exact hrefused.trans (by decide)
  | none =>
      rw [Option.elim_none, search_uniform]
      by_cases hvalid : drawn.tableLookupValid = true
      · rw [if_neg (not_not.mpr hvalid)]
        cases lowestLane drawn.tableControlBytes drawn.req.keyHash with
        | none =>
            change edgesToAudit statusSequenceError (drawn.req.probeLimit.toNat + 1) ≤ 50
            rw [hmiss]
            omega
        | some lane => exact (by decide : edgesToAudit statusOk 1 ≤ 50)
      · rw [if_pos hvalid]
        exact (by decide : edgesToAudit statusTimeout 0 ≤ 50)

/-- Whatever words the generator draws, the accelerator presents the audit record and the
response that the testbench predicts, and decides the request long before the testbench
gives up. -/
theorem random_oracle_exact (i rv : BitVec 32) (words : Fin 16 → BitVec 32)
    (hdrives : Drives (buildCase i rv words) inputs a) :
    (∀ t, Processing inputs a t → (machine.regs inputs t).auditValid →
        (machine.regs inputs t).auditRecord = expectedRecord (buildCase i rv words)) ∧
      (∀ t, Processing inputs a t → (machine.regs inputs t).respValid →
        ((machine.regs inputs t).lookupResult 0).ports = expectedPorts (buildCase i rv words)) ∧
      ∃ t ≤ a + 50, Processing inputs a t ∧ (machine.regs inputs t).state = .audit := by
  have hpredicted := buildExpected_eq (buildCase_lowestLane i rv words)
  -- the limit is drawn from four bits, so a search ends soon
  have hlimit : (buildCase i rv words).req.probeLimit.toNat < 16 := by
    have hmask : ((rv >>> 24) &&& 0x0F#32).toNat ≤ 15 := by
      rw [BitVec.toNat_and]
      exact Nat.and_le_right
    change (((rv >>> 24) &&& 0x0F#32).setWidth 8).toNat < 16
    rw [BitVec.toNat_setWidth]
    omega
  generalize buildCase i rv words = drawn at hdrives hpredicted hlimit ⊢
  refine ⟨?_, ?_, ?_⟩
  · intro t hprocessing hvalid
    exact hdrives.record hpredicted hprocessing hvalid
  · intro t hprocessing hvalid
    have hrespond := (regs_coherent inputs t).valid_respond hvalid
    have hresult := hdrives.result hprocessing (.inr hrespond)
    rw [expectedPorts, hpredicted, ← hresult]
    rfl
  · have hanswer : answer drawn.table drawn.tableGeneration (inputs a).tableBaseResolvedId
        (inputs a).req = drawn.answer := by
      rw [hdrives.base, hdrives.req]
      rfl
    have haudits := hdrives.environment.audits hdrives.accepts hanswer
    exact ⟨_, Nat.add_le_add_left (edgesToAudit_le hlimit) a, haudits⟩

/-- A requester that presents a case and consumers that never take anything. -/
def presented (drawn : Case) : Inputs where
  rstN := true
  reqValid := true
  req := drawn.req
  tableControlBytes := drawn.tableControlBytes
  tableGeneration := drawn.tableGeneration
  tableBaseResolvedId := drawn.tableBaseResolvedId
  tableLookupValid := drawn.tableLookupValid
  respReady := false
  auditReady := false

theorem presented_drives (drawn : Case) : Drives drawn (fun _ => presented drawn) 0 :=
  ⟨fun _ => rfl, ⟨rfl, rfl, rfl⟩, rfl, rfl, fun _ _ => rfl, fun _ _ => rfl, fun _ _ => rfl,
    fun _ _ => rfl⟩

/-- A case in which lanes 3, 7, 11 and 15 match. -/
theorem random_oracle_exact_fourth :
    let drawn := buildCase 5 0x04111151 fun lane => if lane % 4 = 3 then 4 else 1
    ∃ t ≤ 0 + 50, Processing (fun _ => presented drawn) 0 t ∧
      (machine.regs (fun _ => presented drawn) t).state = .audit :=
  (random_oracle_exact 5 0x04111151 (fun lane => if lane % 4 = 3 then 4 else 1)
    (presented_drives _)).2.2

example : (buildCase 5 0x04111151 fun lane => if lane % 4 = 3 then 4 else 1).lowestLane = 3 := by
  decide

end RandomTestbench

end Atarix
