import Atarix.Rtl.Gates
import Atarix.Rtl.Progress
import Atarix.Rtl.RequestFields
import Atarix.Rtl.Search

/-! # A lookup is a search

The run of an admitted request whose fields and table stay as they are: its
registers follow the reference search window by window, so the response it
presents is the result of that search.
-/

namespace Atarix

namespace Accelerator

/-- The request is a query that passes every gate. -/
structure Request.Admitted (req : Request) : Prop where
  type : req.type = typeIndexQuery
  crcOk : req.crcOk
  ringOk : req.ringOk
  capabilityOk : req.capabilityOk
  policyOk : req.policyOk

/-- The ports hold the request, and the table port shows `table` at the current
probe address. -/
structure Holds (table : Table) (generation : BitVec 32) (req : Request) (input : Inputs)
    (regs : Registers) : Prop where
  rst : input.rstN
  fields : input.req = req
  window : input.tableControlBytes = table.controlBytes regs.probeAddr
  lookup : input.tableLookupValid = table.lookupValid regs.probeAddr
  generation : input.tableGeneration = generation

/-- No response has transferred since the acceptance at `a`. -/
def AwaitsResponse (inputs : Nat → Inputs) (a t : Nat) : Prop :=
  ∀ k, a < k → k < t → ¬ ResponseTransfer (inputs k) (machine.regs inputs k)

/-- An admitted request is accepted at `a` and held until its response. -/
structure Lookup (table : Table) (generation base : BitVec 32) (req : Request)
    (inputs : Nat → Inputs) (a : Nat) : Prop where
  accepts : Accepts (inputs a) (machine.regs inputs a)
  fields : (inputs a).req = req
  base : (inputs a).tableBaseResolvedId = base
  admitted : req.Admitted
  held : ∀ t, a < t → AwaitsResponse inputs a t →
    Holds table generation req (inputs t) (machine.regs inputs t)

/-- The windows compared in the edges from `a` to before `t`. -/
def windowsCompared (inputs : Nat → Inputs) (a t : Nat) : Nat :=
  Nat.count (fun k => (machine.regs inputs (a + k)).state = .probe) (t - a)

/-- The result registers, with a number of windows beside them. -/
def Registers.lookupResult (regs : Registers) (windows : Nat) : LookupResult :=
  ⟨regs.respStatus, regs.respResolvedId, regs.respResolvedGeneration, regs.respMatchOffset, windows⟩

section Invariant

variable (table : Table) (generation base : BitVec 32) (req : Request)

/-- The search has come to window `k`. -/
structure AtWindow (k : Nat) (regs : Registers) : Prop where
  fingerprint : regs.h2Fingerprint = req.keyHash.setWidth 7
  mask : regs.tableMask = 0xFFFFFFFF
  cleared : Cleared regs
  addr : regs.probeAddr = windowAddr base k
  within : k ≤ req.probeLimit.toNat
  clear : ∀ j < k, windowVerdict table generation base req.keyHash j = none

/-- What the registers say after `windows` comparisons. -/
def Searching (windows : Nat) (regs : Registers) : Prop :=
  match regs.state with
  | .validate | .auth | .fetch =>
      AtWindow table generation base req windows regs ∧ regs.probeCount.toNat = windows
  | .probe =>
      AtWindow table generation base req windows regs ∧ regs.probeCount.toNat = windows ∧
        table.lookupValid (windowAddr base windows)
  | .step => ∃ k, windows = k + 1 ∧ AtWindow table generation base req k regs ∧
      regs.probeCount.toNat = k + 1 ∧ k < req.probeLimit.toNat ∧
      windowVerdict table generation base req.keyHash k = none
  | .audit | .respond =>
      regs.lookupResult windows = search table generation base req.keyHash req.probeLimit
  | .idle | .unused => False

end Invariant

variable {table : Table} {generation base : BitVec 32} {req : Request}

/-- The registers a search reads or keeps from window to window. -/
def Registers.latched (regs : Registers) :
    BitVec 7 × BitVec 32 × BitVec 32 × BitVec 32 × BitVec 32 × BitVec 4 :=
  (regs.h2Fingerprint, regs.tableMask, regs.probeAddr, regs.respResolvedId,
    regs.respResolvedGeneration, regs.respMatchOffset)

theorem AtWindow.congr {k : Nat} {regs next : Registers}
    (hwindow : AtWindow table generation base req k regs) (hsame : next.latched = regs.latched) :
    AtWindow table generation base req k next := by
  obtain ⟨hfingerprint, hmask, ⟨hid, hgeneration, hoffset⟩, haddr, hwithin, hclear⟩ := hwindow
  simp only [Registers.latched, Prod.mk.injEq] at hsame
  obtain ⟨hfingerprint', hmask', haddr', hid', hgeneration', hoffset'⟩ := hsame
  exact ⟨hfingerprint'.trans hfingerprint, hmask'.trans hmask,
    ⟨hid'.trans hid, hgeneration'.trans hgeneration, hoffset'.trans hoffset⟩,
    haddr'.trans haddr, hwithin, hclear⟩

theorem Searching.setCycleCounter {windows : Nat} {regs : Registers}
    (hsearching : Searching table generation base req windows regs) (cycles : BitVec 32) :
    Searching table generation base req windows (regs.setCycleCounter cycles) := by
  have hwindow : ∀ k, AtWindow table generation base req k regs →
      AtWindow table generation base req k (regs.setCycleCounter cycles) :=
    fun k hwindow => hwindow.congr rfl
  have hstate : (regs.setCycleCounter cycles).state = regs.state := rfl
  cases hphase : regs.state <;> simp only [Searching, hstate, hphase] at hsearching ⊢
  case validate => exact hsearching.imp_left (hwindow windows)
  case auth => exact hsearching.imp_left (hwindow windows)
  case fetch => exact hsearching.imp_left (hwindow windows)
  case probe => exact hsearching.imp_left (hwindow windows)
  case step =>
      obtain ⟨k, heq, hat, hrest⟩ := hsearching
      exact ⟨k, heq, hwindow k hat, hrest⟩
  case audit => exact hsearching
  case respond => exact hsearching

/-- Acceptance puts the search at window 0. -/
theorem searching_start {input : Inputs} {regs : Registers} (haccepts : Accepts input regs)
    (hfields : input.req = req) (hbase : input.tableBaseResolvedId = base) :
    Searching table generation base req 0 (edge input regs) := by
  obtain ⟨hrst, hidle, hvalid⟩ := haccepts
  rw [edge_of_phase hrst]
  apply Searching.setCycleCounter
  simp only [phaseEdge, hidle, idleEdge, hvalid, if_true]
  refine ⟨⟨by rw [← hfields], rfl, ⟨rfl, rfl, rfl⟩, hbase, Nat.zero_le _, ?_⟩, rfl⟩
  exact fun j hj => absurd hj (Nat.not_lt_zero j)

/-- The comparator sees what the search sees at its window. -/
theorem AtWindow.simdHit_eq {input : Inputs} {regs : Registers} {k : Nat}
    (hwindow : AtWindow table generation base req k regs)
    (hholds : Holds table generation req input regs) :
    simdHit input regs =
      (lowestLane (table.controlBytes (windowAddr base k)) req.keyHash).isSome := by
  rw [simdHit, hwindow.fingerprint, hholds.window, hwindow.addr, matchFound_eq]

theorem setWidth_ofFin (lane : Fin 16) :
    (BitVec.ofFin (w := 4) lane).setWidth 32 = BitVec.ofNat 32 lane := by
  revert lane
  decide

/-- A window without a lane for the key, either the last one or with more to come. -/
theorem searching_missed {input : Inputs} {regs : Registers} {windows : Nat}
    (hholds : Holds table generation req input regs)
    (hwindow : AtWindow table generation base req windows regs)
    (hcount : regs.probeCount.toNat = windows) (hmiss : ¬ simdHit input regs)
    (hverdict : windowVerdict table generation base req.keyHash windows = none) :
    Searching table generation base req (windows + 1) (probeEdge input regs) := by
  have hlimited : regs.probeCount ≥ input.req.probeLimit ↔ req.probeLimit.toNat ≤ windows := by
    rw [hholds.fields, ge_iff_le, BitVec.le_def, hcount]
  unfold probeEdge
  rw [if_neg hmiss]
  by_cases hlimit : regs.probeCount ≥ input.req.probeLimit
  · -- the count has reached the limit, so this was the last window
    have hlast : windows = req.probeLimit.toNat :=
      Nat.le_antisymm hwindow.within (hlimited.mp hlimit)
    have hclear : ∀ j < req.probeLimit.toNat + 1,
        windowVerdict table generation base req.keyHash j = none := by
      rw [← hlast]
      exact Nat.forall_lt_succ_right.mpr ⟨hwindow.clear, hverdict⟩
    rw [if_pos hlimit, Searching, search_of_clear fun j hj => hclear j (Nat.lt_succ_of_le hj),
      ← hlast]
    simp only [Registers.lookupResult, hwindow.cleared.resolvedId,
      hwindow.cleared.resolvedGeneration, hwindow.cleared.matchOffset]
  · have hlt : windows < req.probeLimit.toNat := Nat.not_le.mp (mt hlimited.mpr hlimit)
    have hroom : regs.probeCount.toNat + 1 < 2 ^ 8 := by
      have := req.probeLimit.isLt
      omega
    rw [if_neg hlimit]
    refine ⟨windows, rfl, hwindow.congr rfl, ?_, hlt, hverdict⟩
    rw [BitVec.toNat_add]
    change (regs.probeCount.toNat + 1) % 2 ^ 8 = _
    rw [Nat.mod_eq_of_lt hroom, hcount]

/-- A comparison ends the search at its window or finds no lane there. -/
theorem searching_probed {input : Inputs} {regs : Registers} {windows : Nat}
    (hholds : Holds table generation req input regs)
    (hwindow : AtWindow table generation base req windows regs)
    (hcount : regs.probeCount.toNat = windows)
    (hvalid : table.lookupValid (windowAddr base windows)) :
    Searching table generation base req (windows + 1) (probeEdge input regs) := by
  have hhit := hwindow.simdHit_eq hholds
  have hverdict : windowVerdict table generation base req.keyHash windows = _ :=
    if_neg (not_not.mpr hvalid)
  cases hlane : lowestLane (table.controlBytes (windowAddr base windows)) req.keyHash with
  | none =>
      rw [hlane, Option.map_none] at hverdict
      have hmiss : ¬ simdHit input regs := by
        rw [hhit, hlane]
        exact Bool.false_ne_true
      exact searching_missed hholds hwindow hcount hmiss hverdict
  | some lane =>
      rw [hlane, Option.map_some] at hverdict
      have hfound : simdHit input regs := by
        rw [hhit, hlane]
        rfl
      have hoffset : simdMatchOffset input regs = BitVec.ofFin (w := 4) lane := by
        rw [simdMatchOffset, hwindow.fingerprint, hholds.window, hwindow.addr, matchOffset_eq hlane]
      unfold probeEdge
      rw [if_pos hfound, Searching, search_of_verdict hwindow.clear hwindow.within hverdict]
      simp only [Registers.lookupResult, hoffset, hwindow.addr, hholds.generation, setWidth_ofFin]

/-- The step goes to the next window. -/
theorem AtWindow.step {regs : Registers} {k : Nat}
    (hwindow : AtWindow table generation base req k regs) (hcount : regs.probeCount.toNat = k + 1)
    (hlt : k < req.probeLimit.toNat)
    (hnone : windowVerdict table generation base req.keyHash k = none) :
    AtWindow table generation base req (k + 1) (stepEdge regs) where
  fingerprint := hwindow.fingerprint
  mask := hwindow.mask
  cleared := ⟨hwindow.cleared.resolvedId, hwindow.cleared.resolvedGeneration,
    hwindow.cleared.matchOffset⟩
  addr := by
    change KrapivinStepper.nextBase regs.probeAddr regs.probeCount regs.tableMask = _
    rw [hwindow.addr, hwindow.mask, nextBase_eq hcount]
  within := hlt
  clear := Nat.forall_lt_succ_right.mpr ⟨hwindow.clear, hnone⟩

/-- An edge of a held request takes the search one phase further. -/
theorem searching_edge {input : Inputs} {regs : Registers} {windows : Nat}
    (hadmitted : req.Admitted) (hholds : Holds table generation req input regs)
    (hbusy : (edge input regs).state ≠ .idle)
    (hsearching : Searching table generation base req windows regs) :
    Searching table generation base req (windows + if regs.state = .probe then 1 else 0)
      (edge input regs) := by
  have hfields := hholds.fields
  rw [edge_of_phase hholds.rst] at hbusy ⊢
  change (phaseEdge input regs).state ≠ .idle at hbusy
  apply Searching.setCycleCounter
  cases hphase : regs.state <;> simp only [Searching, hphase] at hsearching <;>
    simp only [phaseEdge, hphase, reduceCtorEq, if_true, if_false, Nat.add_zero] at hbusy ⊢
  case validate =>
      rw [validateEdge_eq]
      have hverdict : validateVerdict input.req = none := by
        simp [validateVerdict, hfields, hadmitted.type, hadmitted.crcOk]
      rw [hverdict]
      obtain ⟨hwindow, hcount⟩ := hsearching
      exact ⟨hwindow.congr rfl, hcount⟩
  case auth =>
      rw [authEdge_eq]
      have hverdict : authVerdict input.req = none := by
        simp [authVerdict, hfields, hadmitted.ringOk, hadmitted.capabilityOk, hadmitted.policyOk]
      rw [hverdict]
      obtain ⟨hwindow, hcount⟩ := hsearching
      exact ⟨hwindow.congr rfl, hcount⟩
  case fetch =>
      obtain ⟨hwindow, hcount⟩ := hsearching
      have hlookup := hholds.lookup
      rw [hwindow.addr] at hlookup
      unfold fetchEdge
      split_ifs with hvalid
      · exact ⟨hwindow.congr rfl, hcount, hlookup ▸ hvalid⟩
      · have hverdict : windowVerdict table generation base req.keyHash windows =
            some ⟨statusTimeout, 0xFFFFFFFF, 0, 0, windows⟩ := by
          rw [windowVerdict, if_pos (hlookup ▸ hvalid)]
        rw [Searching, search_of_verdict hwindow.clear hwindow.within hverdict]
        simp only [Registers.lookupResult, hwindow.cleared.resolvedId,
          hwindow.cleared.resolvedGeneration, hwindow.cleared.matchOffset]
  case probe =>
      obtain ⟨hwindow, hcount, hvalid⟩ := hsearching
      exact searching_probed hholds hwindow hcount hvalid
  case step =>
      obtain ⟨k, rfl, hwindow, hcount, hlt, hnone⟩ := hsearching
      exact ⟨hwindow.step hcount hlt hnone, hcount⟩
  case audit =>
      unfold auditEdge
      split_ifs <;> simp only [Searching, hphase] <;> exact hsearching
  case respond =>
      obtain ⟨cycles, seen, heq⟩ := respondEdge_of_busy hbusy
      rw [heq]
      simp only [Searching, hphase]
      exact hsearching

/-! ## The run -/

variable {inputs : Nat → Inputs} {a t : Nat}

theorem windowsCompared_start (haccepts : Accepts (inputs a) (machine.regs inputs a)) :
    windowsCompared inputs a (a + 1) = 0 := by
  have hone : a + 1 - a = 0 + 1 := Nat.add_sub_cancel_left a 1
  rw [windowsCompared, hone, Nat.count_succ]
  simp [haccepts.2.1]

theorem windowsCompared_succ (hlt : a < t) :
    windowsCompared inputs a (t + 1) =
      windowsCompared inputs a t + if (machine.regs inputs t).state = .probe then 1 else 0 := by
  have hlength : t + 1 - a = (t - a) + 1 := by omega
  have hlast : a + (t - a) = t := by omega
  rw [windowsCompared, hlength, Nat.count_succ, hlast]
  rfl

theorem Searching.busy {windows : Nat} {regs : Registers}
    (hsearching : Searching table generation base req windows regs) : regs.state ≠ .idle := by
  intro hidle
  simp only [Searching, hidle] at hsearching

/-- Until its response a held request is in flight, and its registers search. -/
theorem Lookup.searching (hlookup : Lookup table generation base req inputs a) (hlt : a < t)
    (hawaits : AwaitsResponse inputs a t) :
    Processing inputs a t ∧
      Searching table generation base req (windowsCompared inputs a t) (machine.regs inputs t) := by
  induction t, hlt using Nat.le_induction with
  | base =>
      have hstart : Searching table generation base req 0 (machine.regs inputs (a + 1)) :=
        searching_start hlookup.accepts hlookup.fields hlookup.base
      refine ⟨⟨Nat.lt_succ_self a, hlookup.accepts, ?_⟩,
        (windowsCompared_start hlookup.accepts).symm ▸ hstart⟩
      intro k hk hle
      obtain rfl : k = a + 1 := by omega
      exact hstart.busy
  | succ t hlt ih =>
      obtain ⟨hprocessing, hsearching⟩ := ih fun k hk hkt => hawaits k hk (by omega)
      have hholds := hlookup.held t hlt fun k hk hkt => hawaits k hk (by omega)
      have hbusy : (machine.regs inputs (t + 1)).state ≠ .idle := fun hrest =>
        hawaits t hlt (Nat.lt_succ_self t)
          (responseTransfer_of_rest (regs_coherent inputs t) hholds.rst hsearching.busy hrest)
      refine ⟨hprocessing.succ hbusy, ?_⟩
      rw [windowsCompared_succ hlt]
      exact searching_edge hlookup.admitted hholds hbusy hsearching

/-- A request in flight has seen no response transfer. -/
theorem Processing.awaits (hprocessing : Processing inputs a t) : AwaitsResponse inputs a t := by
  intro k hk hkt htransfer
  have hidle := ((responseTransfer_iff (regs_coherent inputs k)).mp htransfer).2.2
  exact hprocessing.busy (k + 1) (by omega) hkt hidle

/-- In the response phase the result registers hold the result of the search. -/
theorem Lookup.result (hlookup : Lookup table generation base req inputs a)
    (hprocessing : Processing inputs a t) (hrespond : (machine.regs inputs t).state = .respond) :
    (machine.regs inputs t).lookupResult (windowsCompared inputs a t) =
      search table generation base req.keyHash req.probeLimit := by
  have hsearching := (hlookup.searching hprocessing.lt hprocessing.awaits).2
  simpa only [Searching, hrespond] using hsearching

/-! ## Progress -/

/-- The probe loop of a held request ends. -/
theorem Lookup.settles (hlookup : Lookup table generation base req inputs a) :
    ∃ t, Processing inputs a t ∧ (machine.regs inputs t).state = .audit := by
  have hstart := (hlookup.searching (Nat.lt_succ_self a) fun k hk hlt => by omega).1
  have hidle := hlookup.accepts.2.1
  have hphase : (machine.regs inputs (a + 1)).state ≠ .respond := by
    intro hrespond
    have haudit := audit_of_respond hlookup.accepts.1 hrespond
      (by rw [hidle]; exact Phase.noConfusion)
    exact Phase.noConfusion (hidle.symm.trans haudit)
  have hstep : ∀ t, Processing inputs a t ∧ (machine.regs inputs t).state ≠ .respond →
      (machine.regs inputs t).state ≠ .audit →
      (Processing inputs a (t + 1) ∧ (machine.regs inputs (t + 1)).state ≠ .respond) ∧
        edgesToRespond (machine.regs inputs (t + 1)) < edgesToRespond (machine.regs inputs t) := by
    rintro t ⟨hprocessing, hearly⟩ haudit
    have hrst := (hlookup.held t hprocessing.lt hprocessing.awaits).rst
    have hbusy := hprocessing.busy t hprocessing.lt le_rfl
    refine ⟨⟨hprocessing.succ (busy_of_early hrst hbusy hearly), ?_⟩,
      edgesToRespond_lt hrst (fun h => absurd h haudit) hbusy hearly⟩
    exact fun hrespond => haudit (audit_of_respond hrst hrespond hearly)
  obtain ⟨t, -, ⟨hprocessing, -⟩, haudit⟩ := Nat.exists_of_rank _ _
    (fun t => edgesToRespond (machine.regs inputs t)) hstep ⟨hstart, hphase⟩
  exact ⟨t, hprocessing, haudit⟩

/-- A response phase that does not transfer its response presents it. -/
theorem respond_waits {input : Inputs} {regs : Registers} (hrst : input.rstN)
    (hregs : Coherent regs) (hrespond : regs.state = .respond)
    (hwaits : ¬ ResponseTransfer input regs) :
    (edge input regs).state = .respond ∧ (edge input regs).respValid := by
  rw [edge_of_phase hrst]
  change (phaseEdge input regs).state = .respond ∧ (phaseEdge input regs).respValid
  simp only [phaseEdge, hrespond, respondEdge]
  split_ifs with hseen hready
  · have hvalid : regs.respValid := by
      rw [← hregs.seen_eq_valid]
      exact hseen
    exact absurd ⟨hrst, hvalid, hready⟩ hwaits
  all_goals exact ⟨rfl, rfl⟩

/-- Consumers that keep being ready get the response to a held request. -/
theorem Lookup.transfers (hlookup : Lookup table generation base req inputs a)
    (haudit : ∀ t, ∃ k, t ≤ k ∧ (inputs k).auditReady)
    (hresp : ∀ t, ∃ k, t ≤ k ∧ (inputs k).respReady) : ∃ t, Answers inputs a t := by
  have hrst : ∀ t, Processing inputs a t → (inputs t).rstN :=
    fun t hprocessing => (hlookup.held t hprocessing.lt hprocessing.awaits).rst
  obtain ⟨settled, hsettled⟩ := hlookup.settles
  -- the audit phase waits for its consumer
  obtain ⟨audited, -, ⟨hprocessing, hphase⟩, hready⟩ : ∃ t, settled ≤ t ∧
      (Processing inputs a t ∧ (machine.regs inputs t).state = .audit) ∧ (inputs t).auditReady := by
    refine Nat.exists_of_recurs haudit ?_ hsettled
    rintro t ⟨hprocessing, hphase⟩ hready
    have hnext : (machine.regs inputs (t + 1)).state = .audit := by
      rw [regs_succ_of_rst (hrst t hprocessing)]
      simp [Registers.setCycleCounter, phaseEdge, hphase, auditEdge, hready]
    exact ⟨hprocessing.succ (by rw [hnext]; exact Phase.noConfusion), hnext⟩
  have hrespond : (machine.regs inputs (audited + 1)).state = .respond := by
    rw [regs_succ_of_rst (hrst audited hprocessing)]
    simp [Registers.setCycleCounter, phaseEdge, hphase, auditEdge, hready]
  -- and the response phase for its own
  by_contra hnone
  have hgoes : ∀ t, Processing inputs a t → (machine.regs inputs t).state = .respond →
      Processing inputs a (t + 1) ∧ (machine.regs inputs (t + 1)).state = .respond ∧
        (machine.regs inputs (t + 1)).respValid := by
    intro t hprocessing hrespond
    obtain ⟨hnext, hvalid⟩ := respond_waits (hrst t hprocessing) (regs_coherent inputs t) hrespond
      fun htransfer => hnone ⟨t, hprocessing, htransfer⟩
    refine ⟨hprocessing.succ ?_, hnext, hvalid⟩
    change (machine.regs inputs (t + 1)).state = .respond at hnext
    rw [hnext]
    exact Phase.noConfusion
  have hentered := hgoes (audited + 1)
    (hprocessing.succ (by rw [hrespond]; exact Phase.noConfusion)) hrespond
  obtain ⟨t, -, ⟨hprocessing, -, hvalid⟩, hready⟩ : ∃ t, audited + 2 ≤ t ∧
      (Processing inputs a t ∧ (machine.regs inputs t).state = .respond ∧
        (machine.regs inputs t).respValid) ∧ (inputs t).respReady :=
    Nat.exists_of_recurs hresp (fun t hwaits _ => hgoes t hwaits.1 hwaits.2.1) hentered
  exact hnone ⟨t, hprocessing, hrst t hprocessing, hvalid, hready⟩

/-- The request accepted at `a` settles, presents `result` and nothing else, and
gets it to consumers that keep being ready. -/
structure AnswersWith (inputs : Nat → Inputs) (a : Nat) (result : LookupResult) : Prop where
  settles : ∃ t, Processing inputs a t ∧ (machine.regs inputs t).state = .audit
  presents : ∀ t, Processing inputs a t → (machine.regs inputs t).respValid →
    (machine.regs inputs t).lookupResult (windowsCompared inputs a t) = result
  transfers : (∀ t, ∃ k, t ≤ k ∧ (inputs k).auditReady) →
    (∀ t, ∃ k, t ≤ k ∧ (inputs k).respReady) → ∃ t, Answers inputs a t

/-- A lookup answers what the reference search finds. -/
theorem lookup_refines_search (hlookup : Lookup table generation base req inputs a) :
    AnswersWith inputs a (search table generation base req.keyHash req.probeLimit) where
  settles := hlookup.settles
  presents t hprocessing hvalid :=
    hlookup.result hprocessing ((regs_coherent inputs t).valid_respond hvalid)
  transfers := hlookup.transfers

/-- Lane 2 of every window is occupied by the key 5. -/
def occupiedTable : Table := ⟨fun _ => 0x850000, fun _ => true⟩

def occupiedQuery : Request := ⟨7, typeIndexQuery, true, true, true, true, 1, 5, 0, 3⟩

def occupiedLookup : Inputs where
  rstN := true
  reqValid := true
  req := occupiedQuery
  tableControlBytes := 0x850000
  tableGeneration := 9
  tableBaseResolvedId := 0xFFFFFFFF
  tableLookupValid := true
  respReady := true
  auditReady := true

/-- The window at address 3 is occupied like that, and all others are empty. -/
def sparseTable : Table := ⟨fun addr => if addr = 3 then 0x850000 else 0, fun _ => true⟩

/-- The query over the sparse table: the probe comes to address 3 at clock 9, by way of
the windows at `0xFFFFFFFF` and 0. -/
def sparseLookup (t : Nat) : Inputs :=
  { occupiedLookup with tableControlBytes := if 9 ≤ t then 0x850000 else 0 }

/-- The third window has the key. -/
theorem lookup_refines_search_sparse :
    AnswersWith sparseLookup 0 ⟨statusOk, 5, 9, 2, 3⟩ := by
  have hheld : ∀ t, 0 < t → AwaitsResponse sparseLookup 0 t →
      Holds sparseTable 9 occupiedQuery (sparseLookup t) (machine.regs sparseLookup t) := by
    intro t hlt hawaits
    have hle : t ≤ 13 := by
      by_contra! hlate
      exact hawaits 13 (by decide) hlate (by decide)
    interval_cases t <;> exact ⟨rfl, rfl, by decide, rfl, rfl⟩
  have hlookup : Lookup sparseTable 9 0xFFFFFFFF occupiedQuery sparseLookup 0 :=
    ⟨⟨rfl, rfl, rfl⟩, rfl, rfl, ⟨rfl, rfl, rfl, rfl, rfl⟩, hheld⟩
  have hfound : search sparseTable 9 0xFFFFFFFF occupiedQuery.keyHash occupiedQuery.probeLimit =
      ⟨statusOk, 5, 9, 2, 3⟩ := by decide
  rw [← hfound]
  exact lookup_refines_search hlookup

end Accelerator

end Atarix
