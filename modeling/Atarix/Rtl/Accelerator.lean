import Atarix.Foundation.Clocked
import Atarix.Rtl.ProbeCore

/-! # The lookup accelerator

`atx_spec_020_accelerator`: registers, reset values and the clocked process.
Assignments are non-blocking, so every branch reads the registers as they were
before the edge, and of two assignments to one register the later one stands.
-/

namespace Atarix

namespace Accelerator

def typeIndexQuery : BitVec 16 := 0x0020

def statusOk : BitVec 8 := 0x00
def statusInvalidHeader : BitVec 8 := 0x02
def statusCrcMismatch : BitVec 8 := 0x04
def statusSequenceError : BitVec 8 := 0x05
def statusRingDenied : BitVec 8 := 0x09
def statusPolicyDenied : BitVec 8 := 0x0A
def statusCapDenied : BitVec 8 := 0x0B
def statusTimeout : BitVec 8 := 0x0E

/-- The 4-bit state register. `unused` stands for the encodings 8 to 15, which
take the `default` branch. -/
inductive Phase where
  | idle
  | validate
  | auth
  | fetch
  | probe
  | step
  | audit
  | respond
  | unused
deriving DecidableEq, Repr

/-- The request fields the process or its log reads. The ring, query-type and
projection ports are tied off in the source. -/
structure Request where
  sequence : BitVec 32
  type : BitVec 16
  crcOk : Bool
  ringOk : Bool
  capabilityOk : Bool
  policyOk : Bool
  registryId : BitVec 32
  keyHash : BitVec 32
  expectedGeneration : BitVec 32
  probeLimit : BitVec 8
deriving DecidableEq, Repr

structure Inputs where
  rstN : Bool
  reqValid : Bool
  req : Request
  tableControlBytes : BitVec 128
  tableGeneration : BitVec 32
  tableBaseResolvedId : BitVec 32
  tableLookupValid : Bool
  respReady : Bool
  auditReady : Bool
deriving DecidableEq, Repr

structure Registers where
  reqReady : Bool
  probeValid : Bool
  probeAddr : BitVec 32
  respValid : Bool
  respStatus : BitVec 8
  respResolvedId : BitVec 32
  respResolvedGeneration : BitVec 32
  respMatchOffset : BitVec 4
  respCycles : BitVec 32
  auditValid : Bool
  auditSequence : BitVec 32
  auditStatus : BitVec 8
  auditRegistryId : BitVec 32
  auditGeneration : BitVec 32
  auditProbeCount : BitVec 8
  auditMatchOffset : BitVec 4
  state : Phase
  cycleCounter : BitVec 32
  probeCount : BitVec 8
  h2Fingerprint : BitVec 7
  tableMask : BitVec 32
  responseSeen : Bool
deriving DecidableEq, Repr

/-- The registers while `rst_n` is low. -/
def resetRegisters : Registers where
  reqReady := true
  probeValid := false
  probeAddr := 0
  respValid := false
  respStatus := statusOk
  respResolvedId := 0
  respResolvedGeneration := 0
  respMatchOffset := 0
  respCycles := 0
  auditValid := false
  auditSequence := 0
  auditStatus := statusOk
  auditRegistryId := 0
  auditGeneration := 0
  auditProbeCount := 0
  auditMatchOffset := 0
  state := .idle
  cycleCounter := 0
  probeCount := 0
  h2Fingerprint := 0
  tableMask := 0xFFFFFFFF
  responseSeen := false

/-! ## Combinational wires -/

def simdHit (input : Inputs) (regs : Registers) : Bool :=
  SimdProbeCore.matchFound input.tableControlBytes regs.h2Fingerprint

def simdMatchOffset (input : Inputs) (regs : Registers) : BitVec 4 :=
  SimdProbeCore.matchOffset input.tableControlBytes regs.h2Fingerprint

def probeNextAddr (regs : Registers) : BitVec 32 :=
  KrapivinStepper.nextBase regs.probeAddr regs.probeCount regs.tableMask

/-! ## The clocked process, one definition for each branch of the case -/

def idleEdge (input : Inputs) (regs : Registers) : Registers :=
  let regs := { regs with
    reqReady := true, probeValid := false, respValid := false, auditValid := false
    probeCount := 0, responseSeen := false }
  if input.reqValid then
    { regs with
      reqReady := false
      h2Fingerprint := input.req.keyHash.setWidth 7
      probeAddr := input.tableBaseResolvedId
      tableMask := 0xFFFFFFFF
      respResolvedId := 0xFFFFFFFF
      respResolvedGeneration := 0
      respMatchOffset := 0
      respStatus := statusOk
      state := .validate }
  else regs

def validateEdge (input : Inputs) (regs : Registers) : Registers :=
  if input.req.type ≠ typeIndexQuery then
    { regs with respStatus := statusInvalidHeader, state := .audit }
  else if ¬ input.req.crcOk then
    { regs with respStatus := statusCrcMismatch, state := .audit }
  else { regs with state := .auth }

def authEdge (input : Inputs) (regs : Registers) : Registers :=
  if ¬ input.req.ringOk then
    { regs with respStatus := statusRingDenied, state := .audit }
  else if ¬ input.req.capabilityOk then
    { regs with respStatus := statusCapDenied, state := .audit }
  else if ¬ input.req.policyOk then
    { regs with respStatus := statusPolicyDenied, state := .audit }
  else { regs with probeValid := true, state := .fetch }

def fetchEdge (input : Inputs) (regs : Registers) : Registers :=
  if input.tableLookupValid then { regs with probeValid := false, state := .probe }
  else { regs with probeValid := false, respStatus := statusTimeout, state := .audit }

def probeEdge (input : Inputs) (regs : Registers) : Registers :=
  if simdHit input regs then
    { regs with
      probeCount := regs.probeCount + 1
      respStatus := statusOk
      respMatchOffset := simdMatchOffset input regs
      respResolvedId := regs.probeAddr + (simdMatchOffset input regs).setWidth 32
      respResolvedGeneration := input.tableGeneration
      state := .audit }
  else if regs.probeCount ≥ input.req.probeLimit then
    { regs with
      probeCount := regs.probeCount + 1, respStatus := statusSequenceError, state := .audit }
  else { regs with probeCount := regs.probeCount + 1, state := .step }

def stepEdge (regs : Registers) : Registers :=
  { regs with probeAddr := probeNextAddr regs, probeValid := true, state := .fetch }

/-- `audit_valid` is assigned twice when the consumer is ready, and the second
assignment clears it. -/
def auditEdge (input : Inputs) (regs : Registers) : Registers :=
  let regs := { regs with
    probeValid := false
    auditValid := true
    auditSequence := input.req.sequence
    auditStatus := regs.respStatus
    auditRegistryId := input.req.registryId
    auditGeneration := input.tableGeneration
    auditProbeCount := regs.probeCount
    auditMatchOffset := regs.respMatchOffset }
  if input.auditReady then { regs with auditValid := false, state := .respond } else regs

def respondEdge (input : Inputs) (regs : Registers) : Registers :=
  if ¬ regs.responseSeen then
    { regs with respValid := true, respCycles := regs.cycleCounter, responseSeen := true }
  else if input.respReady then
    { regs with respValid := false, responseSeen := false, state := .idle }
  else { regs with respValid := true }

def unusedEdge (regs : Registers) : Registers :=
  { regs with respStatus := statusInvalidHeader, state := .audit }

/-- The `case` of the process. No branch reads the counter it is about to bump
except `STATE_RESPOND`, which reads the old value. -/
def phaseEdge (input : Inputs) (regs : Registers) : Registers :=
  match regs.state with
  | .idle => idleEdge input regs
  | .validate => validateEdge input regs
  | .auth => authEdge input regs
  | .fetch => fetchEdge input regs
  | .probe => probeEdge input regs
  | .step => stepEdge regs
  | .audit => auditEdge input regs
  | .respond => respondEdge input regs
  | .unused => unusedEdge regs

def Registers.setCycleCounter (regs : Registers) (cycles : BitVec 32) : Registers :=
  { regs with cycleCounter := cycles }

/-- One activation of the process: a rising clock edge, or an asynchronous
reset, which is an activation with `rst_n` low. -/
def edge (input : Inputs) (regs : Registers) : Registers :=
  if ¬ input.rstN then resetRegisters
  else (phaseEdge input regs).setCycleCounter (regs.cycleCounter + 1)

/-- The accelerator, started in reset. -/
def machine : Clocked Inputs Registers := ⟨resetRegisters, edge⟩

end Accelerator

end Atarix
