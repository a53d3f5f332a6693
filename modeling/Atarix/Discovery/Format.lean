import Atarix.Foundation.Memory

/-! # Discovery images

The layout of `discovery.h` and the results of `discovery_parser.h`. Structures
are packed and little-endian; a field is read at its offset in the record.
-/

namespace Atarix

/-- `atarix_discovery_result_t`. -/
inductive DiscoveryResult where
  | ok
  | null
  | tooSmall
  | badMagic
  | unsupportedVersion
  | badLength
  | badAlignment
  | truncatedRecord
  | missingEnd
  | duplicateHandle
  | capacity
  | badCrc
deriving DecidableEq, Repr

def discoveryMagicAtdx : BitVec 32 := 0x58445441
def discoveryVersionMajorV1 : BitVec 16 := 1
def discoveryVersionMinorV0 : BitVec 16 := 0
def discoveryHeaderSizeV1 : Nat := 32
def discoveryRecordHeaderSizeV1 : Nat := 8

namespace DiscoveryRecord

def resource : BitVec 16 := 0x0001
def service : BitVec 16 := 0x0002
def dependency : BitVec 16 := 0x0004
def instrumentation : BitVec 16 := 0x0005
def endOfRecords : BitVec 16 := 0xFFFF

end DiscoveryRecord

abbrev DiscoveryHandle := BitVec 64

def discoveryHandleProvider16 (handle : DiscoveryHandle) : BitVec 16 :=
  ((handle >>> 48) &&& 0xFFFF).setWidth 16

def discoveryHandleType (handle : DiscoveryHandle) : BitVec 16 :=
  ((handle >>> 32) &&& 0xFFFF).setWidth 16

def discoveryHandleInstance (handle : DiscoveryHandle) : BitVec 32 :=
  (handle &&& 0xFFFFFFFF).setWidth 32

def discoveryMakeHandle (providerIdLow16 typeId : BitVec 16) (instanceId : BitVec 32) :
    DiscoveryHandle :=
  (providerIdLow16.setWidth 64 <<< 48) ||| (typeId.setWidth 64 <<< 32) ||| instanceId.setWidth 64

/-! ## Header fields -/

namespace DiscoveryHeader

def magic (image : Memory) : BitVec 32 := image.load32 0
def versionMajor (image : Memory) : BitVec 16 := image.load16 4
def totalLength (image : Memory) : Nat := (image.load32 8).toNat
def recordCount (image : Memory) : BitVec 32 := image.load32 12
def headerCrc32 (image : Memory) : BitVec 32 := image.load32 24
def imageCrc32 (image : Memory) : BitVec 32 := image.load32 28

end DiscoveryHeader

/-! ## Record header fields -/

def recordType (image : Memory) (record : Nat) : BitVec 16 := image.load16 record

def recordLength (image : Memory) (record : Nat) : Nat := (image.load32 (record + 4)).toNat

def discoveryMagicIsValid (magic : BitVec 32) : Bool := magic = discoveryMagicAtdx

/-! ## The parts of a handle -/

theorem setWidth_and_0xFFFF (value : BitVec 64) :
    (value &&& 0xFFFF).setWidth 16 = value.setWidth 16 := by
  rw [BitVec.setWidth_and]
  exact BitVec.and_allOnes

theorem setWidth_and_0xFFFFFFFF (value : BitVec 64) :
    (value &&& 0xFFFFFFFF).setWidth 32 = value.setWidth 32 := by
  rw [BitVec.setWidth_and]
  exact BitVec.and_allOnes

section Handles

variable (providerIdLow16 typeId : BitVec 16) (instanceId : BitVec 32)

@[simp] theorem handleProvider16_makeHandle :
    discoveryHandleProvider16 (discoveryMakeHandle providerIdLow16 typeId instanceId) =
      providerIdLow16 := by
  rw [discoveryHandleProvider16, setWidth_and_0xFFFF, discoveryMakeHandle]
  ext index hindex
  simp only [BitVec.getElem_setWidth, BitVec.getLsbD_ushiftRight, BitVec.getLsbD_or,
    BitVec.getLsbD_shiftLeft, BitVec.getLsbD_setWidth]
  grind

@[simp] theorem handleType_makeHandle :
    discoveryHandleType (discoveryMakeHandle providerIdLow16 typeId instanceId) = typeId := by
  rw [discoveryHandleType, setWidth_and_0xFFFF, discoveryMakeHandle]
  ext index hindex
  simp only [BitVec.getElem_setWidth, BitVec.getLsbD_ushiftRight, BitVec.getLsbD_or,
    BitVec.getLsbD_shiftLeft, BitVec.getLsbD_setWidth]
  grind

@[simp] theorem handleInstance_makeHandle :
    discoveryHandleInstance (discoveryMakeHandle providerIdLow16 typeId instanceId) =
      instanceId := by
  rw [discoveryHandleInstance, setWidth_and_0xFFFFFFFF, discoveryMakeHandle]
  ext index hindex
  simp only [BitVec.getElem_setWidth, BitVec.getLsbD_or, BitVec.getLsbD_shiftLeft,
    BitVec.getLsbD_setWidth]
  grind

end Handles

end Atarix
