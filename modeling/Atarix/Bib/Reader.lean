import Atarix.Bib.Format
import Atarix.Foundation.Traced

/-! # Reading boot information blocks

`bib_reader.c`. A computation records each byte index it reads and each 32-bit
sum and difference of offsets and lengths it forms. Pointers into the block are
byte offsets from its start.
-/

namespace Atarix

inductive BibEvent where
  | read (index : Nat)
  | sum (left right : BitVec 32)
  | difference (left right : BitVec 32)
deriving DecidableEq, Repr

abbrev BibReading := Traced BibEvent

/-- `atarix_bib_view_t`. -/
structure BibView where
  buffer : Option Memory
  totalLength : BitVec 32
  tlvOffset : BitVec 32
  tlvCount : BitVec 32
  flags : BitVec 16
  bootId : BitVec 64
  producerId : BitVec 64
  createdCounter : BitVec 64

/-- A view after `memset`. -/
def BibView.zero : BibView := ⟨none, 0, 0, 0, 0, 0, 0, 0⟩

/-- `atarix_bib_record_view_t`. -/
structure BibRecordView where
  type : BitVec 16
  flags : BitVec 16
  payload : Nat
  payloadLength : BitVec 32
  serializedLength : BitVec 32
deriving DecidableEq, Repr

/-- `atarix_bib_reference_view_t`. -/
structure BibReferenceView where
  objectId : BitVec 64
  address : BitVec 64
  length : BitVec 64
  formatMajor : BitVec 32
  formatMinor : BitVec 32
  integrityKind : BitVec 32
  integrity : Nat
  integrityLength : BitVec 32
deriving DecidableEq, Repr

/-! ## Reads and offset arithmetic -/

def readEvents (index count : Nat) : List BibEvent := (List.range' index count).map BibEvent.read

def readLe16 (buffer : Memory) (index : Nat) : BibReading (BitVec 16) :=
  ⟨buffer.load16 index, readEvents index 2⟩

def readLe32 (buffer : Memory) (index : Nat) : BibReading (BitVec 32) :=
  ⟨buffer.load32 index, readEvents index 4⟩

def readLe64 (buffer : Memory) (index : Nat) : BibReading (BitVec 64) :=
  ⟨buffer.load64 index, readEvents index 8⟩

def add32 (left right : BitVec 32) : BibReading (BitVec 32) := ⟨left + right, [.sum left right]⟩

def sub32 (left right : BitVec 32) : BibReading (BitVec 32) :=
  ⟨left - right, [.difference left right]⟩

/-- `atarix_bib_magic_is_valid`, with the `&&` chain from `index` on. -/
def magicIsValidFrom (buffer : Memory) (index : Nat) : List (BitVec 8) → BibReading Bool
  | [] => return true
  | byte :: rest => do
    let found ← (⟨buffer index, readEvents index 1⟩ : BibReading (BitVec 8))
    if found = byte then magicIsValidFrom buffer (index + 1) rest else return false

def bibMagicIsValid (buffer : Memory) : BibReading Bool := magicIsValidFrom buffer 0 bibMagic

/-- The loop of `crc32c_with_zeroed_field`, from index `i` on. -/
def crc32cZeroedFrom (data : Memory) (length i crc : BitVec 32) : BibReading (BitVec 32) :=
  if i < length then do
    let byte ← if i ≥ 20 ∧ i < 24 then pure 0 else ⟨data i.toNat, readEvents i.toNat 1⟩
    crc32cZeroedFrom data length (i + 1) (Crc.takeByte crc32cBitStep crc byte)
  else return crc
termination_by length.toNat - i.toNat
decreasing_by bv_omega

/-- Bytes 20 to 23 count as zero and are not read. -/
def crc32cWithZeroedField (data : Memory) (length : BitVec 32) : BibReading (BitVec 32) := do
  let crc ← crc32cZeroedFrom data length 0 0xFFFFFFFF
  return crc ^^^ 0xFFFFFFFF

def knownType (type : BitVec 16) : Bool :=
  type ≥ BibTlv.serviceDirectoryReference ∧ type ≤ BibTlv.entropySeedReference

/-! ## Records -/

def recordAtOffset (buffer : Memory) (totalLength offset : BitVec 32) :
    BibReading (Except BibError BibRecordView) := do
  if offset > totalLength then return .error .tlvBounds
  else
    let room ← sub32 totalLength offset
    if room < bibTlvHeaderSizeV1 then return .error .tlvBounds
    else
      let p := offset.toNat
      let length ← readLe32 buffer (p + 4)
      let payloadLength ← readLe32 buffer (p + 8)
      if length < bibTlvHeaderSizeV1 ∨ ¬ bibLengthIsAligned length then return .error .tlvBounds
      else
        let room ← sub32 totalLength offset
        if length > room then return .error .tlvBounds
        else
          let body ← sub32 length bibTlvHeaderSizeV1
          if payloadLength > body then return .error .tlvBounds
          else
            let flags ← readLe16 buffer (p + 2)
            if ¬ bibTlvFlagsAreKnown flags then return .error .tlvReserved
            else
              let reserved ← readLe32 buffer (p + 12)
              if reserved ≠ 0 then return .error .tlvReserved
              else
                let type ← readLe16 buffer p
                let flags ← readLe16 buffer (p + 2)
                return .ok
                  { type, flags, payload := p + 16, payloadLength, serializedLength := length }

/-- The payload check of a required reference in the record loop of `open`. -/
def checkRequiredReference (buffer : Memory) (record : BibRecordView) : BibReading BibError := do
  if record.type = BibTlv.serviceDirectoryReference ∨
      record.type = BibTlv.memoryMapReference then
    if record.payloadLength < bibReferenceFixedSizeV1 then return .tlvBounds
    else
      let address ← readLe64 buffer (record.payload + 8)
      let length ← readLe64 buffer (record.payload + 16)
      if address > 0xFFFFFFFFFFFFFFFF - length then return .referenceOverflow else return .ok
  else return .ok

/-- The offset and the two counters of the record loop. -/
structure ScanState where
  offset : BitVec 32
  serviceCount : BitVec 32
  memoryCount : BitVec 32
deriving DecidableEq, Repr

/-- The counters with a record counted, at the offset behind it. -/
def ScanState.next (state : ScanState) (record : BibRecordView) (offset : BitVec 32) :
    ScanState where
  offset := offset
  serviceCount := state.serviceCount +
    if record.type = BibTlv.serviceDirectoryReference then 1 else 0
  memoryCount := state.memoryCount +
    if record.type = BibTlv.memoryMapReference then 1 else 0

/-- The record loop of `open`, with the number of iterations still to go. -/
def scanRecords (buffer : Memory) (totalLength : BitVec 32) :
    Nat → ScanState → BibReading (Except BibError ScanState)
  | 0, state => return .ok state
  | remaining + 1, state => do
    match ← recordAtOffset buffer totalLength state.offset with
    | .error error => return .error error
    | .ok record =>
      if ¬ knownType record.type ∧ record.flags &&& bibTlvFlagMandatory ≠ 0 then
        return .error .unknownMandatory
      else
        let checked ← checkRequiredReference buffer record
        if checked ≠ .ok then return .error checked
        else
          let offset ← add32 state.offset record.serializedLength
          scanRecords buffer totalLength remaining (state.next record offset)

/-! ## Opening a block -/

/-- The checksum and the reserved header bits. -/
def checkIntegrity (p : Memory) (totalLength : BitVec 32) :
    BibReading (Except BibError (BitVec 32)) := do
  let stored ← readLe32 p 20
  let computed ← crc32cWithZeroedField p totalLength
  if stored ≠ computed then return .error .crc
  else
    let flags ← readLe16 p 14
    if ¬ bibHeaderFlagsAreKnown flags then return .error .headerReserved
    else
      let reserved ← readLe64 p 56
      if reserved ≠ 0 then return .error .headerReserved else return .ok totalLength

/-- The checks of `open` before the view is filled. The value is the total length. -/
def checkHeader (p : Memory) (windowLength : Nat) : BibReading (Except BibError (BitVec 32)) := do
  let magicValid ← bibMagicIsValid p
  if ¬ magicValid then return .error .magic
  else
    let versionMajor ← readLe16 p 8
    if versionMajor ≠ bibVersionMajorV1 then return .error .version
    else
      let headerLength ← readLe16 p 12
      if headerLength.setWidth 32 ≠ bibHeaderSizeV1 then return .error .headerLength
      else
        let totalLength ← readLe32 p 16
        if totalLength < bibHeaderSizeV1 ∨ totalLength.toNat > windowLength ∨
            totalLength > bibRecommendedMaxSizeV1 ∨ ¬ bibLengthIsAligned totalLength then
          return .error .totalLength
        else checkIntegrity p totalLength

/-- The view that `open` fills from a checked header. -/
def fillView (p : Memory) (totalLength : BitVec 32) : BibReading BibView := do
  let tlvOffset ← readLe32 p 48
  let tlvCount ← readLe32 p 52
  let flags ← readLe16 p 14
  let bootId ← readLe64 p 24
  let producerId ← readLe64 p 32
  let createdCounter ← readLe64 p 40
  return { buffer := some p, totalLength, tlvOffset, tlvCount, flags, bootId, producerId,
           createdCounter }

/-- The record loop of `open` and the checks behind it. -/
def checkRecords (p : Memory) (view : BibView) : BibReading BibError := do
  if view.tlvOffset < bibHeaderSizeV1 ∨ view.tlvOffset > view.totalLength ∨
      ¬ bibLengthIsAligned view.tlvOffset then return .tlvBounds
  else
    match ← scanRecords p view.totalLength view.tlvCount.toNat ⟨view.tlvOffset, 0, 0⟩ with
    | .error error => return error
    | .ok state =>
      if state.offset ≠ view.totalLength then return .tlvBounds
      else if state.serviceCount ≠ 1 ∨ state.memoryCount ≠ 1 then return .requiredRecord
      else return .ok

/-- `none` is a NULL view or a NULL buffer. Returns the error and the view the
caller sees afterwards. -/
def bibReaderOpen (view : Option BibView) (buffer : Option Memory) (windowLength : Nat) :
    BibReading (BibError × Option BibView) :=
  match view, buffer with
  | some view, some p => do
    if windowLength < 64 then return (.window, some view)
    else
      match ← checkHeader p windowLength with
      | .error error => return (error, some .zero)
      | .ok totalLength =>
        let view ← fillView p totalLength
        let error ← checkRecords p view
        if error ≠ .ok then return (error, some .zero) else return (.ok, some view)
  | view, _ => return (.window, view)

/-! ## Records and references of an open view -/

/-- Skip `count` records from `offset` on and decode the next one. -/
def walkRecords (buffer : Memory) (totalLength : BitVec 32) :
    Nat → BitVec 32 → BibReading (Except BibError BibRecordView)
  | 0, offset => recordAtOffset buffer totalLength offset
  | count + 1, offset => do
    match ← recordAtOffset buffer totalLength offset with
    | .error error => return .error error
    | .ok skip =>
      let offset ← add32 offset skip.serializedLength
      walkRecords buffer totalLength count offset

/-- `none` is a NULL view or a NULL record object. -/
def bibReaderRecord (view : Option BibView) (index : BitVec 32) (record : Option BibRecordView) :
    BibReading (BibError × Option BibRecordView) :=
  match view, record with
  | some view, some prior =>
    match view.buffer with
    | none => return (.tlvBounds, some prior)
    | some buffer =>
      if index ≥ view.tlvCount then return (.tlvBounds, some prior)
      else do
        match ← walkRecords buffer view.totalLength index.toNat view.tlvOffset with
        | .error error => return (error, some prior)
        | .ok record => return (.ok, some record)
  | _, record => return (.tlvBounds, record)

/-- The reference of a record of the wanted type. -/
def decodeReference (buffer : Memory) (record : BibRecordView) :
    BibReading (Except BibError BibReferenceView) := do
  if record.payloadLength < bibReferenceFixedSizeV1 then return .error .tlvBounds
  else
    let integrityLength ← readLe32 buffer (record.payload + 36)
    let room ← sub32 record.payloadLength bibReferenceFixedSizeV1
    if integrityLength > room then return .error .referenceIntegrity
    else
      let objectId ← readLe64 buffer record.payload
      let address ← readLe64 buffer (record.payload + 8)
      let length ← readLe64 buffer (record.payload + 16)
      let formatMajor ← readLe32 buffer (record.payload + 24)
      let formatMinor ← readLe32 buffer (record.payload + 28)
      let integrityKind ← readLe32 buffer (record.payload + 32)
      return .ok { objectId, address, length, formatMajor, formatMinor, integrityKind,
                   integrity := record.payload + 40, integrityLength }

/-- The loop of `find_reference`, with the number of iterations still to go. -/
def findReferenceFrom (view : BibView) (type : BitVec 16) :
    Nat → BitVec 32 → BibReading (Except BibError BibReferenceView)
  | 0, _ => return .error .requiredRecord
  | remaining + 1, index => do
    let found ← bibReaderRecord (some view) index (some ⟨0, 0, 0, 0, 0⟩)
    if found.1 ≠ .ok then return .error found.1
    else
      match view.buffer, found.2 with
      | some buffer, some record =>
        if record.type = type then decodeReference buffer record
        else findReferenceFrom view type remaining (index + 1)
      -- a view with a record has a buffer, and the record object is not NULL
      | _, _ => return .error .tlvBounds

/-- `none` is a NULL view or a NULL reference object. -/
def bibReaderFindReference (view : Option BibView) (type : BitVec 16)
    (reference : Option BibReferenceView) : BibReading (BibError × Option BibReferenceView) :=
  match view, reference with
  | some view, some prior => do
    match ← findReferenceFrom view type view.tlvCount.toNat 0 with
    | .error error => return (error, some prior)
    | .ok reference => return (.ok, some reference)
  | _, reference => return (.window, reference)

end Atarix
