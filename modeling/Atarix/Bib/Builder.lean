import Atarix.Bib.Format

/-! # Building boot information blocks

`bib_builder.c`. A builder carries the contents of the buffer it points to.
-/

namespace Atarix

open Memory

/-- `atarix_bib_builder_result_t`. -/
inductive BibBuilderResult where
  | ok
  | argument
  | capacity
  | state
  | flags
  | length
deriving DecidableEq, Repr

/-- `atarix_bib_builder_t`. -/
structure BibBuilder where
  buffer : Option Memory
  capacity : Nat
  length : BitVec 32
  tlvCount : BitVec 32
  sealed : Bool

def crc32c (data : Memory) (length : Nat) : BitVec 32 :=
  Crc.update crc32cBitStep 0xFFFFFFFF data length ^^^ 0xFFFFFFFF

/-- `none` where rounding up would wrap. -/
def align8U32 (value : BitVec 32) : Option (BitVec 32) :=
  if value > 0xFFFFFFFF - 7 then none else some ((value + 7) &&& ~~~ 7#32)

/-- The stores of `init`, on top of the cleared buffer. -/
def writeHeader (p : Memory) (headerFlags : BitVec 16)
    (bootId producerId createdCounter : BitVec 64) : Memory :=
  let p := p.write 0 bibMagic
  let p := p.write 8 (le16 bibVersionMajorV1)
  let p := p.write 10 (le16 bibVersionMinorV0)
  let p := p.write 12 (le16 (bibHeaderSizeV1.setWidth 16))
  let p := p.write 14 (le16 headerFlags)
  let p := p.write 24 (le64 bootId)
  let p := p.write 32 (le64 producerId)
  let p := p.write 40 (le64 createdCounter)
  p.write 48 (le32 bibHeaderSizeV1)

/-- `none` is a NULL builder or a NULL buffer. Returns the result and the builder
the caller sees afterwards. -/
def bibBuilderInit (builder : Option BibBuilder) (buffer : Option Memory) (capacity : Nat)
    (headerFlags : BitVec 16) (bootId producerId createdCounter : BitVec 64) :
    BibBuilderResult × Option BibBuilder :=
  match builder, buffer with
  | some builder, some p =>
    if capacity < bibHeaderSizeV1.toNat ∨ capacity > 0xFFFFFFFF then (.argument, some builder)
    else if ¬ bibHeaderFlagsAreKnown headerFlags then (.flags, some builder)
    else
      let p := writeHeader (p.zeroRange 0 capacity) headerFlags bootId producerId createdCounter
      (.ok, some { buffer := some p, capacity, length := bibHeaderSizeV1, tlvCount := 0,
                   sealed := false })
  | builder, _ => (.argument, builder)

/-- The stores of `add_tlv`: the cleared record, its header and its payload. -/
def writeRecord (p : Memory) (record : Nat) (type flags : BitVec 16)
    (recordLength payloadLength : BitVec 32) (payload : Memory) : Memory :=
  let p := p.zeroRange record recordLength.toNat
  let p := p.write (record + 0) (le16 type)
  let p := p.write (record + 2) (le16 flags)
  let p := p.write (record + 4) (le32 recordLength)
  let p := p.write (record + 8) (le32 payloadLength)
  if payloadLength ≠ 0 then p.write (record + 16) (payload.slice 0 payloadLength.toNat) else p

/-- The payload is the contents behind the caller's pointer, `none` for NULL. -/
def bibBuilderAddTlv (builder : Option BibBuilder) (type flags : BitVec 16)
    (payload : Option Memory) (payloadLength : BitVec 32) :
    BibBuilderResult × Option BibBuilder :=
  match builder with
  | none => (.argument, none)
  | some builder =>
    match builder.buffer with
    | none => (.argument, some builder)
    | some p =>
      if payloadLength ≠ 0 ∧ payload.isNone then (.argument, some builder)
      else if builder.sealed then (.state, some builder)
      else if ¬ bibTlvFlagsAreKnown flags then (.flags, some builder)
      else if payloadLength > 0xFFFFFFFF - bibTlvHeaderSizeV1 then (.length, some builder)
      else
        match align8U32 (bibTlvHeaderSizeV1 + payloadLength) with
        | none => (.length, some builder)
        | some recordLength =>
          if builder.length.toNat > builder.capacity ∨
              recordLength.toNat > builder.capacity - builder.length.toNat then
            (.capacity, some builder)
          else
            -- a NULL payload comes with length zero here and is not dereferenced
            let payload := payload.getD fun _ => 0
            let p :=
              writeRecord p builder.length.toNat type flags recordLength payloadLength payload
            (.ok, some { builder with
              buffer := some p
              length := builder.length + recordLength
              tlvCount := builder.tlvCount + 1 })

/-- The local payload of `add_reference`. -/
def referencePayload (objectId address length : BitVec 64) (formatMajor formatMinor : BitVec 32) :
    Memory :=
  let payload : Memory := ofList (List.replicate bibReferenceFixedSizeV1.toNat 0)
  let payload := payload.write 0 (le64 objectId)
  let payload := payload.write 8 (le64 address)
  let payload := payload.write 16 (le64 length)
  let payload := payload.write 24 (le32 formatMajor)
  payload.write 28 (le32 formatMinor)

def bibBuilderAddReference (builder : Option BibBuilder) (type flags : BitVec 16)
    (objectId address length : BitVec 64) (formatMajor formatMinor : BitVec 32) :
    BibBuilderResult × Option BibBuilder :=
  bibBuilderAddTlv builder type flags
    (some (referencePayload objectId address length formatMajor formatMinor))
    bibReferenceFixedSizeV1

/-- The stores of `seal`, the checksum last. -/
def writeSeal (p : Memory) (length tlvCount : BitVec 32) : Memory :=
  let p := p.write 16 (le32 length)
  let p := p.write 20 (le32 0)
  let p := p.write 52 (le32 tlvCount)
  p.write 20 (le32 (crc32c p length.toNat))

/-- `none` is a NULL builder or a NULL length pointer. Returns the result, the
builder and the caller's length. -/
def bibBuilderSeal (builder : Option BibBuilder) (serializedLength : Option (BitVec 32)) :
    BibBuilderResult × Option BibBuilder × Option (BitVec 32) :=
  match builder with
  | none => (.argument, none, serializedLength)
  | some builder =>
    match builder.buffer with
    | none => (.argument, some builder, serializedLength)
    | some p =>
      if builder.sealed then (.state, some builder, serializedLength)
      else
        (.ok,
          some { builder with
            buffer := some (writeSeal p builder.length builder.tlvCount)
            sealed := true },
          serializedLength.map fun _ => builder.length)

end Atarix
