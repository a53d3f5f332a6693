import Atarix.Bib.Records

/-! # The diagnostic decoder

`bibdump.c`. A computation records every character it prints, together with the
stream it goes to.
-/

namespace Atarix.BibDump

inductive Stream where
  | stdout
  | stderr
deriving DecidableEq, Repr

abbrev Printing := Traced (Stream × Char)

/-! ## Conversions -/

/-- `%u`. -/
def decimal (value : Nat) : List Char := Nat.toDigits 10 value

/-- `%0<width>x`, for a value of at most `width` digits. -/
def hexadecimal (width value : Nat) : List Char :=
  (List.range width).map fun place => Nat.digitChar (value / 16 ^ (width - 1 - place) % 16)

theorem hexadecimal_succ (width value : Nat) :
    hexadecimal (width + 1) value =
      hexadecimal width (value / 16) ++ [Nat.digitChar (value % 16)] := by
  rw [hexadecimal, List.range_succ, List.map_append, hexadecimal]
  congr 1
  · apply List.map_congr_left
    intro place hplace
    have hshift : width + 1 - 1 - place = (width - 1 - place) + 1 := by
      have hlt := List.mem_range.mp hplace
      omega
    rw [hshift, Nat.pow_succ', Nat.div_div_eq_div_mul]
  · simp

theorem length_hexadecimal (width value : Nat) : (hexadecimal width value).length = width := by
  simp [hexadecimal]

/-- A printed number can be read back. -/
theorem hexadecimal_injective {width value other : Nat} (hvalue : value < 16 ^ width)
    (hother : other < 16 ^ width) (heq : hexadecimal width value = hexadecimal width other) :
    value = other := by
  induction width generalizing value other with
  | zero =>
      rw [Nat.pow_zero] at hvalue hother
      omega
  | succ width ih =>
      have hdigit : ∀ low high : Fin 16, Nat.digitChar low = Nat.digitChar high → low = high := by
        decide
      -- the last digit is the remainder, the digits before it are the quotient
      rw [hexadecimal_succ, hexadecimal_succ] at heq
      obtain ⟨hrest, hlast⟩ := List.append_inj' heq rfl
      have hhigh := ih (by omega) (by omega) hrest
      have hlow := hdigit ⟨value % 16, Nat.mod_lt _ (by decide)⟩
        ⟨other % 16, Nat.mod_lt _ (by decide)⟩ (List.cons.inj hlast).1
      have hlow' : value % 16 = other % 16 := congrArg Fin.val hlow
      omega

def put (stream : Stream) (text : List Char) : Printing Unit := Traced.emit (text.map (stream, ·))

theorem put_append_inj {stream : Stream} {text other : List Char}
    {rest rest' : List (Stream × Char)}
    (hlength : text.length = other.length)
    (heq : (put stream text).trace ++ rest = (put stream other).trace ++ rest') :
    text = other ∧ rest = rest' := by
  have hmaps : (text.map (stream, ·)).length = (other.map (stream, ·)).length := by
    rw [List.length_map, List.length_map, hlength]
  obtain ⟨htext, hrest⟩ := List.append_inj heq hmaps
  exact ⟨List.map_injective_iff.mpr (Prod.mk_right_injective stream) htext, hrest⟩

/-- One line on standard output, in pieces. -/
def printLine (pieces : List (List Char)) : Printing Unit :=
  put .stdout (pieces.flatten ++ "\n".toList)

/-- One line on standard error, behind the name of the program. -/
def printError (pieces : List (List Char)) : Printing Unit :=
  put .stderr ("atarix-bibdump: ".toList ++ pieces.flatten ++ "\n".toList)

def errorName : BibError → List Char
  | .ok => "ok".toList
  | .window => "invalid-window".toList
  | .magic => "invalid-magic".toList
  | .version => "unsupported-version".toList
  | .headerLength => "invalid-header-length".toList
  | .totalLength => "invalid-total-length".toList
  | .crc => "crc-mismatch".toList
  | .headerReserved => "invalid-header-reserved".toList
  | .tlvBounds => "invalid-tlv-bounds".toList
  | .tlvReserved => "invalid-tlv-reserved".toList
  | .unknownMandatory => "unknown-mandatory-record".toList
  | .requiredRecord => "required-record-error".toList
  | .referenceOverflow => "reference-overflow".toList
  | .referenceAuthority => "reference-authority-error".toList
  | .referenceIntegrity => "reference-integrity-error".toList

def typeName (type : BitVec 16) : List Char :=
  if type = BibTlv.reserved then "reserved".toList
  else if type = BibTlv.serviceDirectoryReference then "service-directory-reference".toList
  else if type = BibTlv.memoryMapReference then "memory-map-reference".toList
  else if type = BibTlv.bootDeviceIdentity then "boot-device-identity".toList
  else if type = BibTlv.bootImageIdentity then "boot-image-identity".toList
  else if type = BibTlv.bootArguments then "boot-arguments".toList
  else if type = BibTlv.consoleServiceIdentity then "console-service-identity".toList
  else if type = BibTlv.supervisorServiceIdentity then "supervisor-service-identity".toList
  else if type = BibTlv.auditLogReference then "audit-log-reference".toList
  else if type = BibTlv.firmwareBuildIdentity then "firmware-build-identity".toList
  else if type = BibTlv.entropySeedReference then "entropy-seed-reference".toList
  else if bibTlvTypeIsExperimental type then "experimental".toList
  else "unknown".toList

def isReferenceType (type : BitVec 16) : Bool :=
  type = BibTlv.serviceDirectoryReference ∨ type = BibTlv.memoryMapReference ∨
    type = BibTlv.auditLogReference ∨ type = BibTlv.entropySeedReference

/-! ## The dump -/

/-- The name of a flag, if it is set. -/
def flagName (flags mask : BitVec 16) (name : List Char) : List Char :=
  if flags &&& mask ≠ 0 then name else []

def printHeaderFlags (flags : BitVec 16) : Printing Unit :=
  printLine ["flags: 0x".toList, hexadecimal 4 flags.toNat,
    if flags = 0 then " none".toList else [],
    flagName flags bibFlagRecoveryBoot " recovery".toList,
    flagName flags bibFlagDegradedBoot " degraded".toList,
    flagName flags bibFlagSecurePolicyActive " secure-policy".toList,
    flagName flags bibFlagDiagnosticBoot " diagnostic".toList]

/-- The lines before the records. -/
def printHeader (view : BibView) : Printing Unit := do
  printLine ["format: ATARIX-BIB".toList]
  printLine ["version: 1.0".toList]
  printLine ["total-length: ".toList, decimal view.totalLength.toNat]
  printHeaderFlags view.flags
  printLine ["boot-id: 0x".toList, hexadecimal 16 view.bootId.toNat]
  printLine ["producer-id: 0x".toList, hexadecimal 16 view.producerId.toNat]
  printLine ["created-counter: ".toList, decimal view.createdCounter.toNat]
  printLine ["record-count: ".toList, decimal view.tlvCount.toNat]

/-- A line `record[index].field: text`. -/
def printField (index : BitVec 32) (field : List Char) (pieces : List (List Char)) :
    Printing Unit :=
  printLine (["record[".toList, decimal index.toNat, "].".toList, field, ": ".toList] ++ pieces)

def printRecord (index : BitVec 32) (record : BibRecordView) : Printing Unit := do
  printField index "type".toList
    ["0x".toList, hexadecimal 4 record.type.toNat, " ".toList, typeName record.type]
  printField index "flags".toList
    ["0x".toList, hexadecimal 4 record.flags.toNat,
      flagName record.flags bibTlvFlagMandatory " mandatory".toList,
      flagName record.flags bibTlvFlagSensitive " sensitive".toList]
  printField index "payload-length".toList [decimal record.payloadLength.toNat]

def printReference (index : BitVec 32) (reference : BibReferenceView) : Printing Unit := do
  printField index "object-id".toList ["0x".toList, hexadecimal 16 reference.objectId.toNat]
  printField index "address".toList ["0x".toList, hexadecimal 16 reference.address.toNat]
  printField index "length".toList [decimal reference.length.toNat]
  printField index "format".toList
    [decimal reference.formatMajor.toNat, ".".toList, decimal reference.formatMinor.toNat]
  printField index "integrity-kind".toList [decimal reference.integrityKind.toNat]
  printField index "integrity-length".toList [decimal reference.integrityLength.toNat]

/-- The payload line of a record that is no reference. -/
def printPayload (index : BitVec 32) (record : BibRecordView) : Printing Unit :=
  printField index "payload".toList
    [if record.flags &&& bibTlvFlagSensitive ≠ 0 then "<redacted>".toList else "<opaque>".toList]

/-- One iteration of the record loop. The value tells whether it goes on; otherwise
the dump returns 2. -/
def dumpRecord (view : BibView) (index : BitVec 32) : Printing Bool :=
  -- the local objects are not NULL, so a successful call has filled them
  let found := (bibReaderRecord (some view) index (some ⟨0, 0, 0, 0, 0⟩)).value
  if found.1 ≠ .ok then do
    printError ["record ".toList, decimal index.toNat, ": ".toList, errorName found.1]
    return false
  else do
    let record := found.2.getD ⟨0, 0, 0, 0, 0⟩
    printRecord index record
    -- the flag counts for the other types only, and the lookup goes by type
    if isReferenceType record.type then
      let looked := (bibReaderFindReference (some view) record.type
        (some ⟨0, 0, 0, 0, 0, 0, 0, 0⟩)).value
      if looked.1 ≠ .ok then
        printError ["reference ".toList, decimal index.toNat, ": ".toList, errorName looked.1]
        return false
      else
        printReference index (looked.2.getD ⟨0, 0, 0, 0, 0, 0, 0, 0⟩)
        return true
    else
      printPayload index record
      return true

/-- The record loop, with the number of iterations still to go. -/
def dumpRecordsFrom (view : BibView) : Nat → BitVec 32 → Printing Nat
  | 0, _ => return 0
  | remaining + 1, index => do
    if ← dumpRecord view index then dumpRecordsFrom view remaining (index + 1) else return 2

/-- `none` is a NULL buffer. The value is the exit code. -/
def dumpBib (buffer : Option Memory) (length : Nat) : Printing Nat :=
  let opened := (bibReaderOpen (some .zero) buffer length).value
  if opened.1 ≠ .ok then do
    printError ["invalid BIB: ".toList, errorName opened.1, " (".toList,
      decimal opened.1.ctorIdx, ")".toList]
    return 2
  else do
    let view := opened.2.getD .zero
    printHeader view
    dumpRecordsFrom view view.tlvCount.toNat 0

/-! ## The dump of an accepted image -/

/-- The outcome of the reference lookup in an accepted image. -/
def imageLookup (p : Memory) (type : BitVec 16) : Except BibError BibReferenceView :=
  lookupReference p type (imageRecords p)

/-- One iteration, given the outcome of the lookup. -/
def renderRecord (found : Except BibError BibReferenceView) (index : BitVec 32)
    (record : BibRecordView) : Printing Bool := do
  printRecord index record
  if isReferenceType record.type then
    match found with
    | .error error =>
      printError ["reference ".toList, decimal index.toNat, ": ".toList, errorName error]
      return false
    | .ok reference =>
      printReference index reference
      return true
  else
    printPayload index record
    return true

/-- The record loop over a list of records. -/
def renderRecords (lookup : BitVec 16 → Except BibError BibReferenceView) :
    BitVec 32 → List BibRecordView → Printing Nat
  | _, [] => return 0
  | index, record :: records => do
    if ← renderRecord (lookup record.type) index record then
      renderRecords lookup (index + 1) records
    else return 2

variable {p : Memory}

/-- The loop goes on behind every record but a reference that cannot be looked up. -/
theorem renderRecord_value_iff {found : Except BibError BibReferenceView} {index : BitVec 32}
    {record : BibRecordView} :
    (renderRecord found index record).value = true ↔
      (isReferenceType record.type → ∃ reference, found = .ok reference) := by
  by_cases htype : isReferenceType record.type
  · cases found with
    | error error => simp [renderRecord, htype]
    | ok reference => simp [renderRecord, htype]
  · simp [renderRecord, htype]

theorem dumpRecord_of_accepted (haccepted : ImageRecordsAccepted p) (index : Nat)
    (hindex : index < (imageRecords p).length) :
    dumpRecord (viewOf p) (BitVec.ofNat 32 index) =
      renderRecord (imageLookup p (imageRecords p)[index].type) (BitVec.ofNat 32 index)
        (imageRecords p)[index] := by
  have hfound := bibReaderRecord_of_accepted haccepted ⟨0, 0, 0, 0, 0⟩ index hindex
  have hlooked := bibReaderFindReference_of_accepted haccepted (imageRecords p)[index].type
    ⟨0, 0, 0, 0, 0, 0, 0, 0⟩
  simp only [dumpRecord, hfound, ne_eq, not_true_eq_false, if_false, Option.getD_some, hlooked,
    renderRecord]
  by_cases htype : isReferenceType (imageRecords p)[index].type
  · simp only [htype, if_true, imageLookup]
    cases hlookup : lookupReference p (imageRecords p)[index].type (imageRecords p) with
    | error error =>
        -- a lookup fails with an error code, never with `ok`
        have herror : error ≠ .ok := by
          rintro rfl
          exact lookupReference_ne_error_ok p _ _ hlookup
        simp only [referenceOutcome, herror, not_false_eq_true, if_true]
    | ok reference =>
        simp only [referenceOutcome, not_true_eq_false, if_false, Option.getD_some]
  · simp only [htype, Bool.false_eq_true, if_false]

theorem dumpRecordsFrom_of_accepted (haccepted : ImageRecordsAccepted p) (remaining index : Nat)
    (hcount : index + remaining = (imageRecords p).length) :
    dumpRecordsFrom (viewOf p) remaining (BitVec.ofNat 32 index) =
      renderRecords (imageLookup p) (BitVec.ofNat 32 index) ((imageRecords p).drop index) := by
  induction remaining generalizing index with
  | zero =>
      rw [List.drop_of_length_le (by omega)]
      rfl
  | succ remaining ih =>
      have hindex : index < (imageRecords p).length := by omega
      have hnext : BitVec.ofNat 32 index + 1 = BitVec.ofNat 32 (index + 1) :=
        (BitVec.ofNat_add index 1).symm
      rw [dumpRecordsFrom, dumpRecord_of_accepted haccepted index hindex, hnext,
        ih (index + 1) (by omega), List.drop_eq_getElem_cons hindex, renderRecords, hnext]

/-- The dump of an opened block renders its records one after the other. -/
theorem dumpBib_of_opened {prior : BibView} {windowLength : Nat}
    (hopen : (bibReaderOpen (some prior) (some p) windowLength).value.1 = .ok) :
    dumpBib (some p) windowLength = (do
      printHeader (viewOf p)
      renderRecords (imageLookup p) 0 (imageRecords p)) := by
  obtain ⟨hwindow, hheader, haccepted⟩ :=
    (bibReaderOpen_ok_iff_imageRecords prior p windowLength).mp hopen
  have hopen' := (bibReaderOpen_ok_iff_imageRecords .zero p windowLength).mpr
    ⟨hwindow, hheader, haccepted⟩
  have hlength : (imageRecords p).length = (p.load32 52).toNat := length_recordViewsFrom _ _
  have hloop := dumpRecordsFrom_of_accepted haccepted (p.load32 52).toNat 0
    (by rw [hlength, Nat.zero_add])
  rw [List.drop_zero] at hloop
  have hcount : (viewOf p).tlvCount = p.load32 52 := rfl
  simp only [dumpBib, hopen', bibReaderOpen_view hopen', ne_eq, not_true_eq_false, if_false,
    Option.getD_some, hcount]
  exact congrArg (printHeader (viewOf p) >>= fun _ => ·) hloop

end Atarix.BibDump
