import Atarix.Bib.Contents
import Atarix.Foundation.Delimited
import Atarix.Tools.DumpFields

/-! # What a dump tells

The output of the decoder is a text in lines, in which numbers of any length, names
and flags follow one another. It can be read in one way only: two dumps are the same
exactly if the blocks agree in what the decoder is there to show.
-/

namespace Atarix.BibDump

open Delimited

/-! ## What the decoder is there to show -/

/-- A reference, without its integrity bytes. -/
structure ShownReference where
  objectId : BitVec 64
  address : BitVec 64
  length : BitVec 64
  formatMajor : BitVec 32
  formatMinor : BitVec 32
  integrityKind : BitVec 32
  integrityLength : BitVec 32
deriving DecidableEq, Repr

def ShownReference.ofContents (contents : ReferenceContents) : ShownReference where
  objectId := contents.objectId
  address := contents.address
  length := contents.length
  formatMajor := contents.formatMajor
  formatMinor := contents.formatMinor
  integrityKind := contents.integrityKind
  integrityLength := BitVec.ofNat 32 contents.integrity.length

/-- A record, without its payload. What is looked up is looked up by type. -/
@[ext] structure ShownRecord where
  type : BitVec 16
  flags : BitVec 16
  payloadLength : BitVec 32
  lookup : Option (Except BibError ShownReference)
  looked_up : lookup.isSome = isReferenceType type

def ShownRecord.ofRecord (lookup : BitVec 16 → Except BibError ReferenceContents)
    (record : BibRecord) : ShownRecord where
  type := record.type
  flags := record.flags
  payloadLength := BitVec.ofNat 32 record.payload.length
  lookup := if isReferenceType record.type then
    some ((lookup record.type).map ShownReference.ofContents) else none
  looked_up := by cases isReferenceType record.type <;> rfl

/-- The lookup of the record, if there is one, has found a reference. -/
def ShownRecord.usable (record : ShownRecord) : Bool :=
  match record.lookup with
  | some (.error _) => false
  | _ => true

/-- The records up to the first whose lookup fails. -/
def shownRecords (lookup : BitVec 16 → Except BibError ReferenceContents) :
    List BibRecord → List ShownRecord
  | [] => []
  | record :: records =>
    let shown := ShownRecord.ofRecord lookup record
    if shown.usable then shown :: shownRecords lookup records else [shown]

structure ShownBlock where
  totalLength : BitVec 32
  flags : BitVec 16
  bootId : BitVec 64
  producerId : BitVec 64
  createdCounter : BitVec 64
  recordCount : BitVec 32
  records : List ShownRecord

def ShownBlock.ofView (view : BibView) (records : List BibRecord) : ShownBlock where
  totalLength := view.totalLength
  flags := view.flags
  bootId := view.bootId
  producerId := view.producerId
  createdCounter := view.createdCounter
  recordCount := view.tlvCount
  records := shownRecords
    (fun type => (records.find? (·.type = type)).elim (.error .requiredRecord) BibRecord.reference)
    records

/-- What there is to show of a file: its block, or why it is none. -/
def shown (p : Memory) (windowLength : Nat) : Except BibError ShownBlock :=
  readAnswer (ShownBlock.ofView · (imageContents p))
    (bibReaderOpen (some .zero) (some p) windowLength).value

/-! ## How it is written -/

def ShownReference.view (reference : ShownReference) : BibReferenceView where
  objectId := reference.objectId
  address := reference.address
  length := reference.length
  formatMajor := reference.formatMajor
  formatMinor := reference.formatMinor
  integrityKind := reference.integrityKind
  integrity := 0
  integrityLength := reference.integrityLength

namespace ShownRecord

def view (record : ShownRecord) : BibRecordView :=
  ⟨record.type, record.flags, 0, record.payloadLength, 0⟩

/-- The lines behind the three that every record has. -/
def lookupText (index : BitVec 32) (record : ShownRecord) : List (Stream × Char) :=
  match record.lookup with
  | none => (printPayload index record.view).trace
  | some (.error error) =>
    (printError ["reference ".toList, decimal index.toNat, ": ".toList, errorName error]).trace
  | some (.ok reference) => (printReference index reference.view).trace

def text (place : Nat) (record : ShownRecord) : List (Stream × Char) :=
  (printRecord (BitVec.ofNat 32 place) record.view).trace ++
    record.lookupText (BitVec.ofNat 32 place)

end ShownRecord

namespace ShownBlock

def view (block : ShownBlock) : BibView :=
  ⟨none, block.totalLength, 0, block.recordCount, block.flags, block.bootId, block.producerId,
    block.createdCounter⟩

def text (block : ShownBlock) : List (Stream × Char) :=
  (printHeader block.view).trace ++ writeFrom ShownRecord.text 0 block.records

end ShownBlock

def refusalText (error : BibError) : List (Stream × Char) :=
  (printError ["invalid BIB: ".toList, errorName error, " (".toList, decimal error.ctorIdx,
    ")".toList]).trace

def dumpText : Except BibError ShownBlock → List (Stream × Char)
  | .error error => refusalText error
  | .ok block => block.text

def exitCode : Except BibError ShownBlock → Nat
  | .error _ => 2
  | .ok block => if block.records.all ShownRecord.usable then 0 else 2

/-! ## It is what the decoder writes -/

section Written

variable {p : Memory}

theorem printReference_shown (p : Memory) (index : BitVec 32) (reference : BibReferenceView) :
    printReference index (ShownReference.ofContents (reference.contents p)).view =
      printReference index reference := by
  have hlength : BitVec.ofNat 32 (reference.contents p).integrity.length =
      reference.integrityLength := by
    rw [BibReferenceView.contents, Memory.length_slice, BitVec.ofNat_toNat, BitVec.setWidth_eq]
  rw [ShownReference.ofContents, ShownReference.view, hlength]
  rfl

/-- A record is rendered as what is shown of it, and the loop goes on if that is usable. -/
theorem renderRecord_shown {found : BitVec 16 → Except BibError BibReferenceView}
    {lookup : BitVec 16 → Except BibError ReferenceContents}
    (hlookup : ∀ type, (found type).map (·.contents p) = lookup type) (place : Nat)
    (record : BibRecordView) :
    let shown := ShownRecord.ofRecord lookup (decodedRecord p record)
    (renderRecord (found record.type) (BitVec.ofNat 32 place) record).trace = shown.text place ∧
      (renderRecord (found record.type) (BitVec.ofNat 32 place) record).value = shown.usable := by
  intro shown
  have hpayload : shown.payloadLength = record.payloadLength := by
    change BitVec.ofNat 32 (decodedRecord p record).payload.length = _
    rw [length_decodedPayload, BitVec.ofNat_toNat, BitVec.setWidth_eq]
  have hlines : ∀ index, printRecord index shown.view = printRecord index record := by
    intro index
    rw [ShownRecord.view, hpayload]
    rfl
  have hlookups : shown.lookup = if isReferenceType record.type then
      some ((lookup record.type).map ShownReference.ofContents) else none := rfl
  rw [ShownRecord.text, hlines, ShownRecord.lookupText, ShownRecord.usable, hlookups, ← hlookup]
  by_cases htype : isReferenceType record.type
  · rw [if_pos htype]
    cases hfound : found record.type with
    | error error => simp [renderRecord, htype, Except.map]
    | ok reference => simp [renderRecord, htype, Except.map, printReference_shown]
  · simp only [htype, Bool.false_eq_true, if_false, renderRecord, Traced.trace_bind,
      Traced.value_bind, Traced.trace_pure, Traced.value_pure, List.append_nil, and_true]
    rfl

/-- By induction on the records: the loop writes what is shown of them, one after the other. -/
theorem renderRecords_shown {found : BitVec 16 → Except BibError BibReferenceView}
    {lookup : BitVec 16 → Except BibError ReferenceContents}
    (hlookup : ∀ type, (found type).map (·.contents p) = lookup type) (records : List BibRecordView)
    (place : Nat) :
    (renderRecords found (BitVec.ofNat 32 place) records).trace =
        writeFrom ShownRecord.text place (shownRecords lookup (records.map (decodedRecord p))) ∧
      (renderRecords found (BitVec.ofNat 32 place) records).value =
        if (shownRecords lookup (records.map (decodedRecord p))).all ShownRecord.usable then 0
        else 2 := by
  induction records generalizing place with
  | nil => exact ⟨rfl, rfl⟩
  | cons record records ih =>
      obtain ⟨htext, husable⟩ := renderRecord_shown hlookup place record
      have hnext : BitVec.ofNat 32 place + 1 = BitVec.ofNat 32 (place + 1) :=
        (BitVec.ofNat_add place 1).symm
      obtain ⟨hrest, hcode⟩ := ih (place + 1)
      rw [List.map_cons, shownRecords, renderRecords, Traced.trace_bind, Traced.value_bind, htext,
        husable, hnext]
      -- a record whose reference is refused is the last one written
      by_cases hgo : (ShownRecord.ofRecord lookup (decodedRecord p record)).usable
      · rw [if_pos hgo, if_pos hgo, writeFrom, List.all_cons, hgo, Bool.true_and]
        exact ⟨congrArg _ hrest, hcode⟩
      · rw [if_neg hgo, if_neg hgo, List.all_cons, Bool.eq_false_of_not_eq_true hgo]
        exact ⟨rfl, rfl⟩

theorem dumpBib_shown (p : Memory) (windowLength : Nat) :
    (dumpBib (some p) windowLength).trace = dumpText (shown p windowLength) ∧
      (dumpBib (some p) windowLength).value = exitCode (shown p windowLength) := by
  by_cases hopen : (bibReaderOpen (some .zero) (some p) windowLength).value.1 = .ok
  · have hpair :
        (bibReaderOpen (some .zero) (some p) windowLength).value = (.ok, some (viewOf p)) :=
      Prod.ext hopen (bibReaderOpen_view hopen)
    obtain ⟨htext, hcode⟩ := renderRecords_shown
      (fun type => lookupReference_contents p type (imageRecords p)) (imageRecords p) 0
    rw [dumpBib_of_opened hopen, shown, hpair, readAnswer_ok, Traced.trace_bind, Traced.value_bind]
    exact ⟨congrArg _ htext, hcode⟩
  · rw [shown, readAnswer_error _ hopen, dumpBib, if_pos hopen]
    exact ⟨List.append_nil _, rfl⟩

end Written

/-! ## It can be read back -/

section Lines

variable {α β : Type*} {pieces : α → List (List Char)} {view : α → β}

/-- A text that goes to a stream and is closed by a line feed. -/
theorem tells_put (stream : Stream) {text : α → List Char} (hplain : ∀ value, '\n' ∉ text value)
    (hview : ∀ first second, text first = text second → view first = view second) :
    Tells (fun value => (put stream (text value ++ ['\n'])).trace) view := by
  have hinjective : Function.Injective fun char : Char => (stream, char) :=
    Prod.mk_right_injective stream
  have htrace : (fun value => (put stream (text value ++ ['\n'])).trace) = fun value =>
      (text value).map (stream, ·) ++ [(stream, '\n')] := by
    funext value
    exact List.map_append
  rw [htrace]
  refine tells_closed (fun value hmem => ?_) fun first second heq => ?_
  · obtain ⟨char, hchar, hnewline⟩ := List.mem_map.mp hmem
    obtain rfl : char = '\n' := hinjective hnewline
    exact hplain value hchar
  · exact hview first second (List.map_injective_iff.mpr hinjective heq)

theorem newline_not_mem_flatten {lines : List (List Char)}
    (hplain : ∀ piece ∈ lines, '\n' ∉ piece) : '\n' ∉ lines.flatten := by
  intro hmem
  obtain ⟨piece, hpiece, hmember⟩ := List.mem_flatten.mp hmem
  exact hplain piece hpiece hmember

theorem tells_printLine (hplain : ∀ value, ∀ piece ∈ pieces value, '\n' ∉ piece)
    (hview : ∀ first second, (pieces first).flatten = (pieces second).flatten →
      view first = view second) :
    Tells (fun value => (printLine (pieces value)).trace) view :=
  tells_put .stdout (fun value => newline_not_mem_flatten (hplain value)) hview

theorem tells_printError (hplain : ∀ value, ∀ piece ∈ pieces value, '\n' ∉ piece)
    (hview : ∀ first second, (pieces first).flatten = (pieces second).flatten →
      view first = view second) :
    Tells (fun value => (printError (pieces value)).trace) view := by
  refine tells_put .stderr (fun value => ?_) fun first second heq => ?_
  · rw [List.mem_append, not_or]
    exact ⟨by decide, newline_not_mem_flatten (hplain value)⟩
  · exact hview first second (List.append_cancel_left heq)

theorem tells_printField {index : BitVec 32} {name : List Char} (hname : '\n' ∉ name)
    (hplain : ∀ value, ∀ piece ∈ pieces value, '\n' ∉ piece)
    (hview : ∀ first second, (pieces first).flatten = (pieces second).flatten →
      view first = view second) :
    Tells (fun value => (printField index name (pieces value)).trace) view := by
  refine tells_printLine (fun value => ?_) fun first second heq => ?_
  · refine List.forall_mem_append.mpr ⟨?_, hplain value⟩
    simp only [List.forall_mem_cons]
    exact ⟨by decide, newline_not_mem_decimal _, by decide, hname, by decide, List.forall_mem_nil _⟩
  · rw [List.flatten_append, List.flatten_append] at heq
    exact hview first second (List.append_cancel_left heq)

/-- A hexadecimal number has its width, whatever follows in the line. -/
theorem hexadecimal_pieces_inj {width digits : Nat} (hfit : 2 ^ width ≤ 16 ^ digits)
    {opening : List Char} {value other : BitVec width} {rest rest' : List (List Char)}
    (heq : (opening :: hexadecimal digits value.toNat :: rest).flatten =
      (opening :: hexadecimal digits other.toNat :: rest').flatten) : value = other := by
  rw [List.flatten_cons, List.flatten_cons, List.flatten_cons, List.flatten_cons] at heq
  have hline := List.append_cancel_left heq
  have hdigits := (List.append_inj hline (by rw [length_hexadecimal, length_hexadecimal])).1
  exact BitVec.eq_of_toNat_eq (hexadecimal_injective (value.isLt.trans_le hfit)
    (other.isLt.trans_le hfit) hdigits)

/-- A decimal number ends with the line. -/
theorem decimal_pieces_inj {width : Nat} {opening : List Char} {value other : BitVec width}
    (heq : [opening, decimal value.toNat].flatten = [opening, decimal other.toNat].flatten) :
    value = other := by
  rw [List.flatten_cons, List.flatten_cons] at heq
  exact decimal_line_inj (congrArg (fun text => [text]) (List.append_cancel_left heq))

theorem tells_decimal_line {width : Nat} {opening : List Char} (hopening : '\n' ∉ opening)
    (field : α → BitVec width) :
    Tells (fun value => (printLine [opening, decimal (field value).toNat]).trace) field := by
  refine tells_printLine (fun value => ?_) fun first second => decimal_pieces_inj
  simp only [List.forall_mem_cons]
  exact ⟨hopening, newline_not_mem_decimal _, List.forall_mem_nil _⟩

theorem tells_hexadecimal_line {width digits : Nat} (hfit : 2 ^ width ≤ 16 ^ digits)
    {opening : List Char} (hopening : '\n' ∉ opening) (field : α → BitVec width) :
    Tells (fun value => (printLine [opening, hexadecimal digits (field value).toNat]).trace)
      field := by
  refine tells_printLine (fun value => ?_) fun first second => hexadecimal_pieces_inj hfit
  simp only [List.forall_mem_cons]
  exact ⟨hopening, newline_not_mem_hexadecimal _ _, List.forall_mem_nil _⟩

theorem tells_decimal_field {width : Nat} {index : BitVec 32} {name : List Char}
    (hname : '\n' ∉ name) (field : α → BitVec width) :
    Tells (fun value => (printField index name [decimal (field value).toNat]).trace) field := by
  refine tells_printField hname (fun value => ?_) fun first second heq => ?_
  · exact List.forall_mem_singleton.mpr (newline_not_mem_decimal _)
  · exact decimal_line_inj (congrArg (fun text => [text]) heq)

theorem tells_hexadecimal_field {index : BitVec 32} {name : List Char} (hname : '\n' ∉ name)
    (field : α → BitVec 64) :
    Tells (fun value => (printField index name
      ["0x".toList, hexadecimal 16 (field value).toNat]).trace) field := by
  refine tells_printField hname (fun value => ?_) fun first second =>
    hexadecimal_pieces_inj (by decide)
  simp only [List.forall_mem_cons]
  exact ⟨by decide, newline_not_mem_hexadecimal _ _, List.forall_mem_nil _⟩

end Lines

theorem tells_printHeaderFlags {α : Type*} (flags : α → BitVec 16) :
    Tells (fun value => (printHeaderFlags (flags value)).trace) flags := by
  refine tells_printLine (fun value => ?_) fun first second => hexadecimal_pieces_inj (by decide)
  simp only [List.forall_mem_cons]
  exact ⟨by decide, newline_not_mem_hexadecimal _ _, not_mem_ite (by decide) List.not_mem_nil,
    newline_not_mem_flagName (by decide) _ _, newline_not_mem_flagName (by decide) _ _,
    newline_not_mem_flagName (by decide) _ _, newline_not_mem_flagName (by decide) _ _,
    List.forall_mem_nil _⟩

/-- The lines before the records, of which the first two are always the same. -/
theorem tells_printHeader :
    Tells (fun block : ShownBlock => (printHeader block.view).trace) fun block =>
      (block.totalLength, block.flags, block.bootId, block.producerId, block.createdCounter,
        block.recordCount) := by
  refine Tells.behind _ (Tells.behind _ (Tells.append ?_ (Tells.append ?_ (Tells.append ?_
    (Tells.append ?_ (Tells.append ?_ ?_))))))
  case refine_1 => exact tells_decimal_line (by decide) ShownBlock.totalLength
  case refine_2 => exact tells_printHeaderFlags ShownBlock.flags
  case refine_3 => exact tells_hexadecimal_line (by decide) (by decide) ShownBlock.bootId
  case refine_4 => exact tells_hexadecimal_line (by decide) (by decide) ShownBlock.producerId
  case refine_5 => exact tells_decimal_line (by decide) ShownBlock.createdCounter
  case refine_6 => exact tells_decimal_line (by decide) ShownBlock.recordCount

theorem tells_printRecord (index : BitVec 32) :
    Tells (fun record : ShownRecord => (printRecord index record.view).trace) fun record =>
      (record.type, record.flags, record.payloadLength) := by
  refine Tells.append ?_ (Tells.append ?_ ?_)
  case refine_1 =>
    refine tells_printField (by decide) (fun record => ?_) fun first second =>
      hexadecimal_pieces_inj (by decide)
    simp only [List.forall_mem_cons]
    exact ⟨by decide, newline_not_mem_hexadecimal _ _, by decide, newline_not_mem_typeName _,
      List.forall_mem_nil _⟩
  case refine_2 =>
    refine tells_printField (by decide) (fun record => ?_) fun first second =>
      hexadecimal_pieces_inj (by decide)
    simp only [List.forall_mem_cons]
    exact ⟨by decide, newline_not_mem_hexadecimal _ _, newline_not_mem_flagName (by decide) _ _,
      newline_not_mem_flagName (by decide) _ _, List.forall_mem_nil _⟩
  case refine_3 => exact tells_decimal_field (by decide) ShownRecord.payloadLength

theorem tells_printReference (index : BitVec 32) :
    Tells (fun reference : ShownReference => (printReference index reference.view).trace) id := by
  have hlines : Tells (fun reference : ShownReference =>
      (printReference index reference.view).trace) fun reference =>
        (reference.objectId, reference.address, reference.length,
          (reference.formatMajor, reference.formatMinor), reference.integrityKind,
          reference.integrityLength) := by
    refine Tells.append ?_ (Tells.append ?_ (Tells.append ?_ (Tells.append ?_
      (Tells.append ?_ ?_))))
    case refine_1 => exact tells_hexadecimal_field (by decide) ShownReference.objectId
    case refine_2 => exact tells_hexadecimal_field (by decide) ShownReference.address
    case refine_3 => exact tells_decimal_field (by decide) ShownReference.length
    case refine_4 =>
      refine tells_printField (by decide) (fun reference => ?_) fun first second heq => ?_
      · simp only [List.forall_mem_cons]
        exact ⟨newline_not_mem_decimal _, by decide, newline_not_mem_decimal _,
          List.forall_mem_nil _⟩
      · obtain ⟨hmajor, hminor⟩ := format_line_inj (congrArg (fun text => [text]) heq)
        exact Prod.ext hmajor hminor
    case refine_5 => exact tells_decimal_field (by decide) ShownReference.integrityKind
    case refine_6 => exact tells_decimal_field (by decide) ShownReference.integrityLength
  refine hlines.of_view fun first second heq => ?_
  cases first
  cases second
  simp only [Prod.mk.injEq] at heq
  obtain ⟨rfl, rfl, rfl, ⟨rfl, rfl⟩, rfl, rfl⟩ := heq
  rfl

/-! ### Errors -/

/-- The errors in the order of their codes. -/
def bibErrors : List BibError :=
  [.ok, .window, .magic, .version, .headerLength, .totalLength, .crc, .headerReserved, .tlvBounds,
    .tlvReserved, .unknownMandatory, .requiredRecord, .referenceOverflow, .referenceAuthority,
    .referenceIntegrity]

theorem errorName_injective : Function.Injective errorName := by
  have hnames : (bibErrors.map errorName).Nodup := by decide +kernel
  have hall : ∀ error, error ∈ bibErrors := by
    intro error
    cases error <;> decide
  intro first second heq
  exact List.inj_on_of_nodup_map hnames (hall first) (hall second) heq

theorem errorName_plain (error : BibError) : '\n' ∉ errorName error ∧ ' ' ∉ errorName error := by
  cases error <;> decide

theorem tells_lookupError (index : BitVec 32) :
    Tells (fun error => (printError ["reference ".toList, decimal index.toNat, ": ".toList,
      errorName error]).trace) id := by
  refine tells_printError (fun error => ?_) fun first second heq => ?_
  · simp only [List.forall_mem_cons]
    exact ⟨by decide, newline_not_mem_decimal _, by decide, (errorName_plain error).1,
      List.forall_mem_nil _⟩
  · simp only [List.flatten_cons, List.append_cancel_left_eq] at heq
    exact errorName_injective (List.append_cancel_right heq)

theorem tells_refusalText : Tells refusalText id := by
  refine tells_printError (fun error => ?_) fun first second heq => ?_
  · simp only [List.forall_mem_cons]
    exact ⟨by decide, (errorName_plain error).1, by decide, newline_not_mem_decimal _, by decide,
      List.forall_mem_nil _⟩
  · have hnames : errorName first ++ " (".toList ++ (decimal first.ctorIdx ++ ")".toList) =
        errorName second ++ " (".toList ++ (decimal second.ctorIdx ++ ")".toList) := by
      simpa only [List.flatten_cons, List.append_cancel_left_eq, List.flatten_nil,
        List.append_nil, List.append_assoc] using heq
    have hopening : " (".toList = ' ' :: ['('] := rfl
    rw [hopening, List.append_assoc, List.append_assoc, List.cons_append, List.cons_append]
      at hnames
    exact errorName_injective (Text.append_separator_inj (errorName_plain first).2
      (errorName_plain second).2 hnames).1

/-! ### Records and files -/

/-- A refusal starts on the other stream. -/
theorem printError_ne {pieces : List (List Char)} {char : Char}
    {rest rest' output : List (Stream × Char)} (houtput : output.head? = some (.stdout, char)) :
    (printError pieces).trace ++ rest ≠ output ++ rest' := by
  intro heq
  have hhead := congrArg List.head? heq
  rw [List.head?_append, List.head?_append, houtput] at hhead
  simp [printError, put] at hhead

/-- The lookups of two records of one type can be told apart. -/
theorem ShownRecord.lookup_eq {index : BitVec 32} {first second : ShownRecord}
    {rest rest' : List (Stream × Char)} (htype : first.type = second.type)
    (hflags : first.flags = second.flags)
    (heq : first.lookupText index ++ rest = second.lookupText index ++ rest') :
    first.lookup = second.lookup ∧ rest = rest' := by
  have hlooked : first.lookup.isSome = second.lookup.isSome := by
    rw [first.looked_up, second.looked_up, htype]
  have hpayload : printPayload index first.view = printPayload index second.view := by
    rw [printPayload, printPayload, view, view, hflags]
  have hstdout : ∀ reference : ShownReference,
      (printReference index reference.view).trace.head? = some (.stdout, 'r') := fun _ => rfl
  unfold lookupText at heq
  rcases hfirst : first.lookup with _ | ⟨error | reference⟩ <;>
    rcases hsecond : second.lookup with _ | ⟨error' | reference'⟩ <;>
    simp only [hfirst, hsecond, Option.isSome_none, Option.isSome_some, Bool.false_eq_true,
      Bool.true_eq_false] at hlooked heq
  case none.none =>
    rw [hpayload] at heq
    exact ⟨rfl, List.append_cancel_left heq⟩
  case some.error.some.error =>
    obtain ⟨herror, hrest⟩ := tells_lookupError index heq
    exact ⟨congrArg (some ∘ Except.error) herror, hrest⟩
  case some.error.some.ok => exact absurd heq (printError_ne (hstdout reference'))
  case some.ok.some.error => exact absurd heq.symm (printError_ne (hstdout reference))
  case some.ok.some.ok =>
    obtain ⟨hreference, hrest⟩ := tells_printReference index heq
    exact ⟨congrArg (some ∘ Except.ok) hreference, hrest⟩

theorem ShownRecord.tells_text (place : Nat) : Tells (ShownRecord.text place) id := by
  intro first second rest rest' heq
  rw [text, text, List.append_assoc, List.append_assoc] at heq
  obtain ⟨hlines, hrest⟩ := tells_printRecord _ heq
  simp only [Prod.mk.injEq] at hlines
  obtain ⟨htype, hflags, hlength⟩ := hlines
  obtain ⟨hlookup, hend⟩ := lookup_eq htype hflags hrest
  exact ⟨ShownRecord.ext htype hflags hlength hlookup, hend⟩

theorem ShownRecord.text_ne_nil (place : Nat) (record : ShownRecord) : record.text place ≠ [] :=
  List.append_ne_nil_of_left_ne_nil (List.cons_ne_nil _ _) _

theorem ShownBlock.text_injective : Function.Injective ShownBlock.text := by
  intro first second heq
  obtain ⟨hheader, hrest⟩ := tells_printHeader heq
  have hrecords := writeFrom_injective ShownRecord.tells_text ShownRecord.text_ne_nil 0 hrest
  cases first
  cases second
  simp only [Prod.mk.injEq] at hheader hrecords
  obtain ⟨rfl, rfl, rfl, rfl, rfl, rfl⟩ := hheader
  rw [hrecords]

/-- What is written tells what was shown, be it a block or a refusal. -/
theorem dumpText_injective : Function.Injective dumpText := by
  intro first second heq
  have hstdout : ∀ block : ShownBlock, block.text.head? = some (.stdout, 'f') := fun _ => rfl
  rcases first with error | block <;> rcases second with error' | block'
  case error.error => exact congrArg Except.error (tells_refusalText.injective heq)
  case error.ok =>
    exact absurd (congrArg (· ++ []) heq) (printError_ne (hstdout block'))
  case ok.error =>
    exact absurd (congrArg (· ++ []) heq.symm) (printError_ne (hstdout block))
  case ok.ok => exact congrArg Except.ok (ShownBlock.text_injective heq)

/-- Two files are dumped alike exactly if the same is shown of them, and then with the same
exit code: which error refuses the block, or its header, and the type, flags, length and
reference of its records up to the first reference that cannot be looked up. -/
theorem dump_exact (p q : Memory) (windowLength otherLength : Nat) :
    ((dumpBib (some p) windowLength).trace = (dumpBib (some q) otherLength).trace ↔
        shown p windowLength = shown q otherLength) ∧
      ((dumpBib (some p) windowLength).trace = (dumpBib (some q) otherLength).trace →
        dumpBib (some p) windowLength = dumpBib (some q) otherLength) := by
  obtain ⟨htext, hcode⟩ := dumpBib_shown p windowLength
  obtain ⟨htext', hcode'⟩ := dumpBib_shown q otherLength
  have hiff : (dumpBib (some p) windowLength).trace = (dumpBib (some q) otherLength).trace ↔
      shown p windowLength = shown q otherLength := by
    rw [htext, htext', dumpText_injective.eq_iff]
  refine ⟨hiff, fun htrace => Traced.ext ?_ htrace⟩
  rw [hcode, hcode', hiff.mp htrace]

end Atarix.BibDump
