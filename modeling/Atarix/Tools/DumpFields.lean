import Atarix.Bib.References
import Atarix.Foundation.Lines
import Atarix.Tools.BibDump

/-! # What the decoder shows of a reference

The lines of a reference carry the number of its record, but their values come from
a lookup by type, which ends at the first record of the type. So the lines describe
the record itself exactly if its fixed part is the one of that first record.
-/

namespace Atarix.BibDump

open Memory Text

/-! ## Reading the output back -/

def standardOutput (output : List (Stream × Char)) : List Char :=
  output.filterMap fun event => if event.1 = .stdout then some event.2 else none

/-- How the lines about a field of a record start. -/
def fieldLabel (index : Nat) (field : List Char) : List Char :=
  "record[".toList ++ decimal index ++ "].".toList ++ field ++ ": ".toList

/-- The texts that the output shows for a field of a record. -/
def shownField (output : List (Stream × Char)) (index : Nat) (field : List Char) :
    List (List Char) :=
  behind (fieldLabel index field) (toLines (standardOutput output))

/-- The names and texts of the lines of a reference. -/
def referenceLines (reference : BibReferenceView) : List (List Char × List (List Char)) :=
  [("object-id".toList, ["0x".toList, hexadecimal 16 reference.objectId.toNat]),
    ("address".toList, ["0x".toList, hexadecimal 16 reference.address.toNat]),
    ("length".toList, [decimal reference.length.toNat]),
    ("format".toList,
      [decimal reference.formatMajor.toNat, ".".toList, decimal reference.formatMinor.toNat]),
    ("integrity-kind".toList, [decimal reference.integrityKind.toNat]),
    ("integrity-length".toList, [decimal reference.integrityLength.toNat])]

/-- The output has one line for each field of the reference, with the value there. -/
def ShowsReference (output : List (Stream × Char)) (index : Nat)
    (reference : BibReferenceView) : Prop :=
  ∀ line ∈ referenceLines reference, shownField output index line.1 = [line.2.flatten]

/-- The dump shows the reference that is encoded in the record's own payload. -/
def ShowsOwnReference (p : Memory) (windowLength index : Nat) (record : BibRecordView) : Prop :=
  40 ≤ record.payloadLength.toNat ∧
    ShowsReference (dumpBib (some p) windowLength).trace index (referenceViewAt p record.payload)

/-- The record's payload starts with the fixed part of the first record of its type. -/
def RepeatsFirst (p : Memory) (record : BibRecordView) : Prop :=
  40 ≤ record.payloadLength.toNat ∧
    ∀ first, (imageRecords p).find? (·.type = record.type) = some first →
      ∀ step < 40, p (record.payload + step) = p (first.payload + step)

/-! ## The characters of the conversions -/

theorem decimal_injective {value other : Nat} (heq : decimal value = decimal other) :
    value = other := by
  have hread := congrArg (fun digits => Nat.ofDigitChars 10 digits 0) heq
  simpa only [decimal, Nat.ofDigitChars_ten_toDigits] using hread

theorem not_mem_decimal {char : Char} (hchar : ¬ char.isDigit) (value : Nat) :
    char ∉ decimal value := fun hmem =>
  hchar (Nat.isDigit_of_mem_toDigits (by decide) (by decide) hmem)

theorem newline_not_mem_hexadecimal (width value : Nat) : '\n' ∉ hexadecimal width value := by
  have hdigit : ∀ digit : Fin 16, Nat.digitChar digit ≠ '\n' := by decide
  intro hmem
  obtain ⟨place, -, hplace⟩ := List.mem_map.mp hmem
  exact hdigit ⟨_, Nat.mod_lt _ (by decide)⟩ hplace

theorem newline_not_mem_decimal (value : Nat) : '\n' ∉ decimal value :=
  not_mem_decimal (by decide) value

theorem not_mem_ite {char : Char} {condition : Prop} [Decidable condition] {yes no : List Char}
    (hyes : char ∉ yes) (hno : char ∉ no) : char ∉ if condition then yes else no := by
  split_ifs
  · exact hyes
  · exact hno

theorem newline_not_mem_typeName (type : BitVec 16) : '\n' ∉ typeName type := by
  unfold typeName
  repeat' apply not_mem_ite
  all_goals decide

theorem newline_not_mem_flagName {name : List Char} (hname : '\n' ∉ name)
    (flags mask : BitVec 16) : '\n' ∉ flagName flags mask name :=
  not_mem_ite hname List.not_mem_nil

theorem fieldLabel_append (index : Nat) (field text : List Char) :
    fieldLabel index field ++ text =
      "record[".toList ++ (decimal index ++ ']' :: '.' :: (field ++ ':' :: ' ' :: text)) := by
  change "record[".toList ++ decimal index ++ "].".toList ++ field ++ ": ".toList ++ text = _
  simp only [List.append_assoc]
  rfl

/-- A label names its record and its field. -/
theorem fieldLabel_append_inj {index other : Nat} {field field' text text' : List Char}
    (hfield : ':' ∉ field) (hfield' : ':' ∉ field')
    (heq : fieldLabel index field ++ text = fieldLabel other field' ++ text') :
    index = other ∧ field = field' ∧ text = text' := by
  rw [fieldLabel_append, fieldLabel_append] at heq
  obtain ⟨hindex, hrest⟩ := append_separator_inj (not_mem_decimal (by decide) index)
    (not_mem_decimal (by decide) other) (List.append_cancel_left heq)
  obtain ⟨hname, htext⟩ := append_separator_inj hfield hfield' (List.cons.inj hrest).2
  exact ⟨decimal_injective hindex, hname, (List.cons.inj htext).2⟩

/-! ## What a print statement shows -/

/-- The program closes its lines on standard output, and shows these texts for the field. -/
def Shows {α : Type} (index : Nat) (field : List Char) (program : Printing α)
    (texts : List (List Char)) : Prop :=
  ∃ lines, standardOutput program.trace = ofLines lines ∧ (∀ line ∈ lines, '\n' ∉ line) ∧
    behind (fieldLabel index field) lines = texts

theorem standardOutput_append (output output' : List (Stream × Char)) :
    standardOutput (output ++ output') = standardOutput output ++ standardOutput output' :=
  List.filterMap_append

theorem standardOutput_stdout (text : List Char) :
    standardOutput (text.map (Stream.stdout, ·)) = text := by
  induction text with
  | nil => rfl
  | cons char text ih => exact congrArg (char :: ·) ih

theorem standardOutput_stderr (text : List Char) :
    standardOutput (text.map (Stream.stderr, ·)) = [] := by
  induction text with
  | nil => rfl
  | cons char text ih => exact ih

section Shows

variable {α β : Type} {index : Nat} {field : List Char}

theorem Shows.shownField_eq {program : Printing α} {texts : List (List Char)}
    (hshows : Shows index field program texts) : shownField program.trace index field = texts := by
  obtain ⟨lines, houtput, hplain, htexts⟩ := hshows
  rw [shownField, houtput, toLines_ofLines hplain, htexts]

theorem shows_pure (value : α) : Shows index field (pure value : Printing α) [] :=
  ⟨[], rfl, List.forall_mem_nil _, rfl⟩

theorem Shows.bind {program : Printing α} {next : α → Printing β} {texts texts' : List (List Char)}
    (hprogram : Shows index field program texts)
    (hnext : Shows index field (next program.value) texts') :
    Shows index field (program >>= next) (texts ++ texts') := by
  obtain ⟨lines, houtput, hplain, rfl⟩ := hprogram
  obtain ⟨lines', houtput', hplain', rfl⟩ := hnext
  refine ⟨lines ++ lines', ?_, List.forall_mem_append.mpr ⟨hplain, hplain'⟩, behind_append⟩
  rw [Traced.trace_bind, standardOutput_append, houtput, houtput', ofLines_append]

/-- A program that shows nothing of the field can be passed over. -/
theorem Shows.skip {program : Printing α} {next : α → Printing β} {texts : List (List Char)}
    (hprogram : Shows index field program [])
    (hnext : Shows index field (next program.value) texts) :
    Shows index field (program >>= next) texts := hprogram.bind hnext

theorem shows_printError (pieces : List (List Char)) :
    Shows index field (printError pieces) [] :=
  ⟨[], standardOutput_stderr _, List.forall_mem_nil _, rfl⟩

theorem shows_printLine {pieces : List (List Char)} (hplain : ∀ piece ∈ pieces, '\n' ∉ piece) :
    Shows index field (printLine pieces) (behind (fieldLabel index field) [pieces.flatten]) := by
  refine ⟨[pieces.flatten], ?_, List.forall_mem_singleton.mpr ?_, rfl⟩
  · rw [printLine, put, Traced.trace_emit, standardOutput_stdout]
    exact (List.append_nil _).symm
  · rintro hmem
    obtain ⟨piece, hpiece, hchar⟩ := List.mem_flatten.mp hmem
    exact hplain piece hpiece hchar

/-- A line with another opening is no line about a record. -/
theorem shows_printLine_of_opening {opening : List Char} {pieces : List (List Char)}
    (hlength : 7 ≤ opening.length) (hopening : opening.take 7 ≠ "record[".toList)
    (hplain : ∀ piece ∈ opening :: pieces, '\n' ∉ piece) :
    Shows index field (printLine (opening :: pieces)) [] := by
  have hnone : behind (fieldLabel index field) [(opening :: pieces).flatten] = [] := by
    apply behind_of_not_prefix
    intro text heq
    have htake := congrArg (List.take 7) heq
    rw [List.flatten_cons, List.take_append_of_le_length hlength, fieldLabel_append] at htake
    exact hopening htake
  exact hnone ▸ shows_printLine hplain

theorem shows_printField {other : BitVec 32} {name : List Char} {pieces : List (List Char)}
    (hfield : ':' ∉ field) (hname : ':' ∉ name) (hplain : ∀ piece ∈ name :: pieces, '\n' ∉ piece) :
    Shows index field (printField other name pieces)
      (if index = other.toNat ∧ field = name then [pieces.flatten] else []) := by
  have hflatten : (["record[".toList, decimal other.toNat, "].".toList, name, ": ".toList] ++
      pieces).flatten = fieldLabel other.toNat name ++ pieces.flatten := by
    rw [fieldLabel_append]
    rfl
  have hlines : ∀ piece ∈ ["record[".toList, decimal other.toNat, "].".toList, name,
      ": ".toList] ++ pieces, '\n' ∉ piece := by
    obtain ⟨hplainName, hpieces⟩ := List.forall_mem_cons.mp hplain
    refine List.forall_mem_append.mpr ⟨?_, hpieces⟩
    simp only [List.forall_mem_cons]
    exact ⟨by decide, newline_not_mem_decimal _, by decide, hplainName, by decide,
      List.forall_mem_nil _⟩
  have hshown : behind (fieldLabel index field) [fieldLabel other.toNat name ++ pieces.flatten] =
      if index = other.toNat ∧ field = name then [pieces.flatten] else [] := by
    split_ifs with hlabel
    · rw [hlabel.1, hlabel.2]
      exact behind_of_prefix _
    · apply behind_of_not_prefix
      intro text heq
      obtain ⟨hindex, hfields, -⟩ := fieldLabel_append_inj hname hfield heq
      exact hlabel ⟨hindex.symm, hfields.symm⟩
  have hshows := @shows_printLine index field _ hlines
  rw [hflatten, hshown] at hshows
  exact hshows

theorem shows_printHeaderFlags (flags : BitVec 16) :
    Shows index field (printHeaderFlags flags) [] := by
  refine shows_printLine_of_opening (by decide) (by decide) ?_
  simp only [List.forall_mem_cons]
  exact ⟨by decide, newline_not_mem_hexadecimal _ _, not_mem_ite (by decide) List.not_mem_nil,
    newline_not_mem_flagName (by decide) _ _, newline_not_mem_flagName (by decide) _ _,
    newline_not_mem_flagName (by decide) _ _, newline_not_mem_flagName (by decide) _ _,
    List.forall_mem_nil _⟩

/-- A line of a name and a number. -/
theorem shows_printLine_number {opening number : List Char} (hlength : 7 ≤ opening.length)
    (hopening : opening.take 7 ≠ "record[".toList) (hplain : '\n' ∉ opening)
    (hnumber : '\n' ∉ number) : Shows index field (printLine [opening, number]) [] := by
  refine shows_printLine_of_opening hlength hopening ?_
  simp only [List.forall_mem_cons]
  exact ⟨hplain, hnumber, List.forall_mem_nil _⟩

theorem shows_printHeader (view : BibView) : Shows index field (printHeader view) [] := by
  have hformat : Shows index field (printLine ["format: ATARIX-BIB".toList]) [] :=
    shows_printLine_of_opening (by decide) (by decide) (List.forall_mem_singleton.mpr (by decide))
  have hversion : Shows index field (printLine ["version: 1.0".toList]) [] :=
    shows_printLine_of_opening (by decide) (by decide) (List.forall_mem_singleton.mpr (by decide))
  have hdecimal := newline_not_mem_decimal
  have hhexadecimal := newline_not_mem_hexadecimal
  refine hformat.skip (hversion.skip (Shows.skip ?_ (Shows.skip ?_ (Shows.skip ?_ (Shows.skip ?_
    (Shows.skip ?_ ?_))))))
  case refine_1 => exact shows_printLine_number (by decide) (by decide) (by decide) (hdecimal _)
  case refine_2 => exact shows_printHeaderFlags _
  case refine_3 =>
      exact shows_printLine_number (by decide) (by decide) (by decide) (hhexadecimal _ _)
  case refine_4 =>
      exact shows_printLine_number (by decide) (by decide) (by decide) (hhexadecimal _ _)
  case refine_5 => exact shows_printLine_number (by decide) (by decide) (by decide) (hdecimal _)
  case refine_6 => exact shows_printLine_number (by decide) (by decide) (by decide) (hdecimal _)

/-! ## What the record loop shows -/

section Record

variable {other : BitVec 32} {name : List Char} {pieces : List (List Char)}
  {record : BibRecordView} {reference : BibReferenceView}

theorem shows_printField_nil (hfield : ':' ∉ field) (hname : ':' ∉ name)
    (hplain : ∀ piece ∈ name :: pieces, '\n' ∉ piece)
    (hother : index = other.toNat → field ≠ name) :
    Shows index field (printField other name pieces) [] := by
  have hlabel : ¬ (index = other.toNat ∧ field = name) := fun hlabel => hother hlabel.1 hlabel.2
  have hshows := @shows_printField index field other _ _ hfield hname hplain
  rwa [if_neg hlabel] at hshows

theorem shows_printRecord (hfield : ':' ∉ field) (hother : index = other.toNat →
      field ≠ "type".toList ∧ field ≠ "flags".toList ∧ field ≠ "payload-length".toList) :
    Shows index field (printRecord other record) [] := by
  refine Shows.skip ?_ (Shows.skip ?_ ?_)
  case refine_1 =>
    refine shows_printField_nil hfield (by decide) ?_ fun hindex => (hother hindex).1
    simp only [List.forall_mem_cons]
    exact ⟨by decide, by decide, newline_not_mem_hexadecimal _ _, by decide,
      newline_not_mem_typeName _, List.forall_mem_nil _⟩
  case refine_2 =>
    refine shows_printField_nil hfield (by decide) ?_ fun hindex => (hother hindex).2.1
    simp only [List.forall_mem_cons]
    exact ⟨by decide, by decide, newline_not_mem_hexadecimal _ _,
      newline_not_mem_flagName (by decide) _ _, newline_not_mem_flagName (by decide) _ _,
      List.forall_mem_nil _⟩
  case refine_3 =>
    refine shows_printField_nil hfield (by decide) ?_ fun hindex => (hother hindex).2.2
    simp only [List.forall_mem_cons]
    exact ⟨by decide, newline_not_mem_decimal _, List.forall_mem_nil _⟩

theorem shows_printPayload (hfield : ':' ∉ field)
    (hother : index = other.toNat → field ≠ "payload".toList) :
    Shows index field (printPayload other record) [] := by
  refine shows_printField_nil hfield (by decide) ?_ hother
  simp only [List.forall_mem_cons]
  exact ⟨by decide, not_mem_ite (by decide) (by decide), List.forall_mem_nil _⟩

theorem printReference_eq : printReference other reference =
    (referenceLines reference).forM fun line => printField other line.1 line.2 := by
  have hlast : ∀ program : Printing Unit, program = program >>= fun _ => pure ⟨⟩ := fun program =>
    Traced.ext rfl (List.append_nil _).symm
  exact Traced.bind_congr (Traced.bind_congr (Traced.bind_congr (Traced.bind_congr
    (Traced.bind_congr (hlast _)))))

/-- A line shows for its own label. -/
theorem shows_forM_printField (hfield : ':' ∉ field) {lines : List (List Char × List (List Char))}
    (hlines : ∀ line ∈ lines, ':' ∉ line.1 ∧ ∀ piece ∈ line.1 :: line.2, '\n' ∉ piece) :
    Shows index field (lines.forM fun line => printField other line.1 line.2)
      ((lines.filter fun line => index = other.toNat ∧ field = line.1).map (·.2.flatten)) := by
  induction lines with
  | nil => exact shows_pure _
  | cons line lines ih =>
      obtain ⟨⟨hname, hplain⟩, hrest⟩ := List.forall_mem_cons.mp hlines
      have hhead := @shows_printField index field other _ _ hfield hname hplain
      change Shows index field (printField other line.1 line.2 >>= fun _ =>
        lines.forM fun line => printField other line.1 line.2) _
      by_cases hlabel : index = other.toNat ∧ field = line.1
      · rw [if_pos hlabel] at hhead
        rw [List.filter_cons_of_pos]
        · exact hhead.bind (ih hrest)
        · exact decide_eq_true hlabel
      · rw [if_neg hlabel] at hhead
        rw [List.filter_cons_of_neg]
        · exact hhead.skip (ih hrest)
        · exact mt of_decide_eq_true hlabel

theorem shows_printReference (hfield : ':' ∉ field) :
    Shows index field (printReference other reference)
      (((referenceLines reference).filter fun line => index = other.toNat ∧ field = line.1).map
        (·.2.flatten)) := by
  have hdecimal := newline_not_mem_decimal
  have hhexadecimal := newline_not_mem_hexadecimal
  rw [printReference_eq]
  apply shows_forM_printField hfield
  simp only [referenceLines, List.forall_mem_cons]
  exact ⟨⟨by decide, by decide, by decide, hhexadecimal _ _, List.forall_mem_nil _⟩,
    ⟨by decide, by decide, by decide, hhexadecimal _ _, List.forall_mem_nil _⟩,
    ⟨by decide, by decide, hdecimal _, List.forall_mem_nil _⟩,
    ⟨by decide, by decide, hdecimal _, by decide, hdecimal _, List.forall_mem_nil _⟩,
    ⟨by decide, by decide, hdecimal _, List.forall_mem_nil _⟩,
    ⟨by decide, by decide, hdecimal _, List.forall_mem_nil _⟩, List.forall_mem_nil _⟩

/-- The lines of another record show nothing. -/
theorem shows_renderRecord_other (hfield : ':' ∉ field) (hother : index ≠ other.toNat)
    (found : Except BibError BibReferenceView) :
    Shows index field (renderRecord found other record) [] := by
  refine Shows.skip (shows_printRecord hfield fun hindex => absurd hindex hother) ?_
  split_ifs with htype
  · cases found with
    | error error => exact Shows.skip (shows_printError _) (shows_pure _)
    | ok reference =>
        have hnone : ((referenceLines reference).filter fun line =>
            index = other.toNat ∧ field = line.1).map (·.2.flatten) = [] := by
          simp only [hother, false_and, decide_false, List.filter_false, List.map_nil]
        exact Shows.skip (hnone ▸ shows_printReference hfield) (shows_pure _)
  · exact Shows.skip (shows_printPayload hfield fun hindex => absurd hindex hother) (shows_pure _)

/-- The fields of a reference have names of their own. -/
theorem referenceLines_name {line : List Char × List (List Char)}
    (hline : line ∈ referenceLines reference) :
    ':' ∉ line.1 ∧ line.1 ≠ "type".toList ∧ line.1 ≠ "flags".toList ∧
      line.1 ≠ "payload-length".toList := by
  have hname : ∀ name ∈ (referenceLines reference).map (·.1), ':' ∉ name ∧ name ≠ "type".toList ∧
      name ≠ "flags".toList ∧ name ≠ "payload-length".toList := by
    simp only [referenceLines, List.map_cons, List.map_nil]
    decide
  exact hname line.1 (List.mem_map_of_mem hline)

theorem filter_referenceLines {line : List Char × List (List Char)}
    (hline : line ∈ referenceLines reference) :
    (referenceLines reference).filter (fun other => line.1 = other.1) = [line] := by
  revert hline line
  simp only [referenceLines, List.forall_mem_cons]
  exact ⟨rfl, rfl, rfl, rfl, rfl, rfl, List.forall_mem_nil _⟩

/-- The lines of the record itself show the reference that was looked up. -/
theorem shows_renderRecord_self {line : List Char × List (List Char)}
    (hline : line ∈ referenceLines reference) (htype : isReferenceType record.type) :
    Shows other.toNat line.1 (renderRecord (.ok reference) other record) [line.2.flatten] := by
  obtain ⟨hname, hnames⟩ := referenceLines_name hline
  have hshows := @shows_printReference other.toNat line.1 other reference hname
  simp only [true_and] at hshows
  rw [filter_referenceLines hline] at hshows
  refine Shows.skip (shows_printRecord hname fun _ => hnames) ?_
  rw [if_pos htype]
  exact Shows.bind hshows (shows_pure true)

theorem shows_renderRecords_earlier {lookup : BitVec 16 → Except BibError BibReferenceView}
    (hfield : ':' ∉ field) (records : List BibRecordView) (first : Nat) (hindex : index < first)
    (hlast : first + records.length ≤ 2 ^ 32) :
    Shows index field (renderRecords lookup (BitVec.ofNat 32 first) records) [] := by
  induction records generalizing first with
  | nil => exact shows_pure _
  | cons record records ih =>
      rw [List.length_cons] at hlast
      have hfirst : (BitVec.ofNat 32 first).toNat = first :=
        Nat.mod_eq_of_lt (by omega)
      have hnext : BitVec.ofNat 32 first + 1 = BitVec.ofNat 32 (first + 1) :=
        (BitVec.ofNat_add first 1).symm
      refine Shows.skip (shows_renderRecord_other hfield (by omega) _) ?_
      split_ifs
      · rw [hnext]
        exact ih (first + 1) (by omega) (by omega)
      · exact shows_pure _

theorem renderRecords_lookup {lookup : BitVec 16 → Except BibError BibReferenceView}
    {records : List BibRecordView} {start : BitVec 32}
    (hzero : (renderRecords lookup start records).value = 0) :
    ∀ record ∈ records, isReferenceType record.type →
      ∃ reference, lookup record.type = .ok reference := by
  induction records generalizing start with
  | nil => exact List.forall_mem_nil _
  | cons record records ih =>
      rw [renderRecords, Traced.value_bind] at hzero
      -- the other exit returns 2
      split_ifs at hzero with hgo
      exact List.forall_mem_cons.mpr ⟨renderRecord_value_iff.mp hgo, ih hzero⟩

/-- Behind records that were rendered, a record shows what it shows by itself. -/
theorem shows_renderRecords {lookup : BitVec 16 → Except BibError BibReferenceView}
    {texts : List (List Char)} (hfield : ':' ∉ field) (before after : List BibRecordView)
    (first : Nat) (hlast : first + (before ++ record :: after).length ≤ 2 ^ 32)
    (hlookup : ∀ earlier ∈ before ++ record :: after, isReferenceType earlier.type →
      ∃ reference, lookup earlier.type = .ok reference)
    (hself : Shows (first + before.length) field (renderRecord (lookup record.type)
      (BitVec.ofNat 32 (first + before.length)) record) texts) :
    Shows (first + before.length) field
      (renderRecords lookup (BitVec.ofNat 32 first) (before ++ record :: after)) texts := by
  have hnext : BitVec.ofNat 32 first + 1 = BitVec.ofNat 32 (first + 1) :=
    (BitVec.ofNat_add first 1).symm
  induction before generalizing first with
  | nil =>
      rw [List.nil_append, List.length_cons] at hlast
      have hgo := fun next : BitVec 32 => (@renderRecord_value_iff _ next record).mpr
        (hlookup record List.mem_cons_self)
      have hrest :
          Shows first field (renderRecords lookup (BitVec.ofNat 32 (first + 1)) after) [] :=
        shows_renderRecords_earlier hfield after (first + 1) (Nat.lt_succ_self first) (by omega)
      rw [List.nil_append, renderRecords, ← List.append_nil texts]
      refine Shows.bind hself ?_
      rw [if_pos (hgo _), hnext]
      exact hrest
  | cons earlier before ih =>
      obtain ⟨hhead, htail⟩ := List.forall_mem_cons.mp hlookup
      rw [List.cons_append, List.length_cons] at hlast
      have hshift : first + (earlier :: before).length = first + 1 + before.length := by
        rw [List.length_cons]
        omega
      have hother : first + 1 + before.length ≠ (BitVec.ofNat 32 first).toNat := by
        have hle : (BitVec.ofNat 32 first).toNat ≤ first := Nat.mod_le _ _
        omega
      rw [hshift] at hself ⊢
      rw [List.cons_append, renderRecords]
      refine Shows.skip (shows_renderRecord_other hfield hother _) ?_
      rw [if_pos (renderRecord_value_iff.mpr hhead), hnext]
      exact ih (first + 1) (by omega) htail hself (BitVec.ofNat_add (first + 1) 1).symm

end Record

end Shows

/-! ## The shown reference and the encoded one -/

section Own

variable {p : Memory} {prior : BibView} {windowLength : Nat}

/-- The lines of a record of a reference type show the reference of the first record of
the type. -/
theorem showsReference_first
    (hopen : (bibReaderOpen (some prior) (some p) windowLength).value.1 = .ok)
    (hzero : (dumpBib (some p) windowLength).value = 0)
    {index : Nat} {record : BibRecordView} (hrecord : (imageRecords p)[index]? = some record)
    (htype : isReferenceType record.type) :
    ∃ first, (imageRecords p).find? (·.type = record.type) = some first ∧
      40 ≤ first.payloadLength.toNat ∧
      ShowsReference (dumpBib (some p) windowLength).trace index
        (referenceViewAt p first.payload) := by
  have hlength : (imageRecords p).length = (p.load32 52).toNat := length_recordViewsFrom _ _
  have hlt := (p.load32 52).isLt
  obtain ⟨hindex, rfl⟩ := List.getElem?_eq_some_iff.mp hrecord
  have hsplit : imageRecords p = (imageRecords p).take index ++
      (imageRecords p)[index] :: (imageRecords p).drop (index + 1) := by
    rw [← List.drop_eq_getElem_cons hindex, List.take_append_drop]
  have hbefore : ((imageRecords p).take index).length = index :=
    List.length_take_of_le (by omega)
  rw [dumpBib_of_opened hopen] at hzero ⊢
  have hlookup := renderRecords_lookup hzero
  obtain ⟨reference, hreference⟩ := hlookup _ (List.getElem_mem hindex) htype
  obtain ⟨first, hfirst, hfits, rfl⟩ := lookupReference_ok_iff.mp hreference
  refine ⟨first, hfirst, by omega, fun line hline => ?_⟩
  -- the record's own lines are the only ones with its number
  have hself : Shows index line.1 (renderRecord (imageLookup p (imageRecords p)[index].type)
      (BitVec.ofNat 32 index) (imageRecords p)[index]) [line.2.flatten] := by
    have hnumber : (BitVec.ofNat 32 index).toNat = index := Nat.mod_eq_of_lt (by omega)
    have hshows : Shows (BitVec.ofNat 32 index).toNat line.1 _ _ :=
      shows_renderRecord_self hline htype
    rw [hreference]
    rwa [hnumber] at hshows
  have hloop := @shows_renderRecords line.1 (imageRecords p)[index] (imageLookup p) [line.2.flatten]
    (referenceLines_name hline).1 ((imageRecords p).take index)
    ((imageRecords p).drop (index + 1)) 0
  rw [hbefore, ← hsplit, Nat.zero_add, Nat.zero_add] at hloop
  exact (Shows.skip (shows_printHeader _) (hloop (by omega) hlookup hself)).shownField_eq

theorem hexadecimal_line_inj {value other : BitVec 64}
    (heq : [["0x".toList, hexadecimal 16 value.toNat].flatten] =
      [["0x".toList, hexadecimal 16 other.toNat].flatten]) : value = other := by
  have hdigits := List.append_cancel_right (List.append_cancel_left (List.cons.inj heq).1)
  exact BitVec.eq_of_toNat_eq (hexadecimal_injective value.isLt other.isLt hdigits)

theorem decimal_line_inj {width : Nat} {value other : BitVec width}
    (heq : [[decimal value.toNat].flatten] = [[decimal other.toNat].flatten]) : value = other := by
  have hdigits := List.append_cancel_right (List.cons.inj heq).1
  exact BitVec.eq_of_toNat_eq (decimal_injective hdigits)

theorem format_line_inj {width : Nat} {major major' minor minor' : BitVec width}
    (heq : [[decimal major.toNat, ".".toList, decimal minor.toNat].flatten] =
      [[decimal major'.toNat, ".".toList, decimal minor'.toNat].flatten]) :
    major = major' ∧ minor = minor' := by
  have hline := (List.cons.inj heq).1
  obtain ⟨hmajor, hrest⟩ := append_separator_inj (not_mem_decimal (by decide) major.toNat)
    (not_mem_decimal (by decide) major'.toNat)
    (hline : _ ++ '.' :: (decimal minor.toNat ++ []) = _ ++ '.' :: (decimal minor'.toNat ++ []))
  have hminor : decimal minor.toNat = decimal minor'.toNat :=
    List.append_cancel_right (hrest : _ ++ [] = _ ++ [])
  exact ⟨BitVec.eq_of_toNat_eq (decimal_injective hmajor),
    BitVec.eq_of_toNat_eq (decimal_injective hminor)⟩

theorem ShowsReference.address_line {output : List (Stream × Char)} {index : Nat}
    {reference : BibReferenceView} (hshows : ShowsReference output index reference) :
    shownField output index "address".toList =
      [["0x".toList, hexadecimal 16 reference.address.toNat].flatten] :=
  hshows _ (List.mem_cons_of_mem _ List.mem_cons_self)

/-- The printed lines determine the forty bytes of the fixed part. -/
theorem fixedPart_eq {output : List (Stream × Char)} {index first second : Nat}
    (hfirst : ShowsReference output index (referenceViewAt p first))
    (hsecond : ShowsReference output index (referenceViewAt p second)) :
    ∀ step < 40, p (first + step) = p (second + step) := by
  simp only [ShowsReference, referenceLines, List.forall_mem_cons] at hfirst hsecond
  obtain ⟨hobject, haddress, hlength, hformat, hkind, hintegrity, -⟩ := hfirst
  obtain ⟨hobject', haddress', hlength', hformat', hkind', hintegrity', -⟩ := hsecond
  have hobjects := load64_inj (hexadecimal_line_inj (hobject.symm.trans hobject'))
  have haddresses := load64_inj (hexadecimal_line_inj (haddress.symm.trans haddress'))
  have hlengths := load64_inj (decimal_line_inj (hlength.symm.trans hlength'))
  obtain ⟨hmajor, hminor⟩ := format_line_inj (hformat.symm.trans hformat')
  have hmajors := load32_inj hmajor
  have hminors := load32_inj hminor
  have hkinds := load32_inj (decimal_line_inj (hkind.symm.trans hkind'))
  have hintegrities := load32_inj (decimal_line_inj (hintegrity.symm.trans hintegrity'))
  exact bytes_append (bytes_append (bytes_append (bytes_append (bytes_append (bytes_append
    hobjects haddresses) hlengths) hmajors) hminors) hkinds) hintegrities

/-- Equal fixed parts are printed alike. -/
theorem referenceLines_eq {first second : Nat}
    (heq : ∀ step < 40, p (first + step) = p (second + step)) :
    referenceLines (referenceViewAt p first) = referenceLines (referenceViewAt p second) := by
  have h64 : ∀ offset, offset + 8 ≤ 40 →
      p.load64 (first + offset) = p.load64 (second + offset) := by
    intro offset hoffset
    refine load64_congr fun step hstep => ?_
    rw [Nat.add_assoc, Nat.add_assoc]
    exact heq (offset + step) (by omega)
  have h32 : ∀ offset, offset + 4 ≤ 40 →
      p.load32 (first + offset) = p.load32 (second + offset) := by
    intro offset hoffset
    refine load32_congr fun step hstep => ?_
    rw [Nat.add_assoc, Nat.add_assoc]
    exact heq (offset + step) (by omega)
  have hobject : p.load64 first = p.load64 second := h64 0 (by decide)
  simp only [referenceLines, referenceViewAt, hobject, h64 8 (by decide), h64 16 (by decide),
    h32 24 (by decide), h32 28 (by decide), h32 32 (by decide), h32 36 (by decide)]

/-- The lines of a record of a reference type show its own reference exactly if its payload
starts with the fixed part of the first record of its type. -/
theorem showsOwnReference_iff
    (hopen : (bibReaderOpen (some prior) (some p) windowLength).value.1 = .ok)
    (hzero : (dumpBib (some p) windowLength).value = 0)
    {index : Nat} {record : BibRecordView} (hrecord : (imageRecords p)[index]? = some record)
    (htype : isReferenceType record.type) :
    ShowsOwnReference p windowLength index record ↔ RepeatsFirst p record := by
  obtain ⟨first, hfirst, -, hshows⟩ := showsReference_first hopen hzero hrecord htype
  constructor
  · rintro ⟨hlength, hown⟩
    refine ⟨hlength, fun other hother => ?_⟩
    obtain rfl : first = other := Option.some.inj (hfirst.symm.trans hother)
    exact fixedPart_eq hown hshows
  · rintro ⟨hlength, hrepeats⟩
    refine ⟨hlength, ?_⟩
    rw [ShowsReference, referenceLines_eq (hrepeats first hfirst)]
    exact hshows

/-- The first record of its type is described by its own bytes. -/
theorem showsOwnReference_of_first
    (hopen : (bibReaderOpen (some prior) (some p) windowLength).value.1 = .ok)
    (hzero : (dumpBib (some p) windowLength).value = 0)
    {index : Nat} {record : BibRecordView} (hrecord : (imageRecords p)[index]? = some record)
    (htype : isReferenceType record.type)
    (hfirst : (imageRecords p).find? (·.type = record.type) = some record) :
    ShowsOwnReference p windowLength index record := by
  obtain ⟨first, hfirst', hlength, hshows⟩ := showsReference_first hopen hzero hrecord htype
  obtain rfl : record = first := Option.some.inj (hfirst.symm.trans hfirst')
  exact ⟨hlength, hshows⟩

end Own

/-! ## Two audit logs -/

/-- The two mandatory references and an audit log at either address. -/
def auditLogsBlock (address address' : BitVec 64) : BibBlock where
  toBibHeaderFields := (sampleBlock 0 0).toBibHeaderFields
  records := [
    sampleReference BibTlv.serviceDirectoryReference bibTlvFlagMandatory 0x100000 0x2000 0,
    sampleReference BibTlv.memoryMapReference bibTlvFlagMandatory 0x200000 0x3000 0,
    sampleReference BibTlv.auditLogReference 0 address 0x1000 0,
    sampleReference BibTlv.auditLogReference 0 address' 0x1000 0]
  records_known := by
    have hnone : bibTlvFlagsAreKnown 0#16 = true := by decide
    have hmandatory : bibTlvFlagsAreKnown bibTlvFlagMandatory = true := by decide
    simp only [sampleReference, List.forall_mem_cons]
    exact ⟨hmandatory, hmandatory, hnone, hnone, List.forall_mem_nil _⟩

def auditLogsImage (address address' : BitVec 64) : Memory :=
  ofList (auditLogsBlock address address').encode

theorem auditLogsBlock_size (address address' : BitVec 64) :
    (auditLogsBlock address address').size = 288 := by
  simp [auditLogsBlock, sampleReference, BibBlock.size, recordsSize, BibRecord.size]

theorem auditLogsImage_opened {address address' : BitVec 64}
    (hacceptable : RecordsAcceptable (auditLogsBlock address address').records) :
    (bibReaderOpen (some .zero) (some (auditLogsImage address address')) 288).value.1 = .ok := by
  rw [auditLogsImage, BibBlock.open_eq (auditLogsBlock_size _ _) (by decide) hacceptable]

theorem auditLogsImage_records (address address' : BitVec 64) :
    imageRecords (auditLogsImage address address') =
      viewsAt 64 (auditLogsBlock address address').records :=
  BibBlock.imageRecords_eq (holds_ofList _) (by rw [auditLogsBlock_size]; decide)

theorem imageLookup_auditLogsImage (address address' : BitVec 64) :
    imageLookup (auditLogsImage address address') = fun type =>
      lookupReference (auditLogsImage address address') type
        (viewsAt 64 (auditLogsBlock address address').records) := by
  funext type
  rw [imageLookup, auditLogsImage_records]

theorem showsOwnReference_iff_auditLog :
    ShowsOwnReference (auditLogsImage 0x300000 0x300000) 288 3 ⟨8, 0, 248, 40, 56⟩ ↔
      RepeatsFirst (auditLogsImage 0x300000 0x300000) ⟨8, 0, 248, 40, 56⟩ := by
  have hopen : (bibReaderOpen (some .zero) (some (auditLogsImage 0x300000 0x300000)) 288).value.1 =
      .ok := auditLogsImage_opened ⟨by decide, by decide, by decide, by decide⟩
  have hzero : (dumpBib (some (auditLogsImage 0x300000 0x300000)) 288).value = 0 := by
    rw [dumpBib_of_opened hopen, Traced.value_bind, imageLookup_auditLogsImage,
      auditLogsImage_records]
    decide +kernel
  exact showsOwnReference_iff hopen hzero (by decide +kernel) (by decide)

/-- Audit logs at two addresses. -/
def twoAuditLogs : Memory := auditLogsImage 0x300000 0x400000

/-- The second audit log is described by the address of the first one. -/
theorem second_auditLog_misdescribed :
    (bibReaderOpen (some .zero) (some twoAuditLogs) 288).value.1 = .ok ∧
      (dumpBib (some twoAuditLogs) 288).value = 0 ∧
      (imageRecords twoAuditLogs)[3]? = some ⟨8, 0, 248, 40, 56⟩ ∧
      isReferenceType BibTlv.auditLogReference ∧
      (referenceViewAt twoAuditLogs 248).address = 0x400000 ∧
      shownField (dumpBib (some twoAuditLogs) 288).trace 3 "address".toList =
        ["0x0000000000300000".toList] ∧
      ¬ ShowsOwnReference twoAuditLogs 288 3 ⟨8, 0, 248, 40, 56⟩ := by
  have hopen : (bibReaderOpen (some .zero) (some twoAuditLogs) 288).value.1 = .ok := by
    unfold twoAuditLogs
    exact auditLogsImage_opened ⟨by decide, by decide, by decide, by decide⟩
  have hzero : (dumpBib (some twoAuditLogs) 288).value = 0 := by
    rw [dumpBib_of_opened hopen, Traced.value_bind, twoAuditLogs, imageLookup_auditLogsImage,
      auditLogsImage_records]
    decide +kernel
  have hrecord : (imageRecords twoAuditLogs)[3]? = some ⟨8, 0, 248, 40, 56⟩ := by decide +kernel
  have hfirst : (imageRecords twoAuditLogs).find? (·.type = BibTlv.auditLogReference) =
      some ⟨8, 0, 192, 40, 56⟩ := by decide +kernel
  have haddress : (referenceViewAt twoAuditLogs 248).address = 0x400000 := by decide +kernel
  have hother : (referenceViewAt twoAuditLogs 192).address = 0x300000 := by decide +kernel
  have htype : isReferenceType BibTlv.auditLogReference := by decide
  obtain ⟨first, hfound, -, hshows⟩ := showsReference_first hopen hzero hrecord htype
  obtain rfl : first = ⟨8, 0, 192, 40, 56⟩ := Option.some.inj (hfound.symm.trans hfirst)
  have hshown : [["0x".toList, hexadecimal 16 (referenceViewAt twoAuditLogs 192).address.toNat
      ].flatten] = ["0x0000000000300000".toList] := by
    rw [hother]
    decide
  refine ⟨hopen, hzero, hrecord, htype, haddress, hshows.address_line.trans hshown, ?_⟩
  rintro ⟨-, hown⟩
  have hsame := hexadecimal_line_inj (hown.address_line.symm.trans hshows.address_line)
  exact absurd (haddress.symm.trans (hsame.trans hother)) (by decide)

end Atarix.BibDump
