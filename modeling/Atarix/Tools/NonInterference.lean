import Atarix.Bib.Agreement
import Atarix.Bib.References
import Atarix.Tools.BibDump

/-! # What the decoder shows of sensitive records

The decoder looks a reference up before it looks at the sensitive flag, and it
looks up by type. So a sensitive payload shows exactly if the record loop comes to
a reference type whose first record is sensitive and has a fixed part.
-/

namespace Atarix.BibDump

open Memory

variable {p q : Memory}

def Sensitive (record : BibRecordView) : Prop := record.flags &&& bibTlvFlagSensitive ≠ 0

/-- A byte of the checksum or of a sensitive payload. -/
def SecretByte (p : Memory) (index : Nat) : Prop :=
  20 ≤ index ∧ index < 24 ∨ ∃ record ∈ imageRecords p, Sensitive record ∧ record.PayloadByte index

/-- `q` is the block `p` up to its secret bytes. -/
def SameButSecrets (p q : Memory) : Prop :=
  ∀ index < (p.load32 16).toNat, ¬ SecretByte p index → q index = p index

/-- Accepted blocks that differ from `p` in secret bytes only are dumped like `p`,
with the same output and the same exit code. -/
def DumpHidesSecrets (p : Memory) (windowLength : Nat) : Prop :=
  ∀ (q : Memory) (otherLength : Nat) (prior : BibView),
    (bibReaderOpen (some prior) (some q) otherLength).value.1 = .ok → SameButSecrets p q →
    dumpBib (some q) otherLength = dumpBib (some p) windowLength

/-- The lookup of `type` falls on a sensitive record with a fixed part. -/
def LooksUpSecret (p : Memory) (type : BitVec 16) : Prop :=
  ∃ record, (imageRecords p).find? (·.type = type) = some record ∧ Sensitive record ∧
    40 ≤ record.payloadLength.toNat

/-- The record loop comes to a reference whose lookup falls on a sensitive record,
past references that can be looked up. -/
inductive ReachesSecret (p : Memory) : List BibRecordView → Prop where
  | here {record : BibRecordView} {records : List BibRecordView}
      (reference : isReferenceType record.type) (secret : LooksUpSecret p record.type) :
      ReachesSecret p (record :: records)
  | later {record : BibRecordView} {records : List BibRecordView}
      (usable : isReferenceType record.type → LookupFits p record.type)
      (rest : ReachesSecret p records) : ReachesSecret p (record :: records)

/-! ## What is not secret -/

section Public

variable (haccepted : ImageRecordsAccepted p)
include haccepted

theorem payload_ge {record : BibRecordView} (hrecord : record ∈ imageRecords p) :
    80 ≤ record.payload := by
  obtain ⟨hfirst, -⟩ := haccepted.lie.bounds hrecord
  have hoffset := haccepted.offset_ge
  omega

theorem not_secretByte_header {index : Nat} (hindex : HeaderByte index) : ¬ SecretByte p index := by
  rintro (hcrc | ⟨record, hrecord, -, hpayload⟩)
  · exact hindex.2 hcrc
  · -- payloads lie behind the block header
    have hge := payload_ge haccepted hrecord
    have hlt := hindex.1
    have hle := hpayload.1
    omega

theorem not_secretByte_recordHeader {record : BibRecordView} (hrecord : record ∈ imageRecords p)
    {index : Nat} (hindex : record.HeaderByte index) : ¬ SecretByte p index := by
  rintro (hcrc | ⟨other, hother, -, hpayload⟩)
  · have hge := payload_ge haccepted hrecord
    have hle := hindex.1
    omega
  · exact haccepted.lie.not_payloadByte hrecord hother hindex hpayload

theorem not_secretByte_payload {record : BibRecordView} (hrecord : record ∈ imageRecords p)
    (hopen : ¬ Sensitive record) {index : Nat} (hindex : record.PayloadByte index) :
    ¬ SecretByte p index := by
  rintro (hcrc | ⟨other, hother, hsensitive, hpayload⟩)
  · have hge := payload_ge haccepted hrecord
    have hle := hindex.1
    omega
  · rw [haccepted.lie.eq_of_shared hrecord hother (.inr hindex) (.inr hpayload)] at hopen
    exact hopen hsensitive

variable (hsame : SameButSecrets p q)
include hsame

theorem sameHeader_of_sameButSecrets : SameHeader p q := by
  refine ⟨fun index hindex => hsame index ?_ (not_secretByte_header haccepted hindex)⟩
  have hge := haccepted.offset_ge
  have hle := haccepted.offset_le
  have hlt := hindex.1
  omega

theorem recordHeader_eq {record : BibRecordView} (hrecord : record ∈ imageRecords p) {index : Nat}
    (hindex : record.HeaderByte index) : q index = p index := by
  refine hsame index ?_ (not_secretByte_recordHeader haccepted hrecord hindex)
  obtain ⟨-, hlast⟩ := haccepted.lie.bounds hrecord
  have hlt := hindex.2
  omega

theorem payload_eq {record : BibRecordView} (hrecord : record ∈ imageRecords p)
    (hopen : ¬ Sensitive record) {index : Nat} (hindex : record.PayloadByte index) :
    q index = p index := by
  refine hsame index ?_ (not_secretByte_payload haccepted hrecord hopen hindex)
  obtain ⟨-, hlast⟩ := haccepted.lie.bounds hrecord
  have hlt := hindex.2
  omega

theorem imageRecords_eq_of_sameButSecrets : imageRecords q = imageRecords p := by
  have hheader := sameHeader_of_sameButSecrets haccepted hsame
  apply hheader.imageRecords_eq
  rw [hheader.load32 16 (by decide), hheader.load32 48 (by decide)]
  exact haccepted.lie.congr fun record hrecord index hindex =>
    recordHeader_eq haccepted hsame hrecord hindex

/-- A lookup that falls on no secret has the same outcome in both blocks. -/
theorem imageLookup_eq {type : BitVec 16} (hpublic : ¬ LooksUpSecret p type) :
    imageLookup q type = imageLookup p type := by
  rw [imageLookup, imageLookup, imageRecords_eq_of_sameButSecrets haccepted hsame, lookupReference,
    lookupReference]
  cases hfirst : (imageRecords p).find? (·.type = type) with
  | none => rw [Option.elim_none, Option.elim_none]
  | some record =>
      have hrecord := List.mem_of_find?_eq_some hfirst
      rw [Option.elim_some, Option.elim_some]
      apply decodeReference_congr
      intro hlength step hstep
      have hopen : ¬ Sensitive record := fun hsensitive =>
        hpublic ⟨record, hfirst, hsensitive, hlength⟩
      exact payload_eq haccepted hsame hrecord hopen ⟨by omega, by omega⟩

end Public

/-! ## Outside the secrets the dumps agree -/

theorem lookupFits_iff {type : BitVec 16} :
    LookupFits p type ↔ ∃ reference, imageLookup p type = .ok reference := by
  simp only [imageLookup, lookupReference_ok_iff]
  constructor
  · rintro ⟨record, hfirst, hfits⟩
    exact ⟨_, record, hfirst, hfits, rfl⟩
  · rintro ⟨_, record, hfirst, hfits, -⟩
    exact ⟨record, hfirst, hfits⟩

theorem renderRecord_of_not_reference {record : BibRecordView}
    (htype : ¬ isReferenceType record.type) (found found' : Except BibError BibReferenceView)
    (index : BitVec 32) : renderRecord found index record = renderRecord found' index record := by
  simp only [renderRecord, htype, Bool.false_eq_true, if_false]

theorem renderRecords_congr {lookup : BitVec 16 → Except BibError BibReferenceView}
    (heq : ∀ type, ¬ LooksUpSecret p type → lookup type = imageLookup p type)
    (records : List BibRecordView) (index : BitVec 32) (hreach : ¬ ReachesSecret p records) :
    renderRecords lookup index records = renderRecords (imageLookup p) index records := by
  induction records generalizing index with
  | nil => rfl
  | cons record records ih =>
      have hhead : renderRecord (lookup record.type) index record =
          renderRecord (imageLookup p record.type) index record := by
        by_cases htype : isReferenceType record.type
        · rw [heq record.type fun hsecret => hreach (.here htype hsecret)]
        · exact renderRecord_of_not_reference htype _ _ index
      rw [renderRecords, renderRecords, hhead]
      apply Traced.bind_congr
      -- behind a lookup that succeeded the rest is reached, behind one that failed nothing is
      by_cases hgo : (renderRecord (imageLookup p record.type) index record).value
      · rw [if_pos hgo, if_pos hgo]
        refine ih (index + 1) fun hrest => hreach (.later ?_ hrest)
        exact fun htype => lookupFits_iff.mpr (renderRecord_value_iff.mp hgo htype)
      · rw [if_neg hgo, if_neg hgo]

theorem printHeader_eq (hsame : SameHeader p q) :
    printHeader (viewOf q) = printHeader (viewOf p) := by
  rw [hsame.viewOf_eq]
  rfl

/-- A dump that comes to no secret is the dump of every block that differs in
secret bytes only. -/
theorem dumpHidesSecrets_of_not_reaches {prior : BibView} {windowLength : Nat}
    (hopen : (bibReaderOpen (some prior) (some p) windowLength).value.1 = .ok)
    (hreach : ¬ ReachesSecret p (imageRecords p)) : DumpHidesSecrets p windowLength := by
  intro q otherLength prior' hopen' hsame
  obtain ⟨-, -, haccepted⟩ := (bibReaderOpen_ok_iff_imageRecords prior p windowLength).mp hopen
  rw [dumpBib_of_opened hopen, dumpBib_of_opened hopen',
    printHeader_eq (sameHeader_of_sameButSecrets haccepted hsame),
    imageRecords_eq_of_sameButSecrets haccepted hsame,
    renderRecords_congr (fun _ => imageLookup_eq haccepted hsame) _ _ hreach]

/-! ## A secret that is reached shows -/

/-- The first record at which the loop comes to a secret. -/
theorem ReachesSecret.exists_first {records : List BibRecordView}
    (hreach : ReachesSecret p records) :
    ∃ before record after, records = before ++ record :: after ∧
      (∀ earlier ∈ before, isReferenceType earlier.type →
        LookupFits p earlier.type ∧ ¬ LooksUpSecret p earlier.type) ∧
      isReferenceType record.type ∧ LooksUpSecret p record.type := by
  induction hreach with
  | @here record records htype hsecret =>
      exact ⟨[], record, records, rfl, List.forall_mem_nil _, htype, hsecret⟩
  | @later head records husable hrest ih =>
      -- a later secret is the first one only if the head shows none
      by_cases hhead : isReferenceType head.type ∧ LooksUpSecret p head.type
      · exact ⟨[], head, records, rfl, List.forall_mem_nil _, hhead.1, hhead.2⟩
      · obtain ⟨before, record, after, rfl, hbefore, hrecord⟩ := ih
        refine ⟨head :: before, record, after, rfl, ?_, hrecord⟩
        refine List.forall_mem_cons.mpr ⟨fun htype => ⟨husable htype, ?_⟩, hbefore⟩
        exact fun hsecret => hhead ⟨htype, hsecret⟩

variable {lookup lookup' : BitVec 16 → Except BibError BibReferenceView}

/-- Records that are rendered alike can be dropped from the front. -/
theorem renderRecords_cancel (before rest : List BibRecordView) (index : BitVec 32)
    (hbefore : ∀ earlier ∈ before, isReferenceType earlier.type →
      lookup' earlier.type = lookup earlier.type ∧ ∃ reference, lookup earlier.type = .ok reference)
    (heq : renderRecords lookup' index (before ++ rest) =
      renderRecords lookup index (before ++ rest)) :
    ∃ next, renderRecords lookup' next rest = renderRecords lookup next rest := by
  induction before generalizing index with
  | nil => exact ⟨index, heq⟩
  | cons record before ih =>
      obtain ⟨hhead, htail⟩ := List.forall_mem_cons.mp hbefore
      have hrender : renderRecord (lookup' record.type) index record =
          renderRecord (lookup record.type) index record := by
        by_cases htype : isReferenceType record.type
        · rw [(hhead htype).1]
        · exact renderRecord_of_not_reference htype _ _ index
      have hgo : (renderRecord (lookup record.type) index record).value = true :=
        renderRecord_value_iff.mpr fun htype => (hhead htype).2
      rw [List.cons_append, renderRecords, renderRecords, hrender] at heq
      have hrest := Traced.bind_cancel heq
      rw [if_pos hgo, if_pos hgo] at hrest
      exact ih (index + 1) htail hrest

/-- The line that names a reference's object tells which one it is. -/
theorem objectId_eq_of_printReference {index : BitVec 32} {reference other : BibReferenceView}
    {rest rest' : List (Stream × Char)}
    (heq : (printReference index reference).trace ++ rest =
      (printReference index other).trace ++ rest') : reference.objectId = other.objectId := by
  simp only [printReference, Traced.trace_bind, List.append_assoc, printField, printLine] at heq
  obtain ⟨hline, -⟩ := put_append_inj (by simp [length_hexadecimal]) heq
  simp only [List.flatten_append, List.flatten_cons, List.flatten_nil, List.append_assoc,
    List.append_cancel_left_eq, List.append_nil] at hline
  have hdigits := (List.append_inj hline (by simp [length_hexadecimal])).1
  exact BitVec.eq_of_toNat_eq
    (hexadecimal_injective reference.objectId.isLt other.objectId.isLt hdigits)

/-- Rendering a reference differs from refusing it, and from rendering another one. -/
theorem renderRecords_ne {record : BibRecordView} {records : List BibRecordView}
    {index : BitVec 32} {reference : BibReferenceView} (htype : isReferenceType record.type)
    (hlookup' : lookup' record.type = .ok reference)
    (hother : ∀ other, lookup record.type = .ok other → reference.objectId ≠ other.objectId) :
    renderRecords lookup' index (record :: records) ≠
      renderRecords lookup index (record :: records) := by
  intro heq
  have htrace := congrArg Traced.trace heq
  cases hlookup : lookup record.type with
  | error error =>
      simp only [renderRecords, renderRecord, hlookup', hlookup, htype, if_true, Traced.trace_bind,
        List.append_assoc, List.append_cancel_left_eq] at htrace
      -- a refusal goes to standard error, a reference to standard output
      have hstream := congrArg List.head? htrace
      simp [printReference, printField, printLine, printError, put] at hstream
  | ok other =>
      simp only [renderRecords, renderRecord, hlookup', hlookup, htype, if_true, Traced.trace_bind,
        List.append_assoc, List.append_cancel_left_eq] at htrace
      exact hother other hlookup (objectId_eq_of_printReference htrace)

/-! ## A block that differs in a secret -/

/-- The block with its checksum recomputed. -/
def reseal (p : Memory) : Memory :=
  p.write 20 (le32 (crc32cWithZeroedField p (p.load32 16)).value)

/-- The block with another object named in a record's reference, and no integrity bytes declared. -/
def rename (p : Memory) (record : BibRecordView) : Memory :=
  (p.write record.payload (le64 (p.load64 record.payload + 1))).write (record.payload + 36) (le32 0)

theorem reseal_of_outside {index : Nat} (houtside : ¬ (20 ≤ index ∧ index < 24)) :
    reseal p index = p index := by
  apply write_of_outside
  rw [length_le32]
  omega

theorem holds_reseal {first : Nat} {bytes : List (BitVec 8)} (hfirst : 24 ≤ first) :
    (reseal p).Holds first bytes ↔ p.Holds first bytes :=
  holds_write_of_disjoint (.inr hfirst)

theorem reseal_crc :
    (reseal p).load32 20 = (crc32cWithZeroedField (reseal p) ((reseal p).load32 16)).value := by
  have hstored : (reseal p).load32 20 = (crc32cWithZeroedField p (p.load32 16)).value :=
    (holds_write_same p 20 _).load32
  have htotal : (reseal p).load32 16 = p.load32 16 :=
    load32_congr fun step hstep => reseal_of_outside (by omega)
  have hzeroed : (reseal p).zeroRange 20 4 = p.zeroRange 20 4 := zeroRange_write p 20 (le32 _)
  rw [hstored, htotal, crc32cWithZeroedField_value, crc32cWithZeroedField_value, hzeroed]

/-- The other block shows at the two places of the payload and the checksum only. -/
theorem rename_of_outside {record : BibRecordView} {index : Nat}
    (hcrc : ¬ (20 ≤ index ∧ index < 24))
    (hobject : ¬ (record.payload ≤ index ∧ index < record.payload + 8))
    (hintegrity : ¬ (record.payload + 36 ≤ index ∧ index < record.payload + 40)) :
    reseal (rename p record) index = p index := by
  rw [reseal_of_outside hcrc, rename, write_of_outside, write_of_outside]
  · rw [length_le64]
    omega
  · rw [length_le32]
    omega

theorem sameButSecrets_rename {record : BibRecordView} (hrecord : record ∈ imageRecords p)
    (hlength : 40 ≤ record.payloadLength.toNat) (hsensitive : Sensitive record) :
    SameButSecrets p (reseal (rename p record)) := by
  intro index _ hpublic
  have hcrc : ¬ (20 ≤ index ∧ index < 24) := fun hcrc => hpublic (.inl hcrc)
  have hpayload : ¬ record.PayloadByte index :=
    fun hbyte => hpublic (.inr ⟨record, hrecord, hsensitive, hbyte⟩)
  unfold BibRecordView.PayloadByte at hpayload
  exact rename_of_outside hcrc (by omega) (by omega)

section Renamed

variable {record : BibRecordView} (haccepted : ImageRecordsAccepted p)
  (hrecord : record ∈ imageRecords p)
include haccepted hrecord

/-- The renamed record is read with its new object. -/
theorem objectId_rename :
    (reseal (rename p record)).load64 record.payload = p.load64 record.payload + 1 ∧
      (reseal (rename p record)).load32 (record.payload + 36) = 0 := by
  have hge := payload_ge haccepted hrecord
  have hobject : (reseal (rename p record)).Holds record.payload
      (le64 (p.load64 record.payload + 1)) := by
    rw [holds_reseal (by omega), rename]
    apply (holds_write_of_disjoint _).mpr
    · exact holds_write_same p _ _
    · rw [length_le64]
      omega
  have hintegrity : (reseal (rename p record)).Holds (record.payload + 36) (le32 0) := by
    rw [holds_reseal (by omega), rename]
    exact holds_write_same _ _ _
  exact ⟨hobject.load64, hintegrity.load32⟩

/-- The record loop of `open` finds nothing to object to in the other block. -/
theorem recordChecked_rename (hlength : 40 ≤ record.payloadLength.toNat) {other : BibRecordView}
    (hother : other ∈ imageRecords p) :
    RecordChecked (reseal (rename p record)) other := by
  refine (haccepted.checked other hother).congr fun hfixed step hfirst hlast => ?_
  have hge := payload_ge haccepted hother
  have hbyte : other.PayloadByte (other.payload + step) := ⟨by omega, by omega⟩
  -- a byte of both payloads would make the two records one
  have hshared : record.PayloadByte (other.payload + step) → record = other := fun hshared =>
    haccepted.lie.eq_of_shared hrecord hother (.inr hshared) (.inr hbyte)
  refine rename_of_outside (by omega) ?_ ?_
  · rintro ⟨hle, hlt⟩
    obtain rfl := hshared ⟨hle, by omega⟩
    omega
  · rintro ⟨hle, hlt⟩
    obtain rfl := hshared ⟨by omega, by omega⟩
    omega

/-- The other block is accepted as well. -/
theorem open_rename (hlength : 40 ≤ record.payloadLength.toNat) (hsensitive : Sensitive record)
    {prior : BibView} {windowLength : Nat}
    (hopen : (bibReaderOpen (some prior) (some p) windowLength).value.1 = .ok) :
    (bibReaderOpen (some prior) (some (reseal (rename p record))) windowLength).value.1 = .ok := by
  obtain ⟨hwindow, hheader, -⟩ := (bibReaderOpen_ok_iff_imageRecords prior p windowLength).mp hopen
  have hsame := sameButSecrets_rename hrecord hlength hsensitive
  have hsameHeader := sameHeader_of_sameButSecrets haccepted hsame
  apply (bibReaderOpen_ok_iff_imageRecords prior _ windowLength).mpr
  refine ⟨hwindow, hsameHeader.headerAccepted hheader reseal_crc, ?_⟩
  exact (haccepted.congr hsameHeader
    (fun _ hother _ hbyte => recordHeader_eq haccepted hsame hother hbyte)
    fun _ hother => recordChecked_rename haccepted hrecord hlength hother).1

/-- The lookup that falls on the renamed record hands out its new object. -/
theorem imageLookup_rename (hlength : 40 ≤ record.payloadLength.toNat) {type : BitVec 16}
    (hsensitive : Sensitive record)
    (hfirst : (imageRecords p).find? (·.type = type) = some record) :
    ∃ reference, imageLookup (reseal (rename p record)) type = .ok reference ∧
      reference.objectId = p.load64 record.payload + 1 := by
  obtain ⟨hobject, hintegrity⟩ := objectId_rename haccepted hrecord
  have hsame := sameButSecrets_rename hrecord hlength hsensitive
  refine ⟨referenceViewAt (reseal (rename p record)) record.payload, ?_, hobject⟩
  rw [imageLookup, imageRecords_eq_of_sameButSecrets haccepted hsame]
  refine lookupReference_ok_iff.mpr ⟨record, hfirst, ?_, rfl⟩
  rw [declaredIntegrity, hintegrity]
  exact hlength

end Renamed

/-- A dump that comes to a secret differs from that of some accepted block that
differs in the secret only. -/
theorem not_dumpHidesSecrets_of_reaches {prior : BibView} {windowLength : Nat}
    (hopen : (bibReaderOpen (some prior) (some p) windowLength).value.1 = .ok)
    (hreach : ReachesSecret p (imageRecords p)) : ¬ DumpHidesSecrets p windowLength := by
  intro hhides
  obtain ⟨-, -, haccepted⟩ := (bibReaderOpen_ok_iff_imageRecords prior p windowLength).mp hopen
  obtain ⟨before, reached, after, hsplit, hbefore, htype, record, hfirst, hsensitive, hlength⟩ :=
    hreach.exists_first
  have hrecord := List.mem_of_find?_eq_some hfirst
  have hsame := sameButSecrets_rename hrecord hlength hsensitive
  have hopen' := open_rename haccepted hrecord hlength hsensitive hopen
  have heq := hhides _ windowLength prior hopen' hsame
  -- the dumps agree up to the record at which the secret is looked up
  rw [dumpBib_of_opened hopen, dumpBib_of_opened hopen',
    printHeader_eq (sameHeader_of_sameButSecrets haccepted hsame),
    imageRecords_eq_of_sameButSecrets haccepted hsame] at heq
  have hrecords := Traced.bind_cancel heq
  rw [hsplit] at hrecords
  have hearlier : ∀ earlier ∈ before, isReferenceType earlier.type →
      imageLookup (reseal (rename p record)) earlier.type = imageLookup p earlier.type ∧
        ∃ reference, imageLookup p earlier.type = .ok reference := by
    intro earlier hearlier hreference
    obtain ⟨hfits, hpublic⟩ := hbefore earlier hearlier hreference
    exact ⟨imageLookup_eq haccepted hsame hpublic, lookupFits_iff.mp hfits⟩
  obtain ⟨next, hrest⟩ := renderRecords_cancel before (reached :: after) 0 hearlier hrecords
  obtain ⟨reference, hlookup, hobject⟩ :=
    imageLookup_rename haccepted hrecord hlength hsensitive hfirst
  refine renderRecords_ne htype hlookup (fun other hother => ?_) hrest
  obtain ⟨found, hfound, -, rfl⟩ := lookupReference_ok_iff.mp hother
  obtain rfl : record = found := Option.some.inj (hfirst.symm.trans hfound)
  rw [hobject]
  change p.load64 record.payload + 1 ≠ p.load64 record.payload
  bv_omega

/-- The dump of an opened block hides its secrets exactly if the record loop does not
come to a reference whose lookup falls on a sensitive record. -/
theorem dumpHidesSecrets_iff {prior : BibView} {windowLength : Nat}
    (hopen : (bibReaderOpen (some prior) (some p) windowLength).value.1 = .ok) :
    DumpHidesSecrets p windowLength ↔ ¬ ReachesSecret p (imageRecords p) := by
  constructor
  · intro hhides hreach
    exact not_dumpHidesSecrets_of_reaches hopen hreach hhides
  · exact dumpHidesSecrets_of_not_reaches hopen

/-- A block whose sensitive records are no references does not come to a secret. -/
theorem not_reachesSecret
    (hplain : ∀ record ∈ imageRecords p, Sensitive record → ¬ isReferenceType record.type)
    (records : List BibRecordView) : ¬ ReachesSecret p records := by
  intro hreach
  obtain ⟨-, reached, -, -, -, htype, record, hfirst, hsensitive, -⟩ := hreach.exists_first
  refine hplain record (List.mem_of_find?_eq_some hfirst) hsensitive ?_
  rwa [type_of_first hfirst]

/-! ## Blocks with a sensitive record -/

/-- The two mandatory references and a sensitive record that names `objectId`. -/
def secretBlock (type : BitVec 16) (objectId : BitVec 64) : BibBlock where
  toBibHeaderFields := (sampleBlock 0 0).toBibHeaderFields
  records := [
    sampleReference BibTlv.serviceDirectoryReference bibTlvFlagMandatory 0x100000 0x2000 0,
    sampleReference BibTlv.memoryMapReference bibTlvFlagMandatory 0x200000 0x3000 0,
    { type, flags := bibTlvFlagSensitive,
      payload := le64 objectId ++ le64 0x300000 ++ le64 0x20 ++ le32 1 ++ le32 0 ++ le64 0 }]
  records_known := by
    have hmandatory : bibTlvFlagsAreKnown bibTlvFlagMandatory = true := by decide
    have hsensitive : bibTlvFlagsAreKnown bibTlvFlagSensitive = true := by decide
    simp only [sampleReference, List.forall_mem_cons]
    exact ⟨hmandatory, hmandatory, hsensitive, List.forall_mem_nil _⟩

def secretImage (type : BitVec 16) (objectId : BitVec 64) : Memory :=
  ofList (secretBlock type objectId).encode

theorem secretBlock_size (type : BitVec 16) (objectId : BitVec 64) :
    (secretBlock type objectId).size = 232 := by
  simp [secretBlock, sampleReference, BibBlock.size, recordsSize, BibRecord.size]

theorem secretImage_opened {type : BitVec 16} {objectId : BitVec 64}
    (hacceptable : RecordsAcceptable (secretBlock type objectId).records) :
    (bibReaderOpen (some .zero) (some (secretImage type objectId)) 232).value.1 = .ok := by
  rw [secretImage, BibBlock.open_eq (secretBlock_size _ _) (by decide) hacceptable]

theorem secretImage_records (type : BitVec 16) (objectId : BitVec 64) :
    imageRecords (secretImage type objectId) = viewsAt 64 (secretBlock type objectId).records :=
  BibBlock.imageRecords_eq (holds_ofList _) (by rw [secretBlock_size]; decide)

theorem dumpHidesSecrets_iff_bootArguments :
    DumpHidesSecrets (secretImage BibTlv.bootArguments 1) 232 := by
  refine (dumpHidesSecrets_iff
    (secretImage_opened ⟨by decide, by decide, by decide, by decide⟩)).mpr ?_
  apply not_reachesSecret
  rw [secretImage_records]
  unfold Sensitive
  decide +kernel

/-- Two blocks that differ in the object of a sensitive entropy seed, which the
decoder prints. -/
theorem entropy_seed_shown :
    (bibReaderOpen (some .zero) (some (secretImage BibTlv.entropySeedReference 1)) 232).value.1 =
        .ok ∧
      (bibReaderOpen (some .zero) (some (secretImage BibTlv.entropySeedReference 2)) 232).value.1 =
        .ok ∧
      SameButSecrets (secretImage BibTlv.entropySeedReference 1)
        (secretImage BibTlv.entropySeedReference 2) ∧
      dumpBib (some (secretImage BibTlv.entropySeedReference 2)) 232 ≠
        dumpBib (some (secretImage BibTlv.entropySeedReference 1)) 232 ∧
      ¬ DumpHidesSecrets (secretImage BibTlv.entropySeedReference 1) 232 := by
  have hopen : (bibReaderOpen (some .zero) (some (secretImage BibTlv.entropySeedReference 1))
      232).value.1 = .ok := secretImage_opened ⟨by decide, by decide, by decide, by decide⟩
  have hopen' : (bibReaderOpen (some .zero) (some (secretImage BibTlv.entropySeedReference 2))
      232).value.1 = .ok := secretImage_opened ⟨by decide, by decide, by decide, by decide⟩
  have hsame : SameButSecrets (secretImage BibTlv.entropySeedReference 1)
      (secretImage BibTlv.entropySeedReference 2) := by
    have htotal : ((secretImage BibTlv.entropySeedReference 1).load32 16).toNat = 232 := by
      decide +kernel
    have hrecord : (⟨10, 2, 192, 40, 56⟩ : BibRecordView) ∈
        imageRecords (secretImage BibTlv.entropySeedReference 1) := by
      rw [secretImage_records]
      decide +kernel
    have hsensitive : Sensitive ⟨10, 2, 192, 40, 56⟩ := by
      unfold Sensitive
      decide
    have hbefore : ((secretBlock BibTlv.entropySeedReference 2).encode.drop 0).take 20 =
        ((secretBlock BibTlv.entropySeedReference 1).encode.drop 0).take 20 := by decide +kernel
    have hbehind : ((secretBlock BibTlv.entropySeedReference 2).encode.drop 24).take 168 =
        ((secretBlock BibTlv.entropySeedReference 1).encode.drop 24).take 168 := by decide +kernel
    intro index hindex hsecret
    rw [htotal] at hindex
    have hpublic : index < 192 := by
      by_contra hge
      exact hsecret (.inr ⟨_, hrecord, hsensitive, Nat.not_lt.mp hge, hindex⟩)
    by_cases hlow : index < 20
    · exact ofList_congr hbefore (Nat.zero_le index) (by omega)
    · have hge : 24 ≤ index := Nat.not_lt.mp fun hlt => hsecret (.inl ⟨by omega, hlt⟩)
      exact ofList_congr hbehind hge hpublic
  have hrender : (renderRecords (imageLookup (secretImage BibTlv.entropySeedReference 2)) 0
        (imageRecords (secretImage BibTlv.entropySeedReference 2))).trace ≠
      (renderRecords (imageLookup (secretImage BibTlv.entropySeedReference 1)) 0
        (imageRecords (secretImage BibTlv.entropySeedReference 1))).trace := by decide +kernel
  have hdiffer : dumpBib (some (secretImage BibTlv.entropySeedReference 2)) 232 ≠
      dumpBib (some (secretImage BibTlv.entropySeedReference 1)) 232 := by
    obtain ⟨-, -, haccepted⟩ := (bibReaderOpen_ok_iff_imageRecords _ _ _).mp hopen
    rw [dumpBib_of_opened hopen', dumpBib_of_opened hopen,
      printHeader_eq (sameHeader_of_sameButSecrets haccepted hsame)]
    exact fun heq => hrender (congrArg Traced.trace (Traced.bind_cancel heq))
  exact ⟨hopen, hopen', hsame, hdiffer, fun hhides => hdiffer (hhides _ 232 .zero hopen' hsame)⟩

end Atarix.BibDump
