import Atarix.Discovery.Storing

/-! # Which bytes the parser reads

Validation bounds a record by the length it declares, while the functions that
store a record read a 32-byte structure. The reads stay inside the record exactly
if every typed record that can be reached declares that many bytes.
-/

namespace Atarix

variable {image : Memory} {imageSize record : Nat} {db : DiscoveryDatabase}

/-! ## What one record costs -/

/-- The reads of a whole typed record: offsets 8 to 31, the last one included. -/
structure FullRead (record : Nat) (reads : List ImageRead) : Prop where
  within : ∀ read ∈ reads,
    ∃ offset, 8 ≤ offset ∧ offset < 32 ∧ read = .field record (record + offset)
  last : .field record (record + 31) ∈ reads

theorem mem_fieldReads {offset size : Nat} {read : ImageRead} :
    read ∈ fieldReads record offset size ↔
      ∃ index, offset ≤ index ∧ index < offset + size ∧ read = .field record (record + index) := by
  simp only [fieldReads, List.mem_map, List.mem_range'_1]
  constructor
  · rintro ⟨index, ⟨hle, hlt⟩, rfl⟩
    exact ⟨index - record, by omega, by omega, by congr 1; omega⟩
  · rintro ⟨index, hle, hlt, rfl⟩
    exact ⟨record + index, by omega, rfl⟩

/-- Reads of fields between offsets 8 and 32 that end in the last field. -/
theorem fullRead_of_fields (fields : List (Nat × Nat)) {reads : List ImageRead}
    (hreads : reads = fields.flatMap fun field => fieldReads record field.1 field.2)
    (hinside : ∀ field ∈ fields, 8 ≤ field.1 ∧ field.1 + field.2 ≤ 32)
    (hlast : ∃ field ∈ fields, field.1 + field.2 = 32 ∧ 0 < field.2) : FullRead record reads := by
  subst hreads
  constructor
  · intro read hread
    obtain ⟨field, hfield, hread⟩ := List.mem_flatMap.mp hread
    obtain ⟨index, hle, hlt, rfl⟩ := mem_fieldReads.mp hread
    have := hinside field hfield
    exact ⟨index, by omega, by omega, rfl⟩
  · obtain ⟨field, hfield, hend, hpos⟩ := hlast
    refine List.mem_flatMap.mpr ⟨field, hfield, mem_fieldReads.mpr ⟨31, ?_, ?_, rfl⟩⟩ <;> omega

theorem loadResource_fullRead (image : Memory) (record : Nat) :
    FullRead record (loadResource image record).trace :=
  fullRead_of_fields [(16, 8), (8, 2), (10, 2), (12, 4), (24, 4), (28, 4)] rfl (by decide)
    (by decide)

theorem loadService_fullRead (image : Memory) (record : Nat) :
    FullRead record (loadService image record).trace :=
  fullRead_of_fields [(16, 8), (8, 2), (10, 2), (12, 4), (24, 4), (28, 4)] rfl (by decide)
    (by decide)

theorem loadDependency_fullRead (image : Memory) (record : Nat) :
    FullRead record (loadDependency image record).trace :=
  fullRead_of_fields [(8, 8), (16, 8), (24, 2), (26, 2), (28, 4)] rfl (by decide) (by decide)

theorem loadInstrumentation_fullRead (image : Memory) (record : Nat) :
    FullRead record (loadInstrumentation image record).trace :=
  fullRead_of_fields [(16, 8), (24, 8), (8, 2), (10, 2), (12, 4)] rfl (by decide) (by decide)

/-- What storing an entry comes to, if it brings the handles `known`. -/
inductive StoreOutcome (known : List DiscoveryHandle) (loadReads : List ImageRead)
    (db : DiscoveryDatabase) (outcome : Parsing (DiscoveryResult × DiscoveryDatabase)) : Prop where
  | full (hfull : ∀ count, ¬ db.Holds (count + 1)) (houtcome : outcome = ⟨(.capacity, db), []⟩)
  | stored (next : DiscoveryDatabase)
      (hhandles : ∀ handle, handle ∈ next.handles ↔ handle ∈ known ∨ handle ∈ db.handles)
      (hholds : ∀ count, db.Holds (count + 1) → next.Holds count)
      (houtcome : outcome = ⟨(.ok, next), loadReads⟩)

/-- An array slot of the database, with the handle its entries bring. -/
structure Slot {Entry : Type} (db : DiscoveryDatabase) (array : EntryArray Entry)
    (store : EntryArray Entry → DiscoveryDatabase) (known : Entry → List DiscoveryHandle) :
    Prop where
  room : ∀ count, db.Holds (count + 1) → array.HasRoom
  handles : ∀ entry, array.HasRoom → ∀ handle, handle ∈ (store (array.append entry)).handles ↔
    handle ∈ known entry ∨ handle ∈ db.handles
  holds : ∀ entry count, db.Holds (count + 1) → (store (array.append entry)).Holds count

theorem Slot.storeOutcome {Entry : Type} {array : EntryArray Entry}
    {store : EntryArray Entry → DiscoveryDatabase} {known : Entry → List DiscoveryHandle}
    (slot : Slot db array store known) (load : Parsing Entry) :
    StoreOutcome (known load.value) load.trace db (storeEntry db array load store) := by
  unfold storeEntry
  split_ifs with hroom
  · refine .stored (store (array.append load.value)) (slot.handles _ hroom) (slot.holds _) ?_
    change (⟨_, load.trace ++ []⟩ : Parsing _) = _
    rw [List.append_nil]
    rfl
  · exact .full (fun count hholds => hroom (slot.room count hholds)) rfl

theorem resources_slot (db : DiscoveryDatabase) :
    Slot db db.resources (fun resources => { db with resources }) fun entry => [entry.handle] where
  room count hholds := hholds.resources.hasRoom
  handles entry hroom handle := by
    simp only [DiscoveryDatabase.handles, List.mem_append, List.mem_singleton,
      EntryArray.mem_map_append hroom]
    tauto
  holds entry count hholds :=
    ⟨hholds.resources.append entry, hholds.services.of_succ, hholds.dependencies.of_succ,
      hholds.instrumentation.of_succ⟩

theorem services_slot (db : DiscoveryDatabase) :
    Slot db db.services (fun services => { db with services }) fun entry => [entry.handle] where
  room count hholds := hholds.services.hasRoom
  handles entry hroom handle := by
    simp only [DiscoveryDatabase.handles, List.mem_append, List.mem_singleton,
      EntryArray.mem_map_append hroom]
    tauto
  holds entry count hholds :=
    ⟨hholds.resources.of_succ, hholds.services.append entry, hholds.dependencies.of_succ,
      hholds.instrumentation.of_succ⟩

theorem dependencies_slot (db : DiscoveryDatabase) :
    Slot db db.dependencies (fun dependencies => { db with dependencies }) fun _ => [] where
  room count hholds := hholds.dependencies.hasRoom
  handles entry hroom handle := by simp [DiscoveryDatabase.handles]
  holds entry count hholds :=
    ⟨hholds.resources.of_succ, hholds.services.of_succ, hholds.dependencies.append entry,
      hholds.instrumentation.of_succ⟩

theorem instrumentation_slot (db : DiscoveryDatabase) :
    Slot db db.instrumentation (fun instrumentation => { db with instrumentation })
      fun entry => [entry.handle] where
  room count hholds := hholds.instrumentation.hasRoom
  handles entry hroom handle := by
    simp only [DiscoveryDatabase.handles, List.mem_append, List.mem_singleton,
      EntryArray.mem_map_append hroom]
    tauto
  holds entry count hholds :=
    ⟨hholds.resources.of_succ, hholds.services.of_succ, hholds.dependencies.of_succ,
      hholds.instrumentation.append entry⟩

/-- Storing a record with a handle of its own: refused as a duplicate, or stored
if there is room, in both cases after the handle was read. -/
inductive UniqueOutcome (image : Memory) (record : Nat) (db : DiscoveryDatabase)
    (outcome : Parsing (DiscoveryResult × DiscoveryDatabase)) : Prop where
  | duplicate (hknown : recordHandle image record ∈ db.handles)
      (houtcome : outcome = ⟨(.duplicateHandle, db), fieldReads record 16 8⟩)
  | checked (hnew : recordHandle image record ∉ db.handles) (loadReads : List ImageRead)
      (stored : Parsing (DiscoveryResult × DiscoveryDatabase)) (hreads : FullRead record loadReads)
      (hstored : StoreOutcome [recordHandle image record] loadReads db stored)
      (houtcome : outcome = ⟨stored.value, fieldReads record 16 8 ++ stored.trace⟩)

theorem Slot.uniqueOutcome {Entry : Type} {array : EntryArray Entry}
    {store : EntryArray Entry → DiscoveryDatabase} {known : Entry → List DiscoveryHandle}
    (slot : Slot db array store known) (load : Parsing Entry)
    (hknown : known load.value = [recordHandle image record])
    (hreads : FullRead record load.trace) :
    UniqueOutcome image record db (storeUnique image record db array load store) := by
  have hunfold : storeUnique image record db array load store =
      field64 image record 16 >>= fun handle =>
        if discoveryDatabaseContainsHandle db handle then pure (.duplicateHandle, db)
        else storeEntry db array load store := rfl
  have hvalue : (field64 image record 16).value = recordHandle image record := rfl
  rw [hunfold]
  by_cases hcontains : recordHandle image record ∈ db.handles
  · refine .duplicate hcontains (Traced.ext ?_ ?_)
    all_goals simp only [Traced.value_bind, Traced.trace_bind, hvalue,
      if_pos ((db.containsHandle_iff _).mpr hcontains)]
    · rfl
    · exact List.append_nil _
  · refine .checked hcontains load.trace (storeEntry db array load store) hreads ?_
      (Traced.ext ?_ ?_)
    · rw [← hknown]
      exact slot.storeOutcome load
    all_goals simp only [Traced.value_bind, Traced.trace_bind, hvalue,
      if_neg (mt (db.containsHandle_iff _).mp hcontains)]
    rfl

theorem addRecord_of_carriesHandle (db : DiscoveryDatabase)
    (hcarries : CarriesHandle (recordType image record)) :
    UniqueOutcome image record db (addRecord image record db) := by
  rcases hcarries with htype | htype | htype
  · rw [addRecord, if_pos htype]
    exact (resources_slot db).uniqueOutcome (loadResource image record) rfl
      (loadResource_fullRead image record)
  · rw [addRecord, htype]
    exact (services_slot db).uniqueOutcome (loadService image record) rfl
      (loadService_fullRead image record)
  · rw [addRecord, htype]
    exact (instrumentation_slot db).uniqueOutcome (loadInstrumentation image record) rfl
      (loadInstrumentation_fullRead image record)

/-- A dependency is stored if there is room. -/
theorem addRecord_of_dependency (db : DiscoveryDatabase)
    (htype : recordType image record = DiscoveryRecord.dependency) :
    ∃ loadReads, FullRead record loadReads ∧
      StoreOutcome [] loadReads db (addRecord image record db) := by
  refine ⟨(loadDependency image record).trace, loadDependency_fullRead image record, ?_⟩
  have hadd : addRecord image record db = addDependency image record db := by
    rw [addRecord, htype]
    rfl
  rw [hadd]
  exact (dependencies_slot db).storeOutcome (loadDependency image record)

/-- Records of other types are passed over. -/
theorem addRecord_of_other (hcarries : ¬ CarriesHandle (recordType image record))
    (hdependency : recordType image record ≠ DiscoveryRecord.dependency) :
    addRecord image record db = ⟨(.ok, db), []⟩ := by
  obtain ⟨hresource, hservice, hinstrumentation⟩ : _ ∧ _ ∧ _ := by
    simpa only [CarriesHandle, not_or] using hcarries
  rw [addRecord, if_neg hresource, if_neg hservice, if_neg hdependency, if_neg hinstrumentation]
  rfl

/-! ## Reads inside the record -/

/-- A header read stays in the image, a field read in its record and the image. -/
def ImageRead.Within (image : Memory) (totalLength : Nat) : ImageRead → Prop
  | .header index => index < totalLength
  | .field record index =>
      record ≤ index ∧ index < record + recordLength image record ∧ index < totalLength

variable {totalLength : Nat} {seen : List DiscoveryHandle} {records : List Nat}

theorem FullRead.within_record {reads : List ImageRead} (hreads : FullRead record reads)
    (fits : RecordFits image totalLength record) (hlength : 32 ≤ recordLength image record) :
    ∀ read ∈ reads, read.Within image totalLength := by
  intro read hread
  obtain ⟨offset, hle, hlt, rfl⟩ := hreads.within read hread
  have := fits.le_total
  exact ⟨by omega, by omega, by omega⟩

theorem handleRead_within (fits : RecordFits image totalLength record)
    (hlength : 24 ≤ recordLength image record) :
    ∀ read ∈ fieldReads record 16 8, read.Within image totalLength := by
  intro read hread
  obtain ⟨offset, hle, hlt, rfl⟩ := mem_fieldReads.mp hread
  have := fits.le_total
  exact ⟨by omega, by omega, by omega⟩

theorem headerReads_within (fits : RecordFits image totalLength record) :
    (∀ read ∈ typeReads record, read.Within image totalLength) ∧
      ∀ read ∈ lengthReads record, read.Within image totalLength := by
  have hheader := fits.header_le
  have htotal := fits.le_total
  simp only [discoveryRecordHeaderSizeV1] at hheader
  constructor
  all_goals
    intro read hread
    obtain ⟨index, hindex, rfl⟩ := List.mem_map.mp hread
    rw [List.mem_range'_1] at hindex
    change index < totalLength
    omega

/-- The walk goes on to the next record of a chain. -/
theorem nextRecord_of_chain (fits : RecordFits image totalLength record)
    (hchain : RecordChain image totalLength (record + recordLength image record) records)
    (htotal : totalLength ≤ imageSize) :
    discoveryNextRecord image imageSize record = some (record + recordLength image record) := by
  have hbehind : RecordFits image totalLength (record + recordLength image record) := by
    cases hchain <;> assumption
  have hheader := hbehind.header_le
  have hle := hbehind.le_total
  have haligned := hbehind.aligned
  have hlength := fits.header_le
  have hsize : discoveryRecordHeaderSizeV1 = 8 := rfl
  simp only [discoveryNextRecord]
  rw [if_neg (by omega), if_neg (by omega), if_neg (by omega)]

/-- The typed records of a chain are long enough for the fields read from them.
A record that repeats a handle is refused after its handle was read, so it needs
its first 24 bytes only, and nothing behind it is read. -/
def FieldsFit (image : Memory) : List DiscoveryHandle → List Nat → Prop
  | _, [] => True
  | seen, record :: rest =>
    if CarriesHandle (recordType image record) then
      if recordHandle image record ∈ seen then 24 ≤ recordLength image record
      else 32 ≤ recordLength image record ∧
        FieldsFit image (recordHandle image record :: seen) rest
    else if recordType image record = DiscoveryRecord.dependency then
      32 ≤ recordLength image record ∧ FieldsFit image seen rest
    else FieldsFit image seen rest

/-- A record that fits is read inside its bounds, and if it is stored the rest fits. -/
theorem addRecord_of_fieldsFit (fits : RecordFits image totalLength record)
    (hfit : FieldsFit image seen (record :: records))
    (hseen : ∀ handle ∈ seen, handle ∈ db.handles) :
    (∀ read ∈ (addRecord image record db).trace, read.Within image totalLength) ∧
      ((addRecord image record db).value.1 = .ok → ∃ seen, FieldsFit image seen records ∧
        ∀ handle ∈ seen, handle ∈ (addRecord image record db).value.2.handles) := by
  simp only [FieldsFit] at hfit
  split_ifs at hfit with hcarries hrepeats hdependency
  · cases addRecord_of_carriesHandle db hcarries with
    | duplicate hknown houtcome =>
        rw [houtcome]
        exact ⟨handleRead_within fits hfit, fun hok => by cases hok⟩
    | checked hnew => exact absurd (hseen _ hrepeats) hnew
  · cases addRecord_of_carriesHandle db hcarries with
    | duplicate hknown houtcome =>
        rw [houtcome]
        exact ⟨handleRead_within fits (by omega), fun hok => by cases hok⟩
    | checked hnew loadReads stored hreads hstored houtcome =>
        rw [houtcome]
        have hhandle := handleRead_within fits (show 24 ≤ recordLength image record by omega)
        cases hstored with
        | full hfull hstored =>
            subst hstored
            refine ⟨List.forall_mem_append.mpr ⟨hhandle, by simp⟩, fun hok => by cases hok⟩
        | stored next hhandles hholds hstored =>
            subst hstored
            refine ⟨List.forall_mem_append.mpr ⟨hhandle, hreads.within_record fits hfit.1⟩,
              fun _ => ⟨_, hfit.2, fun handle hmem => (hhandles handle).mpr ?_⟩⟩
            rcases List.mem_cons.mp hmem with rfl | hmem
            · exact Or.inl (List.mem_singleton.mpr rfl)
            · exact Or.inr (hseen handle hmem)
  · obtain ⟨loadReads, hreads, hstored⟩ := addRecord_of_dependency db hdependency
    cases hstored with
    | full hfull houtcome =>
        rw [houtcome]
        exact ⟨by simp, fun hok => by cases hok⟩
    | stored next hhandles hholds houtcome =>
        rw [houtcome]
        exact ⟨hreads.within_record fits hfit.1,
          fun _ => ⟨_, hfit.2, fun handle hmem =>
            (hhandles handle).mpr (Or.inr (hseen handle hmem))⟩⟩
  · rw [addRecord_of_other hcarries hdependency]
    exact ⟨by simp, fun _ => ⟨_, hfit, hseen⟩⟩

/-- Over a chain whose records fit, every read stays within. -/
theorem parseRecords_within (db : DiscoveryDatabase) (htotal : totalLength ≤ imageSize)
    (hchain : RecordChain image totalLength record records)
    (hfit : FieldsFit image seen records) (hseen : ∀ handle ∈ seen, handle ∈ db.handles) :
    (discoveryParseRecords image imageSize record db).Respects
      (ImageRead.Within image totalLength) := by
  induction hchain generalizing seen db with
  | stop fits isEnd =>
      rw [parseRecords_end isEnd]
      exact (headerReads_within fits).1
  | @next record rest fits notEnd chain ih =>
      obtain ⟨hadd, hrest⟩ := addRecord_of_fieldsFit fits hfit hseen
      obtain ⟨htype, hlength⟩ := headerReads_within fits
      by_cases hstored : (addRecord image record db).value.1 = .ok
      · obtain ⟨seen, hfit, hseen⟩ := hrest hstored
        rw [parseRecords_next notEnd hstored (nextRecord_of_chain fits chain htotal)]
        simp only [Traced.Respects, List.forall_mem_append]
        exact ⟨⟨⟨htype, hadd⟩, hlength⟩, ih _ hfit hseen⟩
      · rw [parseRecords_refused notEnd hstored]
        exact List.forall_mem_append.mpr ⟨htype, hadd⟩

theorem length_of_last_within {reads : List ImageRead} (hreads : FullRead record reads)
    (hwithin : ∀ read ∈ reads, read.Within image totalLength) :
    32 ≤ recordLength image record := by
  have := (hwithin _ hreads.last).2.1
  omega

theorem length_of_handle_within
    (hwithin : ∀ read ∈ fieldReads record 16 8, read.Within image totalLength) :
    24 ≤ recordLength image record := by
  have hlast : ImageRead.field record (record + 23) ∈ fieldReads record 16 8 :=
    mem_fieldReads.mpr ⟨23, by omega, by omega, rfl⟩
  have := (hwithin _ hlast).2.1
  omega

/-- With room for it, a record that is read inside its bounds fits. -/
theorem fieldsFit_of_addRecord (hholds : db.Holds (records.length + 1))
    (hseen : ∀ handle ∈ db.handles, handle ∈ seen)
    (hwithin : ∀ read ∈ (addRecord image record db).trace, read.Within image totalLength)
    (hrest : (addRecord image record db).value.1 = .ok → ∀ seen,
      (addRecord image record db).value.2.Holds records.length →
      (∀ handle ∈ (addRecord image record db).value.2.handles, handle ∈ seen) →
      FieldsFit image seen records) :
    FieldsFit image seen (record :: records) := by
  simp only [FieldsFit]
  split_ifs with hcarries hrepeats hdependency
  · cases addRecord_of_carriesHandle db hcarries with
    | duplicate hknown houtcome =>
        rw [houtcome] at hwithin
        exact length_of_handle_within hwithin
    | checked hnew loadReads stored hreads hstored houtcome =>
        rw [houtcome] at hwithin
        exact length_of_handle_within (List.forall_mem_append.mp hwithin).1
  · cases addRecord_of_carriesHandle db hcarries with
    | duplicate hknown => exact absurd (hseen _ hknown) hrepeats
    | checked hnew loadReads stored hreads hstored houtcome =>
        cases hstored with
        | full hfull => exact absurd hholds (hfull _)
        | stored next hhandles hnext hstored =>
            subst hstored
            rw [houtcome] at hwithin hrest
            refine ⟨length_of_last_within hreads (List.forall_mem_append.mp hwithin).2,
              hrest rfl _ (hnext _ hholds) fun handle hmem => ?_⟩
            rcases (hhandles handle).mp hmem with hown | hbefore
            · exact List.mem_cons.mpr (Or.inl (List.mem_singleton.mp hown))
            · exact List.mem_cons_of_mem _ (hseen handle hbefore)
  · obtain ⟨loadReads, hreads, hstored⟩ := addRecord_of_dependency db hdependency
    cases hstored with
    | full hfull => exact absurd hholds (hfull _)
    | stored next hhandles hnext houtcome =>
        rw [houtcome] at hwithin hrest
        refine ⟨length_of_last_within hreads hwithin,
          hrest rfl _ (hnext _ hholds) fun handle hmem => ?_⟩
        rcases (hhandles handle).mp hmem with hown | hbefore
        · cases hown
        · exact hseen handle hbefore
  · rw [addRecord_of_other hcarries hdependency] at hrest
    exact hrest rfl _ ⟨hholds.resources.of_succ, hholds.services.of_succ,
      hholds.dependencies.of_succ, hholds.instrumentation.of_succ⟩ hseen

/-- A chain that is read inside its bounds into a database with room for it fits. -/
theorem fieldsFit_of_parseRecords (htotal : totalLength ≤ imageSize)
    (hchain : RecordChain image totalLength record records)
    (hholds : db.Holds records.length) (hseen : ∀ handle ∈ db.handles, handle ∈ seen)
    (hwithin : (discoveryParseRecords image imageSize record db).Respects
      (ImageRead.Within image totalLength)) : FieldsFit image seen records := by
  induction hchain generalizing seen db with
  | stop => trivial
  | @next record rest fits notEnd chain ih =>
      by_cases hstored : (addRecord image record db).value.1 = .ok
      · rw [parseRecords_next notEnd hstored (nextRecord_of_chain fits chain htotal)] at hwithin
        simp only [Traced.Respects, List.forall_mem_append] at hwithin
        exact fieldsFit_of_addRecord hholds hseen hwithin.1.1.2
          fun _ _ hnext hknown => ih hnext hknown hwithin.2
      · rw [parseRecords_refused notEnd hstored] at hwithin
        exact fieldsFit_of_addRecord hholds hseen (List.forall_mem_append.mp hwithin).2
          fun hok => absurd hok hstored

/-! ## The bound on every read -/

/-- Whatever the database, parsing reads record headers inside the image and the
fields of a record inside that record. -/
def ParseReadsWithin (image : Memory) (imageSize : Nat) : Prop :=
  ∀ db, (discoveryParse (some image) imageSize db).Respects
    (ImageRead.Within image (DiscoveryHeader.totalLength image))

/-- Parsing reads within bounds exactly on the images that are refused and on
those whose typed records fit the fields read from them. -/
theorem parseReadsWithin_iff (image : Memory) (imageSize : Nat) :
    ParseReadsWithin image imageSize ↔
      (discoveryValidate (some image) imageSize = .ok → ∀ records,
        RecordChain image (DiscoveryHeader.totalLength image) discoveryHeaderSizeV1 records →
        FieldsFit image [] records) := by
  constructor
  · intro hwithin hvalid records hchain
    obtain ⟨_, haccepted⟩ := acceptedImage_of_validate hvalid
    have hparse := hwithin (some (DiscoveryDatabase.empty records.length))
    refine fieldsFit_of_parseRecords haccepted.total_le hchain
      (DiscoveryDatabase.empty_holds records.length) (fun handle hmem => ?_) ?_
    · simp [DiscoveryDatabase.handles, DiscoveryDatabase.empty, EntryArray.visible] at hmem
    · rw [discoveryParse_of_valid hvalid] at hparse
      simpa only [Traced.Respects, Traced.trace_map] using hparse
  · intro hfit db
    cases db with
    | none => exact Traced.respects_pure _
    | some db =>
        by_cases hvalid : discoveryValidate (some image) imageSize = .ok
        · obtain ⟨records, haccepted⟩ := acceptedImage_of_validate hvalid
          have hrecords := parseRecords_within db haccepted.total_le haccepted.chain
            (hfit hvalid records haccepted.chain) (by simp)
          rw [discoveryParse_of_valid hvalid]
          simpa only [Traced.Respects, Traced.trace_map] using hrecords
        · rw [discoveryParse_of_refused hvalid]
          exact Traced.respects_pure _

/-- A 48-byte image: a RESOURCE record of eight bytes, then END. -/
def shortResourceImage : Memory := Memory.ofList [
  0x41, 0x54, 0x44, 0x58, 0x01, 0x00, 0x00, 0x00, 0x30, 0x00, 0x00, 0x00, 0x02, 0x00, 0x00, 0x00,
  0x07, 0x00, 0x00, 0x00, 0x00, 0x00, 0x00, 0x00, 0x8F, 0x03, 0x94, 0x47, 0xB8, 0x45, 0x48, 0x63,
  0x01, 0x00, 0x01, 0x00, 0x08, 0x00, 0x00, 0x00, 0xFF, 0xFF, 0x01, 0x00, 0x08, 0x00, 0x00, 0x00]

/-- The image is accepted, and its resource is read up to byte 63. -/
theorem short_resource_overread :
    discoveryValidate (some shortResourceImage) 48 = .ok ∧
      ImageRead.field 32 63 ∈
        (discoveryParse (some shortResourceImage) 48 (some (DiscoveryDatabase.empty 1))).trace ∧
      recordLength shortResourceImage 32 = 8 ∧ ¬ ParseReadsWithin shortResourceImage 48 := by
  have hread : ImageRead.field 32 63 ∈
      (discoveryParse (some shortResourceImage) 48 (some (DiscoveryDatabase.empty 1))).trace := by
    decide +kernel
  refine ⟨by decide +kernel, hread, by decide +kernel, fun hwithin => ?_⟩
  have hinside := (hwithin _ _ hread).2.1
  exact absurd hinside (by decide +kernel)

end Atarix
