import RAGuardian.Documents.Identities
import RAGuardian.Documents.Maintenance
import RAGuardian.Documents.UploadAtomicity

/-! # What a critical section leaves

The sections that run under the index lock, by their effect on the collection and on the
file index. -/

namespace RAGuardian.Documents

open Fallible

/-! ## The file index -/

/-- What an entry says of a file. -/
structure Lists (filename path : String) (chunks : Nat) (status : String) (entry : Entry) :
    Prop where
  filename : entry.get? "filename" = some (.text filename)
  path : entry.get? "path" = some (.text path)
  chunks : entry.get? "chunks" = some (.integer chunks)
  status : entry.get? "status" = some (.text status)

section

variable {filename other : String} {entry : Entry} {world : World}

theorem isFor_iff : Entry.isFor filename entry ↔
    entry.get? "filename" = some (.text filename) :=
  decide_eq_true_iff

theorem text_unique {value : Option Scalar} {first second : String}
    (one : value = some (.text first)) (two : value = some (.text second)) : first = second := by
  rw [one] at two
  exact Scalar.text.inj (Option.some.inj two)

theorem isFor_unique (first : Entry.isFor filename entry) (second : Entry.isFor other entry) :
    filename = other :=
  text_unique (isFor_iff.mp first) (isFor_iff.mp second)

theorem find?_otherEntries (different : other ≠ filename) :
    (world.otherEntries filename).find? (Entry.isFor other) = world.entry other := by
  rw [World.otherEntries, World.entry, List.find?_filter]
  congr 1
  funext entry
  cases first : Entry.isFor other entry with
  | false => simp
  | true =>
      cases second : Entry.isFor filename entry with
      | false => rfl
      | true => exact absurd (isFor_unique first second) different

theorem find?_otherEntries_self :
    (world.otherEntries filename).find? (Entry.isFor filename) = none := by
  rw [List.find?_eq_none]
  intro entry member
  simpa using (List.mem_filter.mp member).2

/-- The index after an entry is recorded. -/
theorem entry_cons {next : World} (named : Entry.isFor filename entry)
    (recorded : next.entries = entry :: world.otherEntries filename) (wanted : String) :
    next.entry wanted = if wanted = filename then some entry else world.entry wanted := by
  rw [World.entry, recorded]
  by_cases same : wanted = filename
  · rw [if_pos same, same]
    exact List.find?_cons_of_pos named
  · have unnamed : ¬ Entry.isFor wanted entry := fun other => same (isFor_unique other named)
    rw [if_neg same, List.find?_cons_of_neg unnamed, find?_otherEntries same]

/-- The index after an entry is removed. -/
theorem entry_removed {next : World} (removed : next.entries = world.otherEntries filename)
    (wanted : String) :
    next.entry wanted = if wanted = filename then none else world.entry wanted := by
  rw [World.entry, removed]
  by_cases same : wanted = filename
  · rw [if_pos same, same, find?_otherEntries_self]
  · rw [if_neg same, find?_otherEntries same]

/-- No two entries are for one file. -/
def UniqueNames (world : World) : Prop :=
  world.entries.Pairwise fun first second =>
    ∀ filename, Entry.isFor filename first → ¬ Entry.isFor filename second

theorem uniqueNames_removed {next : World} (unique : UniqueNames world)
    (removed : next.entries = world.otherEntries filename) : UniqueNames next := by
  rw [UniqueNames, removed]
  exact unique.filter _

theorem uniqueNames_cons {next : World} (unique : UniqueNames world)
    (named : Entry.isFor filename entry)
    (recorded : next.entries = entry :: world.otherEntries filename) : UniqueNames next := by
  rw [UniqueNames, recorded, List.pairwise_cons]
  refine ⟨?_, unique.filter _⟩
  intro second member wanted first
  cases isFor_unique first named
  simpa using (List.mem_filter.mp member).2

theorem entry_of_mem (unique : UniqueNames world) (member : entry ∈ world.entries)
    (named : Entry.isFor filename entry) : world.entry filename = some entry := by
  rw [World.entry]
  rw [UniqueNames] at unique
  generalize world.entries = entries at unique member
  induction entries with
  | nil => cases member
  | cons first rest induction =>
      rw [List.pairwise_cons] at unique
      rcases List.mem_cons.mp member with rfl | member
      · exact List.find?_cons_of_pos named
      · rw [List.find?_cons_of_neg fun other => unique.1 entry member filename other named]
        exact induction unique.2 member

theorem mem_of_entry (found : world.entry filename = some entry) :
    entry ∈ world.entries ∧ Entry.isFor filename entry :=
  ⟨List.mem_of_find?_eq_some found, List.find?_some found⟩

end

/-! ## A file that is indexed -/

/-- What a section leaves that has indexed a file, or has found its content elsewhere. -/
inductive Listed (parser : Parser) (filename path : String) (content : Content)
    (world next : World) : Prop
  | indexed (documents : List Document) (entry : Entry)
      (nonempty : documents ≠ [])
      (identified : Identified parser path content documents)
      (unheld : Unheld parser content (world.withoutSource path))
      (chunks : next.chunks =
        ((world.withoutSource path).addChunks (chunksFor parser documents)).chunks)
      (entries : next.entries = entry :: world.otherEntries filename)
      (lists : Lists filename path documents.length "indexed" entry)
      (document : entry.get? "document_id" = some (.text (parser.documentHash content)))
  | duplicate (id : String) (chunk : Chunk) (entry : Entry)
      (found : (world.withoutSource path).chunks.get? id = some chunk)
      (same : chunk.metadata.get? "document_id" = some (.text (parser.documentHash content)))
      (chunks : next.chunks = (world.withoutSource path).chunks)
      (entries : next.entries = entry :: world.otherEntries filename)
      (lists : Lists filename path 0 "duplicate" entry)
      (document : entry.get? "document_id" = some (.text (parser.documentHash content)))

section

variable {parser : Parser} {request : Request} {path : String} {content : Content}
  {world base next : World} {parsed : Parsed} {indexed : Indexed}

theorem lists_entryFor {chunks : Nat} {status error documentId sourceId : String}
    {extra : Metadata} (unclaimed : Unclaimed extra) :
    Lists request.filename path chunks status
        (entryFor request path chunks status error
          (recordMetadata request documentId sourceId extra)) ∧
      (entryFor request path chunks status error
        (recordMetadata request documentId sourceId extra)).get? "document_id" =
          some (.text documentId) := by
  refine ⟨⟨?_, ?_, ?_, ?_⟩, ?_⟩ <;>
    rw [entryFor, recordMetadata, get?_merge_eq, get?_merge_eq, unclaimed _ (by decide)] <;>
    simp [Dictionary.get?_set]

theorem findDocument_eq_none {documentId : String}
    (missing : (world.withoutSource path).findDocument documentId path = none) :
    ∀ id chunk, (world.withoutSource path).chunks.get? id = some chunk →
      chunk.metadata.get? "document_id" ≠ some (.text documentId) := by
  intro id chunk stored same
  rw [World.findDocument, Option.map_eq_none_iff, List.find?_eq_none] at missing
  have own := missing (id, chunk)
    (List.mem_filter.mpr ⟨Dictionary.get?_eq_some.mp stored, decide_eq_true same⟩)
  rw [decide_eq_true_iff] at own
  exact own (get?_withoutSource.mp stored).2

theorem findDocument_eq_some {documentId : String} {source : Option Scalar} {count : Nat}
    (found : world.findDocument documentId path = some (source, count)) :
    ∃ id chunk, world.chunks.get? id = some chunk ∧
      chunk.metadata.get? "document_id" = some (.text documentId) := by
  rw [World.findDocument, Option.map_eq_some_iff] at found
  obtain ⟨⟨id, chunk⟩, found, -⟩ := found
  have member := List.mem_filter.mp (List.mem_of_find?_eq_some found)
  exact ⟨id, chunk, Dictionary.get?_eq_some.mpr member.1, of_decide_eq_true member.2⟩

/-- The chunks and the entries of two worlds are the same. -/
structure SameStores (world next : World) : Prop where
  chunks : next.chunks = world.chunks
  entries : next.entries = world.entries

theorem SameStores.withoutSource (same : SameStores world base) (source : String) :
    (base.withoutSource source).chunks = (world.withoutSource source).chunks := by
  rw [World.withoutSource, World.deleteChunks, World.chunksOf, same.chunks]
  rfl

theorem SameStores.otherEntries (same : SameStores world base) (filename : String) :
    base.otherEntries filename = world.otherEntries filename := by
  rw [World.otherEntries, same.entries, World.otherEntries]

/-- What is recorded of the documents of a file. -/
theorem recorded_listed (hashes : parser.Hashes) (nonempty : parsed.documents ≠ [])
    (identified : Identified parser path content parsed.documents)
    (unclaimed : Unclaimed parsed.extra)
    (recorded : Recorded parser request path parsed base indexed next)
    (same : SameStores world base) :
    Listed parser request.filename path content world next := by
  have documentId := identified.documentIdOf nonempty
  have chunks := same.withoutSource path
  have entries := same.otherEntries request.filename
  have identifies : parser.documentHash content ≠ "" := (hashes.document content).1
  cases recorded with
  | indexed new =>
      rw [documentId] at new
      obtain ⟨lists, document⟩ := @lists_entryFor request path parsed.documents.length "indexed"
        "" (documentIdOf parsed.documents) (sourceIdOf parsed.documents) _ unclaimed
      refine .indexed parsed.documents _ nonempty identified ?_ ?_ ?_ lists ?_
      · intro id chunk stored
        rw [← chunks] at stored
        exact findDocument_eq_none (new identifies) id chunk stored
      · change (chunksFor parser parsed.documents).foldl addChunk _ = _
        rw [chunks]
        rfl
      · rw [← entries]
        rfl
      · rw [document, documentId]
  | @duplicate source count error identified' found =>
      rw [documentId] at found
      obtain ⟨id, chunk, stored, held⟩ := findDocument_eq_some found
      rw [chunks] at stored
      have still : Unclaimed ((parsed.extra.set "duplicate_of_source"
          (.text (textOr source ""))).set "indexed_chunks" (.integer count)) := by
        intro key member
        have absent := unclaimed key member
        rw [Dictionary.get?_set_of_ne, Dictionary.get?_set_of_ne, absent] <;>
          (rintro rfl; revert member; decide)
      obtain ⟨lists, document⟩ := @lists_entryFor request path 0 "duplicate" error
        (documentIdOf parsed.documents) (sourceIdOf parsed.documents) _ still
      refine .duplicate id chunk _ stored held chunks ?_ lists ?_
      · rw [← entries]
        rfl
      · rw [document, documentId]

end

/-! ## Reading a file -/

section

variable {parser : Parser} {ocr : OcrService} {faults : UploadFaults} {base : World}
  {path : String} {content : Content}

/-- The collection and the index are the same, and the file is there. -/
def Reads (base : World) (path : String) (content : Content) (world : World) : Prop :=
  SameStores base world ∧ world.files.get? path = some content

theorem SameStores.refl : SameStores base base :=
  ⟨rfl, rfl⟩

theorem leads_readFile_same :
    Leads (Reads base path content) (readFile path)
      (fun read world => read = content ∧ Reads base path content world) (SameStores base) where
  outcome := by
    intro world reads
    rw [readFile_ok reads.2]
    exact ⟨rfl, reads⟩

theorem Reads.writeFile {world : World} (reads : Reads base path content world) {other : String}
    (different : path ≠ other) (written : Content) :
    Reads base path content (world.writeFile other written) := by
  refine ⟨⟨reads.1.chunks, reads.1.entries⟩, ?_⟩
  rw [World.writeFile, Dictionary.get?_set_of_ne different]
  exact reads.2

theorem leads_writeText {fault : Option (String × Option Nat)} {other text : String}
    (different : path ≠ other) :
    Leads (Reads base path content) (writeText fault other text)
      (fun _ => Reads base path content) (SameStores base) := by
  have keeps : Keeps (Reads base path content) (writeText fault other text) := by
    rw [writeText.eq_def]
    split
    · apply Keeps.bind (Keeps.update fun world reads => reads.writeFile different _)
      exact fun _ => Keeps.fail _
    · exact Keeps.fail _
    · exact Keeps.update fun world reads => reads.writeFile different _
  exact keeps.leads fun _ reads => reads.1

theorem leads_failing_same {fault : Option String} :
    Leads (Reads base path content) (failing fault) (fun _ => Reads base path content)
      (SameStores base) :=
  leads_failing fun _ _ reads => reads.1

theorem identified_documentsOf {extra : Metadata} {texts : List String}
    (unclaimed : Unclaimed extra) :
    Identified parser path content (documentsOf parser path content extra texts) := by
  apply identified_map
  rintro ⟨text, index⟩
  apply Identity.merge _ unclaimed
  constructor <;> simp [Dictionary.get?_set]

theorem unclaimed_empty : Unclaimed .empty :=
  fun _ _ => rfl

theorem unclaimed_set {extra : Metadata} {key : String} {value : Scalar}
    (unclaimed : Unclaimed extra) (other : key ∉ ownKeys) : Unclaimed (extra.set key value) := by
  intro wanted member
  rw [Dictionary.get?_set_of_ne, unclaimed wanted member]
  rintro rfl
  exact other member

theorem unclaimed_merge {first second : Metadata} (left : Unclaimed first)
    (right : Unclaimed second) : Unclaimed (merge first second) := by
  intro key member
  rw [get?_merge (right key member), left key member]

theorem unclaimed_ocrMetadata : Unclaimed (ocrMetadata ocr path) := by
  rw [ocrMetadata]
  repeat apply unclaimed_set _ (by decide)
  exact unclaimed_empty

theorem unclaimed_ocrFailure {used : Bool} {error : String} :
    Unclaimed (ocrFailure used error) := by
  rw [ocrFailure]
  repeat apply unclaimed_set _ (by decide)
  exact unclaimed_empty

/-- The documents and the metadata of the images of a file. -/
def ReadsImages (parser : Parser) (path : String) (content : Content)
    (read : List Document × Metadata × String) : Prop :=
  Identified parser path content read.1 ∧ Unclaimed read.2.1

theorem leads_ocrDocuments_identified {documents : List Document} {parseError : String} :
    Leads (Reads base path content)
      (ocrDocumentsForConfig parser ocr faults path documents parseError)
      (fun read world => ReadsImages parser path content read ∧ Reads base path content world)
      (SameStores base) := by
  have nothing : ∀ read : List Document × Metadata × String, read.1 = [] → Unclaimed read.2.1 →
      Leads (Reads base path content) (pure read : Action (List Document × Metadata × String))
        (fun read world => ReadsImages parser path content read ∧ Reads base path content world)
        (SameStores base) := by
    intro read empty unclaimed
    exact Leads.done fun world reads => ⟨⟨empty ▸ identified_nil, unclaimed⟩, reads⟩
  rw [ocrDocumentsForConfig]
  apply Leads.bind leads_failing_same
  intro _
  by_cases any : documents ≠ []
  · rw [if_pos any]
    exact nothing _ rfl unclaimed_empty
  · rw [if_neg any]
    cases refused : ocr.refusal parseError with
    | some message => exact nothing _ rfl unclaimed_empty
    | none =>
        apply Leads.bind leads_readFile_same
        intro read
        apply Leads.given
        rintro rfl
        cases extracted : ocr.extract read with
        | error message => exact nothing _ rfl unclaimed_ocrFailure
        | ok text =>
            dsimp only
            by_cases empty : text = ""
            · rw [if_pos empty]
              exact nothing _ rfl unclaimed_ocrFailure
            · rw [if_neg empty]
              apply Leads.bind (leads_writeText (append_ne_self (by decide)).symm)
              intro _
              cases split : ocr.texts text with
              | error message => exact Leads.fail fun _ reads => reads.1
              | ok texts =>
                  exact Leads.done fun world reads =>
                    ⟨⟨identified_documentsOf unclaimed_ocrMetadata, unclaimed_ocrMetadata⟩, reads⟩

end

/-! ## Uploads -/

section

variable {parser : Parser} {ocr : OcrService} {voice : VoiceService} {faults : UploadFaults}
  {upload : Upload} {world base next : World} {content : Content}

theorem unclaimed_relativeMetadata {metadata : Metadata} (unclaimed : Unclaimed metadata) :
    Unclaimed (upload.relativeMetadata metadata) := by
  rw [Upload.relativeMetadata]
  split
  · exact unclaimed
  · exact unclaimed_set unclaimed (by decide)

theorem unclaimed_audioMetadata : Unclaimed upload.audioMetadata := by
  rw [Upload.audioMetadata]
  apply unclaimed_relativeMetadata
  repeat apply unclaimed_set _ (by decide)
  exact unclaimed_empty

theorem leads_parseUpload_identified {extension : String} :
    Leads (Reads base upload.filePath content)
      (parseUpload parser ocr faults upload.request upload.filePath extension)
      (fun parsed world => (Identified parser upload.filePath content parsed.documents ∧
        Unclaimed parsed.extra) ∧ SameStores base world)
      (SameStores base) := by
  have described : Unclaimed (merge
      (Dictionary.empty.set "source_type" (.text (sourceTypeForExtension extension)))
      upload.request.extraMetadata) :=
    unclaimed_merge (unclaimed_set unclaimed_empty (by decide))
      (unclaimed_relativeMetadata unclaimed_empty)
  have images : ∀ documents parseError, Identified parser upload.filePath content documents →
      Leads (Reads base upload.filePath content)
        (readUploadImages parser ocr faults upload.filePath extension documents (merge
          (Dictionary.empty.set "source_type" (.text (sourceTypeForExtension extension)))
          upload.request.extraMetadata) parseError)
        (fun parsed world => (Identified parser upload.filePath content parsed.documents ∧
          Unclaimed parsed.extra) ∧ SameStores base world)
        (SameStores base) := by
    intro documents parseError identified
    rw [readUploadImages]
    split
    · exact Leads.done fun world reads => ⟨⟨identified, described⟩, reads.1⟩
    · apply Leads.bind leads_ocrDocuments_identified
      rintro ⟨found, ocrExtra, ocrError⟩
      refine Leads.done fun world reads => ⟨⟨?_, ?_⟩, reads.2.1⟩
      · dsimp only
        split
        · exact identified
        · exact reads.1.1
      · exact unclaimed_merge described reads.1.2
  rw [parseUpload]
  apply Leads.bind Leads.read
  intro world
  apply Leads.assuming fun _ reads => reads.1 ▸ reads.2.2
  intro stored
  apply Leads.weaken (Leads.bind (images _ _ (identified_parseFile stored)) ?_)
    fun _ reads => reads.2
  intro parsed
  exact Leads.done fun world read =>
    ⟨⟨read.1.1.applyExtraMetadata read.1.2, read.1.2⟩, read.2⟩

theorem indexSavedDocumentUpload_listed (hashes : parser.Hashes)
    (stored : world.files.get? upload.filePath = some content) {indexed : Indexed}
    (performed : indexSavedDocumentUpload parser ocr faults upload world = .ok indexed next) :
    Listed parser upload.filename upload.filePath content world next := by
  rw [indexSavedDocumentUpload] at performed
  by_cases supported : normalizeExtension upload.extension ∈ documentIndexExtensions
  · rw [if_neg (not_not_intro supported)] at performed
    obtain ⟨parsed, read, parses, rest⟩ := bind_returns performed
    obtain ⟨⟨identified, unclaimed⟩, same⟩ :=
      Leads.ok leads_parseUpload_identified ⟨SameStores.refl, stored⟩ parses
    obtain ⟨nonempty, recorded⟩ := indexParsed_eq_ok rest
    exact recorded_listed hashes nonempty identified unclaimed recorded same
  · rw [if_pos supported] at performed
    cases performed

theorem indexTranscribed_eq_ok {documents : List Document} {indexed : Indexed}
    (performed : indexTranscribed parser faults upload documents world = .ok indexed next) :
    documents ≠ [] ∧ Recorded parser upload.request upload.filePath
      ⟨documents, upload.audioMetadata, "", ""⟩ world indexed next := by
  rw [indexTranscribed] at performed
  obtain ⟨_, _, checked, rest⟩ := bind_returns performed
  rw [assertLocksHealthy_eq_ok checked] at rest
  obtain ⟨replaced, _, deleted, rest⟩ := bind_returns rest
  rw [deleteBySource_eq_ok deleted] at rest
  cases documents with
  | nil =>
      obtain ⟨_, _, _, rest⟩ := bind_returns rest
      obtain ⟨_, _, _, rest⟩ := bind_returns rest
      obtain ⟨_, _, _, raised⟩ := bind_returns rest
      cases raised
  | cons first others =>
      refine ⟨by rintro ⟨⟩, ?_⟩
      obtain ⟨duplicate, _, searched, rest⟩ := bind_returns rest
      obtain ⟨rfl, answer⟩ := findDuplicate_eq_ok searched
      change duplicate = if documentIdOf (first :: others) = "" then none
        else (world.withoutSource upload.filePath).findDocument (documentIdOf (first :: others))
          upload.filePath at answer
      cases duplicate with
      | some found =>
          have identified : documentIdOf (first :: others) ≠ "" := by
            intro missing
            rw [if_pos missing] at answer
            cases answer
          rw [if_neg identified] at answer
          obtain ⟨_, _, checked, rest⟩ := bind_returns rest
          rw [assertLocksHealthy_eq_ok checked] at rest
          obtain ⟨_, _, recorded, rest⟩ := bind_returns rest
          obtain ⟨_, _, cleared, returned⟩ := bind_returns rest
          cases returned
          rw [clearCacheAfter_eq_ok cleared, recordEntry_eq_ok recorded]
          exact .duplicate identified answer.symm
      | none =>
          obtain ⟨_, _, checked, rest⟩ := bind_returns rest
          rw [assertLocksHealthy_eq_ok checked] at rest
          obtain ⟨_, _, added, rest⟩ := bind_returns rest
          rw [addDocuments_eq_ok added] at rest
          obtain ⟨_, _, cleared, rest⟩ := bind_returns rest
          rw [failing_eq_ok cleared] at rest
          obtain ⟨_, _, checked, rest⟩ := bind_returns rest
          rw [assertLocksHealthy_eq_ok checked] at rest
          obtain ⟨_, _, recorded, returned⟩ := bind_returns rest
          cases returned
          rw [recordEntry_eq_ok recorded]
          apply Recorded.indexed
          intro identified
          rw [if_neg identified] at answer
          exact answer.symm

theorem leads_transcribed (hashes : parser.Hashes) :
    Leads (Reads base upload.filePath content) (indexSavedAudioUpload parser voice faults upload)
      (fun _ next => Listed parser upload.filename upload.filePath content base next)
      fun _ => True := by
  have lenient : ∀ {α : Type} {action : Action α} {before : World → Prop}
      {returned : α → World → Prop} {failed : World → Prop},
      Leads before action returned failed → Leads before action returned fun _ => True :=
    fun leads => Leads.cases (fun _ _ _ holds performed => leads.ok holds performed)
      fun _ _ _ _ _ => trivial
  rw [indexSavedAudioUpload]
  apply Leads.bind (lenient leads_failing_same)
  intro _
  apply Leads.bind (lenient leads_readFile_same)
  intro read
  apply Leads.given
  rintro rfl
  cases voice.transcribe read with
  | error message => exact Leads.fail fun _ _ => trivial
  | ok transcript =>
      apply Leads.bind (lenient (keeps_assertLocksHealthy _))
      intro _
      apply Leads.bind (lenient (leads_writeText Upload.transcriptPath_ne_filePath.symm))
      intro _
      cases voice.texts transcript with
      | error message => exact Leads.fail fun _ _ => trivial
      | ok texts =>
          refine Leads.cases ?_ fun _ _ _ _ _ => trivial
          intro world indexed next reads performed
          obtain ⟨nonempty, recorded⟩ := indexTranscribed_eq_ok performed
          exact recorded_listed hashes nonempty (identified_documentsOf unclaimed_audioMetadata)
            unclaimed_audioMetadata recorded reads.1

/-- An upload that is indexed. -/
theorem indexUpload_listed (hashes : parser.Hashes)
    (stored : world.files.get? upload.filePath = some content) {indexed : Indexed}
    (performed : indexUpload parser ocr voice faults upload world = .ok indexed next) :
    Listed parser upload.filename upload.filePath content world next := by
  rw [indexUpload] at performed
  obtain ⟨_, _, checked, rest⟩ := bind_returns performed
  rw [assertLocksHealthy_eq_ok checked] at rest
  obtain ⟨result, _, indexes, rest⟩ := bind_returns rest
  obtain ⟨_, _, checked, returned⟩ := bind_returns rest
  cases returned
  rw [assertLocksHealthy_eq_ok checked]
  rw [indexCommitted] at indexes
  cases kind : upload.kind with
  | file =>
      rw [kind] at indexes
      exact indexSavedDocumentUpload_listed hashes stored indexes
  | audio =>
      rw [kind] at indexes
      exact (leads_transcribed hashes).ok ⟨SameStores.refl, stored⟩ indexes

end

/-! ### Whole calls -/

section

variable {parser : Parser} {ocr : OcrService} {voice : VoiceService} {faults : UploadFaults}
  {upload : Upload} {world base next final : World} {content : Content}

theorem Listed.congr {filename path : String}
    (listed : Listed parser filename path content base next) (before : SameStores world base)
    (after : SameStores next final) : Listed parser filename path content world final := by
  have chunks := before.withoutSource path
  have entries := before.otherEntries filename
  cases listed with
  | indexed documents entry nonempty identified unheld added recorded lists document =>
      refine .indexed documents entry nonempty identified ?_ ?_ ?_ lists document
      · intro id chunk stored
        rw [← chunks] at stored
        exact unheld id chunk stored
      · rw [after.chunks, added]
        change (chunksFor parser documents).foldl addChunk _ = _
        rw [chunks]
        rfl
      · rw [after.entries, recorded, entries]
  | duplicate id chunk entry found same kept recorded lists document =>
      rw [chunks] at found
      refine .duplicate id chunk entry found same ?_ ?_ lists document
      · rw [after.chunks, kept, chunks]
      · rw [after.entries, recorded, entries]

/-- The entries of other files stay. -/
theorem Listed.entry_of_ne {filename path other : String}
    (listed : Listed parser filename path content world next) (different : other ≠ filename) :
    next.entry other = world.entry other := by
  cases listed with
  | indexed documents entry nonempty identified unheld added recorded lists document =>
      rw [entry_cons (isFor_iff.mpr lists.filename) recorded, if_neg different]
  | duplicate id chunk entry found same kept recorded lists document =>
      rw [entry_cons (isFor_iff.mpr lists.filename) recorded, if_neg different]

theorem sameStores_committed : SameStores world (upload.committed world) :=
  ⟨committedUpload_chunks, committedUpload_entries⟩

theorem sameStores_removeBackup {created : Bool} {backup : String} :
    SameStores world (removeBackup faults created backup world) := by
  rw [removeBackup]
  split <;> exact ⟨rfl, rfl⟩

theorem SameStores.trans (first : SameStores world base) (second : SameStores base next) :
    SameStores world next :=
  ⟨second.chunks.trans first.chunks, second.entries.trans first.entries⟩

/-- What the sections leave of the stores if they raise: every chunk, and the entries, of
which one may have been put back. -/
structure StoresRestored (filename : String) (world next : World) : Prop where
  chunks : ∀ id, next.chunks.get? id = world.chunks.get? id
  entries : next.entries = world.entries ∨
    next.entries = (world.entry filename).toList ++ world.otherEntries filename

theorem StoresRestored.entry {filename : String} (restored : StoresRestored filename world next)
    (wanted : String) : next.entry wanted = world.entry wanted := by
  rcases restored.entries with same | returned
  · rw [World.entry, same, World.entry]
  · cases found : world.entry filename with
    | none =>
        rw [found] at returned
        rw [entry_removed returned]
        split
        · rename_i same
          rw [same, found]
        · rfl
    | some entry =>
        rw [found] at returned
        rw [entry_cons (mem_of_entry found).2 returned]
        split
        · rename_i same
          rw [same, found]
        · rfl

theorem StoresRestored.unique {filename : String} (restored : StoresRestored filename world next)
    (unique : UniqueNames world) : UniqueNames next := by
  rcases restored.entries with same | returned
  · rw [UniqueNames, same]
    exact unique
  · cases found : world.entry filename with
    | none =>
        rw [found] at returned
        exact uniqueNames_removed unique returned
    | some entry =>
        rw [found] at returned
        exact uniqueNames_cons unique (mem_of_entry found).2 returned

theorem StoresRestored.subset {filename : String} (restored : StoresRestored filename world next) :
    ∀ entry ∈ next.entries, entry ∈ world.entries := by
  intro entry member
  rcases restored.entries with same | returned
  · rw [← same]
    exact member
  · rw [returned, List.mem_append, Option.mem_toList] at member
    rcases member with found | other
    · exact (mem_of_entry found).1
    · exact (List.mem_filter.mp other).1

/-- What an upload leaves of the stores. -/
theorem indexStagedUpload_stores (hashes : parser.Hashes) (recovers : faults.Recovers)
    (staged : Staged upload world) (accounted : upload.Accounted world)
    (stored : world.files.get? upload.stagedFilePath = some content) :
    match indexStagedUpload parser ocr voice faults upload world with
    | .ok _ next => Listed parser upload.filename upload.filePath content world next ∧
        next.files.get? upload.filePath = some content
    | .error _ next => StoresRestored upload.filename world next := by
  have holding := @holding_committed parser ocr upload world content staged stored
  rcases indexStagedUpload_cases parser ocr voice recovers staged stored with
    ⟨failure, next, ended, restored, entries⟩ | ⟨indexed, next, performed, ended⟩ |
      ⟨failure, next, performed, ended⟩
  · rw [ended]
    exact ⟨restored.chunks, .inl entries⟩
  · rw [ended]
    have listed := indexUpload_listed hashes holding.2 performed
    have kept := Leads.ok keeps_indexUpload holding performed
    refine ⟨listed.congr sameStores_committed
      (sameStores_removeBackup.trans sameStores_removeBackup), ?_⟩
    exact (uploadReplaced_of_kept recovers staged kept).file.trans stored
  · rw [ended]
    have kept := Leads.error keeps_indexUpload holding performed
    have elsewhere : SameElsewhere upload.filePath world next := by
      intro id chunk other
      rw [kept.chunks id chunk other, committedUpload_chunks]
    exact ⟨get?_undo_chunks accounted rfl elsewhere, .inr (entries_undo kept)⟩

end

/-! ## Data sources -/

section

variable {parser : Parser} {faults : Faults} {request : Request} {world next : World}
  {content : Content}

theorem sameStores_cleanStaged : SameStores world (cleanStaged faults request world) :=
  ⟨cleanStaged_chunks world, cleanStaged_entries world⟩

theorem sameStores_cleanBackup {progress : Progress} :
    SameStores world (cleanBackup faults request progress world) :=
  ⟨cleanBackup_chunks progress world, cleanBackup_entries progress world⟩

theorem sameStores_committedRequest : SameStores world (request.committed world) where
  chunks := by simp
  entries := by simp

/-- A request whose metadata leave the keys of the indexer alone, without a function that
reads images. -/
structure Request.Unclaimed (request : Request) : Prop where
  metadata : Documents.Unclaimed request.extraMetadata
  text : request.ocr = none

theorem Request.Unclaimed.plain (unclaimed : request.Unclaimed) : request.Plain where
  source := unclaimed.metadata _ (by decide)
  filename := unclaimed.metadata _ (by decide)
  ocr := by
    intro ocr member
    rw [unclaimed.text] at member
    cases member

/-- A file that was parsed where it is, and indexed. -/
theorem parsed_listed (hashes : parser.Hashes) (unclaimed : request.Unclaimed)
    {path extension : String} {parsed : Parsed} {indexed : Indexed} {base after : World}
    (stored : base.files.get? path = some content)
    (parses : parseDocument parser request path extension base = .ok parsed after)
    (nonempty : parsed.documents ≠ [])
    (recorded : Recorded parser request path parsed base indexed next)
    (same : SameStores world base) :
    Listed parser request.filename path content world next := by
  obtain ⟨extra, documents⟩ := parseDocument_eq_ok_of_text unclaimed.text parses
  have described : Documents.Unclaimed parsed.extra := by
    rw [extra]
    exact unclaimed_merge (unclaimed_set unclaimed_empty (by decide)) unclaimed.metadata
  have identified : Identified parser path content parsed.documents := by
    rw [documents]
    exact (identified_parseFile stored).applyExtraMetadata described
  exact recorded_listed hashes nonempty identified described recorded same

theorem indexSavedDocument_listed (hashes : parser.Hashes) (unclaimed : request.Unclaimed)
    {path : String} {indexed : Indexed} (stored : world.files.get? path = some content)
    (performed : indexSavedDocument parser faults request path world = .ok indexed next) :
    Listed parser request.filename path content world next ∧ next.files = world.files := by
  obtain ⟨parsed, parses, nonempty, recorded⟩ := indexSavedDocument_eq_ok performed
  exact ⟨parsed_listed hashes unclaimed stored parses nonempty recorded .refl, recorded.files⟩

theorem indexStagedDocument_listed (hashes : parser.Hashes) (unclaimed : request.Unclaimed)
    (apart : Apart request world)
    (stored : world.files.get? request.stagedFilePath = some content) {indexed : Indexed}
    (performed : indexStagedDocument parser faults request world = .ok indexed next) :
    Listed parser request.filename request.filePath content world next := by
  obtain ⟨parsed, indexedWorld, parses, nonempty, recorded, rfl⟩ :=
    indexStagedDocument_eq_ok performed
  have placed : (request.committed world).files.get? request.filePath = some content := by
    rw [apart.get?_committed, if_pos rfl, stored]
  have listed := parsed_listed hashes unclaimed placed parses nonempty recorded
    (@sameStores_committedRequest request _)
  exact listed.congr .refl (sameStores_cleanBackup.trans sameStores_cleanStaged)

theorem indexStagedDocument_stores (recovers : faults.Recovers) (unclaimed : request.Unclaimed)
    (apart : Apart request world) {message : String}
    (performed : indexStagedDocument parser faults request world =
      .error (.raised message) next) :
    StoresRestored request.filename world next := by
  obtain rfl | ⟨moved, progress, interrupted, rfl⟩ :=
    indexStagedDocument_undone recovers unclaimed.plain apart performed
  · exact ⟨fun _ => rfl, .inl rfl⟩
  · refine ⟨?_, ?_⟩
    · intro id
      rw [cleanStaged_chunks]
      exact (undone_of_interrupted apart interrupted).chunks id
    · rw [cleanStaged_entries]
      exact entries_undo_of_interrupted interrupted

end

/-! ## Deletions -/

section

variable {base : KnowledgeBase} {world next : World} {filename path : String} {entry : Entry}

theorem sameStores_deleteFile : SameStores world (base.deleteFile path world) := by
  rw [KnowledgeBase.deleteFile]
  split <;> exact ⟨rfl, rfl⟩

theorem deleteIndexedFile_eq_ok {raw : String} {answer : Deleted}
    (performed : base.deleteIndexedFile raw world = .ok answer next) :
    ∃ entry, world.entry (base.names.safeFileIndexKey raw) = some entry ∧
      answer.filename = base.names.safeFileIndexKey raw ∧
      next = base.deleted (base.names.safeFileIndexKey raw) entry world := by
  rw [KnowledgeBase.deleteIndexedFile] at performed
  dsimp only at performed
  split at performed
  · cases performed
  · split at performed
    · cases performed
    · rename_i entry found
      rw [EStateM.Result.ok.injEq] at performed
      refine ⟨entry, found, ?_, performed.2.symm⟩
      rw [← performed.1]

theorem deleteIndexedFile_eq_error {raw : String} {failure : Failure}
    (performed : base.deleteIndexedFile raw world = .error failure next) : next = world := by
  rw [KnowledgeBase.deleteIndexedFile] at performed
  dsimp only at performed
  split at performed
  · cases performed
    rfl
  · split at performed
    · cases performed
      rfl
    · cases performed

theorem sameStores_deleted :
    SameStores ((world.withoutSource (base.sourceOf entry filename)).removeEntry filename)
      (base.deleted filename entry world) :=
  sameStores_deleteFile.trans (sameStores_deleteFile.trans sameStores_deleteFile)

theorem deleted_chunks : (base.deleted filename entry world).chunks =
    (world.withoutSource (base.sourceOf entry filename)).chunks :=
  sameStores_deleted.chunks

theorem deleted_entries : (base.deleted filename entry world).entries =
    world.otherEntries filename :=
  sameStores_deleted.entries

end

/-! ## Rebuilds -/

section

variable {base : KnowledgeBase} {reader : RebuildReader} {job : RebuildJob} {start world : World}
  {entry : Entry} {content : Content}

/-- The documents of an entry, as they are read. -/
structure ReadFor (base : KnowledgeBase) (parser : Parser) (entry : Entry) (start : World)
    (content : Content) (source : RebuildSource) : Prop where
  path : source.path = base.sourceOf entry (base.entryFilename entry)
  stored : start.files.get? source.path = some content
  identified : Identified parser source.path content source.documents
  unclaimed : Unclaimed source.extra

theorem leads_safeRebuildSourcePath :
    Leads (· = start) (base.safeRebuildSourcePath entry)
      (fun path world => (path = base.sourceOf entry (base.entryFilename entry) ∧
        ∃ content, start.files.get? path = some content) ∧ world = start)
      (SameStores start) := by
  have stays : ∀ message, Leads (· = start) (throw (.raised message) : Action String)
      (fun path world => (path = base.sourceOf entry (base.entryFilename entry) ∧
        ∃ content, start.files.get? path = some content) ∧ world = start)
      (SameStores start) :=
    fun message => Leads.fail fun _ same => same ▸ .refl
  rw [KnowledgeBase.safeRebuildSourcePath]
  apply Leads.bind Leads.read
  intro world
  by_cases inside : ¬ Text.startsWith (base.uploadFolder ++ "/")
      (base.sourceOf entry (base.entryFilename entry))
  · rw [if_pos inside]
    exact (stays _).weaken fun _ read => read.2
  · rw [if_neg inside]
    by_cases unsupported : pathExtension (base.sourceOf entry (base.entryFilename entry)) ∉
        documentUploadExtensions ++ audioUploadExtensions
    · rw [if_pos unsupported]
      exact (stays _).weaken fun _ read => read.2
    · rw [if_neg unsupported]
      by_cases missing : ¬ world.isFile (base.sourceOf entry (base.entryFilename entry))
      · rw [if_pos missing]
        exact (stays _).weaken fun _ read => read.2
      · rw [if_neg missing]
        refine Leads.done ?_
        rintro _ ⟨rfl, rfl⟩
        exact ⟨⟨rfl, Option.isSome_iff_exists.mp (not_not.mp missing)⟩, rfl⟩

/-- What is read of an entry, where its path is known. -/
def ReadAt (parser : Parser) (path : String) (content : Content) (source : RebuildSource) :
    Prop :=
  source.path = path ∧ Identified parser path content source.documents ∧ Unclaimed source.extra

variable {path : String}

theorem leads_transcriptDocuments {transcriptPath : String} :
    Leads (Reads start path content) (reader.transcriptDocuments path transcriptPath)
      (fun source world => ReadAt reader.parser path content source ∧ SameStores start world)
      (SameStores start) := by
  rw [RebuildReader.transcriptDocuments]
  apply Leads.bind Leads.read
  intro world
  by_cases missing : ¬ world.isFile transcriptPath
  · rw [if_pos missing]
    exact Leads.fail fun _ read => read.2.1
  · rw [if_neg missing]
    have reading : Leads (Reads start path content) (readFile transcriptPath)
        (fun _ => Reads start path content) (SameStores start) := by
      rw [readFile]
      apply Leads.bind Leads.read
      intro world
      cases world.files.get? transcriptPath with
      | none => exact Leads.fail fun _ read => read.2.1
      | some transcript => exact Leads.done fun _ read => read.2
    apply Leads.weaken (Leads.bind reading ?_) fun _ read => read.2
    intro transcript
    cases reader.transcriptTexts transcript with
    | error message => exact Leads.fail fun _ reads => reads.1
    | ok texts =>
        apply Leads.bind leads_readFile_same
        intro read
        apply Leads.given
        rintro rfl
        refine Leads.done fun world reads =>
          ⟨⟨rfl, identified_documentsOf ?_, ?_⟩, reads.1⟩
        · repeat apply unclaimed_set _ (by decide)
          exact unclaimed_empty
        · exact unclaimed_set unclaimed_empty (by decide)

theorem leads_textDocuments {extension : String} :
    Leads (Reads start path content) (reader.textDocuments path extension)
      (fun source world => ReadAt reader.parser path content source ∧ SameStores start world)
      (SameStores start) := by
  rw [RebuildReader.textDocuments]
  apply Leads.bind Leads.read
  intro world
  apply Leads.assuming fun _ read => read.1 ▸ read.2.2
  intro stored
  cases processed : processFile reader.parser path extension world with
  | error message => exact Leads.fail fun _ read => read.2.1
  | ok documents =>
      exact Leads.done fun _ read =>
        ⟨⟨rfl, identified_processFile stored processed, unclaimed_empty⟩, read.2.1⟩

theorem leads_pdfDocuments :
    Leads (Reads start path content) (reader.pdfDocuments path)
      (fun source world => ReadAt reader.parser path content source ∧ SameStores start world)
      (SameStores start) := by
  rw [RebuildReader.pdfDocuments]
  apply Leads.bind Leads.read
  intro world
  apply Leads.assuming fun _ read => read.1 ▸ read.2.2
  intro stored
  have parsed := @identified_parseFile reader.parser path content world "pdf" stored
  apply Leads.weaken (Leads.bind leads_ocrDocuments_identified ?_) fun _ read => read.2
  rintro ⟨found, ocrExtra, ocrError⟩
  dsimp only
  split
  · exact Leads.done fun _ reads => ⟨⟨rfl, reads.1⟩, reads.2.1⟩
  · split
    · exact Leads.done fun _ reads => ⟨⟨rfl, parsed, unclaimed_empty⟩, reads.2.1⟩
    · exact Leads.done fun _ reads => ⟨⟨rfl, parsed, reads.1.2⟩, reads.2.1⟩

theorem leads_documentsForRebuild :
    Leads (· = start) (documentsForRebuild base reader entry)
      (fun source world => (∃ content, ReadFor base reader.parser entry start content source) ∧
        SameStores start world)
      (SameStores start) := by
  rw [documentsForRebuild]
  apply Leads.bind leads_safeRebuildSourcePath
  intro path
  apply Leads.given
  rintro ⟨same, content, stored⟩
  have read : ∀ action : Action RebuildSource, Leads (Reads start path content) action
      (fun source world => ReadAt reader.parser path content source ∧ SameStores start world)
      (SameStores start) →
      Leads (· = start) action
        (fun source world => (∃ content, ReadFor base reader.parser entry start content source) ∧
          SameStores start world)
        (SameStores start) := by
    intro action leads
    apply Leads.strengthen (leads.weaken ?_)
    · rintro source world ⟨⟨rfl, identified, unclaimed⟩, stores⟩
      exact ⟨⟨content, same, stored, identified, unclaimed⟩, stores⟩
    · rintro _ rfl
      exact ⟨.refl, stored⟩
  dsimp only
  split
  · exact read _ leads_transcriptDocuments
  · split
    · exact read _ leads_textDocuments
    · exact read _ leads_pdfDocuments

/-! ### One entry -/

/-- Keys of an entry that say where its file and its chunks are. -/
def listKeys : List String :=
  ["filename", "path", "chunks", "status"]

theorem lists_indexEntry {filename path now status error : String} {chunks : Nat}
    {metadata : Metadata} (absent : ∀ key ∈ listKeys, metadata.get? key = none) :
    Lists filename path chunks status
      (indexEntry filename path now chunks status error metadata) := by
  constructor <;> rw [indexEntry, get?_merge (absent _ (by decide))] <;>
    simp [Dictionary.get?_set]

theorem ingestionMetadata_absent {key : String} (other : key ∉ ingestionMetadataKeys) :
    (ingestionMetadataFromEntry entry).get? key = none := by
  rw [ingestionMetadataFromEntry]
  refine List.foldlRecOn (motive := fun metadata : Metadata => metadata.get? key = none)
    ingestionMetadataKeys _ rfl ?_
  intro metadata absent first member
  have apart : key ≠ first := by
    rintro rfl
    exact other member
  cases entry.get? first with
  | none => exact absent
  | some value =>
      dsimp only
      by_cases empty : value = .text ""
      · rw [if_pos empty]
        exact absent
      · rw [if_neg empty, Dictionary.get?_set_of_ne apart, absent]

theorem unclaimed_ingestionMetadata : Unclaimed (ingestionMetadataFromEntry entry) := by
  intro key member
  apply ingestionMetadata_absent
  revert key
  decide

theorem rebuiltMetadata_absent {source : RebuildSource} {duplicateOf : Option String}
    (unclaimed : Unclaimed source.extra) :
    ∀ key ∈ listKeys, (rebuiltMetadata job entry source duplicateOf).get? key = none := by
  have extra : ∀ key ∈ listKeys,
      (merge source.extra (ingestionMetadataFromEntry entry)).get? key = none := by
    intro key member
    have owned : key ∈ ownKeys := by
      revert key
      decide
    exact unclaimed_merge unclaimed unclaimed_ingestionMetadata key owned
  intro key member
  have absent := extra key member
  simp only [listKeys, List.mem_cons, List.not_mem_nil, or_false] at member
  rw [rebuiltMetadata, indexProfileMetadata]
  cases source.documents with
  | nil =>
      rcases member with rfl | rfl | rfl | rfl <;>
        simp [get?_merge_eq, Dictionary.get?_set]
  | cons first rest =>
      cases duplicateOf with
      | none =>
          rcases member with rfl | rfl | rfl | rfl <;>
            simp [get?_merge_eq, Dictionary.get?_set, absent]
      | some other =>
          rcases member with rfl | rfl | rfl | rfl <;>
            simp [get?_merge_eq, Dictionary.get?_set, absent]

/-- What a turn of the loop leaves. -/
inductive Rebuilt (parser : Parser) (filename path : String) (state next : RebuildState) : Prop
  | skipped (status : String) (entry : Entry)
      (unlisted : status ∉ ["indexed", "duplicate"])
      (chunks : next.world.chunks = state.world.chunks)
      (entries : next.world.entries = entry :: state.world.otherEntries filename)
      (lists : Lists filename path 0 status entry)
      (seen : next.seen = state.seen)
  | duplicate (content : Content) (other : String) (entry : Entry)
      (stored : state.world.files.get? path = some content)
      (found : state.seen.get? (parser.documentHash content) = some other)
      (chunks : next.world.chunks = state.world.chunks)
      (entries : next.world.entries = entry :: state.world.otherEntries filename)
      (lists : Lists filename path 0 "duplicate" entry)
      (seen : next.seen = state.seen)
  | indexed (content : Content) (documents : List Document) (entry : Entry)
      (stored : state.world.files.get? path = some content)
      (new : state.seen.get? (parser.documentHash content) = none)
      (nonempty : documents ≠ [])
      (identified : Identified parser path content documents)
      (chunks : next.world.chunks = (state.world.addChunks (chunksFor parser documents)).chunks)
      (entries : next.world.entries = entry :: state.world.otherEntries filename)
      (lists : Lists filename path documents.length "indexed" entry)
      (seen : next.seen = state.seen.set (parser.documentHash content) path)

theorem recordRebuilt_lists (base : KnowledgeBase) (job : RebuildJob) {index chunks : Nat}
    {source : RebuildSource} {status error : String} {duplicateOf : Option String}
    (unclaimed : Unclaimed source.extra) (start world : World)
    (same : start.entries = world.entries) :
    ∃ recorded, (recordRebuilt base job index entry source chunks status error duplicateOf
        world).entries = recorded :: start.otherEntries (base.entryFilename entry) ∧
      Lists (base.entryFilename entry) source.path chunks status recorded := by
  rw [World.otherEntries, same]
  exact ⟨_, rfl, lists_indexEntry (rebuiltMetadata_absent unclaimed)⟩

theorem rebuildDocuments_rebuilt (hashes : reader.parser.Hashes) {index : Nat}
    {source : RebuildSource} {state : RebuildState}
    (read : ReadFor base reader.parser entry start content source)
    (same : SameStores start world) (before : state.world = start) :
    Rebuilt reader.parser (base.entryFilename entry)
      (base.sourceOf entry (base.entryFilename entry)) state
      (rebuildDocuments base reader job index entry source { state with world }) := by
  obtain ⟨path, stored, identified, unclaimed⟩ := read
  subst before
  have identifies : reader.parser.documentHash content ≠ "" := (hashes.document content).1
  rw [rebuildDocuments, ← path]
  cases documents : source.documents with
  | nil =>
      obtain ⟨recorded, entries, lists⟩ :=
        recordRebuilt_lists base job unclaimed state.world world same.entries.symm
      exact .skipped "empty" recorded (by decide) same.chunks entries lists rfl
  | cons first rest =>
      rw [documents] at identified
      have documentId := identified.documentIdOf (List.cons_ne_nil first rest)
      dsimp only
      rw [documentId, if_neg identifies]
      cases found : state.seen.get? (reader.parser.documentHash content) with
      | some other =>
          obtain ⟨recorded, entries, lists⟩ :=
            recordRebuilt_lists base job unclaimed state.world world same.entries.symm
          exact .duplicate content other recorded stored found same.chunks entries lists rfl
      | none =>
          obtain ⟨recorded, entries, lists⟩ := recordRebuilt_lists base job unclaimed
            state.world (world.addChunks (chunksFor reader.parser (first :: rest)))
            same.entries.symm
          refine .indexed content (first :: rest) recorded stored found
            (List.cons_ne_nil first rest) identified ?_ entries lists (if_neg identifies)
          change (chunksFor reader.parser (first :: rest)).foldl addChunk world.chunks = _
          rw [same.chunks]
          rfl

theorem rebuildEntry_rebuilt (hashes : reader.parser.Hashes) {index : Nat}
    {state : RebuildState} :
    Rebuilt reader.parser (base.entryFilename entry)
      (base.sourceOf entry (base.entryFilename entry)) state
      (rebuildEntry base reader job index entry state) := by
  have leads := @leads_documentsForRebuild base reader state.world entry
  rw [rebuildEntry]
  dsimp only
  cases read : documentsForRebuild base reader entry state.world with
  | ok source world =>
      obtain ⟨⟨content, path, stored, identified, unclaimed⟩, same⟩ := leads.ok rfl read
      have applied := identified.applyExtraMetadata (@unclaimed_ingestionMetadata entry)
      exact rebuildDocuments_rebuilt hashes ⟨path, stored, applied, unclaimed⟩ same rfl
  | error failure world =>
      have same := leads.error rfl read
      have entries := same.otherEntries (base.entryFilename entry)
      have absent : ∀ key ∈ listKeys,
          (indexProfileMetadata job.profile .empty).get? key = none := by
        intro key member
        rw [indexProfileMetadata, get?_merge (Dictionary.get?_empty key)]
        simp only [listKeys, List.mem_cons, List.not_mem_nil, or_false] at member
        rcases member with rfl | rfl | rfl | rfl <;> simp [Dictionary.get?_set]
      exact .skipped "error" _ (by decide) same.chunks (congrArg _ entries)
        (lists_indexEntry absent) rfl

/-- The contents of all chunks were seen. -/
def SeenAll (parser : Parser) (state : RebuildState) : Prop :=
  ∀ id chunk content, state.world.chunks.get? id = some chunk →
    chunk.metadata.get? "document_id" = some (.text (parser.documentHash content)) →
    state.seen.get? (parser.documentHash content) ≠ none

/-- Chunks are only added, under their ids and with contents that were seen. -/
theorem Rebuilt.chunks {parser : Parser} {filename path : String} {state next : RebuildState}
    (rebuilt : Rebuilt parser filename path state next) (hashes : parser.Hashes)
    (keyed : Keyed parser state.world) (seen : SeenAll parser state) :
    Keyed parser next.world ∧ SeenAll parser next ∧
      ∀ id chunk, state.world.chunks.get? id = some chunk →
        next.world.chunks.get? id = some chunk := by
  have unchanged : next.world.chunks = state.world.chunks → next.seen = state.seen →
      Keyed parser next.world ∧ SeenAll parser next ∧
        ∀ id chunk, state.world.chunks.get? id = some chunk →
          next.world.chunks.get? id = some chunk := by
    intro chunks same
    rw [Keyed, SeenAll, chunks, same]
    exact ⟨keyed, seen, fun _ _ stored => stored⟩
  cases rebuilt with
  | skipped status recorded unlisted chunks entries lists same => exact unchanged chunks same
  | duplicate content other recorded stored found chunks entries lists same =>
      exact unchanged chunks same
  | indexed content documents recorded stored new nonempty identified chunks entries lists same =>
      have unheld : Unheld parser content state.world :=
        fun id chunk present held => seen id chunk content present held new
      have added := @get?_addChunks_identified parser state.world path content documents hashes
        identified keyed unheld
      refine ⟨?_, ?_, ?_⟩
      · intro id chunk present
        rw [chunks] at present
        exact keyed.addChunks hashes identified unheld id chunk present
      · intro id chunk other present held
        rw [chunks, added] at present
        rw [same, Dictionary.get?_set]
        split
        · rintro ⟨⟩
        · rename_i different
          rcases present with old | fresh
          · exact seen id chunk other old held
          · obtain ⟨_, -, identity⟩ := mem_chunksFor hashes identified fresh
            exact absurd (text_unique held identity.document) different
      · intro id chunk present
        rw [chunks, added]
        exact .inl present

end

end RAGuardian.Documents
