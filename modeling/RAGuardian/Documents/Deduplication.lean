import RAGuardian.Documents.IndexConsistency

/-! # Duplicates and what they depend on

A file whose content is indexed already gets no chunks of its own: it is found by the
chunks of another file. -/

namespace RAGuardian.Documents

open Execution Fallible

/-! ## Saving files -/

/-- The stores a call leaves if it returns. A call that raises is undone. -/
def savedBy {α : Type} (action : Action α) (before saved : World) : World :=
  match action saved with
  | .ok _ next => next
  | .error _ _ => before

/-- What is done to the files of a knowledge base. A rebuild is complete: it takes the
entries that the index has when it runs. -/
inductive DocumentEvent
  | upload (upload : Upload) (content : Content)
  | sync (request : Request) (content : Content)
  | delete (filename : String)
  | rebuild (profile ocrProfile : String) (now : Nat → String)

section

variable (indexer : Indexer)

/-- One event. -/
def DocumentEvent.after (event : DocumentEvent) (world : World) : World :=
  match event with
  | upload file content =>
      savedBy (indexSavedDocumentUpload indexer.reader.parser indexer.reader.ocr {} file) world
        (world.writeFile file.filePath content)
  | sync request content =>
      savedBy (indexSavedDocument indexer.reader.parser {} request request.filePath) world
        (world.writeFile request.filePath content)
  | delete filename => savedBy (indexer.base.deleteIndexedFile filename) world world
  | rebuild profile ocrProfile now =>
      rebuildIndex indexer.base indexer.reader ⟨world.entries, profile, ocrProfile, now⟩ world

/-- Files are saved under safe keys, and metadata leave the keys of the indexer alone. -/
def DocumentEvent.Allowed (event : DocumentEvent) : Prop :=
  match event with
  | upload file _ => SafeKey indexer file.filename ∧ file.filePath ≠ ""
  | sync request _ =>
      SafeKey indexer request.filename ∧ request.filePath ≠ "" ∧ request.Unclaimed
  | _ => True

end

/-- An entry is listed as indexed or as a duplicate, and its file is there. -/
structure Shows (world : World) (entry : Entry) (path : String) (content : Content) : Prop where
  member : entry ∈ world.entries
  status : entry.get? "status" = some (.text "indexed") ∨
    entry.get? "status" = some (.text "duplicate")
  placed : entry.get? "path" = some (.text path)
  stored : world.files.get? path = some content

/-- A chunk of a source has the document id of a content. -/
def Carries (parser : Parser) (world : World) (source : Option Scalar → Prop)
    (content : Content) : Prop :=
  ∃ id chunk, world.chunks.get? id = some chunk ∧ source chunk.source ∧
    chunk.metadata.get? "document_id" = some (.text (parser.documentHash content))

/-- The content of every listed file can be found. -/
def Findable (parser : Parser) (world : World) : Prop :=
  ∀ entry path content, Shows world entry path content →
    Carries parser world (fun _ => True) content

/-- No listed file besides the one that is saved or deleted has the content of the chunks
that are deleted, unless the new content is the same. -/
def DocumentEvent.Spares (indexer : Indexer) (event : DocumentEvent) (world : World) : Prop :=
  match event with
  | upload file content =>
      ∀ entry path stored, Shows world entry path stored → ¬ Entry.isFor file.filename entry →
        path ≠ file.filePath → stored ≠ content →
          ¬ Carries indexer.reader.parser world (· = some (.text file.filePath)) stored
  | sync request content =>
      ∀ entry path stored, Shows world entry path stored → ¬ Entry.isFor request.filename entry →
        path ≠ request.filePath → stored ≠ content →
          ¬ Carries indexer.reader.parser world (· = some (.text request.filePath)) stored
  | delete raw =>
      let filename := indexer.base.names.safeFileIndexKey raw
      ∀ removed, world.entry filename = some removed →
        ∀ entry path stored, Shows world entry path stored → ¬ Entry.isFor filename entry →
          (indexer.base.deletesFile (indexer.base.sourceOf removed filename) world →
            path ≠ indexer.base.sourceOf removed filename) →
          ¬ Carries indexer.reader.parser world
            (· = some (.text (indexer.base.sourceOf removed filename))) stored
  | rebuild _ _ _ => True

/-- Every file gives at least one chunk. -/
def Parser.Full (parser : Parser) : Prop :=
  ∀ extension content, ∃ first rest, parser.texts extension content = .ok (first :: rest)

/-! ## Files that are saved -/

section

variable {parser : Parser} {ocr : OcrService} {path extension : String} {world next : World}
  {content : Content}

theorem keeps_readFile {invariant : World → Prop} : Keeps invariant (readFile path) := by
  rw [readFile]
  apply Keeps.bind Keeps.read
  intro world
  cases world.files.get? path with
  | none => exact Keeps.fail _
  | some content => exact Keeps.done _

/-- No images of a file are read that gives documents, and no text is written. -/
theorem keeps_ocrDocuments (full : parser.Full) {parseError : String} :
    Keeps (· = world) (ocrDocumentsForConfig parser ocr {} path
      (parseFile parser path extension world).1 parseError) := by
  rw [ocrDocumentsForConfig]
  apply Keeps.bind (keeps_failing _)
  intro _
  cases stored : world.files.get? path with
  | none =>
      by_cases some : (parseFile parser path extension world).1 ≠ []
      · rw [if_pos some]
        exact Keeps.done _
      · rw [if_neg some]
        cases ocr.refusal parseError with
        | some message => exact Keeps.done _
        | none =>
            have missing : Leads (· = world) (readFile path) (fun _ _ => False) (· = world) := by
              rw [readFile]
              apply Leads.readAt
              rw [stored]
              exact Leads.fail fun _ same => same
            apply Leads.bind missing
            intro _
            exact ⟨fun _ impossible => impossible.elim⟩
  | some content =>
      obtain ⟨first, rest, texts⟩ := full extension content
      have some : (parseFile parser path extension world).1 ≠ [] := by
        rw [parseFile, processFile, stored]
        dsimp only
        rw [texts]
        rintro ⟨⟩
      rw [if_pos some]
      exact Keeps.done _

theorem keeps_parseUpload (full : parser.Full) {upload : Upload} :
    Keeps (· = world) (parseUpload parser ocr {} upload.request upload.filePath extension) := by
  rw [parseUpload]
  apply Leads.readAt
  refine Keeps.bind ?_ fun _ => Keeps.done _
  rw [readUploadImages]
  split
  · exact Keeps.done _
  · exact Keeps.bind (keeps_ocrDocuments full) fun _ => Keeps.done _

theorem indexSavedDocumentUpload_saved (hashes : parser.Hashes) (full : parser.Full)
    {upload : Upload} {indexed : Indexed}
    (stored : world.files.get? upload.filePath = some content)
    (performed : indexSavedDocumentUpload parser ocr {} upload world = .ok indexed next) :
    Listed parser upload.filename upload.filePath content world next ∧
      next.files = world.files := by
  refine ⟨indexSavedDocumentUpload_listed hashes stored performed, ?_⟩
  rw [indexSavedDocumentUpload] at performed
  by_cases supported : normalizeExtension upload.extension ∈ documentIndexExtensions
  · rw [if_neg (not_not_intro supported)] at performed
    obtain ⟨parsed, read, parses, rest⟩ := bind_returns performed
    rw [(keeps_parseUpload full).ok rfl parses] at rest
    exact (indexParsed_eq_ok rest).2.files
  · rw [if_pos supported] at performed
    cases performed

/-- A file that is saved and listed. -/
structure Saved (parser : Parser) (filename path : String) (content : Content)
    (world next : World) : Prop where
  listed : Listed parser filename path content world next
  files : next.files = world.files.set path content

/-- A call that saves a file, or changes nothing. -/
theorem savedBy_cases {filename : String} {action : Action Indexed}
    (lists : ∀ indexed next, action (world.writeFile path content) = .ok indexed next →
      Listed parser filename path content (world.writeFile path content) next ∧
        next.files = (world.writeFile path content).files) :
    savedBy action world (world.writeFile path content) = world ∨
      Saved parser filename path content world
        (savedBy action world (world.writeFile path content)) := by
  rw [savedBy]
  cases performed : action (world.writeFile path content) with
  | ok indexed next =>
      obtain ⟨listed, files⟩ := lists indexed next performed
      exact .inr ⟨listed.congr ⟨rfl, rfl⟩ .refl, files⟩
  | error failure next => exact .inl rfl

end

/-! ## What the events preserve -/

/-- The index and the collection, as far as finding files needs them. -/
structure Covered (indexer : Indexer) (world : World) : Prop where
  keyed : Keyed indexer.reader.parser world
  listed : ∀ entry ∈ world.entries, ∃ filename path chunks status,
    Lists filename path chunks status entry ∧ SafeKey indexer filename ∧ path ≠ ""
  findable : Findable indexer.reader.parser world

section

variable {indexer : Indexer} {world next : World} {filename path : String} {content : Content}

theorem chunksFor_ne_nil {parser : Parser} {documents : List Document}
    (nonempty : documents ≠ []) : chunksFor parser documents ≠ [] := by
  rw [chunksFor, ne_eq, List.map_eq_nil_iff, List.zipIdx_eq_nil_iff]
  exact nonempty

/-- The content of a file that was saved can be found. -/
theorem Listed.carries {parser : Parser} (hashes : parser.Hashes) (keyed : Keyed parser world)
    (listed : Listed parser filename path content world next) :
    Carries parser next (fun _ => True) content := by
  cases listed with
  | indexed documents entry nonempty identified unheld chunks entries lists document =>
      obtain ⟨⟨id, chunk⟩, member⟩ := List.exists_mem_of_ne_nil _
        (@chunksFor_ne_nil parser documents nonempty)
      obtain ⟨index, -, identity⟩ := mem_chunksFor hashes identified member
      refine ⟨id, chunk, ?_, trivial, identity.document⟩
      rw [chunks, get?_addChunks_identified hashes identified (keyed.withoutSource path) unheld]
      exact .inr member
  | duplicate id chunk entry found same chunks entries lists document =>
      exact ⟨id, chunk, by rw [chunks]; exact found, trivial, same⟩

/-- The chunks of other sources stay. -/
theorem Listed.keeps {parser : Parser} (hashes : parser.Hashes) (keyed : Keyed parser world)
    (listed : Listed parser filename path content world next) {id : String} {chunk : Chunk}
    (stored : world.chunks.get? id = some chunk) (other : chunk.source ≠ some (.text path)) :
    next.chunks.get? id = some chunk := by
  have kept := get?_withoutSource.mpr ⟨stored, other⟩
  cases listed with
  | indexed documents entry nonempty identified unheld chunks entries lists document =>
      rw [chunks, get?_addChunks_identified hashes identified (keyed.withoutSource path) unheld]
      exact .inl kept
  | duplicate id chunk entry found same chunks entries lists document =>
      rw [chunks]
      exact kept

theorem Listed.keyed {parser : Parser} (hashes : parser.Hashes) (keyed : Keyed parser world)
    (listed : Listed parser filename path content world next) : Keyed parser next := by
  have kept := keyed.withoutSource path
  intro id chunk stored
  cases listed with
  | indexed documents entry nonempty identified unheld chunks entries lists document =>
      rw [chunks] at stored
      exact kept.addChunks hashes identified unheld id chunk stored
  | duplicate id chunk entry found same chunks entries lists document =>
      rw [chunks] at stored
      exact kept _ _ stored

/-- The entry of the file is replaced. -/
theorem Listed.entries {parser : Parser}
    (listed : Listed parser filename path content world next) :
    ∃ entry chunks status, next.entries = entry :: world.otherEntries filename ∧
      Lists filename path chunks status entry := by
  cases listed with
  | indexed documents entry nonempty identified unheld added entries lists document =>
      exact ⟨entry, _, _, entries, lists⟩
  | duplicate id chunk entry found same kept entries lists document =>
      exact ⟨entry, _, _, entries, lists⟩

/-- A file is saved. -/
theorem Covered.saved (hashes : indexer.reader.parser.Hashes) (covered : Covered indexer world)
    (saved : Saved indexer.reader.parser filename path content world next)
    (safe : SafeKey indexer filename) (there : path ≠ "")
    (spares : ∀ entry other stored, Shows world entry other stored →
      ¬ Entry.isFor filename entry → other ≠ path → stored ≠ content →
        ¬ Carries indexer.reader.parser world (· = some (.text path)) stored) :
    Covered indexer next := by
  obtain ⟨entry, chunks, status, entries, lists⟩ := saved.listed.entries
  have own := saved.listed.carries hashes covered.keyed
  refine ⟨saved.listed.keyed hashes covered.keyed, ?_, ?_⟩
  · intro other member
    rw [entries, List.mem_cons, mem_otherEntries] at member
    rcases member with rfl | ⟨member, -⟩
    · exact ⟨filename, path, chunks, status, lists, safe, there⟩
    · exact covered.listed other member
  · intro other otherPath stored shows
    have member := shows.member
    have file := shows.stored
    rw [saved.files, Dictionary.get?_set] at file
    rw [entries, List.mem_cons, mem_otherEntries] at member
    by_cases same : otherPath = path
    · rw [if_pos same] at file
      cases file
      exact own
    · rw [if_neg same] at file
      rcases member with rfl | ⟨member, unnamed⟩
      · exact absurd (text_unique shows.placed lists.path) same
      · have before : Shows world other otherPath stored :=
          ⟨member, shows.status, shows.placed, file⟩
        by_cases new : stored = content
        · rw [new]
          exact own
        · obtain ⟨id, chunk, held, -, document⟩ := covered.findable other otherPath stored before
          have elsewhere : chunk.source ≠ some (.text path) := fun source =>
            spares other otherPath stored before unnamed same new ⟨id, chunk, held, source, document⟩
          exact ⟨id, chunk, saved.listed.keeps hashes covered.keyed held elsewhere, trivial,
            document⟩

end

/-! ## Files that are deleted -/

section

variable {indexer : Indexer} {base : KnowledgeBase} {world : World} {entry : Entry}
  {filename path : String}

theorem get?_deleteFile {removed : String} {content : Content}
    (stored : (base.deleteFile removed world).files.get? path = some content) :
    world.files.get? path = some content ∧ (base.deletesFile removed world → path ≠ removed) := by
  rw [KnowledgeBase.deleteFile] at stored
  by_cases deletes : base.deletesFile removed world
  · rw [if_pos deletes, get?_removeFile] at stored
    by_cases same : path = removed
    · rw [if_pos same] at stored
      cases stored
    · rw [if_neg same] at stored
      exact ⟨stored, fun _ => same⟩
  · rw [if_neg deletes] at stored
    exact ⟨stored, fun impossible => absurd impossible deletes⟩

/-- A deletion leaves no file that was not there, and not the file of the entry. -/
theorem get?_deleted {content : Content}
    (stored : (base.deleted filename entry world).files.get? path = some content) :
    world.files.get? path = some content ∧
      (base.deletesFile (base.sourceOf entry filename) world →
        path ≠ base.sourceOf entry filename) := by
  have own := (get?_deleteFile (get?_deleteFile stored).1).1
  exact @get?_deleteFile base
    ((world.withoutSource (base.sourceOf entry filename)).removeEntry filename) path
    (base.sourceOf entry filename) content own

theorem Covered.deleted (covered : Covered indexer world)
    (spares : ∀ other path stored, Shows world other path stored →
      ¬ Entry.isFor filename other →
      (indexer.base.deletesFile (indexer.base.sourceOf entry filename) world →
        path ≠ indexer.base.sourceOf entry filename) →
      ¬ Carries indexer.reader.parser world
        (· = some (.text (indexer.base.sourceOf entry filename))) stored) :
    Covered indexer (indexer.base.deleted filename entry world) where
  keyed := by
    intro id chunk stored
    rw [deleted_chunks] at stored
    exact covered.keyed.withoutSource _ id chunk stored
  listed := by
    intro other member
    rw [deleted_entries, mem_otherEntries] at member
    exact covered.listed other member.1
  findable := by
    intro other path stored shows
    have member := shows.member
    rw [deleted_entries, mem_otherEntries] at member
    obtain ⟨file, apart⟩ := get?_deleted shows.stored
    have before : Shows world other path stored :=
      ⟨member.1, shows.status, shows.placed, file⟩
    obtain ⟨id, chunk, held, -, document⟩ := covered.findable other path stored before
    have elsewhere : chunk.source ≠
        some (.text (indexer.base.sourceOf entry filename)) := fun source =>
      spares other path stored before member.2 apart ⟨id, chunk, held, source, document⟩
    refine ⟨id, chunk, ?_, trivial, document⟩
    rw [deleted_chunks]
    exact get?_withoutSource.mpr ⟨held, elsewhere⟩

end

/-! ## Files that are indexed again -/

section

variable {indexer : Indexer} {reader : RebuildReader} {base : KnowledgeBase} {start world : World}
  {entry : Entry} {earlier later : List Entry} {state next : RebuildState} {job : RebuildJob}

theorem keeps_documentsForRebuild (full : reader.parser.Full) :
    Keeps (· = world) (documentsForRebuild base reader entry) := by
  have path : Keeps (· = world) (base.safeRebuildSourcePath entry) := by
    rw [KnowledgeBase.safeRebuildSourcePath]
    apply Keeps.bind Keeps.read
    intro read
    split
    · exact Keeps.fail _
    · split
      · exact Keeps.fail _
      · split
        · exact Keeps.fail _
        · exact Keeps.done _
  rw [documentsForRebuild]
  apply Keeps.bind path
  intro path
  dsimp only
  split
  · rw [RebuildReader.transcriptDocuments]
    apply Keeps.bind Keeps.read
    intro read
    split
    · exact Keeps.fail _
    · apply Keeps.bind keeps_readFile
      intro transcript
      cases reader.transcriptTexts transcript with
      | error message => exact Keeps.fail _
      | ok texts => exact Keeps.bind keeps_readFile fun _ => Keeps.done _
  · split
    · rw [RebuildReader.textDocuments]
      apply Keeps.bind Keeps.read
      intro read
      cases processFile reader.parser path (pathExtension path) read with
      | error message => exact Keeps.fail _
      | ok documents => exact Keeps.done _
    · rw [RebuildReader.pdfDocuments]
      apply Leads.readAt
      apply Keeps.bind (keeps_ocrDocuments full)
      intro images
      dsimp only
      split
      · exact Keeps.done _
      · split <;> exact Keeps.done _

theorem rebuildDocuments_files {index : Nat} {source : RebuildSource} :
    (rebuildDocuments base reader job index entry source state).world.files =
      state.world.files := by
  rw [rebuildDocuments]
  split
  · rfl
  · split <;> rfl

/-- The files stay, if none of them needs its images read. -/
theorem rebuildEntry_files (full : reader.parser.Full) {index : Nat} :
    (rebuildEntry base reader job index entry state).world.files = state.world.files := by
  have keeps := @keeps_documentsForRebuild reader base state.world entry full
  rw [rebuildEntry]
  dsimp only
  cases read : documentsForRebuild base reader entry state.world with
  | ok source world =>
      cases keeps.ok rfl read
      exact rebuildDocuments_files
  | error failure world =>
      cases keeps.error rfl read
      rfl

/-- A loop of a rebuild, after some of the entries. -/
structure Restoring (indexer : Indexer) (start : World) (earlier : List Entry)
    (state : RebuildState) : Prop where
  files : state.world.files = start.files
  keyed : Keyed indexer.reader.parser state.world
  seen : SeenAll indexer.reader.parser state
  known : ∀ content other,
    state.seen.get? (indexer.reader.parser.documentHash content) = some other →
      Carries indexer.reader.parser state.world (fun _ => True) content
  listed : ∀ entry ∈ state.world.entries, ∃ filename path chunks status,
    Lists filename path chunks status entry ∧ SafeKey indexer filename ∧ path ≠ ""
  shown : ∀ recorded path content, Shows state.world recorded path content →
    Carries indexer.reader.parser state.world (fun _ => True) content ∨
      recorded ∈ start.entries ∧
        ∀ entry ∈ earlier, ¬ Entry.isFor (indexer.nameOf entry) recorded

theorem Carries.grows {parser : Parser} {after : World} {content : Content}
    (carries : Carries parser world (fun _ => True) content)
    (kept : ∀ id chunk, world.chunks.get? id = some chunk → after.chunks.get? id = some chunk) :
    Carries parser after (fun _ => True) content := by
  obtain ⟨id, chunk, stored, -, document⟩ := carries
  exact ⟨id, chunk, kept id chunk stored, trivial, document⟩

/-- A turn of the loop, by the entry that it records. -/
theorem Restoring.step {recorded : Entry} {chunks : Nat} {status : String}
    (restoring : Restoring indexer start earlier state)
    (safe : SafeKey indexer (indexer.nameOf entry)) (there : indexer.pathOf entry ≠ "")
    (files : next.world.files = state.world.files)
    (keyed : Keyed indexer.reader.parser next.world) (seen : SeenAll indexer.reader.parser next)
    (kept : ∀ id chunk, state.world.chunks.get? id = some chunk →
      next.world.chunks.get? id = some chunk)
    (known : ∀ content other,
      next.seen.get? (indexer.reader.parser.documentHash content) = some other →
        Carries indexer.reader.parser next.world (fun _ => True) content)
    (entries : next.world.entries =
      recorded :: state.world.otherEntries (indexer.nameOf entry))
    (lists : Lists (indexer.nameOf entry) (indexer.pathOf entry) chunks status recorded)
    (own : status ∈ ["indexed", "duplicate"] → ∀ content,
      state.world.files.get? (indexer.pathOf entry) = some content →
        Carries indexer.reader.parser next.world (fun _ => True) content) :
    Restoring indexer start (earlier ++ [entry]) next where
  files := files.trans restoring.files
  keyed := keyed
  seen := seen
  known := known
  listed := by
    intro other member
    rw [entries, List.mem_cons, mem_otherEntries] at member
    rcases member with rfl | ⟨member, -⟩
    · exact ⟨_, _, chunks, status, lists, safe, there⟩
    · exact restoring.listed other member
  shown := by
    intro other path content shows
    have member := shows.member
    have file := shows.stored
    rw [files] at file
    rw [entries, List.mem_cons, mem_otherEntries] at member
    rcases member with rfl | ⟨member, unnamed⟩
    · left
      rw [text_unique shows.placed lists.path] at file
      refine own ?_ content file
      rw [List.mem_cons, List.mem_singleton]
      rcases shows.status with indexed | duplicate
      · exact .inl (text_unique lists.status indexed)
      · exact .inr (text_unique lists.status duplicate)
    · rcases restoring.shown other path content ⟨member, shows.status, shows.placed, file⟩ with
        carries | ⟨old, apart⟩
      · exact .inl (carries.grows kept)
      · right
        refine ⟨old, ?_⟩
        intro listed listedMember
        rw [List.mem_append, List.mem_singleton] at listedMember
        rcases listedMember with listedMember | rfl
        · exact apart listed listedMember
        · exact unnamed

theorem Restoring.turn (hashes : indexer.reader.parser.Hashes)
    (full : indexer.reader.parser.Full) {index : Nat}
    (restoring : Restoring indexer start earlier state)
    (safe : SafeKey indexer (indexer.nameOf entry)) (there : indexer.pathOf entry ≠ "") :
    Restoring indexer start (earlier ++ [entry])
      (rebuildEntry indexer.base indexer.reader job index entry state) := by
  have rebuilt := @rebuildEntry_rebuilt indexer.base indexer.reader job entry hashes index state
  have files := @rebuildEntry_files indexer.reader indexer.base entry state job full index
  generalize rebuildEntry indexer.base indexer.reader job index entry state = next
    at rebuilt files
  obtain ⟨keyed, seen, kept⟩ := rebuilt.chunks hashes restoring.keyed restoring.seen
  have step {recorded : Entry} {chunks : Nat} {status : String} :=
    @Restoring.step indexer start entry earlier state next recorded chunks status restoring safe
      there files keyed seen kept
  cases rebuilt with
  | skipped status recorded unlisted chunks entries lists same =>
      refine step ?_ entries lists ?_
      · intro content other found
        rw [same] at found
        exact (restoring.known content other found).grows kept
      · intro listed
        exact absurd listed unlisted
  | duplicate content other recorded stored found chunks entries lists same =>
      refine step ?_ entries lists ?_
      · intro content other found
        rw [same] at found
        exact (restoring.known content other found).grows kept
      · intro _ held present
        change state.world.files.get? (indexer.pathOf entry) = some content at stored
        rw [stored] at present
        cases present
        exact (restoring.known content other found).grows kept
  | indexed content documents recorded stored new nonempty identified chunks entries lists same =>
      have unheld : Unheld indexer.reader.parser content state.world :=
        fun id chunk present held => restoring.seen id chunk content present held new
      obtain ⟨⟨id, chunk⟩, member⟩ := List.exists_mem_of_ne_nil _
        (@chunksFor_ne_nil indexer.reader.parser documents nonempty)
      obtain ⟨place, -, identity⟩ := mem_chunksFor hashes identified member
      have added : next.world.chunks.get? id = some chunk := by
        rw [chunks, get?_addChunks_identified hashes identified restoring.keyed unheld]
        exact .inr member
      refine step ?_ entries lists ?_
      · intro other path found
        rw [same, Dictionary.get?_set] at found
        by_cases own : indexer.reader.parser.documentHash other =
            indexer.reader.parser.documentHash content
        · exact ⟨id, chunk, added, trivial, own ▸ identity.document⟩
        · rw [if_neg own] at found
          exact (restoring.known other path found).grows kept
      · intro _ held present
        change state.world.files.get? (indexer.pathOf entry) = some content at stored
        rw [stored] at present
        cases present
        exact ⟨id, chunk, added, trivial, identity.document⟩

theorem Restoring.loop (hashes : indexer.reader.parser.Hashes)
    (full : indexer.reader.parser.Full) {index : Nat}
    (restoring : Restoring indexer start earlier state)
    (listed : ∀ entry ∈ later, SafeKey indexer (indexer.nameOf entry) ∧
      indexer.pathOf entry ≠ "") :
    Restoring indexer start (earlier ++ later)
      ((later.zipIdx index).foldl (fun state (entry, index) =>
        rebuildEntry indexer.base indexer.reader job index entry state) state) := by
  induction later generalizing earlier state index with
  | nil =>
      rw [List.append_nil]
      exact restoring
  | cons entry rest induction =>
      obtain ⟨safe, there⟩ := listed entry List.mem_cons_self
      have turned := @Restoring.turn indexer start entry earlier state job hashes full index
        restoring safe there
      rw [List.append_cons]
      exact induction turned fun other member => listed other (List.mem_cons_of_mem entry member)

/-- A complete rebuild makes every listed file findable. -/
theorem Covered.rebuilt (hashes : indexer.reader.parser.Hashes)
    (full : indexer.reader.parser.Full) (covered : Covered indexer world)
    (complete : job.entries = world.entries) :
    Covered indexer (rebuildIndex indexer.base indexer.reader job world) := by
  have begun : Restoring indexer world [] { world := { world with chunks := .empty } } :=
    { files := rfl
      keyed := nofun
      seen := nofun
      known := nofun
      listed := covered.listed
      shown := fun recorded path content shows => .inr ⟨shows.member, nofun⟩ }
  have named : ∀ entry ∈ job.entries, SafeKey indexer (indexer.nameOf entry) ∧
      indexer.pathOf entry ≠ "" := by
    intro entry member
    rw [complete] at member
    obtain ⟨filename, path, chunks, status, lists, safe, there⟩ := covered.listed entry member
    rw [nameOf_eq lists safe, pathOf_eq lists there]
    exact ⟨safe, there⟩
  have restored := @Restoring.loop indexer world [] job.entries _ job hashes full 0 begun named
  rw [List.nil_append] at restored
  change Restoring indexer world job.entries _ at restored
  rw [rebuildIndex]
  generalize job.entries.zipIdx.foldl _ _ = state at restored
  refine ⟨restored.keyed, restored.listed, ?_⟩
  intro recorded path content shows
  rcases restored.shown recorded path content shows with carries | ⟨old, apart⟩
  · exact carries
  · obtain ⟨filename, path, chunks, status, lists, safe, there⟩ := covered.listed recorded old
    refine absurd lists.isFor ?_
    rw [← nameOf_eq lists safe]
    exact apart recorded (complete ▸ old)

end

/-! ## Runs -/

section

variable {indexer : Indexer} {world : World}

theorem DocumentEvent.after_covered (hashes : indexer.reader.parser.Hashes)
    (full : indexer.reader.parser.Full) {event : DocumentEvent}
    (allowed : event.Allowed indexer) (spares : event.Spares indexer world)
    (covered : Covered indexer world) : Covered indexer (event.after indexer world) := by
  cases event with
  | upload file content =>
      obtain ⟨safe, there⟩ := allowed
      have cases := @savedBy_cases indexer.reader.parser file.filePath world content file.filename
        (indexSavedDocumentUpload indexer.reader.parser indexer.reader.ocr {} file)
        fun indexed next performed => indexSavedDocumentUpload_saved hashes full
          (Dictionary.get?_set_self _ _ _) performed
      rw [DocumentEvent.after]
      rcases cases with same | saved
      · rw [same]
        exact covered
      · exact covered.saved hashes saved safe there spares
  | sync request content =>
      obtain ⟨safe, there, unclaimed⟩ := allowed
      have cases := @savedBy_cases indexer.reader.parser request.filePath world content
        request.filename (indexSavedDocument indexer.reader.parser {} request request.filePath)
        fun indexed next performed => indexSavedDocument_listed hashes unclaimed
          (Dictionary.get?_set_self _ _ _) performed
      rw [DocumentEvent.after]
      rcases cases with same | saved
      · rw [same]
        exact covered
      · exact covered.saved hashes saved safe there spares
  | delete raw =>
      rw [DocumentEvent.after, savedBy]
      cases performed : indexer.base.deleteIndexedFile raw world with
      | error failure next => exact covered
      | ok answer next =>
          obtain ⟨entry, found, -, rfl⟩ := deleteIndexedFile_eq_ok performed
          exact covered.deleted (spares entry found)
  | rebuild profile ocrProfile now => exact covered.rebuilt hashes full rfl

/-- No file is listed yet. -/
theorem covered_initial (files : Dictionary String Content) :
    Covered indexer { files := files, chunks := .empty, entries := [] } :=
  ⟨nofun, nofun, fun _ _ _ shows => absurd shows.member List.not_mem_nil⟩

end

/-- The digits of each byte, with a letter after them. -/
def digitsOf : Content → List Char
  | [] => ['h']
  | byte :: rest => Nat.toDigits 10 byte.toNat ++ 'x' :: digitsOf rest

theorem digitsOf_alphanumeric {content : Content} :
    ∀ character ∈ digitsOf content, character.isAlphanum := by
  induction content with
  | nil => simp [digitsOf]
  | cons byte rest induction =>
      intro character member
      rw [digitsOf, List.mem_append, List.mem_cons] at member
      rcases member with digit | rfl | later
      · rw [Char.isAlphanum, Nat.isDigit_of_mem_toDigits (by decide) (by decide) digit,
          Bool.or_true]
      · decide
      · exact induction character later

theorem digitsOf_injective : Function.Injective digitsOf := by
  have plain : ∀ byte : UInt8, 'x' ∉ Nat.toDigits 10 byte.toNat := by
    intro byte member
    have digit := Nat.isDigit_of_mem_toDigits (by decide) (by decide) member
    revert digit
    decide
  have separates : ∀ (byte : UInt8) (rest : List Char),
      Text.partition 'x' (Nat.toDigits 10 byte.toNat ++ 'x' :: rest) =
        (Nat.toDigits 10 byte.toNat, some rest) :=
    fun byte rest => Text.partition_append (plain byte) rest
  intro first
  induction first with
  | nil =>
      intro second same
      cases second with
      | nil => rfl
      | cons byte rest =>
          have split := congrArg (fun characters => (Text.partition 'x' characters).2) same
          rw [digitsOf, digitsOf, separates] at split
          cases split
  | cons byte rest induction =>
      intro second same
      cases second with
      | nil =>
          have split := congrArg (fun characters => (Text.partition 'x' characters).2) same
          rw [digitsOf, digitsOf, separates] at split
          cases split
      | cons other more =>
          have split := congrArg (Text.partition 'x') same
          rw [digitsOf, digitsOf, separates, separates, Prod.mk.injEq, Option.some.injEq] at split
          have digits := congrArg (fun characters => Nat.ofDigitChars 10 characters 0) split.1
          rw [Nat.ofDigitChars_ten_toDigits, Nat.ofDigitChars_ten_toDigits] at digits
          rw [UInt8.toNat_inj.mp digits, induction split.2]

/-- An indexer whose hashes tell contents apart. -/
def exactIndexer : Indexer :=
  { sampleIndexer with
    reader := { sampleIndexer.reader with
      parser := { countedFile with
        documentHash := fun content => String.ofList (digitsOf content) } } }

theorem exactIndexer_hashes : exactIndexer.reader.parser.Hashes where
  document := by
    intro content
    refine ⟨?_, ?_⟩
    · intro empty
      have none : digitsOf content = [] := by
        rw [← @String.toList_ofList (digitsOf content)]
        exact congrArg String.toList empty
      cases content <;> simp [digitsOf] at none
    · intro character member
      change character ∈ (String.ofList (digitsOf content)).toList at member
      rw [String.toList_ofList] at member
      exact digitsOf_alphanumeric character member
  source := countedFile_hashes.source

theorem exactIndexer_injective : Function.Injective exactIndexer.reader.parser.documentHash :=
  fun _ _ same => digitsOf_injective (String.ofList_injective same)

theorem exactIndexer_full : exactIndexer.reader.parser.Full :=
  fun _ _ => ⟨"text", [], rfl⟩

/-- A file is uploaded and replaced, indexed again and deleted. -/
def replacedFile : List DocumentEvent :=
  [.upload (sampleText "a.txt") [0], .upload (sampleText "a.txt") [1],
    .rebuild "profile" "profile" (fun _ => "2024-01-01T00:00:00+00:00"), .delete "a.txt"]

theorem allowed_sampleDocument {filename : String} {content : Content}
    (safe : sampleIndexer.base.names.safeFileIndexKey filename = filename ∧ filename ≠ "" ∧
      joinPath "/uploads" filename ≠ "") :
    (DocumentEvent.upload (sampleText filename) content).Allowed exactIndexer :=
  ⟨⟨safe.1, safe.2.1⟩, safe.2.2⟩

/-- The file that another one is a duplicate of is deleted. -/
def deletedOriginal : List DocumentEvent :=
  [.upload (sampleText "a.txt") [0], .upload (sampleText "b.txt") [0], .delete "a.txt"]

end RAGuardian.Documents
