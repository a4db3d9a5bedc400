import RAGuardian.Documents.Indexer

/-! # Download links

The link the administrators get beside a retrieved chunk. It is looked up in the file index
by the ids of the document, and then by the base name of its source. -/

namespace RAGuardian.Documents

/-! ## The lookup -/

/-- `value or ""` -/
def orEmpty (value : Option Scalar) : Scalar :=
  match value with
  | some value => if value.truthy then value else .text ""
  | none => .text ""

/-- `type(value).__name__` -/
def Scalar.typeName : Scalar → String
  | .text _ => "str"
  | .integer _ => "int"
  | .float _ => "float"
  | .flag _ => "bool"

/-- `entry.get("metadata", {})`. Its `get` is called next, which no scalar has. -/
def Entry.nested (entry : Entry) : Except String Metadata :=
  match entry.get? "metadata" with
  | none => .ok .empty
  | some value => .error ("'" ++ value.typeName ++ "' object has no attribute 'get'")

def Entry.indexed (entry : Entry) : Bool :=
  entry.get? "status" = some (.text "indexed")

def downloadLink (filename : String) : String :=
  "/admin/files/download/" ++ filename

/-- The loop of `_get_download_url` over the entries -/
def linkById (sourceId documentId : Scalar) (filename : String) :
    List Entry → Except String (Option String)
  | [] => .ok none
  | entry :: rest =>
      if !entry.indexed then linkById sourceId documentId filename rest
      else do
        let metadata ← entry.nested
        let entryDocumentId := (metadata.get? "document_id").getD (.text "")
        let entrySourceId := (metadata.get? "source_id").getD (.text "")
        let link := downloadLink ((entry.get? "filename").getD (.text filename)).render
        if sourceId.truthy ∧ entrySourceId.truthy ∧ sourceId = entrySourceId then
          .ok (some link)
        else if documentId.truthy ∧ entryDocumentId.truthy ∧ documentId = entryDocumentId then
          .ok (some link)
        else linkById sourceId documentId filename rest

/-- `_get_download_url`, for a chunk with its metadata. -/
def World.downloadUrl (world : World) (metadata : Metadata) : Except String (Option String) :=
  match orEmpty (metadata.get? "source") with
  | .text source =>
      if source = "" then .ok none
      else do
        let filename := basename source
        let found ← linkById (orEmpty (metadata.get? "source_id"))
          (orEmpty (metadata.get? "document_id")) filename world.entries
        match found with
        | some link => pure (some link)
        | none =>
            match world.entry filename with
            | some entry => pure (if entry.indexed then some (downloadLink filename) else none)
            | none => pure none
  | other =>
      .error ("expected str, bytes or os.PathLike object, not " ++ other.typeName)

/-! ## Correct links -/

/-- A value under the key that both know and share -/
def Shares (key : String) (metadata : Metadata) (entry : Entry) : Prop :=
  ∃ value : Scalar, value.truthy = true ∧ metadata.get? key = some value ∧
    entry.get? key = some value

/-- The entry has the chunk's document id or source id. -/
def SharesId (metadata : Metadata) (entry : Entry) : Prop :=
  Shares "document_id" metadata entry ∨ Shares "source_id" metadata entry

/-- The document ids agree, if both are known. -/
def DocumentAgrees (metadata : Metadata) (entry : Entry) : Prop :=
  ∀ chunkId entryId : Scalar, chunkId.truthy = true → entryId.truthy = true →
    metadata.get? "document_id" = some chunkId → entry.get? "document_id" = some entryId →
    chunkId = entryId

/-- The entry of the chunk's file, as far as its ids or else its path tell -/
def SameFile (metadata : Metadata) (entry : Entry) : Prop :=
  SharesId metadata entry ∨ entry.get? "path" = metadata.get? "source"

/-- The entry a link leads to -/
def World.LinksTo (world : World) (link : String) (entry : Entry) : Prop :=
  ∃ filename, link = downloadLink filename ∧ world.entry filename = some entry

/-- The link of a chunk leads to an entry of its document, and there is one if there is such
an entry. -/
structure World.DownloadCorrect (world : World) (metadata : Metadata) : Prop where
  found : ∀ entry ∈ world.entries, entry.indexed = true → SharesId metadata entry →
    ∃ link linked, world.downloadUrl metadata = .ok (some link) ∧ world.LinksTo link linked ∧
      linked.indexed = true ∧ SharesId metadata linked
  agrees : ∀ link linked, world.downloadUrl metadata = .ok (some link) →
    world.LinksTo link linked → DocumentAgrees metadata linked
  same : ∀ link linked, world.downloadUrl metadata = .ok (some link) →
    world.LinksTo link linked → SameFile metadata linked

/-! ## What the lookup finds -/

/-- The indexed entry under the base name of the chunk's source. An indexed entry with a key
`metadata` of its own ends every lookup. -/
def World.namedEntry (world : World) (metadata : Metadata) : Option Entry :=
  match orEmpty (metadata.get? "source") with
  | .text source =>
      if source = "" ∨
          world.entries.any (fun entry => entry.indexed && (entry.get? "metadata").isSome) then none
      else (world.entry (basename source)).filter Entry.indexed
  | _ => none

/-- No entry is found by its ids: they are not where they are looked for. -/
theorem linkById_eq (sourceId documentId : Scalar) (filename : String) (entries : List Entry) :
    if entries.any (fun entry => entry.indexed && (entry.get? "metadata").isSome) then
      ∃ error, linkById sourceId documentId filename entries = .error error
    else linkById sourceId documentId filename entries = .ok none := by
  induction entries with
  | nil => rfl
  | cons entry rest induction =>
      rw [List.any_cons, linkById]
      cases status : entry.indexed with
      | false => simpa using induction
      | true =>
          cases own : entry.get? "metadata" with
          | some value => exact ⟨_, by simp [Entry.nested, own]; rfl⟩
          | none =>
              have missing : entry.nested = .ok .empty := by
                rw [Entry.nested, own]
              have blank : (Scalar.text "").truthy = false := rfl
              simpa [missing, blank, bind, Except.bind] using induction

/-- The link, if any, leads to the entry under the base name. -/
theorem downloadUrl_eq_some {world : World} {metadata : Metadata} {link : String} :
    world.downloadUrl metadata = .ok (some link) ↔
      ∃ source entry, orEmpty (metadata.get? "source") = .text source ∧
        world.namedEntry metadata = some entry ∧ world.entry (basename source) = some entry ∧
        link = downloadLink (basename source) := by
  rw [World.downloadUrl, World.namedEntry]
  cases origin : orEmpty (metadata.get? "source") with
  | text source =>
      by_cases blank : source = ""
      · simp [blank]
      · have found := linkById_eq (orEmpty (metadata.get? "source_id"))
          (orEmpty (metadata.get? "document_id")) (basename source) world.entries
        split at found
        · rename_i stuck
          obtain ⟨error, raised⟩ := found
          simp [blank, raised, stuck, bind, Except.bind]
        · rename_i free
          cases named : world.entry (basename source) with
          | none => simp [blank, found, free, named, bind, Except.bind, pure, Except.pure]
          | some entry =>
              cases status : entry.indexed <;>
                simp [blank, found, free, named, status, bind, Except.bind, pure, Except.pure,
                  Option.filter, eq_comm]
  | integer value => simp
  | float value => simp
  | flag value => simp

theorem downloadLink_inj {first second : String}
    (same : downloadLink first = downloadLink second) : first = second := by
  unfold downloadLink at same
  exact (String.append_right_inj _).mp same

/-- A link of the lookup leads to the named entry and to no other. -/
theorem linksTo_named {world : World} {metadata : Metadata} {link : String}
    (found : world.downloadUrl metadata = .ok (some link)) :
    ∃ named, world.namedEntry metadata = some named ∧
      ∀ linked, world.LinksTo link linked ↔ linked = named := by
  obtain ⟨source, named, -, chosen, entry, rfl⟩ := downloadUrl_eq_some.mp found
  refine ⟨named, chosen, ?_⟩
  intro linked
  constructor
  · rintro ⟨filename, same, other⟩
    rw [← downloadLink_inj same, entry, Option.some_inj] at other
    exact other.symm
  · rintro rfl
    exact ⟨basename source, rfl, entry⟩

theorem namedEntry_eq_some {world : World} {metadata : Metadata} {named : Entry}
    (chosen : world.namedEntry metadata = some named) :
    named.indexed = true ∧ ∃ link, world.downloadUrl metadata = .ok (some link) := by
  have opened := chosen
  rw [World.namedEntry] at opened
  cases origin : orEmpty (metadata.get? "source") with
  | text source =>
      rw [origin] at opened
      dsimp only at opened
      split at opened
      · cases opened
      · obtain ⟨entry, indexed⟩ := Option.filter_eq_some_iff.mp opened
        exact ⟨indexed, downloadLink (basename source),
          downloadUrl_eq_some.mpr ⟨source, named, origin, chosen, entry, rfl⟩⟩
  | integer value => simp [origin] at opened
  | float value => simp [origin] at opened
  | flag value => simp [origin] at opened

/-- The links of a chunk are correct exactly if the entry under the base name of its source
is the right one, or there is none and none is needed. -/
theorem downloadCorrect_iff (world : World) (metadata : Metadata) :
    world.DownloadCorrect metadata ↔
      match world.namedEntry metadata with
      | none => ∀ entry ∈ world.entries, entry.indexed = true → ¬SharesId metadata entry
      | some named => DocumentAgrees metadata named ∧
          (SharesId metadata named ∨
            named.get? "path" = metadata.get? "source" ∧
              ∀ entry ∈ world.entries, entry.indexed = true → ¬SharesId metadata entry) := by
  cases chosen : world.namedEntry metadata with
  | none =>
      have silent : ∀ link, world.downloadUrl metadata ≠ .ok (some link) := by
        intro link found
        obtain ⟨named, other, -⟩ := linksTo_named found
        rw [chosen] at other
        cases other
      constructor
      · intro correct entry listed indexed shares
        obtain ⟨link, -, found, -⟩ := correct.found entry listed indexed shares
        exact silent link found
      · intro unknown
        refine ⟨?_, ?_, ?_⟩
        · intro entry listed indexed shares
          exact absurd shares (unknown entry listed indexed)
        · intro link linked found _
          exact absurd found (silent link)
        · intro link linked found _
          exact absurd found (silent link)
  | some named =>
      obtain ⟨indexed, link, found⟩ := namedEntry_eq_some chosen
      have leads : ∀ other, world.downloadUrl metadata = .ok (some other) →
          ∀ linked, world.LinksTo other linked ↔ linked = named := by
        intro other foundOther linked
        obtain ⟨same, chosenToo, onlyOne⟩ := linksTo_named foundOther
        rw [chosen, Option.some_inj] at chosenToo
        rw [chosenToo]
        exact onlyOne linked
      constructor
      · intro correct
        have leadsHere := (leads link found named).mpr rfl
        refine ⟨correct.agrees link named found leadsHere, ?_⟩
        rcases correct.same link named found leadsHere with shares | path
        · exact .inl shares
        · by_cases shares : SharesId metadata named
          · exact .inl shares
          · refine .inr ⟨path, ?_⟩
            intro entry listed entryIndexed entryShares
            obtain ⟨other, linked, foundOther, leadsOther, -, linkedShares⟩ :=
              correct.found entry listed entryIndexed entryShares
            rw [(leads other foundOther linked).mp leadsOther] at linkedShares
            exact shares linkedShares
      · rintro ⟨agrees, right⟩
        refine ⟨?_, ?_, ?_⟩
        · intro entry listed entryIndexed entryShares
          rcases right with shares | ⟨-, unknown⟩
          · exact ⟨link, named, found, (leads link found named).mpr rfl, indexed, shares⟩
          · exact absurd entryShares (unknown entry listed entryIndexed)
        · intro other linked foundOther leadsOther
          rw [(leads other foundOther linked).mp leadsOther]
          exact agrees
        · intro other linked foundOther leadsOther
          rw [(leads other foundOther linked).mp leadsOther]
          rcases right with shares | ⟨path, -⟩
          · exact .inl shares
          · exact .inr path

/-! ## A file in a folder -/

/-- The entry the indexer records for a file in a folder -/
def folderEntry : Entry :=
  let request : Request := {
    uploadFolder := "/uploads"
    filename := "reports/summary.pdf"
    filePath := "/uploads/reports/summary.pdf"
    stagedFilePath := "/uploads/reports/.summary.pdf.0.pending-upload"
    extension := "pdf"
    extraMetadata := .empty
    indexProfile := "{}"
    now := "2024-05-01T10:00:00+00:00"
    unique := "0" }
  entryFor request request.filePath 3 "indexed" ""
    (recordMetadata request "6b86b273ff34fce1" "d4735e3a265e"
      (Dictionary.empty.set "source_type" (.text "pdf")))

/-- The metadata of a chunk of the file -/
def folderChunk : Metadata :=
  ((Dictionary.empty.set "source" (.text "/uploads/reports/summary.pdf")).set
    "document_id" (.text "6b86b273ff34fce1")).set "source_id" (.text "d4735e3a265e")

/-- The file is indexed with the ids of the chunk, and no link leads to it. -/
theorem folder_not_linked :
    let world := (World.mk .empty .empty []).record "reports/summary.pdf" folderEntry
    folderEntry ∈ world.entries ∧ folderEntry.indexed = true ∧
      SharesId folderChunk folderEntry ∧ world.downloadUrl folderChunk = .ok none ∧
      ¬world.DownloadCorrect folderChunk := by
  have shares : SharesId folderChunk folderEntry :=
    .inl ⟨.text "6b86b273ff34fce1", by decide +kernel, by decide +kernel, by decide +kernel⟩
  have indexed : folderEntry.indexed = true := by decide +kernel
  have unlinked : ((World.mk .empty .empty []).record "reports/summary.pdf"
      folderEntry).downloadUrl folderChunk = .ok none := by
    rfl
  refine ⟨List.mem_cons_self, indexed, shares, unlinked, ?_⟩
  intro correct
  obtain ⟨link, -, found, -⟩ := correct.found folderEntry List.mem_cons_self indexed shares
  rw [unlinked] at found
  cases found

end RAGuardian.Documents
