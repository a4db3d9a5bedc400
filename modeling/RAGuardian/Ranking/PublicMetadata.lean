import RAGuardian.Foundation.Url
import RAGuardian.Ranking.Documents

/-! # Public metadata

What the users of a widget see of the documents of an answer: a name for the source, and the
values under the keys of two allowlists. -/

namespace RAGuardian.Ranking

open Json Url

/-- What the publication uses of the language's libraries. -/
structure WebLibrary where
  /-- `str(value)` -/
  str : Value → String
  str_text : ∀ text, str (.str text) = text
  /-- `value.lower()` -/
  lower : String → String
  /-- `urllib.parse.unquote` -/
  unquote : List Char → List Char
  /-- `urlsplit` raises no `ValueError` for the network location. -/
  accepts : List Char → Bool
  /-- It depends on the host only. -/
  accepts_userInfo : ∀ userInfo host, (∀ character ∈ userInfo, Plain character ∧
      character ∉ ['[', ']']) → (∀ character ∈ host, Plain character) →
    (accepts (userInfo ++ '@' :: host) = true ↔ host = [] ∨ accepts host = true)

section

variable (library : WebLibrary)

/-! ## Names -/

/-- The start of `_public_source_name`: no white space around, `/` for `\`, and none of them
at the end -/
def normalizedSource (value : String) : List Char :=
  trimSlashes ((Text.stripList Text.isSpace value.toList).map fun character =>
    if character = '\\' then '/' else character)

/-- `text.rsplit("/", 1)[-1]` -/
def lastSegment (text : List Char) : List Char :=
  text.rtakeWhile fun character => character ≠ '/'

def webSchemes : List (List Char) :=
  ["http".toList, "https".toList, "file".toList]

/-- The text the name is cut from -/
def sourceText (normalized : List Char) (parsed : SplitResult) : List Char :=
  if parsed.scheme ∈ webSchemes then trimSlashes (library.unquote parsed.path) else normalized

/-- `segment or "document"` -/
def nameOf (segment : List Char) : String :=
  if segment = [] then "document" else String.ofList segment

/-- `_public_source_name` -/
def publicSourceName (value : String) : Option String :=
  let normalized := normalizedSource value
  if normalized = [] then some "document"
  else (urlsplit library.accepts normalized).map fun parsed =>
    nameOf (lastSegment (sourceText library normalized parsed))

/-- `_public_source_reference`, for a value that is no path object -/
def publicSourceReference (value : Value) : Option String :=
  publicSourceName library (library.str (value.orElse (.str "")))

/-! ## Metadata -/

/-- `_PUBLIC_DOCUMENT_METADATA_KEYS` -/
def publicDocumentMetadataKeys : List String :=
  ["attachment_id", "chunk_id", "chunk_index", "document_id", "end_time", "filename", "heading",
    "knowledge_base_id", "knowledge_base_name", "local_rank", "page", "page_number",
    "reranker_score", "rrf_score", "score", "section", "source_id", "source_type", "start_time",
    "temporary_attachment"]

/-- `_PUBLIC_ORIGIN_METADATA_KEYS` -/
def publicOriginMetadataKeys : List String :=
  ["chunk_id", "document_id", "knowledge_base_id", "knowledge_base_name", "local_rank", "page",
    "page_number", "rrf_score"]

/-- `_public_metadata_scalar` -/
def publicMetadataScalar : Value → Value
  | .str value => .str (Text.truncate 1024 value)
  | .bool value => .bool value
  | .int value => .int value
  | .float value => .float value
  | _ => .null

/-- The values under the keys, but for missing ones and those that are no scalars -/
def publicEntries (keys : List String) (metadata : Metadata) : Metadata :=
  keys.filterMap fun key =>
    match publicMetadataScalar (metadata.get key) with
    | .null => none
    | scalar => some (key, scalar)

/-- The entry of the source, if there is one -/
def publicSource (metadata : Metadata) : Option Metadata :=
  if (metadata.get "source").truthy then
    (publicSourceReference library (metadata.get "source")).map fun name =>
      [("source", .str name)]
  else some []

def publicOrigin (rawOrigin : Metadata) : Option Metadata :=
  (publicSource library rawOrigin).map fun source =>
    source ++ publicEntries publicOriginMetadataKeys rawOrigin

/-- The dictionaries of a list -/
def dictionaries : Value → List Metadata
  | .list items => items.filterMap fun
      | .dict entries => some entries
      | _ => none
  | _ => []

/-- `_public_knowledge_base_origins` -/
def publicKnowledgeBaseOrigins (value : Value) : Option (List Metadata) :=
  (dictionaries value).mapM (publicOrigin library)

/-- The entry of the origins, if there is one -/
def publicOrigins (metadata : Metadata) : Option Metadata :=
  match metadata.get "knowledge_base_origins" with
  | .null => some []
  | value => (publicKnowledgeBaseOrigins library value).map fun origins =>
      [("knowledge_base_origins", .list (origins.map .dict))]

/-- `_public_document_metadata`, for a dictionary -/
def publicDocumentMetadata (metadata : Metadata) : Option Metadata := do
  let source ← publicSource library metadata
  let origins ← publicOrigins library metadata
  some (source ++ publicEntries publicDocumentMetadataKeys metadata ++ origins)

/-! ## Payloads of sources -/

/-- `os.path.splitext(filename)[1].lstrip(".")`, for a name without slashes -/
def extensionOf (filename : List Char) : List Char :=
  let front := filename.rdropWhile fun character => character ≠ '.'
  if front.all (· = '.') then [] else filename.rtakeWhile fun character => character ≠ '.'

/-- `_source_type_from_filename` -/
def sourceTypeFromFilename (filename : String) : String :=
  let extension := String.ofList (extensionOf (library.lower filename).toList)
  if extension = "pdf" then "pdf"
  else if extension = "md" then "markdown"
  else if extension = "txt" then "text"
  else if extension ∈ ["mp3", "wav", "m4a", "webm", "ogg", "flac"] then "audio"
  else "document"

/-- `_source_snippet` -/
def sourceSnippet (text : String) : String :=
  let cleaned := " ".intercalate (Text.split text)
  if cleaned.length ≤ 240 then cleaned
  else Text.rstrip (Text.truncate 237 cleaned) ++ "..."

/-- `payload[public_key] = scalar` for a value that is present -/
def setScalar (payload : Metadata) (publicKey : String) (value : Value) : Metadata :=
  match publicMetadataScalar value with
  | .null => payload
  | scalar => payload.set publicKey scalar

/-- `payload[key] = scalar` for a value that is present, also if it is no scalar -/
def setPresent (payload : Metadata) (key : String) (value : Value) : Metadata :=
  match value with
  | .null => payload
  | value => payload.set key (publicMetadataScalar value)

/-- The name of the file, `"document"` if there is no source -/
def payloadName (metadata : Metadata) : Option String :=
  let source := library.str ((metadata.get "source").orElse (.str ""))
  if source = "" then some "document" else publicSourceName library source

/-- The type of the source, by the name of the file if the metadata have none -/
def payloadType (metadata : Metadata) (filename : String) : String :=
  match publicMetadataScalar (metadata.get "source_type") with
  | .str sourceType =>
      if sourceType = "" then sourceTypeFromFilename library filename else sourceType
  | _ => sourceTypeFromFilename library filename

/-- The entries of a payload before those of the origins -/
def payloadFront (doc : Document) (filename : String) : Metadata :=
  setPresent (setPresent
    [("filename", .str filename), ("source_type", .str (payloadType library doc.metadata filename)),
      ("snippet", .str (sourceSnippet doc.pageContent))]
    "knowledge_base_id" (doc.metadata.get "knowledge_base_id"))
    "knowledge_base_name" (doc.metadata.get "knowledge_base_name")

/-- The rest of `_source_payload` -/
def withScalars (metadata payload : Metadata) : Metadata :=
  setScalar (setScalar (setScalar (setScalar payload
    "chunk_id" (metadata.get "chunk_id"))
    "page" (metadata.get "page"))
    "page" (metadata.get "page_number"))
    "score" (metadata.get "reranker_score")

/-- `_source_payload` -/
def sourcePayload (doc : Document) : Option Metadata := do
  let filename ← payloadName library doc.metadata
  let origins ← publicOrigins library doc.metadata
  some (withScalars doc.metadata (payloadFront library doc filename ++ origins))

end

end RAGuardian.Ranking
