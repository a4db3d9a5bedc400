import RAGuardian.Foundation.Dictionary
import RAGuardian.Foundation.Fallible
import RAGuardian.Foundation.Text

/-! # The stores of the document indexer

The upload folder, the vector collection and the file index. -/

namespace RAGuardian.Documents

/-! ## Contents -/

abbrev Content := List UInt8

/-- A metadata value, as `normalize_metadata_values` leaves it. -/
inductive Scalar
  | text (value : String)
  | integer (value : Int)
  | float (representation : String)
  | flag (value : Bool)
deriving DecidableEq, Repr

/-- `str(value)` -/
def Scalar.render : Scalar → String
  | .text value => value
  | .integer value => toString value
  | .float representation => representation
  | .flag value => if value then "True" else "False"

/-- `bool(value)` -/
def Scalar.truthy : Scalar → Bool
  | .text value => value ≠ ""
  | .integer value => value ≠ 0
  | .float representation => representation ≠ "0.0" ∧ representation ≠ "-0.0"
  | .flag value => value

abbrev Metadata := Dictionary String Scalar

/-- `str(metadata.get(key) or default)` -/
def textOr (value : Option Scalar) (default : String) : String :=
  match value with
  | some value => if value.truthy then value.render else default
  | none => default

/-- `{**base, **extra}` -/
def merge (base extra : Metadata) : Metadata :=
  extra.entries.foldl (fun metadata entry => metadata.set entry.1 entry.2) base

/-- A text with its metadata, as the parsers make it. -/
structure Document where
  text : String
  metadata : Metadata

/-- The coordinates of an embedding, in units the indexer does not look at. -/
abbrev Embedding := List Int

/-- What the collection holds under a chunk id. -/
structure Chunk where
  text : String
  metadata : Metadata
  embedding : Embedding

/-- `metadata.get("source")` -/
def Chunk.source (chunk : Chunk) : Option Scalar :=
  chunk.metadata.get? "source"

/-- An entry of the file index. -/
abbrev Entry := Dictionary String Scalar

/-- `item.get("filename") == filename` -/
def Entry.isFor (filename : String) (entry : Entry) : Bool :=
  entry.get? "filename" = some (.text filename)

structure World where
  files : Dictionary String Content
  chunks : Dictionary String Chunk
  entries : List Entry

/-- A `DistributedLockLeaseLostError`, or any other exception. -/
inductive Failure
  | leaseLost (message : String)
  | raised (message : String)
deriving DecidableEq, Repr

/-- `str(exc)` -/
def Failure.message : Failure → String
  | .leaseLost message => message
  | .raised message => message

abbrev Action := EStateM Failure World

/-! ## The upload folder -/

/-- `os.path.isfile` -/
def World.isFile (world : World) (path : String) : Bool :=
  (world.files.get? path).isSome

/-- What `os.replace` leaves of a file that is there. -/
def World.replaceFile (world : World) (source target : String) : World :=
  match world.files.get? source with
  | none => world
  | some content => { world with files := (world.files.erase source).set target content }

/-- `os.replace` -/
def moveFile (source target : String) : Action Unit := do
  let world ← get
  if world.isFile source then set (world.replaceFile source target)
  else
    throw (.raised
      ("[Errno 2] No such file or directory: '" ++ source ++ "' -> '" ++ target ++ "'"))

/-- `os.remove` -/
def World.removeFile (world : World) (path : String) : World :=
  { world with files := world.files.erase path }

/-! ## The collection -/

/-- `collection.get(where={"source": source})` -/
def World.chunksOf (world : World) (source : String) : List (String × Chunk) :=
  world.chunks.entries.filter fun entry => entry.2.source = some (.text source)

/-- `collection.delete(ids=ids)` -/
def World.deleteChunks (world : World) (ids : List String) : World :=
  { world with chunks := world.chunks.removeWhere fun id _ => decide (id ∈ ids) }

/-- Add a chunk under a new id. The collection ignores ids it has. -/
def addChunk (chunks : Dictionary String Chunk) (entry : String × Chunk) :
    Dictionary String Chunk :=
  match chunks.get? entry.1 with
  | some _ => chunks
  | none => chunks.set entry.1 entry.2

/-- `collection.add` -/
def World.addChunks (world : World) (added : List (String × Chunk)) : World :=
  { world with chunks := added.foldl addChunk world.chunks }

/-- `collection.upsert` -/
def World.upsertChunks (world : World) (upserted : List (String × Chunk)) : World :=
  { world with
    chunks := upserted.foldl (fun chunks entry => chunks.set entry.1 entry.2) world.chunks }

/-- `restore_source_snapshot` -/
def World.restoreSnapshot (world : World) (source : String) (snapshot : List (String × Chunk)) :
    World :=
  let current := (world.chunksOf source).map Prod.fst
  (world.upsertChunks snapshot).deleteChunks
    (current.filter fun id => id ∉ snapshot.map Prod.fst)

/-- `find_document_by_id` -/
def World.findDocument (world : World) (documentId excludeSource : String) :
    Option (Option Scalar × Nat) :=
  let found := world.chunks.entries.filter fun entry =>
    entry.2.metadata.get? "document_id" = some (.text documentId)
  (found.find? fun entry => entry.2.source ≠ some (.text excludeSource)).map
    fun entry => (entry.2.source, found.length)

/-- Replace every run of other characters than `A-Za-z0-9_.-` by a hyphen. -/
def hyphenate (hyphen : Bool) : List Char → List Char
  | [] => []
  | character :: rest =>
      if character.isAlphanum ∨ character ∈ ['_', '.', '-'] then
        character :: hyphenate false rest
      else if hyphen then hyphenate true rest
      else '-' :: hyphenate true rest

/-- `re.sub(r"[^A-Za-z0-9_.-]+", "-", value).strip("-") or default` -/
def safeId (value default : String) : String :=
  let safe := Text.stripList (· = '-') (hyphenate false value.toList)
  if safe = [] then default else String.ofList safe

/-- `document_chunk_id`, with the hash of a source. -/
def documentChunkId (sourceHash : String → String) (metadata : Metadata) (index : Nat) :
    String :=
  let documentId := textOr (metadata.get? "document_id")
    (textOr (metadata.get? "source") "document")
  let sourceId := textOr (metadata.get? "source_id")
    (sourceHash (textOr (metadata.get? "source") documentId))
  let chunkId := ((metadata.get? "chunk_id").getD (.integer index)).render
  safeId sourceId "source" ++ ":" ++ safeId documentId "document" ++ ":chunk:" ++ chunkId

/-! ## The file index -/

/-- `FileIndex.get` -/
def World.entry (world : World) (filename : String) : Option Entry :=
  world.entries.find? (Entry.isFor filename)

/-- The entries of other files. -/
def World.otherEntries (world : World) (filename : String) : List Entry :=
  world.entries.filter fun entry => !Entry.isFor filename entry

/-- `FileIndex.record` -/
def World.record (world : World) (filename : String) (entry : Entry) : World :=
  { world with entries := entry :: world.otherEntries filename }

/-- `FileIndex.restore_entry` -/
def World.restoreEntry (world : World) (filename : String) (entry : Option Entry) : World :=
  { world with entries := entry.toList ++ world.otherEntries filename }

end RAGuardian.Documents
