import RAGuardian.Documents.Stores
import RAGuardian.Ingestion.Service

/-! # The storage of snapshots

Where the documents of a data source are stored under the upload folder. -/

namespace RAGuardian.Ingestion

/-- What the storage uses of the language's libraries. -/
structure Naming where
  lower : String → String
  /-- The first sixteen hexadecimal digits of a SHA-256 hash. -/
  remoteHash : String → String

/-- `Path(path).name` -/
def pathName (path : String) : List Char :=
  ((path.toList.splitOn '/').filter fun part => part ≠ [] ∧ part ≠ ['.']).getLast?.getD []

/-- `Path(path).stem`: the name up to its last dot, unless that is its first or last
character. -/
def stem (path : String) : String :=
  let name := pathName path
  let suffix := name.reverse.takeWhile (· ≠ '.')
  match name.reverse.dropWhile (· ≠ '.') with
  | [] => String.ofList name
  | _ :: front =>
      if front = [] ∨ suffix = [] then String.ofList name else String.ofList front.reverse

section

variable (naming : Naming)

/-- `_slug` -/
def slug (value : String) : String :=
  let hyphenated := Documents.hyphenate false (naming.lower (Text.strip value)).toList
  Text.truncate 80 (String.ofList (Text.stripList (fun character =>
    character ∈ ['-', '.', '_']) hyphenated))

/-- `stable_filename` -/
def stableFilename (sourceId remoteId originalName extension : String) : String :=
  orElse (slug naming sourceId) "source" ++ "__" ++
    naming.remoteHash (orElse remoteId originalName) ++ "__" ++
    orElse (slug naming (stem (orElse originalName "document"))) "document" ++ "." ++
    safeExtension extension

/-- `_source_dir` -/
def sourceDir (uploadFolder sourceId : String) : String :=
  let external := uploadFolder ++ "/external"
  if slug naming sourceId = "" then external else external ++ "/" ++ slug naming sourceId

/-! ## Deliveries -/

/-- A document a plugin has fetched, and the metadata it is indexed with. -/
structure Delivery where
  sourceId : String
  remoteId : String
  originalName : String
  extension : String
  content : Documents.Content
  metadata : Metadata

/-- The remote item a document is a version of. -/
def Delivery.item (delivery : Delivery) : String × String :=
  (delivery.sourceId, delivery.remoteId)

def Delivery.filename (delivery : Delivery) : String :=
  stableFilename naming delivery.sourceId delivery.remoteId delivery.originalName
    delivery.extension

/-- Where the document is stored. -/
def Delivery.path (uploadFolder : String) (delivery : Delivery) : String :=
  sourceDir naming uploadFolder delivery.sourceId ++ "/" ++ delivery.filename naming

/-- `_staged_path` -/
def Delivery.stagedPath (uploadFolder : String) (delivery : Delivery) (unique : String) :
    String :=
  sourceDir naming uploadFolder delivery.sourceId ++ "/." ++ delivery.filename naming ++ "." ++
    unique ++ ".staged-ingestion"

/-- `materialize_item` and `materialize_attachment`, with staging. -/
def materialize (uploadFolder : String) (delivery : Delivery) (unique : String)
    (world : Documents.World) : Documents.World :=
  { world with
    files := world.files.set (delivery.stagedPath naming uploadFolder unique) delivery.content }

end

/-- The bytes `materialize_item` writes. -/
def IngestionItem.bytes (item : IngestionItem) : Documents.Content :=
  item.contentBytes.getD item.content.toUTF8.toList

def itemDelivery (sourceId pluginId : String) (item : IngestionItem) : Delivery where
  sourceId := sourceId
  remoteId := item.remoteId
  originalName := item.filename
  extension := item.extension
  content := item.bytes
  metadata := itemMetadata sourceId pluginId item

def attachmentDelivery (sourceId pluginId : String) (item : IngestionItem)
    (attachment : IngestionAttachment) : Delivery where
  sourceId := sourceId
  remoteId := attachmentRemoteId item attachment
  originalName := attachment.filename
  extension := attachment.extension
  content := attachment.content
  metadata := attachmentMetadata sourceId pluginId item attachment

/-- The documents of an item, in the order of the loops. -/
def itemDeliveries (sourceId pluginId : String) (item : IngestionItem) : List Delivery :=
  itemDelivery sourceId pluginId item ::
    (item.attachments.filter fun attachment =>
      safeExtension attachment.extension ∈ documentIndexExtensions).map
        (attachmentDelivery sourceId pluginId item)

end RAGuardian.Ingestion
