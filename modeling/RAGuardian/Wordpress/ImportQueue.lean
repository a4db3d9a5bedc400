import RAGuardian.Foundation.Lines
import RAGuardian.Foundation.RelyGuarantee
import RAGuardian.Foundation.Text

/-! # The import queue of the WordPress plugin

`EC_Rag_Ingestion`: an export is written to a queue file, batches read it line by line and
submit the articles, and one option holds the state of the import. -/

namespace RAGuardian.Wordpress

open Concurrency Program

/-- The characters that `trim` removes. -/
def isTrimmed (byte : UInt8) : Bool :=
  [32, 9, 10, 13, 0, 11].contains byte

/-- `trim` -/
def trim (line : List UInt8) : List UInt8 :=
  Text.stripList isTrimmed line

/-- Articles as lines of JSON, and what else the plugin uses of its platform. -/
structure Format (Article : Type) where
  /-- `wp_json_encode` -/
  encode : Article → List UInt8
  /-- `json_decode` to an array -/
  decode : List UInt8 → Option Article
  postId : Article → Nat
  /-- `sanitize_text_field` -/
  sanitizeTextField : String → String
  encode_plain : ∀ article, 10 ∉ encode article
  trim_encode : ∀ article, trim (encode article ++ [10]) = encode article
  encode_nonempty : ∀ article, encode article ≠ []
  decode_encode : ∀ article, (decode (encode article)).isSome

/-! ## The site -/

inductive Status
  | queued
  | empty
  | running
  | completed
deriving DecidableEq, Repr

/-- The number of a queue file, for its unique name. -/
abbrev QueuePath := Nat

/-- The state of the import. A path that is empty is absent here. -/
structure ImportState where
  status : Status
  queuePath : Option QueuePath
  queueOffset : Nat
  total : Nat
  processed : Nat
  succeeded : Nat
  failed : Nat
  errors : List String
  knowledgeBaseId : String
deriving DecidableEq, Repr

/-- A state together with the queue it was prepared for, which a completed import no longer
names in its state. -/
structure Stored where
  queue : QueuePath
  state : ImportState
deriving DecidableEq, Repr

/-- A queue file. A deleted one can still be read where it was opened before. -/
structure QueueFile where
  content : List UInt8
  present : Bool
deriving DecidableEq, Repr

/-- An article handed to `ingest_article`, with the place of its line. -/
structure Submission (Article : Type) where
  queue : QueuePath
  offset : Nat
  article : Article
  knowledgeBaseId : String
deriving DecidableEq, Repr

/-- The queue files that were ever written, the option, and the submissions so far. -/
structure Site (Article : Type) where
  files : List QueueFile
  option : Option Stored
  submitted : List (Submission Article)

variable {Article : Type}

/-- A file operation, an access to the option, or an upload. -/
inductive Request (Article : Type)
  | writeQueue (content : List UInt8)
  | isFile (path : QueuePath)
  | deleteFile (path : QueuePath)
  | openQueue (path : QueuePath)
  | readLine (path : QueuePath) (offset : Nat)
  | atEnd (path : QueuePath) (offset : Nat)
  | getImportState
  | saveImportState (stored : Stored)
  | deleteOption
  | ingestArticle (submission : Submission Article)

@[reducible] def Request.Response : Request Article → Type
  | .writeQueue _ => QueuePath
  | .isFile _ => Bool
  | .deleteFile _ => Bool
  | .openQueue _ => Bool
  | .readLine _ _ => Option (List UInt8)
  | .atEnd _ _ => Bool
  | .getImportState => Option Stored
  | .saveImportState _ => Unit
  | .deleteOption => Unit
  | .ingestArticle _ => Option String

/-- What may go wrong: a file that is not deleted, an upload that fails. -/
structure Draw where
  deletes : Bool
  error : Option String

namespace Site

def exists? (site : Site Article) (path : QueuePath) : Bool :=
  (site.files[path]?).any (·.present)

def content (site : Site Article) (path : QueuePath) : List UInt8 :=
  ((site.files[path]?).map (·.content)).getD []

def delete (path : QueuePath) (site : Site Article) : Site Article :=
  { site with files := site.files.modify path fun file => { file with present := false } }

end Site

/-- How the platform answers. A new queue file has a name no other file ever had. -/
def answer (draw : Draw) (request : Request Article) (site : Site Article) :
    request.Response × Site Article :=
  match request with
  | .writeQueue content =>
      (site.files.length, { site with files := site.files ++ [⟨content, true⟩] })
  | .isFile path => (site.exists? path, site)
  | .deleteFile path =>
      if site.exists? path && draw.deletes then (true, site.delete path) else (false, site)
  | .openQueue path => (site.exists? path, site)
  | .readLine path offset => (Lines.fgets (site.content path) offset, site)
  | .atEnd path offset => (decide ((site.content path).length ≤ offset), site)
  | .getImportState => (site.option, site)
  | .saveImportState stored => ((), { site with option := some stored })
  | .deleteOption => ((), { site with option := none })
  | .ingestArticle submission =>
      (draw.error, { site with submitted := site.submitted ++ [submission] })

/-! ## The calls -/

abbrev Calls (Article : Type) := Program (Request Article) Request.Response

def writeQueue (content : List UInt8) : Calls Article QueuePath :=
  ask (Request.writeQueue content : Request Article)

def isFile (path : QueuePath) : Calls Article Bool :=
  ask (Request.isFile path : Request Article)

def deleteFile (path : QueuePath) : Calls Article Bool :=
  ask (Request.deleteFile path : Request Article)

def openQueue (path : QueuePath) : Calls Article Bool :=
  ask (Request.openQueue path : Request Article)

def readLine (path : QueuePath) (offset : Nat) : Calls Article (Option (List UInt8)) :=
  ask (Request.readLine path offset : Request Article)

def atEnd (path : QueuePath) (offset : Nat) : Calls Article Bool :=
  ask (Request.atEnd path offset : Request Article)

def getImportState : Calls Article (Option Stored) :=
  ask (Request.getImportState : Request Article)

def saveImportState (stored : Stored) : Calls Article Unit :=
  ask (Request.saveImportState stored : Request Article)

def deleteOption : Calls Article Unit :=
  ask (Request.deleteOption : Request Article)

def ingestArticle (submission : Submission Article) : Calls Article (Option String) :=
  ask (Request.ingestArticle submission : Request Article)

/-- `array_slice($errors, -20)` -/
def lastErrors (errors : List String) : List String :=
  errors.drop (errors.length - 20)

section

variable (format : Format Article)

/-- The lines of a queue file. -/
def queueLines (articles : List Article) : List (List UInt8) :=
  articles.map format.encode

/-- `prepare_wxr_queue` on the public articles of an export, from the queue file on. The
file is known to no other call before its state is stored. -/
def prepareWxrQueue (articles : List Article) (written : Bool) (knowledgeBaseId : String) :
    Calls Article (Except String ImportState) := do
  let queuePath ← writeQueue (Lines.join (queueLines format articles))
  if !written then
    let _ ← deleteFile queuePath
    return .error "Cannot write import queue."
  else
    let state : ImportState := {
      status := if articles.length > 0 then .queued else .empty
      queuePath := some queuePath
      queueOffset := 0
      total := articles.length
      processed := 0
      succeeded := 0
      failed := 0
      errors := []
      knowledgeBaseId := format.sanitizeTextField knowledgeBaseId }
    let publish : Calls Article (Except String ImportState) := do
      saveImportState ⟨queuePath, state⟩
      return .ok state
    let previous ← getImportState
    match previous.bind (·.state.queuePath) with
    | none => publish
    | some previousPath =>
        if previousPath = queuePath then publish
        else
          let found ← isFile previousPath
          if !found then publish
          else
            let deleted ← deleteFile previousPath
            if deleted then publish
            else
              let _ ← deleteFile queuePath
              return .error "Cannot replace the previous import queue. Clear it and retry."

/-- `complete_import` -/
def completeImport (stored : Stored) : Calls Article Unit := do
  let finish (stored : Stored) : Calls Article Unit :=
    saveImportState { stored with
      state := { stored.state with
        errors := lastErrors stored.state.errors
        status := .completed } }
  let cleared : Stored := { stored with state := { stored.state with queuePath := none } }
  match stored.state.queuePath with
  | none => finish cleared
  | some path =>
      let found ← isFile path
      if !found then finish cleared
      else
        let deleted ← deleteFile path
        if deleted then finish cleared
        else
          finish { stored with
            state := { stored.state with
              errors := stored.state.errors ++
                ["Import completed, but the local queue file could not be deleted."] } }

/-- The body of the loop over the lines of a batch, on the line at an offset. -/
def processLine (stored : Stored) (offset : Nat) (line : List UInt8) : Calls Article Stored := do
  let state := { stored.state with processed := stored.state.processed + 1 }
  match if trim line = [] then none else format.decode (trim line) with
  | none =>
      return { stored with
        state := { state with
          failed := state.failed + 1
          errors := state.errors ++
            ["Invalid queue item at line " ++ toString state.processed] } }
  | some article =>
      let response ← ingestArticle
        ⟨stored.queue, offset, article, format.sanitizeTextField state.knowledgeBaseId⟩
      match response with
      | some message =>
          return { stored with
            state := { state with
              failed := state.failed + 1
              errors := state.errors ++
                ["Post " ++ toString (format.postId article) ++ ": " ++ message] } }
      | none =>
          return { stored with state := { state with succeeded := state.succeeded + 1 } }

/-- The loop over the lines of a batch, with at most so many rounds left. -/
def processLines (path : QueuePath) : Nat → Stored → Nat → Calls Article (Stored × Nat)
  | 0, stored, offset => return (stored, offset)
  | rounds + 1, stored, offset => do
      if stored.state.processed < stored.state.total then
        let line ← readLine path offset
        match line with
        | none => return (stored, offset)
        | some line =>
            let stored ← processLine format stored offset line
            processLines path rounds stored (offset + line.length)
      else
        return (stored, offset)

/-- Skip lines of a queue whose state has no offset. -/
def skipLines (path : QueuePath) : Nat → Nat → Calls Article (Option Nat)
  | 0, offset => return some offset
  | count + 1, offset => do
      let line ← readLine path offset
      match line with
      | none => return none
      | some line => skipLines path count (offset + line.length)

/-- The position from which a batch goes on. -/
def seekQueue (path : QueuePath) (state : ImportState) : Calls Article (Option Nat) :=
  if state.queueOffset > 0 then return some state.queueOffset
  else if state.processed > 0 then skipLines path state.processed 0
  else return some 0

/-- The state after the lines of a batch. -/
def endBatch (state : ImportState) (offset : Nat) (atEnd : Bool) : ImportState :=
  let state := { state with queueOffset := offset }
  let state :=
    if atEnd && decide (state.processed < state.total) then
      let missing := state.total - state.processed
      { state with
        failed := state.failed + missing
        errors := state.errors ++
          ["Import queue ended " ++ toString missing ++ " item(s) early."]
        processed := state.total }
    else state
  { state with errors := lastErrors state.errors }

/-- The end of a batch that has read up to an offset. -/
def finishBatch (path : QueuePath) (stored : Stored) (offset : Nat) :
    Calls Article (Except String Unit) := do
  let ended ← atEnd path offset
  let stored := { stored with state := endBatch stored.state offset ended }
  if stored.state.processed ≥ stored.state.total then
    completeImport stored
    return .ok ()
  else
    saveImportState { stored with state := { stored.state with status := .queued } }
    return .ok ()

/-- `process_import_batch`, with the value of `ingestion_batch_size`. -/
def processImportBatch (batchSize : Nat) : Calls Article (Except String Unit) := do
  let state ← getImportState
  match state with
  | none => return .error "No readable import queue."
  | some stored =>
      if stored.state.status = .completed then return .ok ()
      else
        match stored.state.queuePath with
        | none => return .error "No readable import queue."
        | some path =>
            let readable ← isFile path
            if !readable then return .error "No readable import queue."
            else if stored.state.processed ≥ stored.state.total then
              completeImport stored
              return .ok ()
            else
              let opened ← openQueue path
              if !opened then return .error "Cannot read import queue."
              else
                let start ← seekQueue path stored.state
                match start with
                | none => return .error "Cannot resume import queue."
                | some start =>
                    let running := { stored with state := { stored.state with status := .running } }
                    let (stored, offset) ←
                      processLines format path (max 1 (min 50 batchSize)) running start
                    finishBatch path stored offset

/-- `handle_clear_import` -/
def handleClearImport : Calls Article Unit := do
  let state ← getImportState
  match state.bind (·.state.queuePath) with
  | none => deleteOption
  | some path =>
      let _ ← deleteFile path
      deleteOption

end

/-- An upload with the articles of the export, whether its queue can be written, and the
target; a batch, from cron or the admin page; or a clear. -/
inductive Call (Article : Type)
  | prepare (articles : List Article) (written : Bool) (knowledgeBaseId : String)
  | batch (batchSize : Nat)
  | clear

@[reducible] def Call.Outcome : Call Article → Type
  | .prepare _ _ _ => Except String ImportState
  | .batch _ => Except String Unit
  | .clear => Unit

/-- Calls of the plugin run at any time, and nothing excludes them from each other. -/
def importSystem (format : Format Article) :
    System (Request Article) Request.Response Draw (Site Article) (Call Article) Call.Outcome where
  execute := answer
  program
    | .prepare articles written knowledgeBaseId =>
        prepareWxrQueue format articles written knowledgeBaseId
    | .batch batchSize => processImportBatch format batchSize
    | .clear => handleClearImport
  excludes _ _ := false

end RAGuardian.Wordpress
