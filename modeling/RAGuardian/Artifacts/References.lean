import Mathlib.Data.Finset.Sort
import Mathlib.Data.String.Basic
import RAGuardian.Foundation.Json
import RAGuardian.History.Errors

/-! # Artifact references in message metadata

Messages keep only public identifiers of chat uploads, generated images and
interpreter runs. The extraction below decides which of them a conversation
owns. -/

namespace RAGuardian.Artifacts

open Json Text History

/-- `ConversationArtifactReferences` -/
structure References where
  attachmentIds : Finset String
  imageNames : Finset String
  runIds : Finset String

namespace References

def empty : References := ⟨∅, ∅, ∅⟩

def union (left right : References) : References where
  attachmentIds := left.attachmentIds ∪ right.attachmentIds
  imageNames := left.imageNames ∪ right.imageNames
  runIds := left.runIds ∪ right.runIds

end References

/-! ## Identifier patterns -/

/-- `[0-9a-f]` -/
def isLowerHex (character : Char) : Bool :=
  ('0' ≤ character && character ≤ '9') || ('a' ≤ character && character ≤ 'f')

/-- `[A-Za-z0-9._-]` -/
def isImageNameCharacter (character : Char) : Bool :=
  character.isAlphanum || character == '.' || character == '_' || character == '-'

/-- `ATTACHMENT_ID_RE.fullmatch` -/
def matchesAttachmentId (value : String) : Bool :=
  value.toList.length == 32 && value.toList.all isLowerHex

/-- `RUN_ID_RE.fullmatch` -/
def matchesRunId (value : String) : Bool :=
  value.toList.length == 12 && value.toList.all isLowerHex

/-- `IMAGE_NAME_RE.fullmatch`, returning the `run_id` group: twelve hexadecimal
digits, an underscore, and a non-empty stem before `.png`. -/
def runIdForImage (imageName : String) : Option String :=
  let characters := imageName.toList
  let runId := characters.take 12
  let tail := characters.drop 13
  if runId.length == 12 && runId.all isLowerHex && characters[12]? == some '_' &&
      5 ≤ tail.length && tail.all isImageNameCharacter &&
      ".png".toList.isSuffixOf tail then
    some (String.ofList runId)
  else
    none

/-! ## Public image names -/

/-- The interpreter's `urlsplit` also refuses network locations with a malformed
bracketed host or with characters that normalise to delimiters. Which ones
depends on its release, so the check is a parameter. -/
structure UrlRules where
  netlocRefused : String → Bool

structure SplitResult where
  scheme : String
  netloc : String
  path : String
  query : String
  fragment : String

def isSchemeCharacter (character : Char) : Bool :=
  character.isAlphanum || character == '+' || character == '-' || character == '.'

/-- The `scheme:` in front of an URL, when there is one. -/
def splitScheme (url : List Char) : String × List Char :=
  match partition ':' url with
  | (scheme, some rest) =>
      if (scheme.head?.any Char.isAlpha) && scheme.all isSchemeCharacter then
        (lower (String.ofList scheme), rest)
      else
        ("", url)
  | (_, none) => ("", url)

/-- `urllib.parse.urlsplit` -/
def urlsplit (rules : UrlRules) (url : String) : Except StoreError SplitResult :=
  let trimmed := url.toList.dropWhile fun character => character.toNat ≤ 0x20
  let cleaned := trimmed.filter fun character =>
    !(character == '\t' || character == '\r' || character == '\n')
  let (scheme, rest) := splitScheme cleaned
  let isDelimiter (character : Char) : Bool :=
    character == '/' || character == '?' || character == '#'
  let (netloc, rest) :=
    match afterPrefix? "//".toList rest with
    | some authority =>
        (authority.takeWhile fun character => !isDelimiter character,
          authority.dropWhile fun character => !isDelimiter character)
    | none => ([], rest)
  if (netloc.contains '[') != (netloc.contains ']') ||
      rules.netlocRefused (String.ofList netloc) then
    .error .valueError
  else
    let (rest, fragment) := partition '#' rest
    let (path, query) := partition '?' rest
    .ok {
      scheme := scheme
      netloc := String.ofList netloc
      path := String.ofList path
      query := String.ofList (query.getD [])
      fragment := String.ofList (fragment.getD []) }

/-- `_public_image_name` -/
def publicImageName (rules : UrlRules) : Value → Except StoreError (Option String)
  | .str value => do
      let parsed ← urlsplit rules value
      if parsed.scheme != "" || parsed.netloc != "" || parsed.query != "" ||
          parsed.fragment != "" then
        return none
      match afterPrefix? "/code_pics/".toList parsed.path.toList with
      | none => return none
      | some imageName =>
          if imageName.contains '/' || (runIdForImage (String.ofList imageName)).isNone then
            return none
          return some (String.ofList imageName)
  | _ => return none

/-! ## Extraction -/

/-- The items a `for` statement visits, or the `TypeError` of a value that
cannot be iterated. -/
def iterate : Value → Except StoreError (List Value)
  | .list items => .ok items
  | .str value => .ok (value.toList.map fun character => .str (String.ofList [character]))
  | .dict entries => .ok (entries.map fun entry => .str entry.1)
  | .null | .bool _ | .int _ | .float _ | .object _ => .error .typeError

/-- `str(value).strip().lower()`, for a value used as an identifier -/
def identifierText (value : Value) : Option String :=
  value.scalarText.map fun text => lower (strip text)

/-- The identifier of one `attachments` entry, if it is well formed. -/
def attachmentId : Value → Option String
  | .dict entries =>
      let value := ((Value.lookup entries "id").orElse
        (Value.lookup entries "file_id")).orElse (.str "")
      (identifierText value).filter matchesAttachmentId
  | _ => none

/-- `references_from_response_payload` -/
def referencesFromResponsePayload (rules : UrlRules)
    (payload : List (String × Value)) : Except StoreError References := do
  let attachments ← iterate ((Value.lookup payload "attachments").orElse (.list []))
  let attachmentIds := attachments.filterMap attachmentId
  match Value.lookup payload "result" with
  | .dict result =>
      let runId := (identifierText ((Value.lookup result "run_id").orElse (.str ""))).filter
        matchesRunId
      let images ← iterate ((Value.lookup result "images").orElse (.list []))
      let names ← images.mapM (publicImageName rules)
      let imageNames := names.filterMap id
      return {
        attachmentIds := attachmentIds.toFinset
        imageNames := imageNames.toFinset
        runIds := (runId.toList ++ imageNames.filterMap runIdForImage).toFinset }
  | _ =>
      return ⟨attachmentIds.toFinset, ∅, ∅⟩

/-- `references_from_history_metadata` -/
def referencesFromHistoryMetadata (rules : UrlRules) :
    Value → Except StoreError References
  | .dict metadata =>
      match Value.lookup metadata "response_payload" with
      | .dict payload => referencesFromResponsePayload rules payload
      | _ => return .empty
  | _ => return .empty

/-- `exclusive_references`: sharing any image of a run protects the whole run. -/
def exclusiveReferences (target retained : References) : References where
  attachmentIds := target.attachmentIds \ retained.attachmentIds
  imageNames := (target.imageNames \ retained.imageNames).filter fun imageName =>
    (runIdForImage imageName).all fun runId => decide (runId ∉ retained.runIds)
  runIds := target.runIds \ retained.runIds

/-- `ConversationArtifactDeletionPlan` -/
structure DeletionPlan where
  conversationIds : List String
  target : References
  retained : References
  exclusive : References
  safe : Bool

end RAGuardian.Artifacts
