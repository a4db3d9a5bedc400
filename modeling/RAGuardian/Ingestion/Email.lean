import RAGuardian.Ingestion.Service

/-! # The IMAP plugin

The plugin asks for the messages after the last uid it has seen, takes a page of them,
and returns the greatest uid of the page as the new cursor, whatever became of the
single messages. -/

namespace RAGuardian.Ingestion

open Execution

/-! ## Messages -/

/-- A part of a message: its headers as they are decoded, its payload, and the payload
as a text of its character set. -/
structure Part where
  disposition : String
  contentType : String
  filename : String
  payload : List UInt8
  text : Except String String

/-- A message as it is decoded. The date is absent if it cannot be parsed. -/
structure Message where
  subject : String
  sender : String
  recipients : List String
  messageId : String
  inReplyTo : String
  references : String
  date : Option String
  multipart : Bool
  parts : List Part

structure EmailConfig where
  fromContains : String
  subjectContains : String
  since : String
  maxMessages : Nat
  bounded : 1 ≤ maxMessages ∧ maxMessages ≤ 500
  includeBody : Bool
  includeAttachments : Bool

section

variable (library : Library) (config : EmailConfig)

/-- `_matches_filters` -/
def matchesFilters (sender subject updatedAt : String) : Bool :=
  let fromFilter := library.lower config.fromContains
  let subjectFilter := library.lower config.subjectContains
  let since := Text.strip config.since
  if fromFilter ≠ "" ∧ contains fromFilter (library.lower sender) = false then false
  else if subjectFilter ≠ "" ∧ contains subjectFilter (library.lower subject) = false then false
  else if since ≠ "" ∧ updatedAt ≠ "" then
    match library.before updatedAt since with
    | some true => false
    | _ => true
  else true

/-- The texts of the parts of a type that are no attachments. -/
def bodyTexts (contentType : String) : List Part → Except String (List String)
  | [] => .ok []
  | part :: rest =>
      if part.disposition = "attachment" ∨ part.payload = [] then bodyTexts contentType rest
      else do
        let text ← part.text
        let texts ← bodyTexts contentType rest
        pure (if part.contentType = contentType then text :: texts else texts)

/-- `_extract_body` -/
def extractBody (message : Message) : Except String String := do
  let plain ← bodyTexts "text/plain" message.parts
  let html ← bodyTexts "text/html" message.parts
  let body := Text.strip ("\n\n".intercalate plain)
  pure (orElse body (Text.strip ("\n\n".intercalate (html.map library.htmlToText))))

/-- `_email_markdown` -/
def emailMarkdown (subject sender : String) (recipients : List String)
    (updatedAt body : String) : String :=
  "\n".intercalate ["# " ++ subject, "", "From: " ++ sender,
    "To: " ++ ", ".intercalate recipients, "Date: " ++ updatedAt, ""] ++ body

/-- `_extract_attachments`: the parts with a file name of an indexed type. -/
def extractAttachments (uid : String) (parent : Metadata) :
    List Part → Nat → List IngestionAttachment
  | [], _ => []
  | part :: rest, index =>
      let filename := Text.strip part.filename
      let extension := library.extension filename
      if filename = "" ∨ extension ∉ documentIndexExtensions ∨ part.payload = [] then
        extractAttachments uid parent rest (index + 1)
      else
        let attachmentId := uid ++ ":attachment:" ++ toString index
        { filename := filename
          extension := extension
          remoteId := attachmentId
          updatedAt := (parent.get? "remote_updated_at").getD ""
          metadata := (((parent.set "source_type" "email_attachment").set
            "remote_id" attachmentId).set "attachment_id" attachmentId).set
            "attachment_filename" filename
          content := part.payload } :: extractAttachments uid parent rest (index + 1)

/-- `parse_email_message`, with the clock it reads for a message without a date. -/
def parseEmailMessage (now : String) (raw : Except String Message) (uid : String) :
    Except String (Option IngestionItem) := do
  let message ← raw
  let subject := orElse (Text.strip message.subject) "(no subject)"
  let sender := Text.strip message.sender
  let messageId := orElse (Text.strip message.messageId) uid
  let threadId := Text.strip (orElse (orElse message.inReplyTo message.references) messageId)
  let updatedAt := message.date.getD now
  if matchesFilters library config sender subject updatedAt = false then pure none
  else
    let body ← extractBody library message
    if body = "" ∧ config.includeAttachments = false then pure none
    else
      let metadata := ((((((((Dictionary.empty.set "source_type" "email").set
        "ingestion_plugin" "email_imap").set "remote_id" uid).set "remote_url" "").set
        "remote_updated_at" updatedAt).set "subject" subject).set "sender" sender).set
        "recipients" (", ".intercalate message.recipients)).set "thread_id" threadId
      let metadata := metadata.set "message_id" messageId
      pure (some {
        content :=
          if config.includeBody then
            emailMarkdown subject sender message.recipients updatedAt body
          else ""
        filename := subject ++ ".md"
        extension := "md"
        remoteId := uid
        updatedAt := updatedAt
        metadata := metadata
        attachments :=
          if config.includeAttachments ∧ message.multipart then
            extractAttachments library uid metadata message.parts 0
          else [] })

/-! ## The mailbox -/

/-- What a fetch returns: an exception, a refusal, a reply without a message, or the
message. -/
inductive Fetch
  | raised (error : String)
  | refused
  | empty
  | found
deriving DecidableEq

/-- What the plugin meets in one sync: whether it can log in, select the folder and
search it, the uids in the server's order, the replies to the fetches, and the
clock. -/
structure Mailbox where
  connected : Except String Unit
  uids : List Nat
  fetch : Nat → Fetch
  now : String

/-- The reply to `UID {last_uid + 1}:*`: the uids from there on, and the greatest one
in any case. -/
def Mailbox.search (mailbox : Mailbox) (lastUid : Nat) : List Nat :=
  mailbox.uids.filter fun uid =>
    decide (lastUid + 1 ≤ uid) || mailbox.uids.all fun other => decide (other ≤ uid)

structure Fetched where
  newestUid : Nat
  items : List IngestionItem
  errors : List SyncError

/-- The uids `sync` goes through. -/
def Mailbox.page (config : EmailConfig) (mailbox : Mailbox) (lastUid : Nat) : List Nat :=
  (mailbox.search lastUid).take config.maxMessages

variable (messages : Nat → Except String Message)

/-- One turn of the loop over the uids. -/
def Fetched.next (mailbox : Mailbox) (fetched : Fetched) (uid : Nat) : Fetched :=
  let fetched := { fetched with newestUid := max fetched.newestUid uid }
  let failed (error : String) : Fetched :=
    { fetched with errors := fetched.errors ++ [⟨toString uid, error⟩] }
  match mailbox.fetch uid with
  | .raised error => failed error
  | .refused => failed "fetch failed"
  | .empty => failed "empty message"
  | .found =>
      match parseEmailMessage library config mailbox.now (messages uid) (toString uid) with
      | .error error => failed error
      | .ok none => fetched
      | .ok (some item) => { fetched with items := fetched.items ++ [item] }

/-- `EmailIngester.sync` -/
def emailSync (mailbox : Mailbox) (lastUid : Nat) : Except String (SyncResult Nat) := do
  mailbox.connected
  let fetched := (mailbox.page config lastUid).foldl
    (Fetched.next library config messages mailbox) ⟨lastUid, [], []⟩
  pure ⟨fetched.items, fetched.newestUid, fetched.errors⟩

/-- The plugin on a folder with these messages. -/
def emailIngester : Ingester Mailbox Nat where
  pluginId := "email_imap"
  sync := emailSync library config messages

/-! ## What a page yields -/

variable {library config messages} {mailbox : Mailbox}

theorem next_newest (fetched : Fetched) (uid : Nat) :
    (Fetched.next library config messages mailbox fetched uid).newestUid =
      max fetched.newestUid uid := by
  rw [Fetched.next]
  split
  · rfl
  · rfl
  · rfl
  · split
    · rfl
    · rfl
    · rfl

theorem next_keeps (fetched : Fetched) (uid : Nat) :
    fetched.items ⊆ (Fetched.next library config messages mailbox fetched uid).items := by
  rw [Fetched.next]
  split
  · exact List.Subset.refl _
  · exact List.Subset.refl _
  · exact List.Subset.refl _
  · split
    · exact List.Subset.refl _
    · exact List.Subset.refl _
    · exact List.subset_append_left _ _

theorem next_parsed (fetched : Fetched) {uid : Nat} {item : IngestionItem}
    (found : mailbox.fetch uid = .found)
    (parsed : parseEmailMessage library config mailbox.now (messages uid) (toString uid) =
      .ok (some item)) :
    item ∈ (Fetched.next library config messages mailbox fetched uid).items := by
  rw [Fetched.next, found, parsed]
  exact List.mem_append_right _ List.mem_cons_self

/-- The new cursor is the old one or one of the uids, and none of them is greater. -/
theorem fold_newest (uids : List Nat) (fetched : Fetched) :
    let after := uids.foldl (Fetched.next library config messages mailbox) fetched
    fetched.newestUid ≤ after.newestUid ∧ (∀ uid ∈ uids, uid ≤ after.newestUid) ∧
      (after.newestUid = fetched.newestUid ∨ after.newestUid ∈ uids) := by
  induction uids generalizing fetched with
  | nil => exact ⟨Nat.le_refl _, fun _ => nofun, .inl rfl⟩
  | cons uid rest induction =>
      rcases induction (Fetched.next library config messages mailbox fetched uid) with
        ⟨grows, bound, attained⟩
      rw [next_newest] at grows attained
      refine ⟨(Nat.le_max_left _ _).trans grows, ?_, ?_⟩
      · intro other member
        rcases List.mem_cons.mp member with rfl | later
        · exact (Nat.le_max_right _ _).trans grows
        · exact bound other later
      · rcases attained with same | member
        · rcases Nat.le_total fetched.newestUid uid with newer | older
          · rw [Nat.max_eq_right newer] at same
            exact .inr (List.mem_cons.mpr (.inl same))
          · rw [Nat.max_eq_left older] at same
            exact .inl same
        · exact .inr (List.mem_cons_of_mem _ member)

theorem fold_keeps (uids : List Nat) (fetched : Fetched) :
    fetched.items ⊆ (uids.foldl (Fetched.next library config messages mailbox) fetched).items := by
  induction uids generalizing fetched with
  | nil => exact List.Subset.refl _
  | cons uid rest induction => exact List.Subset.trans (next_keeps fetched uid) (induction _)

theorem fold_parsed {uids : List Nat} (fetched : Fetched) {uid : Nat} (member : uid ∈ uids)
    {item : IngestionItem} (found : mailbox.fetch uid = .found)
    (parsed : parseEmailMessage library config mailbox.now (messages uid) (toString uid) =
      .ok (some item)) :
    item ∈ (uids.foldl (Fetched.next library config messages mailbox) fetched).items := by
  induction uids generalizing fetched with
  | nil => cases member
  | cons first rest induction =>
      rcases List.mem_cons.mp member with rfl | later
      · exact fold_keeps rest _ (next_parsed fetched found parsed)
      · exact induction _ later

end

/-! ## Runs -/

section

variable (library : Library) (config : EmailConfig) (messages : Nat → Except String Message)

/-- A data source and the documents received, after some syncs. -/
def emailRun (source : Source Nat) (syncs : List (Sync Mailbox)) : State Nat :=
  run (fun sync state => (syncDataSource (emailIngester library config messages) sync state).2)
    ⟨source, []⟩ syncs

/-- The filters let the message pass at no time. -/
def Excluded (uid : Nat) : Prop :=
  ∀ now, parseEmailMessage library config now (messages uid) (toString uid) = .ok none

/-- The message has been indexed or recognised as a duplicate. -/
def EmailReceived (source : Source Nat) (uid : Nat) (received : List Document) : Prop :=
  ∃ now item, parseEmailMessage library config now (messages uid) (toString uid) =
    .ok (some item) ∧ Delivered source.id "email_imap" item received

/-- A message that passes the filters is left out by the search only if it has been
received. -/
def EmailsOffered (source : Source Nat) (syncs : List (Sync Mailbox)) : Prop :=
  ∀ past sync, past ++ [sync] <+: syncs → ∀ uid ∈ sync.remote.uids,
    ¬ Excluded library config messages uid →
    uid ∉ sync.remote.search (emailRun library config messages source past).source.cursor →
    EmailReceived library config messages source uid
      (emailRun library config messages source past).received

/-- Uids are positive and ascending, as the protocol has it. In every sync that
completes the uids that do not fit on the page are greater than those that do, and no
message of the page that may pass the filters fails. -/
structure EmailsCareful (source : Source Nat) (syncs : List (Sync Mailbox)) : Prop where
  positive : ∀ sync ∈ syncs, ∀ uid ∈ sync.remote.uids, 0 < uid
  ascending : ∀ past sync, past ++ [sync] <+: syncs → ∀ uid ∈ sync.remote.uids,
    ∀ earlier ∈ past, uid ∉ earlier.remote.uids → ∀ other ∈ earlier.remote.uids, other < uid
  ordered : ∀ past sync, past ++ [sync] <+: syncs → ∀ summary,
    (syncDataSource (emailIngester library config messages) sync
      (emailRun library config messages source past)).1 = .ok summary →
    ∀ lastUid, lastUid = (emailRun library config messages source past).source.cursor →
    ∀ uid ∈ sync.remote.search lastUid, uid ∉ sync.remote.page config lastUid →
      ∀ taken ∈ sync.remote.page config lastUid, taken < uid
  accepted : ∀ past sync, past ++ [sync] <+: syncs → ∀ summary,
    (syncDataSource (emailIngester library config messages) sync
      (emailRun library config messages source past)).1 = .ok summary →
    ∀ lastUid, lastUid = (emailRun library config messages source past).source.cursor →
    ∀ uid ∈ sync.remote.page config lastUid, ¬ Excluded library config messages uid →
      sync.remote.fetch uid = .found ∧
        ∃ item, parseEmailMessage library config sync.remote.now (messages uid) (toString uid) =
          .ok (some item) ∧ sync.indexing.AcceptsAll item

variable {library config messages} {source : Source Nat} {syncs : List (Sync Mailbox)}

theorem EmailsCareful.before {past : List (Sync Mailbox)}
    (careful : EmailsCareful library config messages source syncs) (within : past <+: syncs) :
    EmailsCareful library config messages source past where
  positive sync member := careful.positive sync (within.subset member)
  ascending earlier sync early := careful.ascending earlier sync (early.trans within)
  ordered earlier sync early := careful.ordered earlier sync (early.trans within)
  accepted earlier sync early := careful.accepted earlier sync (early.trans within)

theorem EmailReceived.mono {uid : Nat} {earlier later : List Document}
    (received : EmailReceived library config messages source uid earlier)
    (kept : earlier ⊆ later) : EmailReceived library config messages source uid later := by
  rcases received with ⟨now, item, parsed, delivered⟩
  exact ⟨now, item, parsed, delivered.mono kept⟩

/-- The cursor is a uid of an earlier mailbox, all of whose messages up to it have been
received. -/
def Covered (source : Source Nat) (past : List (Sync Mailbox)) (state : State Nat) : Prop :=
  state.source.id = source.id ∧ (state.source.cursor = 0 ∨
    ∃ sync ∈ past, state.source.cursor ∈ sync.remote.uids ∧
      ∀ uid ∈ sync.remote.uids, uid ≤ state.source.cursor →
        ¬ Excluded library config messages uid →
        EmailReceived library config messages source uid state.received)

/-- A message that is not offered has been received. -/
theorem Covered.received {past : List (Sync Mailbox)} {sync : Sync Mailbox} {state : State Nat}
    (careful : EmailsCareful library config messages source (past ++ [sync]))
    (covered : @Covered library config messages source past state)
    {uid : Nat} (present : uid ∈ sync.remote.uids) (behind : uid ≤ state.source.cursor)
    (passes : ¬ Excluded library config messages uid) :
    EmailReceived library config messages source uid state.received := by
  rcases covered with ⟨_, start | ⟨earlier, member, attained, all⟩⟩
  · have positive := careful.positive sync (List.mem_append_right _ List.mem_cons_self) uid present
    omega
  · by_cases known : uid ∈ earlier.remote.uids
    · exact all uid known behind passes
    · have ahead := careful.ascending past sync List.prefix_rfl uid present earlier member known
        state.source.cursor attained
      omega

theorem emailSync_ok {mailbox : Mailbox} {lastUid : Nat} {result : SyncResult Nat}
    (fetched : emailSync library config messages mailbox lastUid = .ok result) :
    result = ⟨((mailbox.page config lastUid).foldl
        (Fetched.next library config messages mailbox) ⟨lastUid, [], []⟩).items,
      ((mailbox.page config lastUid).foldl
        (Fetched.next library config messages mailbox) ⟨lastUid, [], []⟩).newestUid,
      ((mailbox.page config lastUid).foldl
        (Fetched.next library config messages mailbox) ⟨lastUid, [], []⟩).errors⟩ := by
  rw [emailSync] at fetched
  cases connected : mailbox.connected with
  | error error =>
      rw [connected] at fetched
      cases fetched
  | ok _ =>
      rw [connected] at fetched
      cases fetched
      rfl

theorem page_subset (mailbox : Mailbox) (lastUid : Nat) :
    mailbox.page config lastUid ⊆ mailbox.uids :=
  fun _ member => (List.mem_filter.mp (List.mem_of_mem_take member)).1

theorem search_mem {mailbox : Mailbox} {lastUid uid : Nat} (present : uid ∈ mailbox.uids)
    (ahead : lastUid < uid) : uid ∈ mailbox.search lastUid := by
  rw [Mailbox.search, List.mem_filter]
  exact ⟨present, by simp [Nat.succ_le_of_lt ahead]⟩

/-- Every careful sync keeps the cursor covered. -/
theorem Covered.after {past : List (Sync Mailbox)} {sync : Sync Mailbox}
    (careful : EmailsCareful library config messages source (past ++ [sync]))
    (covered : @Covered library config messages source past
      (emailRun library config messages source past)) :
    @Covered library config messages source
      (past ++ [sync]) (syncDataSource (emailIngester library config messages) sync
        (emailRun library config messages source past)).2 := by
  have outcome := synced (emailIngester library config messages) sync
    (emailRun library config messages source past)
  have ordered := careful.ordered past sync List.prefix_rfl
  have accepted := careful.accepted past sync List.prefix_rfl
  have received := @Covered.received library config messages source past sync _ careful covered
  generalize emailRun library config messages source past = state at *
  generalize syncDataSource (emailIngester library config messages) sync state = result at *
  rcases covered with ⟨id, reached⟩
  cases outcome with
  | broken error documents kept =>
      refine ⟨id, ?_⟩
      rcases reached with start | ⟨earlier, member, attained, all⟩
      · exact .inl start
      · refine .inr ⟨earlier, List.mem_append_left _ member, attained, ?_⟩
        intro uid known behind passes
        exact (all uid known behind passes).mono kept
  | completed summary result after sameId fetched cursor kept delivers =>
      have ordered := ordered summary rfl state.source.cursor rfl
      have accepted := accepted summary rfl state.source.cursor rfl
      have page := emailSync_ok fetched
      rcases @fold_newest library config messages sync.remote
        (sync.remote.page config state.source.cursor)
        ⟨state.source.cursor, [], []⟩ with ⟨_, _, attained⟩
      have newest : after.source.cursor = ((sync.remote.page config state.source.cursor).foldl
          (Fetched.next library config messages sync.remote)
          ⟨state.source.cursor, [], []⟩).newestUid := by
        rw [cursor, page]
      rw [← newest] at attained
      refine ⟨sameId.trans id, ?_⟩
      rcases attained with same | taken
      · change after.source.cursor = state.source.cursor at same
        rcases reached with start | ⟨earlier, member, attained, all⟩
        · exact .inl (same.trans start)
        · refine .inr ⟨earlier, List.mem_append_left _ member, same ▸ attained, ?_⟩
          intro uid known behind passes
          exact (all uid known (same ▸ behind) passes).mono kept
      · refine .inr ⟨sync, List.mem_append_right _ List.mem_cons_self,
          page_subset _ _ taken, ?_⟩
        intro uid present behind passes
        rcases Nat.lt_or_ge state.source.cursor uid with ahead | old
        · by_cases onPage : uid ∈ sync.remote.page config state.source.cursor
          · rcases accepted uid onPage passes with ⟨found, item, parsed, accepts⟩
            have yielded : item ∈ result.items := by
              rw [page]
              exact fold_parsed _ onPage found parsed
            have delivered := delivers item yielded accepts
            rw [id] at delivered
            exact ⟨sync.remote.now, item, parsed, delivered⟩
          · have greater : after.source.cursor < uid :=
              ordered uid (search_mem present ahead) onPage _ taken
            exact absurd behind (Nat.not_le_of_lt greater)
        · exact (received present old passes).mono kept

/-- Along careful syncs the cursor stays covered. -/
theorem emailRun_covered (start : source.cursor = 0)
    (careful : EmailsCareful library config messages source syncs) :
    @Covered library config messages source syncs
      (emailRun library config messages source syncs) := by
  induction syncs using List.reverseRecOn with
  | nil => exact ⟨rfl, .inl start⟩
  | append_singleton past sync induction =>
      rw [emailRun, run_concat]
      exact Covered.after careful (induction (careful.before (List.prefix_append _ _)))

/-- Careful syncs lose no message. -/
theorem run_emails_offered (start : source.cursor = 0)
    (careful : EmailsCareful library config messages source syncs) :
    EmailsOffered library config messages source syncs := by
  intro past sync within uid present passes skipped
  have careful := careful.before within
  have covered := emailRun_covered start (careful.before (List.prefix_append _ _))
  apply covered.received careful present _ passes
  by_contra ahead
  exact skipped (search_mem present (Nat.lt_of_not_le ahead))

end

end RAGuardian.Ingestion
