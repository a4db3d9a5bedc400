import Mathlib.Data.List.Forall2
import RAGuardian.Access.KeyRestriction

/-! # Databases that agree but for some keys

The users databases of a run with a removal of a knowledge base and of one without: they
agree on every key the removal does not touch, and every request on API keys keeps them
in agreement. -/

namespace RAGuardian.Access

/-! ## Agreement -/

/-- The same key, and the same row unless the key is touched. -/
structure RowsAgree (touched : List String) (left right : ApiKeyRow) : Prop where
  id : left.id = right.id
  userId : left.userId = right.userId
  name : left.name = right.name
  same : left.id ∉ touched → left = right

/-- Databases of one run with a removal and one without, and the keys it touches. -/
structure DatabasesAgree (touched : List String) (left right : UserDatabase) : Prop where
  users : left.users.map (·.id) = right.users.map (·.id)
  apiKeys : List.Forall₂ (RowsAgree touched) left.apiKeys right.apiKeys
  normalizes : ∀ row, row ∈ left.apiKeys ∨ row ∈ right.apiKeys → row.id ∈ touched →
    Normalizes row.knowledgeBaseIds

theorem RowsAgree.refl (touched : List String) (row : ApiKeyRow) : RowsAgree touched row row :=
  ⟨rfl, rfl, rfl, fun _ => rfl⟩

theorem RowsAgree.symm {touched : List String} {left right : ApiKeyRow}
    (agree : RowsAgree touched left right) : RowsAgree touched right left :=
  ⟨agree.id.symm, agree.userId.symm, agree.name.symm, fun outside =>
    (agree.same (agree.id ▸ outside)).symm⟩

namespace DatabasesAgree

variable {touched : List String} {left right : UserDatabase}

theorem symm (agree : DatabasesAgree touched left right) : DatabasesAgree touched right left where
  users := agree.users.symm
  apiKeys := (agree.apiKeys.imp fun _ _ => RowsAgree.symm).flip
  normalizes row member := agree.normalizes row member.symm

theorem of_same (normalizes : ∀ row ∈ left.apiKeys, row.id ∈ touched →
    Normalizes row.knowledgeBaseIds) : DatabasesAgree touched left left where
  users := rfl
  apiKeys := List.forall₂_same.mpr fun row _ => .refl touched row
  normalizes row member := normalizes row (member.elim id id)

/-! ### Lookups -/

/-- Lookups by columns the keys agree on find keys that agree. -/
theorem find? {test : ApiKeyRow → Bool}
    (sound : ∀ left right, RowsAgree touched left right → test left = test right)
    {lefts rights : List ApiKeyRow} (rows : List.Forall₂ (RowsAgree touched) lefts rights) :
    Option.Rel (RowsAgree touched) (lefts.find? test) (rights.find? test) := by
  induction rows with
  | nil => exact .none
  | cons head rest induction =>
      rename_i left right lefts rights
      rw [List.find?_cons, List.find?_cons, sound left right head]
      split
      · exact .some head
      · exact induction

theorem apiKeyByName (agree : DatabasesAgree touched left right) (userId keyName : String) :
    Option.Rel (RowsAgree touched) (left.apiKeyByName userId keyName)
      (right.apiKeyByName userId keyName) :=
  find? (fun _ _ rows => by rw [rows.userId, rows.name]) agree.apiKeys

theorem addressed (agree : DatabasesAgree touched left right) (arguments : AddKnowledgeBase) :
    Option.Rel (RowsAgree touched) (left.addressed arguments) (right.addressed arguments) := by
  unfold UserDatabase.addressed
  split
  · exact find? (fun _ _ rows => by rw [rows.userId, rows.id]) agree.apiKeys
  · exact agree.apiKeyByName _ _

theorem any {test : ApiKeyRow → Bool}
    (sound : ∀ left right, RowsAgree touched left right → test left = test right)
    {lefts rights : List ApiKeyRow} (rows : List.Forall₂ (RowsAgree touched) lefts rights) :
    lefts.any test = rights.any test := by
  induction rows with
  | nil => rfl
  | cons head rest induction =>
      rename_i left right lefts rights
      rw [List.any_cons, List.any_cons, sound left right head, induction]

theorem userById (agree : DatabasesAgree touched left right) (userId : String) :
    (left.userById userId).isNone = (right.userById userId).isNone := by
  have known : ∀ database : UserDatabase,
      (database.userById userId).isNone = true ↔ userId ∉ database.users.map (·.id) := by
    intro database
    rw [UserDatabase.userById, Option.isNone_iff_eq_none, List.find?_eq_none]
    simp
  rw [Bool.eq_iff_iff, known, known, agree.users]

/-! ### Updates -/

theorem touchLeft (agree : DatabasesAgree touched left right) (userId now : String) :
    DatabasesAgree touched (left.touch userId now) right where
  users := by
    change (Table.update _ _ left.users).map _ = _
    rw [Table.map_update UserRow.id (UserUpdate.touch now).id]
    exact agree.users
  apiKeys := agree.apiKeys
  normalizes := agree.normalizes

theorem touch (agree : DatabasesAgree touched left right) (userId now : String) :
    DatabasesAgree touched (left.touch userId now) (right.touch userId now) :=
  ((agree.touchLeft userId now).symm.touchLeft userId now).symm

end DatabasesAgree

/-- The update leaves lists that normalize. -/
def ApiKeyUpdate.Normal (update : ApiKeyUpdate) : Prop :=
  ∀ row, Normalizes row.knowledgeBaseIds → Normalizes (update.apply row).knowledgeBaseIds

namespace DatabasesAgree

variable {touched : List String} {left right : UserDatabase}

/-- The touched keys still normalize after an update. -/
theorem normalizes_update {database : UserDatabase} {id : String} {update : ApiKeyUpdate}
    (normal : update.Normal) (normalizes : ∀ row ∈ database.apiKeys, row.id ∈ touched →
      Normalizes row.knowledgeBaseIds) :
    ∀ row ∈ (database.updateApiKeys (·.id == id) update).apiKeys, row.id ∈ touched →
      Normalizes row.knowledgeBaseIds := by
  intro row member isTouched
  rcases Table.mem_update.mp member with ⟨old, oldMember, rfl⟩
  by_cases selected : (old.id == id) = true
  · rw [if_pos selected] at isTouched ⊢
    rw [update.id] at isTouched
    exact normal old (normalizes old oldMember isTouched)
  · rw [if_neg selected] at isTouched ⊢
    exact normalizes old oldMember isTouched

/-- An update of a touched key on one side only. -/
theorem updateLeft (agree : DatabasesAgree touched left right) {id : String}
    (inside : id ∈ touched) {update : ApiKeyUpdate} (normal : update.Normal) :
    DatabasesAgree touched (left.updateApiKeys (·.id == id) update) right where
  users := agree.users
  apiKeys := by
    rw [UserDatabase.apiKeys_updateApiKeys, Table.update, List.forall₂_map_left_iff]
    refine agree.apiKeys.imp ?_
    intro leftRow rightRow rows
    split
    · rename_i selected
      have same : leftRow.id = id := by simpa using selected
      exact {
        id := (update.id leftRow).trans rows.id
        userId := (update.userId leftRow).trans rows.userId
        name := (update.name leftRow).trans rows.name
        same := by
          intro outside
          rw [update.id, same] at outside
          exact absurd inside outside }
    · exact rows
  normalizes := by
    rintro row (changed | kept)
    · exact normalizes_update normal (fun row member => agree.normalizes row (.inl member))
        row changed
    · exact agree.normalizes row (.inr kept)

/-- An update on both sides, the same one unless the key is touched. -/
theorem update (agree : DatabasesAgree touched left right) {id : String}
    {leftUpdate rightUpdate : ApiKeyUpdate} (same : id ∉ touched → leftUpdate = rightUpdate)
    (leftNormal : leftUpdate.Normal) (rightNormal : rightUpdate.Normal) :
    DatabasesAgree touched (left.updateApiKeys (·.id == id) leftUpdate)
      (right.updateApiKeys (·.id == id) rightUpdate) := by
  by_cases inside : id ∈ touched
  · exact ((agree.updateLeft inside leftNormal).symm.updateLeft inside rightNormal).symm
  · rw [← same inside]
    exact {
      users := agree.users
      apiKeys := by
        rw [UserDatabase.apiKeys_updateApiKeys, UserDatabase.apiKeys_updateApiKeys,
          Table.update, Table.update, List.forall₂_map_left_iff, List.forall₂_map_right_iff]
        refine agree.apiKeys.imp ?_
        intro leftRow rightRow rows
        rw [rows.id]
        split
        · rename_i selected
          have outside : leftRow.id ∉ touched := by
            rw [rows.id, show rightRow.id = id by simpa using selected]
            exact inside
          rw [rows.same outside]
          exact .refl touched _
        · exact rows
      normalizes := by
        rintro row (inLeft | inRight)
        · exact normalizes_update leftNormal
            (fun row member => agree.normalizes row (.inl member)) row inLeft
        · exact normalizes_update leftNormal
            (fun row member => agree.normalizes row (.inr member)) row inRight }

end DatabasesAgree

/-! ### Lists that differ in touched items -/

/-- The same list, but for touched items on either side. -/
inductive Aligned (touched : α → Prop) : List α → List α → Prop
  | nil : Aligned touched [] []
  | both (item : α) {lefts rights : List α} (rest : Aligned touched lefts rights) :
      Aligned touched (item :: lefts) (item :: rights)
  | left {item : α} (inside : touched item) {lefts rights : List α}
      (rest : Aligned touched lefts rights) : Aligned touched (item :: lefts) rights
  | right {item : α} (inside : touched item) {lefts rights : List α}
      (rest : Aligned touched lefts rights) : Aligned touched lefts (item :: rights)

namespace Aligned

theorem refl (touched : α → Prop) (items : List α) : Aligned touched items items := by
  induction items with
  | nil => exact .nil
  | cons item items induction => exact .both item induction

theorem of_touched {touched : α → Prop} {items : List α} (inside : ∀ item ∈ items, touched item) :
    Aligned touched items [] := by
  induction items with
  | nil => exact .nil
  | cons item items induction =>
      rcases List.forall_mem_cons.mp inside with ⟨here, later⟩
      exact .left here (induction later)

theorem map {touched : α → Prop} {other : β → Prop} {change : α → β}
    (sound : ∀ item, touched item → other (change item)) {lefts rights : List α}
    (aligned : Aligned touched lefts rights) :
    Aligned other (lefts.map change) (rights.map change) := by
  induction aligned with
  | nil => exact .nil
  | both item _ induction => exact .both _ induction
  | left inside _ induction => exact .left (sound _ inside) induction
  | right inside _ induction => exact .right (sound _ inside) induction

/-- A side without items faces touched items only. -/
theorem touched_of_nil {touched : α → Prop} {items : List α} (aligned : Aligned touched items []) :
    ∀ item ∈ items, touched item := by
  induction items with
  | nil => nofun
  | cons item items induction =>
      cases aligned with
      | left inside rest => exact List.forall_mem_cons.mpr ⟨inside, induction rest⟩

theorem symm {touched : α → Prop} {lefts rights : List α}
    (aligned : Aligned touched lefts rights) : Aligned touched rights lefts := by
  induction aligned with
  | nil => exact .nil
  | both item _ induction => exact .both item induction
  | left inside _ induction => exact .right inside induction
  | right inside _ induction => exact .left inside induction

end Aligned

/-- The keys that list a knowledge base, on both sides. -/
theorem aligned_listing {touched : List String} {lefts rights : List ApiKeyRow}
    (rows : List.Forall₂ (RowsAgree touched) lefts rights) (knowledgeBaseId : String) :
    Aligned (fun key : ApiKeyRow × List String => key.1.id ∈ touched)
      (lefts.filterMap (·.listing knowledgeBaseId))
      (rights.filterMap (·.listing knowledgeBaseId)) := by
  induction rows with
  | nil => exact .nil
  | cons head rest induction =>
      rename_i left right lefts rights
      by_cases inside : left.id ∈ touched
      · have leftTouched : ∀ key, left.listing knowledgeBaseId = some key →
            key.1.id ∈ touched := by
          intro key listed
          rw [(ApiKeyRow.listing_eq_some.mp listed).1]
          exact inside
        have rightTouched : ∀ key, right.listing knowledgeBaseId = some key →
            key.1.id ∈ touched := by
          intro key listed
          rw [(ApiKeyRow.listing_eq_some.mp listed).1, ← head.id]
          exact inside
        rw [List.filterMap_cons, List.filterMap_cons]
        split
        · split
          · exact induction
          · rename_i listed
            refine .right ?_ induction
            exact rightTouched _ listed
        · rename_i leftListed
          split
          · refine .left ?_ induction
            exact leftTouched _ leftListed
          · rename_i rightListed
            refine .left ?_ (.right ?_ induction)
            · exact leftTouched _ leftListed
            · exact rightTouched _ rightListed
      · rw [head.same inside, List.filterMap_cons, List.filterMap_cons]
        split
        · exact induction
        · exact .both _ induction

/-- Updates for items that are aligned keep the databases in agreement. -/
theorem DatabasesAgree.foldl {touched : List String} {id : α → String} {update : α → ApiKeyUpdate}
    {lefts rights : List α} (aligned : Aligned (fun item => id item ∈ touched) lefts rights)
    (normal : ∀ item, item ∈ lefts ∨ item ∈ rights → (update item).Normal)
    {left right : UserDatabase} (agree : DatabasesAgree touched left right) :
    DatabasesAgree touched
      (lefts.foldl (fun database item =>
        database.updateApiKeys (·.id == id item) (update item)) left)
      (rights.foldl (fun database item =>
        database.updateApiKeys (·.id == id item) (update item)) right) := by
  induction aligned generalizing left right with
  | nil => exact agree
  | both item _ induction =>
      have here := normal item (.inl List.mem_cons_self)
      apply induction
      · rintro other (member | member)
        · exact normal other (.inl (List.mem_cons_of_mem _ member))
        · exact normal other (.inr (List.mem_cons_of_mem _ member))
      · exact agree.update (fun _ => rfl) here here
  | left inside _ induction =>
      apply induction
      · rintro other (member | member)
        · exact normal other (.inl (List.mem_cons_of_mem _ member))
        · exact normal other (.inr member)
      · exact agree.updateLeft inside (normal _ (.inl List.mem_cons_self))
  | right inside _ induction =>
      apply induction
      · rintro other (member | member)
        · exact normal other (.inl member)
        · exact normal other (.inr (List.mem_cons_of_mem _ member))
      · exact (agree.symm.updateLeft inside (normal _ (.inr List.mem_cons_self))).symm

/-! ### Insertions, new names and deletions -/

namespace DatabasesAgree

variable {touched : List String} {left right : UserDatabase}

theorem map_eq {column : ApiKeyRow → β}
    (sound : ∀ left right, RowsAgree touched left right → column left = column right)
    {lefts rights : List ApiKeyRow} (rows : List.Forall₂ (RowsAgree touched) lefts rights) :
    lefts.map column = rights.map column := by
  induction rows with
  | nil => rfl
  | cons head rest induction => rw [List.map_cons, List.map_cons, sound _ _ head, induction]

theorem exists_of_mem_right {lefts rights : List ApiKeyRow}
    (rows : List.Forall₂ (RowsAgree touched) lefts rights) {right : ApiKeyRow}
    (member : right ∈ rights) : ∃ left ∈ lefts, RowsAgree touched left right := by
  induction rows with
  | nil => cases member
  | cons head rest induction =>
      rcases List.mem_cons.mp member with rfl | later
      · exact ⟨_, List.mem_cons_self, head⟩
      · rcases induction later with ⟨left, leftMember, same⟩
        exact ⟨left, List.mem_cons_of_mem _ leftMember, same⟩

/-- What the schema allows on one side, it allows on the other. -/
theorem constraints (agree : DatabasesAgree touched left right) {lefts rights : List ApiKeyRow}
    (rows : List.Forall₂ (RowsAgree touched) lefts rights)
    (allowed : ({ left.toUserTables with apiKeys := lefts } : UserTables).Constraints) :
    ({ right.toUserTables with apiKeys := rights } : UserTables).Constraints where
  userKeys := right.constraints.userKeys
  emails := right.constraints.emails
  apiKeyKeys := by
    have keys := allowed.apiKeyKeys
    dsimp only at keys ⊢
    rw [map_eq (fun _ _ row => row.id) rows] at keys
    exact keys
  apiKeyNames := by
    have names := allowed.apiKeyNames
    dsimp only at names ⊢
    rw [map_eq (fun _ _ row => by rw [row.userId, row.name]) rows] at names
    exact names
  apiKeyOwners := by
    intro row member
    have owners : ∀ owner ∈ lefts.map (·.userId), owner ∈ left.users.map (·.id) := by
      intro owner ownerMember
      rcases List.mem_map.mp ownerMember with ⟨leftRow, leftMember, rfl⟩
      exact allowed.apiKeyOwners leftRow leftMember
    rw [map_eq (fun _ _ row => row.userId) rows, agree.users] at owners
    exact owners row.userId (List.mem_map_of_mem member)

/-- A statement that may violate the schema. -/
theorem execute (agree : DatabasesAgree touched left right) {lefts rights : List ApiKeyRow}
    (rows : List.Forall₂ (RowsAgree touched) lefts rights)
    (normalizes : ∀ row, row ∈ lefts ∨ row ∈ rights → row.id ∈ touched →
      Normalizes row.knowledgeBaseIds) :
    Option.Rel (DatabasesAgree touched)
      (UserDatabase.execute { left.toUserTables with apiKeys := lefts })
      (UserDatabase.execute { right.toUserTables with apiKeys := rights }) := by
  unfold UserDatabase.execute
  by_cases allowed : ({ left.toUserTables with apiKeys := lefts } : UserTables).Constraints
  · rw [dif_pos allowed, dif_pos (agree.constraints rows allowed)]
    exact .some ⟨agree.users, rows, normalizes⟩
  · have refused : ¬ ({ right.toUserTables with apiKeys := rights } : UserTables).Constraints :=
      fun other => allowed (agree.symm.constraints (rows.imp fun _ _ => RowsAgree.symm).flip other)
    rw [dif_neg allowed, dif_neg refused]
    exact .none

theorem insertApiKey (agree : DatabasesAgree touched left right) {row : ApiKeyRow}
    (normal : Normalizes row.knowledgeBaseIds) :
    Option.Rel (DatabasesAgree touched) (left.insertApiKey row) (right.insertApiKey row) := by
  apply agree.execute
  · exact List.rel_append agree.apiKeys (.cons (.refl touched row) .nil)
  · intro other member isTouched
    rw [List.mem_append, List.mem_append, List.mem_singleton] at member
    rcases member with (inLeft | rfl) | (inRight | rfl)
    · exact agree.normalizes other (.inl inLeft) isTouched
    · exact normal
    · exact agree.normalizes other (.inr inRight) isTouched
    · exact normal

theorem insertKey (agree : DatabasesAgree touched left right)
    (validate : Except UserStoreError Unit) {row : ApiKeyRow}
    (normal : Normalizes row.knowledgeBaseIds) (now : String) :
    DatabasesAgree touched
      (committing ((left.insertKey validate row now).map fun inserted => ((), inserted)) left).2
      (committing ((right.insertKey validate row now).map fun inserted => ((), inserted))
        right).2 := by
  have inserted := agree.insertApiKey normal
  unfold UserDatabase.insertKey
  rw [agree.userById]
  cases (right.userById row.userId).isNone with
  | true => exact agree
  | false =>
      cases validate with
      | error raised => exact agree
      | ok _ =>
          generalize left.insertApiKey row = leftInserted at inserted ⊢
          generalize right.insertApiKey row = rightInserted at inserted ⊢
          cases inserted with
          | none => exact agree
          | some inserted => exact inserted.touch row.userId now

theorem renameApiKey (agree : DatabasesAgree touched left right) (id newName : String) :
    Option.Rel (DatabasesAgree touched) (left.renameApiKey id newName)
      (right.renameApiKey id newName) := by
  have normalizes : ∀ database : UserDatabase, (∀ row ∈ database.apiKeys, row.id ∈ touched →
      Normalizes row.knowledgeBaseIds) →
      ∀ row ∈ Table.update (·.id == id) (fun row => { row with name := newName })
        database.apiKeys, row.id ∈ touched → Normalizes row.knowledgeBaseIds := by
    intro database before row member isTouched
    rcases Table.mem_update.mp member with ⟨old, oldMember, rfl⟩
    by_cases selected : (old.id == id) = true
    · rw [if_pos selected] at isTouched ⊢
      exact before old oldMember isTouched
    · rw [if_neg selected] at isTouched ⊢
      exact before old oldMember isTouched
  apply agree.execute
  · rw [Table.update, Table.update, List.forall₂_map_left_iff, List.forall₂_map_right_iff]
    refine agree.apiKeys.imp ?_
    intro leftRow rightRow rows
    have selected : (leftRow.id == id) = (rightRow.id == id) := by rw [rows.id]
    rw [selected]
    split
    · exact {
        id := rows.id
        userId := rows.userId
        name := rfl
        same := fun outside => by rw [rows.same outside] }
    · exact rows
  · rintro row (inLeft | inRight)
    · exact normalizes left (fun row member => agree.normalizes row (.inl member)) row inLeft
    · exact normalizes right (fun row member => agree.normalizes row (.inr member)) row inRight

theorem filter {test : ApiKeyRow → Bool}
    (sound : ∀ left right, RowsAgree touched left right → test left = test right)
    {lefts rights : List ApiKeyRow} (rows : List.Forall₂ (RowsAgree touched) lefts rights) :
    List.Forall₂ (RowsAgree touched) (lefts.filter test) (rights.filter test) := by
  induction rows with
  | nil => exact .nil
  | cons head rest induction =>
      rename_i left right lefts rights
      rw [List.filter_cons, List.filter_cons, sound left right head]
      split
      · exact .cons head induction
      · exact induction

theorem deleteApiKey (agree : DatabasesAgree touched left right) (id : String) :
    DatabasesAgree touched (left.deleteApiKey id) (right.deleteApiKey id) where
  users := agree.users
  apiKeys := filter (fun _ _ rows => by dsimp only; rw [rows.id]) agree.apiKeys
  normalizes row member := agree.normalizes row
    (member.imp (fun inLeft => (Table.mem_delete.mp inLeft).1)
      fun inRight => (Table.mem_delete.mp inRight).1)

end DatabasesAgree

/-! ## Requests -/

/-- The requests of the calls on API keys. -/
def UserRequest.OnApiKeys : UserRequest → Prop
  | .selectUser _ | .writeUser _ _ _ | .setDeletion _ _ _ _ _ | .deleteUser _ => False
  | _ => True

theorem normal_setKnowledgeBases {values : List String} (normal : Normalizes values) :
    (ApiKeyUpdate.setKnowledgeBases values).Normal :=
  fun _ _ => normal

theorem normal_restore {values : List String} (normal : Normalizes values) (enabled : Bool) :
    (ApiKeyUpdate.restore values enabled).Normal :=
  fun _ _ => normal

theorem normal_write {write : ApiKeyWrite} {id userId now : String}
    (checked : (UserRequest.writeApiKey id write userId now).Checked) : write.update.Normal := by
  cases write with
  | enabled value => exact fun _ normal => normal
  | key keyHash keyPrefix keySuffix => exact fun _ normal => normal
  | scopes values => exact fun _ normal => normal
  | knowledgeBases values => exact normal_setKnowledgeBases checked

theorem normal_append {values : List String} {value : String} (normal : Normalizes values)
    (last : Normalizes [value]) : Normalizes (values ++ [value]) :=
  fun other member => (List.mem_append.mp member).elim (normal other) (last other)

/-- What is left of a normalized list after a removal normalizes. -/
theorem normal_withoutKnowledgeBase {row : ApiKeyRow} {allowed : List String}
    (normalized : normalizeKnowledgeBaseIds row.knowledgeBaseIds = .ok allowed)
    (knowledgeBaseId : String) : (row.withoutKnowledgeBase allowed knowledgeBaseId).Normal :=
  normal_restore (fun value member =>
    normalized_normalizes normalized value (List.mem_filter.mp member).1) _

namespace DatabasesAgree

variable {touched : List String} {left right : UserDatabase}

theorem setAccess (agree : DatabasesAgree touched left right)
    (validate : Except UserStoreError Unit) (userId keyName : String)
    {scopes knowledgeBaseIds : List String} (normal : Normalizes knowledgeBaseIds)
    (now : String) :
    DatabasesAgree touched
      (committing (left.setAccess validate userId keyName scopes knowledgeBaseIds now) left).2
      (committing (right.setAccess validate userId keyName scopes knowledgeBaseIds now)
        right).2 := by
  have updates : (ApiKeyUpdate.setAccess scopes knowledgeBaseIds).Normal := fun _ _ => normal
  have found := agree.apiKeyByName userId keyName
  unfold UserDatabase.setAccess
  generalize left.apiKeyByName userId keyName = leftRow at found ⊢
  generalize right.apiKeyByName userId keyName = rightRow at found ⊢
  cases found with
  | none => exact agree
  | some rows =>
      cases validate with
      | error raised => exact agree
      | ok _ =>
          change DatabasesAgree touched (UserDatabase.touch userId now _)
            (UserDatabase.touch userId now _)
          rw [rows.id]
          exact (agree.update (fun _ => rfl) updates updates).touch userId now

/-- An addition to a touched key, or none, on one side only. -/
theorem addKnowledgeBaseLeft (agree : DatabasesAgree touched left right)
    (validate : Except UserStoreError Unit) {arguments : AddKnowledgeBase}
    (normal : Normalizes [arguments.knowledgeBaseId]) (now : String)
    (inside : ∀ row, left.addressed arguments = some row → row.id ∈ touched) :
    DatabasesAgree touched (committing (left.addKnowledgeBase validate arguments now) left).2
      right := by
  refine @committing_keeps _ (DatabasesAgree touched · right) _ _ agree ?_
  intro result after outcome
  rcases UserDatabase.addKnowledgeBase_cases outcome with rfl | ⟨row, allowed, found, list, rfl⟩
  · exact agree
  · exact (agree.updateLeft (inside row found) (normal_setKnowledgeBases
      (normal_append (normalized_normalizes list) normal))).touchLeft _ now

/-- An addition to a key that is the same on both sides. -/
theorem addKnowledgeBase_same (agree : DatabasesAgree touched left right)
    (validate : Except UserStoreError Unit) {arguments : AddKnowledgeBase}
    (normal : Normalizes [arguments.knowledgeBaseId]) (now : String)
    (same : left.addressed arguments = right.addressed arguments) :
    DatabasesAgree touched (committing (left.addKnowledgeBase validate arguments now) left).2
      (committing (right.addKnowledgeBase validate arguments now) right).2 := by
  unfold UserDatabase.addKnowledgeBase
  rw [same]
  split
  · exact agree
  · rename_i row _
    split
    · exact agree
    · split
      · exact agree
      · cases validate with
        | error raised => exact agree
        | ok _ =>
            cases list : normalizeKnowledgeBaseIds row.knowledgeBaseIds with
            | error raised => exact agree
            | ok allowed =>
                by_cases known : arguments.knowledgeBaseId ∈ allowed
                · simp only [bind, Except.bind, if_pos known]
                  exact agree
                · simp only [bind, Except.bind, if_neg known]
                  have updates := normal_setKnowledgeBases
                    (normal_append (normalized_normalizes list) normal)
                  exact (agree.update (fun _ => rfl) updates updates).touch _ now

theorem addKnowledgeBase (agree : DatabasesAgree touched left right)
    (validate : Except UserStoreError Unit) {arguments : AddKnowledgeBase}
    (normal : Normalizes [arguments.knowledgeBaseId]) (now : String) :
    DatabasesAgree touched (committing (left.addKnowledgeBase validate arguments now) left).2
      (committing (right.addKnowledgeBase validate arguments now) right).2 := by
  have found := agree.addressed arguments
  generalize leftFound : left.addressed arguments = leftRow at found
  generalize rightFound : right.addressed arguments = rightRow at found
  cases found with
  | none => exact agree.addKnowledgeBase_same validate normal now (leftFound.trans rightFound.symm)
  | some rows =>
      rename_i leftRow rightRow
      by_cases inside : leftRow.id ∈ touched
      · have leftInside : ∀ row, left.addressed arguments = some row → row.id ∈ touched := by
          intro row here
          rw [leftFound] at here
          cases here
          exact inside
        have rightInside : ∀ row, right.addressed arguments = some row → row.id ∈ touched := by
          intro row here
          rw [rightFound] at here
          cases here
          exact rows.id ▸ inside
        exact ((agree.addKnowledgeBaseLeft validate normal now leftInside).symm
          |>.addKnowledgeBaseLeft validate normal now rightInside).symm
      · apply agree.addKnowledgeBase_same validate normal now
        rw [leftFound, rightFound, rows.same inside]

/-- The keys that list a knowledge base, when the lists normalize on one side. -/
theorem keysListing (agree : DatabasesAgree touched left right) {userId knowledgeBaseId : String}
    {keys : List (ApiKeyRow × List String)}
    (listing : left.keysListing userId knowledgeBaseId = .ok keys) :
    ∃ others, right.keysListing userId knowledgeBaseId = .ok others ∧
      Aligned (fun key : ApiKeyRow × List String => key.1.id ∈ touched) keys others := by
  rcases UserDatabase.keysListing_eq_ok listing with ⟨normalizes, rfl⟩
  have rows := @filter touched (·.userId == userId) (fun _ _ rows => by rw [rows.userId])
    _ _ agree.apiKeys
  refine ⟨_, UserDatabase.keysListing_of_normalizes ?_, aligned_listing rows knowledgeBaseId⟩
  intro row member
  by_cases isTouched : row.id ∈ touched
  · exact agree.normalizes row (.inr (List.mem_filter.mp member).1) isTouched
  · rcases exists_of_mem_right rows member with ⟨leftRow, leftMember, same⟩
    rw [← same.same (same.id ▸ isTouched)]
    exact normalizes leftRow leftMember

/-- The first phase of a removal, where it commits on both sides. -/
theorem removeKnowledgeBase_ok (agree : DatabasesAgree touched left right)
    {leaseCheck : Except UserStoreError Unit} {userId knowledgeBaseId now : String}
    {leftRemoval rightRemoval : KeyRemoval} {leftAfter rightAfter : UserDatabase}
    (leftOutcome : left.removeKnowledgeBase leaseCheck userId knowledgeBaseId now =
      .ok (leftRemoval, leftAfter))
    (rightOutcome : right.removeKnowledgeBase leaseCheck userId knowledgeBaseId now =
      .ok (rightRemoval, rightAfter)) :
    DatabasesAgree touched leftAfter rightAfter ∧
      Aligned (·.id ∈ touched) leftRemoval.originals rightRemoval.originals := by
  rcases UserDatabase.removeKnowledgeBase_cases leftOutcome with
    ⟨keys, _, leftListing, leftOriginals, leftEffect⟩
  rcases UserDatabase.removeKnowledgeBase_cases rightOutcome with
    ⟨others, _, rightListing, rightOriginals, rightEffect⟩
  rcases agree.keysListing leftListing with ⟨_, listing, aligned⟩
  cases rightListing.symm.trans listing
  refine ⟨?_, ?_⟩
  · have updated := @DatabasesAgree.foldl (ApiKeyRow × List String) touched (fun key => key.1.id)
      (fun key => key.1.withoutKnowledgeBase key.2 knowledgeBaseId) _ _ aligned (by
        rintro key (inLeft | inRight)
        · exact normal_withoutKnowledgeBase
            (UserDatabase.keysListing_normalized leftListing inLeft) knowledgeBaseId
        · exact normal_withoutKnowledgeBase
            (UserDatabase.keysListing_normalized rightListing inRight) knowledgeBaseId)
      left right agree
    rcases leftEffect with ⟨rfl, rfl⟩ | ⟨_, rfl⟩
    · rcases rightEffect with ⟨rfl, rfl⟩ | ⟨_, rfl⟩
      · exact agree
      · exact (updated.symm.touchLeft userId now).symm
    · rcases rightEffect with ⟨rfl, rfl⟩ | ⟨_, rfl⟩
      · exact updated.touchLeft userId now
      · exact updated.touch userId now
  · rw [leftOriginals, rightOriginals]
    exact @Aligned.map _ _ _ _ Prod.fst (fun _ inside => inside) _ _ aligned

/-- A removal that raises on one side only leaves the other as it is, without keys. -/
theorem removeKnowledgeBase_error (agree : DatabasesAgree touched left right)
    {leaseCheck : Except UserStoreError Unit} {userId knowledgeBaseId now : String}
    {raised : UserStoreError} {removal : KeyRemoval} {after : UserDatabase}
    (leftOutcome : left.removeKnowledgeBase leaseCheck userId knowledgeBaseId now =
      .error raised)
    (rightOutcome : right.removeKnowledgeBase leaseCheck userId knowledgeBaseId now =
      .ok (removal, after)) : after = right ∧ removal.originals = [] := by
  rcases UserDatabase.removeKnowledgeBase_cases rightOutcome with
    ⟨keys, known, listing, originals, effect⟩
  rcases UserDatabase.removeKnowledgeBase_error leftOutcome with missing | ⟨other, failed⟩ | lost
  · rw [agree.userById, known] at missing
    cases missing
  · rcases agree.symm.keysListing listing with ⟨_, returned, _⟩
    rw [failed] at returned
    cases returned
  · rcases effect with ⟨rfl, rfl⟩ | ⟨checked, _⟩
    · exact ⟨rfl, originals⟩
    · rw [lost] at checked
      cases checked

theorem removeKnowledgeBase (agree : DatabasesAgree touched left right)
    (leaseCheck : Except UserStoreError Unit) (userId knowledgeBaseId now : String) :
    DatabasesAgree touched
      (committing (left.removeKnowledgeBase leaseCheck userId knowledgeBaseId now) left).2
      (committing (right.removeKnowledgeBase leaseCheck userId knowledgeBaseId now)
        right).2 := by
  cases leftOutcome : left.removeKnowledgeBase leaseCheck userId knowledgeBaseId now with
  | error leftRaised =>
      cases rightOutcome : right.removeKnowledgeBase leaseCheck userId knowledgeBaseId now with
      | error rightRaised => exact agree
      | ok rightCommit =>
          change DatabasesAgree touched left rightCommit.2
          rw [(agree.removeKnowledgeBase_error leftOutcome rightOutcome).1]
          exact agree
  | ok leftCommit =>
      cases rightOutcome : right.removeKnowledgeBase leaseCheck userId knowledgeBaseId now with
      | error rightRaised =>
          change DatabasesAgree touched leftCommit.2 right
          rw [(agree.symm.removeKnowledgeBase_error rightOutcome leftOutcome).1]
          exact agree
      | ok rightCommit => exact (agree.removeKnowledgeBase_ok leftOutcome rightOutcome).1

theorem restoreApiKeys (agree : DatabasesAgree touched left right) {lefts rights : List ApiKeyRow}
    (aligned : Aligned (·.id ∈ touched) lefts rights)
    (normal : ∀ row, row ∈ lefts ∨ row ∈ rights → Normalizes row.knowledgeBaseIds)
    (userId now : String) :
    DatabasesAgree touched (left.restoreApiKeys lefts userId now)
      (right.restoreApiKeys rights userId now) := by
  have restored := @DatabasesAgree.foldl _ touched ApiKeyRow.id
    (fun row => .restore row.knowledgeBaseIds row.enabled) _ _ aligned
    (fun row member => normal_restore (normal row member) row.enabled) left right agree
  exact restored.touch userId now

theorem restoreLeft (agree : DatabasesAgree touched left right) {originals : List ApiKeyRow}
    (inside : ∀ row ∈ originals, row.id ∈ touched)
    (normal : ∀ row ∈ originals, Normalizes row.knowledgeBaseIds) (userId now : String) :
    DatabasesAgree touched (left.restoreApiKeys originals userId now) right := by
  have restored := @DatabasesAgree.foldl _ touched ApiKeyRow.id
    (fun row => .restore row.knowledgeBaseIds row.enabled) _ _ (.of_touched inside)
    (fun row member => normal_restore
      (normal row (member.elim id nofun)) row.enabled) left right agree
  exact restored.touchLeft userId now

end DatabasesAgree

/-- Any request of the calls on API keys. -/
theorem DatabasesAgree.execute_request {touched : List String} {left right : UserDatabase}
    (agree : DatabasesAgree touched left right) {request : UserRequest}
    (onApiKeys : request.OnApiKeys) (checked : request.Checked) (draw : UserDraw) :
    DatabasesAgree touched (request.execute draw left).2 (request.execute draw right).2 := by
  unfold UserRequest.execute
  split
  · exact agree
  · cases request with
    | selectUser | writeUser | setDeletion | deleteUser => cases onApiKeys
    | selectApiKey userId keyName => exact agree
    | selectDuplicate userId newName id => exact agree
    | callback => exact agree
    | writeApiKey id write userId now =>
        have normal := normal_write checked
        exact (agree.update (fun _ => rfl) normal normal).touch userId now
    | renameApiKey id newName userId now =>
        have renamed := agree.renameApiKey id newName
        unfold UserRequest.perform
        dsimp only
        generalize left.renameApiKey id newName = leftRenamed at renamed ⊢
        generalize right.renameApiKey id newName = rightRenamed at renamed ⊢
        cases renamed with
        | none => exact agree
        | some renamed => exact renamed.touch userId now
    | deleteApiKey id userId now => exact (agree.deleteApiKey id).touch userId now
    | insertApiKey row now => exact agree.insertKey draw.callback checked.2 now
    | setAccess userId keyName scopes knowledgeBaseIds now =>
        exact agree.setAccess draw.callback userId keyName checked.2 now
    | addKnowledgeBase arguments now => exact agree.addKnowledgeBase draw.callback checked now
    | removeKnowledgeBase userId knowledgeBaseId now =>
        exact agree.removeKnowledgeBase draw.callback userId knowledgeBaseId now
    | restoreApiKeys originals userId now =>
        exact agree.restoreApiKeys (.refl _ originals)
          (fun row member => (checked row (member.elim id id)).2) userId now

end RAGuardian.Access
