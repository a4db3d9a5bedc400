import RAGuardian.Foundation.Capping
import RAGuardian.Ranking.Documents

/-! # Source diversity

Two loops, one over the documents of a collection and one over those of several knowledge
bases, prefer documents whose source has not been taken too often. `str` is the text of a
metadata value. -/

namespace RAGuardian.Ranking

open Json Capping

/-! ## Sources -/

/-- `_document_source` -/
def documentSource (str : Value → String) (doc : Document) : String :=
  str (((doc.metadata.get "source").orElse (doc.metadata.get "document_id")).orElse
    (.str "document"))

/-- The knowledge base a federated document is from. -/
def knowledgeBaseId (str : Value → String) (doc : Document) : String :=
  str ((doc.metadata.get "knowledge_base_id").orElse (.str ""))

/-- The key of `_federated_source_diversity` -/
def federatedSource (str : Value → String) (doc : Document) : String × String :=
  (knowledgeBaseId str doc,
    str (((doc.metadata.get "source").orElse (doc.metadata.get "document_id")).orElse (.str "")))

/-! ## Loops -/

variable {Key : Type} [DecidableEq Key]

def count (counts : Key → Nat) (source : Key) : Key → Nat :=
  Function.update counts source (counts source + 1)

/-- The loop of `_diverse_documents` over the overflow -/
def fillFromOverflow (limit : Nat) (selected : List Document) : List Document → List Document
  | [] => selected
  | doc :: overflow =>
      if limit ≤ selected.length then selected
      else fillFromOverflow limit (selected ++ [doc]) overflow

/-- The loop of `_diverse_documents` over the documents, and what follows it -/
def diverseLoop (source : Document → Key) (limit maxPerSource : Nat) :
    List Document → List Document → List Document → (Key → Nat) → List Document
  | [], selected, overflow, _ => fillFromOverflow limit selected overflow
  | doc :: docs, selected, overflow, counts =>
      if counts (source doc) < maxPerSource then
        let selected := selected ++ [doc]
        if limit ≤ selected.length then selected
        else diverseLoop source limit maxPerSource docs selected overflow
          (count counts (source doc))
      else diverseLoop source limit maxPerSource docs selected (overflow ++ [doc]) counts

/-- `_diverse_documents` -/
def diverseDocuments (str : Value → String) (docs : List Document) (limit maxPerSource : Nat) :
    List Document :=
  diverseLoop (documentSource str) limit maxPerSource docs [] [] fun _ => 0

/-- The loop of `_federated_source_diversity` -/
def federatedLoop (source : Document → Key) (limit maxPerSource : Nat) :
    List Document → List Document → List Document → (Key → Nat) → List Document
  | [], selected, overflow, _ => (selected ++ overflow).take limit
  | doc :: docs, selected, overflow, counts =>
      let (selected, overflow, counts) :=
        if counts (source doc) < maxPerSource then
          (selected ++ [doc], overflow, count counts (source doc))
        else (selected, overflow ++ [doc], counts)
      if limit ≤ selected.length then selected
      else federatedLoop source limit maxPerSource docs selected overflow counts

/-- `_federated_source_diversity` -/
def federatedSourceDiversity (str : Value → String) (docs : List Document)
    (limit maxPerSource : Nat) : List Document :=
  federatedLoop (federatedSource str) limit maxPerSource docs [] [] fun _ => 0

/-! ## The rule both loops implement -/

section

variable {source : Document → Key} {limit maxPerSource : Nat}

theorem fillFromOverflow_eq (selected overflow : List Document)
    (room : selected.length ≤ limit) :
    fillFromOverflow limit selected overflow = (selected ++ overflow).take limit := by
  induction overflow generalizing selected with
  | nil => rw [fillFromOverflow, List.append_nil, List.take_of_length_le room]
  | cons doc overflow induction =>
      rw [fillFromOverflow]
      split
      · rename_i full
        rw [List.take_append_of_le_length full, List.take_of_length_le room]
      · rename_i open_
        rw [induction (selected ++ [doc]) (by rw [List.length_append, List.length_singleton]; omega),
          List.append_assoc, List.singleton_append]

/-- What a loop has done with the documents so far. -/
structure Sorted (source : Document → Key) (maxPerSource : Nat) (earlier : List Document)
    (selected overflow : List Document) (counts : Key → Nat) : Prop where
  selected : selected = (within source maxPerSource earlier).map Prod.fst
  overflow : overflow = (beyond source maxPerSource earlier).map Prod.fst
  counts : ∀ name, counts name =
    min maxPerSource (earlier.countP fun other => source other = name)

namespace Sorted

variable {earlier selected overflow : List Document} {counts : Key → Nat} {doc : Document}

theorem nil (source : Document → Key) (maxPerSource : Nat) :
    Sorted source maxPerSource [] [] [] fun _ => 0 :=
  ⟨rfl, rfl, by simp⟩

theorem room_iff (sorted : Sorted source maxPerSource earlier selected overflow counts) :
    counts (source doc) < maxPerSource ↔
      earlier.countP (fun other => source other = source doc) < maxPerSource := by
  rw [sorted.counts]
  omega

theorem select (sorted : Sorted source maxPerSource earlier selected overflow counts)
    (room : counts (source doc) < maxPerSource) :
    Sorted source maxPerSource (earlier ++ [doc]) (selected ++ [doc]) overflow
      (count counts (source doc)) where
  selected := by
    rw [within_concat, if_pos (sorted.room_iff.mp room), List.map_append, ← sorted.selected]
    rfl
  overflow := by
    rw [beyond_concat, if_pos (sorted.room_iff.mp room), List.append_nil, ← sorted.overflow]
  counts name := by
    have free := sorted.room_iff.mp room
    rw [count, List.countP_append, Function.update_apply]
    split
    · rename_i same
      subst same
      rw [sorted.counts]
      simp
      omega
    · rename_i different
      rw [sorted.counts]
      simp [Ne.symm different]

theorem defer (sorted : Sorted source maxPerSource earlier selected overflow counts)
    (full : ¬ counts (source doc) < maxPerSource) :
    Sorted source maxPerSource (earlier ++ [doc]) selected (overflow ++ [doc]) counts where
  selected := by
    rw [within_concat, if_neg (mt sorted.room_iff.mpr full), List.append_nil, ← sorted.selected]
  overflow := by
    rw [beyond_concat, if_neg (mt sorted.room_iff.mpr full), List.map_append, ← sorted.overflow]
    rfl
  counts name := by
    have taken := mt sorted.room_iff.mpr full
    rw [sorted.counts, List.countP_append]
    by_cases same : source doc = name
    · subst same
      simp
      omega
    · simp [same]

/-- All documents are sorted. -/
theorem finished (sorted : Sorted source maxPerSource earlier selected overflow counts) :
    (selected ++ overflow).take limit =
      (Capping.select source limit maxPerSource earlier).map Prod.fst := by
  rw [Capping.select, List.map_take, List.map_append, ← sorted.selected, ← sorted.overflow]

/-- The limit is reached within the cap. -/
theorem reached (sorted : Sorted source maxPerSource earlier selected overflow counts)
    (full : selected.length = limit) (docs : List Document) :
    selected = (Capping.select source limit maxPerSource (earlier ++ docs)).map Prod.fst := by
  obtain ⟨more, same⟩ := within_prefix source maxPerSource earlier docs
  have length : (within source maxPerSource earlier).length = limit := by
    rw [← full, sorted.selected, List.length_map]
  rw [Capping.select, ← same, List.append_assoc, List.take_append_of_le_length length.ge,
    List.take_of_length_le length.le, ← sorted.selected]

end Sorted

theorem diverseLoop_eq {earlier selected overflow docs : List Document} {counts : Key → Nat}
    (sorted : Sorted source maxPerSource earlier selected overflow counts)
    (room : selected.length < limit) :
    diverseLoop source limit maxPerSource docs selected overflow counts =
      (Capping.select source limit maxPerSource (earlier ++ docs)).map Prod.fst := by
  induction docs generalizing earlier selected overflow counts with
  | nil =>
      rw [diverseLoop, fillFromOverflow_eq _ _ room.le, List.append_nil]
      exact sorted.finished
  | cons doc docs induction =>
      rw [diverseLoop, List.append_cons earlier]
      split
      · rename_i free
        have next := sorted.select free
        have length : (selected ++ [doc]).length = selected.length + 1 := by simp
        simp only
        split
        · exact next.reached (by omega) docs
        · exact induction next (by omega)
      · rename_i full
        exact induction (sorted.defer full) room

theorem federatedLoop_eq {earlier selected overflow docs : List Document} {counts : Key → Nat}
    (sorted : Sorted source maxPerSource earlier selected overflow counts)
    (room : selected.length < limit) :
    federatedLoop source limit maxPerSource docs selected overflow counts =
      (Capping.select source limit maxPerSource (earlier ++ docs)).map Prod.fst := by
  induction docs generalizing earlier selected overflow counts with
  | nil =>
      rw [federatedLoop, List.append_nil]
      exact sorted.finished
  | cons doc docs induction =>
      rw [federatedLoop, List.append_cons earlier]
      by_cases free : counts (source doc) < maxPerSource
      · have next := sorted.select free
        have length : (selected ++ [doc]).length = selected.length + 1 := by simp
        simp only [if_pos free]
        split
        · exact next.reached (by omega) docs
        · exact induction next (by omega)
      · simp only [if_neg free]
        rw [if_neg (not_le.mpr room)]
        exact induction (sorted.defer free) room

end

/-! ## Both selections -/

theorem diverseDocuments_eq (str : Value → String) (docs : List Document)
    {limit : Nat} (positive : 1 ≤ limit) (maxPerSource : Nat) :
    diverseDocuments str docs limit maxPerSource =
      (select (documentSource str) limit maxPerSource docs).map Prod.fst :=
  diverseLoop_eq (Sorted.nil _ _) positive

theorem federatedSourceDiversity_eq (str : Value → String) (docs : List Document)
    {limit : Nat} (positive : 1 ≤ limit) (maxPerSource : Nat) :
    federatedSourceDiversity str docs limit maxPerSource =
      (select (federatedSource str) limit maxPerSource docs).map Prod.fst :=
  federatedLoop_eq (Sorted.nil _ _) positive

/-- Both loops take the documents within the cap, then the others, up to the limit; on
documents of one knowledge base that name their sources they agree. -/
theorem diversity_selects (str : Value → String) (docs : List Document) (limit maxPerSource : Nat)
    (positive : 1 ≤ limit) :
    (∃ positions, Selects (documentSource str) limit maxPerSource docs
      (diverseDocuments str docs limit maxPerSource) positions) ∧
    (∃ positions, Selects (federatedSource str) limit maxPerSource docs
      (federatedSourceDiversity str docs limit maxPerSource) positions) ∧
    ((∀ first ∈ docs, ∀ second ∈ docs, knowledgeBaseId str first = knowledgeBaseId str second) →
      (∀ doc ∈ docs, (doc.metadata.get "source").truthy = true) →
      diverseDocuments str docs limit maxPerSource =
        federatedSourceDiversity str docs limit maxPerSource) := by
  rw [diverseDocuments_eq str docs positive, federatedSourceDiversity_eq str docs positive]
  refine ⟨⟨_, select_selects _ limit maxPerSource docs⟩,
    ⟨_, select_selects _ limit maxPerSource docs⟩, ?_⟩
  intro sameBase named
  refine congrArg (List.map Prod.fst) (select_congr limit maxPerSource ?_)
  intro first firstMember second secondMember
  simp only [documentSource, federatedSource, Value.orElse, named first firstMember,
    named second secondMember, if_pos, Prod.mk.injEq,
    sameBase first firstMember second secondMember, true_and]

/-- Three documents of two sources. -/
def sampleDocuments : List Document :=
  [⟨"a", [("source", .str "x")]⟩, ⟨"b", [("source", .str "x")]⟩, ⟨"c", [("source", .str "y")]⟩]

theorem diversity_selects_sample :
    diverseDocuments (fun value => (value.scalarText).getD "") sampleDocuments 2 1 =
      federatedSourceDiversity (fun value => (value.scalarText).getD "") sampleDocuments 2 1 :=
  (diversity_selects (fun value => (value.scalarText).getD "") sampleDocuments 2 1
    (by decide)).2.2 (by decide) (by decide)

end RAGuardian.Ranking
