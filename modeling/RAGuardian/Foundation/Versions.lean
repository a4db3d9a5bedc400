/-! # Keys that point at versions

Every key points at a version that is never changed. A new value is a new version, to
which the key is then turned, and versions that no key points at are deleted. -/

namespace RAGuardian.Versions

variable {Key : Type u} {Version : Type v} {Content : Type w}

/-- Every key's version is there and has what is expected of the key, no two keys share a
version, and every version that was not there at the start is that of a key. -/
structure Exact (start : Version → Prop) (point : Key → Option Version)
    (content : Version → Option Content) (expected : Key → Content → Prop) : Prop where
  held : ∀ key version, point key = some version →
    ∃ value, content version = some value ∧ expected key value
  apart : ∀ key other version, point key = some version → point other = some version →
    key = other
  used : ∀ version value, content version = some value →
    start version ∨ ∃ key, point key = some version

/-- Some keys are turned to versions made for them, some lose theirs, and what is deleted
is what a key has lost. -/
structure Turned (made : Key → Version → Prop) (deleted : Version → Prop)
    (point next : Key → Option Version) (content after : Version → Option Content)
    (expected wanted : Key → Content → Prop) : Prop where
  points : ∀ key version, next key = some version →
    made key version ∨ point key = some version ∧ ¬ deleted version ∧
      ∀ value, expected key value → wanted key value
  fresh : ∀ key version, made key version → content version = none ∧ next key = some version ∧
    ∃ value, after version = some value ∧ wanted key value
  alone : ∀ key other version, made key version → made other version → key = other
  spared : ∀ version value, content version = some value → ¬ deleted version →
    after version = some value
  kept : ∀ version value, after version = some value →
    (∃ key, made key version) ∨ content version = some value ∧ ¬ deleted version
  lost : ∀ key version, point key = some version → ¬ deleted version → next key = some version

theorem Exact.turned {start deleted : Version → Prop} {made : Key → Version → Prop}
    {point next : Key → Option Version} {content after : Version → Option Content}
    {expected wanted : Key → Content → Prop} (exact : Exact start point content expected)
    (turned : Turned made deleted point next content after expected wanted) :
    Exact start next after wanted where
  held := by
    intro key version pointed
    rcases turned.points key version pointed with made | ⟨earlier, spared, carried⟩
    · exact (turned.fresh key version made).2.2
    · obtain ⟨value, present, holds⟩ := exact.held key version earlier
      exact ⟨value, turned.spared version value present spared, carried value holds⟩
  apart := by
    intro key other version left right
    -- A version that was just made was not there before, so no key pointed at it.
    have unpointed : ∀ key, (∃ maker, made maker version) → point key ≠ some version := by
      rintro key ⟨maker, here⟩ earlier
      obtain ⟨value, present, -⟩ := exact.held key version earlier
      rw [(turned.fresh maker version here).1] at present
      cases present
    rcases turned.points key version left with made | ⟨earlier, -, -⟩
    · rcases turned.points other version right with again | ⟨before, -, -⟩
      · exact turned.alone key other version made again
      · exact absurd before (unpointed other ⟨key, made⟩)
    · rcases turned.points other version right with again | ⟨before, -, -⟩
      · exact absurd earlier (unpointed key ⟨other, again⟩)
      · exact exact.apart key other version earlier before
  used := by
    intro version value present
    rcases turned.kept version value present with ⟨key, made⟩ | ⟨before, spared⟩
    · exact .inr ⟨key, (turned.fresh key version made).2.1⟩
    · rcases exact.used version value before with initial | ⟨key, pointed⟩
      · exact .inl initial
      · exact .inr ⟨key, turned.lost key version pointed spared⟩

end RAGuardian.Versions
