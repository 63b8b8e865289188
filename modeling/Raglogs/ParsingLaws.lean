import Raglogs.Collections
import Raglogs.Parsing

/-!
What every parsed line is. The parser leaves its name in the line; a text line is
never an error, and it keeps the stripped line as its raw line.
-/

namespace Raglogs.ParsingLaws

open Collections LogEntries Parsing Text Timestamps

variable {rt : Runtime}

/-- What the text parser leaves in a line whatever its shape. -/
structure IsText (line : String) (parsed : ParsedLogLine) : Prop where
  parserType_eq : parsed.parserType = "text"
  parseError_eq : parsed.parseError = none
  rawLine_eq : parsed.rawLine = line

theorem parseGroups_isText {line : String} {m : Regex.Match} {defaultService : Option String}
    {parsed : ParsedLogLine} (h : parseGroups rt line m defaultService = .ok parsed) :
    IsText line parsed := by
  obtain ⟨timestamp, -, h⟩ := bind_eq_ok.mp h
  cases h
  exact ⟨rfl, rfl, rfl⟩

theorem parseAnyText_isText {line : String} {defaultService : Option String}
    {parsed : ParsedLogLine} (h : parseAnyText rt line defaultService = .ok parsed) :
    IsText line parsed := by
  obtain ⟨timestamp, -, h⟩ := bind_eq_ok.mp h
  cases h
  exact ⟨rfl, rfl, rfl⟩

theorem parsePlainText_isText {line : String} {defaultService : Option String}
    {inferService criUnwrapped : Bool} {parsed : ParsedLogLine}
    (h : parsePlainText rt line defaultService inferService criUnwrapped = .ok parsed) :
    IsText line parsed := by
  unfold parsePlainText at h
  split at h
  · exact parseGroups_isText h
  · exact parseAnyText_isText h

theorem fromCri_isText {line message : String} {criTs : Option Timestamp}
    {defaultService : Option String} {inner : Option ParsedLogLine}
    (hinner : ∀ parsed, inner = some parsed → ∃ rest, IsText rest parsed) :
    IsText line (fromCri line criTs message defaultService inner) := by
  cases inner with
  | none => exact ⟨rfl, rfl, rfl⟩
  | some parsed =>
    obtain ⟨rest, h⟩ := hinner parsed rfl
    exact ⟨h.parserType_eq, h.parseError_eq, rfl⟩

theorem fromKubectl_isText {line : String} {m : Regex.Match} {defaultService : Option String}
    {inner : Option ParsedLogLine}
    (hinner : ∀ parsed, inner = some parsed → ∃ rest, IsText rest parsed) :
    IsText line (fromKubectl line m defaultService inner) := by
  cases inner with
  | none => exact ⟨rfl, rfl, rfl⟩
  | some parsed =>
    obtain ⟨rest, h⟩ := hinner parsed rfl
    exact ⟨h.parserType_eq, h.parseError_eq, rfl⟩

/-- One level of prefixes. -/
theorem parseTextLineBy_isText {line : String} {parseRest : RestParser line}
    (hrest : ∀ rest hlt defaultService inferService criUnwrapped parsed,
      parseRest rest hlt defaultService inferService criUnwrapped = .ok (some parsed) →
        ∃ rest', IsText rest' parsed)
    {defaultService : Option String} {inferService criUnwrapped : Bool} {parsed : ParsedLogLine}
    (h : parseTextLineBy rt line parseRest defaultService inferService criUnwrapped =
      .ok (some parsed)) : IsText (strip line) parsed := by
  unfold parseTextLineBy at h
  split at h
  · cases h
  · split at h
    · obtain ⟨criTs, -, h⟩ := bind_eq_ok.mp h
      obtain ⟨inner, hinner, h⟩ := bind_eq_ok.mp h
      cases h
      refine fromCri_isText (fun parsed hparsed => ?_)
      subst hparsed
      exact hrest _ _ _ _ _ _ hinner
    · split at h
      · obtain ⟨inner, hinner, h⟩ := bind_eq_ok.mp h
        cases h
        refine fromKubectl_isText (fun parsed hparsed => ?_)
        subst hparsed
        exact hrest _ _ _ _ _ _ hinner
      · obtain ⟨plain, hplain, h⟩ := bind_eq_ok.mp h
        cases h
        exact parsePlainText_isText hplain

/-- A text line is never an error, however deep its prefixes are nested. -/
theorem parseTextLine_isText (line : String) :
    ∀ {defaultService : Option String} {inferService criUnwrapped : Bool}
      {parsed : ParsedLogLine},
      parseTextLine rt line defaultService inferService criUnwrapped = .ok (some parsed) →
        IsText (strip line) parsed := by
  induction hlength : line.length using Nat.strong_induction_on generalizing line with
  | h n ih =>
    intro defaultService inferService criUnwrapped parsed h
    rw [parseTextLine] at h
    refine parseTextLineBy_isText ?_ h
    intro rest hlt _ _ _ inner hinner
    exact ⟨strip rest, ih rest.length (hlength ▸ hlt) rest rfl hinner⟩

theorem parseJsonLine_parserType {line : String} {defaultService : Option String}
    {parsed : ParsedLogLine} (h : parseJsonLine rt line defaultService = .ok (some parsed)) :
    parsed.parserType = "json" := by
  unfold parseJsonLine at h
  split at h
  · cases h
  · split at h
    · cases h
      rfl
    · obtain ⟨object, hobject, h⟩ := bind_eq_ok.mp h
      cases h
      obtain ⟨timestamp, -, hobject⟩ := bind_eq_ok.mp hobject
      cases hobject
      rfl
    · cases h
      rfl

end Raglogs.ParsingLaws
