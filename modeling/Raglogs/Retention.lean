import Raglogs.Durations
import Raglogs.KeyedTables

/-!
Retention intervals, cutoffs and the overrides of a scope. An interval is a duration or
a word that disables the tier. An interval that cannot be read raises a value error; a
number that no duration holds and a cutoff before the calendar raise another exception.
-/

namespace Raglogs.Retention

open Durations KeyedTables LogEntries Text

/-- What a purge raises. -/
inductive PurgeError
  | invalidInterval (message : String)
  | outOfRange
  /-- The bound on the number of batches is used up. -/
  | unfinished
deriving DecidableEq

/-- Whether an exception is a value error. -/
def PurgeError.isValueError : PurgeError → Bool
  | .invalidInterval _ => true
  | .outOfRange => false
  | .unfinished => false

/-- The words that mean that a tier is never purged. -/
def neverTokens : List String := ["", "0", "off", "none", "never", "false"]

structure RetentionPolicy where
  scope : String
  rawInterval : String
  summaryInterval : String
deriving DecidableEq

/-- Parse a retention interval, or nothing to skip the tier. -/
def parseRetentionInterval (lowering : Lowering) (value : Option String) :
    Except PurgeError (Option ℤ) :=
  match value with
  | none => .ok none
  | some value =>
      let stripped := strip value
      if neverTokens.contains (lowering.lower stripped) then .ok none
      else if stripped.toList.any isSpace then
        .error (.invalidInterval ("Cannot parse retention interval: " ++ lowering.repr value))
      else
        match parseDuration lowering stripped with
        | .error (.tooLong _) => .error .outOfRange
        | .error e => .error (.invalidInterval (e.message lowering))
        | .ok delta => .ok (if delta ≤ 0 then none else some delta)

/-- The instant before which rows are expired, or nothing when the tier is not purged. -/
def computeCutoff (lowering : Lowering) (interval : Option String) (now : Timestamp) :
    Except PurgeError (Option Timestamp) :=
  match parseRetentionInterval lowering interval with
  | .error e => .error e
  | .ok none => .ok none
  | .ok (some delta) =>
      if now - delta < firstInstant then .error .outOfRange else .ok (some (now - delta))

/-- Raise unless both intervals can be parsed. -/
def validatePolicyIntervals (lowering : Lowering) (policy : RetentionPolicy) :
    Except PurgeError Unit := do
  let _ ← parseRetentionInterval lowering (some policy.rawInterval)
  let _ ← parseRetentionInterval lowering (some policy.summaryInterval)
  return ()

/-- Merge the overrides of a scope with the defaults of the environment. -/
def applyScopeOverride (scope defaultRaw defaultSummary : String)
    (overrideRaw overrideSummary : Option String) : RetentionPolicy where
  scope := scope
  rawInterval := overrideRaw.getD defaultRaw
  summaryInterval := overrideSummary.getD defaultSummary

/-- A row of overrides; a null interval falls back to the default. -/
structure ScopeRetention where
  scope : String
  rawInterval : Option String
  summaryInterval : Option String

structure Settings where
  retentionRaw : String
  retentionSummary : String
  purgeIntervalSeconds : ℤ
  purgeChunkSize : ℤ

def Settings.default : Settings := ⟨"30d", "180d", 3600, 1000⟩

/-- The row of overrides of a scope. -/
def scopeOverride (overrides : Table ScopeRetention.scope) (scope : String) :
    Option ScopeRetention :=
  overrides.rows.find? (fun row => row.scope == scope)

/-- Load the overrides of a scope. -/
def resolveScopePolicy (cfg : Settings) (overrides : Table ScopeRetention.scope)
    (scope : String) : RetentionPolicy :=
  let row := scopeOverride overrides scope
  applyScopeOverride scope cfg.retentionRaw cfg.retentionSummary
    (row.bind ScopeRetention.rawInterval) (row.bind ScopeRetention.summaryInterval)

/-- The cutoffs of the two tiers. -/
structure Cutoffs where
  raw : Option Timestamp
  summary : Option Timestamp
deriving DecidableEq

/-- What a policy comes to at an instant, with the exception raised first if there is one. -/
def policyCutoffs (lowering : Lowering) (now : Timestamp) (policy : RetentionPolicy) :
    Except PurgeError Cutoffs := do
  validatePolicyIntervals lowering policy
  let raw ← computeCutoff lowering (some policy.rawInterval) now
  let summary ← computeCutoff lowering (some policy.summaryInterval) now
  return ⟨raw, summary⟩

/-- Once an interval is parsed, only the subtraction can raise. -/
theorem computeCutoff_error_of_parsed {lowering : Lowering} {interval : Option String}
    {delta : Option ℤ} (h : parseRetentionInterval lowering interval = .ok delta)
    {now : Timestamp} {e : PurgeError} (he : computeCutoff lowering interval now = .error e) :
    e = .outOfRange := by
  rw [computeCutoff, h] at he
  cases delta with
  | none => cases he
  | some delta =>
    dsimp only at he
    split at he
    · exact (Except.error.inj he).symm
    · cases he

/-- A policy comes to two cutoffs, or is refused when it is validated, or a subtraction from
the clock leaves the calendar. -/
theorem policyCutoffs_cases (lowering : Lowering) (now : Timestamp) (policy : RetentionPolicy) :
    (∃ cutoffs, policyCutoffs lowering now policy = .ok cutoffs ∧
      validatePolicyIntervals lowering policy = .ok () ∧
      computeCutoff lowering (some policy.rawInterval) now = .ok cutoffs.raw ∧
      computeCutoff lowering (some policy.summaryInterval) now = .ok cutoffs.summary) ∨
    (∃ e, policyCutoffs lowering now policy = .error e ∧
      validatePolicyIntervals lowering policy = .error e) ∨
    (policyCutoffs lowering now policy = .error .outOfRange ∧
      validatePolicyIntervals lowering policy = .ok () ∧
      (computeCutoff lowering (some policy.rawInterval) now = .error .outOfRange ∨
        ∃ raw, computeCutoff lowering (some policy.rawInterval) now = .ok raw ∧
          computeCutoff lowering (some policy.summaryInterval) now = .error .outOfRange)) := by
  cases hraw : parseRetentionInterval lowering (some policy.rawInterval) with
  | error e => exact Or.inr (Or.inl ⟨e, by simp [policyCutoffs, validatePolicyIntervals, hraw,
      bind, Except.bind], by simp [validatePolicyIntervals, hraw, bind, Except.bind]⟩)
  | ok rawDelta =>
    cases hsummary : parseRetentionInterval lowering (some policy.summaryInterval) with
    | error e => exact Or.inr (Or.inl ⟨e, by simp [policyCutoffs, validatePolicyIntervals, hraw,
        hsummary, bind, Except.bind], by simp [validatePolicyIntervals, hraw, hsummary, bind,
        Except.bind]⟩)
    | ok summaryDelta =>
      have hvalid : validatePolicyIntervals lowering policy = .ok () := by
        simp [validatePolicyIntervals, hraw, hsummary, bind, Except.bind, pure, Except.pure]
      cases hrawCutoff : computeCutoff lowering (some policy.rawInterval) now with
      | error e =>
        have he := computeCutoff_error_of_parsed hraw hrawCutoff
        subst he
        refine Or.inr (Or.inr ⟨?_, hvalid, Or.inl rfl⟩)
        simp [policyCutoffs, hvalid, hrawCutoff, bind, Except.bind]
      | ok raw =>
        cases hsummaryCutoff : computeCutoff lowering (some policy.summaryInterval) now with
        | error e =>
          have he := computeCutoff_error_of_parsed hsummary hsummaryCutoff
          subst he
          refine Or.inr (Or.inr ⟨?_, hvalid, Or.inr ⟨raw, rfl, rfl⟩⟩)
          simp [policyCutoffs, hvalid, hrawCutoff, hsummaryCutoff, bind, Except.bind]
        | ok summary =>
          refine Or.inl ⟨⟨raw, summary⟩, ?_, hvalid, rfl, rfl⟩
          simp [policyCutoffs, hvalid, hrawCutoff, hsummaryCutoff, bind, Except.bind, pure,
            Except.pure]

end Raglogs.Retention
