import Raglogs.Regex
import Raglogs.Text

/-!
The trigger patterns: messages of an event that may have set an incident off.
The causal ones name changes, the reactive ones symptoms.
-/

namespace Raglogs.Triggers

open Regex Regex.Pattern Text

/-- A subject, white space, and one of several words. -/
def subjectVerb (subject : Pattern) (verbs : List String) : Pattern :=
  .seq subject (.seq spaces (anyOf (verbs.map lit)))

def causalTriggerPatterns : List Pattern := [
  subjectVerb (.seq (lit "deploy") (opt (lit "ment"))) ["started", "completed", "finished", "done"],
  subjectVerb (.seq (lit "config") (opt (lit "uration"))) ["reloaded", "changed", "updated"],
  subjectVerb (lit "migration") ["started", "completed", "running"],
  subjectVerb (.seq (lit "webhook") (.seq spaces (anyOf [lit "secret", lit "key", lit "config"])))
    ["changed", "invalid", "expired"],
  subjectVerb (.seq (lit "release") (.seq spaces nonSpaces)) ["deployed", "started", "live"],
  subjectVerb (lit "rollout") ["started", "completed", "done"]]

def reactiveTriggerPatterns : List Pattern := [
  subjectVerb (lit "application") ["started", "restarted", "restart"],
  subjectVerb (lit "service") ["started", "restarted", "restart"],
  subjectVerb (lit "pod") ["restart", "restarted", "terminated", "evicted"],
  subjectVerb (lit "queue") ["full", "saturated", "overflow"],
  subjectVerb (.seq (lit "circuit") (.seq (opt (.char (fun c => isSpace c || c == '_')))
    (lit "breaker"))) ["open", "tripped", "activated"],
  subjectVerb (lit "token") ["expired", "expiration", "invalid"]]

def triggerPatterns : List Pattern := causalTriggerPatterns ++ reactiveTriggerPatterns

/-- Whether a message matches a known trigger pattern. -/
def isTriggerMessage (message : String) : Bool :=
  triggerPatterns.any (fun pattern => pattern.isMatch message)

/-- The families of triggers, more specific ones first. -/
def triggerTypePatterns : List (Pattern × String) := [
  (anyOf [.seq (lit "deploy") (opt (lit "ment")), lit "rollout",
    subjectVerb (.seq (lit "release") (.seq spaces nonSpaces)) ["deployed", "started", "live"]],
    "deploy"),
  (subjectVerb (lit "pod") ["restart", "restarted", "terminated", "evicted"], "pod"),
  (subjectVerb (.seq (lit "config") (opt (lit "uration"))) ["reloaded", "changed", "updated"],
    "config"),
  (subjectVerb (lit "migration") ["started", "completed", "running"], "migration"),
  (subjectVerb (lit "queue") ["full", "saturated", "overflow"], "queue"),
  (subjectVerb (.seq (lit "circuit") (.seq (opt (.char (fun c => isSpace c || c == '_')))
    (lit "breaker"))) ["open", "tripped", "activated"], "circuit_breaker"),
  (subjectVerb (.seq (lit "webhook") (.seq spaces (anyOf [lit "secret", lit "key",
    lit "config"]))) ["changed", "invalid", "expired"], "webhook"),
  (subjectVerb (lit "token") ["expired", "expiration", "invalid"], "token"),
  (anyOf [subjectVerb (anyOf [lit "application", lit "service"])
    ["started", "restarted", "restart"], lit "restart"], "restart")]

/-- The family of a trigger by its message, if it is one of the known. -/
def inferTriggerType (message : String) : Option String :=
  if message = "" then none
  else (triggerTypePatterns.find? (fun p => p.1.isMatch message)).map Prod.snd

end Raglogs.Triggers
