import Raglogs.EvidencePackets

/-!
The prose of an explanation that no model wrote: a template filled in from the evidence, and
another one where there is too little of it.
-/

namespace Raglogs.SummaryTexts

open Clusters EvidencePackets LogEntries Text TriggerScan Wording

def joinLines (lines : List String) : String := "\n".intercalate lines

variable (f : Formats)

def formatWindow (start stop : Timestamp) : String :=
  f.stamp f.zones.start start ++ " → " ++ f.stamp f.zones.stop stop

/-- A trigger, with where and when it was. -/
def triggerText (t : TriggerCandidate) (maxLen : ℕ) : String :=
  trunc t.message maxLen ++
    (match truthy t.service with
      | some service => " in " ++ service
      | none => "") ++
    " at " ++
    (match t.timestamp with
      | some timestamp => f.clock timestamp
      | none => "unknown time")

def primaryLine (packet : EvidencePacket) : String :=
  match packet.primaryCluster with
  | some pc => "Primary issue: " ++ trunc pc.representativeMessage 120
  | none => "Primary issue: No significant error cluster identified"

def servicesLine (packet : EvidencePacket) : String :=
  "Services affected: " ++
    if packet.servicesAffected.isEmpty then "unknown" else ", ".intercalate packet.servicesAffected

def secondaryLines (packet : EvidencePacket) : List String :=
  if packet.secondaryClusters.isEmpty then ["Secondary effects: None identified"]
  else "Secondary effects:" :: (packet.secondaryClusters.take 3).map fun c =>
    "  - " ++ trunc c.representativeMessage 90 ++ " (" ++ toString c.count ++ " " ++
      events c.count ++ ")"

/-- The first trigger is the likely one, the others support it. -/
def triggerLines (packet : EvidencePacket) : List String :=
  match packet.triggerCandidates with
  | [] => ["Likely trigger: none identified"]
  | [t] => ["Likely trigger: " ++ triggerText f t 100]
  | t :: others =>
      ["Likely trigger: " ++ triggerText f t 100, "Supporting trigger evidence:"] ++
        others.map fun t => "  - " ++ triggerText f t 90

def evidenceLines (packet : EvidencePacket) : List String :=
  if packet.evidenceItems.isEmpty then ["- Insufficient evidence collected"]
  else packet.evidenceItems.map fun item => "- " ++ item

/-- A summary filled in from the evidence. -/
def renderTextSummary (packet : EvidencePacket) (confidence : String) : String :=
  joinLines (["Incident summary", "",
    "Window: " ++ formatWindow f packet.windowStart packet.windowEnd, servicesLine packet,
    primaryLine packet] ++ secondaryLines packet ++ triggerLines f packet ++ ["", "Evidence:"] ++
    evidenceLines packet ++ ["", "Confidence: " ++ confidence])

def renderInsufficientEvidence (windowStart windowEnd : Timestamp) (totalLogs : ℕ) : String :=
  joinLines ["Incident summary", "", "Window: " ++ formatWindow f windowStart windowEnd, "",
    "Insufficient evidence to identify a likely issue in the requested window.", "",
    "Evidence:", "- " ++ toString totalLogs ++ " total logs matched filters",
    "- No error-level clusters detected",
    "- No cluster showed meaningful deviation from baseline", "", "Confidence: low"]

end Raglogs.SummaryTexts
