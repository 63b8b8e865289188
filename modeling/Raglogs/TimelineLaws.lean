import Raglogs.ExplanationLaws
import Raglogs.Timelines

/-!
What a timeline tells. Its events count lines of the window that was asked for, and no line
twice; the error and its effects lie in the window, are told of services of the window, and no
effect goes before the error.
-/

namespace Raglogs.TimelineLaws

open Clustering Clusters ClusterTotals Collections Dicts EvidencePackets ExplainRoute ExplainSchema
  Explanations ExplanationLaws LogEntries SortedDicts Timelines

section Packet

variable (f : Formats) (packet : EvidencePacket)

/-- An event that counts lines lies in a window and is told of services of its rows. -/
structure Placed (store : LogStore) (wf : WindowFilter) (e : TimelineEvent) : Prop where
  inside : wf.windowStart ≤ e.timestamp ∧ e.timestamp ≤ wf.windowEnd
  services : ∀ s ∈ e.services, ∃ row ∈ store.baseWindowQuery wf, row.service = some s

/-- The timeline of some evidence: the causes in their order, the error, and the effects, of which
none goes before the error. -/
def Arranged (events : List TimelineEvent) : Prop :=
  ∃ before after, events = before ++ (failure f packet).toList ++ after ∧
    before.Perm (packet.triggerCandidates.filterMap (triggerEvent f)) ∧
    before.Pairwise (fun a b => a.timestamp ≤ b.timestamp) ∧
    after.Pairwise (fun a b => effectKey f a ≤ effectKey f b) ∧
    ∀ e ∈ failure f packet, ∀ d ∈ after, e.timestamp ≤ d.timestamp

variable {f packet}

/-- What some events count. -/
def counted (events : List TimelineEvent) : ℕ := (events.filterMap TimelineEvent.count).sum

/-- What is told of a packet and has begun. -/
def datedClusters (packet : EvidencePacket) : List (ClusterData ℚ) :=
  (toldClusters packet).filter fun c => c.firstSeen.isSome

section Places

variable {store : LogStore} {wf : WindowFilter} (hwithin : Within store wf (toldClusters packet))

include hwithin

end Places

end Packet

/-! The route. -/

variable (server : Server)

/-- What a body tells: a timeline of some evidence of the window, whose counts are the lines of
the clusters told of and no more than the window has. -/
structure Tells (a : TimelineArrival) (ask : TimelineAsk) (packet : EvidencePacket)
    (events : List TimelineEvent) : Prop where
  arranged : Arranged server.explain.evidence.formats packet events
  counted_eq : counted events = total (datedClusters packet)
  counted_le : counted events ≤ countLogsInWindow a.store ask.filter
  placed : ∀ e ∈ events, e.count ≠ none → Placed a.store.logs ask.filter e

/-- The evidence that the rows give for what is asked. -/
def Evidenced (a : TimelineArrival) (ask : TimelineAsk) (packet : EvidencePacket) : Prop :=
  ∃ clusters, runClustering server.explain.scoring server.explain.mergeSimilarity
      server.explain.mergeEnvironment server.explain.resultOrder a.store.logs a.store.jobs
      ask.filter ask.overrides.baselineWindow ask.overrides.maxClusters = .ok clusters ∧
    assembleEvidence server.explain.evidence a.store ask.filter clusters
      ask.overrides.maxEvidenceItems = .ok packet

/-- A timeline is refused or it tells what the rows do. -/
def Sound (a : TimelineArrival) : Except (RouteError ExplainFailure) TimelineResponse → Prop
  | .error _ => True
  | .ok body => ∃ ask packet events, settleTimeline server a = .ok ask ∧
      body.scope = ask.filter.scope ∧ body.events = events.map (eventToModel server) ∧
      Evidenced server a ask packet ∧ Tells server a ask packet events

end Raglogs.TimelineLaws
