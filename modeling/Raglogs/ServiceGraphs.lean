import Raglogs.BreadthFirst
import Raglogs.Linkage

/-!
The searches over a service graph: how many hops two services are apart when the direction
of a call does not matter, and whether one depends on another when it does. A set is gone
through in some order of its own.
-/

namespace Raglogs.ServiceGraphs

open BreadthFirst Collections Dicts Linkage StructuralSignals Telemetry Text

/-- The order in which sets are gone through. -/
structure SetOrder where
  toList : Finset String → List String
  nodup : ∀ s, (toList s).Nodup
  mem_toList : ∀ s a, a ∈ toList s ↔ a ∈ s

/-- A service graph as it is built: it knows the services that it links. -/
structure TraceGraph extends ServiceGraph where
  known : ∀ e ∈ edges, e.1 ∈ services ∧ e.2 ∈ services

section Builder

variable {K : Type}

theorem mem_services_of_lookup {spans : List (TraceSpan K)} {id service : String}
    (h : (dictOf ((spans.filterMap spanFields).map (fun r => (r.spanId, r.service)))).lookup id =
      some service) : service ∈ (serviceGraphFromSpans spans).services := by
  have hid : id ∈ dictOf ((spans.filterMap spanFields).map (fun r => (r.spanId, r.service))) :=
    Finmap.mem_iff.mpr ⟨service, h⟩
  rw [mem_dictOf, List.map_map] at hid
  simp only [serviceGraphFromSpans, List.mem_toFinset, List.mem_filterMap]
  exact ⟨id, mem_fromKeys.mpr hid, h⟩

/-- The graph of some spans knows the services that it links. -/
def traceGraphFromSpans (spans : List (TraceSpan K)) : TraceGraph where
  toServiceGraph := serviceGraphFromSpans spans
  known e he := by
    simp only [serviceGraphFromSpans, List.mem_toFinset, List.mem_filterMap] at he
    obtain ⟨id, -, hlink⟩ := he
    rw [linkOf] at hlink
    obtain ⟨parentId, -, hlink⟩ := Option.bind_eq_some_iff.mp hlink
    obtain ⟨parentService, hparent, hlink⟩ := Option.bind_eq_some_iff.mp hlink
    obtain ⟨childService, hchild, hlink⟩ := Option.bind_eq_some_iff.mp hlink
    split at hlink
    · obtain rfl := Option.some.inj hlink
      exact ⟨mem_services_of_lookup (truthy_eq_some.mp hparent).1,
        mem_services_of_lookup (truthy_eq_some.mp hchild).1⟩
    · cases hlink

end Builder

variable (order : SetOrder) (g : ServiceGraph)

/-- The services that a service calls. -/
def callees (a : String) : Finset String :=
  (g.edges.filter fun e => e.1 = a).image Prod.snd

/-- The services that a service calls or is called by. -/
def neighbours (a : String) : Finset String :=
  callees g a ∪ (g.edges.filter fun e => e.2 = a).image Prod.fst

/-- More rounds than a search has nodes to look at. -/
def rounds : ℕ := 2 * g.edges.card + 1

/-- The hops from a service to the others, out to a limit. -/
def undirectedHops (src : String) (maxHops : ℤ) : Option (List (String × ℕ)) :=
  if src ∉ g.services then some []
  else (search (fun a => order.toList (neighbours g a)) maxHops (rounds g) (start src)).map
    State.found

/-- Whether a service can be reached from another along the calls. -/
def reachable (src dst : String) : Option Bool :=
  if src = dst then some true
  else meets (fun a => order.toList (callees g a)) dst (rounds g) [src] [src]

/-- Whether one of two services depends on the other. -/
def linked (a b : String) : Option Bool :=
  if a = b then some true
  else if a ∉ g.services ∨ b ∉ g.services then some false
  else do
    let forth ← reachable order g a b
    if forth then return true else reachable order g b a

/-! What the searches find. -/

/-- A call between two services, in either direction. -/
def Joined (a b : String) : Prop := (a, b) ∈ g.edges ∨ (b, a) ∈ g.edges

def Calls (a b : String) : Prop := (a, b) ∈ g.edges

variable {g}

theorem mem_callees {a b : String} : b ∈ callees g a ↔ Calls g a b := by
  simp [callees, Calls]

theorem mem_neighbours {a b : String} : b ∈ neighbours g a ↔ Joined g a b := by
  simp [neighbours, mem_callees, Joined, Calls]

theorem linked_neighbours :
    Linked (fun a => order.toList (neighbours g a)) = Joined g := by
  funext a b
  exact propext ((order.mem_toList _ b).trans mem_neighbours)

theorem linked_callees : Linked (fun a => order.toList (callees g a)) = Calls g := by
  funext a b
  exact propext ((order.mem_toList _ b).trans mem_callees)

variable (g) in
/-- The services that a search from a service can come to. -/
def ends (src : String) : Finset String :=
  insert src (g.edges.image Prod.fst ∪ g.edges.image Prod.snd)

theorem card_ends (src : String) : (ends g src).card ≤ rounds g := by
  have hfst : (g.edges.image Prod.fst).card ≤ g.edges.card := Finset.card_image_le
  have hsnd : (g.edges.image Prod.snd).card ≤ g.edges.card := Finset.card_image_le
  have hunion := Finset.card_union_le (g.edges.image Prod.fst) (g.edges.image Prod.snd)
  have hinsert := Finset.card_insert_le src (g.edges.image Prod.fst ∪ g.edges.image Prod.snd)
  rw [ends, rounds]
  omega

theorem mem_ends_of_joined {src a b : String} (h : Joined g a b) : b ∈ ends g src := by
  rw [ends, Finset.mem_insert, Finset.mem_union, Finset.mem_image, Finset.mem_image]
  rcases h with h | h
  · exact .inr (.inr ⟨(a, b), h, rfl⟩)
  · exact .inr (.inl ⟨(b, a), h, rfl⟩)

/-- A search for hops comes to an end. -/
theorem exists_undirectedHops (src : String) (maxHops : ℤ) :
    ∃ hops, undirectedHops order g src maxHops = some hops := by
  rw [undirectedHops]
  split
  · exact ⟨[], rfl⟩
  · obtain ⟨st, hst⟩ : ∃ st, search (fun a => order.toList (neighbours g a)) maxHops (rounds g)
        (start src) = some st := by
      refine exists_search_start maxHops ?_ (Finset.mem_insert_self src _) (card_ends src)
      intro a _ b hb
      exact mem_ends_of_joined (mem_neighbours.mp ((order.mem_toList _ b).mp hb))
    exact ⟨st.found, by rw [hst]; rfl⟩

/-- So does a search for a service. -/
theorem exists_reachable (src dst : String) :
    ∃ answer, reachable order g src dst = some answer := by
  rw [reachable]
  split
  · exact ⟨true, rfl⟩
  · refine exists_meets_start dst ?_ (Finset.mem_insert_self src _) (card_ends src)
    intro a _ b hb
    exact mem_ends_of_joined (.inl (mem_callees.mp ((order.mem_toList _ b).mp hb)))

/-- Reachability is the reflexive and transitive closure of the calls. -/
theorem reachable_iff {src dst : String} {answer : Bool}
    (h : reachable order g src dst = some answer) :
    answer = true ↔ Relation.ReflTransGen (Calls g) src dst := by
  rw [reachable] at h
  split at h
  case isTrue heq =>
    obtain rfl := Option.some.inj h
    exact ⟨fun _ => heq ▸ .refl, fun _ => rfl⟩
  case isFalse hne =>
    have hanswer := meets_iff (Unmet.start hne) h
    rwa [linked_callees] at hanswer

/-- Two services are linked if one is known to depend on the other. -/
theorem linked_eq {a b : String} {forth back : Bool} (hforth : reachable order g a b = some forth)
    (hback : reachable order g b a = some back) :
    linked order g a b = some (decide (a = b) ||
      (decide (a ∈ g.services) && decide (b ∈ g.services) && (forth || back))) := by
  rw [linked]
  by_cases hab : a = b
  · rw [if_pos hab, decide_eq_true hab]
    rfl
  · rw [if_neg hab, decide_eq_false hab]
    by_cases hknown : a ∉ g.services ∨ b ∉ g.services
    · rw [if_pos hknown]
      rcases hknown with ha | hb
      · simp [ha]
      · simp [hb]
    · rw [if_neg hknown, hforth, hback]
      simp only [not_or, not_not] at hknown
      cases forth <;> simp [hknown]

theorem linked_comm (a b : String) : linked order g a b = linked order g b a := by
  obtain ⟨forth, hforth⟩ := exists_reachable order a b
  obtain ⟨back, hback⟩ := exists_reachable order (g := g) b a
  have hsame : decide (a = b) = decide (b = a) := decide_eq_decide.mpr eq_comm
  rw [linked_eq order hforth hback, linked_eq order hback hforth, hsame,
    Bool.and_comm (decide (a ∈ g.services)), Bool.or_comm forth]

theorem TraceGraph.mem_services {g : TraceGraph} {a b : String}
    (h : Joined g.toServiceGraph a b) : a ∈ g.services ∧ b ∈ g.services := by
  rcases h with h | h
  · exact g.known _ h
  · exact (g.known _ h).symm

/-- A path between two services begins and ends in the graph. -/
theorem TraceGraph.mem_services_of_steps {g : TraceGraph} {k : ℕ} {a b : String}
    (h : Steps (Joined g.toServiceGraph) k a b) (hne : b ≠ a) :
    a ∈ g.services ∧ b ∈ g.services := by
  induction h with
  | refl => exact absurd rfl hne
  | @tail k a b c _ hstep ih =>
    refine ⟨?_, (g.mem_services hstep).2⟩
    by_cases hba : b = a
    · exact hba ▸ (g.mem_services hstep).1
    · exact (ih hba).1

/-- The searches over a service graph find what there is to be found. -/
theorem searches_exact (g : TraceGraph) :
    (∀ src maxHops, ∃ hops, undirectedHops order g.toServiceGraph src maxHops = some hops ∧
      (hops.map Prod.fst).Nodup ∧
        ∀ n k, (n, k) ∈ hops ↔ n ∈ g.services ∧ n ≠ src ∧
          IsDistance (Joined g.toServiceGraph) k src n ∧ (k : ℤ) ≤ maxHops) ∧
      (∀ src dst, ∃ answer, reachable order g.toServiceGraph src dst = some answer ∧
        (answer = true ↔ Relation.ReflTransGen (Calls g.toServiceGraph) src dst)) ∧
        ∀ a b, (linked order g.toServiceGraph a b).isSome = true ∧
          linked order g.toServiceGraph a b = linked order g.toServiceGraph b a := by
  refine ⟨?_, ?_, ?_⟩
  · intro src maxHops
    obtain ⟨hops, hhops⟩ := exists_undirectedHops order src maxHops
    refine ⟨hops, hhops, ?_⟩
    rw [undirectedHops] at hhops
    split at hhops
    case isTrue hsrc =>
      obtain rfl := Option.some.inj hhops
      refine ⟨List.nodup_nil, fun n k => ⟨fun hmem => absurd hmem List.not_mem_nil, ?_⟩⟩
      intro ⟨_, hne, hdist, _⟩
      exact absurd (TraceGraph.mem_services_of_steps hdist.1 hne).1 hsrc
    case isFalse =>
      obtain ⟨st, hst, rfl⟩ := Option.map_eq_some_iff.mp hhops
      refine ⟨keys_nodup hst, fun n k => ?_⟩
      rw [mem_found_iff hst, linked_neighbours]
      constructor
      · intro ⟨hne, hdist, hlimit⟩
        exact ⟨(TraceGraph.mem_services_of_steps hdist.1 hne).2, hne, hdist, hlimit⟩
      · exact fun h => h.2
  · intro src dst
    obtain ⟨answer, hanswer⟩ := exists_reachable order src dst
    exact ⟨answer, hanswer, reachable_iff order hanswer⟩
  · intro a b
    obtain ⟨forth, hforth⟩ := exists_reachable order a b
    obtain ⟨back, hback⟩ := exists_reachable order b a
    exact ⟨by rw [linked_eq order hforth hback]; rfl, linked_comm order a b⟩

end Raglogs.ServiceGraphs
