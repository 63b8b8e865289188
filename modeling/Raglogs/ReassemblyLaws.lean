import Raglogs.CriRecords
import Raglogs.FragmentRuns

/-!
Reassembly of split container lines. What is let go of one stream is what a scanner of
fragments yields of it, with every line that is not a record of the stream as foreign,
and a line that is let go is a finished record with the joined message. Everything but
the joining of each run holds of all inputs.
-/

namespace Raglogs.ReassemblyLaws

open Regex.Pattern FragmentRuns Normalization Parsing Reassembly CriRecords

/-- A line as a scanner of one stream reads it. -/
def symbolOf (stream line : String) : Symbol String :=
  match criFields line with
  | none => .foreign
  | some cri =>
      if cri.stream ≠ stream then .foreign
      else if cri.tag = "P" then .part cri.msg
      else .last cri.msg

def messageOf (stream line : String) : Option String :=
  match criFields line with
  | none => none
  | some cri => if cri.stream ≠ stream then none else some cri.msg

/-- The fragments of a stream that are in one line of the output. -/
def partsOf (stream : String) : Piece → Option (List String)
  | .line text => (messageOf stream text).map fun msg => [msg]
  | .joined p => if p.stream ≠ stream then none else some p.parts

def heldOf (stream : String) : Option Pending → List String
  | none => []
  | some p => if p.stream ≠ stream then [] else p.parts

/-- No record of the stream is finished behind an open run that something else cut. -/
def Uncut (stream : String) (lines : List String) : Prop :=
  ¬ Interrupted (lines.map (symbolOf stream))

/-- What is asked of the reassembly of these lines. -/
structure Reassembled (lines : List String) : Prop where
  no_partial : ∀ line ∈ reassembleCriFragments lines, ∀ cri, criFields line = some cri →
    cri.tag ≠ "P"
  conserved : ∀ stream, String.join ((reassembleCriFragments lines).filterMap (messageOf stream)) =
    String.join (lines.filterMap (messageOf stream))
  untouched : (reassembleCriFragments lines).filter (fun line => criFields line = none) =
    lines.filter (fun line => criFields line = none)
  stable : reassembleCriFragments (reassembleCriFragments lines) = reassembleCriFragments lines
  /-- Each finished run is in one line of the output, in the order of the runs. -/
  whole : ∀ stream, runs [] (lines.map (symbolOf stream)) <+:
    (pieces none lines).filterMap (partsOf stream)
  /-- A line of the output carries the fragments that are in it. -/
  carried : ∀ stream, (reassembleCriFragments lines).filterMap (messageOf stream) =
    ((pieces none lines).filterMap (partsOf stream)).map String.join

/-! One stream. -/

theorem filterMap_takeJoined (stream : String) (pending : Option Pending) :
    (takeJoined pending).filterMap (partsOf stream) =
      if (heldOf stream pending).isEmpty then [] else [heldOf stream pending] := by
  cases pending with
  | none => rfl
  | some p =>
    by_cases hp : p.stream = stream <;> simp [takeJoined, partsOf, heldOf, hp, Pending.parts]

/-- One line is one symbol of the scanner. -/
theorem scan_step (stream : String) (pending : Option Pending) (line : String)
    (l : List (Symbol String)) :
    (step pending line).1.filterMap (partsOf stream) ++
        scan (heldOf stream (step pending line).2) l =
      scan (heldOf stream pending) (symbolOf stream line :: l) := by
  cases hcri : criFields line with
  | none =>
    have hline : partsOf stream (.line line) = none := by simp [partsOf, messageOf, hcri]
    have hsymbol : symbolOf stream line = .foreign := by simp [symbolOf, hcri]
    simp only [step, hcri, hsymbol, List.filterMap_append, filterMap_takeJoined, scan]
    split <;> simp [hline, heldOf]
  | some cri =>
    cases pending with
    | none =>
      by_cases hstream : cri.stream = stream <;> by_cases htag : cri.tag = "P" <;>
        simp [step, symbolOf, partsOf, messageOf, heldOf, scan, hcri, hstream, htag,
          CriFields.pending, Pending.parts]
    | some p =>
      by_cases hp : p.stream = cri.stream
      · by_cases hstream : cri.stream = stream <;> by_cases htag : cri.tag = "P" <;>
          simp [step, symbolOf, partsOf, heldOf, scan, hcri, hp, hstream, htag, Pending.append,
            Pending.parts]
      · -- the other stream's fragments go first
        by_cases hstream : cri.stream = stream
        · subst hstream
          by_cases htag : cri.tag = "P" <;>
            simp [step, symbolOf, partsOf, messageOf, heldOf, scan, hcri, hp, htag,
              CriFields.pending, Pending.parts]
        · by_cases hother : p.stream = stream
          · subst hother
            by_cases htag : cri.tag = "P" <;>
              simp [step, symbolOf, partsOf, messageOf, heldOf, scan, hcri, hp, hstream, htag,
                CriFields.pending, Pending.parts]
          · by_cases htag : cri.tag = "P" <;>
              simp [step, symbolOf, partsOf, messageOf, heldOf, scan, hcri, hp, hstream, hother,
                htag, CriFields.pending]

theorem filterMap_pieces (stream : String) (pending : Option Pending) (lines : List String) :
    (pieces pending lines).filterMap (partsOf stream) =
      scan (heldOf stream pending) (lines.map (symbolOf stream)) := by
  induction lines generalizing pending with
  | nil => exact filterMap_takeJoined stream pending
  | cons line lines ih =>
    rw [pieces, List.filterMap_append, ih, scan_step, List.map_cons]

theorem contents_symbols (stream : String) (lines : List String) :
    contents (lines.map (symbolOf stream)) = lines.filterMap (messageOf stream) := by
  induction lines with
  | nil => rfl
  | cons line lines ih =>
    cases hcri : criFields line with
    | none => simp [symbolOf, messageOf, contents, hcri, ih]
    | some cri =>
      by_cases hstream : cri.stream = stream <;> by_cases htag : cri.tag = "P" <;>
        simp [symbolOf, messageOf, contents, hcri, hstream, htag, ih]

/-! The lines that are let go. -/

/-- Fragments that records of a stream have left. -/
structure Sound (p : Pending) : Prop where
  ts : Takes criTs p.ts.toList []
  stream : p.stream.toList = "stdout".toList ∨ p.stream.toList = "stderr".toList
  no_break : ∀ part ∈ p.parts, '\n' ∉ part.toList
  unspaced : ∀ part ∈ p.parts, Unspaced part.toList

theorem sound_pending {line : String} {cri : CriFields} (h : criFields line = some cri) :
    Sound cri.pending := by
  obtain ⟨s, msg, hparted, rfl⟩ := criFields_spec h
  refine ⟨?_, ?_, ?_, ?_⟩
  · simpa [CriFields.pending, Stem.fields] using hparted.valid.1
  · simpa [CriFields.pending, Stem.fields] using hparted.valid.2.1
  · simpa [CriFields.pending, Stem.fields, Pending.parts] using hparted.no_break
  · simpa [CriFields.pending, Stem.fields, Pending.parts] using hparted.unspaced

theorem sound_append {p : Pending} (hp : Sound p) {line : String} {cri : CriFields}
    (h : criFields line = some cri) : Sound (p.append cri.msg) := by
  have hparts : (p.append cri.msg).parts = p.parts ++ [cri.msg] := rfl
  have hmsg : cri.msg ∈ cri.pending.parts := List.mem_singleton_self _
  refine ⟨hp.ts, hp.stream, ?_, ?_⟩
  · intro part hpart
    rw [hparts, List.mem_append, List.mem_singleton] at hpart
    rcases hpart with hpart | rfl
    · exact hp.no_break part hpart
    · exact (sound_pending h).no_break _ hmsg
  · intro part hpart
    rw [hparts, List.mem_append, List.mem_singleton] at hpart
    rcases hpart with hpart | rfl
    · exact hp.unspaced part hpart
    · exact (sound_pending h).unspaced _ hmsg

theorem unspaced_join {parts : List String} (h : ∀ part ∈ parts, Unspaced part.toList) :
    Unspaced (String.join parts).toList := by
  rw [String.toList_join]
  induction parts with
  | nil => exact fun a ha => by cases ha
  | cons part parts ih =>
    rw [List.flatMap_cons]
    cases hpart : part.toList with
    | nil => exact ih fun q hq => h q (List.mem_cons_of_mem _ hq)
    | cons a l =>
      have hfirst := h part List.mem_cons_self
      rw [hpart] at hfirst
      exact hfirst

/-- The line that is let go is a finished record with the joined message. -/
theorem criFields_joined {p : Pending} (hp : Sound p) :
    criFields (Piece.joined p).text = some ⟨p.ts, p.stream, "F", String.join p.parts⟩ := by
  have hblank : Blank [' '] := ⟨by simp, by
    rw [List.forall_mem_singleton]
    rfl⟩
  have hunspaced := unspaced_join hp.unspaced
  have hparted : Parted (Piece.joined p).text ⟨p.ts.toList, p.stream.toList, 'F'⟩
      (String.join p.parts).toList := by
    refine ⟨⟨hp.ts, hp.stream, Or.inl rfl⟩, ?_, hunspaced, [' '], [' '], [' '], [], hblank, hblank,
      hblank, Or.inl rfl, by simpa using hunspaced, ?_⟩
    · rw [String.toList_join, List.mem_flatMap]
      rintro ⟨part, hpart, hmem⟩
      exact hp.no_break part hpart hmem
    · simp [Piece.text]
  rw [criFields_of_parted hparted, Stem.fields, String.ofList_toList, String.ofList_toList,
    String.ofList_toList]

/-- What is let go is a line as it came, not a fragment, or sound fragments joined. -/
def Released (lines : List String) : Piece → Prop
  | .line text => text ∈ lines ∧ ∀ cri, criFields text = some cri → cri.tag ≠ "P"
  | .joined p => Sound p

def Held : Option Pending → Prop
  | none => True
  | some p => Sound p

theorem released_takeJoined {lines : List String} {pending : Option Pending} (h : Held pending) :
    ∀ piece ∈ takeJoined pending, Released lines piece := by
  cases pending with
  | none => simp [takeJoined]
  | some p => simpa [takeJoined, Released, Held] using h

theorem step_released {pending : Option Pending} (h : Held pending) {lines : List String}
    {line : String} (hline : line ∈ lines) :
    (∀ piece ∈ (step pending line).1, Released lines piece) ∧ Held (step pending line).2 := by
  cases hcri : criFields line with
  | none =>
    have hforeign : Released lines (.line line) := ⟨hline, by simp [hcri]⟩
    simp only [step, hcri, List.forall_mem_append, List.forall_mem_singleton]
    exact ⟨⟨released_takeJoined h, hforeign⟩, trivial⟩
  | some cri =>
    have hsound := sound_pending hcri
    have hfinished : cri.tag ≠ "P" → Released lines (.line line) :=
      fun htag => ⟨hline, by simpa [hcri] using htag⟩
    cases pending with
    | none =>
      by_cases htag : cri.tag = "P"
      · simpa [step, hcri, htag, Held] using hsound
      · simpa [step, hcri, htag, Held] using hfinished htag
    | some p =>
      have hp : Released lines (.joined p) := h
      have happend := sound_append h hcri
      by_cases hstream : p.stream = cri.stream <;> by_cases htag : cri.tag = "P"
      · simpa [step, hcri, htag, hstream, Held] using happend
      · simpa [step, hcri, htag, hstream, Held, Released] using happend
      · simpa [step, hcri, htag, hstream, Held] using ⟨hp, hsound⟩
      · simpa [step, hcri, htag, hstream, Held] using ⟨hp, hfinished htag⟩

theorem pieces_released {lines : List String} {pending : Option Pending} (h : Held pending)
    {rest : List String} (hrest : ∀ line ∈ rest, line ∈ lines) :
    ∀ piece ∈ pieces pending rest, Released lines piece := by
  induction rest generalizing pending with
  | nil => exact released_takeJoined h
  | cons line rest ih =>
    obtain ⟨hpieces, hheld⟩ := step_released h (hrest line List.mem_cons_self)
    rw [pieces, List.forall_mem_append]
    exact ⟨hpieces, ih hheld fun l hl => hrest l (List.mem_cons_of_mem _ hl)⟩

theorem join_map_join (l : List (List String)) :
    String.join (l.map String.join) = String.join l.flatten := by
  induction l with
  | nil => rfl
  | cons parts l ih =>
    rw [List.map_cons, String.join_cons, ih, List.flatten_cons, String.join_append]

/-- A line of the output carries the message of the fragments that are in it. -/
theorem messageOf_text {lines : List String} {piece : Piece} (h : Released lines piece)
    (stream : String) : messageOf stream piece.text = (partsOf stream piece).map String.join := by
  cases piece with
  | line text =>
    cases hmsg : messageOf stream text <;> simp [Piece.text, partsOf, hmsg, String.join_cons]
  | joined p =>
    rw [messageOf, criFields_joined h]
    by_cases hstream : p.stream = stream <;> simp [partsOf, hstream]

theorem no_partial {lines : List String} {piece : Piece} (h : Released lines piece)
    {cri : CriFields} (hcri : criFields piece.text = some cri) : cri.tag ≠ "P" := by
  cases piece with
  | line text => exact h.2 cri hcri
  | joined p =>
    rw [criFields_joined h] at hcri
    obtain rfl := Option.some.inj hcri
    exact (by decide : "F" ≠ "P")

/-- Lines without fragments are left as they are. -/
theorem pieces_of_no_partial {lines : List String}
    (h : ∀ line ∈ lines, ∀ cri, criFields line = some cri → cri.tag ≠ "P") :
    pieces none lines = lines.map .line := by
  induction lines with
  | nil => rfl
  | cons line lines ih =>
    have hrest := ih fun l hl => h l (List.mem_cons_of_mem _ hl)
    cases hcri : criFields line with
    | none => simp [pieces, step, hcri, takeJoined, hrest]
    | some cri =>
      have htag := h line List.mem_cons_self cri hcri
      simp [pieces, step, hcri, htag, hrest]

/-- The lines that no container runtime wrote. -/
theorem foreign_pieces {pending : Option Pending} (h : Held pending) (lines : List String) :
    ((pieces pending lines).map Piece.text).filter (fun line => criFields line = none) =
      lines.filter (fun line => criFields line = none) := by
  have hjoined : ∀ {p : Option Pending}, Held p →
      ((takeJoined p).map Piece.text).filter (fun line => criFields line = none) = [] := by
    intro p hp
    cases p with
    | none => rfl
    | some p => simp [takeJoined, criFields_joined hp]
  induction lines generalizing pending with
  | nil => exact hjoined h
  | cons line lines ih =>
    have hheld := (step_released h (List.mem_cons_self (a := line) (l := lines))).2
    have hstep : ((step pending line).1.map Piece.text).filter (fun line => criFields line = none) =
        [line].filter (fun line => criFields line = none) := by
      cases hcri : criFields line with
      | none => simp [step, hcri, hjoined h, Piece.text]
      | some cri =>
        cases pending with
        | none => by_cases htag : cri.tag = "P" <;> simp [step, hcri, htag, Piece.text]
        | some p =>
          have hp := criFields_joined h
          have happend := criFields_joined (sound_append h hcri)
          by_cases hstream : p.stream = cri.stream <;> by_cases htag : cri.tag = "P"
          · simp [step, hcri, hstream, htag]
          · simp [step, hcri, hstream, htag, happend]
          · simp [step, hcri, hstream, htag, hp]
          · rw [show step (some p) line = ([.joined p, .line line], none) by
              simp [step, hcri, hstream, htag]]
            rw [List.map_cons, List.filter_cons_of_neg (by simp [hp])]
            simp [hcri, Piece.text]
    rw [pieces, List.map_append, List.filter_append, ih hheld, hstep, ← List.filter_append,
      List.singleton_append]

/-- The reassembly does what is asked of it exactly if no finished run is cut. -/
theorem reassembled_iff (lines : List String) :
    Reassembled lines ↔ ∀ stream, Uncut stream lines := by
  have hheld : Held none := trivial
  have hreleased := pieces_released hheld fun line (hline : line ∈ lines) => hline
  have hscan := fun stream => filterMap_pieces stream none lines
  have hwhole : ∀ stream, runs [] (lines.map (symbolOf stream)) <+:
      (pieces none lines).filterMap (partsOf stream) ↔ Uncut stream lines := by
    intro stream
    rw [hscan, heldOf, runs_prefix_scan_iff, InterruptedFrom, Uncut]
    simp
  refine ⟨fun h stream => (hwhole stream).mp (h.whole stream), fun h => ?_⟩
  have hcarried : ∀ stream, (reassembleCriFragments lines).filterMap (messageOf stream) =
      ((pieces none lines).filterMap (partsOf stream)).map String.join := by
    intro stream
    rw [reassembleCriFragments, List.filterMap_map, List.map_filterMap]
    refine List.filterMap_congr fun piece hpiece => ?_
    rw [Function.comp_apply, messageOf_text (hreleased piece hpiece)]
  have hfinished : ∀ line ∈ reassembleCriFragments lines, ∀ cri, criFields line = some cri →
      cri.tag ≠ "P" := by
    intro line hline cri hcri
    obtain ⟨piece, hpiece, rfl⟩ := List.mem_map.mp hline
    exact no_partial (hreleased piece hpiece) hcri
  have hconserved : ∀ stream,
      String.join ((reassembleCriFragments lines).filterMap (messageOf stream)) =
        String.join (lines.filterMap (messageOf stream)) := by
    intro stream
    rw [hcarried, hscan, join_map_join, flatten_scan, contents_symbols]
    rfl
  have hstable : reassembleCriFragments (reassembleCriFragments lines) =
      reassembleCriFragments lines := by
    rw [reassembleCriFragments, pieces_of_no_partial hfinished, List.map_map]
    exact List.map_id _
  exact ⟨hfinished, hconserved, foreign_pieces hheld lines, hstable,
    fun stream => (hwhole stream).mpr (h stream), hcarried⟩

/-- An error line between the halves of a split line of the output leaves both apart. -/
theorem not_reassembled_of_interleaved : ¬ ∀ lines, Reassembled lines := by
  intro h
  have hwhole := (h ["2026-03-12T22:01:10Z stdout P signa", "2026-03-12T22:01:10Z stderr F WARN",
    "2026-03-12T22:01:10Z stdout F ture failed"]).whole "stdout"
  revert hwhole
  decide +kernel

end Raglogs.ReassemblyLaws
