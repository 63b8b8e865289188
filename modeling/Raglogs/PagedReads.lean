import Mathlib.Data.List.Perm.Basic

/-!
Reads that go page by page and leave a cursor behind each page, over arbitrary lines and
cursors. A read may be broken off behind any page and taken up from the cursor left
there, as often as one likes. A reader whose every read takes what is left and leaves no
cursor loses nothing that way.
-/

namespace Raglogs.PagedReads

variable {α γ : Type*}

/-- Pages with the cursor that is set behind each. -/
abbrev Pages (α γ : Type*) : Type _ := List (List α × Option γ)

def linesOf (pages : Pages α γ) : List α := pages.flatMap Prod.fst

/-- The cursor behind some pages that were read from a cursor. -/
def lastCursor : Option γ → Pages α γ → Option γ
  | c, [] => c
  | _, page :: rest => lastCursor page.2 rest

/-- Each line with the cursor that is set when it comes out. -/
def withCursors : Option γ → Pages α γ → List (α × Option γ)
  | _, [] => []
  | c, page :: rest => page.1.map (fun line => (line, c)) ++ withCursors page.2 rest

/-- Cursors that reads leave, with the lines that came out before. -/
inductive Reached (read : Option γ → Pages α γ) : Option γ → List α → Prop
  | start : Reached read none []
  | step {c : Option γ} {seen : List α} {done todo : Pages α γ} {c' : γ} :
      Reached read c seen → read c = done ++ todo → done ≠ [] →
      lastCursor c done = some c' → Reached read (some c') (seen ++ linesOf done)

/-- From every cursor, what was not read yet comes out, each line once, and no cursor
is left. -/
def Drained (read : Option γ → Pages α γ) (entries : List α) : Prop :=
  ∀ c seen, Reached read c seen →
    (seen ++ linesOf (read c)).Perm entries ∧ lastCursor c (read c) = none

section Rules

variable (rest : Option γ → List α) (valid : Option γ → Prop)

/-- A cursor behind some of the pages stands for what is left. -/
def Resumable (c : Option γ) (pages : Pages α γ) : Prop :=
  ∀ done todo c', pages = done ++ todo → done ≠ [] → lastCursor c done = some c' →
    valid (some c') ∧ (linesOf done ++ rest (some c')).Perm (rest c)

/-- A read takes what is left behind a cursor. -/
structure Reads (c : Option γ) (pages : Pages α γ) : Prop where
  lines : (linesOf pages).Perm (rest c)
  closed : lastCursor c pages = none
  resumable : Resumable rest valid c pages

variable {rest valid}

theorem resumable_last {c : Option γ} {lines : List α} :
    Resumable rest valid c [(lines, none)] := by
  intro done todo c' heq hne hcursor
  cases done with
  | nil => exact absurd rfl hne
  | cons page done =>
    obtain ⟨rfl, hnil⟩ := List.cons.inj heq
    obtain ⟨rfl, rfl⟩ := List.append_eq_nil_iff.mp hnil.symm
    cases hcursor

theorem resumable_next {c : Option γ} {t : γ} {lines : List α} {pages : Pages α γ}
    (hrest : (lines ++ rest (some t)).Perm (rest c)) (hvalid : valid (some t))
    (h : Resumable rest valid (some t) pages) :
    Resumable rest valid c ((lines, some t) :: pages) := by
  intro done todo c' heq hne hcursor
  cases done with
  | nil => exact absurd rfl hne
  | cons page done =>
    obtain ⟨rfl, hpages⟩ := List.cons.inj heq
    by_cases hdone : done = []
    · subst hdone
      obtain rfl := Option.some.inj hcursor
      exact ⟨hvalid, by simpa [linesOf] using hrest⟩
    · obtain ⟨hvalid', hperm⟩ := h done todo c' hpages hdone hcursor
      refine ⟨hvalid', ?_⟩
      calc
        linesOf ((lines, some t) :: done) ++ rest (some c')
          = lines ++ (linesOf done ++ rest (some c')) := by simp [linesOf]
        _ |>.Perm (lines ++ rest (some t)) := hperm.append_left lines
        _ |>.Perm (rest c) := hrest

theorem Reads.last {c : Option γ} {lines : List α} (h : lines.Perm (rest c)) :
    Reads rest valid c [(lines, none)] :=
  ⟨by simpa [linesOf] using h, rfl, resumable_last⟩

theorem Reads.next {c : Option γ} {t : γ} {lines : List α} {pages : Pages α γ}
    (hrest : (lines ++ rest (some t)).Perm (rest c)) (hvalid : valid (some t))
    (h : Reads rest valid (some t) pages) : Reads rest valid c ((lines, some t) :: pages) where
  lines := by
    have hlines : linesOf ((lines, some t) :: pages) = lines ++ linesOf pages := List.flatMap_cons
    rw [hlines]
    exact (h.lines.append_left lines).trans hrest
  closed := h.closed
  resumable := resumable_next hrest hvalid h.resumable

/-- A read takes what is left behind a cursor, or leaves a cursor with less behind it. -/
structure Advances (rest : Option γ → List α) (valid : Option γ → Prop) (c : Option γ)
    (pages : Pages α γ) : Prop where
  resumable : Resumable rest valid c pages
  closed : lastCursor c pages = none → (linesOf pages).Perm (rest c)
  less : ∀ t, lastCursor c pages = some t →
    valid (some t) ∧ (rest (some t)).length < (rest c).length

theorem Advances.last {c : Option γ} {lines : List α} (h : lines.Perm (rest c)) :
    Advances rest valid c [(lines, none)] :=
  ⟨resumable_last, fun _ => by simpa [linesOf] using h, fun t ht => by cases ht⟩

/-- A last page that leaves the next one to another read. -/
theorem Advances.capped {c : Option γ} {t : γ} {lines : List α} (hne : lines ≠ [])
    (hrest : (lines ++ rest (some t)).Perm (rest c)) (hvalid : valid (some t)) :
    Advances rest valid c [(lines, some t)] := by
  constructor
  · refine resumable_next hrest hvalid fun done todo c' heq hdone => ?_
    exact absurd (List.append_eq_nil_iff.mp heq.symm).1 hdone
  · intro hclosed
    cases hclosed
  · intro t' ht'
    obtain rfl := Option.some.inj ht'
    have hlength := hrest.length_eq
    have hpos := List.length_pos_iff.mpr hne
    rw [List.length_append] at hlength
    exact ⟨hvalid, by omega⟩

theorem Advances.next {c : Option γ} {t : γ} {lines : List α} {pages : Pages α γ}
    (hrest : (lines ++ rest (some t)).Perm (rest c)) (hvalid : valid (some t))
    (h : Advances rest valid (some t) pages) :
    Advances rest valid c ((lines, some t) :: pages) where
  resumable := resumable_next hrest hvalid h.resumable
  closed hclosed := by
    have hlines : linesOf ((lines, some t) :: pages) = lines ++ linesOf pages := List.flatMap_cons
    rw [hlines]
    exact ((h.closed hclosed).append_left lines).trans hrest
  less t' ht' := by
    have hlength := hrest.length_eq
    rw [List.length_append] at hlength
    obtain ⟨hvalid', hless⟩ := h.less t' ht'
    exact ⟨hvalid', by omega⟩

theorem Advances.reads {c : Option γ} {pages : Pages α γ} (h : Advances rest valid c pages)
    (hclosed : lastCursor c pages = none) : Reads rest valid c pages :=
  ⟨h.closed hclosed, hclosed, h.resumable⟩

/-- What is left behind a reached cursor, and what came out before, are the entries. -/
theorem Reached.perm {read : Option γ → Pages α γ} {entries : List α} (hstart : valid none)
    (hentries : (rest none).Perm entries) (h : ∀ c, valid c → Resumable rest valid c (read c))
    {c : Option γ} {seen : List α} (hreached : Reached read c seen) :
    valid c ∧ (seen ++ rest c).Perm entries := by
  induction hreached with
  | start => exact ⟨hstart, hentries⟩
  | @step c seen done todo c' _ heq hne hcursor ih =>
    obtain ⟨hvalid, hperm⟩ := ih
    obtain ⟨hvalid', hrest⟩ := h c hvalid done todo c' heq hne hcursor
    refine ⟨hvalid', ?_⟩
    rw [List.append_assoc]
    exact (hrest.append_left seen).trans hperm

theorem drained_of_reads {read : Option γ → Pages α γ} {entries : List α} (hstart : valid none)
    (hentries : (rest none).Perm entries) (h : ∀ c, valid c → Reads rest valid c (read c)) :
    Drained read entries := by
  intro c seen hreached
  obtain ⟨hvalid, hperm⟩ :=
    hreached.perm hstart hentries fun c hc => (h c hc).resumable
  exact ⟨((h c hvalid).lines.append_left seen).trans hperm, (h c hvalid).closed⟩

end Rules

end Raglogs.PagedReads
