import Raglogs.Regex
import Mathlib.Data.List.TakeWhile

/-!
The texts that a pattern takes, and the groups it captures from them, without the
place they stand at. For a pattern that does not look around itself this says all of
a run: a backtracking match takes such a text, and every such text is a match. The
order of the matches matters only where a repetition can give characters back.
-/

namespace Raglogs.Regex.Pattern

/-- A pattern takes a text and captures groups from it, last one first. -/
inductive Takes : Pattern → List Char → List (String × String) → Prop
  | empty : Takes .empty [] []
  | char {p : Char → Bool} {a : Char} (h : p a = true) : Takes (.char p) [a] []
  | seq {r s : Pattern} {v w : List Char} {gs hs : List (String × String)} :
      Takes r v gs → Takes s w hs → Takes (.seq r s) (v ++ w) (hs ++ gs)
  | altLeft {r s : Pattern} {w : List Char} {gs : List (String × String)} :
      Takes r w gs → Takes (.alt r s) w gs
  | altRight {r s : Pattern} {w : List Char} {gs : List (String × String)} :
      Takes s w gs → Takes (.alt r s) w gs
  | starNil {r : Pattern} : Takes (.star r) [] []
  | starCons {r : Pattern} {v w : List Char} {gs hs : List (String × String)} (hv : v ≠ []) :
      Takes r v gs → Takes (.star r) w hs → Takes (.star r) (v ++ w) (hs ++ gs)
  | group {r : Pattern} {w : List Char} {gs : List (String × String)} (name : String) :
      Takes r w gs → Takes (.group name r) w ((name, String.ofList w) :: gs)

/-- The match after a text is taken from a place and groups are captured. -/
def passed (m : Match) (w rest : List Char) (gs : List (String × String)) : Match :=
  ⟨⟨w.reverse ++ m.cursor.before, rest⟩, gs ++ m.groups⟩

/-- A pattern that reads nothing but the characters it takes. -/
def isLocal : Pattern → Bool
  | .seq r s => r.isLocal && s.isLocal
  | .alt r s => r.isLocal && s.isLocal
  | .star r => r.isLocal
  | .group _ r => r.isLocal
  | .ahead _ => false
  | .boundary _ => false
  | .start => false
  | .finish => false
  | _ => true

theorem passed_passed (m : Match) (v w rest rest' : List Char) (gs hs : List (String × String)) :
    passed (passed m v rest' gs) w rest hs = passed m (v ++ w) rest (hs ++ gs) := by
  simp [passed]

theorem between_passed (m : Match) {w rest : List Char} (gs : List (String × String))
    (h : m.cursor.after = w ++ rest) :
    m.cursor.between (passed m w rest gs).cursor = String.ofList w := by
  simp [Cursor.between, passed, h]

theorem passed_nil {m : Match} {rest : List Char} (h : m.cursor.after = rest) :
    passed m [] rest [] = m := by
  subst h
  rfl

/-- A run ends behind a text of the pattern. -/
def Behind (r : Pattern) (m n : Match) : Prop :=
  ∃ w rest gs, m.cursor.after = w ++ rest ∧ Takes r w gs ∧ n = passed m w rest gs

theorem behind_star_of_mem {r : Pattern} (hr : ∀ m, ∀ n ∈ r.run m, Behind r m n) (fuel : ℕ) :
    ∀ m, ∀ n ∈ repeatGreedy r.run fuel m, Behind (.star r) m n := by
  induction fuel with
  | zero =>
    intro m n hn
    rw [repeatGreedy, List.mem_singleton] at hn
    exact ⟨[], m.cursor.after, [], rfl, .starNil, hn⟩
  | succ fuel ih =>
    intro m n hn
    rw [repeatGreedy, List.mem_append, List.mem_flatMap, List.mem_singleton] at hn
    rcases hn with ⟨k, hk, hn⟩ | hn
    · split at hn
      · rename_i hshorter
        obtain ⟨v, rest, gs, hafter, htakes, rfl⟩ := hr m k hk
        obtain ⟨w, rest', hs, hafter', htakes', rfl⟩ := ih _ n hn
        have hv : v ≠ [] := by
          rintro rfl
          simp [hafter, passed] at hshorter
        refine ⟨v ++ w, rest', hs ++ gs, ?_, .starCons hv htakes htakes', passed_passed ..⟩
        rw [hafter, List.append_assoc]
        exact congrArg (v ++ ·) hafter'
      · exact absurd hn List.not_mem_nil
    · exact ⟨[], m.cursor.after, [], rfl, .starNil, hn⟩

/-- What a run has read is a text of the pattern. -/
theorem behind_of_mem {r : Pattern} (hlocal : r.isLocal = true) :
    ∀ m, ∀ n ∈ r.run m, Behind r m n := by
  induction r with
  | empty =>
    intro m n hn
    rw [run, List.mem_singleton] at hn
    exact ⟨[], m.cursor.after, [], rfl, .empty, hn⟩
  | char p =>
    intro m n hn
    rw [run] at hn
    split at hn
    · exact absurd hn List.not_mem_nil
    · rename_i a rest hafter
      split at hn
      · rename_i ha
        rw [List.mem_singleton] at hn
        exact ⟨[a], rest, [], hafter, .char ha, hn⟩
      · exact absurd hn List.not_mem_nil
  | seq r s ihr ihs =>
    intro m n hn
    simp only [isLocal, Bool.and_eq_true] at hlocal
    rw [run, List.mem_flatMap] at hn
    obtain ⟨k, hk, hn⟩ := hn
    obtain ⟨v, rest, gs, hafter, htakes, rfl⟩ := ihr hlocal.1 m k hk
    obtain ⟨w, rest', hs, hafter', htakes', rfl⟩ := ihs hlocal.2 _ n hn
    refine ⟨v ++ w, rest', hs ++ gs, ?_, .seq htakes htakes', passed_passed ..⟩
    rw [hafter, List.append_assoc]
    exact congrArg (v ++ ·) hafter'
  | alt r s ihr ihs =>
    intro m n hn
    simp only [isLocal, Bool.and_eq_true] at hlocal
    rw [run, List.mem_append] at hn
    rcases hn with hn | hn
    · obtain ⟨w, rest, gs, hafter, htakes, hn⟩ := ihr hlocal.1 m n hn
      exact ⟨w, rest, gs, hafter, .altLeft htakes, hn⟩
    · obtain ⟨w, rest, gs, hafter, htakes, hn⟩ := ihs hlocal.2 m n hn
      exact ⟨w, rest, gs, hafter, .altRight htakes, hn⟩
  | star r ih =>
    intro m n hn
    exact behind_star_of_mem (ih hlocal) _ m n hn
  | group name r ih =>
    intro m n hn
    rw [run, List.mem_map] at hn
    obtain ⟨k, hk, rfl⟩ := hn
    obtain ⟨w, rest, gs, hafter, htakes, rfl⟩ := ih hlocal m k hk
    refine ⟨w, rest, _, hafter, .group name htakes, ?_⟩
    rw [between_passed m gs hafter]
    rfl
  | ahead r => cases hlocal
  | boundary word => cases hlocal
  | start => cases hlocal
  | finish => cases hlocal

/-- Every text of the pattern is read by a run. -/
theorem mem_of_takes {r : Pattern} {w : List Char} {gs : List (String × String)}
    (h : Takes r w gs) :
    ∀ m : Match, ∀ rest, m.cursor.after = w ++ rest → passed m w rest gs ∈ r.run m := by
  -- a repetition is read with any fuel that its text does not exhaust
  suffices hfuel : ∀ m : Match, ∀ rest, m.cursor.after = w ++ rest →
      passed m w rest gs ∈ r.run m ∧ ∀ s, r = .star s → ∀ fuel, w.length ≤ fuel →
        passed m w rest gs ∈ repeatGreedy s.run fuel m from
    fun m rest hm => (hfuel m rest hm).1
  induction h with
  | empty =>
    intro m rest hm
    refine ⟨?_, by simp⟩
    rw [List.nil_append] at hm
    rw [run, List.mem_singleton, passed_nil hm]
  | @char p a ha =>
    intro m rest hm
    refine ⟨?_, by simp⟩
    simp only [List.singleton_append] at hm
    rw [run, hm]
    simp [ha, passed, Cursor.step]
  | @seq r s v w gs hs _ _ ihr ihs =>
    intro m rest hm
    rw [List.append_assoc] at hm
    refine ⟨?_, by simp⟩
    rw [run, List.mem_flatMap]
    refine ⟨passed m v (w ++ rest) gs, (ihr m _ hm).1, ?_⟩
    rw [← passed_passed m v w rest (w ++ rest) gs hs]
    exact (ihs _ rest rfl).1
  | altLeft _ ih =>
    intro m rest hm
    exact ⟨List.mem_append_left _ (ih m rest hm).1, by simp⟩
  | altRight _ ih =>
    intro m rest hm
    exact ⟨List.mem_append_right _ (ih m rest hm).1, by simp⟩
  | @starNil r =>
    intro m rest hm
    have hmem : ∀ s : Pattern, ∀ fuel, m ∈ repeatGreedy s.run fuel m := by
      intro s fuel
      cases fuel <;> simp [repeatGreedy]
    rw [List.nil_append] at hm
    rw [passed_nil hm]
    exact ⟨hmem r _, fun s _ fuel _ => hmem s fuel⟩
  | @starCons r v w gs hs hv _ _ ihr ihs =>
    intro m rest hm
    rw [List.append_assoc] at hm
    have hpass : ∀ fuel, (v ++ w).length ≤ fuel →
        passed m (v ++ w) rest (hs ++ gs) ∈ repeatGreedy r.run fuel m := by
      intro fuel hfuel
      have hlength : 0 < v.length := List.length_pos_iff.mpr hv
      rw [List.length_append] at hfuel
      cases fuel with
      | zero => omega
      | succ fuel =>
        rw [repeatGreedy, List.mem_append, List.mem_flatMap]
        refine Or.inl ⟨passed m v (w ++ rest) gs, (ihr m _ hm).1, ?_⟩
        have hshorter :
            (passed m v (w ++ rest) gs).cursor.after.length < m.cursor.after.length := by
          simp only [passed, hm, List.length_append]
          omega
        rw [if_pos hshorter, ← passed_passed m v w rest (w ++ rest) gs hs]
        exact (ihs _ rest rfl).2 r rfl fuel (by omega)
    refine ⟨hpass _ ?_, ?_⟩
    · rw [hm]
      simp only [List.length_append]
      omega
    · intro s hs fuel hfuel
      obtain rfl := Pattern.star.inj hs
      exact hpass fuel hfuel
  | group name _ ih =>
    intro m rest hm
    refine ⟨?_, by simp⟩
    rw [run, List.mem_map]
    refine ⟨_, (ih m rest hm).1, ?_⟩
    rw [between_passed m _ hm]
    rfl

/-- The groups a pattern captures are its own. -/
theorem takes_names {r : Pattern} {w : List Char} {gs : List (String × String)}
    (h : Takes r w gs) : ∀ g ∈ gs, g.1 ∈ r.names := by
  induction h with
  | empty => simp
  | char h => simp
  | seq _ _ ihr ihs =>
    intro g hg
    rw [names, List.mem_append]
    rcases List.mem_append.mp hg with hg | hg
    · exact Or.inr (ihs g hg)
    · exact Or.inl (ihr g hg)
  | altLeft _ ih => exact fun g hg => List.mem_append_left _ (ih g hg)
  | altRight _ ih => exact fun g hg => List.mem_append_right _ (ih g hg)
  | starNil => simp
  | starCons _ _ _ ihr ihs =>
    intro g hg
    rcases List.mem_append.mp hg with hg | hg
    · exact ihs g hg
    · exact ihr g hg
  | group name _ ih =>
    intro g hg
    rw [names, List.mem_cons]
    rcases List.mem_cons.mp hg with rfl | hg
    · exact Or.inl rfl
    · exact Or.inr (ih g hg)

theorem takes_groups_nil {r : Pattern} {w : List Char} {gs : List (String × String)}
    (h : Takes r w gs) (hnames : r.names = []) : gs = [] := by
  rw [List.eq_nil_iff_forall_not_mem]
  intro g hg
  have hname := takes_names h g hg
  rw [hnames] at hname
  cases hname

/-- Every character that a pattern accepts has a property. -/
def Over (q : Char → Prop) : Pattern → Prop
  | .char p => ∀ a, p a = true → q a
  | .seq r s => r.Over q ∧ s.Over q
  | .alt r s => r.Over q ∧ s.Over q
  | .star r => r.Over q
  | .group _ r => r.Over q
  | _ => True

theorem takes_over {q : Char → Prop} {r : Pattern} {w : List Char} {gs : List (String × String)}
    (h : Takes r w gs) (hover : r.Over q) : ∀ a ∈ w, q a := by
  induction h with
  | empty => simp
  | char ha =>
    intro a hmem
    rw [List.mem_singleton.mp hmem]
    exact hover _ ha
  | seq _ _ ihr ihs =>
    intro a ha
    rcases List.mem_append.mp ha with ha | ha
    · exact ihr hover.1 a ha
    · exact ihs hover.2 a ha
  | altLeft _ ih => exact ih hover.1
  | altRight _ ih => exact ih hover.2
  | starNil => simp
  | starCons _ _ _ ihr ihs =>
    intro a ha
    rcases List.mem_append.mp ha with ha | ha
    · exact ihr hover a ha
    · exact ihs hover a ha
  | group name _ ih => exact ih hover

/-! The texts of each form of pattern. -/

section Forms

variable {r s : Pattern} {w : List Char} {gs : List (String × String)} {p : Char → Bool}

theorem takes_empty_iff : Takes .empty w gs ↔ w = [] ∧ gs = [] := by
  constructor
  · intro h
    cases h
    exact ⟨rfl, rfl⟩
  · rintro ⟨rfl, rfl⟩
    exact .empty

theorem takes_char_iff : Takes (.char p) w gs ↔ ∃ a, p a = true ∧ w = [a] ∧ gs = [] := by
  constructor
  · intro h
    cases h with
    | char ha => exact ⟨_, ha, rfl, rfl⟩
  · rintro ⟨a, ha, rfl, rfl⟩
    exact .char ha

theorem takes_seq_iff :
    Takes (.seq r s) w gs ↔ ∃ v v' hs hs', Takes r v hs ∧ Takes s v' hs' ∧ w = v ++ v' ∧
      gs = hs' ++ hs := by
  constructor
  · intro h
    cases h with
    | seq hr hs => exact ⟨_, _, _, _, hr, hs, rfl, rfl⟩
  · rintro ⟨v, v', hs, hs', hr, hs, rfl, rfl⟩
    exact .seq hr hs

theorem takes_alt_iff : Takes (.alt r s) w gs ↔ Takes r w gs ∨ Takes s w gs := by
  constructor
  · intro h
    cases h with
    | altLeft h => exact Or.inl h
    | altRight h => exact Or.inr h
  · rintro (h | h)
    · exact .altLeft h
    · exact .altRight h

theorem takes_group_iff {name : String} :
    Takes (.group name r) w gs ↔ ∃ hs, Takes r w hs ∧ gs = (name, String.ofList w) :: hs := by
  constructor
  · intro h
    cases h with
    | group _ h => exact ⟨_, h, rfl⟩
  · rintro ⟨hs, h, rfl⟩
    exact .group name h

theorem takes_star_char_iff :
    Takes (.star (.char p)) w gs ↔ (∀ a ∈ w, p a = true) ∧ gs = [] := by
  constructor
  · intro h
    generalize hr : Pattern.star (.char p) = r at h
    induction h with
    | starNil => simp
    | starCons hv hhead _ _ ih =>
      obtain rfl := Pattern.star.inj hr
      obtain ⟨a, ha, rfl, rfl⟩ := takes_char_iff.mp hhead
      obtain ⟨hall, rfl⟩ := ih rfl
      exact ⟨by simpa [ha] using hall, rfl⟩
    | _ => cases hr
  · rintro ⟨hall, rfl⟩
    induction w with
    | nil => exact .starNil
    | cons a w ih =>
      have hrest := ih (fun b hb => hall b (List.mem_cons_of_mem a hb))
      exact .starCons (v := [a]) (by simp) (.char (hall a List.mem_cons_self)) hrest

theorem takes_plus_char_iff :
    Takes (plus (.char p)) w gs ↔ w ≠ [] ∧ (∀ a ∈ w, p a = true) ∧ gs = [] := by
  rw [plus, takes_seq_iff]
  constructor
  · rintro ⟨v, v', hs, hs', hhead, hrest, rfl, rfl⟩
    obtain ⟨a, ha, rfl, rfl⟩ := takes_char_iff.mp hhead
    obtain ⟨hall, rfl⟩ := takes_star_char_iff.mp hrest
    exact ⟨by simp, by simpa [ha] using hall, rfl⟩
  · rintro ⟨hne, hall, rfl⟩
    obtain ⟨a, w, rfl⟩ := List.exists_cons_of_ne_nil hne
    exact ⟨[a], w, [], [], .char (hall a List.mem_cons_self),
      takes_star_char_iff.mpr ⟨fun b hb => hall b (List.mem_cons_of_mem a hb), rfl⟩, rfl, rfl⟩

/-- A literal is taken as it is. -/
theorem takes_word_iff {text : String} :
    Takes (word ofChar text) w gs ↔ w = text.toList ∧ gs = [] := by
  rw [word]
  generalize text.toList = l
  induction l generalizing w gs with
  | nil => exact takes_empty_iff
  | cons a l ih =>
    rw [List.foldr_cons, takes_seq_iff]
    constructor
    · rintro ⟨v, v', hs, hs', hhead, hrest, rfl, rfl⟩
      obtain ⟨b, hb, rfl, rfl⟩ := takes_char_iff.mp hhead
      obtain ⟨rfl, rfl⟩ := ih.mp hrest
      obtain rfl := eq_of_beq hb
      exact ⟨rfl, rfl⟩
    · rintro ⟨rfl, rfl⟩
      exact ⟨[a], l, [], [], .char (by simp), ih.mpr ⟨rfl, rfl⟩, rfl, rfl⟩

end Forms

/-! The order of the matches. -/

theorem run_seq (r s : Pattern) (m : Match) :
    (Pattern.seq r s).run m = (r.run m).flatMap s.run := by
  rw [run]

theorem run_char_of_nil (p : Char → Bool) {m : Match} (h : m.cursor.after = []) :
    (Pattern.char p).run m = [] := by
  rw [run, h]

theorem run_char_of_cons (p : Char → Bool) {m : Match} {a : Char} {rest : List Char}
    (h : m.cursor.after = a :: rest) :
    (Pattern.char p).run m = if p a = true then [passed m [a] rest []] else [] := by
  rw [run, h]
  rfl

/-- A repeated character is first taken as long as it is one. -/
theorem run_star_char (p : Char → Bool) (m : Match) :
    ∃ others, (Pattern.star (.char p)).run m =
      passed m (m.cursor.after.takeWhile p) (m.cursor.after.dropWhile p) [] :: others := by
  rw [run]
  suffices h : ∀ (fuel : ℕ) (m : Match), m.cursor.after.length ≤ fuel →
      ∃ others, repeatGreedy (Pattern.char p).run fuel m =
        passed m (m.cursor.after.takeWhile p) (m.cursor.after.dropWhile p) [] :: others from
    h _ m le_rfl
  intro fuel
  induction fuel with
  | zero =>
    intro m hm
    have hnil : m.cursor.after = [] := List.eq_nil_of_length_eq_zero (Nat.le_zero.mp hm)
    refine ⟨[], ?_⟩
    rw [repeatGreedy, hnil, List.takeWhile_nil, List.dropWhile_nil, passed_nil hnil]
  | succ fuel ih =>
    intro m hm
    cases hafter : m.cursor.after with
    | nil =>
      refine ⟨[], ?_⟩
      rw [repeatGreedy, run_char_of_nil p hafter, List.flatMap_nil, List.nil_append,
        List.takeWhile_nil, List.dropWhile_nil, passed_nil hafter]
    | cons a rest =>
      rw [repeatGreedy, run_char_of_cons p hafter]
      by_cases ha : p a = true
      · obtain ⟨others, hothers⟩ := ih (passed m [a] rest []) (by
          simp only [hafter, List.length_cons] at hm
          exact Nat.le_of_succ_le_succ hm)
        refine ⟨others ++ [m], ?_⟩
        have hshorter : (passed m [a] rest []).cursor.after.length < m.cursor.after.length := by
          rw [hafter]
          exact Nat.lt_succ_self _
        rw [if_pos ha, List.flatMap_cons, List.flatMap_nil, List.append_nil, if_pos hshorter,
          hothers, List.takeWhile_cons_of_pos ha, List.dropWhile_cons_of_pos ha, passed_passed]
        rfl
      · refine ⟨[], ?_⟩
        rw [if_neg ha, List.flatMap_nil, List.nil_append, List.takeWhile_cons_of_neg ha,
          List.dropWhile_cons_of_neg ha, passed_nil hafter]

/-- The first match of two patterns in a row goes on from some match of the first. -/
theorem exists_head_of_flatMap {α β : Type*} {l : List α} {f : α → List β} {b : β}
    (h : (l.flatMap f).head? = some b) : ∃ a ∈ l, (f a).head? = some b := by
  induction l with
  | nil => cases h
  | cons a l ih =>
    rw [List.flatMap_cons, List.head?_append] at h
    cases hf : (f a).head? with
    | none =>
      rw [hf, Option.none_or] at h
      obtain ⟨a', ha', hb⟩ := ih h
      exact ⟨a', List.mem_cons_of_mem a ha', hb⟩
    | some c =>
      rw [hf, Option.some_or] at h
      exact ⟨a, List.mem_cons_self, hf.trans h⟩

end Raglogs.Regex.Pattern
