import Mathlib.Data.List.Basic

/-!
Backtracking regular expressions over characters. A run returns every way the
expression can match from a place, in the order a backtracking matcher tries
them; the first one is the match it reports. Repetition is greedy and does not
repeat an empty pass.
-/

namespace Raglogs.Regex

/-- A place in a text: what was read, last character first, and what is left. -/
structure Cursor where
  before : List Char
  after : List Char
deriving DecidableEq

/-- A place together with the named groups captured so far, last one first. -/
structure Match where
  cursor : Cursor
  groups : List (String × String)
deriving DecidableEq

inductive Pattern
  | empty
  | char (p : Char → Bool)
  | seq (r s : Pattern)
  | alt (r s : Pattern)
  | star (r : Pattern)
  | group (name : String) (r : Pattern)
  | ahead (r : Pattern)
  | boundary (word : Char → Bool)
  | start
  | finish

/-- The text of a named group, if the match went through it. -/
def Match.named (m : Match) (name : String) : Option String := m.groups.lookup name

namespace Cursor

def ofString (s : String) : Cursor := ⟨[], s.toList⟩

/-- Step over one character. -/
def step (c : Cursor) (a : Char) (rest : List Char) : Cursor := ⟨a :: c.before, rest⟩

/-- A place between a word character and something else. -/
def atBoundary (word : Char → Bool) (c : Cursor) : Bool :=
  let left := match c.before with
    | [] => false
    | a :: _ => word a
  let right := match c.after with
    | [] => false
    | a :: _ => word a
  left != right

/-- The end of the text, or the place before a final line break. -/
def atFinish (c : Cursor) : Bool := c.after == [] || c.after == ['\n']

/-- The text between two places of one text. -/
def between (c d : Cursor) : String :=
  String.ofList (c.after.take (c.after.length - d.after.length))

end Cursor

namespace Pattern

/-- Repeat as often as possible, then give the passes back one by one. -/
def repeatGreedy (body : Match → List Match) : ℕ → Match → List Match
  | 0, m => [m]
  | fuel + 1, m =>
      (body m).flatMap (fun n =>
        if n.cursor.after.length < m.cursor.after.length then repeatGreedy body fuel n else []) ++
        [m]

/-- Every match from a place, in backtracking order. -/
def run : Pattern → Match → List Match
  | .empty, m => [m]
  | .char p, m =>
      match m.cursor.after with
      | [] => []
      | a :: rest => if p a then [⟨m.cursor.step a rest, m.groups⟩] else []
  | .seq r s, m => (r.run m).flatMap s.run
  | .alt r s, m => r.run m ++ s.run m
  | .star r, m => repeatGreedy r.run m.cursor.after.length m
  | .group name r, m =>
      (r.run m).map (fun n => ⟨n.cursor, (name, m.cursor.between n.cursor) :: n.groups⟩)
  | .ahead r, m => if (r.run m).isEmpty then [] else [m]
  | .boundary word, m => if m.cursor.atBoundary word then [m] else []
  | .start, m => if m.cursor.before.isEmpty then [m] else []
  | .finish, m => if m.cursor.atFinish then [m] else []

/-! Derived forms. -/

def ofChar (a : Char) : Pattern := .char (fun b => b == a)

def oneOf (cs : List Char) : Pattern := .char (fun b => cs.contains b)

def word (char : Char → Pattern) (s : String) : Pattern :=
  s.toList.foldr (fun a r => .seq (char a) r) .empty

def concat : List Pattern → Pattern
  | [] => .empty
  | [r] => r
  | r :: rs => .seq r (concat rs)

def opt (r : Pattern) : Pattern := .alt r .empty

def plus (r : Pattern) : Pattern := .seq r (.star r)

def anyOf : List Pattern → Pattern
  | [] => .char (fun _ => false)
  | [r] => r
  | r :: rs => .alt r (anyOf rs)

def exactly : ℕ → Pattern → Pattern
  | 0, _ => .empty
  | n + 1, r => .seq r (exactly n r)

/-- At most `n` passes, as many as possible. -/
def atMost : ℕ → Pattern → Pattern
  | 0, _ => .empty
  | n + 1, r => .alt (.seq r (atMost n r)) .empty

def atLeast (n : ℕ) (r : Pattern) : Pattern := .seq (exactly n r) (.star r)

def inRange (low high : ℕ) (r : Pattern) : Pattern := .seq (exactly low r) (atMost (high - low) r)

/-! Matching a text. -/

/-- The match that starts at a place. -/
def matchAt (r : Pattern) (c : Cursor) : Option Match := (r.run ⟨c, []⟩).head?

/-- The places of a text from a place on. -/
def places : List Char → List Char → List Cursor
  | before, [] => [⟨before, []⟩]
  | before, a :: rest => ⟨before, a :: rest⟩ :: places (a :: before) rest

/-- The leftmost match of a text, with the place where it starts. -/
def search (r : Pattern) (s : String) : Option (Cursor × Match) :=
  (places [] s.toList).findSome? (fun c => (r.matchAt c).map (fun m => (c, m)))

def isMatch (r : Pattern) (s : String) : Bool := (r.search s).isSome

/-- The match that starts at the start of a text. -/
def matchStart (r : Pattern) (s : String) : Option Match := r.matchAt (Cursor.ofString s)

/-- Whether a match takes the whole text. -/
def matchesWhole (r : Pattern) (s : String) : Bool :=
  (r.run ⟨Cursor.ofString s, []⟩).any (fun m => m.cursor.after.isEmpty)

/-- Replace the matches from a place on, after skipping the rest of the last one. -/
def replaceFrom (r : Pattern) (f : Match → String) : List Char → List Char → ℕ → List Char
  | _, [], _ => []
  | before, a :: rest, skip + 1 => replaceFrom r f (a :: before) rest skip
  | before, a :: rest, 0 =>
      match r.matchAt ⟨before, a :: rest⟩ with
      | none => a :: replaceFrom r f (a :: before) rest 0
      | some m =>
          if m.cursor.after.length ≤ rest.length then
            (f m).toList ++ replaceFrom r f (a :: before) rest
              (rest.length - m.cursor.after.length)
          else a :: replaceFrom r f (a :: before) rest 0

/-- Replace every match of a pattern that takes at least one character. -/
def replaceAll (r : Pattern) (f : Match → String) (s : String) : String :=
  String.ofList (replaceFrom r f [] s.toList 0)

/-! How much of a text a match takes. -/

/-- The least number of characters that a match takes. -/
def minWidth : Pattern → ℕ
  | .empty => 0
  | .char _ => 1
  | .seq r s => r.minWidth + s.minWidth
  | .alt r s => min r.minWidth s.minWidth
  | .star _ => 0
  | .group _ r => r.minWidth
  | .ahead _ => 0
  | .boundary _ => 0
  | .start => 0
  | .finish => 0

/-- The names of the groups of a pattern. -/
def names : Pattern → List String
  | .seq r s => r.names ++ s.names
  | .alt r s => r.names ++ s.names
  | .star r => r.names
  | .group name r => name :: r.names
  | _ => []

theorem mem_repeatGreedy {body : Match → List Match} {P : Match → Match → Prop}
    (hrefl : ∀ m, P m m) (htrans : ∀ m n k, P m n → P n k → P m k)
    (hbody : ∀ m, ∀ n ∈ body m, P m n) (fuel : ℕ) :
    ∀ m, ∀ n ∈ repeatGreedy body fuel m, P m n := by
  induction fuel with
  | zero =>
    intro m n hn
    rw [repeatGreedy, List.mem_singleton] at hn
    exact hn ▸ hrefl m
  | succ fuel ih =>
    intro m n hn
    rw [repeatGreedy, List.mem_append, List.mem_flatMap, List.mem_singleton] at hn
    rcases hn with ⟨k, hk, hn⟩ | hn
    · split at hn
      · exact htrans m k n (hbody m k hk) (ih k n hn)
      · exact absurd hn List.not_mem_nil
    · exact hn ▸ hrefl m

/-- A match takes at least the width of its pattern. -/
theorem run_width (r : Pattern) :
    ∀ m, ∀ n ∈ r.run m, n.cursor.after.length + r.minWidth ≤ m.cursor.after.length := by
  induction r with
  | empty =>
    intro m n hn
    rw [run, List.mem_singleton] at hn
    exact hn ▸ Nat.le_refl _
  | char p =>
    intro m n hn
    rw [run] at hn
    split at hn
    · exact absurd hn List.not_mem_nil
    · rename_i a rest hafter
      split at hn
      · rw [List.mem_singleton] at hn
        subst hn
        simp [hafter, Cursor.step, minWidth]
      · exact absurd hn List.not_mem_nil
  | seq r s ihr ihs =>
    intro m n hn
    rw [run, List.mem_flatMap] at hn
    obtain ⟨k, hk, hn⟩ := hn
    have hr := ihr m k hk
    have hs := ihs k n hn
    rw [minWidth]
    omega
  | alt r s ihr ihs =>
    intro m n hn
    rw [run, List.mem_append] at hn
    rw [minWidth]
    rcases hn with hn | hn
    · have hr := ihr m n hn
      omega
    · have hs := ihs m n hn
      omega
  | star r ih =>
    intro m n hn
    rw [run] at hn
    refine mem_repeatGreedy (P := fun m n => n.cursor.after.length ≤ m.cursor.after.length)
      (fun m => Nat.le_refl _) (fun m n k hmn hnk => Nat.le_trans hnk hmn) ?_ _ m n hn
    intro m n hn
    have hr := ih m n hn
    omega
  | group name r ih =>
    intro m n hn
    rw [run, List.mem_map] at hn
    obtain ⟨k, hk, rfl⟩ := hn
    exact ih m k hk
  | ahead r =>
    intro m n hn
    rw [run] at hn
    split at hn
    · exact absurd hn List.not_mem_nil
    · rw [List.mem_singleton] at hn
      exact hn ▸ Nat.le_refl _
  | boundary word =>
    intro m n hn
    rw [run] at hn
    split at hn
    · rw [List.mem_singleton] at hn
      exact hn ▸ Nat.le_refl _
    · exact absurd hn List.not_mem_nil
  | start =>
    intro m n hn
    rw [run] at hn
    split at hn
    · rw [List.mem_singleton] at hn
      exact hn ▸ Nat.le_refl _
    · exact absurd hn List.not_mem_nil
  | finish =>
    intro m n hn
    rw [run] at hn
    split at hn
    · rw [List.mem_singleton] at hn
      exact hn ▸ Nat.le_refl _
    · exact absurd hn List.not_mem_nil

theorem length_between (c d : Cursor) : (c.between d).length ≤ c.after.length := by
  unfold Cursor.between
  rw [String.length_ofList, List.length_take]
  omega

/-- A group that a match adds is one of its pattern's, over text from the place on. -/
theorem run_groups (r : Pattern) :
    ∀ m, ∀ n ∈ r.run m, ∀ g ∈ n.groups,
      g ∈ m.groups ∨ (g.1 ∈ r.names ∧ g.2.length ≤ m.cursor.after.length) := by
  induction r with
  | empty =>
    intro m n hn g hg
    rw [run, List.mem_singleton] at hn
    exact .inl (hn ▸ hg)
  | char p =>
    intro m n hn g hg
    rw [run] at hn
    split at hn
    · exact absurd hn List.not_mem_nil
    · split at hn
      · rw [List.mem_singleton] at hn
        subst hn
        exact .inl hg
      · exact absurd hn List.not_mem_nil
  | seq r s ihr ihs =>
    intro m n hn g hg
    rw [run, List.mem_flatMap] at hn
    obtain ⟨k, hk, hn⟩ := hn
    rw [names, List.mem_append]
    rcases ihs k n hn g hg with hg | ⟨hname, hlength⟩
    · rcases ihr m k hk g hg with hg | ⟨hname, hlength⟩
      · exact .inl hg
      · exact .inr ⟨.inl hname, hlength⟩
    · have hwidth := run_width r m k hk
      exact .inr ⟨.inr hname, by omega⟩
  | alt r s ihr ihs =>
    intro m n hn g hg
    rw [run, List.mem_append] at hn
    rw [names, List.mem_append]
    rcases hn with hn | hn
    · exact (ihr m n hn g hg).imp_right (fun h => ⟨.inl h.1, h.2⟩)
    · exact (ihs m n hn g hg).imp_right (fun h => ⟨.inr h.1, h.2⟩)
  | star r ih =>
    intro m n hn
    rw [run] at hn
    refine (mem_repeatGreedy (P := fun m n =>
      n.cursor.after.length ≤ m.cursor.after.length ∧ ∀ g ∈ n.groups,
        g ∈ m.groups ∨ (g.1 ∈ r.names ∧ g.2.length ≤ m.cursor.after.length))
      (fun m => ⟨Nat.le_refl _, fun g hg => .inl hg⟩) ?_ ?_ _ m n hn).2
    · rintro m n k ⟨hmn, hgroups⟩ ⟨hnk, hgroups'⟩
      refine ⟨Nat.le_trans hnk hmn, fun g hg => ?_⟩
      rcases hgroups' g hg with hg | ⟨hname, hlength⟩
      · exact hgroups g hg
      · exact .inr ⟨hname, Nat.le_trans hlength hmn⟩
    · intro m n hn
      have hwidth := run_width r m n hn
      exact ⟨by omega, ih m n hn⟩
  | group name r ih =>
    intro m n hn g hg
    rw [run, List.mem_map] at hn
    obtain ⟨k, hk, rfl⟩ := hn
    rw [names, List.mem_cons]
    rcases List.mem_cons.mp hg with rfl | hg
    · exact .inr ⟨.inl rfl, length_between _ _⟩
    · exact (ih m k hk g hg).imp_right (fun h => ⟨.inr h.1, h.2⟩)
  | ahead r =>
    intro m n hn g hg
    rw [run] at hn
    split at hn
    · exact absurd hn List.not_mem_nil
    · rw [List.mem_singleton] at hn
      exact .inl (hn ▸ hg)
  | boundary word =>
    intro m n hn g hg
    rw [run] at hn
    split at hn
    · rw [List.mem_singleton] at hn
      exact .inl (hn ▸ hg)
    · exact absurd hn List.not_mem_nil
  | start =>
    intro m n hn g hg
    rw [run] at hn
    split at hn
    · rw [List.mem_singleton] at hn
      exact .inl (hn ▸ hg)
    · exact absurd hn List.not_mem_nil
  | finish =>
    intro m n hn g hg
    rw [run] at hn
    split at hn
    · rw [List.mem_singleton] at hn
      exact .inl (hn ▸ hg)
    · exact absurd hn List.not_mem_nil

theorem matchStart_width {r : Pattern} {text : String} {m : Match}
    (hmatch : r.matchStart text = some m) : r.minWidth ≤ text.length := by
  have hwidth := run_width r _ m (List.mem_of_mem_head? hmatch)
  have hlength : text.toList.length = text.length := String.length_toList
  simp only [Cursor.ofString, hlength] at hwidth
  omega

/-- A group behind a part that takes a character is shorter than the text. -/
theorem length_named_lt {r s : Pattern} {text name group : String} {m : Match}
    (hmatch : (Pattern.seq r s).matchStart text = some m) (hgroup : m.named name = some group)
    (hname : name ∉ r.names) (hwidth : 0 < r.minWidth) : group.length < text.length := by
  obtain ⟨_, _, hsplit, -⟩ := List.lookup_eq_some_iff.mp hgroup
  have hg : (name, group) ∈ m.groups := by
    rw [hsplit]
    simp
  have hrun : m ∈ (Pattern.seq r s).run ⟨Cursor.ofString text, []⟩ :=
    List.mem_of_mem_head? hmatch
  rw [run, List.mem_flatMap] at hrun
  obtain ⟨k, hk, hm⟩ := hrun
  have hlength : text.toList.length = text.length := String.length_toList
  have hr := run_width r _ k hk
  rcases run_groups s k m hm _ hg with hg | ⟨-, hg⟩
  · rcases run_groups r _ k hk _ hg with hg | ⟨hmem, -⟩
    · exact absurd hg List.not_mem_nil
    · exact absurd hmem hname
  · simp only [Cursor.ofString, hlength] at hr hg
    omega

end Pattern

end Raglogs.Regex
