import Raglogs.Encodings
import Raglogs.RegexLanguage
import Raglogs.Reassembly

/-!
What the pattern of a container runtime's line says of the line, and the lines it
matches. The message starts behind all the white space that follows the tag, so a line
that is written from the fields of another one has exactly these fields.
-/

namespace Raglogs.CriRecords

open Encodings Regex Regex.Pattern Text Normalization Parsing Reassembly

/-- The instant at the start of the line. -/
def criTs : Pattern :=
  concat [calendarDate, ofChar 'T', clock, fraction,
    .alt (ofChar 'Z') (concat [oneOf ['+', '-'], exactly 2 digit, ofChar ':', exactly 2 digit])]

/-- The head of a line without the white space before the message. -/
def criStem : Pattern :=
  concat [.group "ts" criTs, spaces, .group "stream" (.alt (exact "stdout") (exact "stderr")),
    spaces, .group "tag" (oneOf ['F', 'P'])]

def criTail : Pattern := .seq (.group "msg" (.star (.char (fun c => c != '\n')))) .finish

/-- The matches of a line: its stem, white space, and the message to the end. -/
theorem run_criPattern (line : String) :
    criPattern.run ⟨Cursor.ofString line, []⟩ =
      (criStem.run ⟨Cursor.ofString line, []⟩).flatMap
        (fun k => (spaces.run k).flatMap criTail.run) := by
  have hstart : Pattern.start.run ⟨Cursor.ofString line, []⟩ = [⟨Cursor.ofString line, []⟩] := rfl
  simp only [criPattern, criHead, criStem, criTail, criTs, concat, run_seq, List.flatMap_assoc,
    hstart, List.flatMap_cons, List.flatMap_nil, List.append_nil]

/-! The stem. -/

def Blank (w : List Char) : Prop := w ≠ [] ∧ ∀ a ∈ w, isSpace a = true

theorem takes_spaces_iff {w : List Char} {gs : List (String × String)} :
    Takes spaces w gs ↔ Blank w ∧ gs = [] := by
  rw [spaces, space, takes_plus_char_iff, Blank, and_assoc]

/-- The words of a stem. -/
structure Stem where
  ts : List Char
  stream : List Char
  tag : Char

def Stem.Valid (s : Stem) : Prop :=
  Takes criTs s.ts [] ∧ (s.stream = "stdout".toList ∨ s.stream = "stderr".toList) ∧
    (s.tag = 'F' ∨ s.tag = 'P')

def Stem.groups (s : Stem) : List (String × String) :=
  [("tag", String.ofList [s.tag]), ("stream", String.ofList s.stream), ("ts", String.ofList s.ts)]

theorem takes_criStem_iff {w : List Char} {gs : List (String × String)} :
    Takes criStem w gs ↔ ∃ s : Stem, ∃ sp₁ sp₂, s.Valid ∧ Blank sp₁ ∧ Blank sp₂ ∧
      w = s.ts ++ (sp₁ ++ (s.stream ++ (sp₂ ++ [s.tag]))) ∧ gs = s.groups := by
  have hnames : criTs.names = [] := rfl
  simp only [criStem, concat, takes_seq_iff, takes_group_iff, takes_spaces_iff, takes_alt_iff,
    exact, takes_word_iff, oneOf, takes_char_iff]
  constructor
  · rintro ⟨ts, _, _, _, ⟨gts, hts, rfl⟩, ⟨sp₁, _, _, _, ⟨hsp₁, rfl⟩, ⟨stream, _, _, _,
      ⟨gstream, hstream, rfl⟩, ⟨sp₂, _, _, _, ⟨hsp₂, rfl⟩, ⟨_, ⟨tag, htag, rfl, rfl⟩, rfl⟩,
      rfl, rfl⟩, rfl, rfl⟩, rfl, rfl⟩, rfl, rfl⟩
    obtain rfl := takes_groups_nil hts hnames
    have hword : (stream = "stdout".toList ∨ stream = "stderr".toList) ∧ gstream = [] := by
      rcases hstream with ⟨rfl, rfl⟩ | ⟨rfl, rfl⟩
      · exact ⟨Or.inl rfl, rfl⟩
      · exact ⟨Or.inr rfl, rfl⟩
    obtain ⟨hword, rfl⟩ := hword
    have htag' : tag = 'F' ∨ tag = 'P' := by simpa using htag
    exact ⟨⟨ts, stream, tag⟩, sp₁, sp₂, ⟨hts, hword, htag'⟩, hsp₁, hsp₂, rfl, rfl⟩
  · rintro ⟨s, sp₁, sp₂, ⟨hts, hstream, htag⟩, hsp₁, hsp₂, rfl, rfl⟩
    refine ⟨s.ts, _, _, _, ⟨[], hts, rfl⟩, ⟨sp₁, _, [], _, ⟨hsp₁, rfl⟩, ⟨s.stream, _, _, _,
      ⟨[], ?_, rfl⟩, ⟨sp₂, _, [], _, ⟨hsp₂, rfl⟩, ⟨[], ⟨s.tag, ?_, rfl, rfl⟩, rfl⟩, rfl, rfl⟩,
      rfl, rfl⟩, rfl, rfl⟩, rfl, rfl⟩
    · rcases hstream with h | h
      · exact Or.inl ⟨h, rfl⟩
      · exact Or.inr ⟨h, rfl⟩
    · rcases htag with h | h <;> simp [h]

/-! The message. -/

/-- No line break, except one at the end. -/
def OneLine (w : List Char) : Prop :=
  ∃ msg rest, w = msg ++ rest ∧ '\n' ∉ msg ∧ (rest = [] ∨ rest = ['\n'])

theorem OneLine.suffix {w v : List Char} (h : OneLine w) (hv : v <:+ w) : OneLine v := by
  obtain ⟨msg, rest, rfl, hmsg, hrest⟩ := h
  obtain ⟨u, hu⟩ := hv
  rcases List.append_eq_append_iff.mp hu with ⟨t, rfl, rfl⟩ | ⟨t, rfl, ht⟩
  · exact ⟨t, rest, rfl, fun hmem => hmsg (List.mem_append_right _ hmem), hrest⟩
  · -- nothing of the message is left
    have hsub : v <:+ rest := ⟨t, ht.symm⟩
    refine ⟨[], v, rfl, List.not_mem_nil, ?_⟩
    rcases hrest with rfl | rfl
    · exact Or.inl (List.suffix_nil.mp hsub)
    · rcases List.suffix_cons_iff.mp hsub with h | h
      · exact Or.inr h
      · exact Or.inl (List.suffix_nil.mp h)

theorem mem_criTail_iff {m n : Match} :
    n ∈ criTail.run m ↔ ∃ msg rest, m.cursor.after = msg ++ rest ∧ '\n' ∉ msg ∧
      (rest = [] ∨ rest = ['\n']) ∧ n = passed m msg rest [("msg", String.ofList msg)] := by
  rw [criTail, run_seq, List.mem_flatMap]
  have hlocal : (Pattern.group "msg" (.star (.char (fun c => c != '\n')))).isLocal = true := rfl
  constructor
  · rintro ⟨k, hk, hn⟩
    obtain ⟨msg, rest, gs, hafter, htakes, rfl⟩ := behind_of_mem hlocal m k hk
    obtain ⟨hs, hstar, rfl⟩ := takes_group_iff.mp htakes
    obtain ⟨hmsg, rfl⟩ := takes_star_char_iff.mp hstar
    rw [run] at hn
    split at hn
    · rename_i hfinish
      rw [List.mem_singleton] at hn
      refine ⟨msg, rest, hafter, ?_, ?_, hn⟩
      · intro hmem
        simpa using hmsg _ hmem
      · simpa [Cursor.atFinish, passed] using hfinish
    · cases hn
  · rintro ⟨msg, rest, hafter, hmsg, hrest, rfl⟩
    refine ⟨_, mem_of_takes (.group "msg" (takes_star_char_iff.mpr ⟨?_, rfl⟩)) m rest hafter, ?_⟩
    · intro a ha
      simp only [bne_iff_ne, ne_eq]
      rintro rfl
      exact hmsg ha
    · rw [run, if_pos (by simpa [Cursor.atFinish, passed] using hrest), List.mem_singleton]

/-- A text that does not start with white space. -/
def Unspaced (w : List Char) : Prop := ∀ a ∈ w.head?, isSpace a = false

theorem unspaced_dropWhile (w : List Char) : Unspaced (w.dropWhile isSpace) := by
  intro a ha
  have hnot := List.head?_dropWhile_not isSpace w
  rw [Option.mem_def.mp ha] at hnot
  simpa using hnot

/-- The first way to go on behind a stem starts the message at its first character. -/
theorem unspaced_of_head {k m : Match}
    (h : ((spaces.run k).flatMap criTail.run).head? = some m) :
    ∃ sp msg rest, k.cursor.after = sp ++ (msg ++ rest) ∧ Blank sp ∧ '\n' ∉ msg ∧
      (rest = [] ∨ rest = ['\n']) ∧ Unspaced (msg ++ rest) ∧
      m.groups = ("msg", String.ofList msg) :: k.groups := by
  cases hafter : k.cursor.after with
  | nil =>
    rw [spaces, plus, run_seq, space, run_char_of_nil _ hafter] at h
    cases h
  | cons a text =>
    rw [spaces, plus, run_seq, space, run_char_of_cons _ hafter] at h
    split at h
    · rename_i ha
      rw [List.flatMap_singleton] at h
      obtain ⟨others, hothers⟩ := run_star_char isSpace (passed k [a] text [])
      rw [passed_passed, List.nil_append] at hothers
      have hstar : (Pattern.star (.char isSpace)).isLocal = true := rfl
      -- the longest white space goes on whenever a shorter one does
      obtain ⟨n, hn, hm⟩ := exists_head_of_flatMap h
      obtain ⟨v, rest', gs, htext, htakes, rfl⟩ := behind_of_mem hstar _ n hn
      obtain ⟨hv, rfl⟩ := takes_star_char_iff.mp htakes
      obtain ⟨msg₀, rest₀, hrest', hmsg₀, hrest₀, -⟩ :=
        mem_criTail_iff.mp (List.mem_of_mem_head? hm)
      have hdrop : text.dropWhile isSpace <:+ rest' := by
        have htext' : text = v ++ rest' := htext
        rw [htext', List.dropWhile_append_of_pos hv]
        exact List.dropWhile_suffix _
      obtain ⟨msg, rest, hlong, hmsg, hrest⟩ :=
        OneLine.suffix ⟨msg₀, rest₀, hrest', hmsg₀, hrest₀⟩ hdrop
      set longest := passed k (a :: text.takeWhile isSpace) (text.dropWhile isSpace) [] with hl
      have hmem : passed longest msg rest [("msg", String.ofList msg)] ∈ criTail.run longest :=
        mem_criTail_iff.mpr ⟨msg, rest, hlong, hmsg, hrest, rfl⟩
      have hothers' : (Pattern.star (.char isSpace)).run (passed k [a] text []) =
          longest :: others := hothers
      rw [hothers', List.flatMap_cons, List.head?_append] at h
      have hhead : (criTail.run longest).head? = some m := by
        cases hrun : (criTail.run longest).head? with
        | none =>
          rw [List.head?_eq_none_iff] at hrun
          rw [hrun] at hmem
          cases hmem
        | some m' => rwa [hrun, Option.some_or] at h
      obtain ⟨msg', rest', hafter', hmsg', hrest', rfl⟩ :=
        mem_criTail_iff.mp (List.mem_of_mem_head? hhead)
      refine ⟨a :: text.takeWhile isSpace, msg', rest', ?_, ⟨by simp, ?_⟩, hmsg', hrest', ?_, rfl⟩
      · rw [← hafter', List.cons_append]
        simp [hl, passed]
      · intro b hb
        rcases List.mem_cons.mp hb with rfl | hb
        · exact ha
        · exact List.mem_takeWhile_imp hb
      · rw [← hafter']
        exact unspaced_dropWhile text
    · cases h

/-- A line of a container runtime, taken apart. -/
structure Parted (line : String) (s : Stem) (msg : List Char) : Prop where
  valid : s.Valid
  no_break : '\n' ∉ msg
  unspaced : Unspaced msg
  exists_text : ∃ sp₁ sp₂ sp₃ rest, Blank sp₁ ∧ Blank sp₂ ∧ Blank sp₃ ∧
    (rest = [] ∨ rest = ['\n']) ∧ Unspaced (msg ++ rest) ∧
    line.toList = s.ts ++ (sp₁ ++ (s.stream ++ (sp₂ ++ s.tag :: (sp₃ ++ (msg ++ rest)))))

theorem criPattern_spec {line : String} {m : Match} (h : criPattern.matchStart line = some m) :
    ∃ s msg, Parted line s msg ∧ m.groups = ("msg", String.ofList msg) :: s.groups := by
  rw [matchStart, matchAt, run_criPattern] at h
  obtain ⟨k, hk, hm⟩ := exists_head_of_flatMap h
  have hlocal : criStem.isLocal = true := rfl
  obtain ⟨w, rest₀, gs, hline, htakes, rfl⟩ := behind_of_mem hlocal _ k hk
  obtain ⟨s, sp₁, sp₂, hvalid, hsp₁, hsp₂, rfl, rfl⟩ := takes_criStem_iff.mp htakes
  obtain ⟨sp₃, msg, rest, hrest₀, hsp₃, hmsg, hrest, hunspaced, hgroups⟩ := unspaced_of_head hm
  have hrest₀' : rest₀ = sp₃ ++ (msg ++ rest) := hrest₀
  refine ⟨s, msg, ⟨hvalid, hmsg, ?_, sp₁, sp₂, sp₃, rest, hsp₁, hsp₂, hsp₃, hrest, hunspaced, ?_⟩,
    ?_⟩
  · intro a ha
    cases msg with
    | nil => cases ha
    | cons b msg => exact hunspaced a ha
  · simp only [Cursor.ofString] at hline
    rw [hline, hrest₀']
    simp
  · rw [hgroups]
    simp [passed]

/-! A line is taken apart in one way. -/

/-- The white space among the code points. -/
def spaceCode (n : ℕ) : Bool :=
  (9 ≤ n && n ≤ 13) || (28 ≤ n && n ≤ 32) || n == 0x85 || n == 0xa0 || n == 0x1680 ||
    (0x2000 ≤ n && n ≤ 0x200a) || n == 0x2028 || n == 0x2029 || n == 0x202f ||
    n == 0x205f || n == 0x3000

theorem notSpace_of_isDigit {c : Char} (h : isDigit c = true) : isSpace c = false := by
  have hrows : ∀ base ∈ decimalZeros, ∀ i < 10, spaceCode (base + i) = false := by decide
  rw [isDigit, digitValue, Option.isSome_map, List.find?_isSome] at h
  obtain ⟨base, hbase, hc⟩ := h
  simp only [Bool.and_eq_true, decide_eq_true_eq] at hc
  have hrow := hrows base hbase (c.toNat - base) (by omega)
  rwa [Nat.add_sub_cancel' hc.1] at hrow

theorem criTs_over : criTs.Over (fun c => isSpace c = false) := by
  have hdigit : (∀ a, isDigit a = true → isSpace a = false) ↔ True :=
    iff_true_intro fun a => notSpace_of_isDigit
  have hsigns : ∀ a, ['+', '-'].contains a = true → isSpace a = false := by
    intro a ha
    have hmem : a = '+' ∨ a = '-' := by simpa using ha
    rcases hmem with rfl | rfl <;> rfl
  simp only [criTs, calendarDate, clock, fraction, concat, exactly, opt, plus, digit, ofChar, oneOf,
    Over, and_true, true_and, beq_iff_eq, forall_eq, hdigit]
  exact ⟨⟨rfl, rfl⟩, rfl, ⟨rfl, rfl⟩, rfl, rfl, hsigns, rfl⟩

theorem unspaced_append {w v : List Char} (hne : w ≠ []) (hw : ∀ a ∈ w, isSpace a = false) :
    Unspaced (w ++ v) := by
  obtain ⟨a, w, rfl⟩ := List.exists_cons_of_ne_nil hne
  intro b hb
  obtain rfl := Option.some.inj hb
  exact hw a List.mem_cons_self

/-- A word and the white space behind it. -/
theorem word_unique {w sp v w' sp' v' : List Char} (h : w ++ (sp ++ v) = w' ++ (sp' ++ v'))
    (hw : ∀ a ∈ w, isSpace a = false) (hw' : ∀ a ∈ w', isSpace a = false) (hsp : Blank sp)
    (hsp' : Blank sp') : w = w' ∧ sp ++ v = sp' ++ v' := by
  have hblank : ∀ {sp v : List Char}, Blank sp → ∀ a ∈ (sp ++ v).head?, (!isSpace a) = false := by
    intro sp v ⟨hne, hall⟩ a ha
    obtain ⟨b, sp, rfl⟩ := List.exists_cons_of_ne_nil hne
    obtain rfl := Option.some.inj ha
    simp [hall b List.mem_cons_self]
  exact span_unique (p := fun c => !isSpace c) h (fun a ha => by simp [hw a ha])
    (fun a ha => by simp [hw' a ha]) (hblank hsp) (hblank hsp')

theorem blank_unique {sp v sp' v' : List Char} (h : sp ++ v = sp' ++ v') (hsp : Blank sp)
    (hsp' : Blank sp') (hv : Unspaced v) (hv' : Unspaced v') : sp = sp' ∧ v = v' :=
  span_unique h hsp.2 hsp'.2 hv hv'

theorem Stem.Valid.stream_word {s : Stem} (h : s.Valid) :
    s.stream ≠ [] ∧ ∀ a ∈ s.stream, isSpace a = false := by
  rcases h.2.1 with h | h <;> rw [h] <;> exact ⟨by decide, forall_mem_of_all (by decide)⟩

theorem Stem.Valid.tag_word {s : Stem} (h : s.Valid) : isSpace s.tag = false := by
  rcases h.2.2 with h | h <;> rw [h] <;> rfl

/-- Neither the words of a line nor its white space can be read otherwise. -/
theorem parted_unique {line : String} {s s' : Stem} {msg msg' : List Char}
    (h : Parted line s msg) (h' : Parted line s' msg') : s = s' ∧ msg = msg' := by
  obtain ⟨hvalid, hmsg, -, sp₁, sp₂, sp₃, rest, hsp₁, hsp₂, hsp₃, hrest, hopen, htext⟩ := h
  obtain ⟨hvalid', hmsg', -, sp₁', sp₂', sp₃', rest', hsp₁', hsp₂', hsp₃', hrest', hopen',
    htext'⟩ := h'
  rw [htext] at htext'
  obtain ⟨hts, htext'⟩ := word_unique htext' (takes_over hvalid.1 criTs_over)
    (takes_over hvalid'.1 criTs_over) hsp₁ hsp₁'
  obtain ⟨-, htext'⟩ := blank_unique htext' hsp₁ hsp₁'
    (unspaced_append hvalid.stream_word.1 hvalid.stream_word.2)
    (unspaced_append hvalid'.stream_word.1 hvalid'.stream_word.2)
  obtain ⟨hstream, htext'⟩ := word_unique htext' hvalid.stream_word.2 hvalid'.stream_word.2
    hsp₂ hsp₂'
  have htag : ∀ {s : Stem} {v : List Char}, s.Valid → Unspaced (s.tag :: v) := by
    intro s v hs a ha
    obtain rfl := Option.some.inj ha
    exact hs.tag_word
  obtain ⟨-, htext'⟩ := blank_unique htext' hsp₂ hsp₂' (htag hvalid) (htag hvalid')
  obtain ⟨htags, htext'⟩ := List.cons.inj htext'
  obtain ⟨-, htext'⟩ := blank_unique htext' hsp₃ hsp₃' hopen hopen'
  -- the message ends where the line does, or at its last line break
  have hend : ∀ {rest : List Char}, (rest = [] ∨ rest = ['\n']) →
      ∀ a ∈ rest.head?, (a != '\n') = false := by
    rintro rest (rfl | rfl) a ha
    · cases ha
    · obtain rfl := Option.some.inj ha
      rfl
  have hmid : ∀ {msg : List Char}, '\n' ∉ msg → ∀ a ∈ msg, (a != '\n') = true := by
    intro msg hmsg a ha
    rw [bne_iff_ne]
    rintro rfl
    exact hmsg ha
  obtain ⟨hmsgs, -⟩ := span_unique htext' (hmid hmsg) (hmid hmsg') (hend hrest) (hend hrest')
  refine ⟨?_, hmsgs⟩
  cases s
  cases s'
  simp_all

/-! Lines written from fields. -/

/-- The fields of a stem and a message. -/
def Stem.fields (s : Stem) (msg : List Char) : CriFields where
  ts := String.ofList s.ts
  stream := String.ofList s.stream
  tag := String.ofList [s.tag]
  msg := String.ofList msg

theorem criFields_spec {line : String} {cri : CriFields} (h : criFields line = some cri) :
    ∃ s msg, Parted line s msg ∧ cri = s.fields msg := by
  obtain ⟨m, hm, rfl⟩ := Option.map_eq_some_iff.mp h
  obtain ⟨s, msg, hparted, hgroups⟩ := criPattern_spec hm
  refine ⟨s, msg, hparted, ?_⟩
  simp [fieldsOf, Match.named, hgroups, Stem.groups, Stem.fields, List.lookup_cons]

/-- A line that can be taken apart matches, with the fields it is taken apart into. -/
theorem criFields_of_parted {line : String} {s : Stem} {msg : List Char}
    (h : Parted line s msg) : criFields line = some (s.fields msg) := by
  obtain ⟨hvalid, hmsg, -, sp₁, sp₂, sp₃, rest, hsp₁, hsp₂, hsp₃, hrest, -, htext⟩ := id h
  have hmatch : criPattern.matchStart line ≠ none := by
    set front := s.ts ++ (sp₁ ++ (s.stream ++ (sp₂ ++ [s.tag])))
    set m₀ : Match := ⟨Cursor.ofString line, []⟩
    have hstem : passed m₀ front (sp₃ ++ (msg ++ rest)) s.groups ∈ criStem.run m₀ :=
      mem_of_takes (takes_criStem_iff.mpr ⟨s, sp₁, sp₂, hvalid, hsp₁, hsp₂, rfl, rfl⟩) m₀ _
        (by simp [m₀, Cursor.ofString, htext])
    have hspaces := mem_of_takes (takes_spaces_iff.mpr ⟨hsp₃, rfl⟩)
      (passed m₀ front (sp₃ ++ (msg ++ rest)) s.groups) (msg ++ rest) rfl
    have htail := (mem_criTail_iff (m := passed (passed m₀ front (sp₃ ++ (msg ++ rest)) s.groups)
      sp₃ (msg ++ rest) [])).mpr ⟨msg, rest, rfl, hmsg, hrest, rfl⟩
    rw [matchStart, matchAt, ne_eq, List.head?_eq_none_iff, run_criPattern]
    exact List.ne_nil_of_mem (List.mem_flatMap.mpr
      ⟨_, hstem, List.mem_flatMap.mpr ⟨_, hspaces, htail⟩⟩)
  obtain ⟨m, hm⟩ := Option.ne_none_iff_exists'.mp hmatch
  have hsome : criFields line = some (fieldsOf m) := by rw [criFields, hm, Option.map_some]
  obtain ⟨s', msg', hparted, hcri⟩ := criFields_spec hsome
  obtain ⟨rfl, rfl⟩ := parted_unique h hparted
  rw [hsome, hcri]

end Raglogs.CriRecords
