import Mathlib.Algebra.BigOperators.Group.List.Basic
import Raglogs.Collections
import Raglogs.Encodings
import Raglogs.Push
import Raglogs.Stripping

/-!
A push body carries its records. Blank lines do not count, so the lines of a body are
those of its records, one after another, and a record is one line exactly if it has no
character at which a str splits and JSON does not.
-/

namespace Raglogs.PushLaws

open Encodings LogEntries Stripping Text Push

/-! The lines of a text. -/

/-- The lines of a text that are not blank, with all breaks alike. -/
def textLines (w : List Char) : List (List Char) := (w.splitOnP isLineBreak).filter nonblank

theorem isSpace_of_isLineBreak {a : Char} (h : isLineBreak a = true) : isSpace a = true := by
  rw [isLineBreak, List.contains_iff_mem] at h
  have hall : ∀ b ∈ ['\n', '\x0b', '\x0c', '\r', '\x1c', '\x1d', '\x1e', '\u0085', '\u2028',
      '\u2029'], isSpace b = true := List.all_eq_true.mp (by decide)
  exact hall a h

theorem filter_linesFrom (line w : List Char) :
    (linesFrom line w).filter nonblank =
      (List.splitOnPPrepend isLineBreak w line.reverse).filter nonblank := by
  fun_induction linesFrom line w with
  | case1 line hline =>
    obtain rfl := List.isEmpty_iff.mp hline
    rfl
  | case2 line => simp
  | case3 line rest ih =>
    have hreturn : isLineBreak '\r' = true := by decide
    have hnewline : isLineBreak '\n' = true := by decide
    -- the line between the two characters is empty
    have hpair : ('\n' :: rest).splitOnP isLineBreak = [] :: rest.splitOnP isLineBreak :=
      List.splitOnP_append_cons [] rest hnewline
    rw [List.filter_cons, ih, List.splitOnPPrepend_cons_pos hreturn, List.filter_cons,
      List.reverse_reverse, hpair]
    rfl
  | case4 line a rest _ ha ih =>
    rw [List.filter_cons, ih, List.splitOnPPrepend_cons_pos ha, List.filter_cons,
      List.reverse_reverse]
    rfl
  | case5 line a rest _ ha ih =>
    rw [ih, List.splitOnPPrepend_cons_neg (by simpa using ha), List.reverse_append]
    rfl

theorem physicalLines_eq (body : String) :
    physicalLines body = (textLines body.toList).map String.ofList := by
  rw [physicalLines, splitlines, List.filter_map, textLines, ← List.splitOnPPrepend_nil_right,
    ← List.reverse_nil, ← filter_linesFrom]
  congr 2
  funext w
  simp only [Function.comp_apply]
  rw [Bool.eq_iff_iff, decide_eq_true_iff, strip_ne_empty_iff]

theorem textLines_append (v w : List Char) {a : Char} (ha : isLineBreak a = true) :
    textLines (v ++ a :: w) = textLines v ++ textLines w := by
  rw [textLines, List.splitOnP_append_cons v w ha, List.filter_append]
  rfl

theorem textLines_of_unbroken {w : List Char} (h : ∀ a ∈ w, isLineBreak a = false)
    (hw : nonblank w = true) : textLines w = [w] := by
  rw [textLines, List.splitOnP_eq_singleton h, List.filter_singleton, hw]
  rfl

/-- A text that is not blank has a line that is not. -/
theorem textLines_ne_nil {w : List Char} (h : nonblank w = true) : textLines w ≠ [] := by
  intro hnil
  rw [textLines, List.filter_eq_nil_iff] at hnil
  induction w with
  | nil => cases h
  | cons a w ih =>
    by_cases ha : isLineBreak a = true
    · have hsplit : (a :: w).splitOnP isLineBreak = [] :: w.splitOnP isLineBreak :=
        List.splitOnP_append_cons [] w ha
      rw [hsplit] at hnil
      refine ih ?_ fun l hl => hnil l (List.mem_cons_of_mem _ hl)
      simpa [nonblank, isSpace_of_isLineBreak ha] using h
    · rw [List.splitOnP_cons_eq_if_modifyHead, if_neg ha] at hnil
      obtain ⟨l, ls, hsplit⟩ := List.exists_cons_of_ne_nil (List.splitOnP_ne_nil isLineBreak w)
      rw [hsplit, List.modifyHead_cons] at hnil
      have hfirst : nonblank (a :: l) = false := by simpa using hnil _ List.mem_cons_self
      simp only [nonblank, List.any_cons, Bool.or_eq_false_iff] at hfirst
      refine ih ?_ fun k hk => ?_
      · simpa [nonblank, hfirst.1] using h
      · rw [hsplit] at hk
        rcases List.mem_cons.mp hk with rfl | hk
        · simpa [nonblank] using hfirst.2
        · exact hnil k (List.mem_cons_of_mem _ hk)

/-- The lines of a body are those of its records. -/
theorem textLines_join (records : List String) :
    textLines (String.intercalate "\n" records).toList =
      (records.map String.toList).flatMap textLines := by
  have hnewline : isLineBreak '\n' = true := by decide
  induction records with
  | nil => rfl
  | cons record records ih =>
    cases records with
    | nil => simp
    | cons next records =>
      rw [String.intercalate_cons_cons, String.toList_append, String.toList_append]
      have hsep : "\n".toList = ['\n'] := rfl
      rw [hsep, List.append_assoc, List.singleton_append, textLines_append _ _ hnewline, ih]
      simp

/-! Records. -/

/-- The white space of JSON. -/
def jsonSpaces : List Char := [' ', '\t', '\n', '\r']

/-- What the grammar of JSON says of the texts that the library accepts. -/
structure Lawful (codec : Codec) : Prop where
  /-- A control character is white space between tokens. -/
  controls : ∀ text value, codec.loads text = some value → ∀ a ∈ text.toList, a.toNat < 32 →
    a ∈ jsonSpaces
  /-- White space around a value does not matter. A value begins and ends in a token. -/
  trimmed : ∀ text value, codec.loads text = some value → ∃ left core right,
    text.toList = left ++ (core ++ right) ∧ (∀ a ∈ left, a ∈ jsonSpaces) ∧
      (∀ a ∈ right, a ∈ jsonSpaces) ∧ core ≠ [] ∧ (∀ a ∈ core.head?, isSpace a = false) ∧
      (∀ a ∈ core.getLast?, isSpace a = false) ∧ codec.loads (String.ofList core) = some value

/-- A JSON object or string on one line. -/
structure IsRecord (codec : Codec) (record : String) : Prop where
  value : (∃ s, codec.loads record = some (.str s)) ∨
    ∃ fields, codec.loads record = some (.obj fields)
  no_newline : '\n' ∉ record.toList
  no_return : '\r' ∉ record.toList

/-- The string of a record, or its object with at most a message added. -/
def Carries (codec : Codec) (record entry : String) : Prop :=
  (∃ s, codec.loads record = some (.str s) ∧ entry = s) ∨
    ∃ fields fields', codec.loads record = some (.obj fields) ∧
      codec.loads entry = some (.obj fields') ∧
      (fields' = fields ∨ fields.lookup "message" = none ∧
        ∃ key ∈ ["raw", "text", "msg"], ∃ value, fields.lookup key = some value ∧
          fields' = fields ++ [("message", value)])

/-- One entry for each record, in order. -/
def RoundTrips (codec : Codec) (records : List String) (maxLines : ℤ) : Prop :=
  ∃ entries, parseNdjsonPayload codec (String.intercalate "\n" records) maxLines = .ok entries ∧
    List.Forall₂ (Carries codec) records entries

/-- The line breaks of a str that may stand in a JSON string as they are. -/
def jsonBreaks : List Char := ['\u0085', '\u2028', '\u2029']

def Unbroken (record : String) : Prop := ∀ a ∈ jsonBreaks, a ∉ record.toList

instance (record : String) : Decidable (Unbroken record) :=
  decidable_of_iff (jsonBreaks.all (fun a => a ∉ record.toList) = true) (by simp [Unbroken])

theorem isSpace_of_jsonSpaces {a : Char} (h : a ∈ jsonSpaces) : isSpace a = true := by
  have hall : ∀ b ∈ jsonSpaces, isSpace b = true := List.all_eq_true.mp (by decide)
  exact hall a h

theorem isLineBreak_iff {a : Char} :
    isLineBreak a = true ↔ a ∈ jsonBreaks ∨ a = '\n' ∨ a = '\r' ∨
      a.toNat < 32 ∧ a ∉ jsonSpaces ∧ isLineBreak a = true := by
  constructor
  · intro h
    have hall : ∀ b ∈ ['\n', '\x0b', '\x0c', '\r', '\x1c', '\x1d', '\x1e', '\u0085', '\u2028',
        '\u2029'], b ∈ jsonBreaks ∨ b = '\n' ∨ b = '\r' ∨ b.toNat < 32 ∧ b ∉ jsonSpaces :=
      forall_mem_of_all (by decide)
    rw [isLineBreak, List.contains_iff_mem] at h
    rcases hall a h with hbreak | rfl | rfl | ⟨hcontrol, hspace⟩
    · exact Or.inl hbreak
    · exact Or.inr (Or.inl rfl)
    · exact Or.inr (Or.inr (Or.inl rfl))
    · exact Or.inr (Or.inr (Or.inr ⟨hcontrol, hspace, by rwa [isLineBreak, List.contains_iff_mem]⟩))
  · have hall : ∀ b ∈ jsonBreaks, isLineBreak b = true := List.all_eq_true.mp (by decide)
    rintro (h | rfl | rfl | ⟨-, -, h⟩)
    · exact hall a h
    · decide
    · decide
    · exact h

section Records

variable {codec : Codec} (hcodec : Lawful codec) {record : String} (hrecord : IsRecord codec record)

include hcodec hrecord

theorem isLineBreak_record {a : Char} (ha : a ∈ record.toList) :
    isLineBreak a = true ↔ a ∈ jsonBreaks := by
  rw [isLineBreak_iff]
  refine ⟨?_, Or.inl⟩
  rintro (h | rfl | rfl | ⟨hcontrol, hspace, -⟩)
  · exact h
  · exact absurd ha hrecord.no_newline
  · exact absurd ha hrecord.no_return
  · rcases hrecord.value with ⟨s, hvalue⟩ | ⟨fields, hvalue⟩
    · exact absurd (hcodec.controls _ _ hvalue a ha hcontrol) hspace
    · exact absurd (hcodec.controls _ _ hvalue a ha hcontrol) hspace

/-- A record is a value in white space. -/
theorem exists_core : ∃ left core right, record.toList = left ++ (core ++ right) ∧
    (∀ a ∈ left, a ∈ jsonSpaces) ∧ (∀ a ∈ right, a ∈ jsonSpaces) ∧ core ≠ [] ∧
      (∀ a ∈ core.head?, isSpace a = false) ∧ (∀ a ∈ core.getLast?, isSpace a = false) ∧
      codec.loads (String.ofList core) = codec.loads record := by
  have hvalue : ∃ value, codec.loads record = some value := by
    rcases hrecord.value with ⟨s, h⟩ | ⟨fields, h⟩
    · exact ⟨_, h⟩
    · exact ⟨_, h⟩
  obtain ⟨value, hvalue⟩ := hvalue
  obtain ⟨left, core, right, htext, hleft, hright, hne, hhead, hlast, hloads⟩ :=
    hcodec.trimmed record value hvalue
  exact ⟨left, core, right, htext, hleft, hright, hne, hhead, hlast, hloads.trans hvalue.symm⟩

theorem loads_strip : codec.loads (strip record) = codec.loads record := by
  obtain ⟨left, core, right, htext, hleft, hright, hne, hhead, hlast, hloads⟩ :=
    exists_core hcodec hrecord
  have hstrip := strip_of_spaces (fun a ha => isSpace_of_jsonSpaces (hleft a ha))
    (fun a ha => isSpace_of_jsonSpaces (hright a ha)) hhead hlast hne
  rw [← htext, String.ofList_toList] at hstrip
  rw [hstrip, hloads]

theorem nonblank_record : nonblank record.toList = true := by
  obtain ⟨left, core, right, htext, -, -, hne, hhead, -, -⟩ := exists_core hcodec hrecord
  obtain ⟨a, core, rfl⟩ := List.exists_cons_of_ne_nil hne
  exact nonblank_of_mem (a := a) (by simp [htext]) (hhead a rfl)

theorem textLines_unbroken (h : Unbroken record) : textLines record.toList = [record.toList] := by
  refine textLines_of_unbroken ?_ (nonblank_record hcodec hrecord)
  intro a ha
  rw [← Bool.not_eq_true, isLineBreak_record hcodec hrecord ha]
  exact fun hbreak => h a hbreak ha

/-- A break stands inside the value, so there is text before and behind it. -/
theorem two_le_length_textLines (h : ¬ Unbroken record) :
    2 ≤ (textLines record.toList).length := by
  obtain ⟨left, core, right, htext, hleft, hright, hne, hhead, hlast, -⟩ :=
    exists_core hcodec hrecord
  obtain ⟨a, hbreak, ha⟩ : ∃ a ∈ jsonBreaks, a ∈ record.toList := by
    simpa [Unbroken] using h
  have hline : isLineBreak a = true := (isLineBreak_record hcodec hrecord ha).mpr hbreak
  have houter : a ∉ jsonSpaces := by
    have hall : ∀ b ∈ jsonBreaks, b ∉ jsonSpaces := forall_mem_of_all (by decide)
    exact hall a hbreak
  have hcore : a ∈ core := by
    rw [htext, List.mem_append, List.mem_append] at ha
    rcases ha with ha | ha | ha
    · exact absurd (hleft a ha) houter
    · exact ha
    · exact absurd (hright a ha) houter
  obtain ⟨u, v, rfl⟩ := List.append_of_mem hcore
  have hspace := isSpace_of_isLineBreak hline
  have hu : nonblank (left ++ u) = true := by
    cases u with
    | nil =>
      have hnot := hhead a rfl
      rw [hspace] at hnot
      cases hnot
    | cons b u => exact nonblank_of_mem (a := b) (by simp) (hhead b rfl)
  have hv : nonblank (v ++ right) = true := by
    rcases List.eq_nil_or_concat v with rfl | ⟨v, b, rfl⟩
    · have hnot := hlast a (by simp)
      rw [hspace] at hnot
      cases hnot
    · refine nonblank_of_mem (a := b) (by simp) (hlast b ?_)
      rw [List.concat_eq_append, ← List.cons_append, ← List.append_assoc, List.getLast?_concat]
      rfl
  have hsplit : record.toList = (left ++ u) ++ a :: (v ++ right) := by
    rw [htext]
    simp
  have hbefore := List.length_pos_iff.mpr (textLines_ne_nil hu)
  have hbehind := List.length_pos_iff.mpr (textLines_ne_nil hv)
  rw [hsplit, textLines_append _ _ hline, List.length_append]
  omega

theorem length_textLines_eq_one_iff :
    (textLines record.toList).length = 1 ↔ Unbroken record := by
  by_cases h : Unbroken record
  · simp [textLines_unbroken hcodec hrecord h, h]
  · have htwo := two_le_length_textLines hcodec hrecord h
    simp only [h, iff_false]
    omega

/-- What becomes of a record that is a line of the body. -/
theorem carries_coerce (hfaithful : ∀ fields, codec.loads record = some (.obj fields) →
    codec.loads (codec.dumps (withMessage fields)) = some (.obj (withMessage fields))) :
    Carries codec record (coerceNdjsonLine codec record) := by
  rcases hrecord.value with ⟨s, hvalue⟩ | ⟨fields, hvalue⟩
  · refine Or.inl ⟨s, hvalue, ?_⟩
    rw [coerceNdjsonLine, loads_strip hcodec hrecord, hvalue]
  · have hentry : coerceNdjsonLine codec record = codec.dumps (withMessage fields) := by
      rw [coerceNdjsonLine, loads_strip hcodec hrecord, hvalue]
      rfl
    refine Or.inr ⟨fields, withMessage fields, hvalue, hentry ▸ hfaithful fields hvalue, ?_⟩
    rw [withMessage]
    split
    · exact Or.inl rfl
    · rename_i hmessage
      split
      · exact Or.inl rfl
      · rename_i value hvalue
        obtain ⟨key, hkey, hfilter⟩ := List.exists_of_findSome?_eq_some hvalue
        exact Or.inr ⟨Option.not_isSome_iff_eq_none.mp hmessage, key, hkey, value,
          (Option.filter_eq_some_iff.mp hfilter).1, rfl⟩

end Records

/-- Counts of at least one each add up to the number of counts only if each is one. -/
theorem sum_eq_length_iff {l : List ℕ} (h : ∀ n ∈ l, 1 ≤ n) :
    l.sum = l.length ↔ ∀ n ∈ l, n = 1 := by
  induction l with
  | nil => simp
  | cons n l ih =>
    have hn := h n List.mem_cons_self
    have hl : ∀ m ∈ l, 1 ≤ m := fun m hm => h m (List.mem_cons_of_mem _ hm)
    have hle := List.length_le_sum_of_one_le l hl
    rw [List.sum_cons, List.length_cons, List.forall_mem_cons, ← ih hl]
    omega

section Bodies

variable {codec : Codec} (hcodec : Lawful codec) {records : List String}
  (hrecords : ∀ record ∈ records, IsRecord codec record)

include hcodec hrecords

theorem length_physicalLines_eq_iff :
    (physicalLines (String.intercalate "\n" records)).length = records.length ↔
      ∀ record ∈ records, Unbroken record := by
  have hcounts : (physicalLines (String.intercalate "\n" records)).length =
      (records.map fun record => (textLines record.toList).length).sum := by
    rw [physicalLines_eq, List.length_map, textLines_join, List.length_flatMap, List.map_map]
    rfl
  have hone : ∀ n ∈ records.map fun record => (textLines record.toList).length, 1 ≤ n := by
    intro n hn
    obtain ⟨record, hrecord, rfl⟩ := List.mem_map.mp hn
    exact List.length_pos_iff.mpr (textLines_ne_nil (nonblank_record hcodec (hrecords _ hrecord)))
  have hlength : records.length =
      (records.map fun record => (textLines record.toList).length).length := by
    rw [List.length_map]
  rw [hcounts, hlength, sum_eq_length_iff hone, List.forall_mem_map]
  exact forall₂_congr fun record hrecord =>
    length_textLines_eq_one_iff hcodec (hrecords record hrecord)

theorem physicalLines_of_unbroken (h : ∀ record ∈ records, Unbroken record) :
    physicalLines (String.intercalate "\n" records) = records := by
  rw [physicalLines_eq, textLines_join, List.flatMap_map, List.map_flatMap]
  calc
    records.flatMap (fun record => (textLines record.toList).map String.ofList)
      = records.flatMap (fun record => [record]) := by
        refine List.flatMap_congr fun record hrecord => ?_
        rw [textLines_unbroken hcodec (hrecords record hrecord) (h record hrecord),
          List.map_singleton, String.ofList_toList]
    _ = records := List.flatMap_singleton' records

omit hcodec hrecords in
theorem length_physicalLines_of_roundTrips {maxLines : ℤ} (h : RoundTrips codec records maxLines) :
    (physicalLines (String.intercalate "\n" records)).length = records.length := by
  obtain ⟨entries, hparse, hcarries⟩ := h
  rw [parseNdjsonPayload] at hparse
  split at hparse
  · cases hparse
  split at hparse
  · cases hparse
  split at hparse
  · cases hparse
  obtain rfl := Except.ok.inj hparse
  rw [hcarries.length_eq, List.length_map]

/-- The records come back exactly if none of them has a break that JSON lets stand. -/
theorem roundTrips_iff (hne : records ≠ []) {maxLines : ℤ} (hmax : records.length ≤ maxLines)
    (hfaithful : ∀ record ∈ records, ∀ fields, codec.loads record = some (.obj fields) →
      codec.loads (codec.dumps (withMessage fields)) = some (.obj (withMessage fields))) :
    RoundTrips codec records maxLines ↔ ∀ record ∈ records, Unbroken record := by
  constructor
  · intro h
    rw [← length_physicalLines_eq_iff hcodec hrecords]
    exact length_physicalLines_of_roundTrips h
  · intro h
    have hlines := physicalLines_of_unbroken hcodec hrecords h
    have hpos := List.length_pos_iff.mpr hne
    refine ⟨records.map (coerceNdjsonLine codec), ?_, ?_⟩
    · rw [parseNdjsonPayload, hlines, if_neg (by omega), if_neg (by simpa using hne),
        if_neg (by omega)]
    · rw [List.forall₂_map_right_iff, List.forall₂_same]
      exact fun record hrecord =>
        carries_coerce hcodec (hrecords record hrecord) (hfaithful record hrecord)

end Bodies

/-! A library that knows a few texts. -/

def sampleTexts : List (String × Json) :=
  [("\"boot\"", .str "boot"), ("\"a\u2028b\"", .str "a\u2028b"),
    ("\x7b\"msg\":\"down\"\x7d", .obj [("msg", .str "down")]),
    ("\x7b\"msg\":\"down\",\"message\":\"down\"\x7d",
      .obj [("msg", .str "down"), ("message", .str "down")])]

/-- A member of an object with strings. -/
def sampleMember : String × Json → String
  | (key, .str s) => "\"" ++ key ++ "\":\"" ++ s ++ "\""
  | (key, _) => "\"" ++ key ++ "\":null"

def sampleCodec : Codec where
  loads text := sampleTexts.lookup (stripChars jsonSpaces text)
  dumps fields := "\x7b" ++ String.intercalate "," (fields.map sampleMember) ++ "\x7d"

theorem stripChars_spec (chars : List Char) (text : String) : ∃ left right,
    text.toList = left ++ ((stripChars chars text).toList ++ right) ∧ (∀ a ∈ left, a ∈ chars) ∧
      ∀ a ∈ right, a ∈ chars := by
  set back := (text.toList.dropWhile chars.contains).reverse with hback
  refine ⟨text.toList.takeWhile chars.contains, (back.takeWhile chars.contains).reverse, ?_, ?_, ?_⟩
  · have hfront : back.reverse = text.toList.dropWhile chars.contains := by
      rw [hback, List.reverse_reverse]
    rw [stripChars, String.toList_ofList, ← hback, ← List.reverse_append,
      List.takeWhile_append_dropWhile, hfront, List.takeWhile_append_dropWhile]
  · intro a ha
    exact List.contains_iff_mem.mp (List.mem_takeWhile_imp ha)
  · intro a ha
    exact List.contains_iff_mem.mp (List.mem_takeWhile_imp (List.mem_reverse.mp ha))

theorem sampleTexts_spec : ∀ key ∈ sampleTexts.map Prod.fst, key.toList ≠ [] ∧
    (∀ a ∈ key.toList, 32 ≤ a.toNat) ∧ (∀ a ∈ key.toList.head?, isSpace a = false) ∧
      (∀ a ∈ key.toList.getLast?, isSpace a = false) ∧ stripChars jsonSpaces key = key := by
  have hall : ∀ key ∈ sampleTexts.map Prod.fst, key.toList ≠ [] ∧
      key.toList.all (fun a => 32 ≤ a.toNat) = true ∧
      key.toList.head?.all (fun a => isSpace a = false) = true ∧
      key.toList.getLast?.all (fun a => isSpace a = false) = true ∧
      stripChars jsonSpaces key = key := by
    decide +kernel
  intro key hkey
  obtain ⟨hne, hprint, hhead, hlast, hstrip⟩ := hall key hkey
  refine ⟨hne, forall_mem_of_all hprint, ?_, ?_, hstrip⟩
  · intro a ha
    rw [Option.mem_def.mp ha] at hhead
    exact of_decide_eq_true hhead
  · intro a ha
    rw [Option.mem_def.mp ha] at hlast
    exact of_decide_eq_true hlast

/-- The library knows its texts. -/
theorem loads_sampleTexts {key : String} (h : key ∈ sampleTexts.map Prod.fst) :
    sampleCodec.loads key = sampleTexts.lookup key := by
  have hstrip := (sampleTexts_spec key h).2.2.2.2
  calc
    sampleCodec.loads key = sampleTexts.lookup (stripChars jsonSpaces key) := rfl
    _ = sampleTexts.lookup key := by rw [hstrip]

theorem lawful_sampleCodec : Lawful sampleCodec := by
  have hmem : ∀ {text value}, sampleCodec.loads text = some value →
      stripChars jsonSpaces text ∈ sampleTexts.map Prod.fst := by
    intro text value h
    obtain ⟨l₁, l₂, hsplit, -⟩ := List.lookup_eq_some_iff.mp h
    have hentry : (stripChars jsonSpaces text, value) ∈ sampleTexts := by simp [hsplit]
    exact List.mem_map.mpr ⟨_, hentry, rfl⟩
  constructor
  · intro text value h a ha hcontrol
    obtain ⟨left, right, htext, hleft, hright⟩ := stripChars_spec jsonSpaces text
    rw [htext, List.mem_append, List.mem_append] at ha
    rcases ha with ha | ha | ha
    · exact hleft a ha
    · have hprint := (sampleTexts_spec _ (hmem h)).2.1 a ha
      omega
    · exact hright a ha
  · intro text value h
    obtain ⟨left, right, htext, hleft, hright⟩ := stripChars_spec jsonSpaces text
    obtain ⟨hne, -, hhead, hlast, -⟩ := sampleTexts_spec _ (hmem h)
    refine ⟨left, _, right, htext, hleft, hright, hne, hhead, hlast, ?_⟩
    rw [String.ofList_toList, loads_sampleTexts (hmem h)]
    exact h

/-- A string and an object, on two lines. -/
def sampleRecords : List String := ["\"boot\"", "\x7b\"msg\":\"down\"\x7d"]

theorem loads_sampleRecords : sampleCodec.loads "\"boot\"" = some (.str "boot") ∧
    sampleCodec.loads "\x7b\"msg\":\"down\"\x7d" = some (.obj [("msg", .str "down")]) := by
  rw [loads_sampleTexts (by decide), loads_sampleTexts (by decide)]
  exact ⟨by simp [sampleTexts], by simp [sampleTexts, List.lookup_cons]⟩

theorem isRecord_sampleRecords : ∀ record ∈ sampleRecords, IsRecord sampleCodec record := by
  have hbreaks : ∀ record ∈ sampleRecords, '\n' ∉ record.toList ∧ '\r' ∉ record.toList := by
    decide +kernel
  intro record hrecord
  obtain ⟨hnewline, hreturn⟩ := hbreaks record hrecord
  refine ⟨?_, hnewline, hreturn⟩
  rw [sampleRecords, List.mem_cons, List.mem_singleton] at hrecord
  rcases hrecord with rfl | rfl
  · exact Or.inl ⟨_, loads_sampleRecords.1⟩
  · exact Or.inr ⟨_, loads_sampleRecords.2⟩

theorem faithful_sampleRecords : ∀ record ∈ sampleRecords, ∀ fields,
    sampleCodec.loads record = some (.obj fields) →
      sampleCodec.loads (sampleCodec.dumps (withMessage fields)) =
        some (.obj (withMessage fields)) := by
  intro record hrecord fields hfields
  rw [sampleRecords, List.mem_cons, List.mem_singleton] at hrecord
  rcases hrecord with rfl | rfl
  · rw [loads_sampleRecords.1] at hfields
    cases hfields
  · rw [loads_sampleRecords.2] at hfields
    obtain rfl := Json.obj.inj (Option.some.inj hfields)
    have hdumps : sampleCodec.dumps (withMessage [("msg", .str "down")]) =
        "\x7b\"msg\":\"down\",\"message\":\"down\"\x7d" := by decide +kernel
    have hmessage : withMessage [("msg", .str "down")] =
        [("msg", .str "down"), ("message", .str "down")] := rfl
    rw [hdumps, loads_sampleTexts (by decide), hmessage]
    simp [sampleTexts, List.lookup_cons]

/-- The string comes back as it is, the object with a message. -/
theorem roundTrips_sampleRecords : RoundTrips sampleCodec sampleRecords 5000 := by
  refine (roundTrips_iff lawful_sampleCodec isRecord_sampleRecords (by decide) (by decide)
    faithful_sampleRecords).mpr ?_
  decide +kernel

/-- A string with a line separator is no single line of the body. -/
theorem not_roundTrips_of_line_separator :
    ¬ ∀ (codec : Codec) (records : List String) (maxLines : ℤ), Lawful codec →
      (∀ record ∈ records, IsRecord codec record) → records ≠ [] → records.length ≤ maxLines →
        (∀ record ∈ records, ∀ fields, codec.loads record = some (.obj fields) →
          codec.loads (codec.dumps (withMessage fields)) = some (.obj (withMessage fields))) →
          RoundTrips codec records maxLines := by
  intro h
  have hloads : sampleCodec.loads "\"a\u2028b\"" = some (.str "a\u2028b") := by
    rw [loads_sampleTexts (by decide)]
    simp [sampleTexts, List.lookup_cons]
  have hrecords : ∀ record ∈ ["\"a\u2028b\""], IsRecord sampleCodec record := by
    rw [List.forall_mem_singleton]
    exact ⟨Or.inl ⟨_, hloads⟩, by decide +kernel, by decide +kernel⟩
  have hround := h sampleCodec ["\"a\u2028b\""] 5000 lawful_sampleCodec hrecords (by decide)
    (by decide) (by simp [hloads])
  have hunbroken := (length_physicalLines_eq_iff lawful_sampleCodec hrecords).mp
    (length_physicalLines_of_roundTrips hround) _ (List.mem_singleton_self _)
  revert hunbroken
  decide +kernel

end Raglogs.PushLaws
