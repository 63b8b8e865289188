import Mathlib.Data.List.Nodup
import Mathlib.Tactic.IntervalCases
import Raglogs.TelemetryKeys

/-!
The keys of telemetry rows tell the rows apart. Joining loses where a component ends
if one has a delimiter in it, and which components are missing; the time is printed
with the offset it came with. Nothing else can go wrong.
-/

namespace Raglogs.TelemetryKeyLaws

open Encodings JsonText LogEntries Upserts TelemetryKeys

/-! The calendar. -/

/-- The days of the months, in a common year and in a leap year. -/
theorem daysBeforeMonth_cases (year : ℕ) {month : ℕ} (h : 1 ≤ month) (h' : month ≤ 12) :
    daysBeforeMonth year month + daysInMonth year month = daysBeforeMonth year (month + 1) ∧
      daysInMonth year month ≤ 31 := by
  unfold daysInMonth daysBeforeMonth
  cases isLeap year <;> interval_cases month <;> decide

theorem daysBeforeMonth_mono (year : ℕ) {month month' : ℕ} (h : 1 ≤ month)
    (h' : month < month') (h'' : month' ≤ 13) :
    daysBeforeMonth year (month + 1) ≤ daysBeforeMonth year month' := by
  unfold daysBeforeMonth
  cases isLeap year <;> interval_cases month' <;> interval_cases month <;> decide

/-- The days of a whole year. -/
theorem daysBeforeMonth_last (year : ℕ) :
    daysBeforeMonth year 13 = 365 + if isLeap year then 1 else 0 := by
  unfold daysBeforeMonth
  cases isLeap year <;> rfl

theorem daysBeforeYear_succ {year : ℕ} (h : 1 ≤ year) :
    daysBeforeYear (year + 1) = daysBeforeYear year + daysBeforeMonth year 13 := by
  -- each of the three counts grows in the years that it divides
  have hcount : ∀ n, 0 < n → year / n = (year - 1) / n + if year % n = 0 then 1 else 0 := by
    intro n hn
    have hsucc := Nat.succ_div (a := year - 1) (b := n)
    rw [Nat.sub_add_cancel h] at hsucc
    simpa only [Nat.dvd_iff_mod_eq_zero] using hsucc
  have hhundred : year % 400 = 0 → year % 100 = 0 := by omega
  have hfour : year % 100 = 0 → year % 4 = 0 := by omega
  have hle : (year - 1) / 100 ≤ (year - 1) / 4 := by omega
  rw [daysBeforeMonth_last]
  unfold daysBeforeYear isLeap
  rw [Nat.add_sub_cancel, hcount 4 (by decide), hcount 100 (by decide), hcount 400 (by decide)]
  by_cases h4 : year % 4 = 0 <;> by_cases h100 : year % 100 = 0 <;>
    by_cases h400 : year % 400 = 0 <;> simp [h4, h100, h400] <;> omega

theorem daysBeforeYear_mono {year year' : ℕ} (h : 1 ≤ year) (h' : year < year') :
    daysBeforeYear year + daysBeforeMonth year 13 ≤ daysBeforeYear year' := by
  rw [← daysBeforeYear_succ h]
  refine Nat.le_induction le_rfl (fun n hn ih => ih.trans ?_) year' h'
  rw [daysBeforeYear_succ (le_trans (Nat.le_add_left 1 year) hn)]
  exact Nat.le_add_right _ _

/-- The days up to a date. -/
def dayNumber (d : Datetime) : ℕ :=
  daysBeforeYear d.year + daysBeforeMonth d.year d.month + d.day

theorem dayNumber_inj {d e : Datetime} (h : dayNumber d = dayNumber e) :
    d.year = e.year ∧ d.month = e.month ∧ d.day = e.day := by
  -- a date lies behind the days before its year, and not behind those before the next
  have hwithin : ∀ d : Datetime, daysBeforeYear d.year < dayNumber d ∧
      dayNumber d ≤ daysBeforeYear d.year + daysBeforeMonth d.year 13 := by
    intro d
    obtain ⟨-, -, hmonth, hmonth', hday, hday'⟩ := d.date_bounds
    obtain ⟨hnext, -⟩ := daysBeforeMonth_cases d.year hmonth hmonth'
    have hend : daysBeforeMonth d.year (d.month + 1) ≤ daysBeforeMonth d.year 13 :=
      daysBeforeMonth_mono _ hmonth (by omega) le_rfl
    unfold dayNumber
    omega
  have hyear : d.year = e.year := by
    obtain ⟨hd, hd'⟩ := hwithin d
    obtain ⟨he, he'⟩ := hwithin e
    rcases lt_trichotomy d.year e.year with hlt | heq | hlt
    · have hmono := daysBeforeYear_mono d.date_bounds.1 hlt
      omega
    · exact heq
    · have hmono := daysBeforeYear_mono e.date_bounds.1 hlt
      omega
  obtain ⟨-, -, hmonth, hmonth', hday, hday'⟩ := d.date_bounds
  obtain ⟨-, -, hemonth, hemonth', heday, heday'⟩ := e.date_bounds
  rw [← hyear] at heday'
  obtain ⟨hnext, -⟩ := daysBeforeMonth_cases d.year hmonth hmonth'
  obtain ⟨henext, -⟩ := daysBeforeMonth_cases d.year hemonth hemonth'
  unfold dayNumber at h
  rw [← hyear] at h
  have hmonths : d.month = e.month := by
    rcases lt_trichotomy d.month e.month with hlt | heq | hlt
    · have hmono := daysBeforeMonth_mono d.year hmonth hlt (by omega)
      omega
    · exact heq
    · have hmono := daysBeforeMonth_mono d.year hemonth hlt (by omega)
      omega
  refine ⟨hyear, hmonths, ?_⟩
  rw [hmonths] at h
  omega

/-- One instant has one date and clock time in an offset. -/
theorem eq_of_instant_eq {d e : Datetime} (h : d.instant = e.instant)
    (hoffset : d.offset = e.offset) : d = e := by
  have hwall : d.wall = e.wall := by
    have hsecond := congrArg Prod.snd h
    simp only [Datetime.instant, hoffset, sub_left_inj] at hsecond
    exact_mod_cast hsecond
  have hd := d.clock_bounds
  have he := e.clock_bounds
  change (((dayNumber d * 24 + d.hour) * 60 + d.minute) * 60 + d.second) * 1000000 +
    d.microsecond = (((dayNumber e * 24 + e.hour) * 60 + e.minute) * 60 + e.second) * 1000000 +
      e.microsecond at hwall
  have hday : dayNumber d = dayNumber e := by omega
  obtain ⟨hyear, hmonth, hday⟩ := dayNumber_inj hday
  cases d
  cases e
  simp_all
  omega

/-! Dates and times read back. -/

theorem fractionText_append_inj {m n : ℕ} (hm : m < 1000000) (hn : n < 1000000) {r s : List Char}
    (hr : '.' ∉ r.head?) (hs : '.' ∉ s.head?) (h : fractionText m ++ r = fractionText n ++ s) :
    m = n ∧ r = s := by
  rw [fractionText, fractionText] at h
  split at h <;> split at h
  · exact ⟨by omega, h⟩
  · rw [List.nil_append] at h
    rw [h] at hr
    exact absurd rfl hr
  · rw [List.nil_append] at h
    rw [← h] at hs
    exact absurd rfl hs
  · exact padded_append_inj (by decide) (by decide) (by omega) (by omega) (List.cons.inj h).2

theorem offsetSeconds_inj {a b : ℕ} (h : offsetSeconds a = offsetSeconds b) :
    a % 60000000 = b % 60000000 := by
  rw [offsetSeconds, offsetSeconds] at h
  split at h <;> split at h
  · omega
  · cases h
  · cases h
  · obtain ⟨hseconds, h⟩ := padded_append_inj (by decide) (by decide) (by omega) (by omega)
      (List.cons.inj h).2
    have hfraction : fractionText (a % 1000000) ++ [] = fractionText (b % 1000000) ++ [] := by
      rw [h]
    obtain ⟨hmicro, -⟩ :=
      fractionText_append_inj (by omega) (by omega) (by simp) (by simp) hfraction
    omega

theorem offsetText_inj {o o' : Option ℤ} (ho : ∀ a ∈ o, a.natAbs < 86400000000)
    (ho' : ∀ a ∈ o', a.natAbs < 86400000000) (h : offsetText o = offsetText o') : o = o' := by
  cases o with
  | none =>
    cases o' with
    | none => rfl
    | some b => cases h
  | some a =>
    cases o' with
    | none => cases h
    | some b =>
      have ha := ho a rfl
      have hb := ho' b rfl
      rw [offsetText, offsetText] at h
      obtain ⟨hsign, h⟩ := List.cons.inj h
      obtain ⟨hhours, h⟩ := padded_append_inj (by decide) (by decide) (by omega) (by omega) h
      obtain ⟨hminutes, h⟩ := padded_append_inj (by decide) (by decide) (by omega) (by omega)
        (List.cons.inj h).2
      have hseconds := offsetSeconds_inj h
      have habs : a.natAbs = b.natAbs := by omega
      refine congrArg some ?_
      split at hsign <;> split at hsign
      · omega
      · exact absurd hsign (by decide)
      · exact absurd hsign (by decide)
      · omega

theorem head_offsetText (o : Option ℤ) : '.' ∉ (offsetText o).head? := by
  cases o with
  | none => simp [offsetText]
  | some a =>
    rw [offsetText, List.head?_cons, Option.mem_some_iff]
    split <;> decide

/-- The text of a date and time says all of it. -/
theorem datetime_text_inj {d e : Datetime} (h : d.text = e.text) : d = e := by
  have hd := d.date_bounds
  have he := e.date_bounds
  have hday := (daysBeforeMonth_cases d.year hd.2.2.1 hd.2.2.2.1).2
  have heday := (daysBeforeMonth_cases e.year he.2.2.1 he.2.2.2.1).2
  have hd' := d.clock_bounds
  have he' := e.clock_bounds
  have h : d.chars = e.chars := String.ofList_injective h
  rw [Datetime.chars, Datetime.chars] at h
  obtain ⟨hyear, h⟩ := padded_append_inj (by decide) (by decide) (by omega) (by omega) h
  obtain ⟨hmonth, h⟩ := padded_append_inj (by decide) (by decide) (by omega) (by omega)
    (List.cons.inj h).2
  obtain ⟨hday, h⟩ := padded_append_inj (by decide) (by decide) (by omega) (by omega)
    (List.cons.inj h).2
  obtain ⟨hhour, h⟩ := padded_append_inj (by decide) (by decide) (by omega) (by omega)
    (List.cons.inj h).2
  obtain ⟨hminute, h⟩ := padded_append_inj (by decide) (by decide) (by omega) (by omega)
    (List.cons.inj h).2
  obtain ⟨hsecond, h⟩ := padded_append_inj (by decide) (by decide) (by omega) (by omega)
    (List.cons.inj h).2
  obtain ⟨hmicro, h⟩ := fractionText_append_inj hd'.2.2.2 he'.2.2.2 (head_offsetText _)
    (head_offsetText _) h
  have hoffset := offsetText_inj d.offset_bounds e.offset_bounds h
  cases d
  cases e
  simp_all

/-- No date and time is printed like a missing one. -/
theorem datetime_text_ne_none (d : Datetime) : d.text ≠ "None" := by
  intro h
  have hlength : d.chars.length = 4 := by
    rw [← String.toList_ofList (l := d.chars), ← Datetime.text, h]
    rfl
  rw [Datetime.chars] at hlength
  simp only [List.length_append, List.length_cons, length_padded] at hlength
  omega

theorem shown_text_inj {t t' : Option Datetime}
    (h : shown (t.map Datetime.text) = shown (t'.map Datetime.text)) : t = t' := by
  cases t with
  | none =>
    cases t' with
    | none => rfl
    | some e => exact absurd h.symm (datetime_text_ne_none e)
  | some d =>
    cases t' with
    | none => exact absurd h (datetime_text_ne_none d)
    | some e => exact congrArg some (datetime_text_inj h)

/-! Components. -/

/-- No delimiter ends a component early. -/
def Undelimited (s : String) : Prop := '|' ∉ s.toList

def joined (components : List (Option String)) : String :=
  String.intercalate "|" (components.map shown)

theorem joined_cons (c c' : Option String) (l : List (Option String)) :
    joined (c :: c' :: l) = shown c ++ "|" ++ joined (c' :: l) :=
  String.intercalate_cons_cons

theorem joined_singleton (c : Option String) : joined [c] = shown c := String.intercalate_singleton

/-- The first component of a joined text can be read if it has no delimiter. -/
theorem joined_cons_inj {c c' d d' : Option String} {l l' : List (Option String)}
    (hc : Undelimited (shown c)) (hc' : Undelimited (shown c'))
    (h : joined (c :: d :: l) = joined (c' :: d' :: l')) :
    shown c = shown c' ∧ joined (d :: l) = joined (d' :: l') := by
  have hchars := congrArg String.toList h
  simp only [joined_cons, String.toList_append, List.append_assoc,
    show "|".toList = ['|'] from rfl, List.singleton_append] at hchars
  have hfree : ∀ {s : String}, Undelimited s → ∀ a ∈ s.toList, (a != '|') = true := by
    intro s hs a ha
    rw [bne_iff_ne]
    rintro rfl
    exact hs ha
  obtain ⟨hfirst, hrest⟩ := span_unique hchars (hfree hc) (hfree hc') (by simp) (by simp)
  exact ⟨String.toList_inj.mp hfirst, String.toList_inj.mp (List.cons.inj hrest).2⟩

/-- A joined text of several components has a delimiter. -/
theorem not_undelimited_joined (c d : Option String) (l : List (Option String)) :
    ¬Undelimited (joined (c :: d :: l)) := by
  rw [joined_cons, Undelimited, not_not]
  simp

/-- A text with a delimiter is two texts. -/
theorem exists_joint {s : String} (h : ¬Undelimited s) :
    ∃ a b, s = a ++ "|" ++ b ∧ a ≠ s ∧ b ≠ s := by
  obtain ⟨l, r, hs⟩ := List.append_of_mem (not_not.mp h)
  have htext : s = String.ofList l ++ "|" ++ String.ofList r := by
    rw [← String.toList_inj, hs]
    simp
  have hlength : s.length = l.length + 1 + r.length := by
    rw [htext]
    simp only [String.length_append, String.length_ofList, show "|".length = 1 from rfl]
  refine ⟨String.ofList l, String.ofList r, htext, ?_, ?_⟩
  · intro heq
    have := congrArg String.length heq
    rw [String.length_ofList] at this
    omega
  · intro heq
    have := congrArg String.length heq
    rw [String.length_ofList] at this
    omega

theorem undelimited_shown {c : Option String} (h : ∀ s ∈ c, Undelimited s) :
    Undelimited (shown c) := by
  cases c with
  | none =>
    unfold Undelimited
    decide
  | some s => exact h s rfl

theorem not_mem_padded (width : ℕ) : ∀ n, '|' ∉ padded 10 width n := by
  induction width with
  | zero => exact fun n => List.not_mem_nil
  | succ width ih =>
    intro n
    have hlt := Nat.mod_lt n (show 0 < 10 by decide)
    have hdigit : '|' ≠ Nat.digitChar (n % 10) := by
      generalize n % 10 = k at hlt ⊢
      interval_cases k <;> decide
    rw [padded, List.mem_append, List.mem_singleton]
    exact fun h => h.elim (ih _) hdigit

theorem not_mem_fractionText (n : ℕ) : '|' ∉ fractionText n := by
  unfold fractionText
  split
  · exact List.not_mem_nil
  · simp [not_mem_padded]

theorem not_mem_offsetText (o : Option ℤ) : '|' ∉ offsetText o := by
  have hseconds : ∀ a, '|' ∉ offsetSeconds a := by
    intro a
    unfold offsetSeconds
    split
    · exact List.not_mem_nil
    · simp [not_mem_padded, not_mem_fractionText]
  cases o with
  | none => exact List.not_mem_nil
  | some a =>
    have hsign : '|' ≠ if a < 0 then '-' else '+' := by split <;> decide
    simp [offsetText, not_mem_padded, hseconds, hsign]

theorem undelimited_time (t : Option Datetime) : Undelimited (shown (t.map Datetime.text)) := by
  refine undelimited_shown fun s hs => ?_
  obtain ⟨d, -, rfl⟩ := Option.mem_map.mp hs
  rw [Undelimited, Datetime.text, String.toList_ofList, Datetime.chars]
  simp [not_mem_padded, not_mem_fractionText, not_mem_offsetText]

/-- A component is missing, or does not stand for a missing one. -/
def NotNone (c : Option String) : Prop := ∀ s ∈ c, s ≠ "None"

theorem shown_inj {c c' : Option String} (hc : NotNone c) (hc' : NotNone c')
    (h : shown c = shown c') : c = c' := by
  cases c with
  | none =>
    cases c' with
    | none => rfl
    | some s => exact absurd h.symm (hc' s rfl)
  | some s =>
    cases c' with
    | none => exact absurd h (hc s rfl)
    | some s' => exact congrArg some h

/-! Tables keyed by a digest. -/

section Tables

variable {ι α : Type} [DecidableEq ι]

omit [DecidableEq ι] in
theorem flatten_chunks {n : ℕ} (hn : 0 < n) (rows : List α) : (chunks n rows).flatten = rows := by
  have htake : ∀ k, ((List.range k).map fun i => (rows.drop (i * n)).take n).flatten =
      rows.take (k * n) := by
    intro k
    induction k with
    | zero => simp
    | succ k ih =>
      rw [List.range_succ, List.map_append, List.flatten_append, ih, Nat.succ_mul, List.take_add]
      simp
  rw [chunks, htake]
  refine List.take_of_length_le ?_
  have hdiv := Nat.div_add_mod (rows.length + n - 1) n
  have hmod := Nat.mod_lt (rows.length + n - 1) hn
  rw [Nat.mul_comm] at hdiv
  omega

theorem foldl_upsertAll {ρ κ : Type} [DecidableEq κ] (key : ρ → Option κ) (batches : List (List ρ))
    (table : List ρ) :
    batches.foldl (upsertAll key) table = upsertAll key table batches.flatten := by
  induction batches generalizing table with
  | nil => rfl
  | cons batch batches ih => rw [List.foldl_cons, ih, List.flatten_cons, upsertAll_append]

variable (uuid5 : String → ι) (keyText : String → α → String)

/-- The rows of the calls, in order. -/
def callRows (calls : List (Call α)) : List (Row ι α) := calls.flatMap (Call.rows uuid5 keyText)

theorem persistAll_eq (calls : List (Call α)) :
    persistAll uuid5 keyText calls =
      upsertAll (fun row => some row.id) [] (callRows uuid5 keyText calls) := by
  have hone : ∀ table call, (persist uuid5 keyText table call).1 =
      upsertAll (fun row => some row.id) table (call.rows uuid5 keyText) := by
    intro table call
    rw [persist, foldl_upsertAll, flatten_chunks (by decide)]
  suffices h : ∀ table, calls.foldl (fun table call => (persist uuid5 keyText table call).1) table =
      upsertAll (fun row => some row.id) table (callRows uuid5 keyText calls) from h []
  induction calls with
  | nil => exact fun table => rfl
  | cons call calls ih =>
    intro table
    have hrows : callRows uuid5 keyText (call :: calls) =
        call.rows uuid5 keyText ++ callRows uuid5 keyText calls := List.flatMap_cons
    rw [List.foldl_cons, ih, hone, hrows, upsertAll_append]

/-- What is asked of the keys of records, and of the table that they key. -/
structure Separates (Agrees : Scoped α → Scoped α → Prop) (calls : List (Call α)) : Prop where
  keys : ∀ x ∈ ingested calls, ∀ y ∈ ingested calls,
    keyText x.1 x.2 = keyText y.1 y.2 ↔ Agrees x y
  /-- No record is dropped for one that does not agree with it. -/
  kept : ∀ x ∈ ingested calls, ∃ row ∈ persistAll uuid5 keyText calls, Agrees x row.scoped
  /-- A record that agrees with one that is there adds no row. -/
  once : (persistAll uuid5 keyText calls).Pairwise fun row row' => ¬ Agrees row.scoped row'.scoped

omit [DecidableEq ι] in
theorem mem_callRows {calls : List (Call α)} {row : Row ι α}
    (h : row ∈ callRows uuid5 keyText calls) :
    row.scoped ∈ ingested calls ∧ row.id = uuid5 (keyText row.scope row.record) := by
  obtain ⟨call, hcall, hrow⟩ := List.mem_flatMap.mp h
  obtain ⟨record, hrecord, rfl⟩ := List.mem_map.mp hrow
  exact ⟨List.mem_flatMap.mpr ⟨call, hcall, List.mem_map.mpr ⟨record, hrecord, rfl⟩⟩, rfl⟩

omit [DecidableEq ι] in
theorem exists_row_of_mem {calls : List (Call α)} {x : Scoped α} (h : x ∈ ingested calls) :
    ∃ row ∈ callRows uuid5 keyText calls, row.scoped = x := by
  obtain ⟨call, hcall, hx⟩ := List.mem_flatMap.mp h
  obtain ⟨record, hrecord, rfl⟩ := List.mem_map.mp hx
  exact ⟨_, List.mem_flatMap.mpr ⟨call, hcall, List.mem_map.mpr ⟨record, hrecord, rfl⟩⟩, rfl⟩

/-- If the key texts tell the records apart, so does the table. -/
theorem separates_of_keys (huuid5 : Function.Injective uuid5)
    {Agrees : Scoped α → Scoped α → Prop} {calls : List (Call α)}
    (h : ∀ x ∈ ingested calls, ∀ y ∈ ingested calls,
      keyText x.1 x.2 = keyText y.1 y.2 ↔ Agrees x y) : Separates uuid5 keyText Agrees calls := by
  have hstored : ∀ row ∈ persistAll uuid5 keyText calls, row ∈ callRows uuid5 keyText calls := by
    intro row hrow
    rw [persistAll_eq] at hrow
    simpa using mem_of_mem_upsertAll hrow
  refine ⟨h, ?_, ?_⟩
  · intro x hx
    obtain ⟨row, hrow, rfl⟩ := exists_row_of_mem uuid5 keyText hx
    have hholds : Holds (fun row => some row.id) (persistAll uuid5 keyText calls) row := by
      rw [persistAll_eq, holds_upsertAll]
      exact Or.inr (holds_of_mem hrow)
    obtain ⟨row', hrow', hid⟩ := hholds
    have hkey : uuid5 (keyText row.scope row.record) = uuid5 (keyText row'.scope row'.record) := by
      rw [← (mem_callRows uuid5 keyText hrow).2,
        ← (mem_callRows uuid5 keyText (hstored row' hrow')).2]
      exact (Sum.inl.inj hid).symm
    exact ⟨row', hrow', (h _ (mem_callRows uuid5 keyText hrow).1 _
      (mem_callRows uuid5 keyText (hstored row' hrow')).1).mp (huuid5 hkey)⟩
  · have hdistinct :
        (persistAll uuid5 keyText calls).Pairwise fun row row' => row.id ≠ row'.id := by
      rw [persistAll_eq]
      exact (pairwise_upsertAll List.Pairwise.nil _).imp fun hne heq => hne _ rfl (by rw [heq])
    refine hdistinct.imp_of_mem fun {row row'} hrow hrow' hne hagrees => hne ?_
    obtain ⟨hmem, hid⟩ := mem_callRows uuid5 keyText (hstored row hrow)
    obtain ⟨hmem', hid'⟩ := mem_callRows uuid5 keyText (hstored row' hrow')
    have hkey : keyText row.scope row.record = keyText row'.scope row'.record :=
      (h _ hmem _ hmem').mpr hagrees
    rw [hid, hid', hkey]

end Tables

/-! Records and their components. -/

/-- Two times, if there are two, are written in one offset. -/
def SameOffset (t t' : Option Datetime) : Prop := ∀ d ∈ t, ∀ e ∈ t', d.offset = e.offset

theorem eq_of_instants_eq {t t' : Option Datetime}
    (h : t.map Datetime.instant = t'.map Datetime.instant) (hoffset : SameOffset t t') :
    t = t' := by
  cases t with
  | none => exact (Option.map_eq_none_iff.mp h.symm).symm
  | some d =>
    cases t' with
    | none => cases h
    | some e => exact congrArg some (eq_of_instant_eq (Option.some.inj h) (hoffset d rfl e rfl))

section Components

variable {α : Type}

/-- How the key text of a kind of records is made, and what the records say. -/
structure Keying (α : Type) where
  keyText : String → α → String
  time : Scoped α → Option Datetime
  Agrees : Scoped α → Scoped α → Prop
  /-- No delimiter hides where a component ends, no component is like a missing one. -/
  Plain : Scoped α → Prop
  /-- Any other record is taken for one that it does not agree with. -/
  mistaken : ∀ x, ¬Plain x → ∃ y, keyText x.1 x.2 = keyText y.1 y.2 ∧ ¬Agrees x y
  /-- The key text is of what the record says, and of the offset of the time. -/
  key_iff : ∀ x y, Plain x → Plain y →
    (keyText x.1 x.2 = keyText y.1 y.2 ↔ Agrees x y ∧ time x = time y)
  instant_eq : ∀ x y, Agrees x y → (time x).map Datetime.instant = (time y).map Datetime.instant

variable (k : Keying α)

/-- The key texts tell plain records apart, except for one instant in two offsets. -/
theorem keyText_iff_agrees_iff {x y : Scoped α} (hx : k.Plain x) (hy : k.Plain y) :
    (k.keyText x.1 x.2 = k.keyText y.1 y.2 ↔ k.Agrees x y) ↔
      (k.Agrees x y → SameOffset (k.time x) (k.time y)) := by
  rw [k.key_iff x y hx hy]
  constructor
  · intro h hagrees d hd e he
    rw [(h.mpr hagrees).2] at hd
    rw [Option.mem_unique hd he]
  · exact fun h => ⟨And.left, fun hagrees =>
      ⟨hagrees, eq_of_instants_eq (k.instant_eq x y hagrees) (h hagrees)⟩⟩

theorem separates_iff_of_plain {ι : Type} [DecidableEq ι] {uuid5 : String → ι}
    (huuid5 : Function.Injective uuid5) {calls : List (Call α)}
    (hplain : ∀ x ∈ ingested calls, k.Plain x) :
    Separates uuid5 k.keyText k.Agrees calls ↔ ∀ x ∈ ingested calls, ∀ y ∈ ingested calls,
      k.Agrees x y → SameOffset (k.time x) (k.time y) := by
  constructor
  · intro h x hx y hy
    exact (keyText_iff_agrees_iff k (hplain x hx) (hplain y hy)).mp (h.keys x hx y hy)
  · intro h
    refine separates_of_keys uuid5 k.keyText huuid5 fun x hx y hy => ?_
    exact (keyText_iff_agrees_iff k (hplain x hx) (hplain y hy)).mpr (h x hx y hy)

end Components

/-! Spans and metric samples. -/

structure SpanAgrees (x y : Scoped ParsedSpan) : Prop where
  scope : x.1 = y.1
  traceId : x.2.traceId = y.2.traceId
  spanId : x.2.spanId = y.2.spanId
  instant : x.2.startTime.map Datetime.instant = y.2.startTime.map Datetime.instant
  service : x.2.service = y.2.service

/-- No delimiter stands in a component but the last, and none that is there is "None". -/
structure PlainSpan (x : Scoped ParsedSpan) : Prop where
  scope : Undelimited x.1
  traceId : ∀ s ∈ x.2.traceId, Undelimited s ∧ s ≠ "None"
  spanId : ∀ s ∈ x.2.spanId, Undelimited s ∧ s ≠ "None"
  service : NotNone x.2.service

/-- The components of a span that is not plain can be cut in another way. -/
theorem spanKey_mistaken (x : Scoped ParsedSpan) (h : ¬PlainSpan x) :
    ∃ y : Scoped ParsedSpan, spanKey x.1 x.2 = spanKey y.1 y.2 ∧ ¬SpanAgrees x y := by
  obtain ⟨scope, span⟩ := x
  by_contra hno
  have hsame : ∀ y : Scoped ParsedSpan, spanKey scope span = spanKey y.1 y.2 →
      SpanAgrees (scope, span) y :=
    fun y hkey => by_contra fun hne => hno ⟨y, hkey, hne⟩
  refine h ⟨?_, fun s (hs : span.traceId = some s) => ⟨?_, ?_⟩,
    fun s (hs : span.spanId = some s) => ⟨?_, ?_⟩, fun s (hs : span.service = some s) => ?_⟩
  · by_contra hs
    obtain ⟨a, b, rfl, hne, -⟩ := exists_joint hs
    have hagrees := hsame (a, { span with traceId := some (b ++ "|" ++ shown span.traceId) })
      (by simp [spanKey, shown, String.append_assoc])
    exact hne hagrees.scope.symm
  · by_contra hjoint
    obtain ⟨a, b, rfl, hne, -⟩ := exists_joint hjoint
    have hagrees := hsame (scope, { span with
        traceId := some a, spanId := some (b ++ "|" ++ shown span.spanId) })
      (by simp [spanKey, shown, hs, String.append_assoc])
    exact hne (Option.some.inj (hagrees.traceId.symm.trans hs))
  · rintro rfl
    have hagrees := hsame (scope, { span with traceId := none })
      (by simp [spanKey, shown, hs])
    cases hagrees.traceId.symm.trans hs
  · by_contra hjoint
    obtain ⟨a, b, rfl, -, hne⟩ := exists_joint hjoint
    have hagrees := hsame (scope, { span with
        traceId := some (shown span.traceId ++ "|" ++ a), spanId := some b })
      (by simp [spanKey, shown, hs, String.append_assoc])
    exact hne (Option.some.inj (hagrees.spanId.symm.trans hs))
  · rintro rfl
    have hagrees := hsame (scope, { span with spanId := none })
      (by simp [spanKey, shown, hs])
    cases hagrees.spanId.symm.trans hs
  · rintro rfl
    have hagrees := hsame (scope, { span with service := none })
      (by simp [spanKey, shown, hs])
    cases hagrees.service.symm.trans hs

theorem spanKey_eq (x : Scoped ParsedSpan) : spanKey x.1 x.2 =
    joined [some x.1, x.2.traceId, x.2.spanId, x.2.startTime.map Datetime.text, x.2.service] := by
  simp only [joined_cons, joined_singleton, spanKey, String.append_assoc]
  rfl

def spanKeying : Keying ParsedSpan where
  keyText := spanKey
  time x := x.2.startTime
  Agrees := SpanAgrees
  Plain := PlainSpan
  mistaken := spanKey_mistaken
  key_iff x y hx hy := by
    rw [spanKey_eq, spanKey_eq]
    constructor
    · intro h
      have hxscope : Undelimited (shown (some x.1)) := hx.scope
      have hyscope : Undelimited (shown (some y.1)) := hy.scope
      obtain ⟨hscope, h⟩ := joined_cons_inj hxscope hyscope h
      obtain ⟨htrace, h⟩ := joined_cons_inj (undelimited_shown fun s hs => (hx.traceId s hs).1)
        (undelimited_shown fun s hs => (hy.traceId s hs).1) h
      obtain ⟨hspan, h⟩ := joined_cons_inj (undelimited_shown fun s hs => (hx.spanId s hs).1)
        (undelimited_shown fun s hs => (hy.spanId s hs).1) h
      obtain ⟨htime, hservice⟩ := joined_cons_inj (undelimited_time _) (undelimited_time _) h
      rw [joined_singleton, joined_singleton] at hservice
      have htime := shown_text_inj htime
      refine ⟨{ scope := hscope, traceId := ?_, spanId := ?_, instant := by rw [htime],
                service := shown_inj hx.service hy.service hservice }, htime⟩
      · exact shown_inj (fun s hs => (hx.traceId s hs).2) (fun s hs => (hy.traceId s hs).2) htrace
      · exact shown_inj (fun s hs => (hx.spanId s hs).2) (fun s hs => (hy.spanId s hs).2) hspan
    · rintro ⟨h, htime⟩
      rw [h.scope, h.traceId, h.spanId, htime, h.service]
  instant_eq _ _ h := h.instant

section Samples

variable (ft : FloatText)

/-- The attributes of two samples are one dict, or both were not recorded. -/
def sameAttributes (a b : Option (List (String × Json))) : Prop :=
  a.map (fun fields => inKeyOrder (.obj fields)) = b.map (fun fields => inKeyOrder (.obj fields))

structure MetricAgrees (x y : Scoped ParsedMetricSample) : Prop where
  scope : x.1 = y.1
  service : x.2.service = y.2.service
  metric : x.2.metric = y.2.metric
  instant : x.2.ts.map Datetime.instant = y.2.ts.map Datetime.instant
  attributes : sameAttributes x.2.attributes y.2.attributes

/-- No delimiter stands in a component but the attributes, and the service is not "None". -/
structure PlainMetric (x : Scoped ParsedMetricSample) : Prop where
  scope : Undelimited x.1
  service : ∀ s ∈ x.2.service, Undelimited s ∧ s ≠ "None"
  metric : Undelimited x.2.metric

theorem metricKey_mistaken (x : Scoped ParsedMetricSample) (h : ¬PlainMetric x) :
    ∃ y : Scoped ParsedMetricSample,
      metricKey ft x.1 x.2 = metricKey ft y.1 y.2 ∧ ¬MetricAgrees x y := by
  obtain ⟨scope, sample⟩ := x
  by_contra hno
  have hsame : ∀ y : Scoped ParsedMetricSample, metricKey ft scope sample = metricKey ft y.1 y.2 →
      MetricAgrees (scope, sample) y :=
    fun y hkey => by_contra fun hne => hno ⟨y, hkey, hne⟩
  refine h ⟨?_, fun s (hs : sample.service = some s) => ⟨?_, ?_⟩, ?_⟩
  · by_contra hjoint
    obtain ⟨a, b, rfl, hne, -⟩ := exists_joint hjoint
    have hagrees := hsame (a, { sample with service := some (b ++ "|" ++ shown sample.service) })
      (by simp [metricKey, shown, String.append_assoc])
    exact hne hagrees.scope.symm
  · by_contra hjoint
    obtain ⟨a, b, rfl, hne, -⟩ := exists_joint hjoint
    have hagrees := hsame (scope, { sample with
        service := some a, metric := b ++ "|" ++ sample.metric })
      (by simp [metricKey, shown, hs, String.append_assoc])
    exact hne (Option.some.inj (hagrees.service.symm.trans hs))
  · rintro rfl
    have hagrees := hsame (scope, { sample with service := none })
      (by simp [metricKey, shown, hs])
    cases hagrees.service.symm.trans hs
  · by_contra hjoint
    obtain ⟨a, b, htext, -, hne⟩ := exists_joint hjoint
    have htext : sample.metric = a ++ "|" ++ b := htext
    have hagrees := hsame (scope, { sample with
        service := some (shown sample.service ++ "|" ++ a), metric := b })
      (by simp [metricKey, shown, htext, String.append_assoc])
    exact hne hagrees.metric.symm

def attributesComponent (a : Option (List (String × Json))) : List (Option String) :=
  (a.map fun fields => some (dumps ft (.obj fields))).toList

theorem attributesComponent_eq_iff {a b : Option (List (String × Json))} :
    attributesComponent ft a = attributesComponent ft b ↔ sameAttributes a b := by
  cases a <;> cases b <;> simp [attributesComponent, sameAttributes, dumps_inj_iff]

theorem metricKey_eq (x : Scoped ParsedMetricSample) :
    metricKey ft x.1 x.2 = joined (some x.1 :: x.2.service :: some x.2.metric ::
      x.2.ts.map Datetime.text :: attributesComponent ft x.2.attributes) := by
  rw [metricKey]
  cases x.2.attributes with
  | none =>
    simp only [attributesComponent, Option.map_none, Option.toList_none, joined_cons,
      joined_singleton, String.append_assoc, String.append_empty]
    rfl
  | some fields =>
    simp only [attributesComponent, Option.map_some, Option.toList_some, joined_cons,
      joined_singleton, String.append_assoc]
    rfl

/-- The time and the attributes that a key text ends with can be read. -/
theorem joined_time_attributes {t t' : Option Datetime} {a b : Option (List (String × Json))}
    (h : joined (t.map Datetime.text :: attributesComponent ft a) =
      joined (t'.map Datetime.text :: attributesComponent ft b)) :
    t = t' ∧ attributesComponent ft a = attributesComponent ft b := by
  cases a with
  | none =>
    cases b with
    | none => exact ⟨shown_text_inj (by simpa [attributesComponent, joined_singleton] using h), rfl⟩
    | some fields =>
      refine absurd (undelimited_time t) ?_
      rw [← joined_singleton]
      exact h ▸ not_undelimited_joined _ _ _
  | some fields =>
    cases b with
    | none =>
      refine absurd (undelimited_time t') ?_
      rw [← joined_singleton]
      exact h ▸ not_undelimited_joined _ _ _
    | some fields' =>
      obtain ⟨htime, hattributes⟩ := joined_cons_inj (undelimited_time _) (undelimited_time _) h
      rw [joined_singleton, joined_singleton] at hattributes
      refine ⟨shown_text_inj htime, ?_⟩
      exact congrArg (fun s => [some s]) hattributes

def metricKeying : Keying ParsedMetricSample where
  keyText := metricKey ft
  time x := x.2.ts
  Agrees := MetricAgrees
  Plain := PlainMetric
  mistaken := metricKey_mistaken ft
  key_iff x y hx hy := by
    rw [metricKey_eq, metricKey_eq]
    constructor
    · intro h
      have hxscope : Undelimited (shown (some x.1)) := hx.scope
      have hyscope : Undelimited (shown (some y.1)) := hy.scope
      obtain ⟨hscope, h⟩ := joined_cons_inj hxscope hyscope h
      obtain ⟨hservice, h⟩ := joined_cons_inj (undelimited_shown fun s hs => (hx.service s hs).1)
        (undelimited_shown fun s hs => (hy.service s hs).1) h
      have hxmetric : Undelimited (shown (some x.2.metric)) := hx.metric
      have hymetric : Undelimited (shown (some y.2.metric)) := hy.metric
      obtain ⟨hmetric, h⟩ := joined_cons_inj hxmetric hymetric h
      obtain ⟨htime, hattributes⟩ := joined_time_attributes ft h
      refine ⟨{ scope := hscope, service := ?_, metric := hmetric, instant := by rw [htime],
                attributes := (attributesComponent_eq_iff ft).mp hattributes }, htime⟩
      exact shown_inj (fun s hs => (hx.service s hs).2) (fun s hs => (hy.service s hs).2) hservice
    · rintro ⟨h, htime⟩
      rw [h.scope, h.service, h.metric, htime, (attributesComponent_eq_iff ft).mpr h.attributes]
  instant_eq _ _ h := h.instant

/-- The keys of plain spans and samples tell them apart and nothing is lost or doubled in
the tables, exactly where no instant comes in two offsets. Any other span or sample is
taken for one that it does not agree with. -/
theorem telemetry_keys_iff {ι : Type} [DecidableEq ι] (uuid5 : String → ι)
    (huuid5 : Function.Injective uuid5) :
    (∀ x y, PlainSpan x → PlainSpan y → ((spanKey x.1 x.2 = spanKey y.1 y.2 ↔ SpanAgrees x y) ↔
      (SpanAgrees x y → SameOffset x.2.startTime y.2.startTime))) ∧
    (∀ x, ¬PlainSpan x → ∃ y : Scoped ParsedSpan,
      spanKey x.1 x.2 = spanKey y.1 y.2 ∧ ¬SpanAgrees x y) ∧
    (∀ x y, PlainMetric x → PlainMetric y →
      ((metricKey ft x.1 x.2 = metricKey ft y.1 y.2 ↔ MetricAgrees x y) ↔
        (MetricAgrees x y → SameOffset x.2.ts y.2.ts))) ∧
    (∀ x, ¬PlainMetric x → ∃ y : Scoped ParsedMetricSample,
      metricKey ft x.1 x.2 = metricKey ft y.1 y.2 ∧ ¬MetricAgrees x y) ∧
    (∀ calls, (∀ x ∈ ingested calls, PlainSpan x) →
      (Separates uuid5 spanKey SpanAgrees calls ↔ ∀ x ∈ ingested calls, ∀ y ∈ ingested calls,
        SpanAgrees x y → SameOffset x.2.startTime y.2.startTime)) ∧
    (∀ calls, (∀ x ∈ ingested calls, PlainMetric x) →
      (Separates uuid5 (metricKey ft) MetricAgrees calls ↔ ∀ x ∈ ingested calls,
        ∀ y ∈ ingested calls, MetricAgrees x y → SameOffset x.2.ts y.2.ts)) :=
  ⟨fun _ _ => keyText_iff_agrees_iff spanKeying, spanKey_mistaken,
    fun _ _ => keyText_iff_agrees_iff (metricKeying ft), metricKey_mistaken ft,
    fun _ => separates_iff_of_plain spanKeying huuid5,
    fun _ => separates_iff_of_plain (metricKeying ft) huuid5⟩

end Samples

/-- Floats written as their numerator and denominator. -/
def ratioText : FloatText where
  repr x := String.ofList (intText x.num ++ '.' :: Nat.toDigits 10 x.den)
  injective x y h := by
    have hpoint : ∀ n, ∀ c ∈ intText n, (c != '.') = true := by
      intro n c hc
      rcases intText_chars n c hc with hdigit | rfl
      · rw [bne_iff_ne]
        rintro rfl
        exact absurd hdigit (by decide)
      · rfl
    obtain ⟨hnum, hden⟩ := span_unique (String.ofList_injective h) (hpoint _) (hpoint _)
      (by simp) (by simp)
    exact Rat.ext (intText_inj hnum) (toDigits_inj (List.cons.inj hden).2)
  numeral x c hc := by
    rw [String.toList_ofList, List.mem_append, List.mem_cons] at hc
    rcases hc with hc | rfl | hc
    · exact isNumeral_intText _ c hc
    · rfl
    · simp [isNumeral, Nat.isDigit_of_mem_toDigits (by decide) (by decide) hc]
  marked x := ⟨'.', by simp, Or.inl rfl⟩

/-- Two spans of one trace. -/
def sampleSpan (spanId : String) : ParsedSpan :=
  ⟨some "trace-1", some spanId, none, some "checkout", none, none, none, none, none⟩

/-- A trace of which one span is exported twice. -/
def sampleCalls : List (Call ParsedSpan) :=
  [⟨"", none, [sampleSpan "a", sampleSpan "b"]⟩, ⟨"default", none, [sampleSpan "a"]⟩]

/-- The spans of the trace are two rows. -/
theorem telemetry_keys_of_trace : Separates id spanKey SpanAgrees sampleCalls := by
  have hingested : ingested sampleCalls = [("default", sampleSpan "a"),
      ("default", sampleSpan "b"), ("default", sampleSpan "a")] := rfl
  have hplain : ∀ id ∈ ["a", "b"], PlainSpan ("default", sampleSpan id) := by
    intro id hid
    have hfree : ∀ s ∈ ["default", "trace-1", "a", "b", "checkout"],
        Undelimited s ∧ s ≠ "None" := by
      unfold Undelimited
      decide
    refine ⟨(hfree "default" (by simp)).1, ?_, ?_, ?_⟩
    · rintro s ⟨⟩
      exact hfree _ (by simp)
    · rintro s ⟨⟩
      rcases List.mem_pair.mp hid with rfl | rfl <;> exact hfree _ (by simp)
    · rintro s ⟨⟩
      exact (hfree _ (by simp)).2
  refine ((telemetry_keys_iff ratioText id Function.injective_id).2.2.2.2.1 _ ?_).mpr ?_
  · rw [hingested]
    intro x hx
    simp only [List.mem_cons, List.not_mem_nil, or_false] at hx
    rcases hx with rfl | rfl | rfl <;> exact hplain _ (by simp)
  · rw [hingested]
    intro x hx y hy hagrees d hd
    simp only [List.mem_cons, List.not_mem_nil, or_false] at hx
    rcases hx with rfl | rfl | rfl <;> cases hd

/-- A sample of a metric and service. -/
def sampleMetric (service metric : String) : ParsedMetricSample :=
  ⟨some service, metric, none, none, none, none⟩

/-- A delimiter in a name makes two samples one. -/
theorem metricKey_not_separating :
    ¬ ∀ (ft : FloatText) (x y : Scoped ParsedMetricSample),
      metricKey ft x.1 x.2 = metricKey ft y.1 y.2 ↔ MetricAgrees x y := by
  intro h
  have hkey : metricKey ratioText "default" (sampleMetric "db|cpu" "load") =
      metricKey ratioText "default" (sampleMetric "db" "cpu|load") := by
    decide +kernel
  have hagrees := (h ratioText ("default", sampleMetric "db|cpu" "load")
    ("default", sampleMetric "db" "cpu|load")).mp hkey
  exact absurd hagrees.metric (by decide)

end Raglogs.TelemetryKeyLaws
