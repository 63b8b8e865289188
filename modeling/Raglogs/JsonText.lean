import Raglogs.Collections
import Raglogs.Encodings
import Raglogs.LogEntries

/-!
The text of a JSON value as the language's own library writes it with sorted keys:
everything that is not printable ASCII is escaped, and members are in the order of
their keys.
-/

namespace Raglogs.JsonText

open Collections LogEntries

/-- A character of the text of a number. -/
def isNumeral (c : Char) : Bool := c.isDigit || ['-', '+', '.', 'e'].contains c

/-- The texts of floats, which read back as the floats they are of and are no integers. -/
structure FloatText where
  repr : ℚ → String
  injective : ∀ x y, repr x = repr y → x = y
  numeral : ∀ x, ∀ c ∈ (repr x).toList, isNumeral c = true
  marked : ∀ x, ∃ c ∈ (repr x).toList, c = '.' ∨ c = 'e'

mutual

/-- The value with all its members in the order of their keys. -/
def inKeyOrder : Json → Json
  | .arr items => .arr (itemsInKeyOrder items)
  | .obj fields => .obj (sortOn Prod.fst (fieldsInKeyOrder fields))
  | value => value

def itemsInKeyOrder : List Json → List Json
  | [] => []
  | value :: rest => inKeyOrder value :: itemsInKeyOrder rest

def fieldsInKeyOrder : List (String × Json) → List (String × Json)
  | [] => []
  | (key, value) :: rest => (key, inKeyOrder value) :: fieldsInKeyOrder rest

end

/-- Four hexadecimal digits. -/
def hex (n : ℕ) : List Char := Encodings.padded 16 4 n

def escapeUnit (n : ℕ) : List Char := '\\' :: 'u' :: hex n

/-- A character in a string. Beyond the first plane it is written as two halves. -/
def escape (c : Char) : List Char :=
  if c = '"' then ['\\', '"']
  else if c = '\\' then ['\\', '\\']
  else if c = '\n' then ['\\', 'n']
  else if c = '\r' then ['\\', 'r']
  else if c = '\t' then ['\\', 't']
  else if c = '\x0c' then ['\\', 'f']
  else if c = '\x08' then ['\\', 'b']
  else if 32 ≤ c.toNat ∧ c.toNat ≤ 126 then [c]
  else if c.toNat < 0x10000 then escapeUnit c.toNat
  else
    escapeUnit (0xd800 + (c.toNat - 0x10000) / 0x400) ++
      escapeUnit (0xdc00 + (c.toNat - 0x10000) % 0x400)

/-- The rest of a string, with its closing quote. -/
def quotedRest : List Char → List Char
  | [] => ['"']
  | c :: rest => escape c ++ quotedRest rest

def quoted (s : String) : List Char := '"' :: quotedRest s.toList

def intText (n : ℤ) : List Char :=
  if n < 0 then '-' :: Nat.toDigits 10 n.natAbs else Nat.toDigits 10 n.natAbs

section Texts

variable (ft : FloatText)

mutual

def valueText : Json → List Char
  | .null => "null".toList
  | .bool true => "true".toList
  | .bool false => "false".toList
  | .int n => intText n
  | .float x => (ft.repr x).toList
  | .str s => quoted s
  | .arr [] => ['[', ']']
  | .arr (value :: rest) => '[' :: (valueText value ++ itemsText rest)
  | .obj [] => ['{', '}']
  | .obj ((key, value) :: rest) =>
      '{' :: (quoted key ++ ':' :: ' ' :: (valueText value ++ fieldsText rest))

/-- The other items of an array. -/
def itemsText : List Json → List Char
  | [] => [']']
  | value :: rest => ',' :: ' ' :: (valueText value ++ itemsText rest)

/-- The other members of an object. -/
def fieldsText : List (String × Json) → List Char
  | [] => ['}']
  | (key, value) :: rest =>
      ',' :: ' ' :: (quoted key ++ ':' :: ' ' :: (valueText value ++ fieldsText rest))

end

/-- The text of a value with sorted keys. -/
def dumps (value : Json) : String := String.ofList (valueText ft (inKeyOrder value))

end Texts

/-! Strings read back. -/

/-- The letters that stand for a character behind a backslash. -/
def shortEscapes : List (Char × Char) :=
  [('"', '"'), ('\\', '\\'), ('n', '\n'), ('r', '\r'), ('t', '\t'), ('f', '\x0c'), ('b', '\x08')]

theorem escape_cases (c : Char) :
    (escape c = [c] ∧ c ≠ '\\' ∧ c ≠ '"') ∨
    (∃ x, escape c = ['\\', x] ∧ (x, c) ∈ shortEscapes) ∨
    (escape c = escapeUnit c.toNat ∧ c.toNat < 0x10000) ∨
    (escape c = escapeUnit (0xd800 + (c.toNat - 0x10000) / 0x400) ++
      escapeUnit (0xdc00 + (c.toNat - 0x10000) % 0x400) ∧ 0x10000 ≤ c.toNat) := by
  rw [escape]
  split
  · exact Or.inr (Or.inl ⟨'"', rfl, by simp_all [shortEscapes]⟩)
  split
  · exact Or.inr (Or.inl ⟨'\\', rfl, by simp_all [shortEscapes]⟩)
  split
  · exact Or.inr (Or.inl ⟨'n', rfl, by simp_all [shortEscapes]⟩)
  split
  · exact Or.inr (Or.inl ⟨'r', rfl, by simp_all [shortEscapes]⟩)
  split
  · exact Or.inr (Or.inl ⟨'t', rfl, by simp_all [shortEscapes]⟩)
  split
  · exact Or.inr (Or.inl ⟨'f', rfl, by simp_all [shortEscapes]⟩)
  split
  · exact Or.inr (Or.inl ⟨'b', rfl, by simp_all [shortEscapes]⟩)
  split
  · exact Or.inl ⟨rfl, by assumption, by assumption⟩
  split
  · exact Or.inr (Or.inr (Or.inl ⟨rfl, by assumption⟩))
  · exact Or.inr (Or.inr (Or.inr ⟨rfl, by omega⟩))

theorem char_bounds (c : Char) :
    c.toNat < 0xd800 ∨ (0xdfff < c.toNat ∧ c.toNat < 0x110000) := c.valid

theorem char_eq_of_toNat {a b : Char} (h : a.toNat = b.toNat) : a = b := Char.toNat_inj.mp h

theorem hex_append_inj {m n : ℕ} (hm : m < 0x10000) (hn : n < 0x10000) {r s : List Char}
    (h : hex m ++ r = hex n ++ s) : m = n ∧ r = s :=
  Encodings.padded_append_inj (by decide) (by decide) (by omega) (by omega) h

theorem escapeUnit_append_inj {m n : ℕ} (hm : m < 0x10000) (hn : n < 0x10000) {r s : List Char}
    (h : escapeUnit m ++ r = escapeUnit n ++ s) : m = n ∧ r = s := by
  simp only [escapeUnit, List.cons_append, List.cons.injEq, true_and] at h
  exact hex_append_inj hm hn h

theorem shortEscapes_spec : (∀ x ∈ shortEscapes, x.1 ≠ 'u') ∧
    ∀ x ∈ shortEscapes, ∀ y ∈ shortEscapes, x.1 = y.1 → x.2 = y.2 := by
  decide

theorem escape_append_inj {a b : Char} {r s : List Char} (h : escape a ++ r = escape b ++ s) :
    a = b ∧ r = s := by
  have ha := char_bounds a
  have hb := char_bounds b
  rcases escape_cases a with ⟨hea, ha', -⟩ | ⟨x, hea, hx⟩ | ⟨hea, ha'⟩ | ⟨hea, ha'⟩ <;>
    rcases escape_cases b with ⟨heb, hb', -⟩ | ⟨y, heb, hy⟩ | ⟨heb, hb'⟩ | ⟨heb, hb'⟩ <;>
    rw [hea, heb] at h
  -- a plain character begins with no backslash, and a letter behind one is no number's
  all_goals try
    simp only [escapeUnit, List.cons_append, List.nil_append, List.cons.injEq] at h
    exact absurd h.1 (by first | assumption | exact Ne.symm ‹_›)
  all_goals try
    simp only [escapeUnit, List.cons_append, List.nil_append, List.cons.injEq, true_and] at h
    exact absurd h.1 (shortEscapes_spec.1 _ ‹_›)
  all_goals try
    simp only [escapeUnit, List.cons_append, List.nil_append, List.cons.injEq, true_and] at h
    exact absurd h.1.symm (shortEscapes_spec.1 _ ‹_›)
  · simpa using h
  · simp only [List.cons_append, List.nil_append, List.cons.injEq, true_and] at h
    exact ⟨shortEscapes_spec.2 _ hx _ hy h.1, h.2⟩
  · obtain ⟨hn, hr⟩ := escapeUnit_append_inj ha' hb' h
    exact ⟨char_eq_of_toNat hn, hr⟩
  · -- the first half of a pair is no character
    rw [List.append_assoc] at h
    obtain ⟨hn, -⟩ := escapeUnit_append_inj ha' (by omega) h
    omega
  · rw [List.append_assoc] at h
    obtain ⟨hn, -⟩ := escapeUnit_append_inj (by omega) hb' h
    omega
  · rw [List.append_assoc, List.append_assoc] at h
    obtain ⟨hhigh, h⟩ := escapeUnit_append_inj (by omega) (by omega) h
    obtain ⟨hlow, hr⟩ := escapeUnit_append_inj (by omega) (by omega) h
    exact ⟨char_eq_of_toNat (by omega), hr⟩

theorem escape_head (c : Char) : ∃ x rest, escape c = x :: rest ∧ x ≠ '"' := by
  rcases escape_cases c with ⟨he, -, hc⟩ | ⟨x, he, -⟩ | ⟨he, -⟩ | ⟨he, -⟩
  · exact ⟨c, [], he, hc⟩
  · exact ⟨_, _, he, by decide⟩
  · exact ⟨_, _, he, by decide⟩
  · exact ⟨_, _, he, by decide⟩

theorem quotedRest_append_inj {u v r s : List Char} (h : quotedRest u ++ r = quotedRest v ++ s) :
    u = v ∧ r = s := by
  induction u generalizing v with
  | nil =>
    cases v with
    | nil => exact ⟨rfl, (List.cons.inj h).2⟩
    | cons b v =>
      obtain ⟨x, rest, hx, hne⟩ := escape_head b
      rw [quotedRest, quotedRest, hx] at h
      exact absurd (List.cons.inj h).1.symm hne
  | cons a u ih =>
    cases v with
    | nil =>
      obtain ⟨x, rest, hx, hne⟩ := escape_head a
      rw [quotedRest, quotedRest, hx] at h
      exact absurd (List.cons.inj h).1 hne
    | cons b v =>
      rw [quotedRest, quotedRest, List.append_assoc, List.append_assoc] at h
      obtain ⟨rfl, hrest⟩ := escape_append_inj h
      obtain ⟨rfl, hr⟩ := ih hrest
      exact ⟨rfl, hr⟩

theorem quoted_append_inj {s t : String} {r r' : List Char} (h : quoted s ++ r = quoted t ++ r') :
    s = t ∧ r = r' := by
  obtain ⟨hlist, hr⟩ := quotedRest_append_inj (List.cons.inj h).2
  exact ⟨String.toList_inj.mp hlist, hr⟩

/-! Numbers read back. -/

theorem intText_chars (n : ℤ) : ∀ c ∈ intText n, c.isDigit = true ∨ c = '-' := by
  have hdigits : ∀ c ∈ Nat.toDigits 10 n.natAbs, c.isDigit = true :=
    fun c hc => Nat.isDigit_of_mem_toDigits (by decide) (by decide) hc
  intro c hc
  rw [intText] at hc
  split at hc
  · rcases List.mem_cons.mp hc with rfl | hc
    · exact Or.inr rfl
    · exact Or.inl (hdigits c hc)
  · exact Or.inl (hdigits c hc)

theorem isNumeral_intText (n : ℤ) : ∀ c ∈ intText n, isNumeral c = true := by
  intro c hc
  rcases intText_chars n c hc with h | rfl
  · simp [isNumeral, h]
  · decide

theorem intText_ne_nil (n : ℤ) : intText n ≠ [] := by
  rw [intText]
  split
  · simp
  · exact Nat.toDigits_ne_nil

theorem intText_inj {m n : ℤ} (h : intText m = intText n) : m = n := by
  have hminus : ∀ k : ℕ, '-' ∉ Nat.toDigits 10 k := fun k hk =>
    absurd (Nat.isDigit_of_mem_toDigits (by decide) (by decide) hk) (by decide)
  rw [intText, intText] at h
  split at h <;> split at h
  · have habs := Encodings.toDigits_inj (List.cons.inj h).2
    omega
  · exact absurd (h ▸ List.mem_cons_self) (hminus _)
  · exact absurd (h ▸ List.mem_cons_self) (hminus _)
  · have habs := Encodings.toDigits_inj h
    omega

/-! Values read back. -/

section Values

variable (ft : FloatText)

/-- What the first character of a value says of it. -/
def kindOf (c : Char) : Char := if isNumeral c then '0' else c

def kind : Json → Char
  | .null => 'n'
  | .bool true => 't'
  | .bool false => 'f'
  | .int _ => '0'
  | .float _ => '0'
  | .str _ => '"'
  | .arr _ => '['
  | .obj _ => '{'

theorem kindOf_head {w : List Char} (hne : w ≠ []) (h : ∀ c ∈ w, isNumeral c = true) :
    ∃ c rest, w = c :: rest ∧ kindOf c = '0' := by
  obtain ⟨c, rest, rfl⟩ := List.exists_cons_of_ne_nil hne
  exact ⟨c, rest, rfl, by rw [kindOf, if_pos (h c List.mem_cons_self)]⟩

theorem valueText_head (v : Json) : ∃ c rest, valueText ft v = c :: rest ∧ kindOf c = kind v := by
  match v with
  | .null => exact ⟨'n', _, rfl, by decide⟩
  | .bool true => exact ⟨'t', _, rfl, by decide⟩
  | .bool false => exact ⟨'f', _, rfl, by decide⟩
  | .int n =>
    rw [valueText]
    exact kindOf_head (intText_ne_nil n) (isNumeral_intText n)
  | .float x =>
    obtain ⟨c, hc, -⟩ := ft.marked x
    rw [valueText]
    exact kindOf_head (List.ne_nil_of_mem hc) (ft.numeral x)
  | .str s => exact ⟨'"', _, by rw [valueText, quoted], rfl⟩
  | .arr [] => exact ⟨'[', _, by rw [valueText], by decide⟩
  | .arr (_ :: _) => exact ⟨'[', _, by rw [valueText], rfl⟩
  | .obj [] => exact ⟨'{', _, by rw [valueText], by decide⟩
  | .obj ((_, _) :: _) => exact ⟨'{', _, by rw [valueText], rfl⟩

theorem kind_eq {v w : Json} {r s : List Char}
    (h : valueText ft v ++ r = valueText ft w ++ s) : kind v = kind w := by
  obtain ⟨c, rest, hv, hc⟩ := valueText_head ft v
  obtain ⟨d, rest', hw, hd⟩ := valueText_head ft w
  rw [hv, hw] at h
  rw [← hc, ← hd, (List.cons.inj h).1]

/-- No value begins with a bracket that closes. -/
theorem valueText_ne_cons {v : Json} {c : Char} (hc : c = ']' ∨ c = '}') {r s : List Char} :
    valueText ft v ++ r ≠ c :: s := by
  obtain ⟨d, rest, hv, hd⟩ := valueText_head ft v
  rw [hv]
  intro h
  have hkind : kindOf c = kind v := (List.cons.inj h).1 ▸ hd
  have hne : kind v ≠ ']' ∧ kind v ≠ '}' := by
    match v with
    | .null | .bool true | .bool false | .int _ | .float _ | .str _ | .arr _ | .obj _ =>
      exact ⟨by simp [kind], by simp [kind]⟩
  rcases hc with rfl | rfl
  · exact hne.1 hkind.symm
  · exact hne.2 hkind.symm

/-- A value ends where no number goes on. -/
def Ended (r : List Char) : Prop := ∀ c ∈ r.head?, isNumeral c = false

theorem ended_itemsText (l : List Json) (r : List Char) : Ended (itemsText ft l ++ r) := by
  cases l with
  | nil =>
    rw [itemsText]
    rintro c ⟨⟩
    decide
  | cons v l =>
    rw [itemsText]
    rintro c ⟨⟩
    decide

theorem ended_fieldsText (l : List (String × Json)) (r : List Char) :
    Ended (fieldsText ft l ++ r) := by
  match l with
  | [] =>
    rw [fieldsText]
    rintro c ⟨⟩
    decide
  | (key, v) :: l =>
    rw [fieldsText]
    rintro c ⟨⟩
    decide

theorem int_append_inj {m n : ℤ} {r s : List Char} (hr : Ended r) (hs : Ended s)
    (h : intText m ++ r = intText n ++ s) : m = n ∧ r = s := by
  obtain ⟨htext, hrest⟩ := Encodings.span_unique h (isNumeral_intText m) (isNumeral_intText n) hr hs
  exact ⟨intText_inj htext, hrest⟩

theorem float_append_inj {x y : ℚ} {r s : List Char} (hr : Ended r) (hs : Ended s)
    (h : (ft.repr x).toList ++ r = (ft.repr y).toList ++ s) : x = y ∧ r = s := by
  obtain ⟨htext, hrest⟩ := Encodings.span_unique h (ft.numeral x) (ft.numeral y) hr hs
  exact ⟨ft.injective x y (String.toList_inj.mp htext), hrest⟩

/-- A float is marked as one. -/
theorem int_append_ne_float {n : ℤ} {x : ℚ} {r s : List Char} (hr : Ended r) (hs : Ended s) :
    intText n ++ r ≠ (ft.repr x).toList ++ s := by
  intro h
  obtain ⟨htext, -⟩ := Encodings.span_unique h (isNumeral_intText n) (ft.numeral x) hr hs
  obtain ⟨c, hc, hmark⟩ := ft.marked x
  rcases intText_chars n c (htext ▸ hc) with hdigit | rfl
  · rcases hmark with rfl | rfl
    · exact absurd hdigit (by decide)
    · exact absurd hdigit (by decide)
  · rcases hmark with h | h <;> exact absurd h (by decide)

mutual

/-- A value reads back off the front of a text. -/
theorem value_append_inj (v w : Json) {r s : List Char} (hr : Ended r) (hs : Ended s)
    (h : valueText ft v ++ r = valueText ft w ++ s) : v = w ∧ r = s := by
  have hkind := kind_eq ft h
  match v, w with
  | .null, .null => exact ⟨rfl, List.append_cancel_left h⟩
  | .bool true, .bool true => exact ⟨rfl, List.append_cancel_left h⟩
  | .bool false, .bool false => exact ⟨rfl, List.append_cancel_left h⟩
  | .int m, .int n =>
    rw [valueText, valueText] at h
    obtain ⟨rfl, hrest⟩ := int_append_inj hr hs h
    exact ⟨rfl, hrest⟩
  | .int m, .float y =>
    rw [valueText, valueText] at h
    exact absurd h (int_append_ne_float ft hr hs)
  | .float x, .int n =>
    rw [valueText, valueText] at h
    exact absurd h.symm (int_append_ne_float ft hs hr)
  | .float x, .float y =>
    rw [valueText, valueText] at h
    obtain ⟨rfl, hrest⟩ := float_append_inj ft hr hs h
    exact ⟨rfl, hrest⟩
  | .str x, .str y =>
    rw [valueText, valueText] at h
    obtain ⟨rfl, hrest⟩ := quoted_append_inj h
    exact ⟨rfl, hrest⟩
  | .arr [], .arr [] => exact ⟨rfl, List.append_cancel_left h⟩
  | .arr [], .arr (w :: l') =>
    rw [valueText, valueText] at h
    simp only [List.cons_append, List.nil_append, List.cons.injEq, true_and, List.append_assoc] at h
    exact absurd h.symm (valueText_ne_cons ft (Or.inl rfl))
  | .arr (v :: l), .arr [] =>
    rw [valueText, valueText] at h
    simp only [List.cons_append, List.nil_append, List.cons.injEq, true_and, List.append_assoc] at h
    exact absurd h (valueText_ne_cons ft (Or.inl rfl))
  | .arr (v :: l), .arr (w :: l') =>
    rw [valueText, valueText] at h
    simp only [List.cons_append, List.cons.injEq, true_and, List.append_assoc] at h
    obtain ⟨rfl, hitems⟩ :=
      value_append_inj v w (ended_itemsText ft l r) (ended_itemsText ft l' s) h
    obtain ⟨rfl, hrest⟩ := items_append_inj l l' hitems
    exact ⟨rfl, hrest⟩
  | .obj [], .obj [] => exact ⟨rfl, List.append_cancel_left h⟩
  | .obj [], .obj ((key, w) :: l') =>
    rw [valueText, valueText, quoted] at h
    exact absurd (List.cons.inj (List.cons.inj h).2).1 (by decide)
  | .obj ((key, v) :: l), .obj [] =>
    rw [valueText, valueText, quoted] at h
    exact absurd (List.cons.inj (List.cons.inj h).2).1 (by decide)
  | .obj ((key, v) :: l), .obj ((key', w) :: l') =>
    rw [valueText, valueText] at h
    simp only [List.cons_append, List.cons.injEq, true_and, List.append_assoc] at h
    obtain ⟨rfl, hvalue⟩ := quoted_append_inj h
    simp only [List.cons.injEq, true_and] at hvalue
    obtain ⟨rfl, hfields⟩ :=
      value_append_inj v w (ended_fieldsText ft l r) (ended_fieldsText ft l' s) hvalue
    obtain ⟨rfl, hrest⟩ := fields_append_inj l l' hfields
    exact ⟨rfl, hrest⟩

theorem items_append_inj (l l' : List Json) {r s : List Char}
    (h : itemsText ft l ++ r = itemsText ft l' ++ s) : l = l' ∧ r = s := by
  match l, l' with
  | [], [] => exact ⟨rfl, List.append_cancel_left h⟩
  | [], w :: l' =>
    rw [itemsText, itemsText] at h
    exact absurd (List.cons.inj h).1 (by decide)
  | v :: l, [] =>
    rw [itemsText, itemsText] at h
    exact absurd (List.cons.inj h).1 (by decide)
  | v :: l, w :: l' =>
    rw [itemsText, itemsText] at h
    simp only [List.cons_append, List.cons.injEq, true_and, List.append_assoc] at h
    obtain ⟨rfl, hitems⟩ :=
      value_append_inj v w (ended_itemsText ft l r) (ended_itemsText ft l' s) h
    obtain ⟨rfl, hrest⟩ := items_append_inj l l' hitems
    exact ⟨rfl, hrest⟩

theorem fields_append_inj (l l' : List (String × Json)) {r s : List Char}
    (h : fieldsText ft l ++ r = fieldsText ft l' ++ s) : l = l' ∧ r = s := by
  match l, l' with
  | [], [] => exact ⟨rfl, List.append_cancel_left h⟩
  | [], (key', w) :: l' =>
    rw [fieldsText, fieldsText] at h
    exact absurd (List.cons.inj h).1 (by decide)
  | (key, v) :: l, [] =>
    rw [fieldsText, fieldsText] at h
    exact absurd (List.cons.inj h).1 (by decide)
  | (key, v) :: l, (key', w) :: l' =>
    rw [fieldsText, fieldsText] at h
    simp only [List.cons_append, List.cons.injEq, true_and, List.append_assoc] at h
    obtain ⟨rfl, hvalue⟩ := quoted_append_inj h
    simp only [List.cons.injEq, true_and] at hvalue
    obtain ⟨rfl, hfields⟩ :=
      value_append_inj v w (ended_fieldsText ft l r) (ended_fieldsText ft l' s) hvalue
    obtain ⟨rfl, hrest⟩ := fields_append_inj l l' hfields
    exact ⟨rfl, hrest⟩

end

/-- The text tells the value, but for the order in which its members were given. -/
theorem dumps_inj_iff {v w : Json} : dumps ft v = dumps ft w ↔ inKeyOrder v = inKeyOrder w := by
  have hend : Ended [] := fun c hc => by cases hc
  constructor
  · intro h
    have htext : valueText ft (inKeyOrder v) ++ [] = valueText ft (inKeyOrder w) ++ [] := by
      rw [List.append_nil, List.append_nil]
      exact String.ofList_injective h
    exact (value_append_inj ft _ _ hend hend htext).1
  · intro h
    rw [dumps, dumps, h]

end Values

end Raglogs.JsonText
