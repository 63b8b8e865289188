import Raglogs.Paging
import Raglogs.Stripping
import Raglogs.TailCoverage

/-!
Reading by pages loses nothing, and where it clears the resume cursor a tail job goes on
to its next window. The token-based reads always clear it in the end. The time-based
read does not look again when its last page was full and ended with the window.
-/

namespace Raglogs.PagingLaws

open Dicts Durations Ingestion LogEntries PagedReads Paging Stripping Tailing TailCoverage Text

/-! Resume cursors that are instants. -/

theorem digitValue_of_isDigit {c : Char} (h : c.isDigit = true) :
    digitValue c = some (c.toNat - 48) := by
  have hbounds : 48 ≤ c.toNat ∧ c.toNat ≤ 57 := by
    simpa [Char.isDigit, UInt32.le_iff_toNat_le] using h
  have hzeros : decimalZeros = 48 :: decimalZeros.tail := rfl
  have hfirst : (decide (48 ≤ c.toNat) && decide (c.toNat < 48 + 10)) = true := by
    simp only [Bool.and_eq_true, decide_eq_true_eq]
    omega
  rw [digitValue, hzeros, List.find?_cons_of_pos (by exact hfirst)]
  rfl

theorem readDigits_of_digits {digits : List Char} (h : ∀ c ∈ digits, c.isDigit = true) (n : ℕ)
    (afterDigit : Bool) (hne : digits ≠ [] ∨ afterDigit = true) :
    readDigits n afterDigit digits = some (Nat.ofDigitChars 10 digits n) := by
  induction digits generalizing n afterDigit with
  | nil =>
    have hafter : afterDigit = true := by simpa using hne
    rw [readDigits, if_pos hafter, Nat.ofDigitChars_nil]
  | cons c digits ih =>
    have hc := h c List.mem_cons_self
    have hunderscore : c ≠ '_' := by
      rintro rfl
      exact absurd hc (by decide)
    rw [readDigits, if_neg hunderscore, digitValue_of_isDigit hc]
    dsimp only
    rw [ih (fun d hd => h d (List.mem_cons_of_mem c hd)) _ true (Or.inr rfl),
      Nat.ofDigitChars_cons]
    rfl

theorem readDigits_toDigits (n : ℕ) : readDigits 0 false (Nat.toDigits 10 n) = some n := by
  rw [readDigits_of_digits (fun c hc => Nat.isDigit_of_mem_toDigits (by decide) (by decide) hc) 0
    false (Or.inl Nat.toDigits_ne_nil), Nat.ofDigitChars_ten_toDigits]

theorem isSpace_of_isDigit {c : Char} (h : c.isDigit = true) : isSpace c = false := by
  have hbounds : 48 ≤ c.toNat ∧ c.toNat ≤ 57 := by
    simpa [Char.isDigit, UInt32.le_iff_toNat_le] using h
  simp [isSpace]
  omega

/-- An instant is read back from its text. -/
theorem readInt_toString (n : ℤ) : readInt (toString n) = some n := by
  have hdigit : ∀ k : ℕ, ∀ c ∈ Nat.toDigits 10 k, c.isDigit = true :=
    fun k c hc => Nat.isDigit_of_mem_toDigits (by decide) (by decide) hc
  rw [Int.toString_eq_repr, Int.repr_eq_if]
  split
  · rename_i hn
    have hlist : n.toNat.repr.toList = Nat.toDigits 10 n.toNat := Nat.toList_repr
    have hstrip : strip n.toNat.repr = n.toNat.repr := by
      refine strip_eq_self fun c hc => isSpace_of_isDigit (hdigit n.toNat c ?_)
      rwa [← hlist]
    rw [readInt, hstrip, hlist]
    obtain ⟨c, rest, hcons⟩ := List.exists_cons_of_ne_nil
      (Nat.toDigits_ne_nil (n := n.toNat) (b := 10))
    have hc := hdigit n.toNat c (by simp [hcons])
    have hread := readDigits_toDigits n.toNat
    rw [hcons] at hread ⊢
    split
    · rename_i heq
      obtain ⟨rfl, -⟩ := List.cons.inj heq
      exact absurd hc (by decide)
    · rename_i heq
      obtain ⟨rfl, -⟩ := List.cons.inj heq
      exact absurd hc (by decide)
    · rw [hread, Option.map_some]
      exact congrArg some (Int.toNat_of_nonneg hn)
  · rename_i hn
    have hlist : ("-" ++ (-n).toNat.repr).toList = '-' :: Nat.toDigits 10 (-n).toNat := by
      rw [String.toList_append, Nat.toList_repr]
      rfl
    have hstrip : strip ("-" ++ (-n).toNat.repr) = "-" ++ (-n).toNat.repr := by
      refine strip_eq_self fun c hc => ?_
      rw [hlist] at hc
      rcases List.mem_cons.mp hc with rfl | hc
      · decide
      · exact isSpace_of_isDigit (hdigit _ c hc)
    rw [readInt, hstrip, hlist]
    change (readDigits 0 false (Nat.toDigits 10 (-n).toNat)).map _ = _
    rw [readDigits_toDigits, Option.map_some]
    refine congrArg some ?_
    simp only [Int.ofNat_eq_natCast]
    omega

/-! Reads by time. -/

section Loki

variable {backend : LokiBackend} {ref : LokiRef} {window : TimeWindow} {entries : List LokiEntry}

/-- A backend that has these entries of the stream in the window, and answers with the
earliest ones from the instant asked for. -/
structure LokiServes (backend : LokiBackend) (ref : LokiRef) (window : TimeWindow)
    (entries : List LokiEntry) : Prop where
  available : strip backend.baseUrl ≠ ""
  ordered : entries.Pairwise fun a b => a.ts < b.ts
  within : ∀ e ∈ entries, nsFromDatetime window.start ≤ e.ts ∧ e.ts < nsFromDatetime window.stop
  answers : ∀ n, nsFromDatetime window.start ≤ n → n < nsFromDatetime window.stop →
    ∃ payload, backend.queryRange n (nsFromDatetime window.stop) ref.pageLimit = .ok payload ∧
      wrongResult payload = false ∧
      payload.entries.Perm ((entries.filter fun e => n ≤ e.ts).take ref.pageLimit)

def entriesFrom (entries : List LokiEntry) (n : ℤ) : List LokiEntry :=
  entries.filter fun e => n ≤ e.ts

/-- Full pages take all of these entries, and the last one is at the end of the window. -/
def EndsFull (ref : LokiRef) (window : TimeWindow) (entries : List LokiEntry) : Prop :=
  ref.pageLimit ∣ entries.length ∧ ∃ e ∈ entries, e.ts + 1 = nsFromDatetime window.stop

theorem pageLimit_pos (ref : LokiRef) : 0 < ref.pageLimit := by
  rw [LokiRef.pageLimit]
  split
  · decide
  · decide
  · simp only [pageSize]
    omega

theorem foldl_max_spec (l : List ℤ) (n : ℤ) :
    (∀ x ∈ l, x ≤ l.foldl max n) ∧ n ≤ l.foldl max n ∧ (l.foldl max n = n ∨ l.foldl max n ∈ l) := by
  induction l generalizing n with
  | nil => simp
  | cons x l ih =>
    obtain ⟨hall, hle, hmem⟩ := ih (max n x)
    rw [List.foldl_cons]
    refine ⟨?_, (le_max_left n x).trans hle, ?_⟩
    · intro y hy
      rcases List.mem_cons.mp hy with rfl | hy
      · exact (le_max_right n y).trans hle
      · exact hall y hy
    · rcases hmem with hmem | hmem
      · rcases le_total n x with hnx | hxn
        · rw [max_eq_right hnx] at hmem ⊢
          rw [hmem]
          exact Or.inr List.mem_cons_self
        · rw [max_eq_left hxn] at hmem ⊢
          exact Or.inl hmem
      · exact Or.inr (List.mem_cons_of_mem x hmem)

/-- Behind the last entry of a page there are the entries that it left. -/
theorem entriesFrom_behind (hordered : entries.Pairwise fun a b => a.ts < b.ts) {n m : ℤ} {k : ℕ}
    (hnm : n ≤ m) (hall : ∀ e ∈ (entriesFrom entries n).take k, e.ts ≤ m)
    (hm : ∃ e ∈ (entriesFrom entries n).take k, e.ts = m) :
    entriesFrom entries (m + 1) = (entriesFrom entries n).drop k := by
  have hsplit := List.take_append_drop k (entriesFrom entries n)
  have hsorted : (entriesFrom entries n).Pairwise fun a b => a.ts < b.ts := hordered.filter _
  rw [← hsplit, List.pairwise_append] at hsorted
  obtain ⟨last, hlast, rfl⟩ := hm
  have hnested : entriesFrom entries (last.ts + 1) =
      (entriesFrom entries n).filter fun e => last.ts + 1 ≤ e.ts := by
    rw [entriesFrom, entriesFrom, List.filter_filter]
    refine List.filter_congr fun e _ => ?_
    rw [Bool.eq_iff_iff, Bool.and_eq_true, decide_eq_true_iff, decide_eq_true_iff]
    omega
  rw [hnested, ← hsplit, List.filter_append, hsplit]
  have htaken : ((entriesFrom entries n).take k).filter (fun e => last.ts + 1 ≤ e.ts) = [] := by
    rw [List.filter_eq_nil_iff]
    intro e he
    have hle := hall e he
    simp only [decide_eq_true_eq]
    omega
  have hleft : ((entriesFrom entries n).drop k).filter (fun e => last.ts + 1 ≤ e.ts) =
      (entriesFrom entries n).drop k := by
    rw [List.filter_eq_self]
    intro e he
    have hlt := hsorted.2.2 last hlast e he
    simp only [decide_eq_true_eq]
    omega
  rw [htaken, hleft, List.nil_append]

/-- One round: the last page, or a full one and the rest of the read behind it. -/
theorem lokiPages_round (h : LokiServes backend ref window entries) {n : ℤ}
    (hstart : nsFromDatetime window.start ≤ n) (hn : n < nsFromDatetime window.stop) (fuel : ℕ) :
    ((entriesFrom entries n).length < ref.pageLimit ∧ ∃ lines : List SourceLine,
      lines.Perm ((entriesFrom entries n).map (lokiLine backend ref)) ∧
      lokiPages backend ref (nsFromDatetime window.stop) (fuel + 1) n =
        ⟨[(lines, none)], .exhausted⟩) ∨
    (ref.pageLimit ≤ (entriesFrom entries n).length ∧ ∃ (lines : List SourceLine) (n' : ℤ),
      lines.Perm (((entriesFrom entries n).take ref.pageLimit).map (lokiLine backend ref)) ∧
      n < n' ∧ n' ≤ nsFromDatetime window.stop ∧
      entriesFrom entries n' = (entriesFrom entries n).drop ref.pageLimit ∧
      (∃ e ∈ entriesFrom entries n, e.ts + 1 = n') ∧
      lokiPages backend ref (nsFromDatetime window.stop) (fuel + 1) n =
        .behind lines (some (toString n'))
          (lokiPages backend ref (nsFromDatetime window.stop) fuel n')) := by
  obtain ⟨payload, hquery, hresult, hperm⟩ := h.answers n hstart hn
  have hlength : payload.entries.length = min ref.pageLimit (entriesFrom entries n).length := by
    rw [hperm.length_eq, List.length_take]
    rfl
  have hpos := pageLimit_pos ref
  rw [lokiPages, if_neg (by omega), hquery]
  dsimp only
  rw [hresult, if_neg (by simp)]
  by_cases hfull : ref.pageLimit ≤ (entriesFrom entries n).length
  · right
    rw [if_neg (by omega)]
    obtain ⟨hall, hle, hmem⟩ := foldl_max_spec (payload.entries.map LokiEntry.ts) n
    set m := (payload.entries.map LokiEntry.ts).foldl max n with hm
    have hfrom : ∀ e ∈ (entriesFrom entries n).take ref.pageLimit, n ≤ e.ts := by
      intro e he
      simpa using (List.mem_filter.mp (List.mem_of_mem_take he)).2
    have htaken : ∀ e ∈ (entriesFrom entries n).take ref.pageLimit, e.ts ≤ m :=
      fun e he => hall _ (List.mem_map_of_mem (hperm.mem_iff.mpr he))
    have hlast : ∃ e ∈ (entriesFrom entries n).take ref.pageLimit, e.ts = m := by
      rcases hmem with hsame | hmem
      · -- every instant of the page is the one asked for
        have hne : (entriesFrom entries n).take ref.pageLimit ≠ [] := by
          rw [ne_eq, ← List.length_eq_zero_iff, List.length_take]
          omega
        obtain ⟨e, he⟩ := List.exists_mem_of_ne_nil _ hne
        exact ⟨e, he, le_antisymm (htaken e he) (hsame ▸ hfrom e he)⟩
      · obtain ⟨e, he, heq⟩ := List.mem_map.mp hmem
        exact ⟨e, hperm.mem_iff.mp he, heq⟩
    obtain ⟨e, he, heq⟩ := hlast
    have hwithin := h.within e (List.mem_of_mem_filter (List.mem_of_mem_take he))
    rw [if_neg (by omega)]
    refine ⟨hfull, _, m + 1, hperm.map _, by omega, by omega,
      entriesFrom_behind h.ordered hle htaken ⟨e, he, heq⟩, ⟨e, List.mem_of_mem_take he, ?_⟩, rfl⟩
    rw [heq]
  · left
    rw [if_pos (by omega)]
    refine ⟨by omega, _, ?_, rfl⟩
    have htake : (entriesFrom entries n).take ref.pageLimit = entriesFrom entries n :=
      List.take_of_length_le (by omega)
    rw [← htake]
    exact hperm.map _

/-- The lines that are left behind a cursor. -/
def lokiRest (backend : LokiBackend) (ref : LokiRef) (entries : List LokiEntry) :
    Option String → List SourceLine
  | none => entries.map (lokiLine backend ref)
  | some text => ((readInt text).elim [] (entriesFrom entries)).map (lokiLine backend ref)

theorem lokiRest_toString (n : ℤ) : lokiRest backend ref entries (some (toString n)) =
    (entriesFrom entries n).map (lokiLine backend ref) := by
  rw [lokiRest, readInt_toString]
  rfl

/-- Cursors inside the window, from which the read does not end full. -/
def LokiValid (ref : LokiRef) (window : TimeWindow) (entries : List LokiEntry)
    (c : Option String) : Prop :=
  c = none ∨ ∃ n, c = some (toString n) ∧ nsFromDatetime window.start ≤ n ∧
    n < nsFromDatetime window.stop ∧ ¬ EndsFull ref window (entriesFrom entries n)

/-- What is left behind a full page ends full exactly if the whole does. -/
theorem endsFull_drop {l : List LokiEntry} (hfull : ref.pageLimit ≤ l.length)
    (hlast : ∃ e ∈ l.drop ref.pageLimit, e.ts + 1 = nsFromDatetime window.stop) :
    EndsFull ref window (l.drop ref.pageLimit) ↔ EndsFull ref window l := by
  rw [EndsFull, EndsFull, List.length_drop, Nat.dvd_sub_iff_left hfull (Nat.dvd_refl _)]
  obtain ⟨e, he, heq⟩ := hlast
  exact and_congr_right fun _ =>
    iff_of_true ⟨e, he, heq⟩ ⟨e, List.mem_of_mem_drop he, heq⟩

theorem lokiPages_reads (h : LokiServes backend ref window entries) {fuel : ℕ} {n : ℤ}
    (hstart : nsFromDatetime window.start ≤ n) (hn : n < nsFromDatetime window.stop)
    (hfuel : (nsFromDatetime window.stop - n).toNat ≤ fuel)
    (hends : ¬ EndsFull ref window (entriesFrom entries n)) {c : Option String}
    (hrest : lokiRest backend ref entries c =
      (entriesFrom entries n).map (lokiLine backend ref)) :
    Reads (lokiRest backend ref entries) (LokiValid ref window entries) c
        (lokiPages backend ref (nsFromDatetime window.stop) fuel n).pages ∧
      (lokiPages backend ref (nsFromDatetime window.stop) fuel n).ending = .exhausted := by
  induction fuel generalizing n c with
  | zero => omega
  | succ fuel ih =>
    rcases lokiPages_round h hstart hn fuel with ⟨-, lines, hlines, hround⟩ |
      ⟨hfull, lines, n', hlines, hlt, hle, hbehind, ⟨e, he, hts⟩, hround⟩
    · rw [hround]
      exact ⟨Reads.last (hrest ▸ hlines), rfl⟩
    · have hn' : n' < nsFromDatetime window.stop := by
        -- a full page up to the end of the window leaves nothing behind
        by_contra hnot
        have hempty : (entriesFrom entries n).drop ref.pageLimit = [] := by
          rw [← hbehind, entriesFrom, List.filter_eq_nil_iff]
          intro e' he'
          have hwithin := h.within e' he'
          simp only [decide_eq_true_eq]
          omega
        have hlength : (entriesFrom entries n).length = ref.pageLimit := by
          have hdrop := congrArg List.length hempty
          rw [List.length_drop, List.length_nil] at hdrop
          omega
        exact hends ⟨by rw [hlength], e, he, by omega⟩
      have hends' : ¬ EndsFull ref window (entriesFrom entries n') := by
        rw [hbehind]
        intro hbad
        exact hends ((endsFull_drop hfull hbad.2).mp hbad)
      obtain ⟨hreads, hending⟩ :=
        ih (by omega) hn' (by omega) hends' (lokiRest_toString n')
      rw [hround]
      refine ⟨Reads.next ?_ (Or.inr ⟨n', rfl, by omega, hn', hends'⟩) hreads, hending⟩
      rw [hrest, lokiRest_toString, hbehind]
      refine (hlines.append_right _).trans ?_
      rw [← List.map_append, List.take_append_drop]

theorem lokiPages_endsFull (h : LokiServes backend ref window entries) {fuel : ℕ} {n : ℤ}
    (hstart : nsFromDatetime window.start ≤ n) (hn : n < nsFromDatetime window.stop)
    (hfuel : (nsFromDatetime window.stop - n).toNat ≤ fuel)
    (hends : EndsFull ref window (entriesFrom entries n)) (c : Option String) :
    lastCursor c (lokiPages backend ref (nsFromDatetime window.stop) fuel n).pages =
      some (toString (nsFromDatetime window.stop)) := by
  induction fuel generalizing n c with
  | zero => omega
  | succ fuel ih =>
    obtain ⟨hdvd, last, hmem, hlast⟩ := hends
    have hfull : ref.pageLimit ≤ (entriesFrom entries n).length :=
      Nat.le_of_dvd (List.length_pos_of_mem hmem) hdvd
    rcases lokiPages_round h hstart hn fuel with ⟨hshort, -⟩ |
      ⟨-, lines, n', -, hlt, hle, hbehind, -, hround⟩
    · omega
    · rw [hround]
      change lastCursor (some (toString n'))
        (lokiPages backend ref (nsFromDatetime window.stop) fuel n').pages = _
      rcases hle.lt_or_eq with hn' | rfl
      · have hlast' : last ∈ entriesFrom entries n' := by
          rw [entriesFrom, List.mem_filter, decide_eq_true_eq]
          exact ⟨List.mem_of_mem_filter hmem, by omega⟩
        refine ih (by omega) hn' (by omega) ?_ _
        rw [hbehind] at hlast' ⊢
        exact (endsFull_drop hfull ⟨last, hlast', hlast⟩).mpr ⟨hdvd, last, hmem, hlast⟩
      · cases fuel with
        | zero => rfl
        | succ fuel =>
          rw [lokiPages, if_pos le_rfl]
          rfl

theorem lokiRead_of_start (h : LokiServes backend ref window entries) {c : Option String} {n : ℤ}
    (hn : lokiStart window c = some n) : lokiRead backend ref window c =
      lokiPages backend ref (nsFromDatetime window.stop)
        (nsFromDatetime window.stop - n).toNat n := by
  rw [lokiRead, if_neg h.available, hn]

theorem lokiStart_toString (window : TimeWindow) (n : ℤ) :
    lokiStart window (some (toString n)) = some n := by
  have hne : toString n ≠ "" := by
    intro hempty
    have hread := readInt_toString n
    rw [hempty] at hread
    cases hread
  rw [lokiStart, truthy_eq_some.mpr ⟨rfl, hne⟩]
  exact readInt_toString n

theorem entriesFrom_start (h : LokiServes backend ref window entries) :
    entriesFrom entries (nsFromDatetime window.start) = entries := by
  rw [entriesFrom, List.filter_eq_self]
  intro e he
  simpa using (h.within e he).1

theorem lokiRead_reads (h : LokiServes backend ref window entries)
    (hends : ¬ EndsFull ref window entries) {c : Option String}
    (hvalid : LokiValid ref window entries c) :
    Reads (lokiRest backend ref entries) (LokiValid ref window entries) c
        (lokiRead backend ref window c).pages ∧
      (lokiRead backend ref window c).ending = .exhausted := by
  rcases hvalid with rfl | ⟨n, rfl, hstart, hn, hends'⟩
  · rw [lokiRead_of_start h rfl]
    rcases lt_or_ge (nsFromDatetime window.start) (nsFromDatetime window.stop) with hlt | hge
    · refine lokiPages_reads h le_rfl hlt le_rfl ?_ ?_
      · rwa [entriesFrom_start h]
      · rw [entriesFrom_start h]
        rfl
    · -- an empty window has no entries
      have hnone : entries = [] := by
        rw [List.eq_nil_iff_forall_not_mem]
        intro e he
        have hwithin := h.within e he
        omega
      have hfuel : (nsFromDatetime window.stop - nsFromDatetime window.start).toNat = 0 := by omega
      rw [hfuel, lokiPages]
      subst hnone
      refine ⟨⟨List.Perm.nil, rfl, ?_⟩, rfl⟩
      intro done todo c' heq hne
      exact absurd (List.append_eq_nil_iff.mp heq.symm).1 hne
  · rw [lokiRead_of_start h (lokiStart_toString window n)]
    exact lokiPages_reads h hstart hn le_rfl hends' (lokiRest_toString n)

/-- The time-based read comes to an end exactly if its pages do not end full. -/
theorem lokiRead_drained_iff (h : LokiServes backend ref window entries) :
    Drained (fun c => (lokiRead backend ref window c).pages)
        (entries.map (lokiLine backend ref)) ↔ ¬ EndsFull ref window entries := by
  constructor
  · intro hdrained hends
    have hclosed : lastCursor none (lokiRead backend ref window none).pages = none :=
      (hdrained none [] .start).2
    have hlt : nsFromDatetime window.start < nsFromDatetime window.stop := by
      obtain ⟨-, e, he, -⟩ := hends
      have hwithin := h.within e he
      omega
    have hopen := lokiPages_endsFull h le_rfl hlt le_rfl (by rwa [entriesFrom_start h]) none
    rw [lokiRead_of_start h rfl, hopen] at hclosed
    cases hclosed
  · intro hends
    exact drained_of_reads (Or.inl rfl) (List.Perm.refl _)
      fun c hc => (lokiRead_reads h hends hc).1

end Loki

/-! Reads by token. -/

/-- A backend that has these entries behind each token it gave out, and answers with the
earliest of them. A page may be empty, but the tokens run out: in the last of the rounds it gives
no token or the same. -/
structure TokenServes {β : Type} (ask : ℕ → Option String → Option (List β × Option String))
    (rest : Option String → List β) (valid : Option String → Prop)
    (rounds : Option String → ℕ) : Prop where
  start : valid none
  nonempty : ∀ t, valid (some t) → t ≠ ""
  answers : ∀ limit token, 0 < limit → valid token → ∃ page next,
    ask limit token = some (page, next) ∧ page.length ≤ limit ∧
      ((truthy next = none ∨ truthy next = token) ∧ rest token = page ∨
        ∃ t, next = some t ∧ some t ≠ token ∧ valid (some t) ∧ rest token = page ++ rest (some t) ∧
          rounds (some t) < rounds token)

/-- A backend that gives an empty page only when nothing is left. -/
def GivesPages {β : Type} (ask : ℕ → Option String → Option (List β × Option String))
    (rest : Option String → List β) (valid : Option String → Prop) : Prop :=
  ∀ limit token, 0 < limit → valid token → ∀ next, ask limit token = some ([], next) →
    rest token = []

section CloudWatch

variable {backend : CloudWatchBackend} (streamId : String) {window : TimeWindow}
  {rest : Option String → List CloudWatchEvent} {valid : Option String → Prop}
  {rounds : Option String → ℕ}

/-- What the backend answers for a token. -/
def cloudWatchAsk (backend : CloudWatchBackend) (window : TimeWindow) (limit : ℕ)
    (token : Option String) : Option (List CloudWatchEvent × Option String) :=
  match backend.filterLogEvents window limit token with
  | .error _ => none
  | .ok page => some (page.events, page.nextToken)

theorem truthy_of_valid {β : Type} {ask : ℕ → Option String → Option (List β × Option String)}
    {rest : Option String → List β} (h : TokenServes ask rest valid rounds) {token : Option String}
    (hvalid : valid token) : truthy token = token := by
  cases token with
  | none => rfl
  | some t => exact truthy_eq_some.mpr ⟨rfl, h.nonempty t hvalid⟩

/-- A read goes on from a new token. -/
theorem goes_on {β : Type} {ask : ℕ → Option String → Option (List β × Option String)}
    {rest : Option String → List β} (h : TokenServes ask rest valid rounds)
    {next token : Option String} {t : String} (ht : next = some t) (hnew : some t ≠ token)
    (hvalid : valid (some t)) :
    truthy next = some t ∧ ¬(truthy next = none ∨ truthy next = token) := by
  have htruthy : truthy next = some t := by
    rw [ht]
    exact truthy_of_valid h hvalid
  rw [htruthy]
  refine ⟨rfl, ?_⟩
  rintro (hnone | hsame)
  · cases hnone
  · exact hnew hsame

theorem cloudWatchAsk_eq_some {limit : ℕ} {token next : Option String}
    {events : List CloudWatchEvent}
    (h : cloudWatchAsk backend window limit token = some (events, next)) :
    ∃ page, backend.filterLogEvents window limit token = .ok page ∧ page.events = events ∧
      page.nextToken = next := by
  rw [cloudWatchAsk] at h
  split at h
  · cases h
  · rename_i page hpage
    obtain ⟨rfl, rfl⟩ := Prod.mk.inj (Option.some.inj h)
    exact ⟨page, hpage, rfl, rfl⟩

/-- One round: the last page, or a page with a token and the rest of the read behind it. -/
theorem cloudWatchRead_round (h : TokenServes (cloudWatchAsk backend window) rest valid rounds)
    {token : Option String} (hvalid : valid token) (fuel : ℕ) :
    (cloudWatchRead backend streamId window (fuel + 1) token =
      some ⟨[((rest token).map (cloudWatchLine backend streamId), none)], .exhausted⟩) ∨
    ∃ (page : List CloudWatchEvent) (t : String), valid (some t) ∧
      rest token = page ++ rest (some t) ∧ rounds (some t) < rounds token ∧
      cloudWatchRead backend streamId window (fuel + 1) token =
        (cloudWatchRead backend streamId window fuel (some t)).map
          (.behind (page.map (cloudWatchLine backend streamId)) (some t)) := by
  obtain ⟨events, next, hask, -, hnext⟩ :=
    h.answers cloudWatchPageSize token (by decide) hvalid
  obtain ⟨page, hpage, rfl, rfl⟩ := cloudWatchAsk_eq_some hask
  rw [cloudWatchRead, truthy_of_valid h hvalid, hpage]
  dsimp only
  rcases hnext with ⟨hlast, hrest⟩ | ⟨t, ht, hnew, hvalid', hrest, hless⟩
  · left
    rw [if_pos hlast, hrest]
    rfl
  · right
    obtain ⟨htruthy, hgoes⟩ := goes_on h ht hnew hvalid'
    refine ⟨page.events, t, hvalid', hrest, hless, ?_⟩
    rw [if_neg hgoes, htruthy]

/-- The lines that are left behind a token. -/
def linesRest {β : Type} (lineOf : β → SourceLine) (rest : Option String → List β)
    (token : Option String) : List SourceLine := (rest token).map lineOf

theorem linesRest_append {β : Type} (lineOf : β → SourceLine) {rest : Option String → List β}
    {token token' : Option String} {page : List β} (h : rest token = page ++ rest token') :
    (page.map lineOf ++ linesRest lineOf rest token').Perm (linesRest lineOf rest token) := by
  rw [linesRest, linesRest, h, List.map_append]

/-- With enough rounds the read takes all and leaves no token. -/
theorem cloudWatchRead_reads (h : TokenServes (cloudWatchAsk backend window) rest valid rounds)
    {fuel : ℕ} {token : Option String} (hvalid : valid token) (hfuel : rounds token < fuel) :
    ∃ s, cloudWatchRead backend streamId window fuel token = some s ∧ s.ending = .exhausted ∧
      Reads (linesRest (cloudWatchLine backend streamId) rest) valid token s.pages := by
  induction fuel generalizing token with
  | zero => omega
  | succ fuel ih =>
    rcases cloudWatchRead_round streamId h hvalid fuel with
      hlast | ⟨page, t, hvalid', hrest, hless, hround⟩
    · exact ⟨_, hlast, rfl, Reads.last (List.Perm.refl _)⟩
    · obtain ⟨s, hs, hending, hreads⟩ := ih hvalid' (by omega)
      refine ⟨s.behind _ (some t), by rw [hround, hs, Option.map_some], hending, ?_⟩
      exact Reads.next (linesRest_append _ hrest) hvalid' hreads

end CloudWatch

section Datadog

variable {β : Type} {backend : DatadogBackend β} (ref : DatadogRef) {window : TimeWindow}
  {rest : Option String → List β} {valid : Option String → Prop} {rounds : Option String → ℕ}

/-- What the backend answers for a cursor, if all that it gives are objects. -/
def datadogAsk (backend : DatadogBackend β) (window : TimeWindow) (limit : ℕ)
    (token : Option String) : Option (List β × Option String) :=
  match backend.searchLogs window limit token with
  | .error _ => none
  | .ok page => (page.data.mapM id).map fun events => (events, page.after)

theorem eq_map_some_of_mapM {l : List (Option β)} {l' : List β} (h : l.mapM id = some l') :
    l = l'.map some := by
  induction l generalizing l' with
  | nil =>
    obtain rfl := Option.some.inj h
    rfl
  | cons a l ih =>
    rw [List.mapM_cons] at h
    obtain ⟨b, hb, hrest⟩ := Option.bind_eq_some_iff.mp h
    obtain ⟨bs, hbs, heq⟩ := Option.bind_eq_some_iff.mp hrest
    obtain rfl := Option.some.inj heq
    rw [ih hbs, List.map_cons]
    exact congrArg (· :: bs.map some) hb

theorem datadogAsk_eq_some {limit : ℕ} {token next : Option String} {events : List β}
    (h : datadogAsk backend window limit token = some (events, next)) :
    ∃ page, backend.searchLogs window limit token = .ok page ∧ page.data = events.map some ∧
      page.after = next := by
  rw [datadogAsk] at h
  split at h
  · cases h
  · rename_i page hpage
    obtain ⟨events', hevents, heq⟩ := Option.map_eq_some_iff.mp h
    obtain ⟨rfl, rfl⟩ := Prod.mk.inj heq
    exact ⟨page, hpage, eq_map_some_of_mapM hevents, rfl⟩

/-- One round: the last page, or a page with a cursor behind it, the last one if the rows
reach the cap. -/
theorem datadogPages_round (h : TokenServes (datadogAsk backend window) rest valid rounds)
    (hpages : GivesPages (datadogAsk backend window) rest valid)
    {token : Option String} (hvalid : valid token) {yielded : ℕ} (hyielded : yielded < ref.rowCap)
    (fuel : ℕ) :
    (∃ lines : List SourceLine, lines = (rest token).map backend.lineOf ∧
      datadogPages backend ref window (fuel + 1) yielded token =
        some ⟨[(lines, none)], .exhausted⟩) ∨
    ∃ (page : List β) (t : String), valid (some t) ∧ rest token = page ++ rest (some t) ∧
      page ≠ [] ∧ (if ref.rowCap ≤ yielded + page.length then
        datadogPages backend ref window (fuel + 1) yielded token =
          some ⟨[(page.map backend.lineOf, some t)], .exhausted⟩
      else datadogPages backend ref window (fuel + 1) yielded token =
        (datadogPages backend ref window fuel (yielded + page.length) (some t)).map
          (.behind (page.map backend.lineOf) (some t))) := by
  have hlimit : 0 < min ref.pageLimit (ref.rowCap - yielded) := by
    simp only [DatadogRef.pageLimit]
    omega
  obtain ⟨events, next, hask, hlength, hnext⟩ := h.answers _ token hlimit hvalid
  obtain ⟨page, hpage, hdata, rfl⟩ := datadogAsk_eq_some hask
  rw [datadogPages, if_neg (by omega), truthy_of_valid h hvalid]
  dsimp only
  rw [hpage]
  dsimp only
  have htaken : (page.data.filterMap id).take (ref.rowCap - yielded) = events := by
    rw [hdata, List.filterMap_map]
    have hid : (id ∘ some : β → Option β) = some := rfl
    rw [hid, List.filterMap_some]
    exact List.take_of_length_le (by omega)
  by_cases hempty : events = []
  · left
    have hnone : rest token = [] := hpages _ token hlimit hvalid _ (hempty ▸ hask)
    rw [if_pos (by rw [hdata, hempty, List.map_nil])]
    exact ⟨[], by rw [hnone, List.map_nil], rfl⟩
  · rw [if_neg (by rw [hdata]; simpa using hempty), htaken]
    rcases hnext with ⟨hlast, hrest⟩ | ⟨t, ht, hnew, hvalid', hrest, -⟩
    · left
      rw [if_pos hlast, hrest]
      exact ⟨_, rfl, rfl⟩
    · right
      obtain ⟨htruthy, hgoes⟩ := goes_on h ht hnew hvalid'
      refine ⟨events, t, hvalid', hrest, hempty, ?_⟩
      rw [if_neg hgoes, htruthy]
      by_cases hcap : ref.rowCap ≤ yielded + events.length
      · simp only [if_pos hcap]
        rfl
      · simp only [if_neg hcap]

/-- With enough rounds the read gets on, and to the end if the cap is not in its way. -/
theorem datadogPages_advances (h : TokenServes (datadogAsk backend window) rest valid rounds)
    (hpages : GivesPages (datadogAsk backend window) rest valid)
    {fuel : ℕ} {token : Option String} (hvalid : valid token) {yielded : ℕ}
    (hyielded : yielded < ref.rowCap) (hfuel : (rest token).length < fuel) :
    ∃ s, datadogPages backend ref window fuel yielded token = some s ∧ s.ending = .exhausted ∧
      Advances (linesRest backend.lineOf rest) valid token s.pages ∧
      (yielded + (rest token).length < ref.rowCap → lastCursor token s.pages = none) := by
  induction fuel generalizing token yielded with
  | zero => omega
  | succ fuel ih =>
    rcases datadogPages_round ref h hpages hvalid hyielded fuel with
      ⟨lines, rfl, hround⟩ | ⟨page, t, hvalid', hrest, hne, hround⟩
    · exact ⟨_, hround, rfl, Advances.last (List.Perm.refl _), fun _ => rfl⟩
    · have hpage := List.length_pos_iff.mpr hne
      have hlength := congrArg List.length hrest
      rw [List.length_append] at hlength
      by_cases hcap : ref.rowCap ≤ yielded + page.length
      · rw [if_pos hcap] at hround
        refine ⟨_, hround, rfl, ?_, fun hlt => by omega⟩
        exact Advances.capped (by simpa using hne) (linesRest_append _ hrest) hvalid'
      · rw [if_neg hcap] at hround
        obtain ⟨s, hs, hending, hadvances, hclosed⟩ :=
          ih hvalid' (by omega : yielded + page.length < _) (by omega)
        refine ⟨s.behind _ (some t), by rw [hround, hs, Option.map_some], hending, ?_, ?_⟩
        · exact Advances.next (linesRest_append _ hrest) hvalid' hadvances
        · intro hlt
          exact hclosed (by omega)

theorem rowCap_pos (ref : DatadogRef) : 0 < ref.rowCap := by
  rw [DatadogRef.rowCap]
  omega

theorem datadogRead_advances (hkeys : backend.apiKey ≠ "" ∧ backend.appKey ≠ "")
    (h : TokenServes (datadogAsk backend window) rest valid rounds)
    (hpages : GivesPages (datadogAsk backend window) rest valid) {fuel : ℕ} {token : Option String}
    (hvalid : valid token) (hfuel : (rest token).length < fuel) :
    ∃ s, datadogRead backend ref window fuel token = some s ∧ s.ending = .exhausted ∧
      Advances (linesRest backend.lineOf rest) valid token s.pages ∧
      ((rest token).length < ref.rowCap → lastCursor token s.pages = none) := by
  have hread : datadogRead backend ref window fuel token =
      datadogPages backend ref window fuel 0 token := by
    rw [datadogRead, if_neg]
    rintro (h | h)
    · exact hkeys.1 h
    · exact hkeys.2 h
  rw [hread]
  obtain ⟨s, hs, hending, hadvances, hclosed⟩ :=
    datadogPages_advances ref h hpages hvalid (rowCap_pos ref) hfuel
  exact ⟨s, hs, hending, hadvances, fun hlt => hclosed (by omega)⟩

end Datadog

/-! The contract. -/

/-- The reads of a stream, as far as they come to an end, with their pages. -/
def pagesOf (read : Option String → Option (Session SourceLine)) (c : Option String) :
    Pages SourceLine String :=
  ((read c).map Session.pages).getD []

/-- Every read from a cursor that was left is one without a failure, takes what was not
read yet, and leaves no cursor. -/
structure PagingContract (read : Option String → Option (Session SourceLine))
    (lines : List SourceLine) : Prop where
  ends : ∀ c seen, PagedReads.Reached (pagesOf read) c seen →
    ∃ s, read c = some s ∧ s.ending = .exhausted
  drained : Drained (pagesOf read) lines

theorem contract_of_reads {read : Option String → Option (Session SourceLine)}
    {lines : List SourceLine} (rest : Option String → List SourceLine)
    (valid : Option String → Prop) (hstart : valid none) (hlines : (rest none).Perm lines)
    (h : ∀ c, valid c → ∃ s, read c = some s ∧ s.ending = .exhausted ∧
      Reads rest valid c s.pages) : PagingContract read lines := by
  have hreads : ∀ c, valid c → Reads rest valid c (pagesOf read c) := by
    intro c hc
    obtain ⟨s, hs, -, hreads⟩ := h c hc
    rw [pagesOf, hs]
    exact hreads
  refine ⟨fun c seen hreached => ?_, drained_of_reads hstart hlines hreads⟩
  obtain ⟨hvalid, -⟩ := hreached.perm hstart hlines fun c hc => (hreads c hc).resumable
  obtain ⟨s, hs, hending, -⟩ := h c hvalid
  exact ⟨s, hs, hending⟩

/-! Tail jobs over such streams. -/

/-- A stream as it is discovered for a window. -/
def streamRef (streamId : String) (read : Option String → Option (Session SourceLine)) :
    LogStreamRef SourceLine where
  streamId := streamId
  cursor := none
  read c := ((read c).getD (.stopped (.raised "the read goes on"))).toStreamRead c

theorem streamRef_cursor {streamId : String} {read : Option String → Option (Session SourceLine)}
    {c : Option String} {s : Session SourceLine} (h : read c = some s) :
    ((streamRef streamId read).read c).cursor = lastCursor c s.pages := by
  change (((read c).getD _).toStreamRead c).cursor = _
  rw [h]
  rfl

section Ticks

variable {ρ κ : Type} [DecidableEq κ] {lowering : Lowering} {p : Pipeline SourceLine ρ κ}
  {errorThreshold : ℕ} {rows rows' : List ρ} {job job' : IngestionJob} {t : TailTick SourceLine}
  {window : TimeWindow} {refs : List (LogStreamRef SourceLine)}

/-- What a tick that succeeds stores. -/
theorem stored_of_tick (hwindow : tickWindowForJob lowering job t.now t.clock = .ok window)
    (hdiscover : t.adapter window = .ok refs)
    (htick : tickOneTailJob lowering p errorThreshold rows job t = .ok (rows', job'))
    (hsuccess : job'.errorMessage = none) :
    cursorsFromJob job' =
        IngestionLaws.cursorsOf ∅ (streamReads refs (cursorsFromJob job) ∅) ∧
      heldPagingWindow job' =
        if hasOpenCursors (cursorsFromJob job') then some window else none := by
  have hout := tickOneTailJob_outcome lowering p errorThreshold rows job t hwindow
  rw [htick] at hout
  cases hout with
  | failed _ _ _ _ herror => exact absurd hsuccess herror
  | polled hdiscover' _ hcursors hheld _ _ =>
    obtain rfl := Except.ok.inj (hdiscover.symm.trans hdiscover')
    exact ⟨hcursors, hheld⟩

/-- The window is released when every read leaves no cursor. -/
theorem released_of_closed (hwindow : tickWindowForJob lowering job t.now t.clock = .ok window)
    (hdiscover : t.adapter window = .ok refs)
    (htick : tickOneTailJob lowering p errorThreshold rows job t = .ok (rows', job'))
    (hsuccess : job'.errorMessage = none)
    (hclosed : ∀ ref ∈ refs, (ref.read (startCursor (cursorsFromJob job) ∅ ref)).cursor = none) :
    heldPagingWindow job' = none := by
  obtain ⟨hcursors, hheld⟩ := stored_of_tick hwindow hdiscover htick hsuccess
  have hnone : hasOpenCursors (cursorsFromJob job') = false := by
    rw [Bool.eq_false_iff]
    intro hopen
    obtain ⟨streamId, c, hlookup, hc⟩ := hasOpenCursors_eq_true.mp hopen
    rw [hcursors] at hlookup
    obtain ⟨q, hq, -, rfl⟩ := IngestionLaws.lookup_cursorsOf hlookup
    obtain ⟨ref, href, rfl⟩ := List.mem_map.mp hq
    rw [hclosed ref (List.mem_filter.mp href).1] at hc
    cases hc
  rw [hheld, hnone]
  rfl

end Ticks

/-- A valid token with no more left than at the start. -/
def Bounded (left : Option String → ℕ) (valid : Option String → Prop) (token : Option String) :
    Prop :=
  valid token ∧ left token ≤ left none

theorem TokenServes.bounded {β : Type} {ask : ℕ → Option String → Option (List β × Option String)}
    {rest : Option String → List β} {valid : Option String → Prop} {rounds : Option String → ℕ}
    (h : TokenServes ask rest valid rounds) {left : Option String → ℕ}
    (hleft : ∀ page token t, rest token = page ++ rest (some t) → rounds (some t) < rounds token →
      left (some t) ≤ left token) :
    TokenServes ask rest (Bounded left valid) rounds where
  start := ⟨h.start, le_rfl⟩
  nonempty t ht := h.nonempty t ht.1
  answers limit token hlimit hvalid := by
    obtain ⟨page, next, hask, hlength, hnext⟩ := h.answers limit token hlimit hvalid.1
    refine ⟨page, next, hask, hlength, hnext.imp_right ?_⟩
    rintro ⟨t, ht, hnew, hvalid', hrest, hless⟩
    exact ⟨t, ht, hnew, ⟨hvalid', (hleft page token t hrest hless).trans hvalid.2⟩, hrest, hless⟩

theorem lokiRead_contract_iff {backend : LokiBackend} {ref : LokiRef} {window : TimeWindow}
    {entries : List LokiEntry} (h : LokiServes backend ref window entries) :
    PagingContract (fun c => some (lokiRead backend ref window c))
      (entries.map (lokiLine backend ref)) ↔ ¬ EndsFull ref window entries := by
  constructor
  · intro hcontract
    exact (lokiRead_drained_iff h).mp hcontract.drained
  · intro hends
    refine contract_of_reads (lokiRest backend ref entries) (LokiValid ref window entries)
      (Or.inl rfl) (List.Perm.refl _) fun c hc => ?_
    obtain ⟨hreads, hending⟩ := lokiRead_reads h hends hc
    exact ⟨_, rfl, hending, hreads⟩

/-- From the cursor that a read leaves which ends full, nothing is read and the cursor
stays. -/
theorem lokiRead_stuck {backend : LokiBackend} {ref : LokiRef} {window : TimeWindow}
    (havailable : strip backend.baseUrl ≠ "") :
    lokiRead backend ref window (some (toString (nsFromDatetime window.stop))) =
      .stopped .exhausted := by
  rw [lokiRead, if_neg havailable, lokiStart_toString]
  dsimp only
  rw [Int.sub_self]
  rfl

/-- What the reads of the adapters promise to a tail job, and what it does with that. -/
theorem paging_contract (window : TimeWindow) (loki : LokiBackend) (lokiRef : LokiRef)
    (entries : List LokiEntry) (cloudWatch : CloudWatchBackend) (streamId : String)
    {β : Type} (datadog : DatadogBackend β) (datadogRef : DatadogRef) :
    (LokiServes loki lokiRef window entries →
      (PagingContract (fun c => some (lokiRead loki lokiRef window c))
        (entries.map (lokiLine loki lokiRef)) ↔ ¬ EndsFull lokiRef window entries)) ∧
    (∀ (rest : Option String → List CloudWatchEvent) (valid : Option String → Prop)
      (rounds : Option String → ℕ),
      TokenServes (cloudWatchAsk cloudWatch window) rest valid rounds →
        ∃ n, ∀ fuel ≥ n, PagingContract (cloudWatchRead cloudWatch streamId window fuel)
          ((rest none).map (cloudWatchLine cloudWatch streamId))) ∧
    (∀ (rest : Option String → List β) (valid : Option String → Prop)
      (rounds : Option String → ℕ),
      datadog.apiKey ≠ "" ∧ datadog.appKey ≠ "" →
      TokenServes (datadogAsk datadog window) rest valid rounds →
      GivesPages (datadogAsk datadog window) rest valid →
      (rest none).length < datadogRef.rowCap →
        ∃ n, ∀ fuel ≥ n, PagingContract (datadogRead datadog datadogRef window fuel)
          ((rest none).map datadog.lineOf)) ∧
    (∀ (ρ κ : Type) (_ : DecidableEq κ) (lowering : Lowering) (p : Pipeline SourceLine ρ κ)
      (errorThreshold : ℕ) (rows rows' : List ρ) (job job' : IngestionJob)
      (t : TailTick SourceLine)
      (streams : List (String × (Option String → Option (Session SourceLine)) × List SourceLine)),
      (∀ stream ∈ streams, PagingContract stream.2.1 stream.2.2) →
      tickWindowForJob lowering job t.now t.clock = .ok window →
      t.adapter window = .ok (streams.map fun stream => streamRef stream.1 stream.2.1) →
      (∀ stream ∈ streams, ∃ seen, PagedReads.Reached (pagesOf stream.2.1)
        (startCursor (cursorsFromJob job) ∅ (streamRef stream.1 stream.2.1)) seen) →
      tickOneTailJob lowering p errorThreshold rows job t = .ok (rows', job') →
      job'.errorMessage = none → heldPagingWindow job' = none) := by
  refine ⟨?loki, ?cloudWatch, ?datadog, ?tail⟩
  case loki =>
    exact lokiRead_contract_iff
  case cloudWatch =>
    intro rest valid rounds h
    have hbounded : TokenServes (cloudWatchAsk cloudWatch window) rest (Bounded rounds valid)
        rounds := h.bounded fun _ _ _ _ hless => hless.le
    refine ⟨rounds none + 1, fun fuel hfuel => ?_⟩
    refine contract_of_reads (linesRest (cloudWatchLine cloudWatch streamId) rest)
      (Bounded rounds valid) hbounded.start (List.Perm.refl _) fun c hc => ?_
    exact cloudWatchRead_reads streamId hbounded hc (lt_of_le_of_lt hc.2 hfuel)
  case datadog =>
    intro rest valid rounds hkeys h hpages hcap
    have hbounded : TokenServes (datadogAsk datadog window) rest
        (Bounded (fun token => (rest token).length) valid) rounds := by
      refine h.bounded fun page token t hrest _ => ?_
      rw [hrest, List.length_append]
      exact Nat.le_add_left _ _
    refine ⟨(rest none).length + 1, fun fuel hfuel => ?_⟩
    refine contract_of_reads (linesRest datadog.lineOf rest)
      (Bounded (fun token => (rest token).length) valid) hbounded.start (List.Perm.refl _)
      fun c hc => ?_
    obtain ⟨s, hs, hending, hadvances, hclosed⟩ :=
      datadogRead_advances datadogRef hkeys hbounded
        (fun limit token hlimit hvalid => hpages limit token hlimit hvalid.1) hc
        (lt_of_le_of_lt hc.2 hfuel)
    exact ⟨s, hs, hending, hadvances.reads (hclosed (lt_of_le_of_lt hc.2 hcap))⟩
  case tail =>
    intro ρ κ _ lowering p errorThreshold rows rows' job job' t streams hcontracts hwindow
      hdiscover hreached htick hsuccess
    refine released_of_closed hwindow hdiscover htick hsuccess fun ref href => ?_
    obtain ⟨stream, hstream, rfl⟩ := List.mem_map.mp href
    obtain ⟨seen, hseen⟩ := hreached stream hstream
    have hcontract := hcontracts stream hstream
    obtain ⟨s, hs, -⟩ := hcontract.ends _ _ hseen
    have hclosed := (hcontract.drained _ _ hseen).2
    rw [pagesOf, hs] at hclosed
    rw [streamRef_cursor hs]
    exact hclosed

/-! A last page that is full. -/

/-- A stream with one line, in the last nanosecond of the window. -/
def lastNanosecond : List LokiEntry := [⟨999, [], "boom"⟩]

def lastNanosecondBackend : LokiBackend where
  baseUrl := "http://loki:3100"
  queryRange start _ _ :=
    .ok ⟨some "streams", [⟨[], if start ≤ 999 then [("999", "boom")] else []⟩]⟩
  datetimeFromNs ns := ns / 1000

theorem lastNanosecond_serves (ref : LokiRef) :
    LokiServes lastNanosecondBackend ref ⟨0, 1⟩ lastNanosecond where
  available := by decide
  ordered := List.pairwise_singleton _ _
  within := by decide
  answers n _ hn := by
    have hstop : n ≤ 999 := by
      change n < 1000 at hn
      omega
    refine ⟨_, rfl, rfl, ?_⟩
    have hentries : lastNanosecond.filter (fun e => n ≤ e.ts) = lastNanosecond :=
      List.filter_cons_of_pos (by simpa [lastNanosecond] using hstop)
    have hpage : lastNanosecond.take ref.pageLimit = lastNanosecond :=
      List.take_of_length_le (pageLimit_pos ref)
    rw [hentries, hpage, if_pos hstop]
    exact List.Perm.refl _

/-- A backend that has these entries of a stream. -/
def entriesBackend (entries : List LokiEntry) : LokiBackend where
  baseUrl := "http://loki:3100"
  queryRange start _ limit :=
    .ok ⟨some "streams", ((entries.filter fun e => start ≤ e.ts).take limit).map fun e =>
      ⟨e.labels, [(toString e.ts, e.line)]⟩⟩
  datetimeFromNs ns := ns / 1000

theorem entriesBackend_serves {entries : List LokiEntry} {window : TimeWindow}
    (hordered : entries.Pairwise fun a b => a.ts < b.ts)
    (hwithin : ∀ e ∈ entries, nsFromDatetime window.start ≤ e.ts ∧
      e.ts < nsFromDatetime window.stop) (ref : LokiRef) :
    LokiServes (entriesBackend entries) ref window entries where
  available := by
    show strip "http://loki:3100" ≠ ""
    decide
  ordered := hordered
  within := hwithin
  answers n _ _ := by
    refine ⟨_, rfl, rfl, List.Perm.of_eq ?_⟩
    rw [LokiPayload.entries, List.flatMap_map]
    refine (List.flatMap_congr fun e _ => ?_).trans (List.flatMap_singleton' _)
    rw [List.filterMap_cons, readInt_toString]
    rfl

/-- Three lines of a window, the last one in its last nanosecond. -/
def threeEntries : List LokiEntry :=
  [⟨100, [], "connecting"⟩, ⟨500, [], "retrying"⟩, ⟨999, [], "boom"⟩]

def sampleDatadog : DatadogBackend String where
  apiKey := ""
  appKey := ""
  searchLogs _ _ _ := .error ""
  lineOf s := ⟨s, "", none, none, none, none⟩

/-- Pages of two lines: a full one, and a short one that ends with the window. -/
theorem paging_contract_of_short_page :
    PagingContract (fun c => some (lokiRead (entriesBackend threeEntries) ⟨"api", some 2⟩ ⟨0, 1⟩ c))
      (threeEntries.map (lokiLine (entriesBackend threeEntries) ⟨"api", some 2⟩)) :=
  ((paging_contract ⟨0, 1⟩ (entriesBackend threeEntries) ⟨"api", some 2⟩ threeEntries
    ⟨fun _ _ _ => .error "", id⟩ "" sampleDatadog ⟨1000, 1000⟩).1
      (entriesBackend_serves (by decide) (by decide) _)).mpr fun hends => absurd hends.1 (by decide)

theorem not_paging_contract_of_full_page :
    LokiServes lastNanosecondBackend ⟨"api", some 1⟩ ⟨0, 1⟩ lastNanosecond ∧
    ¬ PagingContract (fun c => some (lokiRead lastNanosecondBackend ⟨"api", some 1⟩ ⟨0, 1⟩ c))
      (lastNanosecond.map (lokiLine lastNanosecondBackend ⟨"api", some 1⟩)) := by
  refine ⟨lastNanosecond_serves _, fun hcontract => ?_⟩
  refine (lokiRead_contract_iff (lastNanosecond_serves _)).mp hcontract ⟨by decide, ?_⟩
  exact ⟨⟨999, [], "boom"⟩, List.mem_singleton_self _, by decide⟩

end Raglogs.PagingLaws
