import Raglogs.Collections
import Raglogs.KeyedMachines
import Mathlib.Algebra.Order.Field.Basic
import Mathlib.Tactic.Linarith
import Mathlib.Tactic.FieldSimp
import Mathlib.Data.Rat.Cast.Order

/-!
Token buckets for ingest and query routes, in exact arithmetic. A bucket is filled
lazily, when it is asked, and starts full for a rate and a burst it has not seen. Its
tokens never leave the range from zero to the capacity, what it allows in an interval
is at most a full bucket and the refill of the interval, and a client that waits for
one token between requests always finds it.
-/

namespace Raglogs.RateLimit

open Collections Dicts KeyedMachines

inductive RateLimitKind
  | ingest
  | query
deriving DecidableEq, Repr

structure TokenBucket (K : Type) where
  tokens : K
  updated : K
  rate : K
  burst : K

section Code

variable {K : Type} [Field K] [LinearOrder K]

def TokenBucket.new (now : K) : TokenBucket K := ⟨0, now, 0, 0⟩

/-- The bucket at an instant: full if the rate or the capacity changed, else refilled. -/
def TokenBucket.fill (b : TokenBucket K) (rate capacity now : K) : TokenBucket K :=
  if rate ≠ b.rate ∨ capacity ≠ b.burst then ⟨capacity, now, rate, capacity⟩
  else { b with tokens := min capacity (b.tokens + (now - b.updated) * rate), updated := now }

def TokenBucket.consume (b : TokenBucket K) (rate burst tokens now : K) : Bool × TokenBucket K :=
  if rate ≤ 0 then (true, b)
  else
    let filled := b.fill rate (max burst tokens) now
    if tokens ≤ filled.tokens then (true, { filled with tokens := filled.tokens - tokens })
    else (false, filled)

abbrev Key := RateLimitKind × String

/-- Consume one token from the bucket of the kind and the identity. -/
def allowRequest (buckets : Dict Key (TokenBucket K)) (kind : RateLimitKind) (identity : String)
    (rate burst now : K) : Bool × Dict Key (TokenBucket K) :=
  if rate ≤ 0 then (true, buckets)
  else
    let bucket := (buckets.lookup (kind, identity)).getD (TokenBucket.new now)
    let (allowed, bucket') := bucket.consume rate burst 1 now
    (allowed, buckets.insert (kind, identity) bucket')

structure Request (K : Type) where
  kind : RateLimitKind
  identity : String
  time : K
deriving DecidableEq

def Request.key (r : Request K) : Key := (r.kind, r.identity)

/-- The answers to some requests, under one rate for each kind and one burst. -/
def serveAll (rate : RateLimitKind → K) (burst : K) :
    Dict Key (TokenBucket K) → List (Request K) → List (Request K × Bool)
  | _, [] => []
  | buckets, r :: rest =>
      let (allowed, buckets') := allowRequest buckets r.kind r.identity (rate r.kind) burst r.time
      (r, allowed) :: serveAll rate burst buckets' rest

def bucketsAfter (rate : RateLimitKind → K) (burst : K) :
    Dict Key (TokenBucket K) → List (Request K) → Dict Key (TokenBucket K)
  | buckets, [] => buckets
  | buckets, r :: rest =>
      bucketsAfter rate burst
        (allowRequest buckets r.kind r.identity (rate r.kind) burst r.time).2 rest

end Code

/-! One bucket. -/

section Bucket

variable {K : Type} [Field K] [LinearOrder K] [IsStrictOrderedRing K]

/-- A bucket that serves this rate and burst, with no more tokens than it can hold. -/
structure Live (rate burst : K) (b : TokenBucket K) : Prop where
  rate_eq : b.rate = rate
  burst_eq : b.burst = max burst 1
  nonneg : 0 ≤ b.tokens
  le_capacity : b.tokens ≤ max burst 1

/-- A key that was not seen yet, or whose bucket is live and not ahead of these times. -/
def Ready (rate burst : K) (state : Option (TokenBucket K)) (times : List K) : Prop :=
  ∀ b, state = some b → Live rate burst b ∧ ∀ t ∈ times, b.updated ≤ t

/-- The tokens there are at an instant, before one is taken. -/
def level (rate burst : K) (state : Option (TokenBucket K)) (now : K) : K :=
  match state with
  | none => max burst 1
  | some b => min (max burst 1) (b.tokens + (now - b.updated) * rate)

/-- The buckets of some rates and a burst, one for each key. -/
def bucketMachine (rate : RateLimitKind → K) (burst : K) : Machine Key (TokenBucket K) K Bool where
  init _ now := TokenBucket.new now
  step k b now := b.consume (rate k.1) burst 1 now

variable {rate burst : K}

omit [IsStrictOrderedRing K] in
theorem level_le (state : Option (TokenBucket K)) (now : K) :
    level rate burst state now ≤ max burst 1 := by
  cases state with
  | none => exact le_rfl
  | some b => exact min_le_left _ _

theorem level_nonneg (hrate : 0 < rate) {state : Option (TokenBucket K)} {now : K} {times : List K}
    (h : Ready rate burst state (now :: times)) : 0 ≤ level rate burst state now := by
  have hcap : (0 : K) ≤ max burst 1 := zero_le_one.trans (le_max_right _ _)
  cases state with
  | none => exact hcap
  | some b =>
    obtain ⟨hlive, htimes⟩ := h b rfl
    have hpassed : 0 ≤ now - b.updated := sub_nonneg.mpr (htimes now List.mem_cons_self)
    exact le_min hcap (add_nonneg hlive.nonneg (mul_nonneg hpassed hrate.le))

omit [IsStrictOrderedRing K] in
/-- What a bucket has when it is asked: it is full at first, and refilled since. -/
theorem fill_tokens (hrate : 0 < rate) {state : Option (TokenBucket K)} {now : K} {times : List K}
    (h : Ready rate burst state (now :: times)) :
    (state.getD (TokenBucket.new now)).fill rate (max burst 1) now =
      ⟨level rate burst state now, now, rate, max burst 1⟩ := by
  cases state with
  | none => exact if_pos (Or.inl hrate.ne')
  | some b =>
    obtain ⟨hlive, -⟩ := h b rfl
    have hsame : ¬ (rate ≠ b.rate ∨ max burst 1 ≠ b.burst) := by
      simp [hlive.rate_eq, hlive.burst_eq]
    have hfill : (b.fill rate (max burst 1) now) =
        ⟨level rate burst (some b) now, now, b.rate, b.burst⟩ := if_neg hsame
    rw [Option.getD_some, hfill, hlive.rate_eq, hlive.burst_eq]

/-- What one request does to the bucket of its key. -/
structure Consumed (rate burst : K) (state : Option (TokenBucket K)) (now : K)
    (answer : Bool × TokenBucket K) : Prop where
  allowed_iff : answer.1 = true ↔ 1 ≤ level rate burst state now
  tokens_eq : answer.2.tokens =
    level rate burst state now - if answer.1 = true then 1 else 0
  updated_eq : answer.2.updated = now
  live : Live rate burst answer.2

theorem consume_spec (hrate : 0 < rate) {state : Option (TokenBucket K)} {now : K} {times : List K}
    (h : Ready rate burst state (now :: times)) :
    Consumed rate burst state now
      ((state.getD (TokenBucket.new now)).consume rate burst 1 now) := by
  have hnonneg := level_nonneg hrate h
  have hle : level rate burst state now ≤ max burst 1 := level_le state now
  simp only [TokenBucket.consume, if_neg (not_le.mpr hrate), fill_tokens hrate h]
  by_cases hl : 1 ≤ level rate burst state now
  · rw [if_pos hl]
    refine ⟨by simp [hl], by simp, rfl, ⟨rfl, rfl, sub_nonneg.mpr hl, ?_⟩⟩
    exact (sub_le_self _ zero_le_one).trans hle
  · rw [if_neg hl]
    exact ⟨by simp [hl], by simp, rfl, ⟨rfl, rfl, hnonneg, hle⟩⟩

omit [IsStrictOrderedRing K] in
/-- After a request the bucket is ready for the later ones. -/
theorem Consumed.ready {state : Option (TokenBucket K)} {now : K} {times : List K}
    {answer : Bool × TokenBucket K} (h : Consumed rate burst state now answer)
    (hsorted : (now :: times).Pairwise (· ≤ ·)) : Ready rate burst (some answer.2) times := by
  intro b hb
  obtain rfl := Option.some.inj hb
  refine ⟨h.live, fun t ht => ?_⟩
  rw [h.updated_eq]
  exact (List.pairwise_cons.mp hsorted).1 t ht

end Bucket

/-! The requests of one key. -/

section OneKey

variable {K : Type} [Field K] [LinearOrder K] [IsStrictOrderedRing K]
  {rate : RateLimitKind → K} {burst : K} {k : Key}

/-- How many requests of an interval were allowed. -/
def allowedIn (start stop : K) (l : List (K × Bool)) : ℕ :=
  l.countP (fun p => p.2 && decide (start ≤ p.1) && decide (p.1 ≤ stop))

omit [Field K] [IsStrictOrderedRing K] in
theorem allowedIn_cons (start stop : K) (p : K × Bool) (l : List (K × Bool)) :
    allowedIn start stop (p :: l) = allowedIn start stop l +
      if p.2 = true ∧ start ≤ p.1 ∧ p.1 ≤ stop then 1 else 0 := by
  simp [allowedIn, List.countP_cons, and_assoc]

theorem allowedIn_cons_le (start stop : K) (p : K × Bool) (l : List (K × Bool)) :
    (allowedIn start stop (p :: l) : K) ≤
      allowedIn start stop l + if p.2 = true then 1 else 0 := by
  rw [allowedIn_cons, Nat.cast_add]
  by_cases hp : p.2 = true <;> split <;> simp_all

omit [Field K] [IsStrictOrderedRing K] in
theorem forall_lt_of_sorted {stop now : K} {rest : List K} (hnow : stop < now)
    (hsorted : (now :: rest).Pairwise (· ≤ ·)) : ∀ t ∈ now :: rest, stop < t := by
  intro t ht
  rcases List.mem_cons.mp ht with rfl | ht
  · exact hnow
  · exact hnow.trans_le ((List.pairwise_cons.mp hsorted).1 t ht)

/-- The step of one key's run. -/
theorem react_spec (hrate : 0 < rate k.1) {state : Option (TokenBucket K)} {now : K}
    {times : List K} (h : Ready (rate k.1) burst state (now :: times)) :
    Consumed (rate k.1) burst state now ((bucketMachine rate burst).react k state now) :=
  consume_spec hrate h

omit [IsStrictOrderedRing K] in
/-- What comes after an interval is not in it. -/
theorem allowedIn_eq_zero {start stop : K} {state : Option (TokenBucket K)} {times : List K}
    (h : ∀ t ∈ times, stop < t) :
    allowedIn start stop ((bucketMachine rate burst).run k state times) = 0 := by
  rw [allowedIn, List.countP_eq_zero]
  intro p hp
  have hmem : p.1 ∈ times := by
    rw [← (bucketMachine rate burst).map_fst_run k state times]
    exact List.mem_map_of_mem hp
  simp [not_le.mpr (h p.1 hmem)]

/-- What a key is allowed up to an instant is paid for by its tokens and the refill. -/
theorem allowedIn_le_tokens (start : K) (hrate : 0 < rate k.1) {b : TokenBucket K}
    {times : List K} (h : Ready (rate k.1) burst (some b) times)
    (hsorted : times.Pairwise (· ≤ ·)) {stop : K} (hstop : b.updated ≤ stop) :
    (allowedIn start stop ((bucketMachine rate burst).run k (some b) times) : K) ≤
      b.tokens + (stop - b.updated) * rate k.1 := by
  have hnonneg := (h b rfl).1.nonneg
  have hpaid := mul_nonneg (sub_nonneg.mpr hstop) hrate.le
  induction times generalizing b with
  | nil => simpa [Machine.run, allowedIn] using add_nonneg hnonneg hpaid
  | cons now rest ih =>
    by_cases hnow : now ≤ stop
    · have hstep := react_spec hrate h
      set answer := (bucketMachine rate burst).react k (some b) now with hanswer
      have hle : answer.2.updated ≤ stop := by rw [hstep.updated_eq]; exact hnow
      have hrest := ih (hstep.ready hsorted) (List.pairwise_cons.mp hsorted).2 hle
        hstep.live.nonneg (mul_nonneg (sub_nonneg.mpr hle) hrate.le)
      have hlevel : level (rate k.1) burst (some b) now ≤
          b.tokens + (now - b.updated) * rate k.1 := min_le_right _ _
      rw [hstep.tokens_eq, hstep.updated_eq] at hrest
      have hcons := allowedIn_cons_le start stop (now, answer.1)
        ((bucketMachine rate burst).run k (some answer.2) rest)
      rw [Machine.run, ← hanswer]
      linarith
    · rw [allowedIn_eq_zero (forall_lt_of_sorted (not_le.mp hnow) hsorted), Nat.cast_zero]
      exact add_nonneg hnonneg hpaid

/-- In an interval a key is allowed a full bucket and the refill of the interval. -/
theorem allowedIn_le_capacity (hrate : 0 < rate k.1) {state : Option (TokenBucket K)}
    {times : List K} (h : Ready (rate k.1) burst state times) (hsorted : times.Pairwise (· ≤ ·))
    {start stop : K} (hle : start ≤ stop) :
    (allowedIn start stop ((bucketMachine rate burst).run k state times) : K) ≤
      max burst 1 + (stop - start) * rate k.1 := by
  have hcap : (0 : K) ≤ max burst 1 := zero_le_one.trans (le_max_right _ _)
  have hrefill := mul_nonneg (sub_nonneg.mpr hle) hrate.le
  induction times generalizing state with
  | nil => simpa [Machine.run, allowedIn] using add_nonneg hcap hrefill
  | cons now rest ih =>
    have hstep := react_spec hrate h
    have hready := hstep.ready hsorted
    have htail := (List.pairwise_cons.mp hsorted).2
    rcases lt_or_ge now start with hbefore | hstart
    · have hno : ¬ (((bucketMachine rate burst).react k state now).1 = true ∧ start ≤ now ∧
          now ≤ stop) := fun hin => absurd hin.2.1 (not_le.mpr hbefore)
      rw [Machine.run, allowedIn_cons, if_neg hno, Nat.add_zero]
      exact ih hready htail
    rcases le_or_gt now stop with hstop | hafter
    · -- the first request inside finds at most a full bucket
      have hupdated : ((bucketMachine rate burst).react k state now).2.updated ≤ stop := by
        rw [hstep.updated_eq]
        exact hstop
      have hrest := allowedIn_le_tokens start hrate hready htail hupdated
      have hlevel : level (rate k.1) burst state now ≤ max burst 1 := level_le state now
      have hcons := allowedIn_cons_le start stop
        (now, ((bucketMachine rate burst).react k state now).1)
        ((bucketMachine rate burst).run k
          (some ((bucketMachine rate burst).react k state now).2) rest)
      have hlate := mul_le_mul_of_nonneg_right (sub_le_sub_left hstart stop) hrate.le
      rw [hstep.tokens_eq, hstep.updated_eq] at hrest
      rw [Machine.run]
      linarith
    · rw [allowedIn_eq_zero (forall_lt_of_sorted hafter hsorted), Nat.cast_zero]
      exact add_nonneg hcap hrefill

/-- A bucket asked again after the time of one token has it. -/
theorem all_allowed (hrate : 0 < rate k.1) {state : Option (TokenBucket K)} {times : List K}
    (h : Ready (rate k.1) burst state times) (hsorted : times.Pairwise (· ≤ ·))
    (hfirst : ∀ b, state = some b → ∀ t ∈ times.head?, 1 / rate k.1 ≤ t - b.updated)
    (hgap : times.IsChain (fun s t => 1 / rate k.1 ≤ t - s)) :
    ∀ p ∈ (bucketMachine rate burst).run k state times, p.2 = true := by
  induction times generalizing state with
  | nil => simp [Machine.run]
  | cons now rest ih =>
    have hstep := react_spec hrate h
    have hone : 1 ≤ level (rate k.1) burst state now := by
      cases state with
      | none => exact le_max_right _ _
      | some b =>
        have hwait := (div_le_iff₀ hrate).mp (hfirst b rfl now rfl)
        have hnonneg := (h b rfl).1.nonneg
        exact le_min (le_max_right _ _) (by linarith)
    have hrest := ih (hstep.ready hsorted) (List.pairwise_cons.mp hsorted).2 (by
      intro b hb t ht
      obtain rfl := Option.some.inj hb
      rw [hstep.updated_eq]
      cases rest with
      | nil => cases ht
      | cons t' rest =>
        obtain rfl := Option.some.inj ht
        exact (List.isChain_cons_cons.mp hgap).1) hgap.tail
    rw [Machine.run]
    simp only [List.mem_cons, forall_eq_or_imp]
    exact ⟨hstep.allowed_iff.mpr hone, hrest⟩

/-- Whatever a key asks for, its bucket stays live. -/
theorem live_after (hrate : 0 < rate k.1) {state : Option (TokenBucket K)} {times : List K}
    (h : Ready (rate k.1) burst state times) (hsorted : times.Pairwise (· ≤ ·))
    {b : TokenBucket K} (hb : (bucketMachine rate burst).after k state times = some b) :
    Live (rate k.1) burst b := by
  induction times generalizing state with
  | nil => exact (h b hb).1
  | cons now rest ih =>
    exact ih ((react_spec hrate h).ready hsorted) (List.pairwise_cons.mp hsorted).2 hb

end OneKey

/-! The requests of all keys. -/

section Requests

variable {K : Type} [Field K] [LinearOrder K] {rate : RateLimitKind → K} {burst : K}

/-- A request as an input of its key's bucket. -/
def Request.input (r : Request K) : Key × K := (r.key, r.time)

theorem allowRequest_eq (hrate : ∀ kind, 0 < rate kind) (buckets : Dict Key (TokenBucket K))
    (r : Request K) :
    allowRequest buckets r.kind r.identity (rate r.kind) burst r.time =
      (bucketMachine rate burst).serve buckets r.key r.time :=
  if_neg (not_le.mpr (hrate r.kind))

theorem serveAll_cons (hrate : ∀ kind, 0 < rate kind) (buckets : Dict Key (TokenBucket K))
    (r : Request K) (rest : List (Request K)) :
    serveAll rate burst buckets (r :: rest) =
      (r, ((bucketMachine rate burst).serve buckets r.key r.time).1) ::
        serveAll rate burst ((bucketMachine rate burst).serve buckets r.key r.time).2 rest := by
  rw [serveAll, allowRequest_eq hrate]

theorem map_serveAll (hrate : ∀ kind, 0 < rate kind) (buckets : Dict Key (TokenBucket K))
    (reqs : List (Request K)) :
    (serveAll rate burst buckets reqs).map (fun d => (d.1.key, d.1.time, d.2)) =
      (bucketMachine rate burst).serveAll buckets (reqs.map Request.input) := by
  induction reqs generalizing buckets with
  | nil => rfl
  | cons r rest ih =>
    rw [serveAll_cons hrate, List.map_cons, ih]
    rfl

theorem bucketsAfter_eq (hrate : ∀ kind, 0 < rate kind) (buckets : Dict Key (TokenBucket K))
    (reqs : List (Request K)) :
    bucketsAfter rate burst buckets reqs =
      (bucketMachine rate burst).storeAfter buckets (reqs.map Request.input) := by
  induction reqs generalizing buckets with
  | nil => rfl
  | cons r rest ih =>
    rw [bucketsAfter, allowRequest_eq hrate, ih]
    rfl

/-- The requests of a key are answered by its bucket alone. -/
theorem answersOf_map (burst : K) (hrate : ∀ kind, 0 < rate kind) (key : Key)
    (reqs : List (Request K)) :
    ((serveAll rate burst ∅ reqs).filter (fun d => d.1.key = key)).map
        (fun d => (d.1.time, d.2)) =
      (bucketMachine rate burst).run key none
        ((reqs.filter (fun r => r.key = key)).map Request.time) := by
  have hanswers := (bucketMachine rate burst).answersOf_serveAll key ∅ (reqs.map Request.input)
  rw [← map_serveAll hrate, Finmap.lookup_empty] at hanswers
  simp only [Machine.answersOf, Machine.inputsOf, List.filter_map, List.map_map,
    Function.comp_def, Request.input] at hanswers
  exact hanswers

theorem serveAll_map_fst (rate : RateLimitKind → K) (burst : K)
    (buckets : Dict Key (TokenBucket K)) (reqs : List (Request K)) :
    (serveAll rate burst buckets reqs).map Prod.fst = reqs := by
  induction reqs generalizing buckets with
  | nil => rfl
  | cons r rest ih =>
    simp only [serveAll, List.map_cons]
    rw [ih]

/-- A key is answered as if it were alone. -/
theorem serveAll_filter (hrate : ∀ kind, 0 < rate kind) (key : Key) (reqs : List (Request K)) :
    (serveAll rate burst ∅ reqs).filter (fun d => d.1.key = key) =
      serveAll rate burst ∅ (reqs.filter (fun r => r.key = key)) := by
  have hanswers := answersOf_map burst hrate key reqs
  have halone := answersOf_map burst hrate key (reqs.filter (fun r => r.key = key))
  have hall : (serveAll rate burst ∅ (reqs.filter (fun r => r.key = key))).filter
      (fun d => d.1.key = key) = serveAll rate burst ∅ (reqs.filter (fun r => r.key = key)) := by
    rw [List.filter_eq_self]
    intro d hd
    have hmem : d.1 ∈ reqs.filter (fun r => r.key = key) := by
      rw [← serveAll_map_fst rate burst ∅ (reqs.filter _)]
      exact List.mem_map_of_mem hd
    exact (List.mem_filter.mp hmem).2
  rw [hall, List.filter_filter] at halone
  simp only [Bool.and_self] at halone
  refine eq_of_map_fst_snd ?_ ?_
  · rw [serveAll_map_fst]
    have hfilter := List.filter_map (p := fun r : Request K => decide (r.key = key))
      (f := Prod.fst) (l := serveAll rate burst ∅ reqs)
    rw [serveAll_map_fst] at hfilter
    exact hfilter.symm
  · have hsame := congrArg (List.map Prod.snd) (hanswers.trans halone.symm)
    simpa [List.map_map, Function.comp_def] using hsame

end Requests

/-- Under constant rates and burst: tokens stay within the capacity, an interval is
allowed at most a full bucket and its refill, a client that waits for a token between
requests is never rejected, and a key is answered as if it were alone. -/
theorem rate_limit_correct {K : Type} [Field K] [LinearOrder K] [IsStrictOrderedRing K]
    {rate : RateLimitKind → K} (hrate : ∀ kind, 0 < rate kind) (burst : K)
    {reqs : List (Request K)} (hsorted : reqs.Pairwise (fun r s => r.time ≤ s.time)) :
    (∀ served rest, reqs = served ++ rest → ∀ key b,
      (bucketsAfter rate burst ∅ served).lookup key = some b →
        0 ≤ b.tokens ∧ b.tokens ≤ max burst 1) ∧
    (∀ (key : Key) (start length : K), 0 ≤ length →
      ((serveAll rate burst ∅ reqs).countP (fun d => d.1.key = key ∧ d.2 = true ∧
          start ≤ d.1.time ∧ d.1.time ≤ start + length) : K) ≤
        max burst 1 + rate key.1 * length) ∧
    (∀ key : Key, (reqs.filter (fun r => r.key = key)).IsChain
        (fun r s => 1 / rate key.1 ≤ s.time - r.time) →
      ∀ d ∈ serveAll rate burst ∅ reqs, d.1.key = key → d.2 = true) ∧
    ∀ key : Key, (serveAll rate burst ∅ reqs).filter (fun d => d.1.key = key) =
      serveAll rate burst ∅ (reqs.filter (fun r => r.key = key)) := by
  have htimes : ∀ l : List (Request K), l.Sublist reqs →
      (l.map Request.time).Pairwise (· ≤ ·) := fun l hl =>
    List.pairwise_map.mpr (hsorted.sublist hl)
  have hready : ∀ (key : Key) (times : List K), Ready (rate key.1) burst none times :=
    fun key times b hb => by cases hb
  refine ⟨?_, ?_, ?_, ?_⟩
  · rintro served rest rfl key b hb
    rw [bucketsAfter_eq hrate, Machine.lookup_storeAfter, Finmap.lookup_empty] at hb
    have hsub : (served.filter (fun r => r.key = key)).Sublist (served ++ rest) :=
      List.filter_sublist.trans (List.sublist_append_left served rest)
    have hinputs : Machine.inputsOf key (served.map Request.input) =
        (served.filter (fun r => r.key = key)).map Request.time := by
      simp only [Machine.inputsOf, List.filter_map, List.map_map, Function.comp_def, Request.input]
      rfl
    rw [hinputs] at hb
    have hlive := live_after (hrate key.1) (hready key _) (htimes _ hsub) hb
    exact ⟨hlive.nonneg, hlive.le_capacity⟩
  · intro key start length hlength
    have hbound := allowedIn_le_capacity (hrate key.1) (hready key _)
      (htimes (reqs.filter (fun r => r.key = key)) List.filter_sublist)
      (le_add_of_nonneg_right hlength : start ≤ start + length)
    rw [← answersOf_map burst hrate, add_sub_cancel_left, mul_comm length] at hbound
    refine le_of_eq_of_le ?_ hbound
    rw [allowedIn, List.countP_map, List.countP_filter]
    congr 1
    apply List.countP_congr
    intro d _
    simp only [decide_eq_true_eq, Function.comp_apply, Bool.and_eq_true]
    tauto
  · intro key hgap d hd hkey
    have hall := all_allowed (hrate key.1) (hready key _)
      (htimes (reqs.filter (fun r => r.key = key)) List.filter_sublist)
      (fun b hb => by cases hb) (List.isChain_map _ |>.mpr hgap)
    rw [← answersOf_map burst hrate] at hall
    exact hall _ (List.mem_map_of_mem (List.mem_filter.mpr ⟨hd, by simp [hkey]⟩))
  · exact fun key => serveAll_filter hrate key reqs

/-- A burst of two at one instant, and a third request that is too early. -/
theorem rate_limit_correct_burst :
    (∀ kind : RateLimitKind, (0 : ℚ) < (fun _ => 1) kind) ∧
      ((serveAll (fun _ => 1) 2 ∅ [⟨.query, "anonymous", 0⟩, ⟨.query, "anonymous", 0⟩,
        ⟨.query, "anonymous", 1 / 2⟩]).countP (fun d => d.1.key = (.query, "anonymous") ∧
          d.2 = true ∧ 0 ≤ d.1.time ∧ d.1.time ≤ 0 + (1 / 2 : ℚ)) : ℚ) ≤ max 2 1 + 1 * (1 / 2) :=
  ⟨by simp, (rate_limit_correct (by simp) 2 (by simp)).2.1 (.query, "anonymous") 0 (1 / 2)
    (by norm_num)⟩

end Raglogs.RateLimit
