import Mathlib.Data.List.TakeWhile
import Mathlib.Tactic.Linarith

/-!
Texts that can be read back off the front of what they are part of: a block of
characters of one kind, a number of a fixed width, and a number of any width that no
digit follows.
-/

namespace Raglogs.Encodings

/-- A property that a test over a list confirms. Over a finite type the deciding of a
bounded quantifier would go through the type. -/
theorem forall_mem_of_all {α : Type*} {p : α → Prop} [DecidablePred p] {l : List α}
    (h : l.all (fun a => p a) = true) : ∀ a ∈ l, p a := by
  simpa using h

/-- A text splits in one way into characters of a kind and what does not start with one. -/
theorem span_unique {σ : Type*} {p : σ → Bool} {u v u' v' : List σ} (h : u ++ v = u' ++ v')
    (hu : ∀ a ∈ u, p a = true) (hu' : ∀ a ∈ u', p a = true) (hv : ∀ a ∈ v.head?, p a = false)
    (hv' : ∀ a ∈ v'.head?, p a = false) : u = u' ∧ v = v' := by
  have hdrop : ∀ w : List σ, (∀ a ∈ w.head?, p a = false) → w.dropWhile p = w := by
    intro w hw
    cases w with
    | nil => rfl
    | cons a w => exact List.dropWhile_cons_of_neg (by simp [hw a rfl])
  have hright : v = v' := by
    calc
      v = (u ++ v).dropWhile p := by rw [List.dropWhile_append_of_pos hu, hdrop v hv]
      _ = (u' ++ v').dropWhile p := by rw [h]
      _ = v' := by rw [List.dropWhile_append_of_pos hu', hdrop v' hv']
  subst hright
  exact ⟨List.append_cancel_right h, rfl⟩

/-- The last digits of a number, as many as are asked for. -/
def padded (base : ℕ) : ℕ → ℕ → List Char
  | 0, _ => []
  | width + 1, n => padded base width (n / base) ++ [Nat.digitChar (n % base)]

@[simp]
theorem length_padded (base width n : ℕ) : (padded base width n).length = width := by
  induction width generalizing n with
  | zero => rfl
  | succ width ih => rw [padded, List.length_append, ih, List.length_singleton]

theorem digitChar_injOn {m n : ℕ} (hm : m < 16) (hn : n < 16)
    (h : Nat.digitChar m = Nat.digitChar n) : m = n := by
  have hall : ∀ a < 16, ∀ b < 16, Nat.digitChar a = Nat.digitChar b → a = b := by decide
  exact hall m hm n hn h

/-- A number of a fixed width and what follows it. -/
theorem padded_append_inj {base : ℕ} (hbase : 0 < base) (hdigit : base ≤ 16) {width m n : ℕ}
    (hm : m < base ^ width) (hn : n < base ^ width) {r s : List Char}
    (h : padded base width m ++ r = padded base width n ++ s) : m = n ∧ r = s := by
  obtain ⟨hdigits, hrest⟩ := List.append_inj h (by simp)
  refine ⟨?_, hrest⟩
  clear h hrest
  induction width generalizing m n with
  | zero =>
    rw [pow_zero] at hm hn
    omega
  | succ width ih =>
    rw [padded, padded] at hdigits
    obtain ⟨hhigh, hlow⟩ := List.append_inj hdigits (by simp)
    have hquotient : ∀ k, k < base ^ (width + 1) → k / base < base ^ width := by
      intro k hk
      rw [pow_succ] at hk
      exact (Nat.div_lt_iff_lt_mul hbase).mpr hk
    have hdiv := ih (hquotient m hm) (hquotient n hn) hhigh
    have hmod := digitChar_injOn ((Nat.mod_lt m hbase).trans_le hdigit)
      ((Nat.mod_lt n hbase).trans_le hdigit) (List.singleton_inj.mp hlow)
    calc
      m = base * (m / base) + m % base := (Nat.div_add_mod m base).symm
      _ = base * (n / base) + n % base := by rw [hdiv, hmod]
      _ = n := Nat.div_add_mod n base

theorem toDigits_inj {m n : ℕ} (h : Nat.toDigits 10 m = Nat.toDigits 10 n) : m = n := by
  rw [← Nat.ofDigitChars_ten_toDigits (n := m), h, Nat.ofDigitChars_ten_toDigits]

end Raglogs.Encodings
