import Mathlib.Data.List.DropRight
import Mathlib.Data.List.TakeWhile
import Raglogs.Text

/-!
What stripping a text of white space leaves: nothing of a blank text, and all of a text
that begins and ends in something else.
-/

namespace Raglogs.Stripping

open Text

def nonblank (w : List Char) : Bool := w.any fun a => !isSpace a

theorem nonblank_of_mem {w : List Char} {a : Char} (ha : a ∈ w) (hspace : isSpace a = false) :
    nonblank w = true :=
  List.any_eq_true.mpr ⟨a, ha, by simp [hspace]⟩

theorem dropWhile_eq_nil_iff_blank (w : List Char) :
    w.dropWhile isSpace = [] ↔ nonblank w = false := by
  rw [List.dropWhile_eq_nil_iff, nonblank, List.any_eq_false]
  simp

theorem strip_ne_empty_iff (w : List Char) :
    strip (String.ofList w) ≠ "" ↔ nonblank w = true := by
  rw [← Bool.not_eq_false, ← dropWhile_eq_nil_iff_blank, not_iff_not, strip, String.toList_ofList,
    ← String.toList_inj, String.toList_ofList, String.toList_empty, List.reverse_eq_nil_iff]
  constructor
  · intro h
    -- what is left begins with a character that is no white space
    by_contra hne
    have hhead := List.head_dropWhile_not isSpace hne
    rw [List.dropWhile_eq_nil_iff] at h
    have hspace := h _ (List.mem_reverse.mpr (List.head_mem hne))
    rw [hhead] at hspace
    cases hspace
  · intro h
    rw [h]
    rfl

/-- White space around a text is stripped. -/
theorem strip_of_spaces {left core right : List Char} (hleft : ∀ a ∈ left, isSpace a = true)
    (hright : ∀ a ∈ right, isSpace a = true) (hhead : ∀ a ∈ core.head?, isSpace a = false)
    (hlast : ∀ a ∈ core.getLast?, isSpace a = false) (hne : core ≠ []) :
    strip (String.ofList (left ++ (core ++ right))) = String.ofList core := by
  have hdrop : ∀ w v : List Char, w ≠ [] → (∀ a ∈ w.head?, isSpace a = false) →
      (w ++ v).dropWhile isSpace = w ++ v := by
    intro w v hw hhead
    obtain ⟨a, w, rfl⟩ := List.exists_cons_of_ne_nil hw
    exact List.dropWhile_cons_of_neg (by simp [hhead a rfl])
  have hback := hdrop core.reverse [] (by simpa using hne) (by rwa [List.head?_reverse])
  rw [List.append_nil] at hback
  rw [strip, String.toList_ofList, List.dropWhile_append_of_pos hleft, hdrop core right hne hhead,
    List.reverse_append, List.dropWhile_append_of_pos fun a ha => hright a (List.mem_reverse.mp ha),
    hback, List.reverse_reverse]

theorem strip_eq_self {s : String} (h : ∀ a ∈ s.toList, isSpace a = false) : strip s = s := by
  by_cases hne : s.toList = []
  · obtain rfl := String.toList_eq_nil_iff.mp hne
    rfl
  · have hnone : ∀ a ∈ ([] : List Char), isSpace a = true := List.forall_mem_nil _
    have hstrip := strip_of_spaces hnone hnone (fun a ha => h a (List.mem_of_mem_head? ha))
      (fun a ha => h a (List.mem_of_mem_getLast? ha)) hne
    simpa using hstrip

/-- Nothing is left to strip. -/
theorem strip_strip (s : String) : strip (strip s) = strip s := by
  have hcore : strip s = String.ofList ((s.toList.dropWhile isSpace).rdropWhile isSpace) := rfl
  rw [hcore]
  generalize hback : (s.toList.dropWhile isSpace).rdropWhile isSpace = back
  have hleft : back.dropWhile isSpace = back := by
    cases back with
    | nil => rfl
    | cons a rest =>
      refine List.dropWhile_cons_of_neg ?_
      have hstart : a :: rest <+: s.toList.dropWhile isSpace :=
        hback ▸ List.rdropWhile_prefix isSpace (l := s.toList.dropWhile isSpace)
      obtain ⟨tail, htail⟩ := hstart
      have hhead := List.head?_dropWhile_not isSpace s.toList
      rw [← htail] at hhead
      simpa using hhead
  have hright : back.rdropWhile isSpace = back := by
    rw [← hback]
    exact List.rdropWhile_idempotent isSpace _
  rw [strip, String.toList_ofList, hleft]
  exact congrArg String.ofList hright

end Raglogs.Stripping
