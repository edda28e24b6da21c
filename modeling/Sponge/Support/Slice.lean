import Mathlib.Data.List.Basic
import Mathlib.Data.List.Infix
import Mathlib.Data.List.TakeDrop

/-!
# Slices of a list

`S.extract i j` is the part of `S` from index `i` up to, and without, index
`j`.  The lemmas say how slices are cut, glued and carried over to a longer
list.
-/

namespace Sponge

variable {α : Type*}

theorem extract_length_of_le
    {S : List α} {i j : ℕ} (hj : j ≤ S.length) :
    (S.extract i j).length = j - i := by
  rw [List.extract_eq_take_drop, List.length_take, List.length_drop]
  omega

theorem extract_append_extract
    (S : List α) {i j k : ℕ} (hij : i ≤ j) (hjk : j ≤ k) :
    S.extract i j ++ S.extract j k = S.extract i k := by
  have hsplit : S.drop j = (S.drop i).drop (j - i) := by
    rw [List.drop_drop, Nat.add_sub_cancel' hij]
  have hlen : k - i = (j - i) + (k - j) := by omega
  simp only [List.extract_eq_take_drop]
  rw [hsplit, hlen, List.take_add]

theorem drop_extract
    (S : List α) (i j d : ℕ) :
    (S.extract i j).drop d = S.extract (i + d) j := by
  simp only [List.extract_eq_take_drop]
  rw [List.drop_take, List.drop_drop, Nat.sub_sub]

theorem take_extract
    (S : List α) (i j d : ℕ) :
    (S.extract i j).take d = S.extract i (min (i + d) j) := by
  simp only [List.extract_eq_take_drop]
  rw [List.take_take]
  congr 1
  omega

theorem extract_zero (S : List α) (j : ℕ) : S.extract 0 j = S.take j := by
  simp [List.extract_eq_take_drop]

/-- A slice, continued by what another slice has beyond its end. -/
theorem extract_append_drop_extract
    (S : List α) {i j k l : ℕ} (hij : i ≤ j) (hkj : k ≤ j) :
    S.extract i j ++ (S.extract k l).drop (j - k) =
      S.extract i (max j l) := by
  rw [drop_extract, Nat.add_sub_cancel' hkj]
  rcases le_total j l with hjl | hlj
  · rw [extract_append_extract S hij hjl, max_eq_right hjl]
  · have hnil : S.extract j l = [] := by
      simp [List.extract_eq_take_drop, Nat.sub_eq_zero_of_le hlj]
    rw [hnil, List.append_nil, max_eq_left hlj]

/-- A slice inside a prefix is a slice of the whole list. -/
theorem extract_eq_of_append
    {S T : List α} (h : S <+: T) {i j : ℕ} (hj : j ≤ S.length) :
    T.extract i j = S.extract i j := by
  obtain ⟨R, rfl⟩ := h
  simp only [List.extract_eq_take_drop]
  rw [List.drop_append, List.take_append_of_le_length]
  rw [List.length_drop]
  omega

end Sponge
