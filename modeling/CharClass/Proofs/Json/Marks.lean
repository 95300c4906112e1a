import CharClass.Json.Scan.Marks
import Mathlib.Data.List.DropRight
import Mathlib.Data.List.TakeWhile

/-!
# From element to element

When the readers of a list go on and when they end, by the first character behind the blanks. The
proofs about lists use these equivalences and not the definitions.
-/

namespace CharClass.Json

open Cursor

variable {first : Bool} {c d : Cursor}

theorem skipBlanks_skipBlanks (c : Cursor) : c.skipBlanks.skipBlanks = c.skipBlanks := by
  have hnone : (c.rest.dropWhile isBlank).takeWhile isBlank = [] := by
    rw [List.takeWhile_eq_nil_iff]
    exact fun h => List.dropWhile_get_zero_not isBlank c.rest h
  rw [skipBlanks, skipBlanks, skipWhile, skipWhile]
  simp only [hnone, List.dropWhile_idempotent, List.foldl_nil]

theorem closeList_eq_ok_iff :
    closeList c = .ok d ↔ d = c.skipBlanks.advance ∧ ∃ tail, c.skipBlanks.rest = ']' :: tail := by
  unfold closeList
  constructor
  · intro h
    split at h
    · cases h
    · next tail starts =>
      cases h
      exact ⟨rfl, tail, starts⟩
    · cases h
    · cases h
  · rintro ⟨rfl, tail, starts⟩
    simp only [starts]

theorem nextElement_eq_false_iff :
    nextElement first c = .ok (false, d) ↔
      d = c.skipBlanks ∧ ∃ tail, c.skipBlanks.rest = ']' :: tail := by
  unfold nextElement afterComma
  constructor
  · intro h
    split at h
    · cases h
    · next tail starts =>
      cases h
      exact ⟨rfl, tail, starts⟩
    · repeat' split at h
      all_goals cases h
  · rintro ⟨rfl, tail, starts⟩
    simp only [starts]

theorem afterComma_eq_ok_iff {more : Bool} :
    afterComma c = .ok (more, d) ↔
      more = true ∧ d = c ∧ ∃ x tail, c.rest = x :: tail ∧ x ≠ ']' := by
  unfold afterComma
  constructor
  · intro h
    split at h
    · cases h
    · cases h
    · next hnil hclose =>
      cases h
      obtain ⟨x, tail, starts⟩ := List.exists_cons_of_ne_nil hnil
      refine ⟨rfl, rfl, x, tail, starts, ?_⟩
      rintro rfl
      exact hclose tail starts
  · rintro ⟨rfl, rfl, x, tail, starts, hx⟩
    split
    · next hnil => rw [starts] at hnil; cases hnil
    · next hclose => rw [starts] at hclose; cases hclose; exact absurd rfl hx
    · rfl

/-- An element follows behind the blanks, or behind a comma and blanks if it is not the first. -/
theorem nextElement_eq_true_iff :
    nextElement first c = .ok (true, d) ↔
      (first = true ∧ d = c.skipBlanks ∨
        first = false ∧ (∃ tail, c.skipBlanks.rest = ',' :: tail) ∧
          d = c.skipBlanks.advance.skipBlanks) ∧
        ∃ x tail, d.rest = x :: tail ∧ x ≠ ']' := by
  unfold nextElement
  constructor
  · intro h
    split at h
    · cases h
    · cases h
    · next x tail hx starts =>
      cases first with
      | true =>
        cases h
        exact ⟨.inl ⟨rfl, rfl⟩, x, tail, starts, hx⟩
      | false =>
        rw [if_neg Bool.false_ne_true] at h
        split at h
        · next hcomma =>
          obtain ⟨-, rfl, hnext⟩ := afterComma_eq_ok_iff.1 h
          exact ⟨.inr ⟨rfl, ⟨tail, hcomma ▸ starts⟩, rfl⟩, hnext⟩
        · cases h
  · rintro ⟨⟨rfl, rfl⟩ | ⟨rfl, ⟨tail, starts⟩, rfl⟩, hnext⟩
    · obtain ⟨x, tail, starts, hx⟩ := hnext
      split
      · next hnil => rw [starts] at hnil; cases hnil
      · next hclose => rw [starts] at hclose; cases hclose; exact absurd rfl hx
      · rfl
    · simp only [starts]
      exact afterComma_eq_ok_iff.2 ⟨rfl, rfl, hnext⟩

end CharClass.Json
