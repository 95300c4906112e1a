import CharClass.Proofs.Json.Reading
import Mathlib.Data.List.Induction

/-!
# Where reading stops

A position is counted while a text is read, character by character. What it says can be seen from
the text alone: one line more than there are line feeds, and the bytes since the last of them
(`Position.behind`). So it is enough to know of each reader that it moves the cursor over the
characters that it takes and no others (`Cursor.Follows`); the position of a cursor is then that
behind all that was read (`Cursor.Follows.position_eq`).
-/

namespace CharClass.Json

/-! ## Positions in a text -/

/-- The position behind a text: the lines up to here, and the bytes behind the last line feed. -/
def Position.behind (cs : List Char) : Position :=
  ⟨cs.count '\n' + 1, (cs.reverse.takeWhile (· != '\n')).foldr (·.utf8Size + ·) 0⟩

theorem Position.behind_concat (cs : List Char) (c : Char) :
    behind (cs ++ [c]) = (behind cs).past c := by
  unfold behind past
  rw [List.count_append, List.reverse_concat]
  by_cases hc : c = '\n'
  · subst hc
    simp
  · simp [hc, Nat.add_comm]

/-- Counting on from the start of a text comes to the position behind it. -/
theorem Position.foldl_past (cs : List Char) : cs.foldl past ⟨1, 0⟩ = behind cs := by
  induction cs using List.reverseRecOn with
  | nil => rfl
  | append_singleton cs c ih => rw [List.foldl_concat, ih, behind_concat]

/-! ## What a reader moves over -/

namespace Cursor

/-- `d` stands behind `c`, and its position was counted over the characters in between. -/
def Follows (c d : Cursor) : Prop :=
  ∃ taken, c.rest = taken ++ d.rest ∧ d.position = taken.foldl Position.past c.position

variable {c d e : Cursor}

theorem Follows.trans (h : c.Follows d) (h' : d.Follows e) : c.Follows e := by
  obtain ⟨taken, hrest, hposition⟩ := h
  obtain ⟨taken', hrest', hposition'⟩ := h'
  refine ⟨taken ++ taken', ?_, ?_⟩
  · rw [hrest, hrest', List.append_assoc]
  · rw [hposition', hposition, List.foldl_append]

/-- Where the whole text is known, so is the position. -/
theorem Follows.position_eq {head : List Char} {text : String} (h : (ofString text).Follows d)
    (htext : text.toList = head ++ d.rest) : d.position = .behind head := by
  obtain ⟨taken, hrest, hposition⟩ := h
  have hrest : text.toList = taken ++ d.rest := hrest
  rw [List.append_cancel_right (htext.symm.trans hrest), ← Position.foldl_past]
  exact hposition

theorem follows_advance {x : Char} {tail : List Char} (starts : c.rest = x :: tail) :
    c.Follows c.advance := by
  refine ⟨[x], ?_, ?_⟩
  · rw [rest_advance starts, starts]
    rfl
  · unfold advance
    rw [starts]
    rfl

theorem follows_skipWhile (q : Char → Bool) (c : Cursor) : c.Follows (c.skipWhile q) :=
  ⟨c.rest.takeWhile q, List.takeWhile_append_dropWhile.symm, rfl⟩

theorem follows_skipBlanks (c : Cursor) : c.Follows c.skipBlanks := follows_skipWhile isBlank c

end Cursor

open Cursor

variable {c d : Cursor}

theorem follows_of_nextElement {first more : Bool} (h : nextElement first c = .ok (more, d)) :
    c.Follows d := by
  have hblanks := follows_skipBlanks c
  cases more with
  | false =>
    obtain ⟨rfl, -⟩ := nextElement_eq_false_iff.1 h
    exact hblanks
  | true =>
    obtain ⟨hnext, -⟩ := nextElement_eq_true_iff.1 h
    rcases hnext with ⟨-, rfl⟩ | ⟨-, ⟨tail, starts⟩, rfl⟩
    · exact hblanks
    · exact (hblanks.trans (follows_advance starts)).trans (follows_skipBlanks _)

theorem follows_of_closeList (h : closeList c = .ok d) : c.Follows d := by
  obtain ⟨rfl, tail, starts⟩ := closeList_eq_ok_iff.1 h
  exact (follows_skipBlanks c).trans (follows_advance starts)

/-- A natural number ends with its digits: no fraction and no exponent is taken. -/
theorem follows_of_number_eq_integer {p : Nat} (h : number c = .ok (.integer p, d)) :
    c.Follows d := by
  unfold number at h
  split at h
  · exact absurd (rest_of_unsigned_eq_integer h).1 (by decide)
  · unfold unsigned at h
    split at h
    · cases h
    · next tail starts =>
      split at h
      · obtain ⟨-, rfl, -⟩ := afterInteger_eq_integer h
        exact follows_advance starts
      · cases h
    · split at h
      · cases h
      · obtain ⟨-, rfl, -⟩ := afterInteger_eq_integer h
        exact follows_skipWhile _ c

theorem follows_of_readEnd {index p : Nat} (h : readEnd index c = .ok (p, d)) : c.Follows d := by
  obtain ⟨e, hnext, hpoint⟩ := readPoint_of_readEnd h
  obtain ⟨-, hnumber, -⟩ := number_of_readPoint hpoint
  exact ((follows_of_nextElement hnext).trans (follows_skipBlanks e)).trans
    (follows_of_number_eq_integer hnumber)

theorem follows_of_readEnds {ends : Nat × Nat} (h : readEnds c = .ok (ends, d)) : c.Follows d := by
  obtain ⟨tail, e, f, starts, hfirst, hlast, hclose⟩ := readEnd_of_readEnds h
  have hopen := (follows_skipBlanks c).trans (follows_advance starts)
  exact ((hopen.trans (follows_of_readEnd hfirst)).trans (follows_of_readEnd hlast)).trans
    (follows_of_closeList hclose)

/-! ## Leaving a list -/

/-- What is still read of a text when a list is left behind a refused element: blanks, and then the
bracket that closes the list, or a comma and the blanks behind it, if one of them comes next. -/
def leaving (rest : List Char) : List Char :=
  rest.takeWhile isBlank ++
    if (rest.dropWhile isBlank).head? = some ']' then [']']
    else if (rest.dropWhile isBlank).head? = some ',' then
      ',' :: (rest.dropWhile isBlank).tail.takeWhile isBlank
    else []

theorem leaveList_eq (c : Cursor) :
    leaveList c = (leaving c.rest).foldl Position.past c.position := by
  have hrest : c.skipBlanks.rest = c.rest.dropWhile isBlank := rfl
  have hposition : c.skipBlanks.position =
      (c.rest.takeWhile isBlank).foldl Position.past c.position := rfl
  unfold leaveList leaving
  rw [List.foldl_append, ← hposition, ← hrest]
  split
  · next tail starts =>
    rw [advance, starts, List.head?_cons, if_pos rfl]
    rfl
  · next tail starts =>
    rw [advance, starts, List.head?_cons, if_neg (by decide), if_pos rfl]
    rfl
  · next hclose hcomma =>
    have hnone : ∀ x, (∀ tail, c.skipBlanks.rest ≠ x :: tail) →
        ¬c.skipBlanks.rest.head? = some x := by
      intro x hx hhead
      obtain ⟨tail, starts⟩ := List.head?_eq_some_iff.1 hhead
      exact hx tail starts
    rw [if_neg (hnone _ hclose), if_neg (hnone _ hcomma)]
    rfl

/-- The place where a list is left, seen from the whole text. -/
theorem leaveList_eq_behind {head : List Char} {text : String} (h : (ofString text).Follows d)
    (htext : text.toList = head ++ d.rest) :
    leaveList d = .behind (head ++ leaving d.rest) := by
  rw [leaveList_eq, h.position_eq htext, ← Position.foldl_past, ← Position.foldl_past,
    List.foldl_append]

end CharClass.Json
