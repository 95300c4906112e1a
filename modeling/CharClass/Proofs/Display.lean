import CharClass.Proofs.Json.Numeral
import CharClass.Proofs.Reachable

/-!
# The text of a set identifies it

The text of a set is a text to look at, but nothing of the set is lost in it. Digits are neither
spaces nor hyphens, so the spaces divide the text into the texts of the intervals (`pieces_text`),
and the hyphen of such a piece divides it into the numerals of the two ends
(`Interval.ofPiece?_text`). The bitmap is not in the text; for a well-formed set it follows from the
intervals.
-/

namespace CharClass

/-! ## Intervals -/

/-- The interval whose ends a piece of text shows on both sides of its only hyphen. -/
def Interval.ofPiece? (piece : List Char) : Option Interval :=
  match piece.splitOn '-' with
  | [first, last] => some ⟨Nat.ofDigitChars 10 first 0, Nat.ofDigitChars 10 last 0⟩
  | _ => none

theorem not_mem_toDigits {c : Char} (hc : c.isDigit = false) (n : Nat) : c ∉ Nat.toDigits 10 n := by
  intro hmem
  rw [Json.isDigit_of_mem_toDigits c hmem] at hc
  cases hc

namespace Interval

theorem toList_text (i : Interval) :
    i.text.toList = Nat.toDigits 10 i.first ++ '-' :: Nat.toDigits 10 i.last := by
  simp [text, String.toList_append]

/-- The ends can be read off the text of an interval. -/
theorem ofPiece?_text (i : Interval) : ofPiece? i.text.toList = some i := by
  have hsplit : i.text.toList.splitOn '-' = [Nat.toDigits 10 i.first, Nat.toDigits 10 i.last] := by
    rw [toList_text, List.splitOn_append_cons_self_of_not_mem (not_mem_toDigits rfl _),
      List.splitOn_eq_singleton (not_mem_toDigits rfl _)]
  rw [ofPiece?, hsplit]
  simp only [Nat.ofDigitChars_ten_toDigits]

theorem space_not_mem_text (i : Interval) : ' ' ∉ i.text.toList := by
  rw [toList_text, List.mem_append, List.mem_cons]
  intro hmem
  rcases hmem with hfirst | hhyphen | hlast
  · exact not_mem_toDigits rfl _ hfirst
  · exact absurd hhyphen (by decide)
  · exact not_mem_toDigits rfl _ hlast

end Interval

/-! ## Sets -/

namespace PointSet

/-- The pieces of a text between its spaces. The empty text has none. -/
def pieces (text : String) : List (List Char) :=
  if text.toList.isEmpty then [] else text.toList.splitOn ' '

theorem toList_text (s : PointSet) :
    s.text.toList = [' '].intercalate (s.intervals.toList.map (·.text.toList)) := by
  rw [text, String.toList_intercalate, List.map_map]
  rfl

/-- The spaces stand between the intervals and nowhere else. -/
theorem pieces_text (s : PointSet) : pieces s.text = s.intervals.toList.map (·.text.toList) := by
  rw [pieces, toList_text]
  cases s.intervals.toList with
  | nil => rfl
  | cons i is =>
    have hspace : ∀ piece ∈ (i :: is).map (·.text.toList), ' ' ∉ piece := by
      intro piece hpiece
      obtain ⟨j, -, rfl⟩ := List.mem_map.1 hpiece
      exact j.space_not_mem_text
    have hsplit := List.splitOn_intercalate ' ' hspace (List.cons_ne_nil _ _)
    have hsome : ([' '].intercalate ((i :: is).map (·.text.toList))).isEmpty = false := by
      refine Bool.eq_false_iff.2 fun hempty => ?_
      rw [List.isEmpty_iff.1 hempty] at hsplit
      have hpiece := congrArg List.head? hsplit
      simp [Interval.toList_text] at hpiece
    rw [hsome, if_neg Bool.false_ne_true, hsplit]

/-- The intervals can be read off the text of a set. -/
theorem mapM_ofPiece?_text (s : PointSet) :
    (pieces s.text).mapM Interval.ofPiece? = some s.intervals.toList := by
  rw [pieces_text, List.mapM_map]
  have hpure : Interval.ofPiece? ∘ (·.text.toList) = fun i : Interval => some i :=
    funext Interval.ofPiece?_text
  rw [hpure]
  exact List.mapM_pure.trans (congrArg some (List.map_id' _))

theorem WellFormed.eq_of_text_eq {s t : PointSet} (hs : s.WellFormed) (ht : t.WellFormed)
    (h : s.text = t.text) : s = t := by
  have hread := s.mapM_ofPiece?_text
  rw [h, t.mapM_ofPiece?_text] at hread
  have hlist := Array.toList_inj.1 (Option.some.inj hread)
  rw [hs.eq_ofIntervals, ht.eq_ofIntervals, hlist]

end PointSet

namespace Reachable

open PointSet

/-- Reachable sets are the same just if their texts are. There is a piece for each interval, in
their order: the first and the last point in decimal, with a hyphen in between. So the intervals can
be read off the text. -/
theorem text_identifies {a b : PointSet} (ha : Reachable a) (hb : Reachable b) :
    (a.text = b.text ↔ a = b) ∧
      pieces a.text = a.intervals.toList.map
        (fun i => Nat.toDigits 10 i.first ++ '-' :: Nat.toDigits 10 i.last) ∧
      (pieces a.text).length = a.intervalCount ∧
      (pieces a.text).mapM Interval.ofPiece? = some a.intervals.toList := by
  have hpieces := a.pieces_text
  refine ⟨⟨ha.wellFormed.eq_of_text_eq hb.wellFormed, congrArg text⟩, ?_, ?_, a.mapM_ofPiece?_text⟩
  · rw [hpieces]
    exact List.map_congr_left fun i _ => i.toList_text
  · rw [hpieces, List.length_map, Array.length_toList]
    rfl

/-- The letters, and a set that is reached in another way. -/
theorem text_identifies_of_letters :
    Reachable Predefined.alpha.set ∧ Reachable Predefined.alpha.set.complement.complement ∧
      Predefined.alpha.set.text = "65-90 97-122" ∧
      Predefined.alpha.set = Predefined.alpha.set.complement.complement ∧
      pieces "65-90 97-122" = [['6', '5', '-', '9', '0'], ['9', '7', '-', '1', '2', '2']] ∧
      (pieces "65-90 97-122").mapM Interval.ofPiece? = some [⟨65, 90⟩, ⟨97, 122⟩] := by
  have ha : Reachable Predefined.alpha.set := .built (.predefined .alpha)
  have hb := ha.complement.complement
  have htext : Predefined.alpha.set.text = "65-90 97-122" := by decide +kernel
  have hsame : Predefined.alpha.set.text = Predefined.alpha.set.complement.complement.text := by
    decide +kernel
  have hlist : Predefined.alpha.set.intervals.toList = [⟨65, 90⟩, ⟨97, 122⟩] := by decide +kernel
  obtain ⟨heq, hpieces, -, hread⟩ := text_identifies ha hb
  rw [htext, hlist] at hpieces hread
  exact ⟨ha, hb, htext, heq.1 hsame, hpieces, hread⟩

end Reachable

end CharClass
