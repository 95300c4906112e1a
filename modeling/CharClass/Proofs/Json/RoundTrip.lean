import CharClass.Json.Write
import CharClass.Proofs.Json.Agreement
import CharClass.Proofs.Json.Reading
import CharClass.Proofs.Reachable

/-!
# Writing a set and reading it back

The text of a set is that of its intervals without blanks (`toJson_describes`), and collecting the
intervals of a well-formed set gives the set back (`WellFormed.ofList_intervals`), by its members.
Hence a set is read back from its text, and just as well from its tree, which is the tree of its
text. A text describes one list only, so what is written for a text that was read shows the points
of this list and nothing else.
-/

namespace CharClass

namespace Json

open Cursor

/-! ## The text of a set -/

theorem flatMap_text_intercalate (parts : List (List Lexeme)) :
    ([Lexeme.comma].intercalate parts).flatMap Lexeme.text =
      [','].intercalate (parts.map (·.flatMap Lexeme.text)) := by
  induction parts with
  | nil => rfl
  | cons part parts ih =>
    cases parts with
    | nil => simp
    | cons next parts =>
      rw [List.intercalate_cons_cons, List.flatMap_append, List.flatMap_append, ih]
      simp [Lexeme.text]

end Json

theorem Interval.toList_toJson (i : Interval) :
    i.toJson.toList = (Json.Lexeme.ofInterval i).flatMap Json.Lexeme.text := by
  simp [toJson, Json.Lexeme.ofInterval, Json.Lexeme.text, String.toList_append]

namespace PointSet

theorem toList_toJson (s : PointSet) :
    s.toJson.toList = (Json.Lexeme.ofIntervals s.intervals.toList).flatMap Json.Lexeme.text := by
  have hmap : (s.intervals.toList.map Interval.toJson).map String.toList =
      (s.intervals.toList.map Json.Lexeme.ofInterval).map (·.flatMap Json.Lexeme.text) := by
    rw [List.map_map, List.map_map]
    exact List.map_congr_left fun i _ => i.toList_toJson
  rw [toJson, String.toList_append, String.toList_append, String.toList_intercalate, hmap,
    Json.Lexeme.ofIntervals, List.flatMap_append, List.flatMap_cons, Json.flatMap_text_intercalate]
  rfl

theorem toJson_describes (s : PointSet) : Json.Describes s.toJson s.intervals.toList := by
  refine ⟨[], ?_, by simp⟩
  have h := Json.starts_flatMap_text (Json.Lexeme.ofIntervals s.intervals.toList) []
  rwa [List.append_nil, ← toList_toJson] at h

end PointSet

/-! ## The tree of the text -/

namespace Json.Value

variable {c d : Cursor}

theorem read?_of_readPoint {p : Nat} (h : readPoint c = .ok (p, d)) (fuel : Nat) :
    read? (fuel + 1) c = some (number (.integer p), d) := by
  obtain ⟨⟨x, tail, starts, hx⟩, hnumber, -⟩ := number_of_readPoint h
  exact read?_succ_iff.2 (.number starts hx hnumber)

theorem readElements?_of_closeList (h : closeList c = .ok d) (first : Bool) (fuel : Nat) :
    ∃ e, readElements? (fuel + 1) first c = some ([], e) ∧ closeList e = .ok d := by
  have hnext := nextElement_of_rightBracket first (starts_of_closeList h)
  obtain ⟨hclose, hclose'⟩ := closeList_of_nextElement_false hnext
  refine ⟨_, readElements?_succ_iff.2 (.inl ⟨hnext, rfl⟩), ?_⟩
  rw [hclose', ← hclose, h]

theorem read?_of_readEnds {ends : Nat × Nat} (h : readEnds c = .ok (ends, d)) (fuel : Nat) :
    read? (fuel + 4) c = some (Interval.toValue ⟨ends.1, ends.2⟩, d) := by
  obtain ⟨tail, e, f, starts, hfirst, hlast, hclose⟩ := readEnd_of_readEnds h
  obtain ⟨e', hnext, hfirst⟩ := readPoint_of_readEnd hfirst
  obtain ⟨f', hnext', hlast⟩ := readPoint_of_readEnd hlast
  obtain ⟨g, hnone, hclose⟩ := readElements?_of_closeList hclose false fuel
  have hsecond := readElements?_succ_iff.2
    (.inr ⟨f', f, _, [], hnext', read?_of_readPoint hlast fuel, hnone, rfl⟩)
  have helements := readElements?_succ_iff.2
    (.inr ⟨e', e, _, _, hnext, read?_of_readPoint hfirst (fuel + 1), hsecond, rfl⟩)
  exact read?_succ_iff.2 (.list starts helements hclose)

theorem readElements?_of_readIntervals {first : Bool} {is : List Interval}
    (h : readIntervals first c = .ok (is, d)) :
    readElements? (is.length + 5) first c = some (is.map Interval.toValue, d) := by
  fun_induction readIntervals first c generalizing is d with
  | case1 => cases h
  | case2 first c e hnext =>
    cases h
    exact readElements?_succ_iff.2 (.inl ⟨hnext, rfl⟩)
  | case3 => cases h
  | case4 => cases h
  | case5 first c e hnext ends f hread i hmake _ _ ih =>
    obtain ⟨⟨js, g⟩, hrest, heq⟩ := map_ok_iff.1 h
    cases heq
    obtain ⟨rfl, -⟩ := Interval.make_eq_ok_iff.1 hmake
    exact readElements?_succ_iff.2
      (.inr ⟨e, f, _, _, hnext, read?_of_readEnds hread (js.length + 1), ih hrest, rfl⟩)

theorem read?_of_readSet {is : List Interval} (h : readSet c = .ok (is, d)) :
    read? (is.length + 6) c = some (list (is.map Interval.toValue), d) := by
  obtain ⟨tail, e, starts, hread, hclose⟩ := readIntervals_of_readSet h
  exact read?_succ_iff.2 (.list starts (readElements?_of_readIntervals hread) hclose)

/-- The tree of a text that describes a set is the list of its intervals. -/
theorem parse?_of_describes {text : String} {is : List Interval} (h : Describes text is)
    (hvalid : ∀ i ∈ is, i.Valid) : parse? text = some (list (is.map Interval.toValue)) := by
  obtain ⟨rest, htext, hrest⟩ := h
  obtain ⟨d, hread, rfl⟩ := readSet_of_starts (c := .ofString text) hvalid htext
  exact parse?_eq_some_iff.2 ⟨_, d, read?_of_readSet hread, expectEnd_eq_ok_iff.2 hrest⟩

end Json.Value

/-! ## Back again -/

theorem Interval.interval_toValue {i : Interval} (h : i.Valid) : i.toValue.interval = .ok i := by
  have hlast : i.last ≤ Json.Number.maxWord := Nat.le_trans h.2 (by decide)
  have hfirst : i.first ≤ Json.Number.maxWord := Nat.le_trans h.1 hlast
  have hmake : make i.first i.last = .ok i := make_eq_ok_iff.2 ⟨rfl, h⟩
  have hpoint : ∀ p ≤ Json.Number.maxWord, (Json.Value.number (.integer p)).point = .ok p :=
    fun p hp => Json.Number.point_eq_ok_iff.2 ⟨rfl, hp⟩
  rw [toValue, Json.Value.interval, hpoint _ hfirst, hpoint _ hlast]
  exact congrArg (Except.mapError Json.Cause.bounds) hmake

theorem Json.Value.intervals_toValue {is : List Interval} (h : ∀ i ∈ is, i.Valid) :
    (list (is.map Interval.toValue)).intervals = .ok is := by
  rw [intervals]
  induction is with
  | nil => rfl
  | cons i is ih =>
    obtain ⟨hi, h⟩ := List.forall_mem_cons.1 h
    rw [List.map_cons, List.mapM_cons, i.interval_toValue hi, ih h]
    rfl

namespace PointSet

theorem WellFormed.ofJson_toJson {s : PointSet} (h : s.WellFormed) : ofJson s.toJson = .ok s :=
  ofJson_eq_ok_iff.2 ⟨_, s.toJson_describes, h.valid, h.ofList_intervals⟩

theorem WellFormed.ofValue_toValue {s : PointSet} (h : s.WellFormed) :
    ofValue s.toValue = .ok s := by
  have hread : s.toValue.intervals = .ok s.intervals.toList := Json.Value.intervals_toValue h.valid
  rw [ofValue, hread]
  exact congrArg Except.ok h.ofList_intervals

/-- Different sets have different texts. -/
theorem WellFormed.eq_of_toJson_eq {s t : PointSet} (hs : s.WellFormed) (ht : t.WellFormed)
    (h : s.toJson = t.toJson) : s = t := by
  have hread := hs.ofJson_toJson
  rw [h, ht.ofJson_toJson] at hread
  exact (Except.ok.inj hread).symm

/-- Two texts of sets are written alike just if they describe the same points. -/
theorem toJson_eq_iff_of_ofJson {text text' : String} {is js : List Interval} {s t : PointSet}
    (h : ofJson text = .ok s) (h' : ofJson text' = .ok t) (htext : Json.Describes text is)
    (htext' : Json.Describes text' js) :
    s.toJson = t.toJson ↔ ∀ p, Covered is p ↔ Covered js p := by
  obtain ⟨_, hdesc, hvalid, rfl⟩ := ofJson_eq_ok_iff.1 h
  obtain ⟨_, hdesc', hvalid', rfl⟩ := ofJson_eq_ok_iff.1 h'
  obtain rfl := htext.unique hdesc
  obtain rfl := htext'.unique hdesc'
  rw [← ofList_eq_iff hvalid hvalid']
  exact ⟨(WellFormed.ofList hvalid).eq_of_toJson_eq (.ofList hvalid'), congrArg toJson⟩

theorem WellFormed.of_ofJson {text : String} {s : PointSet} (h : ofJson text = .ok s) :
    s.WellFormed := by
  obtain ⟨is, -, hvalid, rfl⟩ := ofJson_eq_ok_iff.1 h
  exact .ofList hvalid

end PointSet

namespace Reachable

open PointSet Json

/-- A reachable set is read back from its text and from its tree, and the tree is that of the text.
A text that is read as a set is a description, and writing the set gives a text for the same set.
What is written tells which points were described and nothing else, and reachable sets are told
apart by it. -/
theorem json_round_trip :
    (∀ s, Reachable s → ofJson s.toJson = .ok s ∧ Value.parse? s.toJson = some s.toValue ∧
        ofValue s.toValue = .ok s) ∧
      (∀ text s, ofJson text = .ok s → (∃ is, Describes text is) ∧ ofJson s.toJson = .ok s) ∧
      (∀ text text' is js s t, ofJson text = .ok s → ofJson text' = .ok t → Describes text is →
        Describes text' js → (s.toJson = t.toJson ↔ ∀ p, Covered is p ↔ Covered js p)) ∧
      ∀ a b, Reachable a → Reachable b → a.toJson = b.toJson → a = b := by
  refine ⟨fun s hs => ?_, fun text s h => ⟨?_, ?_⟩, ?_, fun a b ha hb => ?_⟩
  · have hwf := hs.wellFormed
    exact ⟨hwf.ofJson_toJson, Value.parse?_of_describes s.toJson_describes hwf.valid,
      hwf.ofValue_toValue⟩
  · obtain ⟨is, htext, -⟩ := ofJson_eq_ok_iff.1 h
    exact ⟨is, htext⟩
  · exact (WellFormed.of_ofJson h).ofJson_toJson
  · intro text text' is js s t
    exact toJson_eq_iff_of_ofJson
  · exact ha.wellFormed.eq_of_toJson_eq hb.wellFormed

/-- The letters, two texts for the digits, and another way to the set that these describe. -/
theorem json_round_trip_of_digits :
    (Reachable Predefined.alpha.set ∧
        ofJson Predefined.alpha.set.toJson = .ok Predefined.alpha.set ∧
        ofValue Predefined.alpha.set.toValue = .ok Predefined.alpha.set) ∧
      (ofJson "[[52,57],[48,53]]" = .ok (ofList [⟨52, 57⟩, ⟨48, 53⟩]) ∧
        ofJson " [[48, 57]]" = .ok (ofList [⟨48, 57⟩]) ∧
        ofJson (ofList [⟨52, 57⟩, ⟨48, 53⟩]).toJson = .ok (ofList [⟨52, 57⟩, ⟨48, 53⟩]) ∧
        (ofList [⟨52, 57⟩, ⟨48, 53⟩]).toJson = (ofList [⟨48, 57⟩]).toJson) ∧
      Reachable Predefined.digit.set.complement.complement ∧
        Predefined.digit.set.complement.complement = Predefined.digit.set := by
  have halpha : Reachable Predefined.alpha.set := .built (.predefined .alpha)
  have hdigit : Reachable Predefined.digit.set := .built (.predefined .digit)
  have htext : Describes "[[52,57],[48,53]]" [⟨52, 57⟩, ⟨48, 53⟩] := by decide +kernel
  have htext' : Describes " [[48, 57]]" [⟨48, 57⟩] := by decide +kernel
  have hread := ofJson_eq_ok_iff.2 ⟨_, htext, by decide, rfl⟩
  have hread' := ofJson_eq_ok_iff.2 ⟨_, htext', by decide, rfl⟩
  have hcov : ∀ p, Covered [⟨52, 57⟩, ⟨48, 53⟩] p ↔ Covered [⟨48, 57⟩] p := by
    intro p
    simp only [covered_cons, covered_nil, or_false]
    omega
  have hsame : Predefined.digit.set.complement.complement.toJson = Predefined.digit.set.toJson := by
    decide +kernel
  obtain ⟨hround, hnormal, htexts, hinj⟩ := json_round_trip
  exact ⟨⟨halpha, (hround _ halpha).1, (hround _ halpha).2.2⟩,
    ⟨hread, hread', (hnormal _ _ hread).2, (htexts _ _ _ _ _ _ hread hread' htext htext').2 hcov⟩,
    hdigit.complement.complement, hinj _ _ hdigit.complement.complement hdigit hsame⟩

end Reachable

end CharClass
