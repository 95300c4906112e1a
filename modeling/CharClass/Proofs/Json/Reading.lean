import CharClass.Proofs.Construction
import CharClass.Proofs.Json.Lexeme
import CharClass.Proofs.Json.Marks

/-!
# What the reader of sets accepts

Each reader is tied to the lexemes it takes, in both directions: what it returns stands in the text
(`starts_of_..`), and where the lexemes stand it succeeds and stops behind them (`.._of_starts`).
Positions play no part in this, so only the characters that are left are spoken of. The one thing
that the lexemes do not show is that a number must end; in the text of a set a comma or a bracket
always follows it. The outcome is the grammar of the texts that describe a set.
-/

namespace CharClass.Json

open Cursor

variable {c d : Cursor} {l : Lexeme} {ls : List Lexeme} {rest : List Char}

/-! ## Punctuation -/

theorem starts_skipBlanks_iff :
    Starts (l :: ls) c.skipBlanks.rest rest ↔ Starts (l :: ls) c.rest rest := by
  have hskip : c.skipBlanks.rest.dropWhile isBlank = c.rest.dropWhile isBlank :=
    List.dropWhile_idempotent isBlank c.rest
  rw [starts_cons_iff, starts_cons_iff, hskip]

theorem starts_of_closeList (h : closeList c = .ok d) : Starts [.rightBracket] c.rest d.rest := by
  obtain ⟨rfl, tail, starts⟩ := closeList_eq_ok_iff.1 h
  rw [rest_advance starts]
  exact starts_cons_iff.2 ⟨tail, starts, .nil⟩

theorem closeList_of_starts (h : Starts [.rightBracket] c.rest rest) :
    ∃ d, closeList c = .ok d ∧ d.rest = rest := by
  obtain ⟨tail, starts, h⟩ := starts_cons_iff.1 h
  cases h
  exact ⟨_, closeList_eq_ok_iff.2 ⟨rfl, rest, starts⟩, rest_advance (c := c.skipBlanks) starts⟩

theorem starts_of_nextElement {first : Bool} (h : nextElement first c = .ok (true, d))
    (hd : Starts (l :: ls) d.rest rest) : Starts (separator first ++ l :: ls) c.rest rest := by
  rcases nextElement_eq_true_iff.1 h with ⟨⟨rfl, rfl⟩ | ⟨rfl, ⟨tail, starts⟩, rfl⟩, -⟩
  · exact starts_skipBlanks_iff.1 hd
  · have hd := starts_skipBlanks_iff.1 hd
    rw [rest_advance starts] at hd
    exact starts_cons_iff.2 ⟨tail, starts, hd⟩

theorem text_ne_of_ne_rightBracket (hl : l ≠ .rightBracket) (tail xs : List Char) :
    l.text ++ tail ≠ ']' :: xs := by
  intro h
  cases l with
  | leftBracket => cases h
  | rightBracket => exact hl rfl
  | comma => cases h
  | numeral n => exact absurd (isDigit_of_toDigits_append_eq h) (by decide)

theorem text_append_ne_nil (l : Lexeme) (tail : List Char) : l.text ++ tail ≠ [] := by
  obtain ⟨x, xs, h, -⟩ := l.exists_text_eq_cons
  rw [h]
  exact List.cons_ne_nil _ _

/-- Behind the blanks stands a character that does not end the list. -/
theorem exists_cons_of_starts (hl : l ≠ .rightBracket) (h : Starts (l :: ls) c.rest rest) :
    ∃ x tail, c.skipBlanks.rest = x :: tail ∧ x ≠ ']' := by
  obtain ⟨tail, starts, -⟩ := starts_cons_iff.1 h
  obtain ⟨x, xs, hcons⟩ := List.exists_cons_of_ne_nil (text_append_ne_nil l tail)
  refine ⟨x, xs, starts.trans hcons, ?_⟩
  rintro rfl
  exact text_ne_of_ne_rightBracket hl _ _ hcons

theorem nextElement_of_starts {first : Bool} (hl : l ≠ .rightBracket)
    (h : Starts (separator first ++ l :: ls) c.rest rest) :
    ∃ d, nextElement first c = .ok (true, d) ∧ Starts (l :: ls) d.rest rest := by
  cases first with
  | true =>
    have h : Starts (l :: ls) c.rest rest := h
    have hnext := exists_cons_of_starts hl h
    exact ⟨_, nextElement_eq_true_iff.2 ⟨.inl ⟨rfl, rfl⟩, hnext⟩, starts_skipBlanks_iff.2 h⟩
  | false =>
    obtain ⟨tail, starts, h⟩ := starts_cons_iff.1 h
    have starts : c.skipBlanks.rest = ',' :: tail := starts
    rw [← rest_advance starts] at h
    have hnext := exists_cons_of_starts hl h
    exact ⟨_, nextElement_eq_true_iff.2 ⟨.inr ⟨rfl, ⟨tail, starts⟩, rfl⟩, hnext⟩,
      starts_skipBlanks_iff.2 h⟩

theorem nextElement_of_rightBracket (first : Bool)
    (h : Starts (.rightBracket :: ls) c.rest rest) :
    nextElement first c = .ok (false, c.skipBlanks) := by
  obtain ⟨tail, starts, -⟩ := starts_cons_iff.1 h
  exact nextElement_eq_false_iff.2 ⟨rfl, tail, starts⟩

/-- Only blanks are left just if skipping them leaves nothing. -/
theorem expectEnd_eq_ok_iff : expectEnd c = .ok () ↔ ∀ x ∈ c.rest, isBlank x = true := by
  have hempty : c.skipBlanks.rest.isEmpty = true ↔ ∀ x ∈ c.rest, isBlank x = true := by
    rw [List.isEmpty_iff]
    exact List.dropWhile_eq_nil_iff
  unfold expectEnd
  rw [← hempty]
  split <;> simp_all

/-! ## Intervals -/

theorem number_of_readPoint {p : Nat} (h : readPoint c = .ok (p, d)) :
    (∃ x tail, c.skipBlanks.rest = x :: tail ∧ startsNumber x = true) ∧
      number c.skipBlanks = .ok (.integer p, d) ∧ p ≤ Number.maxWord := by
  unfold readPoint pointAt at h
  split at h
  · cases h
  · next x tail starts =>
    split at h
    · next hx =>
      split at h
      · cases h
      · next y e hnumber =>
        split at h
        · cases h
        · next q hpoint =>
          cases h
          obtain ⟨rfl, hp⟩ := Number.point_eq_ok_iff.1 hpoint
          exact ⟨⟨x, tail, starts, hx⟩, hnumber, hp⟩
    · cases h

theorem starts_of_readPoint {p : Nat} (h : readPoint c = .ok (p, d)) :
    Starts [.numeral p] c.rest d.rest ∧ p ≤ Number.maxWord := by
  obtain ⟨-, hnumber, hp⟩ := number_of_readPoint h
  exact ⟨starts_cons_iff.2 ⟨_, rest_of_number_eq_integer hnumber, .nil⟩, hp⟩

theorem readPoint_of_starts {p : Nat} (h : Starts [.numeral p] c.rest rest)
    (hp : p ≤ Number.maxWord) (hends : EndsNumber rest) :
    ∃ d, readPoint c = .ok (p, d) ∧ d.rest = rest := by
  obtain ⟨tail, starts, h⟩ := starts_cons_iff.1 h
  cases h
  have starts : c.skipBlanks.rest = Nat.toDigits 10 p ++ rest := starts
  have hfits : p ≤ Number.maxSignificand := Nat.le_trans hp (by decide)
  obtain ⟨d, hnumber, hd⟩ := number_of_rest starts hfits hends
  refine ⟨d, ?_, hd⟩
  unfold readPoint pointAt
  split
  · next hnil => exact absurd (starts.symm.trans hnil) (text_append_ne_nil (.numeral p) rest)
  · next x xs hcons =>
    have hstarts : startsNumber x = true := by
      rw [startsNumber, isDigit_of_toDigits_append_eq (starts.symm.trans hcons), Bool.or_true]
    have hpoint := Number.point_eq_ok_iff.2 ⟨rfl, hp⟩
    simp only [hstarts, hnumber, hpoint, ↓reduceIte]

theorem readPoint_of_readEnd {index p : Nat} (h : readEnd index c = .ok (p, d)) :
    ∃ e, nextElement (index == 0) c = .ok (true, e) ∧ readPoint e = .ok (p, d) := by
  unfold readEnd at h
  split at h
  · cases h
  · next e hnext => exact ⟨e, hnext, h⟩
  · cases h

theorem starts_of_readEnd {index p : Nat} (h : readEnd index c = .ok (p, d)) :
    Starts (separator (index == 0) ++ [.numeral p]) c.rest d.rest ∧ p ≤ Number.maxWord := by
  obtain ⟨e, hnext, hpoint⟩ := readPoint_of_readEnd h
  obtain ⟨hpoint, hp⟩ := starts_of_readPoint hpoint
  exact ⟨starts_of_nextElement hnext hpoint, hp⟩

theorem readEnd_of_starts (index : Nat) {p : Nat}
    (h : Starts (separator (index == 0) ++ [.numeral p]) c.rest rest) (hp : p ≤ Number.maxWord)
    (hends : EndsNumber rest) : ∃ d, readEnd index c = .ok (p, d) ∧ d.rest = rest := by
  obtain ⟨e, hnext, he⟩ := nextElement_of_starts (l := .numeral p) nofun h
  obtain ⟨d, hpoint, hd⟩ := readPoint_of_starts he hp hends
  refine ⟨d, ?_, hd⟩
  unfold readEnd
  rw [hnext]
  exact hpoint

/-- What the reader of an interval goes through. -/
theorem readEnd_of_readEnds {ends : Nat × Nat} (h : readEnds c = .ok (ends, d)) :
    ∃ tail e f, c.skipBlanks.rest = '[' :: tail ∧ readEnd 0 c.skipBlanks.advance = .ok (ends.1, e) ∧
      readEnd 1 e = .ok (ends.2, f) ∧ closeList f = .ok d := by
  unfold readEnds at h
  split at h
  · cases h
  · next tail starts =>
    obtain ⟨⟨first, e⟩, hfirst, h⟩ := bind_ok_iff.1 h
    obtain ⟨⟨last, f⟩, hlast, h⟩ := bind_ok_iff.1 h
    obtain ⟨g, hclose, h⟩ := bind_ok_iff.1 h
    cases h
    exact ⟨tail, e, f, starts, hfirst, hlast, hclose⟩
  · cases h

theorem starts_of_readEnds {ends : Nat × Nat} (h : readEnds c = .ok (ends, d)) :
    Starts (Lexeme.ofInterval ⟨ends.1, ends.2⟩) c.rest d.rest ∧
      ends.1 ≤ Number.maxWord ∧ ends.2 ≤ Number.maxWord := by
  obtain ⟨tail, e, f, starts, hfirst, hlast, hclose⟩ := readEnd_of_readEnds h
  obtain ⟨hfirst, hfirst'⟩ := starts_of_readEnd hfirst
  obtain ⟨hlast, hlast'⟩ := starts_of_readEnd hlast
  rw [rest_advance starts] at hfirst
  have hends := (hfirst.append hlast).append (starts_of_closeList hclose)
  exact ⟨starts_cons_iff.2 ⟨tail, starts, hends⟩, hfirst', hlast'⟩

theorem readEnds_of_starts {i : Interval} (h : Starts (Lexeme.ofInterval i) c.rest rest)
    (hfirst : i.first ≤ Number.maxWord) (hlast : i.last ≤ Number.maxWord) :
    ∃ d, readEnds c = .ok ((i.first, i.last), d) ∧ d.rest = rest := by
  obtain ⟨tail, starts, h⟩ := starts_cons_iff.1 h
  have starts : c.skipBlanks.rest = '[' :: tail := starts
  obtain ⟨mid, hn, h⟩ := (starts_append_iff [.numeral i.first]).1 h
  obtain ⟨mid', hm, hclose⟩ := (starts_append_iff [.comma, .numeral i.last]).1 h
  rw [← rest_advance starts] at hn
  obtain ⟨d, hd, rfl⟩ := readEnd_of_starts 0 hn hfirst (h.endsNumber nofun)
  obtain ⟨e, he, rfl⟩ := readEnd_of_starts 1 hm hlast (hclose.endsNumber nofun)
  obtain ⟨f, hf, rfl⟩ := closeList_of_starts hclose
  refine ⟨f, ?_, rfl⟩
  unfold readEnds
  simp only [starts, endsFrom, hd, he, hf, bind, Except.bind]

/-! ## Sets -/

theorem starts_of_readIntervals {first : Bool} {is : List Interval}
    (h : readIntervals first c = .ok (is, d)) (hd : Starts (.rightBracket :: ls) d.rest rest) :
    Starts (elements first is ++ .rightBracket :: ls) c.rest rest := by
  fun_induction readIntervals first c generalizing is d with
  | case1 => cases h
  | case2 first c e hnext =>
    cases h
    obtain ⟨rfl, -⟩ := nextElement_eq_false_iff.1 hnext
    exact starts_skipBlanks_iff.1 hd
  | case3 => cases h
  | case4 => cases h
  | case5 first c e hnext ends f hread i hmake _ _ ih =>
    obtain ⟨⟨js, g⟩, hrest, heq⟩ := map_ok_iff.1 h
    cases heq
    obtain ⟨rfl, -⟩ := Interval.make_eq_ok_iff.1 hmake
    have hends := (starts_of_readEnds hread).1.append (ih hrest hd)
    rw [elements, List.append_assoc, List.append_assoc]
    exact starts_of_nextElement hnext hends

theorem readIntervals_of_starts {first : Bool} {is : List Interval} (hvalid : ∀ i ∈ is, i.Valid)
    (h : Starts (elements first is ++ .rightBracket :: ls) c.rest rest) :
    ∃ d, readIntervals first c = .ok (is, d) ∧ Starts (.rightBracket :: ls) d.rest rest := by
  induction is generalizing first c with
  | nil =>
    have h : Starts (.rightBracket :: ls) c.rest rest := h
    refine ⟨c.skipBlanks, ?_, starts_skipBlanks_iff.2 h⟩
    rw [readIntervals_eq, nextElement_of_rightBracket first h]
  | cons i is ih =>
    obtain ⟨hi, hvalid⟩ := List.forall_mem_cons.1 hvalid
    have hlast : i.last ≤ Number.maxWord := Nat.le_trans hi.2 (by decide)
    rw [elements, List.append_assoc, List.append_assoc] at h
    obtain ⟨d, hnext, h⟩ := nextElement_of_starts (by decide) h
    obtain ⟨mid, hends, h⟩ := (starts_append_iff (Lexeme.ofInterval i)).1 h
    obtain ⟨e, hread, rfl⟩ := readEnds_of_starts hends (Nat.le_trans hi.1 hlast) hlast
    obtain ⟨f, hrest, hf⟩ := ih hvalid h
    have hmake : Interval.make i.first i.last = .ok i := Interval.make_eq_ok_iff.2 ⟨rfl, hi⟩
    refine ⟨f, ?_, hf⟩
    rw [readIntervals_eq, hnext]
    simp only [hread, hmake, hrest, Except.map]

theorem readIntervals_of_readSet {is : List Interval} (h : readSet c = .ok (is, d)) :
    ∃ tail e, c.skipBlanks.rest = '[' :: tail ∧
      readIntervals true c.skipBlanks.advance = .ok (is, e) ∧ closeList e = .ok d := by
  unfold readSet at h
  split at h
  · cases h
  · next tail starts =>
    obtain ⟨⟨is, e⟩, hread, h⟩ := bind_ok_iff.1 h
    obtain ⟨f, hclose, h⟩ := bind_ok_iff.1 h
    cases h
    exact ⟨tail, e, starts, hread, hclose⟩
  · cases h

theorem starts_of_readSet {is : List Interval} (h : readSet c = .ok (is, d)) :
    Starts (Lexeme.ofIntervals is) c.rest d.rest := by
  obtain ⟨tail, e, starts, hread, hclose⟩ := readIntervals_of_readSet h
  have hlist := starts_of_readIntervals hread (starts_of_closeList hclose)
  rw [rest_advance starts] at hlist
  rw [ofIntervals_eq]
  exact starts_cons_iff.2 ⟨tail, starts, hlist⟩

theorem readSet_of_starts {is : List Interval} (hvalid : ∀ i ∈ is, i.Valid)
    (h : Starts (Lexeme.ofIntervals is) c.rest rest) :
    ∃ d, readSet c = .ok (is, d) ∧ d.rest = rest := by
  rw [ofIntervals_eq] at h
  obtain ⟨tail, starts, h⟩ := starts_cons_iff.1 h
  have starts : c.skipBlanks.rest = '[' :: tail := starts
  rw [← rest_advance starts] at h
  obtain ⟨d, hread, hd⟩ := readIntervals_of_starts hvalid h
  obtain ⟨e, hclose, rfl⟩ := closeList_of_starts hd
  refine ⟨e, ?_, rfl⟩
  unfold readSet
  simp only [starts, hread, hclose, bind, Except.bind]

end CharClass.Json

namespace CharClass.PointSet

open Json (Describes)

/-- A text is read as a set just if it describes valid intervals, and then as the set of these. -/
theorem ofJson_eq_ok_iff {text : String} {s : PointSet} :
    ofJson text = .ok s ↔
      ∃ is, Describes text is ∧ (∀ i ∈ is, i.Valid) ∧ ofList is = s := by
  constructor
  · intro h
    obtain ⟨⟨is, d⟩, hread, h⟩ := bind_ok_iff.1 h
    obtain ⟨_, hend, h⟩ := bind_ok_iff.1 h
    refine ⟨is, ⟨d.rest, Json.starts_of_readSet hread, Json.expectEnd_eq_ok_iff.1 hend⟩,
      Json.valid_of_readSet hread, Except.ok.inj h⟩
  · rintro ⟨is, ⟨rest, htext, hrest⟩, hvalid, rfl⟩
    obtain ⟨d, hread, rfl⟩ := Json.readSet_of_starts (c := .ofString text) hvalid htext
    have hend := Json.expectEnd_eq_ok_iff.2 hrest
    exact bind_ok_iff.2 ⟨_, hread, bind_ok_iff.2 ⟨(), hend, rfl⟩⟩

/-- A text is accepted just if, blanks apart, it is a list of pairs of numerals whose numbers ascend
and stay in the domain. It is then read as the set that collects these pairs in their order, and its
members are the points between the two numbers of a pair. -/
theorem ofJson_grammar :
    (∀ text, (∃ s, ofJson text = .ok s) ↔
        ∃ is, Describes text is ∧ ∀ i ∈ is, i.first ≤ i.last ∧ i.last ≤ maxPoint) ∧
      ∀ text is, Describes text is → (∀ i ∈ is, i.first ≤ i.last ∧ i.last ≤ maxPoint) →
        ofJson text = .ok (ofList is) ∧
          ∀ p, (ofList is).contains p = true ↔ ∃ i ∈ is, i.first ≤ p ∧ p ≤ i.last := by
  refine ⟨fun text => ⟨?_, ?_⟩, fun text is htext hvalid => ⟨?_, fun p => ?_⟩⟩
  · rintro ⟨s, h⟩
    obtain ⟨is, htext, hvalid, -⟩ := ofJson_eq_ok_iff.1 h
    exact ⟨is, htext, hvalid⟩
  · rintro ⟨is, htext, hvalid⟩
    exact ⟨_, ofJson_eq_ok_iff.2 ⟨is, htext, hvalid, rfl⟩⟩
  · exact ofJson_eq_ok_iff.2 ⟨is, htext, hvalid, rfl⟩
  · rw [contains_ofList hvalid]
    simp [List.any_eq_true]

/-- Blanks in odd places, an interval out of order and one that overlaps both others. -/
theorem ofJson_grammar_of_overlap :
    Describes " [[20,29]\n,[0, 9],[9,20 ]]\t" [⟨20, 29⟩, ⟨0, 9⟩, ⟨9, 20⟩] ∧
      ofJson " [[20,29]\n,[0, 9],[9,20 ]]\t" = .ok (ofList [⟨20, 29⟩, ⟨0, 9⟩, ⟨9, 20⟩]) ∧
      (ofList [⟨20, 29⟩, ⟨0, 9⟩, ⟨9, 20⟩]).contains 15 = true := by
  have htext : Describes " [[20,29]\n,[0, 9],[9,20 ]]\t" [⟨20, 29⟩, ⟨0, 9⟩, ⟨9, 20⟩] := by
    decide +kernel
  have hread := ofJson_grammar.2 _ _ htext (by decide)
  exact ⟨htext, hread.1, (hread.2 15).2 (by decide)⟩

end CharClass.PointSet
