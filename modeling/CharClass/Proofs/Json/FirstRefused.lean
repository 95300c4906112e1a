import CharClass.Proofs.Interval
import CharClass.Proofs.Json.Position

/-!
# The first refused pair is the error

Whether two numbers are the ends of an interval is asked when their list is closed, before anything
behind it is looked at. So the first pair that makes no interval decides: the error names its
numbers, whatever the rest of the text is, and neither a later pair nor a text that breaks off or
goes wrong is ever reported in its place (`PointSet.ofJson_first_refused`). The rest can only move
the position, which is where the outer list was left. A pair that stands alone has no list to leave,
and its error no position.
-/

namespace CharClass

/-- Why the ends are refused, if they are: they descend, or else the last one lies outside the
domain. -/
def BoundsError.ofEnds (first last : Nat) : BoundsError :=
  if last < first then .descending first last else .outsideDomain last

theorem Interval.make_eq_error_ofEnds {first last : Nat} (h : last < first ∨ maxPoint < last) :
    make first last = .error (.ofEnds first last) := by
  rw [make_eq_error_iff]
  unfold BoundsError.ofEnds
  by_cases hdesc : last < first
  · exact .inl ⟨hdesc, if_pos hdesc⟩
  · exact .inr ⟨Nat.le_of_not_lt hdesc, h.resolve_left hdesc, if_neg hdesc⟩

namespace Json

open Cursor

variable {c : Cursor} {rest : List Char} {is : List Interval} {first last : Nat}

/-- Up to its last pair a list consists of pairs with a comma behind each. -/
theorem elements_concat (is : List Interval) (j : Interval) :
    elements true (is ++ [j]) =
      (is.flatMap fun i => Lexeme.ofInterval i ++ [.comma]) ++ Lexeme.ofInterval j := by
  rw [elements_eq_intercalate]
  induction is with
  | nil => exact List.intercalate_singleton
  | cons i is ih =>
    have hmore : (is ++ [j]).map Lexeme.ofInterval ≠ [] := by simp
    rw [List.cons_append, List.map_cons, List.intercalate_cons_of_ne_nil hmore, ih,
      List.flatMap_cons, List.append_assoc _ _ (Lexeme.ofInterval j)]

section
variable (hfirst : first ≤ Number.maxWord) (hlast : last ≤ Number.maxWord)
  (hrefused : last < first ∨ maxPoint < last)
include hfirst hlast hrefused

/-- Valid pairs are read one by one. At the refused one reading stops, and the cursor is behind its
bracket. -/
theorem readIntervals_of_refused {start : Bool} (hvalid : ∀ i ∈ is, i.Valid)
    (h : Starts (elements start (is ++ [⟨first, last⟩])) c.rest rest) :
    ∃ d, c.Follows d ∧ d.rest = rest ∧
      readIntervals start c = .error ⟨.bounds (.ofEnds first last), some (leaveList d)⟩ := by
  induction is generalizing start c with
  | nil =>
    rw [List.nil_append, elements, elements, List.append_nil] at h
    obtain ⟨d, hnext, h⟩ := nextElement_of_starts (by decide) h
    obtain ⟨e, hread, he⟩ := readEnds_of_starts h hfirst hlast
    have hmake := Interval.make_eq_error_ofEnds hrefused
    refine ⟨e, (follows_of_nextElement hnext).trans (follows_of_readEnds hread), he, ?_⟩
    rw [readIntervals_eq, hnext]
    simp only [hread, hmake]
  | cons i is ih =>
    obtain ⟨hi, hvalid⟩ := List.forall_mem_cons.1 hvalid
    have hword : i.last ≤ Number.maxWord := Nat.le_trans hi.2 (by decide)
    rw [List.cons_append, elements, List.append_assoc] at h
    obtain ⟨d, hnext, h⟩ := nextElement_of_starts (by decide) h
    obtain ⟨mid, hends, h⟩ := (starts_append_iff (Lexeme.ofInterval i)).1 h
    obtain ⟨e, hread, rfl⟩ := readEnds_of_starts hends (Nat.le_trans hi.1 hword) hword
    obtain ⟨f, hfollows, hf, herror⟩ := ih hvalid h
    have hmake : Interval.make i.first i.last = .ok i := Interval.make_eq_ok_iff.2 ⟨rfl, hi⟩
    have hpair := (follows_of_nextElement hnext).trans (follows_of_readEnds hread)
    refine ⟨f, hpair.trans hfollows, hf, ?_⟩
    rw [readIntervals_eq, hnext]
    simp only [hread, hmake, herror, Except.map]

theorem readSet_of_refused (hvalid : ∀ i ∈ is, i.Valid)
    (h : Starts (.leftBracket :: elements true (is ++ [⟨first, last⟩])) c.rest rest) :
    ∃ d, c.Follows d ∧ d.rest = rest ∧
      readSet c = .error ⟨.bounds (.ofEnds first last), some (leaveList d)⟩ := by
  obtain ⟨tail, starts, h⟩ := starts_cons_iff.1 h
  have starts : c.skipBlanks.rest = '[' :: tail := starts
  rw [← rest_advance starts] at h
  obtain ⟨d, hfollows, hd, hread⟩ := readIntervals_of_refused hfirst hlast hrefused hvalid h
  have hopen := (follows_skipBlanks c).trans (follows_advance starts)
  refine ⟨d, hopen.trans hfollows, hd, ?_⟩
  unfold readSet
  simp only [starts, hread, bind, Except.bind]

end

end Json

section
variable {head suffix : String} {is : List Interval} {first last : Nat}
  (hfirst : first ≤ Json.Number.maxWord) (hlast : last ≤ Json.Number.maxWord)
  (hrefused : last < first ∨ maxPoint < last)
include hfirst hlast hrefused

theorem PointSet.ofJson_of_refused (hvalid : ∀ i ∈ is, i.Valid)
    (h : Json.Starts (.leftBracket :: Json.elements true (is ++ [⟨first, last⟩]))
      (head ++ suffix).toList suffix.toList) :
    PointSet.ofJson (head ++ suffix) =
      .error ⟨.bounds (.ofEnds first last),
        some (.behind (head.toList ++ Json.leaving suffix.toList))⟩ := by
  obtain ⟨d, hfollows, hd, hread⟩ :=
    Json.readSet_of_refused (c := .ofString (head ++ suffix)) hfirst hlast hrefused hvalid h
  have htext : (head ++ suffix).toList = head.toList ++ d.rest := by
    rw [hd, String.toList_append]
  rw [Json.leaveList_eq_behind hfollows htext, hd] at hread
  exact bind_error_iff.2 (.inl hread)

theorem Interval.ofJson_of_refused
    (h : Json.Starts (Json.Lexeme.ofInterval ⟨first, last⟩) (head ++ suffix).toList suffix.toList) :
    Interval.ofJson (head ++ suffix) = .error ⟨.bounds (.ofEnds first last), none⟩ := by
  obtain ⟨d, hread, -⟩ :=
    Json.readEnds_of_starts (c := .ofString (head ++ suffix)) h hfirst hlast
  have hmake := Interval.make_eq_error_ofEnds hrefused
  refine bind_error_iff.2 (.inr ⟨_, hread, ?_⟩)
  simp only [hmake]

end

namespace PointSet

open Json

/-- Two numbers that make no interval, behind any number of valid pairs and before any text
whatever: reading the set fails with the reason for this pair, at the place where its list is left.
Reading the pair alone fails with the same reason and no place. Numbers that descend are refused for
that, even outside the domain. -/
theorem ofJson_first_refused {first last : Nat} (hfirst : first ≤ Number.maxWord)
    (hlast : last ≤ Number.maxWord) (hrefused : last < first ∨ maxPoint < last) :
    Interval.make first last =
        .error (if last < first then .descending first last else .outsideDomain last) ∧
      (∀ (is : List Interval) (head suffix : String), (∀ i ∈ is, i.Valid) →
        Starts (.leftBracket :: (is.flatMap fun i => Lexeme.ofInterval i ++ [.comma]) ++
          Lexeme.ofInterval ⟨first, last⟩) (head ++ suffix).toList suffix.toList →
        ∃ e : Json.Error, ofJson (head ++ suffix) = .error e ∧
          e.cause = .bounds (.ofEnds first last) ∧
          e.message = (BoundsError.ofEnds first last).message ++
            " at line " ++ Nat.repr (Position.behind (head.toList ++ leaving suffix.toList)).line ++
            " column " ++
              Nat.repr (Position.behind (head.toList ++ leaving suffix.toList)).column) ∧
      ∀ head suffix : String,
        Starts (Lexeme.ofInterval ⟨first, last⟩) (head ++ suffix).toList suffix.toList →
        ∃ e : Json.Error, Interval.ofJson (head ++ suffix) = .error e ∧
          e.cause = .bounds (.ofEnds first last) ∧
          e.message = (BoundsError.ofEnds first last).message := by
  refine ⟨Interval.make_eq_error_ofEnds hrefused, ?_, ?_⟩
  · intro is head suffix hvalid h
    rw [List.cons_append, ← elements_concat] at h
    exact ⟨_, ofJson_of_refused hfirst hlast hrefused hvalid h, rfl, rfl⟩
  · intro head suffix h
    exact ⟨_, Interval.ofJson_of_refused hfirst hlast hrefused h, rfl, rfl⟩

/-- Behind a valid pair and a line feed, before a pair outside the domain and a text that is
none. -/
theorem ofJson_first_refused_of_descending :
    5 < 9 ∧
      Starts
        ([.leftBracket] ++ (Lexeme.ofInterval ⟨48, 57⟩ ++ [.comma]) ++ Lexeme.ofInterval ⟨9, 5⟩)
        (" [[48,57],\n[ 9,5]" ++ " ,\t[0,1114112], x").toList " ,\t[0,1114112], x".toList ∧
      (∃ e : Json.Error,
        ofJson (" [[48,57],\n[ 9,5]" ++ " ,\t[0,1114112], x") = .error e ∧
          e.message = "descending ranges not supported: 9-5 at line 2 column 9") ∧
      ∃ e : Json.Error, Interval.ofJson ("[9, 5]" ++ "]x") = .error e ∧
        e.message = "descending ranges not supported: 9-5" := by
  have hlist : Starts
      ([.leftBracket] ++ (Lexeme.ofInterval ⟨48, 57⟩ ++ [.comma]) ++ Lexeme.ofInterval ⟨9, 5⟩)
      (" [[48,57],\n[ 9,5]" ++ " ,\t[0,1114112], x").toList " ,\t[0,1114112], x".toList :=
    starts_iff_remains?.2 (by decide +kernel)
  have hpair : Starts (Lexeme.ofInterval ⟨9, 5⟩) ("[9, 5]" ++ "]x").toList "]x".toList :=
    starts_iff_remains?.2 (by decide +kernel)
  have hplace : Position.behind (" [[48,57],\n[ 9,5]".toList ++
      leaving " ,\t[0,1114112], x".toList) = ⟨2, 9⟩ := by
    decide +kernel
  have htext : (BoundsError.ofEnds 9 5).message = "descending ranges not supported: 9-5" := by
    decide +kernel
  have hfirst : 9 ≤ Number.maxWord := by decide
  have hlast : 5 ≤ Number.maxWord := by decide
  obtain ⟨-, hset, hlone⟩ := ofJson_first_refused hfirst hlast (.inl (by decide))
  obtain ⟨e, he, -, hmessage⟩ := hset [⟨48, 57⟩] _ _ (by decide) hlist
  obtain ⟨e', he', -, hmessage'⟩ := hlone _ _ hpair
  rw [hplace, htext] at hmessage
  exact ⟨by decide, hlist, ⟨e, he, hmessage.trans (by decide +kernel)⟩, e', he',
    hmessage'.trans htext⟩

end PointSet

end CharClass
