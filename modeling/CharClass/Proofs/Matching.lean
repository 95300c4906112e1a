import CharClass.Match
import CharClass.Predefined

/-!
# Two ways to match, two ways to scan

A text has its characters at byte offsets, the buffer of its characters has them at indices. The
offset of an index (`byteOffset`) names the character at this index, no other offset names one, and
the offsets of the indices are the character boundaries of the text. So a match over the text is the
match over the buffer, but for its length, and leads to the offset of the next index.

A scan advances a cursor by the length of each match until there is none (`Walk`). From an index and
from its offset both scans end, and what they consume is the run of members that begins there.
-/

namespace CharClass

/-! ## Offsets and indices -/

/-- The number of bytes before the character at index `i`. -/
def byteOffset (cs : List Char) (i : Nat) : Nat := (String.ofList (cs.take i)).utf8ByteSize

@[simp] theorem byteOffset_zero (cs : List Char) : byteOffset cs 0 = 0 := by
  simp [byteOffset]

@[simp] theorem byteOffset_cons_succ (c : Char) (cs : List Char) (i : Nat) :
    byteOffset (c :: cs) (i + 1) = c.utf8Size + byteOffset cs i := by
  simp [byteOffset, String.ofList_cons]

theorem byteOffset_succ {cs : List Char} {i : Nat} {c : Char} (h : cs[i]? = some c) :
    byteOffset cs (i + 1) = byteOffset cs i + c.utf8Size := by
  induction cs generalizing i with
  | nil => cases h
  | cons d cs ih =>
    cases i with
    | zero =>
      cases h
      simp
    | succ i => rw [byteOffset_cons_succ, ih h, byteOffset_cons_succ, Nat.add_assoc]

/-- The offset of an index names the character at this index, and none where there is none. -/
theorem charAtOffset_byteOffset (cs : List Char) (i : Nat) :
    charAtOffset cs (byteOffset cs i) = cs[i]? := by
  induction cs generalizing i with
  | nil => simp [charAtOffset]
  | cons c cs ih =>
    cases i with
    | zero => simp [charAtOffset]
    | succ i =>
      have hpos := c.utf8Size_pos
      have hzero : ¬c.utf8Size + byteOffset cs i = 0 := by omega
      have hbehind : ¬c.utf8Size + byteOffset cs i < c.utf8Size := by omega
      rw [byteOffset_cons_succ, charAtOffset, if_neg hzero, if_neg hbehind, Nat.add_sub_cancel_left]
      exact ih i

/-- Only the offset of an index names a character. -/
theorem exists_of_charAtOffset {cs : List Char} {offset : Nat} {c : Char}
    (h : charAtOffset cs offset = some c) : ∃ i, cs[i]? = some c ∧ byteOffset cs i = offset := by
  induction cs generalizing offset with
  | nil => cases h
  | cons d cs ih =>
    rw [charAtOffset] at h
    split at h
    · next hzero => exact ⟨0, h, (byteOffset_zero _).trans hzero.symm⟩
    · split at h
      · cases h
      · next hbehind =>
        obtain ⟨i, hi, hoffset⟩ := ih h
        refine ⟨i + 1, hi, ?_⟩
        rw [byteOffset_cons_succ, hoffset]
        omega

/-- The offsets of the indices are the character boundaries of the text. -/
theorem isValid_iff_exists_byteOffset {text : String} {offset : Nat} :
    (String.Pos.Raw.mk offset).IsValid text ↔ ∃ i, byteOffset text.toList i = offset := by
  rw [String.Pos.Raw.isValid_iff_exists_append]
  constructor
  · rintro ⟨before, after, rfl, hoffset⟩
    refine ⟨before.toList.length, ?_⟩
    rw [byteOffset, String.toList_append, List.take_left, String.ofList_toList]
    exact (congrArg String.Pos.Raw.byteIdx hoffset).symm
  · rintro ⟨i, rfl⟩
    refine ⟨.ofList (text.toList.take i), .ofList (text.toList.drop i), ?_, rfl⟩
    rw [← String.ofList_append, List.take_append_drop, String.ofList_toList]

/-- Characters start before the end of the text. -/
theorem byteOffset_lt {text : String} {i : Nat} (h : i < text.toList.length) :
    byteOffset text.toList i < text.utf8ByteSize := by
  have hsplit := List.take_append_drop (i + 1) text.toList
  have hsize : text.utf8ByteSize =
      byteOffset text.toList (i + 1) + (String.ofList (text.toList.drop (i + 1))).utf8ByteSize := by
    rw [byteOffset, ← String.utf8ByteSize_append, ← String.ofList_append, hsplit,
      String.ofList_toList]
  have hnext := byteOffset_succ (List.getElem?_eq_getElem h)
  have hpos := text.toList[i].utf8Size_pos
  omega

/-! ## Matching -/

namespace PointSet

variable (s : PointSet)

/-- Over a buffer that is one window a match asks for the character at the index. -/
theorem matchAt_eq_some_iff {cs : List Char} {i k : Nat} :
    s.matchAt cs.toArray i cs.length = some k ↔
      ∃ c, cs[i]? = some c ∧ s.containsChar c = true ∧ 1 = k := by
  unfold matchAt
  rw [List.getElem?_toArray]
  by_cases h : i < cs.length
  · rw [if_pos h]
    cases cs[i]? with
    | none => simp [noMatch]
    | some c =>
      by_cases hmem : s.containsChar c = true
      · simp [hmem]
      · simp [hmem, noMatch]
  · rw [if_neg h, List.getElem?_eq_none (Nat.le_of_not_lt h)]
    simp [noMatch]

/-- Over a text a match asks for the character that starts at the offset. -/
theorem matchText_eq_some_iff {text : String} {offset k : Nat} :
    s.matchText text offset = some k ↔
      ∃ c, charAtOffset text.toList offset = some c ∧ s.containsChar c = true ∧ c.utf8Size = k := by
  unfold matchText
  cases charAtOffset text.toList offset with
  | none => simp [noMatch]
  | some c =>
    by_cases hmem : s.containsChar c = true
    · simp [hmem]
    · simp [hmem, noMatch]

/-- No character starts inside another one, or at the end of the text or behind it. -/
theorem matchText_eq_noMatch {text : String} {offset : Nat}
    (h : ¬(String.Pos.Raw.mk offset).IsValid text ∨ text.utf8ByteSize ≤ offset) :
    s.matchText text offset = noMatch := by
  cases hmatch : s.matchText text offset with
  | none => rfl
  | some k =>
    obtain ⟨c, hchar, -⟩ := s.matchText_eq_some_iff.1 hmatch
    obtain ⟨i, hi, hoffset⟩ := exists_of_charAtOffset hchar
    have hvalid := isValid_iff_exists_byteOffset.2 ⟨i, hoffset⟩
    have hbefore := byteOffset_lt (List.getElem?_eq_some_iff.1 hi).1
    rcases h with h | h
    · exact absurd hvalid h
    · omega

end PointSet

/-! ## Scanning -/

/-- A scan that begins at `start` and ends at `stop`. At each cursor of `visited` it has a match,
and it goes on behind the match; at `stop` it has none. -/
inductive Walk (advance : Nat → Option Nat) : Nat → List Nat → Nat → Prop
  | halt {cursor : Nat} (h : advance cursor = none) : Walk advance cursor [] cursor
  | step {cursor k stop : Nat} {visited : List Nat} (h : advance cursor = some k)
      (rest : Walk advance (cursor + k) visited stop) : Walk advance cursor (cursor :: visited) stop

/-- `advance` has its matches at the cursors of the characters with the property `q`, and each match
leads to the cursor of the next character. -/
structure Advances (cs : List Char) (q : Char → Bool) (cursor : Nat → Nat)
    (advance : Nat → Option Nat) : Prop where
  hit : ∀ {i : Nat} {c : Char}, cs[i]? = some c → q c = true →
    ∃ k, advance (cursor i) = some k ∧ cursor i + k = cursor (i + 1)
  miss : ∀ {i : Nat}, (∀ c, cs[i]? = some c → ¬q c = true) → advance (cursor i) = none

section
variable {advance : Nat → Option Nat}

/-- From one cursor there is one scan. -/
theorem Walk.unique {start stop stop' : Nat} {visited visited' : List Nat}
    (h : Walk advance start visited stop) (h' : Walk advance start visited' stop') :
    visited = visited' ∧ stop = stop' := by
  induction h generalizing visited' with
  | halt hnone =>
    cases h' with
    | halt => exact ⟨rfl, rfl⟩
    | step hsome => exact absurd (hnone.symm.trans hsome) (by simp)
  | step hsome _ ih =>
    cases h' with
    | halt hnone => exact absurd (hnone.symm.trans hsome) (by simp)
    | step hsome' rest =>
      obtain rfl := Option.some.inj (hsome.symm.trans hsome')
      obtain ⟨rfl, rfl⟩ := ih rest
      exact ⟨rfl, rfl⟩

variable {cs : List Char} {q : Char → Bool} {cursor : Nat → Nat}

/-- A scan ends behind the longest run of characters with the property. -/
theorem Advances.walk (h : Advances cs q cursor advance) (i : Nat) :
    Walk advance (cursor i)
      ((List.range' i ((cs.drop i).takeWhile q).length).map cursor)
      (cursor (i + ((cs.drop i).takeWhile q).length)) := by
  generalize hrest : cs.drop i = rest
  -- over what is left of the text; a match takes the first character off
  induction rest generalizing i with
  | nil =>
    refine .halt (h.miss fun c hc => ?_)
    rw [← List.head?_drop, hrest] at hc
    cases hc
  | cons c rest ih =>
    have hread : cs[i]? = some c := by rw [← List.head?_drop, hrest]; rfl
    have hdrop : cs.drop (i + 1) = rest := by rw [← List.tail_drop, hrest]; rfl
    by_cases hc : q c = true
    · obtain ⟨k, hk, hnext⟩ := h.hit hread hc
      have hwalk := ih (i + 1) hdrop
      rw [← hnext, Nat.add_right_comm, Nat.add_assoc] at hwalk
      rw [List.takeWhile_cons_of_pos hc]
      exact .step hk hwalk
    · rw [List.takeWhile_cons_of_neg hc]
      refine .halt (h.miss fun d hd => ?_)
      obtain rfl := Option.some.inj (hread.symm.trans hd)
      exact hc

/-- The walks from a cursor are the one along the run. -/
theorem Advances.walk_iff (h : Advances cs q cursor advance) (i stop : Nat) (visited : List Nat) :
    Walk advance (cursor i) visited stop ↔
      visited = (List.range' i ((cs.drop i).takeWhile q).length).map cursor ∧
        stop = cursor (i + ((cs.drop i).takeWhile q).length) := by
  constructor
  · intro hwalk
    exact hwalk.unique (h.walk i)
  · rintro ⟨rfl, rfl⟩
    exact h.walk i

end

/-- The characters at the indices of a run are the run. -/
theorem filterMap_getElem?_range' {cs run rest : List Char} {i : Nat}
    (h : cs.drop i = run ++ rest) : (List.range' i run.length).filterMap (cs[·]?) = run := by
  induction run generalizing i with
  | nil => rfl
  | cons c run ih =>
    have hread : cs[i]? = some c := by rw [← List.head?_drop, h]; rfl
    have hdrop : cs.drop (i + 1) = run ++ rest := by rw [← List.tail_drop, h]; rfl
    rw [List.length_cons, List.range'_succ, List.filterMap_cons_some hread, ih hdrop]

namespace PointSet

variable (s : PointSet)

theorem advances_matchAt (cs : List Char) :
    Advances cs s.containsChar id (s.matchAt cs.toArray · cs.length) where
  hit hread hmem := ⟨1, s.matchAt_eq_some_iff.2 ⟨_, hread, hmem, rfl⟩, rfl⟩
  miss {i} hmiss := by
    rw [Option.eq_none_iff_forall_ne_some]
    intro k hmatch
    obtain ⟨c, hread, hmem, -⟩ := s.matchAt_eq_some_iff.1 hmatch
    exact hmiss c hread hmem

theorem advances_matchText (text : String) :
    Advances text.toList s.containsChar (byteOffset text.toList) (s.matchText text) where
  hit {i c} hread hmem := by
    refine ⟨c.utf8Size, s.matchText_eq_some_iff.2 ⟨c, ?_, hmem, rfl⟩, (byteOffset_succ hread).symm⟩
    rw [charAtOffset_byteOffset, hread]
  miss {i} hmiss := by
    rw [Option.eq_none_iff_forall_ne_some]
    intro k hmatch
    obtain ⟨c, hchar, hmem, -⟩ := s.matchText_eq_some_iff.1 hmatch
    rw [charAtOffset_byteOffset] at hchar
    exact hmiss c hchar hmem

/-- The members that follow one another from index `i` on, as far as they go. -/
def run (cs : List Char) (i : Nat) : List Char := (cs.drop i).takeWhile s.containsChar

/-- A match over a text is a match over the buffer of its characters, with the length of the
character. -/
theorem matchText_iff_matchAt {text : String} {offset k : Nat} :
    s.matchText text offset = some k ↔
      ∃ i c, text.toList[i]? = some c ∧ byteOffset text.toList i = offset ∧
        s.matchAt text.toList.toArray i text.toList.length = some 1 ∧ c.utf8Size = k := by
  rw [s.matchText_eq_some_iff]
  constructor
  · rintro ⟨c, hchar, hmem, hsize⟩
    obtain ⟨i, hread, hoffset⟩ := exists_of_charAtOffset hchar
    exact ⟨i, c, hread, hoffset, s.matchAt_eq_some_iff.2 ⟨c, hread, hmem, rfl⟩, hsize⟩
  · rintro ⟨i, c, hread, rfl, hmatch, hsize⟩
    obtain ⟨d, hread', hmem, -⟩ := s.matchAt_eq_some_iff.1 hmatch
    obtain rfl := Option.some.inj (hread.symm.trans hread')
    exact ⟨c, (charAtOffset_byteOffset _ i).trans hread, hmem, hsize⟩

/-- What a scan over the buffer consumes. -/
theorem filterMap_of_walk_matchAt {cs : List Char} {i stop : Nat} {visited : List Nat}
    (h : Walk (s.matchAt cs.toArray · cs.length) i visited stop) :
    visited.filterMap (cs[·]?) = s.run cs i := by
  obtain ⟨rfl, -⟩ := ((s.advances_matchAt cs).walk_iff i stop visited).1 h
  rw [List.map_id]
  exact filterMap_getElem?_range' List.takeWhile_append_dropWhile.symm

/-- What a scan over the text consumes. -/
theorem filterMap_of_walk_matchText {text : String} {i stop : Nat} {visited : List Nat}
    (h : Walk (s.matchText text) (byteOffset text.toList i) visited stop) :
    visited.filterMap (charAtOffset text.toList) = s.run text.toList i := by
  obtain ⟨rfl, -⟩ := ((s.advances_matchText text).walk_iff i stop visited).1 h
  have hsame : charAtOffset text.toList ∘ byteOffset text.toList = (text.toList[·]?) :=
    funext (charAtOffset_byteOffset text.toList)
  rw [List.filterMap_map, hsame]
  exact filterMap_getElem?_range' List.takeWhile_append_dropWhile.symm

/-- A scan over the text never stands inside a character. -/
theorem isValid_of_walk_matchText {text : String} {i stop : Nat} {visited : List Nat}
    (h : Walk (s.matchText text) (byteOffset text.toList i) visited stop) :
    ∀ offset ∈ stop :: visited, (String.Pos.Raw.mk offset).IsValid text := by
  obtain ⟨rfl, rfl⟩ := ((s.advances_matchText text).walk_iff i stop visited).1 h
  intro offset hoffset
  apply isValid_iff_exists_byteOffset.2
  rcases List.mem_cons.1 hoffset with rfl | hoffset
  · exact ⟨_, rfl⟩
  · obtain ⟨j, -, rfl⟩ := List.mem_map.1 hoffset
    exact ⟨j, rfl⟩

/-- A match over a text is one over the buffer of its characters: it is found at the offsets of the
indices where the buffer has a match, with the length of the character, and nowhere else, so neither
inside a character nor at the end or behind it. Scans over the text and over the buffer that begin
at one character come to an end, with corresponding cursors on the way and in the end, those over
the text between two characters, and both consume the run of members that begins there. -/
theorem matching_paths_agree (text : String) :
    (∀ offset k, s.matchText text offset = some k ↔
        ∃ i c, text.toList[i]? = some c ∧ byteOffset text.toList i = offset ∧
          s.matchAt text.toList.toArray i text.toList.length = some 1 ∧ c.utf8Size = k) ∧
      (∀ offset, ¬(String.Pos.Raw.mk offset).IsValid text ∨ text.utf8ByteSize ≤ offset →
        s.matchText text offset = noMatch) ∧
      ∀ i visited stop,
        (Walk (s.matchAt text.toList.toArray · text.toList.length) i visited stop ↔
          visited = List.range' i (s.run text.toList i).length ∧
            stop = i + (s.run text.toList i).length) ∧
        (Walk (s.matchText text) (byteOffset text.toList i) visited stop ↔
          visited = (List.range' i (s.run text.toList i).length).map (byteOffset text.toList) ∧
            stop = byteOffset text.toList (i + (s.run text.toList i).length)) ∧
        (Walk (s.matchAt text.toList.toArray · text.toList.length) i visited stop →
          visited.filterMap (text.toList[·]?) = s.run text.toList i) ∧
        (Walk (s.matchText text) (byteOffset text.toList i) visited stop →
          visited.filterMap (charAtOffset text.toList) = s.run text.toList i ∧
            ∀ offset ∈ stop :: visited, (String.Pos.Raw.mk offset).IsValid text) := by
  refine ⟨fun offset k => s.matchText_iff_matchAt, fun offset => s.matchText_eq_noMatch,
    fun i visited stop => ⟨?_, ?_, ?_, fun hwalk => ⟨?_, ?_⟩⟩⟩
  · have hwalk := (s.advances_matchAt text.toList).walk_iff i stop visited
    rwa [List.map_id] at hwalk
  · exact (s.advances_matchText text).walk_iff i stop visited
  · exact s.filterMap_of_walk_matchAt
  · exact s.filterMap_of_walk_matchText hwalk
  · exact s.isValid_of_walk_matchText hwalk

/-- Characters of two bytes and of three, both no digits, before a digit: one byte into the text
there is no match, and the scan over it stops behind five bytes. -/
theorem matching_paths_agree_of_wide :
    (¬(String.Pos.Raw.mk 1).IsValid "é€1" ∧
        Predefined.digit.set.complement.matchText "é€1" 1 = noMatch) ∧
      Walk (Predefined.digit.set.complement.matchText "é€1") (byteOffset "é€1".toList 0) [0, 2] 5 ∧
        [0, 2].filterMap (charAtOffset "é€1".toList) = ['é', '€'] := by
  obtain ⟨-, hnone, hscan⟩ := matching_paths_agree Predefined.digit.set.complement "é€1"
  have hinside : ¬(String.Pos.Raw.mk 1).IsValid "é€1" := by decide
  have hrun : Predefined.digit.set.complement.run "é€1".toList 0 = ['é', '€'] := by
    decide +kernel
  have hwalk : Walk (Predefined.digit.set.complement.matchText "é€1")
      (byteOffset "é€1".toList 0) [0, 2] 5 := by
    rw [(hscan 0 [0, 2] 5).2.1, hrun]
    decide
  exact ⟨⟨hinside, hnone 1 (.inl hinside)⟩, hwalk, ((hscan 0 [0, 2] 5).2.2.2 hwalk).1.trans hrun⟩

end PointSet

end CharClass
