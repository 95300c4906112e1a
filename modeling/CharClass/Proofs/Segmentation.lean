import CharClass.Token
import CharClass.Proofs.Construction
import CharClass.Proofs.Matching
import Mathlib.Data.List.TakeWhile

/-!
# One way to cut a text into tokens

A segmentation of a text is a list of tokens that make up the text, each of the form that its kind
asks for, and none of which could be longer. The forms are patterns over ASCII letters, digits and
spaces (`Kind.Matches`), and do not mention the classes that the scanner asks. Every text has just
one segmentation, and it is what the scanner returns (`segmentation_iff`): the first character of a
token settles its kind, and the end of the run settles where the token ends.

The scanner as a loop over a buffer, with a cursor that the matches of the classes move, goes
through the same tokens and comes to an end (`loop_iff`).
-/

namespace CharClass

/-! ## The characters of an interval -/

theorem Predefined.containsChar_set (q : Predefined) (c : Char) :
    q.set.containsChar c = q.intervals.any (·.includes c.toNat) :=
  PointSet.contains_ofList q.valid_intervals c.toNat

theorem Predefined.includes_span (c d x : Char) :
    (span c d).includes x.toNat = (decide (c ≤ x) && decide (x ≤ d)) := by
  simp only [Interval.includes, span, Char.le_def, UInt32.le_iff_toNat_le]
  rfl

theorem Interval.includes_single (c x : Char) :
    (single c).includes x.toNat = decide (x = c) := by
  rw [Bool.eq_iff_iff, includes_eq_true, decide_eq_true_iff, ← Char.toNat_inj]
  exact ⟨fun h => Nat.le_antisymm h.2 h.1, fun h => by simp [single, h]⟩

namespace Token

/-! ## The classes of the scanner -/

/-- An identifier starts with an ASCII letter or the underscore. -/
def startsWord (c : Char) : Bool := c.isAlpha || c == '_'

/-- An identifier goes on with an ASCII letter, a digit or the underscore. -/
def inWord (c : Char) : Bool := c.isAlphanum || c == '_'

/-- Space, tab, carriage return, line feed and form feed. -/
def isSpace (c : Char) : Bool := [' ', '\t', '\r', '\n', '\x0c'].contains c

theorem containsChar_digits (c : Char) : digits.containsChar c = c.isDigit := by
  rw [digits, Predefined.containsChar_set]
  simp [Predefined.intervals, Predefined.includes_span, Char.isDigit, Char.le_def]

theorem containsChar_spaces (c : Char) : spaces.containsChar c = isSpace c := by
  rw [spaces, Predefined.containsChar_set]
  simp [Predefined.intervals, Interval.includes_single, isSpace]

theorem wellFormed_identifierStart : identifierStart.WellFormed :=
  (PointSet.WellFormed.ofList (Predefined.valid_intervals _)).union
    (.ofInterval (Interval.valid_single '_'))

theorem isAlpha_iff {c : Char} : c.isAlpha = true ↔
    (65 ≤ c.toNat ∧ c.toNat ≤ 90) ∨ (97 ≤ c.toNat ∧ c.toNat ≤ 122) := by
  have halpha : c.isAlpha = true ↔ c.isUpper = true ∨ c.isLower = true := Bool.or_eq_true_iff
  have hupper : c.isUpper = true ↔ 'A'.val ≤ c.val ∧ c.val ≤ 'Z'.val := decide_eq_true_iff
  have hlower : c.isLower = true ↔ 'a'.val ≤ c.val ∧ c.val ≤ 'z'.val :=
    Bool.and_eq_true_iff.trans (and_congr decide_eq_true_iff decide_eq_true_iff)
  rw [halpha, hupper, hlower]
  simp only [UInt32.le_iff_toNat_le]
  rfl

theorem containsChar_identifierStart (c : Char) :
    identifierStart.containsChar c = startsWord c := by
  have halpha : Predefined.alpha.set.containsChar c = c.isAlpha := by
    rw [Predefined.containsChar_set, Bool.eq_iff_iff, isAlpha_iff]
    simp [Predefined.intervals, Predefined.span, or_comm]
  have hmark : (PointSet.ofChar '_').containsChar c = (c == '_') := by
    rw [Bool.eq_iff_iff, beq_iff_eq, ← Char.toNat_inj]
    exact (Built.ofChar '_').represents.contains_iff c.toNat
  rw [startsWord, ← halpha, ← hmark]
  exact (PointSet.WellFormed.ofList (Predefined.valid_intervals _)).contains_union
    (.ofInterval (Interval.valid_single '_')) c.toNat

theorem inWord_iff {c : Char} : inWord c = true ↔ startsWord c = true ∨ c.isDigit = true := by
  rw [← Bool.or_eq_true, inWord, startsWord, Char.isAlphanum, Bool.or_right_comm]

theorem containsChar_identifierRest (c : Char) : identifierRest.containsChar c = inWord c := by
  have hunion : identifierRest.containsChar c =
      (identifierStart.containsChar c || digits.containsChar c) :=
    wellFormed_identifierStart.contains_union (.ofList (Predefined.valid_intervals _)) c.toNat
  rw [hunion, containsChar_identifierStart, containsChar_digits, Bool.eq_iff_iff, inWord_iff,
    Bool.or_eq_true]

theorem isDigit_iff {c : Char} : c.isDigit = true ↔ 48 ≤ c.toNat ∧ c.toNat ≤ 57 := by
  simp only [Char.isDigit, Bool.and_eq_true, decide_eq_true_iff, ge_iff_le, UInt32.le_iff_toNat_le]
  rfl

theorem not_startsWord_of_isDigit {c : Char} (h : c.isDigit = true) : ¬startsWord c = true := by
  intro hstart
  rcases Bool.or_eq_true_iff.1 hstart with halpha | hmark
  · rw [isDigit_iff] at h
    rw [isAlpha_iff] at halpha
    omega
  · obtain rfl := beq_iff_eq.1 hmark
    exact absurd h (by decide)

theorem not_inWord_of_isSpace {c : Char} (h : isSpace c = true) : ¬inWord c = true := by
  have hmem : c = ' ' ∨ c = '\t' ∨ c = '\r' ∨ c = '\n' ∨ c = '\x0c' := by
    simpa [isSpace] using h
  rcases hmem with rfl | rfl | rfl | rfl | rfl <;> decide

/-! ## Kinds -/

namespace Kind

/-- The form of the tokens of a kind. -/
def Matches : Kind → List Char → Prop
  | identifier, cs => ∃ c rest, cs = c :: rest ∧ startsWord c = true ∧ ∀ d ∈ rest, inWord d = true
  | number, cs => cs ≠ [] ∧ ∀ d ∈ cs, d.isDigit = true
  | space, cs => cs ≠ [] ∧ ∀ d ∈ cs, isSpace d = true
  | punctuation, cs => ∃ c, cs = [c] ∧ ¬inWord c = true ∧ ¬isSpace c = true

/-- Whether `c` right behind a token of this kind would belong to it. -/
def admits : Kind → Char → Bool
  | identifier, c => inWord c
  | number, c => c.isDigit
  | space, c => isSpace c
  | punctuation, _ => false

/-- Whether a token of this kind may start with `c`. -/
def starts : Kind → Char → Bool
  | identifier, c => startsWord c
  | number, c => c.isDigit
  | space, c => isSpace c
  | punctuation, c => !inWord c && !isSpace c

theorem continues_eq (k : Kind) : k.continues = k.admits := by
  funext c
  cases k with
  | identifier => exact containsChar_identifierRest c
  | number => exact containsChar_digits c
  | space => exact containsChar_spaces c
  | punctuation => rfl

theorem of_eq (c : Char) : of c =
    if startsWord c = true then identifier else if c.isDigit = true then number
    else if isSpace c = true then space else punctuation := by
  rw [of, containsChar_identifierStart, containsChar_digits, containsChar_spaces]

/-- Each character starts tokens of one kind. -/
theorem of_eq_iff {c : Char} {k : Kind} : of c = k ↔ k.starts c = true := by
  rw [of_eq]
  constructor
  · rintro rfl
    by_cases hstart : startsWord c = true
    · rw [if_pos hstart]
      exact hstart
    · by_cases hdigit : c.isDigit = true
      · rw [if_neg hstart, if_pos hdigit]
        exact hdigit
      · by_cases hspace : isSpace c = true
        · rw [if_neg hstart, if_neg hdigit, if_pos hspace]
          exact hspace
        · rw [if_neg hstart, if_neg hdigit, if_neg hspace]
          simp [starts, ← Bool.not_eq_true, inWord_iff, hstart, hdigit, hspace]
  · intro h
    cases k with
    | identifier => exact if_pos h
    | number => exact (if_neg (not_startsWord_of_isDigit h)).trans (if_pos h)
    | space =>
      obtain ⟨hstart, hdigit⟩ := not_or.1 (mt inWord_iff.2 (not_inWord_of_isSpace h))
      rw [if_neg hstart, if_neg hdigit]
      exact if_pos h
    | punctuation =>
      obtain ⟨hword, hspace⟩ := Bool.and_eq_true_iff.1 h
      rw [Bool.not_eq_true', ← Bool.not_eq_true] at hword hspace
      obtain ⟨hstart, hdigit⟩ := not_or.1 (mt inWord_iff.2 hword)
      rw [if_neg hstart, if_neg hdigit, if_neg hspace]

/-- The first character of a token settles its kind, and the others are those that go on with it. -/
theorem matches_cons_iff {k : Kind} {c : Char} {rest : List Char} :
    k.Matches (c :: rest) ↔ of c = k ∧ ∀ d ∈ rest, k.admits d = true := by
  rw [of_eq_iff]
  cases k with
  | identifier =>
    constructor
    · rintro ⟨_, _, heq, hstart, hrest⟩
      cases heq
      exact ⟨hstart, hrest⟩
    · rintro ⟨hstart, hrest⟩
      exact ⟨c, rest, rfl, hstart, hrest⟩
  | number => simp [Matches, starts, admits]
  | space => simp [Matches, starts, admits]
  | punctuation =>
    cases rest with
    | nil => simp [Matches, starts]
    | cons d rest =>
      constructor
      · rintro ⟨_, heq, -⟩
        cases heq
      · rintro ⟨-, hrest⟩
        cases hrest d List.mem_cons_self

end Kind

/-! ## Segmentations -/

/-- The tokens make up the text, each one has the form of its kind, and the character behind a token
would not belong to it. -/
structure Segmentation (text : List Char) (tokens : List Token) : Prop where
  lossless : tokens.flatMap lexeme = text
  formed : ∀ t ∈ tokens, t.kind.Matches t.lexeme
  maximal : ∀ before t after, tokens = before ++ t :: after →
    ∀ c, (after.flatMap lexeme).head? = some c → ¬t.kind.admits c = true

theorem segmentation_nil_iff {text : List Char} : Segmentation text [] ↔ text = [] := by
  constructor
  · intro h
    exact h.lossless.symm
  · rintro rfl
    exact ⟨rfl, nofun, fun before t after h => absurd h (by simp)⟩

theorem segmentation_cons_iff {text : List Char} {t : Token} {tokens : List Token} :
    Segmentation text (t :: tokens) ↔
      ∃ rest, text = t.lexeme ++ rest ∧ t.kind.Matches t.lexeme ∧
        (∀ c, rest.head? = some c → ¬t.kind.admits c = true) ∧ Segmentation rest tokens := by
  constructor
  · intro h
    obtain ⟨ht, htokens⟩ := List.forall_mem_cons.1 h.formed
    refine ⟨tokens.flatMap lexeme, h.lossless.symm, ht, h.maximal [] t tokens rfl, rfl, htokens, ?_⟩
    intro before u after heq
    exact h.maximal (t :: before) u after (congrArg (t :: ·) heq)
  · rintro ⟨rest, rfl, ht, hbehind, hrest⟩
    refine ⟨congrArg (t.lexeme ++ ·) hrest.lossless, List.forall_mem_cons.2 ⟨ht, hrest.formed⟩, ?_⟩
    intro before u after heq
    cases before with
    | nil =>
      cases heq
      rw [hrest.lossless]
      exact hbehind
    | cons v before => exact hrest.maximal before u after (List.cons.inj heq).2

/-- A run of characters with a property that ends where it has to is the longest one. -/
theorem append_eq_iff_of_head? {q : Char → Bool} {body rest cs : List Char} :
    (body ++ rest = cs ∧ (∀ c ∈ body, q c = true) ∧ ∀ c, rest.head? = some c → ¬q c = true) ↔
      body = cs.takeWhile q ∧ rest = cs.dropWhile q := by
  constructor
  · rintro ⟨rfl, hbody, hrest⟩
    rw [List.takeWhile_append_of_pos hbody, List.dropWhile_append_of_pos hbody]
    cases rest with
    | nil => simp
    | cons c rest =>
      have hc : ¬q c = true := hrest c rfl
      simp [hc]
  · rintro ⟨rfl, rfl⟩
    refine ⟨List.takeWhile_append_dropWhile, fun c => List.mem_takeWhile_imp, ?_⟩
    intro c hc
    have hnot := List.head?_dropWhile_not q cs
    rw [hc] at hnot
    simp [hnot]

theorem Kind.Matches.ne_nil {k : Kind} {cs : List Char} (h : k.Matches cs) : cs ≠ [] := by
  cases k with
  | identifier =>
    obtain ⟨c, rest, rfl, -⟩ := h
    exact List.cons_ne_nil c rest
  | number | space => exact h.1
  | punctuation =>
    obtain ⟨c, rfl, -⟩ := h
    exact List.cons_ne_nil c []

/-- The first token of a segmentation is the one that the scanner cuts off. -/
theorem segmentation_cons_cons_iff {c : Char} {rest : List Char} {t : Token} {tokens : List Token} :
    Segmentation (c :: rest) (t :: tokens) ↔
      t = ⟨Kind.of c, c :: rest.takeWhile (Kind.of c).continues⟩ ∧
        Segmentation (rest.dropWhile (Kind.of c).continues) tokens := by
  rw [segmentation_cons_iff]
  constructor
  · rintro ⟨behind, htext, hform, hbehind, htokens⟩
    obtain ⟨kind, lexeme⟩ := t
    cases lexeme with
    | nil => exact absurd rfl hform.ne_nil
    | cons d body =>
      obtain ⟨rfl, hrest⟩ := List.cons.inj htext
      obtain ⟨rfl, hbody⟩ := Kind.matches_cons_iff.1 hform
      obtain ⟨hrun, hbehind⟩ := append_eq_iff_of_head?.1 ⟨hrest.symm, hbody, hbehind⟩
      rw [Kind.continues_eq, ← hrun, ← hbehind]
      exact ⟨rfl, htokens⟩
  · rintro ⟨rfl, htokens⟩
    rw [Kind.continues_eq] at htokens ⊢
    obtain ⟨hrest, hbody, hbehind⟩ := append_eq_iff_of_head?.2
      ⟨rfl, (rfl : rest.dropWhile (Kind.of c).admits = _)⟩
    exact ⟨_, congrArg (c :: ·) hrest.symm, Kind.matches_cons_iff.2 ⟨rfl, hbody⟩, hbehind, htokens⟩

/-- The scanner returns the only segmentation of the text. -/
theorem segmentation_iff (text : List Char) :
    ∀ tokens, Segmentation text tokens ↔ tokens = tokenize text := by
  fun_induction tokenize text with
  | case1 =>
    intro tokens
    cases tokens with
    | nil => exact iff_of_true (segmentation_nil_iff.2 rfl) rfl
    | cons t tokens =>
      refine iff_of_false ?_ (List.cons_ne_nil t tokens)
      intro h
      obtain ⟨rest, htext, hform, -⟩ := segmentation_cons_iff.1 h
      exact hform.ne_nil (List.append_eq_nil_iff.1 htext.symm).1
  | case2 c rest kind ih =>
    intro tokens
    cases tokens with
    | nil =>
      refine iff_of_false ?_ (List.cons_ne_nil _ _).symm
      intro h
      exact List.cons_ne_nil c rest (segmentation_nil_iff.1 h)
    | cons t tokens => rw [segmentation_cons_cons_iff, ih, List.cons.injEq]

/-! ## The loop over a buffer -/

section
variable (cs : List Char)

/-- The kind of the token at the cursor: that of the first class that has a match there. -/
def kindAt (pos : Nat) : Kind :=
  if (identifierStart.matchAt cs.toArray pos cs.length).isSome then .identifier
  else if (digits.matchAt cs.toArray pos cs.length).isSome then .number
  else if (spaces.matchAt cs.toArray pos cs.length).isSome then .space
  else .punctuation

/-- The class is matched over and over from `start` on, and `stop` is the first cursor without a
match. -/
def Repeats (s : PointSet) (start stop : Nat) : Prop :=
  ∃ visited, Walk (s.matchAt cs.toArray · cs.length) start visited stop

/-- Where a token of the kind that starts at `pos` ends. The first character of an identifier is not
matched a second time, that of a number or of space is. -/
def EndsAt (pos stop : Nat) : Kind → Prop
  | .identifier => Repeats cs identifierRest (pos + 1) stop
  | .number => Repeats cs digits pos stop
  | .space => Repeats cs spaces pos stop
  | .punctuation => stop = pos + 1

/-- The loop from a cursor on: turn after turn it cuts the token at the cursor out of the buffer and
goes on behind it, until the cursor stands at the end. The ends of what is cut out lie in the
buffer. -/
inductive Loop : Nat → List Token → Prop
  | halt {pos : Nat} (h : ¬pos < cs.length) : Loop pos []
  | turn {pos stop : Nat} {tokens : List Token} (h : pos < cs.length)
      (hstop : EndsAt cs pos stop (kindAt cs pos)) (bounds : pos ≤ stop ∧ stop ≤ cs.length)
      (rest : Loop stop tokens) : Loop pos (⟨kindAt cs pos, cs.extract pos stop⟩ :: tokens)

end

theorem repeats_iff {cs : List Char} {s : PointSet} {start stop : Nat} :
    Repeats cs s start stop ↔ stop = start + ((cs.drop start).takeWhile s.containsChar).length := by
  have hwalk := (s.advances_matchAt cs).walk_iff start stop
  constructor
  · rintro ⟨visited, h⟩
    exact ((hwalk visited).1 h).2
  · intro h
    exact ⟨_, (hwalk _).2 ⟨rfl, h⟩⟩

section
variable {cs rest : List Char} {c : Char} {pos : Nat} (h : cs.drop pos = c :: rest)
include h

theorem isSome_matchAt (s : PointSet) :
    (s.matchAt cs.toArray pos cs.length).isSome = s.containsChar c := by
  have hread : cs[pos]? = some c := by rw [← List.head?_drop, h]; rfl
  rw [Bool.eq_iff_iff, Option.isSome_iff_exists]
  constructor
  · rintro ⟨k, hk⟩
    obtain ⟨d, hd, hmem, -⟩ := s.matchAt_eq_some_iff.1 hk
    obtain rfl := Option.some.inj (hread.symm.trans hd)
    exact hmem
  · intro hmem
    exact ⟨1, s.matchAt_eq_some_iff.2 ⟨c, hread, hmem, rfl⟩⟩

theorem kindAt_eq : kindAt cs pos = Kind.of c := by
  unfold kindAt Kind.of
  rw [isSome_matchAt h, isSome_matchAt h, isSome_matchAt h]

/-- Repeated from a character of the class on, the class takes this character and its run behind
it. -/
theorem repeats_cons_iff {s : PointSet} (hc : s.containsChar c = true) (stop : Nat) :
    Repeats cs s pos stop ↔ stop = pos + (c :: rest.takeWhile s.containsChar).length := by
  rw [repeats_iff, h, List.takeWhile_cons_of_pos hc]

/-- Both ways of repeating a class, from the first character on and from the one behind it, end with
the run of the characters that go on with the token. -/
theorem endsAt_iff (stop : Nat) :
    EndsAt cs pos stop (Kind.of c) ↔
      stop = pos + (c :: rest.takeWhile (Kind.of c).continues).length := by
  have hstarts := Kind.of_eq_iff.1 (rfl : Kind.of c = _)
  have hbehind : cs.drop (pos + 1) = rest := by rw [← List.tail_drop, h]; rfl
  cases hkind : Kind.of c with
  | identifier =>
    refine repeats_iff.trans ?_
    rw [hbehind, List.length_cons, Nat.add_right_comm, Nat.add_assoc]
    rfl
  | number =>
    rw [hkind] at hstarts
    exact repeats_cons_iff h ((containsChar_digits c).trans hstarts) stop
  | space =>
    rw [hkind] at hstarts
    exact repeats_cons_iff h ((containsChar_spaces c).trans hstarts) stop
  | punctuation =>
    have hnone : rest.takeWhile Kind.punctuation.continues = [] := by cases rest <;> rfl
    rw [hnone]
    rfl

theorem drop_eq_run :
    cs.drop pos = (c :: rest.takeWhile (Kind.of c).continues) ++
      rest.dropWhile (Kind.of c).continues := by
  rw [h, List.cons_append, List.takeWhile_append_dropWhile]

/-- One turn of the loop cuts off the run of the characters that go on with the first one. -/
theorem loop_cons_iff {tokens : List Token} :
    Loop cs pos tokens ↔
      ∃ behind, tokens = ⟨Kind.of c, c :: rest.takeWhile (Kind.of c).continues⟩ :: behind ∧
        Loop cs (pos + (c :: rest.takeWhile (Kind.of c).continues).length) behind := by
  have hrun := drop_eq_run h
  have hkind := kindAt_eq h
  have hends := endsAt_iff h
  generalize c :: rest.takeWhile (Kind.of c).continues = run at hrun hends ⊢
  have hlength := congrArg List.length hrun
  rw [List.length_append, List.length_drop] at hlength
  have hpos : pos < cs.length := by
    rw [← Nat.not_le, ← List.drop_eq_nil_iff, h]
    exact List.cons_ne_nil c rest
  have hcut : cs.extract pos (pos + run.length) = run := by
    rw [List.extract_eq_take_drop, hrun, Nat.add_sub_cancel_left, List.take_left]
  constructor
  · intro hloop
    cases hloop with
    | halt hend => exact absurd hpos hend
    | turn _ hstop _ hloop =>
      rw [hkind] at hstop ⊢
      obtain rfl := (hends _).1 hstop
      exact ⟨_, by rw [hcut], hloop⟩
  · rintro ⟨behind, rfl, hloop⟩
    have hturn := Loop.turn hpos (by rw [hkind, hends]) ⟨by omega, by omega⟩ hloop
    rw [hkind, hcut] at hturn
    exact hturn

end

theorem loop_nil_iff {cs : List Char} {pos : Nat} {tokens : List Token} (h : cs.drop pos = []) :
    Loop cs pos tokens ↔ tokens = [] := by
  have hend : ¬pos < cs.length := Nat.not_lt.2 (List.drop_eq_nil_iff.1 h)
  constructor
  · intro hloop
    cases hloop with
    | halt => rfl
    | turn hpos => exact absurd hpos hend
  · rintro rfl
    exact .halt hend

/-- From every cursor the loop comes to an end, with the tokens of what is left of the text. -/
theorem loop_iff {cs rest : List Char} :
    ∀ pos tokens, cs.drop pos = rest → (Loop cs pos tokens ↔ tokens = tokenize rest) := by
  fun_induction tokenize rest with
  | case1 =>
    intro pos tokens h
    exact loop_nil_iff h
  | case2 c rest kind ih =>
    intro pos tokens h
    rw [loop_cons_iff h]
    have hbehind : cs.drop (pos + (c :: rest.takeWhile kind.continues).length) =
        rest.dropWhile kind.continues := by
      rw [← List.drop_drop, drop_eq_run h, List.drop_left]
    constructor
    · rintro ⟨behind, rfl, hloop⟩
      rw [(ih _ _ hbehind).1 hloop]
    · rintro rfl
      exact ⟨_, rfl, (ih _ _ hbehind).2 rfl⟩

/-- The tokens of a text make up the whole of it, and they are its one segmentation. They are also
what the loop over a buffer of the characters comes to in the end, whose turns always find the end
of a token and never cut outside the buffer. -/
theorem tokenize_segmentation (text : List Char) :
    (tokenize text).flatMap lexeme = text ∧
      (∀ tokens, Loop text 0 tokens ↔ tokens = tokenize text) ∧
      ∀ tokens, Segmentation text tokens ↔ tokens = tokenize text :=
  ⟨flatMap_lexeme_tokenize text, fun tokens => loop_iff 0 tokens rfl, segmentation_iff text⟩

/-- A digit that starts a token, and one that goes on with it. -/
example : tokenize ['1', 'a', '1', ' ', 'é'] =
    [⟨.number, ['1']⟩, ⟨.identifier, ['a', '1']⟩, ⟨.space, [' ']⟩, ⟨.punctuation, ['é']⟩] := by
  decide +kernel

end Token

end CharClass
