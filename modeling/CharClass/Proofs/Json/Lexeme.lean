import CharClass.Json.Read
import CharClass.Proofs.Json.Numeral

/-!
# The lexemes of a set's text

The text of a set is a sequence of brackets, commas and numerals, and blanks may stand before each
of them and behind the last one. `Starts` reads such a sequence off the front of a text, with what
follows it as an index, so that sequences can be put one behind the other (`Starts.append`).
`Describes` is the grammar of a set's text: the lexemes of the list of its intervals. It gives a
text one list at most (`Describes.unique`). Nothing here looks at how a text is read.
-/

namespace CharClass.Json

open Cursor

inductive Lexeme where
  | leftBracket
  | rightBracket
  | comma
  /-- A natural number in decimal. -/
  | numeral (n : Nat)
deriving DecidableEq

namespace Lexeme

/-- The characters of a lexeme. A numeral has no sign, and no zero before other digits. -/
def text : Lexeme → List Char
  | leftBracket => ['[']
  | rightBracket => [']']
  | comma => [',']
  | numeral n => Nat.toDigits 10 n

/-- An interval is the list of its two ends. -/
def ofInterval (i : Interval) : List Lexeme :=
  [leftBracket, numeral i.first, comma, numeral i.last, rightBracket]

/-- A set is the list of its intervals, with a comma between any two. -/
def ofIntervals (is : List Interval) : List Lexeme :=
  leftBracket :: [comma].intercalate (is.map ofInterval) ++ [rightBracket]

end Lexeme

/-- The text starts with the lexemes, each behind any number of blanks, and goes on with `rest`. -/
inductive Starts : List Lexeme → List Char → List Char → Prop
  | nil {rest : List Char} : Starts [] rest rest
  | cons {l : Lexeme} {ls : List Lexeme} {blanks cs rest : List Char}
      (hblanks : ∀ c ∈ blanks, isBlank c = true) (h : Starts ls cs rest) :
      Starts (l :: ls) (blanks ++ (l.text ++ cs)) rest

/-- The text is that of a list of intervals. Their ends may be any numbers. -/
def Describes (text : String) (is : List Interval) : Prop :=
  ∃ rest, Starts (Lexeme.ofIntervals is) text.toList rest ∧ ∀ c ∈ rest, isBlank c = true

/-! ## Blanks -/

theorem not_isBlank_of_isDigit {c : Char} (h : c.isDigit = true) : isBlank c = false := by
  have := Char.isDigit_iff_toNat.1 h
  simp only [isBlank, Bool.or_eq_false_iff, beq_eq_false_iff_ne]
  refine ⟨⟨⟨?_, ?_⟩, ?_⟩, ?_⟩ <;> (rintro rfl; revert this; decide)

/-- No lexeme is empty, and none starts with a blank. -/
theorem Lexeme.exists_text_eq_cons (l : Lexeme) : ∃ x xs, l.text = x :: xs ∧ isBlank x = false := by
  cases l with
  | leftBracket => exact ⟨_, _, rfl, rfl⟩
  | rightBracket => exact ⟨_, _, rfl, rfl⟩
  | comma => exact ⟨_, _, rfl, rfl⟩
  | numeral n =>
    obtain ⟨x, xs, h⟩ := List.exists_cons_of_ne_nil (Nat.toDigits_ne_nil (n := n) (b := 10))
    have hx : x ∈ Nat.toDigits 10 n := by rw [h]; exact List.mem_cons_self
    exact ⟨x, xs, h, not_isBlank_of_isDigit (isDigit_of_mem_toDigits x hx)⟩

/-- Skipping blanks comes to the next lexeme. -/
theorem starts_cons_iff {l : Lexeme} {ls : List Lexeme} {cs rest : List Char} :
    Starts (l :: ls) cs rest ↔
      ∃ tail, cs.dropWhile isBlank = l.text ++ tail ∧ Starts ls tail rest := by
  constructor
  · intro h
    cases h with
    | cons hblanks h =>
      obtain ⟨x, xs, hl, hx⟩ := l.exists_text_eq_cons
      refine ⟨_, ?_, h⟩
      rw [List.dropWhile_append_of_pos hblanks, hl, List.cons_append,
        List.dropWhile_cons_of_neg (by simp [hx])]
  · rintro ⟨tail, hcs, h⟩
    have hsplit := List.takeWhile_append_dropWhile (p := isBlank) (l := cs)
    rw [hcs] at hsplit
    rw [← hsplit]
    exact .cons (fun _ hc => List.mem_takeWhile_imp hc) h

theorem Starts.append {ls ms : List Lexeme} {cs mid rest : List Char} (h : Starts ls cs mid)
    (h' : Starts ms mid rest) : Starts (ls ++ ms) cs rest := by
  induction h with
  | nil => exact h'
  | cons hblanks _ ih => exact .cons hblanks (ih h')

theorem starts_append_iff (ls : List Lexeme) {ms : List Lexeme} {cs rest : List Char} :
    Starts (ls ++ ms) cs rest ↔ ∃ mid, Starts ls cs mid ∧ Starts ms mid rest := by
  constructor
  · intro h
    induction ls generalizing cs with
    | nil => exact ⟨cs, .nil, h⟩
    | cons l ls ih =>
      cases h with
      | cons hblanks h =>
        obtain ⟨mid, hls, hms⟩ := ih h
        exact ⟨mid, .cons hblanks hls, hms⟩
  · rintro ⟨mid, hls, hms⟩
    exact hls.append hms

/-- Without any blanks the lexemes make a text. -/
theorem starts_flatMap_text (ls : List Lexeme) (rest : List Char) :
    Starts ls (ls.flatMap Lexeme.text ++ rest) rest := by
  induction ls with
  | nil => exact .nil
  | cons l ls ih =>
    rw [List.flatMap_cons, List.append_assoc]
    have hnone : ∀ c ∈ ([] : List Char), isBlank c = true := nofun
    exact .cons hnone ih

/-- A number ends where a bracket or a comma follows, behind blanks or not. -/
theorem Starts.endsNumber {l : Lexeme} {ls : List Lexeme} {cs rest : List Char}
    (h : Starts (l :: ls) cs rest) (hl : ∀ n, l ≠ .numeral n) : EndsNumber cs := by
  intro x hx
  cases h with
  | @cons _ _ blanks tail _ hblanks h =>
    cases blanks with
    | nil =>
      cases l with
      | numeral n => exact absurd rfl (hl n)
      | _ => cases hx; decide
    | cons b blanks =>
      cases hx
      have hb := hblanks x List.mem_cons_self
      simp only [isBlank, Bool.or_eq_true, beq_iff_eq] at hb
      rcases hb with ((rfl | rfl) | rfl) | rfl <;> decide

/-! ## Deciding the grammar -/

/-- What a text goes on with behind the lexemes, if it starts with them. -/
def remains? : List Lexeme → List Char → Option (List Char)
  | [], cs => some cs
  | l :: ls, cs => (l.text.isPrefixOf? (cs.dropWhile isBlank)).bind (remains? ls)

theorem starts_iff_remains? {ls : List Lexeme} {cs rest : List Char} :
    Starts ls cs rest ↔ remains? ls cs = some rest := by
  induction ls generalizing cs with
  | nil =>
    rw [remains?, Option.some.injEq]
    constructor
    · intro h
      cases h
      rfl
    · rintro rfl
      exact .nil
  | cons l ls ih =>
    have hfront : ∀ tail, l.text.isPrefixOf? (cs.dropWhile isBlank) = some tail ↔
        cs.dropWhile isBlank = l.text ++ tail := fun tail => by
      rw [List.isPrefixOf?_eq_some_iff_append_eq, eq_comm]
    rw [starts_cons_iff, remains?, Option.bind_eq_some_iff]
    simp only [hfront, ih]

instance (text : String) (is : List Interval) : Decidable (Describes text is) :=
  decidable_of_iff ((remains? (Lexeme.ofIntervals is) text.toList).any (·.all isBlank) = true) <| by
    simp only [Option.any_eq_true, List.all_eq_true, Describes, starts_iff_remains?]

/-! ## The list of a set's intervals -/

/-- What stands before an element of a list. -/
def separator (first : Bool) : List Lexeme := if first then [] else [.comma]

/-- The elements of a list that are still to come. -/
def elements : Bool → List Interval → List Lexeme
  | _, [] => []
  | first, i :: is => separator first ++ Lexeme.ofInterval i ++ elements false is

theorem elements_eq_intercalate (is : List Interval) :
    elements true is = [Lexeme.comma].intercalate (is.map Lexeme.ofInterval) := by
  induction is with
  | nil => rfl
  | cons i is ih =>
    cases is with
    | nil => rw [List.map_singleton, List.intercalate_singleton]; simp [elements, separator]
    | cons j is =>
      rw [List.map_cons, List.map_cons, List.intercalate_cons_cons, ← List.map_cons, ← ih]
      simp [elements, separator]

theorem ofIntervals_eq (is : List Interval) :
    Lexeme.ofIntervals is = .leftBracket :: (elements true is ++ [.rightBracket]) := by
  rw [Lexeme.ofIntervals, elements_eq_intercalate, List.cons_append]

/-! ## A text describes one list at most -/

theorem Lexeme.text_append_inj {l m : Lexeme} {cs ds : List Char}
    (hl : ∀ n, l = .numeral n → EndsNumber cs) (hm : ∀ n, m = .numeral n → EndsNumber ds)
    (h : l.text ++ cs = m.text ++ ds) : l = m ∧ cs = ds := by
  cases l with
  | numeral n =>
    cases m with
    | numeral k =>
      obtain ⟨rfl, rfl⟩ := toDigits_append_inj (hl n rfl) (hm k rfl) h
      exact ⟨rfl, rfl⟩
    | _ => exact absurd (isDigit_of_toDigits_append_eq h) (by decide)
  | _ =>
    cases m with
    | numeral k => exact absurd (isDigit_of_toDigits_append_eq h.symm) (by decide)
    | _ => cases h <;> exact ⟨rfl, rfl⟩

section
variable {l m : Lexeme} {ls ms : List Lexeme} {cs rest rest' : List Char}

theorem Starts.head_eq (h : Starts (l :: ls) cs rest) (h' : Starts (m :: ms) cs rest')
    (hl : ∀ n tail, l = .numeral n → Starts ls tail rest → EndsNumber tail)
    (hm : ∀ n tail, m = .numeral n → Starts ms tail rest' → EndsNumber tail) :
    l = m ∧ ∃ tail, Starts ls tail rest ∧ Starts ms tail rest' := by
  obtain ⟨tail, hcs, h⟩ := starts_cons_iff.1 h
  obtain ⟨tail', hcs', h'⟩ := starts_cons_iff.1 h'
  obtain ⟨rfl, rfl⟩ := Lexeme.text_append_inj (fun n hn => hl n tail hn h)
    (fun n hn => hm n tail' hn h') (hcs.symm.trans hcs')
  exact ⟨rfl, tail, h, h'⟩

theorem Starts.mark_eq (h : Starts (l :: ls) cs rest) (h' : Starts (m :: ms) cs rest')
    (hl : ∀ n, l ≠ .numeral n) (hm : ∀ n, m ≠ .numeral n) :
    l = m ∧ ∃ tail, Starts ls tail rest ∧ Starts ms tail rest' :=
  h.head_eq h' (fun n _ hn => absurd hn (hl n)) fun n _ hn => absurd hn (hm n)

theorem Starts.numeral_eq {n k : Nat} (h : Starts (.numeral n :: l :: ls) cs rest)
    (h' : Starts (.numeral k :: m :: ms) cs rest') (hl : ∀ n, l ≠ .numeral n)
    (hm : ∀ n, m ≠ .numeral n) :
    n = k ∧ ∃ tail, Starts (l :: ls) tail rest ∧ Starts (m :: ms) tail rest' := by
  obtain ⟨heq, htail⟩ :=
    h.head_eq h' (fun _ _ _ h => h.endsNumber hl) fun _ _ _ h => h.endsNumber hm
  exact ⟨Lexeme.numeral.inj heq, htail⟩

theorem Starts.interval_eq {i j : Interval} (h : Starts (Lexeme.ofInterval i ++ ls) cs rest)
    (h' : Starts (Lexeme.ofInterval j ++ ms) cs rest') :
    i = j ∧ ∃ tail, Starts ls tail rest ∧ Starts ms tail rest' := by
  obtain ⟨-, cs, h, h'⟩ := h.mark_eq h' nofun nofun
  obtain ⟨hfirst, cs, h, h'⟩ := h.numeral_eq h' nofun nofun
  obtain ⟨-, cs, h, h'⟩ := h.mark_eq h' nofun nofun
  obtain ⟨hlast, cs, h, h'⟩ := h.numeral_eq h' nofun nofun
  obtain ⟨-, htail⟩ := h.mark_eq h' nofun nofun
  obtain ⟨first, last⟩ := i
  obtain ⟨first', last'⟩ := j
  cases hfirst
  cases hlast
  exact ⟨rfl, htail⟩

end

theorem elements_eq_of_starts {first : Bool} {is js : List Interval} {cs rest rest' : List Char}
    (h : Starts (elements first is ++ [.rightBracket]) cs rest)
    (h' : Starts (elements first js ++ [.rightBracket]) cs rest') : is = js := by
  induction is generalizing first cs js with
  | nil =>
    cases js with
    | nil => rfl
    | cons j js => cases first <;> cases (h.mark_eq h' nofun nofun).1
  | cons i is ih =>
    cases js with
    | nil => cases first <;> cases (h.mark_eq h' nofun nofun).1
    | cons j js =>
      rw [elements, List.append_assoc, List.append_assoc] at h h'
      have hdrop : ∃ cs,
          Starts (Lexeme.ofInterval i ++ (elements false is ++ [.rightBracket])) cs rest ∧
          Starts (Lexeme.ofInterval j ++ (elements false js ++ [.rightBracket])) cs rest' := by
        cases first with
        | true => exact ⟨cs, h, h'⟩
        | false => exact (h.mark_eq h' nofun nofun).2
      obtain ⟨cs, h, h'⟩ := hdrop
      obtain ⟨rfl, tail, h, h'⟩ := h.interval_eq h'
      rw [ih h h']

theorem Describes.unique {text : String} {is js : List Interval} (h : Describes text is)
    (h' : Describes text js) : is = js := by
  obtain ⟨rest, h, -⟩ := h
  obtain ⟨rest', h', -⟩ := h'
  rw [ofIntervals_eq] at h h'
  obtain ⟨-, cs, h, h'⟩ := h.mark_eq h' nofun nofun
  exact elements_eq_of_starts h h'

end CharClass.Json
