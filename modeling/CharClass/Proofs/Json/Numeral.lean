import CharClass.Json.Point
import CharClass.Json.Scan.Number
import Mathlib.Data.List.Basic
import Mathlib.Data.List.TakeWhile

/-!
# Reading numerals

The numeral of a natural number is `Nat.toDigits 10`: no sign, no zero in front of other digits. A
run of digits without such a zero is the numeral of its value (`toDigits_digitsValue`). So the
reader of numbers returns a natural number as an integer just where its numeral stands
(`rest_of_number_eq_integer`, `number_of_rest`): a fraction or an exponent makes a double of it, and
so does a minus sign before zero.
-/

namespace CharClass.Json

open Cursor

/-! ## Digits and their value -/

theorem digitValue_lt {d : Char} (h : d.isDigit = true) : digitValue d < 10 := by
  have := Char.isDigit_iff_toNat.1 h
  simp only [digitValue, Char.reduceToNat] at this ⊢
  omega

theorem digitChar_digitValue {d : Char} (h : d.isDigit = true) : (digitValue d).digitChar = d := by
  apply Char.toNat_inj.1
  rw [Nat.toNat_digitChar_of_lt_ten (digitValue_lt h)]
  have := Char.isDigit_iff_toNat.1 h
  simp only [digitValue, Char.reduceToNat] at this ⊢
  omega

/-- Behind a number that is not zero, digits can be appended to the numeral. -/
theorem toDigits_append {n : Nat} {ds : List Char} (hn : 0 < n) (hds : ∀ d ∈ ds, d.isDigit = true) :
    Nat.toDigits 10 n ++ ds = Nat.toDigits 10 (Nat.ofDigitChars 10 ds n) := by
  induction ds generalizing n with
  | nil => simp
  | cons d ds ih =>
    obtain ⟨hd, hds⟩ := List.forall_mem_cons.1 hds
    have hone : [d] = Nat.toDigits 10 (digitValue d) := by
      rw [Nat.toDigits_of_lt_base (digitValue_lt hd), digitChar_digitValue hd]
    have hlast : Nat.toDigits 10 n ++ [d] = Nat.toDigits 10 (10 * n + digitValue d) := by
      rw [hone]
      exact Nat.toDigits_append_toDigits (by decide) hn (digitValue_lt hd)
    rw [Nat.ofDigitChars_cons, ← List.singleton_append, ← List.append_assoc, hlast]
    exact ih (by omega) hds

/-- A run of digits is the numeral of its value, unless a zero stands before other digits. -/
theorem toDigits_digitsValue {ds : List Char} (hne : ds ≠ []) (hds : ∀ d ∈ ds, d.isDigit = true)
    (hzero : ds.head? = some '0' → ds = ['0']) : Nat.toDigits 10 (digitsValue ds) = ds := by
  cases ds with
  | nil => exact absurd rfl hne
  | cons d ds =>
    obtain ⟨hd, htail⟩ := List.forall_mem_cons.1 hds
    by_cases hd0 : d = '0'
    · subst hd0
      rw [hzero rfl]
      rfl
    · have hone : Nat.toDigits 10 (digitValue d) = [d] := by
        rw [Nat.toDigits_of_lt_base (digitValue_lt hd), digitChar_digitValue hd]
      have hpos : 0 < digitValue d := by
        refine Nat.pos_of_ne_zero fun hval => hd0 ?_
        rw [← digitChar_digitValue hd, hval]
        rfl
      calc Nat.toDigits 10 (digitsValue (d :: ds))
          = Nat.toDigits 10 (Nat.ofDigitChars 10 ds (digitValue d)) := by
            rw [digitsValue, Nat.ofDigitChars_cons, Nat.mul_zero, Nat.zero_add]
            rfl
        _ = Nat.toDigits 10 (digitValue d) ++ ds := (toDigits_append hpos htail).symm
        _ = d :: ds := by rw [hone]; rfl

theorem isDigit_of_mem_toDigits {n : Nat} : ∀ d ∈ Nat.toDigits 10 n, d.isDigit = true :=
  fun _ => Nat.isDigit_of_mem_toDigits (by decide) (by decide)

/-- A text that starts with a numeral starts with a digit. -/
theorem isDigit_of_toDigits_append_eq {n : Nat} {x : Char} {tail rest : List Char}
    (h : Nat.toDigits 10 n ++ rest = x :: tail) : x.isDigit = true := by
  have hhead := congrArg List.head? h
  rw [List.head?_append_of_ne_nil _ Nat.toDigits_ne_nil] at hhead
  exact isDigit_of_mem_toDigits x (List.mem_of_head? hhead)

theorem head?_toDigits_ne {n : Nat} (hn : 0 < n) : (Nat.toDigits 10 n).head? ≠ some '0' := by
  induction n using Nat.strongRecOn with
  | ind n ih =>
    rw [Nat.toDigits_eq_if (by decide)]
    split
    · simpa using Nat.ne_of_gt hn
    · rw [List.head?_append_of_ne_nil _ Nat.toDigits_ne_nil]
      exact ih (n / 10) (by omega) (by omega)

theorem le_ofDigitChars (ds : List Char) (n : Nat) : n ≤ Nat.ofDigitChars 10 ds n := by
  induction ds generalizing n with
  | nil => simp
  | cons d ds ih =>
    rw [Nat.ofDigitChars_cons]
    exact Nat.le_trans (by omega) (ih _)

/-- All digits fit the significand just if their value does. -/
theorem fill_eq_nil_iff {n v : Nat} {ds : List Char} (hn : n ≤ Number.maxSignificand) :
    fill n ds = (v, []) ↔
      Nat.ofDigitChars 10 ds n = v ∧ Nat.ofDigitChars 10 ds n ≤ Number.maxSignificand := by
  induction ds generalizing n with
  | nil => simp [fill, hn]
  | cons d ds ih =>
    rw [fill, Nat.ofDigitChars_cons]
    split
    · next hfits => exact ih hfits
    · next hlarge =>
      have := le_ofDigitChars ds (10 * n + digitValue d)
      constructor
      · intro h
        cases h
      · rintro ⟨-, hle⟩
        exact absurd (Nat.le_trans this hle) hlarge

/-! ## What a number is read as -/

theorem eq_real_of_finishReal {negative : Bool} {n : Nat} {e : Int} {c d : Cursor} {x : Number}
    (h : finishReal negative n e c = .ok (x, d)) : ∃ y, x = .real negative y := by
  unfold finishReal at h
  split at h
  · cases h
    exact ⟨_, rfl⟩
  · cases h

theorem eq_real_of_exponentDigits {negative down : Bool} {n : Nat} {e : Int} {c d : Cursor}
    {x : Number} (h : exponentDigits negative down n e c = .ok (x, d)) :
    ∃ y, x = .real negative y := by
  unfold exponentDigits at h
  repeat' split at h
  all_goals first | cases h | exact eq_real_of_finishReal h

theorem eq_real_of_exponent {negative : Bool} {n : Nat} {e : Int} {c d : Cursor} {x : Number}
    (h : exponent negative n e c = .ok (x, d)) : ∃ y, x = .real negative y := by
  unfold exponent at h
  split at h <;> exact eq_real_of_exponentDigits h

theorem eq_real_of_fraction {negative : Bool} {n : Nat} {e : Int} {c d : Cursor} {x : Number}
    (h : fraction negative n e c = .ok (x, d)) : ∃ y, x = .real negative y := by
  unfold fraction at h
  split at h
  · cases h
  · split at h
    · cases h
    · unfold afterFraction at h
      split at h
      · exact eq_real_of_exponent h
      · exact eq_real_of_exponent h
      · exact eq_real_of_finishReal h

/-- What is no double is the value of the integer digits. -/
theorem afterInteger_cases {negative : Bool} {ds : List Char} {c d : Cursor} {x : Number}
    (h : afterInteger negative ds c = .ok (x, d)) :
    (∃ y, x = .real negative y) ∨
      (d = c ∧ Number.ofDigits? negative (digitsValue ds) = some x) := by
  unfold afterInteger at h
  dsimp only at h
  split at h
  · exact .inl (eq_real_of_fraction h)
  · exact .inl (eq_real_of_exponent h)
  · exact .inl (eq_real_of_exponent h)
  · split at h
    · next hdigits =>
      cases h
      split at hdigits
      · next hall =>
        have hfill : fill 0 ds = ((fill 0 ds).1, []) := by
          rw [← List.isEmpty_iff.1 hall]
        have hvalue := ((fill_eq_nil_iff (Nat.zero_le _)).1 hfill).1
        rw [← hvalue] at hdigits
        exact .inr ⟨rfl, hdigits⟩
      · cases hdigits
    · exact .inl (eq_real_of_finishReal h)

theorem Number.point_eq_ok_iff {x : Number} {p : Nat} :
    x.point = .ok p ↔ x = .integer p ∧ p ≤ maxWord := by
  cases x with
  | real negative y => simp [point]
  | integer v =>
    simp only [point, integer.injEq]
    split
    · rw [Except.ok.injEq]
      omega
    · simp only [reduceCtorEq, false_iff]
      omega

/-! ## Numerals in a text -/

/-- The number ends here: no digit, fraction or exponent follows. -/
def EndsNumber (rest : List Char) : Prop :=
  ∀ x ∈ rest.head?, x.isDigit = false ∧ x ≠ '.' ∧ x ≠ 'e' ∧ x ≠ 'E'

theorem digits_append_skipDigits (c : Cursor) : c.digits ++ c.skipDigits.rest = c.rest :=
  List.takeWhile_append_dropWhile

theorem isDigit_of_mem_digits {c : Cursor} : ∀ d ∈ c.digits, d.isDigit = true :=
  fun _ hd => List.mem_takeWhile_imp hd

/-- A run of digits is taken whole and nothing behind it. -/
theorem takeWhile_dropWhile_digits {ds rest : List Char} (hds : ∀ d ∈ ds, d.isDigit = true)
    (hends : EndsNumber rest) :
    (ds ++ rest).takeWhile Char.isDigit = ds ∧ (ds ++ rest).dropWhile Char.isDigit = rest := by
  have hstop : rest.takeWhile Char.isDigit = [] ∧ rest.dropWhile Char.isDigit = rest := by
    cases rest with
    | nil => exact ⟨rfl, rfl⟩
    | cons x rest =>
      have hx : x.isDigit = false := (hends x rfl).1
      simp [hx]
  rw [List.takeWhile_append_of_pos hds, List.dropWhile_append_of_pos hds, hstop.1, hstop.2,
    List.append_nil]
  exact ⟨rfl, rfl⟩

theorem digits_of_rest {c : Cursor} (ds : List Char) {rest : List Char} (h : c.rest = ds ++ rest)
    (hds : ∀ d ∈ ds, d.isDigit = true) (hends : EndsNumber rest) :
    c.digits = ds ∧ c.skipDigits.rest = rest := by
  rw [digits, skipDigits, skipWhile, h]
  exact takeWhile_dropWhile_digits hds hends

/-- Neither the number nor what follows it can be taken for another. -/
theorem toDigits_append_inj {m n : Nat} {cs ds : List Char} (hcs : EndsNumber cs)
    (hds : EndsNumber ds) (h : Nat.toDigits 10 m ++ cs = Nat.toDigits 10 n ++ ds) :
    m = n ∧ cs = ds := by
  obtain ⟨hm, hcs⟩ := takeWhile_dropWhile_digits (isDigit_of_mem_toDigits (n := m)) hcs
  obtain ⟨hn, hds⟩ := takeWhile_dropWhile_digits (isDigit_of_mem_toDigits (n := n)) hds
  rw [h] at hm hcs
  refine ⟨?_, hcs.symm.trans hds⟩
  calc
    m = Nat.ofDigitChars 10 (Nat.toDigits 10 m) 0 := Nat.ofDigitChars_ten_toDigits.symm
    _ = Nat.ofDigitChars 10 (Nat.toDigits 10 n) 0 := by rw [← hm, hn]
    _ = n := Nat.ofDigitChars_ten_toDigits

/-- An integer without sign comes from its digits. -/
theorem afterInteger_eq_integer {negative : Bool} {ds : List Char} {c d : Cursor} {p : Nat}
    (h : afterInteger negative ds c = .ok (.integer p, d)) :
    negative = false ∧ d = c ∧ digitsValue ds = p := by
  obtain ⟨y, hy⟩ | ⟨rfl, hvalue⟩ := afterInteger_cases h
  · cases hy
  · unfold Number.ofDigits? at hvalue
    split at hvalue
    · split at hvalue
      · cases hvalue
      · simp only [Option.some.injEq, Number.integer.injEq] at hvalue
        omega
    · next hneg =>
      simp only [Option.some.injEq, Number.integer.injEq] at hvalue
      exact ⟨by simpa using hneg, rfl, by omega⟩

theorem rest_of_unsigned_eq_integer {negative : Bool} {c d : Cursor} {p : Nat}
    (h : unsigned negative c = .ok (.integer p, d)) :
    negative = false ∧ c.rest = Nat.toDigits 10 p ++ d.rest := by
  unfold unsigned at h
  split at h
  · cases h
  · next tail starts =>
    split at h
    · obtain ⟨hneg, rfl, rfl⟩ := afterInteger_eq_integer h
      exact ⟨hneg, by rw [rest_advance starts, starts]; rfl⟩
    · cases h
  · next x tail hzero starts =>
    split at h
    · cases h
    · next hsome =>
      obtain ⟨hneg, rfl, rfl⟩ := afterInteger_eq_integer h
      have hsplit := digits_append_skipDigits c
      have hne : c.digits ≠ [] := by simpa using hsome
      have hhead : c.digits.head? ≠ some '0' := by
        have hhead := congrArg List.head? hsplit
        rw [List.head?_append_of_ne_nil _ hne, starts] at hhead
        rw [hhead]
        exact fun hx => hzero (Option.some.inj hx)
      rw [toDigits_digitsValue hne isDigit_of_mem_digits fun hx => absurd hx hhead]
      exact ⟨hneg, hsplit.symm⟩

/-- A natural number is only read from its numeral. -/
theorem rest_of_number_eq_integer {c d : Cursor} {p : Nat} (h : number c = .ok (.integer p, d)) :
    c.rest = Nat.toDigits 10 p ++ d.rest := by
  unfold number at h
  split at h
  · exact absurd (rest_of_unsigned_eq_integer h).1 (by decide)
  · exact (rest_of_unsigned_eq_integer h).2

theorem afterInteger_of_endsNumber (ds : List Char) {c : Cursor} (h : EndsNumber c.rest)
    (hfits : digitsValue ds ≤ Number.maxSignificand) :
    afterInteger false ds c = .ok (.integer (digitsValue ds), c) := by
  have hfill : fill 0 ds = (digitsValue ds, []) :=
    (fill_eq_nil_iff (Nat.zero_le _)).2 ⟨rfl, hfits⟩
  unfold afterInteger
  dsimp only
  split
  · next hrest => exact absurd rfl (h _ (by rw [hrest]; rfl)).2.1
  · next hrest => exact absurd rfl (h _ (by rw [hrest]; rfl)).2.2.1
  · next hrest => exact absurd rfl (h _ (by rw [hrest]; rfl)).2.2.2
  · rw [hfill]
    rfl

theorem unsigned_of_rest {c : Cursor} {p : Nat} {rest : List Char}
    (h : c.rest = Nat.toDigits 10 p ++ rest) (hp : p ≤ Number.maxSignificand)
    (hends : EndsNumber rest) : ∃ d, unsigned false c = .ok (.integer p, d) ∧ d.rest = rest := by
  unfold unsigned
  by_cases hp0 : p = 0
  · subst hp0
    have hstarts : c.rest = '0' :: rest := by rw [h, Nat.toDigits_zero]; rfl
    have hrest := rest_advance hstarts
    have hdigits : c.advance.digits = [] := (digits_of_rest [] hrest (by simp) hends).1
    refine ⟨c.advance, ?_, hrest⟩
    rw [hstarts]
    simp only [hdigits, List.isEmpty_nil, ↓reduceIte]
    exact afterInteger_of_endsNumber _ (hrest ▸ hends) hp
  · obtain ⟨hdigits, hrest⟩ := digits_of_rest _ h isDigit_of_mem_toDigits hends
    have hvalue : digitsValue (Nat.toDigits 10 p) = p := Nat.ofDigitChars_ten_toDigits
    have hread := afterInteger_of_endsNumber (Nat.toDigits 10 p) (c := c.skipDigits)
      (hrest ▸ hends) (by rw [hvalue]; exact hp)
    have hhead : c.rest.head? ≠ some '0' := by
      rw [h, List.head?_append_of_ne_nil _ Nat.toDigits_ne_nil]
      exact head?_toDigits_ne (Nat.pos_of_ne_zero hp0)
    refine ⟨c.skipDigits, ?_, hrest⟩
    split
    · next hnil => exact absurd (hnil.symm.trans h) (by simp)
    · next hzero => exact absurd (congrArg List.head? hzero) hhead
    · rw [hdigits, if_neg (by simp), hread, hvalue]

/-- Where a numeral stands and the number ends behind it, the number is read as an integer. -/
theorem number_of_rest {c : Cursor} {p : Nat} {rest : List Char}
    (h : c.rest = Nat.toDigits 10 p ++ rest) (hp : p ≤ Number.maxSignificand)
    (hends : EndsNumber rest) : ∃ d, number c = .ok (.integer p, d) ∧ d.rest = rest := by
  unfold number
  split
  · next hminus =>
    exact absurd (isDigit_of_toDigits_append_eq (h.symm.trans hminus)) (by decide)
  · exact unsigned_of_rest h hp hends

end CharClass.Json
