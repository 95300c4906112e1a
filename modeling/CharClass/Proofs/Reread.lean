import CharClass.Proofs.Display
import CharClass.Proofs.Logged
import Mathlib.Data.List.Infix
import Mathlib.Data.Nat.Find

/-!
# The text of a set read as a spec string

The text of a set is no spec string, but nothing keeps a reader from taking it for one. It then
reads the numerals character by character, and the hyphen of each interval makes a range of the
digits on both sides of it: the last digit of the first end and the first digit of the last one
(`PointSet.items_scan_text`). So the text is refused if one of these ranges descends, and else it
describes a set of digits, with the space if there are several intervals.

It never describes the set that it is the text of. Such a set would have digits among its members.
The least of them, `m`, would start an interval, and `48 + m % 10`, where the range of this interval
starts, would be a member too and not lie below `m`. That leaves `0` and `1`, whose numerals are
`48` and `49`; but no range from `8` or `9` ascends to the `4` or `5` that the numeral of a digit
starts with.
-/

namespace CharClass

/-! ## Numerals -/

/-- The last digit of a numeral is the remainder by ten. -/
theorem toDigits_eq_concat (n : Nat) :
    Nat.toDigits 10 n = (Nat.toDigits 10 n).dropLast ++ [(n % 10).digitChar] := by
  rcases Nat.lt_or_ge n 10 with hn | hn
  · rw [Nat.toDigits_of_lt_base hn, Nat.mod_eq_of_lt hn]
    rfl
  · rw [Nat.toDigits_of_base_le (by decide) hn, List.dropLast_concat]

theorem toNat_lastDigit (n : Nat) : (n % 10).digitChar.toNat = 0x30 + n % 10 :=
  Nat.toNat_digitChar_of_lt_ten (Nat.mod_lt _ (by decide))

theorem isDigit_lastDigit (n : Nat) : (n % 10).digitChar.isDigit = true := by
  rw [Nat.isDigit_digitChar, decide_eq_true_iff]
  exact Nat.mod_lt _ (by decide)

/-- The first digit of a numeral. -/
def leadingDigit (n : Nat) : Char := (Nat.toDigits 10 n).head Nat.toDigits_ne_nil

theorem toDigits_eq_cons (n : Nat) :
    Nat.toDigits 10 n = leadingDigit n :: (Nat.toDigits 10 n).tail :=
  (List.cons_head_tail _).symm

theorem isDigit_leadingDigit (n : Nat) : (leadingDigit n).isDigit = true :=
  Json.isDigit_of_mem_toDigits _ (List.head_mem _)

/-- A numeral of two digits starts with the tens. -/
theorem toNat_leadingDigit {n : Nat} (hn : 10 ≤ n) (hn' : n < 100) :
    (leadingDigit n).toNat = 0x30 + n / 10 := by
  have htens : n / 10 < 10 := by omega
  have hdigits : Nat.toDigits 10 n = [(n / 10).digitChar, (n % 10).digitChar] := by
    rw [Nat.toDigits_of_base_le (by decide) hn, Nat.toDigits_of_lt_base htens]
    rfl
  have hhead := (toDigits_eq_cons n).symm.trans hdigits
  rw [(List.cons.inj hhead).1, Nat.toNat_digitChar_of_lt_ten htens]

/-! ## Items -/

namespace Spec.Item

/-- The item is a space, a digit or a range between digits. -/
def Numeric : Item → Prop
  | literal c => c = ' ' ∨ c.isDigit = true
  | range c d => c.isDigit = true ∧ d.isDigit = true

namespace Numeric

variable {item : Item} (h : item.Numeric)
include h

theorem head?_render_ne : item.render.head? ≠ some '-' := by
  have hdigit : ∀ c : Char, c.isDigit = true → c ≠ '-' := by
    rintro c hc rfl
    cases hc
  cases item with
  | literal c =>
    rcases h with rfl | hc
    · simp [render]
    · simpa [render] using hdigit c hc
  | range c d => simpa [render] using hdigit c h.1

theorem eq_or_digit_of_includes {p : Nat} (hp : item.span.includes p = true) :
    p = 0x20 ∨ (0x30 ≤ p ∧ p ≤ 0x39) := by
  rw [Interval.includes_eq_true] at hp
  cases item with
  | literal c =>
    obtain rfl : c.toNat = p := Nat.le_antisymm hp.1 hp.2
    exact h.imp (congrArg Char.toNat) Char.isDigit_iff_toNat.1
  | range c d =>
    have hc := (Char.isDigit_iff_toNat.1 h.1).1
    have hd := (Char.isDigit_iff_toNat.1 h.2).2
    exact .inr ⟨Nat.le_trans hc hp.1, Nat.le_trans hp.2 hd⟩

end Numeric

end Spec.Item

namespace Interval

/-- What the text of an interval is read as: the digits on both sides of the hyphen as the ends of a
range, and the others as literals. -/
def textItems (i : Interval) : List Spec.Item :=
  (Nat.toDigits 10 i.first).dropLast.map .literal ++
    .range (i.first % 10).digitChar (leadingDigit i.last) ::
      (Nat.toDigits 10 i.last).tail.map .literal

theorem flatMap_render_textItems (i : Interval) :
    i.textItems.flatMap Spec.Item.render = i.text.toList := by
  have hfirst := toDigits_eq_concat i.first
  have hlast := toDigits_eq_cons i.last
  rw [toList_text, textItems, List.flatMap_append, List.flatMap_cons,
    Spec.flatMap_render_map_literal, Spec.flatMap_render_map_literal]
  generalize (Nat.toDigits 10 i.first).dropLast = before at hfirst ⊢
  generalize (Nat.toDigits 10 i.last).tail = after at hlast ⊢
  rw [hfirst, hlast, List.append_assoc]
  rfl

theorem numeric_of_mem_textItems (i : Interval) : ∀ item ∈ i.textItems, item.Numeric := by
  intro item hitem
  rcases List.mem_append.1 hitem with hitem | hitem
  · obtain ⟨c, hc, rfl⟩ := List.mem_map.1 hitem
    exact .inr (Json.isDigit_of_mem_toDigits c (List.mem_of_mem_dropLast hc))
  · rcases List.mem_cons.1 hitem with rfl | hitem
    · exact ⟨isDigit_lastDigit _, isDigit_leadingDigit _⟩
    · obtain ⟨c, hc, rfl⟩ := List.mem_map.1 hitem
      exact .inr (Json.isDigit_of_mem_toDigits c (List.mem_of_mem_tail hc))

end Interval

/-! ## Lists with a separator -/

section
variable {α β : Type}

theorem flatMap_intercalate (f : α → List β) (sep : List α) (xss : List (List α)) :
    (sep.intercalate xss).flatMap f = (sep.flatMap f).intercalate (xss.map (·.flatMap f)) := by
  induction xss with
  | nil => rfl
  | cons xs xss ih =>
    cases xss with
    | nil => rw [List.intercalate_singleton, List.map_singleton, List.intercalate_singleton]
    | cons ys xss =>
      rw [List.intercalate_cons_cons, List.flatMap_append, List.flatMap_append, ih, List.map_cons,
        List.map_cons, List.map_cons, List.intercalate_cons_cons]

theorem mem_intercalate_of_mem {sep xs : List α} {xss : List (List α)} {x : α} (hxs : xs ∈ xss)
    (hx : x ∈ xs) : x ∈ sep.intercalate xss := by
  obtain ⟨k, hk⟩ := List.getElem?_of_mem hxs
  have hk' : (xss.intersperse sep)[2 * k]? = some xs := by
    rw [List.getElem?_intersperse_two_mul, hk]
  exact List.mem_flatten.2 ⟨xs, List.mem_of_getElem? hk', hx⟩

theorem mem_or_exists_of_mem_intercalate {sep : List α} {xss : List (List α)} {x : α}
    (hx : x ∈ sep.intercalate xss) : x ∈ sep ∨ ∃ xs ∈ xss, x ∈ xs := by
  obtain ⟨xs, hxs, hx⟩ := List.mem_flatten.1 hx
  obtain ⟨k, hk⟩ := List.getElem?_of_mem hxs
  rw [List.getElem?_intersperse] at hk
  split at hk
  · exact .inr ⟨xs, List.mem_of_getElem? hk, hx⟩
  · split at hk
    · obtain rfl := Option.some.inj hk
      exact .inl hx
    · cases hk

end

namespace PointSet

/-! ## The reading -/

/-- What the text of a set is read as: the texts of its intervals, and a space between two of
them. -/
def textItems (s : PointSet) : List Spec.Item :=
  [.literal ' '].intercalate (s.intervals.toList.map Interval.textItems)

theorem flatMap_render_textItems (s : PointSet) :
    s.textItems.flatMap Spec.Item.render = s.text.toList := by
  have hrender : (·.flatMap Spec.Item.render) ∘ Interval.textItems = fun i => i.text.toList :=
    funext Interval.flatMap_render_textItems
  rw [textItems, flatMap_intercalate, toList_text, List.map_map, hrender]
  rfl

theorem numeric_of_mem_textItems (s : PointSet) : ∀ item ∈ s.textItems, item.Numeric := by
  intro item hitem
  rcases mem_or_exists_of_mem_intercalate hitem with hspace | ⟨items, hitems, hitem⟩
  · obtain rfl := List.mem_singleton.1 hspace
    exact .inl rfl
  · obtain ⟨i, -, rfl⟩ := List.mem_map.1 hitems
    exact i.numeric_of_mem_textItems item hitem

theorem range_mem_textItems {s : PointSet} {i : Interval} (hi : i ∈ s.intervals.toList) :
    .range (i.first % 10).digitChar (leadingDigit i.last) ∈ s.textItems :=
  mem_intercalate_of_mem (List.mem_map_of_mem hi)
    (List.mem_append_right _ List.mem_cons_self)

theorem items_scan_text (s : PointSet) : (Spec.scan s.text.toList).items = s.textItems := by
  refine Spec.items_scan_eq_iff.2 ⟨Spec.settled_of_head?_ne ?_, s.flatMap_render_textItems⟩
  exact fun item hitem => (s.numeric_of_mem_textItems item hitem).head?_render_ne

/-- The hyphen of each interval has digits on both sides, so none is left over for the end. -/
theorem closingHyphen_scan_text (s : PointSet) :
    (Spec.scan s.text.toList).closingHyphen = false := by
  refine Bool.eq_false_iff.2 fun hclosing => ?_
  have hmem := Spec.literal_hyphen_mem_of_closingHyphen hclosing
  rw [items_scan_text] at hmem
  exact (s.numeric_of_mem_textItems _ hmem).head?_render_ne rfl

theorem compile_text_eq_ok_iff {s : PointSet} {is : List Interval} :
    Spec.compile s.text = .ok is ↔
      (∀ item ∈ s.textItems, item.Ascends) ∧ s.textItems.map Spec.Item.span = is := by
  rw [Spec.compile, items_scan_text, Spec.mapM_interval_eq_ok_iff]

/-! ## The set that is read -/

section
variable {s t : PointSet} (ht : ofSpec s.text = .ok t)
include ht

theorem contains_of_ofSpec_text {p : Nat} :
    t.contains p = true ↔ ∃ item ∈ s.textItems, item.span.includes p = true := by
  obtain ⟨is, hcompile, rfl⟩ := ofSpec_ok ht
  have hvalid := Spec.valid_of_compile hcompile
  rw [contains_ofList hvalid, ← (compile_text_eq_ok_iff.1 hcompile).2, List.any_map,
    List.any_eq_true]
  rfl

/-- Only spaces and digits are read. -/
theorem eq_or_digit_of_contains {p : Nat} (hp : t.contains p = true) :
    p = 0x20 ∨ (0x30 ≤ p ∧ p ≤ 0x39) := by
  obtain ⟨item, hitem, hincl⟩ := (contains_of_ofSpec_text ht).1 hp
  exact (s.numeric_of_mem_textItems item hitem).eq_or_digit_of_includes hincl

section
variable {i : Interval} (hi : i ∈ s.intervals.toList)
include hi

/-- The range of an interval ascends. -/
theorem lastDigit_le_leadingDigit : 0x30 + i.first % 10 ≤ (leadingDigit i.last).toNat := by
  obtain ⟨is, hcompile, -⟩ := ofSpec_ok ht
  have hascends : (i.first % 10).digitChar ≤ leadingDigit i.last :=
    (compile_text_eq_ok_iff.1 hcompile).1 _ (range_mem_textItems hi)
  rw [← toNat_lastDigit]
  exact UInt32.le_iff_toNat_le.1 hascends

theorem contains_lastDigit : t.contains (0x30 + i.first % 10) = true := by
  refine (contains_of_ofSpec_text ht).2 ⟨_, range_mem_textItems hi, Interval.includes_eq_true.2 ?_⟩
  exact ⟨Nat.le_of_eq (toNat_lastDigit _), lastDigit_le_leadingDigit ht hi⟩

end

end

/-- Where all members are digits and spaces, an interval starts at the least digit: the point before
it is neither. -/
theorem WellFormed.exists_interval_of_least_digit {s : PointSet} (h : s.WellFormed)
    (hdigits : ∀ p, s.contains p = true → p = 0x20 ∨ (0x30 ≤ p ∧ p ≤ 0x39))
    (hsome : ∃ p, 0x30 ≤ p ∧ s.contains p = true) :
    ∃ i ∈ s.intervals.toList, 0x30 ≤ i.first ∧ i.last ≤ 0x39 ∧
      ∀ p, 0x30 ≤ p → s.contains p = true → i.first ≤ p := by
  obtain ⟨hdigit, hmem⟩ := Nat.find_spec hsome
  have hleast : ∀ p, 0x30 ≤ p → s.contains p = true → Nat.find hsome ≤ p := fun p hp hcont =>
    Nat.find_min' hsome ⟨hp, hcont⟩
  generalize Nat.find hsome = m at hdigit hmem hleast
  obtain ⟨i, hi, rfl⟩ := (h.contains_iff.1 hmem).exists_first_eq fun _ hbefore => by
    have hcont := h.contains_iff.2 hbefore
    rcases hdigits _ hcont with hspace | ⟨hdigit', -⟩
    · omega
    · have hle := hleast _ hdigit' hcont
      omega
  have hvalid : i.first ≤ i.last := (h.valid i hi).1
  have hlast := hdigits _ (h.contains_iff.2 ⟨i, hi, Interval.includes_last (h.valid i hi)⟩)
  exact ⟨i, hi, hdigit, by omega, hleast⟩

/-- No set is read from its own text, the empty one apart. -/
theorem WellFormed.ne_of_ofSpec_text {s t : PointSet} (h : s.WellFormed) (hsome : s.isEmpty = false)
    (ht : ofSpec s.text = .ok t) : t ≠ s := by
  rintro rfl
  have hdigit : ∃ p, 0x30 ≤ p ∧ t.contains p = true := by
    obtain ⟨p, hp⟩ := h.exists_contains_iff.2 hsome
    obtain ⟨i, hi, -⟩ := h.contains_iff.1 hp
    exact ⟨_, Nat.le_add_right _ _, contains_lastDigit ht hi⟩
  obtain ⟨i, hi, hfirst, hlast, hleast⟩ :=
    h.exists_interval_of_least_digit (fun p => eq_or_digit_of_contains ht) hdigit
  have hvalid : i.first ≤ i.last := (h.valid i hi).1
  -- the last digit of `i.first` is no less than `i.first`, and the numeral of `i.last` starts with
  -- `4` or `5`
  have hlow := hleast _ (Nat.le_add_right _ _) (contains_lastDigit ht hi)
  have hascends := lastDigit_le_leadingDigit ht hi
  rw [toNat_leadingDigit (by omega) (by omega)] at hascends
  omega

end PointSet

namespace Reachable

open PointSet

/-- The text of a set that is not empty, read as a spec string, is refused for a descending range,
or it describes another set, which has no members but digits and the space. No hyphen that ends it
is read as a literal, and none is reported. -/
theorem text_reread {s : PointSet} (hs : Reachable s) (hsome : s.isEmpty = false) :
    ((∃ first last, ofSpec s.text = .error (.descending first last)) ∨
        ∃ t, ofSpec s.text = .ok t ∧ t ≠ s ∧
          ∀ p, t.contains p = true → p = 0x20 ∨ (0x30 ≤ p ∧ p ≤ 0x39)) ∧
      (Spec.scan s.text.toList).closingHyphen = false ∧
      .closingHyphen s.text ∉ (Spec.logged s.text).2 := by
  have hclosing := s.closingHyphen_scan_text
  refine ⟨?_, hclosing, ?_⟩
  · cases hcompile : Spec.compile s.text with
    | error e =>
      obtain ⟨c, d, -, rfl⟩ := Spec.compile_eq_error_iff.1 hcompile
      exact .inl ⟨_, _, ofSpec_of_compile_error hcompile⟩
    | ok is =>
      have ht := ofSpec_of_compile_ok hcompile
      exact .inr ⟨_, ht, hs.wellFormed.ne_of_ofSpec_text hsome ht,
        fun p => eq_or_digit_of_contains ht⟩
  · rw [Spec.logged_eq, Spec.trace, hclosing]
    cases ofSpec s.text with
    | error e => simp
    | ok t => simp

/-- The text `1-9` is read as a range of digits, and `48-57` is refused for the range from `8` to
`5`. -/
theorem text_reread_of_digits :
    Reachable (ofInterval ⟨1, 9⟩) ∧ (ofInterval ⟨1, 9⟩).isEmpty = false ∧
      (ofInterval ⟨1, 9⟩).text = "1-9" ∧
      (∃ t, ofSpec "1-9" = .ok t ∧ t ≠ ofInterval ⟨1, 9⟩ ∧
        ∀ p, t.contains p = true → p = 0x20 ∨ (0x30 ≤ p ∧ p ≤ 0x39)) ∧
      (Spec.scan "1-9".toList).closingHyphen = false ∧
      Reachable Predefined.digit.set ∧ Predefined.digit.set.isEmpty = false ∧
      Predefined.digit.set.text = "48-57" ∧
      ∃ first last, ofSpec "48-57" = .error (.descending first last) := by
  have hs : Reachable (ofInterval ⟨1, 9⟩) := .built (.ofInterval (by decide))
  have hs' : Reachable Predefined.digit.set := .built (.predefined .digit)
  have hsome : (ofInterval ⟨1, 9⟩).isEmpty = false := by decide +kernel
  have hsome' : Predefined.digit.set.isEmpty = false := by decide +kernel
  have htext : (ofInterval ⟨1, 9⟩).text = "1-9" := by decide +kernel
  have htext' : Predefined.digit.set.text = "48-57" := by decide +kernel
  have hread : ofSpec "1-9" = .ok (ofList [⟨0x31, 0x39⟩]) := by rfl
  have hrefused : ofSpec "48-57" = .error (.descending 0x38 0x35) := by rfl
  obtain ⟨hout, hclosing, -⟩ := text_reread hs hsome
  obtain ⟨hout', -, -⟩ := text_reread hs' hsome'
  rw [htext] at hout hclosing
  rw [htext'] at hout'
  refine ⟨hs, hsome, htext, ?_, hclosing, hs', hsome', htext', ?_⟩
  · refine hout.resolve_left ?_
    rintro ⟨first, last, herror⟩
    rw [hread] at herror
    cases herror
  · refine hout'.resolve_right ?_
    rintro ⟨t, ht, -⟩
    rw [hrefused] at ht
    cases ht

end Reachable

end CharClass
