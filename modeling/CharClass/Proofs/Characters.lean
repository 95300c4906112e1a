import CharClass.Proofs.Size
import CharClass.Proofs.Written
import Mathlib.Data.Char
import Mathlib.Data.Finset.Sort

/-!
# The characters of a set

A set is turned into characters by going through the points of its intervals and passing over those
that number no character. Points ascend in an interval and from each interval to the next, so the
characters do as well, and each comes once (`WellFormed.pairwise_chars`).

Collecting characters is inserting intervals of one point each. It makes no member of a surrogate,
also where the characters on both sides of the surrogates are collected, because members are all
that a set has (`contains_ofChars`). So there and back again, in either order, only surrogates,
order and repetitions are lost.
-/

namespace CharClass

/-! ## Characters and their numbers -/

theorem scalar?_eq_some_iff {p : Nat} {c : Char} : scalar? p = some c ↔ c.toNat = p := by
  unfold scalar?
  by_cases hvalid : p.isValidChar
  · rw [dif_pos hvalid, Option.some.injEq]
    constructor
    · intro h
      subst h
      rfl
    · intro h
      subst h
      rfl
  · rw [dif_neg hvalid]
    constructor
    · intro h
      cases h
    · intro h
      subst h
      exact absurd c.valid hvalid

theorem exists_toNat_eq_iff {p : Nat} :
    (∃ c : Char, c.toNat = p) ↔ p ≤ maxPoint ∧ ¬Surrogate p := by
  constructor
  · intro ⟨c, hc⟩
    exact hc ▸ ⟨toNat_le_maxPoint c, not_surrogate_toNat c⟩
  · intro ⟨hp, hscalar⟩
    exact ⟨Char.ofNat p, toNat_ofNat_of_not_surrogate hp hscalar⟩

namespace Interval

theorem mem_chars {i : Interval} {c : Char} : c ∈ i.chars ↔ i.includes c.toNat = true := by
  rw [chars, List.mem_filterMap]
  simp only [scalar?_eq_some_iff, mem_points, exists_eq_right']

theorem pairwise_chars (i : Interval) : i.chars.Pairwise (· < ·) := by
  refine List.Pairwise.filterMap scalar? ?_ List.pairwise_lt_range'
  intro p q hpq c hc d hd
  obtain rfl := scalar?_eq_some_iff.1 hc
  obtain rfl := scalar?_eq_some_iff.1 hd
  exact UInt32.lt_iff_toNat_lt.2 hpq

end Interval

namespace PointSet

/-- The points that number no character. -/
def surrogates : Interval := ⟨0xD800, 0xDFFF⟩

theorem valid_surrogates : surrogates.Valid := by decide

theorem includes_surrogates {p : Nat} : surrogates.includes p = true ↔ Surrogate p :=
  Interval.includes_eq_true

/-! ## From sets to characters -/

namespace WellFormed

variable {s : PointSet} (h : s.WellFormed)
include h

theorem mem_chars {c : Char} : c ∈ s.chars ↔ s.containsChar c = true := by
  rw [chars, List.mem_flatMap, containsChar, h.contains_iff]
  exact exists_congr fun i => and_congr_right fun _ => Interval.mem_chars

/-- The characters ascend strictly, so none comes twice. -/
theorem pairwise_chars : s.chars.Pairwise (· < ·) := by
  refine List.pairwise_flatMap.2 ⟨fun i _ => i.pairwise_chars, ?_⟩
  refine h.separated.imp fun {i j} hsep c hc d hd => ?_
  have hgap : i.last + 1 < j.first := hsep
  have hc := (Interval.includes_eq_true.1 (Interval.mem_chars.1 hc)).2
  have hd := (Interval.includes_eq_true.1 (Interval.mem_chars.1 hd)).1
  exact UInt32.lt_iff_toNat_lt.2 (show c.toNat < d.toNat by omega)

end WellFormed

/-! ## From characters to sets -/

theorem wellFormed_ofChars (cs : List Char) : (ofChars cs).WellFormed :=
  (Built.ofChars cs).represents.wellFormed

/-- The members are the numbers of the characters, in whatever order these come and however
often. -/
theorem contains_ofChars {cs : List Char} {p : Nat} :
    (ofChars cs).contains p = true ↔ ∃ c ∈ cs, c.toNat = p :=
  (Built.ofChars cs).represents.contains_iff p

theorem containsChar_ofChars {cs : List Char} {c : Char} :
    (ofChars cs).containsChar c = true ↔ c ∈ cs := by
  rw [containsChar, contains_ofChars]
  simp only [Char.toNat_inj, exists_eq_right]

/-- No surrogate is collected. -/
theorem contains_ofChars_of_surrogate (cs : List Char) {p : Nat} (hp : Surrogate p) :
    (ofChars cs).contains p = false := by
  refine Bool.eq_false_iff.2 fun hmember => ?_
  obtain ⟨c, -, rfl⟩ := contains_ofChars.1 hmember
  exact not_surrogate_toNat c hp

theorem chars_ofChars (cs : List Char) : (ofChars cs).chars = cs.toFinset.sort := by
  have hwf := wellFormed_ofChars cs
  have hascend := hwf.pairwise_chars
  have hsame : (ofChars cs).chars.toFinset = cs.toFinset := by
    ext c
    rw [List.mem_toFinset, List.mem_toFinset, hwf.mem_chars, containsChar_ofChars]
  rw [← hsame]
  exact ((List.toFinset_sort _ hascend.nodup).2 (hascend.imp le_of_lt)).symm

/-- Each character counts once. -/
theorem size_ofChars (cs : List Char) : (ofChars cs).size = cs.toFinset.card := by
  have hwf := wellFormed_ofChars cs
  have hmembers : (ofChars cs).members = cs.toFinset.image Char.toNat := by
    ext p
    rw [hwf.mem_members, contains_ofChars, Finset.mem_image]
    simp only [List.mem_toFinset]
  rw [hwf.size_eq_card, hmembers]
  exact Finset.card_image_of_injective _ fun c d => Char.toNat_inj.1

/-- The characters of a set make up what it has besides surrogates. -/
theorem WellFormed.ofChars_chars {s : PointSet} (h : s.WellFormed) :
    PointSet.ofChars s.chars = s.remove surrogates := by
  refine (wellFormed_ofChars _).ext (h.remove valid_surrogates) fun p => ?_
  rw [Bool.eq_iff_iff, contains_ofChars, h.contains_remove valid_surrogates, Bool.and_eq_true,
    Bool.not_eq_true', ← Bool.not_eq_true, includes_surrogates]
  constructor
  · intro ⟨c, hc, hp⟩
    subst hp
    exact ⟨h.mem_chars.1 hc, not_surrogate_toNat c⟩
  · intro ⟨hp, hscalar⟩
    have hle := h.normal.le_maxPoint_of_covered (h.contains_iff.1 hp)
    obtain ⟨c, rfl⟩ := exists_toNat_eq_iff.2 ⟨hle, hscalar⟩
    exact ⟨c, h.mem_chars.2 hp, rfl⟩

end PointSet

namespace Reachable

open PointSet

/-- From a set to its characters: they ascend, they are the members that are characters, and they
collect to the set without the surrogates. From a text to the set of its characters: no surrogate is
a member, the characters of the set are the different ones of the text in ascending order, and there
are as many members. -/
theorem chars_inverse :
    (∀ s : PointSet, Reachable s →
        s.chars.Pairwise (· < ·) ∧ (∀ c, c ∈ s.chars ↔ s.contains c.toNat = true) ∧
          ofChars s.chars = s.remove surrogates) ∧
      ∀ text : String,
        (∀ p, Surrogate p → (ofChars text.toList).contains p = false) ∧
          (ofChars text.toList).chars = text.toList.toFinset.sort ∧
          (ofChars text.toList).size = text.toList.toFinset.card := by
  constructor
  · intro s hs
    have hs := hs.wellFormed
    exact ⟨hs.pairwise_chars, fun c => hs.mem_chars, hs.ofChars_chars⟩
  · intro text
    exact ⟨fun p => contains_ofChars_of_surrogate _, chars_ofChars _, size_ofChars _⟩

/-- An interval around the surrogates, which both ways leave in two, and a text with characters on
both sides of them, one of them twice. -/
theorem chars_inverse_of_gap :
    Reachable (ofInterval ⟨0xD7FE, 0xE001⟩) ∧
      ofChars (ofInterval ⟨0xD7FE, 0xE001⟩).chars =
        (ofInterval ⟨0xD7FE, 0xE001⟩).remove surrogates ∧
      ((ofInterval ⟨0xD7FE, 0xE001⟩).remove surrogates).intervals =
        #[⟨0xD7FE, 0xD7FF⟩, ⟨0xE000, 0xE001⟩] ∧
      Surrogate 0xD800 ∧
      (ofChars "\ue000a\ud7ffa".toList).contains 0xD800 = false ∧
      (ofChars "\ue000a\ud7ffa".toList).chars = ['a', '\ud7ff', '\ue000'] := by
  have hs : Reachable (ofInterval ⟨0xD7FE, 0xE001⟩) := .built (.ofInterval (by decide))
  have hgap : Surrogate 0xD800 := by decide
  have hsorted : "\ue000a\ud7ffa".toList.toFinset.sort = ['a', '\ud7ff', '\ue000'] := by
    have hset : "\ue000a\ud7ffa".toList.toFinset = ['a', '\ud7ff', '\ue000'].toFinset := by decide
    rw [hset]
    exact (List.toFinset_sort _ (by decide)).2 (by decide)
  obtain ⟨hsets, htexts⟩ := chars_inverse
  obtain ⟨hnone, hchars, -⟩ := htexts "\ue000a\ud7ffa"
  exact ⟨hs, (hsets _ hs).2.2, by decide +kernel, hgap, hnone _ hgap, hchars.trans hsorted⟩

end Reachable

end CharClass
