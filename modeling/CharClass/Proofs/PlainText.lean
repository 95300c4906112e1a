import CharClass.Proofs.Characters
import CharClass.Proofs.Grammar

/-!
# Texts without ranges

A text is read as one literal for each character just if no hyphen stands between its first and its
last character (`Spec.items_scan_eq_map_literal_iff`). A hyphen that starts the text has no
character before it to make a range with, and one that ends the text has none behind it; every other
hyphen is read as part of a range.

Such a text lists the members of its set and nothing else. So reading it is collecting its
characters, and of texts like this only the characters count, not their order nor how often each
comes.
-/

namespace CharClass

namespace Spec

/-- Literals are settled just if no hyphen is among them but as the first one or the last one. -/
theorem settled_map_literal_iff {cs : List Char} :
    Settled (cs.map .literal) ↔ '-' ∉ cs.tail.dropLast := by
  induction cs with
  | nil => simp [Settled]
  | cons c cs ih =>
    cases cs with
    | nil => simp [Settled]
    | cons d rest =>
      have hstep : Settled ((c :: d :: rest).map .literal) ↔
          (d = '-' → rest = []) ∧ Settled ((d :: rest).map .literal) := by
        refine and_congr ?_ Iff.rfl
        simp +contextual [Item.render]
      rw [hstep, ih]
      cases rest with
      | nil => simp
      | cons e rest => simp [eq_comm]

theorem items_scan_eq_map_literal_iff {cs : List Char} :
    (scan cs).items = cs.map .literal ↔ '-' ∉ cs.tail.dropLast := by
  rw [items_scan_eq_iff, settled_map_literal_iff]
  exact and_iff_left (flatMap_render_map_literal cs)

theorem compile_of_not_mem {text : String} (h : '-' ∉ text.toList.tail.dropLast) :
    compile text = .ok (text.toList.map .single) := by
  rw [compile, items_scan_eq_map_literal_iff.2 h, mapM_interval_eq_ok_iff]
  constructor
  · intro item hitem
    obtain ⟨c, -, rfl⟩ := List.mem_map.1 hitem
    trivial
  · rw [List.map_map]
    rfl

end Spec

namespace PointSet

/-- What is collected is a matter of which characters there are. -/
theorem ofChars_congr {cs ds : List Char} (h : ∀ c, c ∈ cs ↔ c ∈ ds) : ofChars cs = ofChars ds := by
  refine (wellFormed_ofChars cs).ext (wellFormed_ofChars ds) fun p => ?_
  rw [Bool.eq_iff_iff, contains_ofChars, contains_ofChars]
  simp only [h]

theorem ofSpec_eq_ofChars {text : String} (h : '-' ∉ text.toList.tail.dropLast) :
    ofSpec text = .ok (ofChars text.toList) :=
  ofSpec_of_compile_ok (Spec.compile_of_not_mem h)

/-- A text without hyphens, its first and its last character apart, is never refused, and its set is
the one that its characters collect to: they are the members, each counts once, and another such
text of the same characters has the same set, whatever their order and repetitions. -/
theorem ofSpec_of_outer_hyphens {text : String} (h : '-' ∉ text.toList.tail.dropLast) :
    ofSpec text = .ok (ofChars text.toList) ∧
      (∀ p, (ofChars text.toList).contains p = true ↔ ∃ c ∈ text.toList, c.toNat = p) ∧
      (ofChars text.toList).size = text.toList.toFinset.card ∧
      ∀ other : String, '-' ∉ other.toList.tail.dropLast →
        (∀ c, c ∈ other.toList ↔ c ∈ text.toList) → ofSpec other = ofSpec text := by
  refine ⟨ofSpec_eq_ofChars h, fun p => contains_ofChars, size_ofChars _, ?_⟩
  intro other hother hsame
  rw [ofSpec_eq_ofChars hother, ofSpec_eq_ofChars h, ofChars_congr hsame]

/-- A hyphen at each end, and a text with the hyphen at the front only. -/
theorem ofSpec_of_outer_hyphens_of_both :
    '-' ∉ "-ba+b-".toList.tail.dropLast ∧ '-' ∉ "-+ab".toList.tail.dropLast ∧
      ofSpec "-ba+b-" = .ok (ofChars ['-', 'b', 'a', '+', 'b', '-']) ∧
      (ofChars ['-', 'b', 'a', '+', 'b', '-']).contains 0x2D = true ∧
      (ofChars ['-', 'b', 'a', '+', 'b', '-']).size = 4 ∧
      ofSpec "-+ab" = ofSpec "-ba+b-" := by
  have h : '-' ∉ "-ba+b-".toList.tail.dropLast := by decide
  have hother : '-' ∉ "-+ab".toList.tail.dropLast := by decide
  have hsame : ∀ c, c ∈ "-+ab".toList ↔ c ∈ "-ba+b-".toList := by
    have hfinset : "-+ab".toList.toFinset = "-ba+b-".toList.toFinset := by decide
    intro c
    rw [← List.mem_toFinset, hfinset, List.mem_toFinset]
  have hsize : "-ba+b-".toList.toFinset.card = 4 := by decide
  obtain ⟨hset, hmembers, hcount, horder⟩ := ofSpec_of_outer_hyphens h
  exact ⟨h, hother, hset, (hmembers 0x2D).2 ⟨'-', by decide, rfl⟩, hcount.trans hsize,
    horder _ hother hsame⟩

end PointSet

end CharClass
