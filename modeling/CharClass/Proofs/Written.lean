import CharClass.Proofs.Grammar
import CharClass.Proofs.LastChange

/-!
# Sets written as spec strings

A set whose intervals start and end with characters has a spec string: its intervals in any order,
each in the three characters of a range (`Spec.written`). Behind a range everything starts anew, so
the text is read range by range (`Spec.compile_written`), hyphens among the ends or not, and the
intervals of a set make up the set in whatever order they are collected.

The sets with an interval that starts or ends with a surrogate have none. Collecting intervals never
moves an end: those of the set are among those that were collected, and a spec string collects
intervals between characters.
-/

namespace CharClass

/-! ## Ends that are characters -/

/-- No character has the number `p`, although it is a point of the domain. -/
def Surrogate (p : Nat) : Prop := 0xD800 ≤ p ∧ p ≤ 0xDFFF

instance (p : Nat) : Decidable (Surrogate p) := inferInstanceAs (Decidable (_ ∧ _))

theorem not_surrogate_toNat (c : Char) : ¬Surrogate c.toNat := by
  have hc : c.toNat.isValidChar := c.valid
  unfold Surrogate
  rcases hc with hc | hc <;> omega

theorem toNat_ofNat_of_not_surrogate {p : Nat} (hp : p ≤ maxPoint) (h : ¬Surrogate p) :
    (Char.ofNat p).toNat = p := by
  have hvalid : p.isValidChar := by
    unfold maxPoint at hp
    unfold Surrogate at h
    unfold Nat.isValidChar
    omega
  rw [Char.ofNat, dif_pos hvalid]
  rfl

/-- Both ends number characters, whatever lies between them. -/
structure Interval.ScalarEnded (i : Interval) : Prop where
  first : ¬Surrogate i.first
  last : ¬Surrogate i.last

instance (i : Interval) : Decidable i.ScalarEnded :=
  decidable_of_iff (¬Surrogate i.first ∧ ¬Surrogate i.last)
    ⟨fun h => ⟨h.1, h.2⟩, fun h => ⟨h.first, h.last⟩⟩

namespace Spec

theorem Item.scalarEnded_span (item : Item) : item.span.ScalarEnded := by
  cases item with
  | literal c => exact ⟨not_surrogate_toNat c, not_surrogate_toNat c⟩
  | range c d => exact ⟨not_surrogate_toNat c, not_surrogate_toNat d⟩

theorem scalarEnded_of_compile {text : String} {is : List Interval} (h : compile text = .ok is) :
    ∀ i ∈ is, i.ScalarEnded := by
  obtain ⟨items, -, -, rfl⟩ := compile_eq_ok_iff.1 h
  intro i hi
  obtain ⟨item, -, rfl⟩ := List.mem_map.1 hi
  exact item.scalarEnded_span

/-! ## Intervals as ranges -/

/-- The range between the characters that the ends number. -/
def Item.ofInterval (i : Interval) : Item := .range (Char.ofNat i.first) (Char.ofNat i.last)

/-- The text that has three characters for each interval: the first end, a hyphen and the last end.
It says what the intervals are only where their ends number characters. -/
def written (is : List Interval) : String :=
  .ofList (is.flatMap fun i => [Char.ofNat i.first, '-', Char.ofNat i.last])

theorem render_map_ofInterval (is : List Interval) :
    render (is.map Item.ofInterval) = written is := by
  rw [render, List.flatMap_map]
  rfl

theorem settled_map_ofInterval (is : List Interval) : Settled (is.map Item.ofInterval) := by
  induction is with
  | nil => trivial
  | cons i is ih => exact ih

theorem Item.span_ofInterval {i : Interval} (hvalid : i.Valid) (h : i.ScalarEnded) :
    (ofInterval i).span = i := by
  have hfirst := toNat_ofNat_of_not_surrogate (Nat.le_trans hvalid.1 hvalid.2) h.first
  have hlast := toNat_ofNat_of_not_surrogate hvalid.2 h.last
  rw [ofInterval, span, hfirst, hlast]

theorem Item.ascends_ofInterval {i : Interval} (hvalid : i.Valid) (h : i.ScalarEnded) :
    (ofInterval i).Ascends := by
  have hle : (ofInterval i).span.first ≤ (ofInterval i).span.last := by
    rw [span_ofInterval hvalid h]
    exact hvalid.1
  exact UInt32.le_iff_toNat_le.2 hle

/-- What is written is read back, interval by interval. -/
theorem compile_written {is : List Interval} (hvalid : ∀ i ∈ is, i.Valid)
    (h : ∀ i ∈ is, i.ScalarEnded) : compile (written is) = .ok is := by
  have hspans : (is.map Item.ofInterval).map Item.span = is := by
    rw [List.map_map]
    have hspan : ∀ i ∈ is, (Item.ofInterval i).span = i := fun i hi =>
      Item.span_ofInterval (hvalid i hi) (h i hi)
    exact (List.map_congr_left hspan).trans (List.map_id' is)
  have hascends : ∀ item ∈ is.map Item.ofInterval, item.Ascends := by
    intro item hitem
    obtain ⟨i, hi, rfl⟩ := List.mem_map.1 hitem
    exact Item.ascends_ofInterval (hvalid i hi) (h i hi)
  exact compile_eq_ok_iff.2
    ⟨_, ⟨settled_map_ofInterval is, hascends⟩, render_map_ofInterval is, hspans⟩

end Spec

namespace PointSet

/-! ## The sets that spec strings describe -/

theorem scalarEnded_ofList {is : List Interval} (hvalid : ∀ i ∈ is, i.Valid)
    (h : ∀ i ∈ is, i.ScalarEnded) : ∀ j ∈ (ofList is).intervals, j.ScalarEnded := by
  intro j hj
  have hnormal := (WellFormed.ofList hvalid).normal
  have hcov := fun p => covered_ofList hvalid (p := p)
  obtain ⟨x, hx, hfirst⟩ := hnormal.exists_first_eq hcov (Array.mem_toList_iff.2 hj)
  obtain ⟨y, hy, hlast⟩ := hnormal.exists_last_eq hcov (Array.mem_toList_iff.2 hj)
  exact ⟨hfirst ▸ (h x hx).first, hlast ▸ (h y hy).last⟩

/-- A set is read back from its intervals, written in any order. -/
theorem WellFormed.ofSpec_written {s : PointSet} (hs : s.WellFormed) {is : List Interval}
    (hperm : is.Perm s.intervals.toList) (h : ∀ i ∈ is, i.ScalarEnded) :
    ofSpec (Spec.written is) = .ok s := by
  have hvalid : ∀ i ∈ is, i.Valid := fun i hi => hs.valid i (hperm.mem_iff.1 hi)
  have hlist : PointSet.ofList is = s :=
    (ofList_congr hvalid fun i => hperm.mem_iff).trans hs.ofList_intervals
  rw [ofSpec, Spec.compile_written hvalid h]
  exact congrArg Except.ok hlist

/-- A set whose intervals end in characters is read back from its intervals, written as ranges in
any order. Spec strings describe no other sets. -/
theorem spec_of_scalarEnded :
    (∀ s : PointSet, Reachable s → (∀ i ∈ s.intervals, i.ScalarEnded) →
        ∀ is : List Interval, is.Perm s.intervals.toList → ofSpec (Spec.written is) = .ok s) ∧
      ∀ (text : String) (s : PointSet), ofSpec text = .ok s → ∀ i ∈ s.intervals, i.ScalarEnded := by
  constructor
  · intro s hs h is hperm
    have hends : ∀ i ∈ is, i.ScalarEnded := fun i hi =>
      h i (Array.mem_toList_iff.1 (hperm.mem_iff.1 hi))
    exact hs.wellFormed.ofSpec_written hperm hends
  · intro text s htext
    obtain ⟨is, hcompile, rfl⟩ := ofSpec_ok htext
    exact scalarEnded_ofList (Spec.valid_of_compile hcompile) (Spec.scalarEnded_of_compile hcompile)

/-- The lone hyphen, and the surrogates with the characters right before and right behind them. -/
theorem spec_of_scalarEnded_of_hyphen :
    Reachable (ofList [⟨0x2D, 0x2D⟩, ⟨0xD7FF, 0xE000⟩]) ∧
      ofSpec "\ud7ff-\ue000---" = .ok (ofList [⟨0x2D, 0x2D⟩, ⟨0xD7FF, 0xE000⟩]) ∧
      ∀ i ∈ (ofList [⟨0x2D, 0x2D⟩, ⟨0xD7FF, 0xE000⟩]).intervals, i.ScalarEnded := by
  have hs : Reachable (ofList [⟨0x2D, 0x2D⟩, ⟨0xD7FF, 0xE000⟩]) := .built (.ofList (by decide))
  have hends : ∀ i ∈ (ofList [⟨0x2D, 0x2D⟩, ⟨0xD7FF, 0xE000⟩]).intervals, i.ScalarEnded := by
    decide +kernel
  have hperm : [⟨0xD7FF, 0xE000⟩, ⟨0x2D, 0x2D⟩].Perm
      (ofList [⟨0x2D, 0x2D⟩, ⟨0xD7FF, 0xE000⟩]).intervals.toList := by
    decide +kernel
  have hwritten : Spec.written [⟨0xD7FF, 0xE000⟩, ⟨0x2D, 0x2D⟩] = "\ud7ff-\ue000---" := by decide
  have htext := spec_of_scalarEnded.1 _ hs hends _ hperm
  rw [hwritten] at htext
  exact ⟨hs, htext, spec_of_scalarEnded.2 _ _ htext⟩

end PointSet

end CharClass
