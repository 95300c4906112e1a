import CharClass.Proofs.History

/-!
# Reachable sets

A set is reachable when it is built, changed and combined by the operations of the library, in any
order and number. Every reachable set is well formed (`Reachable.wellFormed`): one case for each way
of reaching it, and none of them looks at a representation. From it come the invariant of the
representation, spelt out for all pairs of intervals and for each bit, the agreement of all ways to
ask for a member, and canonicity: two histories that end with the same members end with the same
intervals and the same bitmap.
-/

namespace CharClass

/-- The sets that the operations of the library produce. -/
inductive Reachable : PointSet → Prop
  | built {s : PointSet} {S : Set Nat} (h : Built s S) : Reachable s
  | change {s t : PointSet} {c : Change} (h : Reachable s) (hc : c.Admissible)
      (happ : c.apply s = .ok t) : Reachable t
  | complement {a : PointSet} (ha : Reachable a) : Reachable a.complement
  | union {a b : PointSet} (ha : Reachable a) (hb : Reachable b) : Reachable (a.union b)
  | difference {a b : PointSet} (ha : Reachable a) (hb : Reachable b) : Reachable (a.difference b)
  | intersection {a b : PointSet} (ha : Reachable a) (hb : Reachable b) :
      Reachable (a.intersection b)
  | symmetricDifference {a b : PointSet} (ha : Reachable a) (hb : Reachable b) :
      Reachable (a.symmetricDifference b)

namespace PointSet.WellFormed

theorem represents {s : PointSet} (h : s.WellFormed) : Represents s {p | s.contains p = true} :=
  ⟨h, fun _ => Iff.rfl⟩

theorem apply {s t : PointSet} (h : s.WellFormed) {c : Change} (hc : c.Admissible)
    (happ : c.apply s = .ok t) : t.WellFormed := by
  obtain ⟨u, hu, hrep⟩ := h.represents.apply hc
  rw [hu] at happ
  cases happ
  exact hrep.wellFormed

end PointSet.WellFormed

namespace Reachable

theorem wellFormed {s : PointSet} (h : Reachable s) : s.WellFormed := by
  induction h with
  | built h => exact h.represents.wellFormed
  | change _ hc happ ih => exact ih.apply hc happ
  | complement _ ih => exact ih.complement
  | union _ _ iha ihb => exact iha.union ihb
  | difference _ _ iha ihb => exact iha.difference ihb
  | intersection _ _ iha ihb => exact iha.intersection ihb
  | symmetricDifference _ _ iha ihb => exact iha.symmetricDifference ihb

/-! ## The representation -/

/-- The invariant in full: valid intervals, a gap between any two, not only between neighbours, a
bitmap that agrees with them bit by bit, and so a test that passes. -/
theorem representation_invariant {s : PointSet} (h : Reachable s) :
    (∀ i ∈ s.intervals, i.first ≤ i.last ∧ i.last ≤ maxPoint) ∧
      (∀ j k (hk : k < s.intervals.size) (hjk : j < k),
        s.intervals[j].last + 1 < s.intervals[k].first) ∧
      (∀ c ≤ maxAscii, s.ascii.bits.getLsbD c = true ↔ ∃ i ∈ s.intervals, i.includes c = true) ∧
      s.check = true := by
  have hs := h.wellFormed
  refine ⟨fun i hi => hs.valid i (Array.mem_toList_iff.2 hi), fun j k hk hjk => ?_, fun c hc => ?_,
    hs.check⟩
  · exact List.pairwise_iff_getElem.1 hs.separated j k (by simp; omega) (by simpa using hk) hjk
  · have hbit := hs.cached c hc
    rw [AsciiMap.get, decide_eq_true hc, Bool.true_and] at hbit
    rw [hbit, ← covered_iff_any]
    simp [Covered]

/-- The points that are no hexadecimal digits, but for `0` to `9`, and without the capitals. -/
theorem representation_invariant_of_complement :
    Reachable ((Predefined.xdigit.set.complement.insert ⟨0x30, 0x39⟩).difference
        Predefined.upper.set) ∧
      ((Predefined.xdigit.set.complement.insert ⟨0x30, 0x39⟩).difference
        Predefined.upper.set).intervals = #[⟨0, 0x40⟩, ⟨0x5B, 0x60⟩, ⟨0x67, maxPoint⟩] ∧
      ((Predefined.xdigit.set.complement.insert ⟨0x30, 0x39⟩).difference
        Predefined.upper.set).check = true :=
  have h : Reachable ((Predefined.xdigit.set.complement.insert ⟨0x30, 0x39⟩).difference
      Predefined.upper.set) :=
    .difference (.change (.complement (.built (.predefined .xdigit)))
      (c := .insert ⟨0x30, 0x39⟩) (by decide) rfl) (.built (.predefined .upper))
  ⟨h, by decide +kernel, (representation_invariant h).2.2.2⟩

/-! ## Membership -/

/-- Asking the bit or searching as `contains` does, searching alone, and scanning all intervals give
one answer at every point. The bitmap gives it for ASCII points and denies every other point. -/
theorem lookups_agree {s : PointSet} (h : Reachable s) (p : Nat) :
    s.contains p = s.intervals.any (·.includes p) ∧
      found s.intervals p = s.intervals.any (·.includes p) ∧
      (p ≤ maxAscii → s.ascii.get p = s.intervals.any (·.includes p)) ∧
      (maxAscii < p → s.ascii.get p = false) := by
  have hs := h.wellFormed
  have hscan : s.contains p = s.intervals.any (·.includes p) := by
    rw [← hs.any_includes, Array.any_toList]
  refine ⟨hscan, (hs.found_eq_contains p).trans hscan, fun hp => ?_, fun hp => ?_⟩
  · rw [hs.cached p hp, Array.any_toList]
  · rw [AsciiMap.get, decide_eq_false (Nat.not_le.2 hp), Bool.false_and]

/-- At the last bit and at the point behind it, after the digits were taken out of everything. -/
theorem lookups_agree_of_complement :
    Reachable Predefined.digit.set.complement ∧
      found Predefined.digit.set.complement.intervals 0x7F =
        Predefined.digit.set.complement.intervals.any (·.includes 0x7F) ∧
      Predefined.digit.set.complement.ascii.get 0x7F =
        Predefined.digit.set.complement.intervals.any (·.includes 0x7F) ∧
      Predefined.digit.set.complement.contains 0x80 =
        Predefined.digit.set.complement.intervals.any (·.includes 0x80) ∧
      Predefined.digit.set.complement.ascii.get 0x80 = false :=
  have h : Reachable Predefined.digit.set.complement := .complement (.built (.predefined .digit))
  ⟨h, (lookups_agree h 0x7F).2.1, (lookups_agree h 0x7F).2.2.1 (by decide),
    (lookups_agree h 0x80).1, (lookups_agree h 0x80).2.2.2 (by decide)⟩

/-! ## Canonicity -/

/-- Equality of intervals and bitmaps is equality of members. -/
theorem eq_iff_contains_eq {a b : PointSet} (ha : Reachable a) (hb : Reachable b) :
    a = b ↔ ∀ p : UInt32, a.contains p.toNat = b.contains p.toNat := by
  constructor
  · rintro rfl p
    rfl
  · intro h
    refine ha.wellFormed.ext hb.wellFormed fun p => ?_
    by_cases hp : p ≤ maxPoint
    · have hword : p < UInt32.size := Nat.lt_of_le_of_lt hp (by decide)
      simpa [Nat.mod_eq_of_lt hword] using h (UInt32.ofNat p)
    · have hp : maxPoint < p := Nat.lt_of_not_le hp
      rw [ha.wellFormed.contains_eq_false hp, hb.wellFormed.contains_eq_false hp]

theorem eq_iff_contains_eq_of_double_complement :
    Reachable Predefined.digit.set.complement.complement ∧ Reachable Predefined.digit.set ∧
      Predefined.digit.set.complement.complement = Predefined.digit.set ∧
      ∀ p : UInt32, Predefined.digit.set.complement.complement.contains p.toNat =
        Predefined.digit.set.contains p.toNat :=
  have hb : Reachable Predefined.digit.set := .built (.predefined .digit)
  have ha : Reachable Predefined.digit.set.complement.complement := hb.complement.complement
  have heq : Predefined.digit.set.complement.complement = Predefined.digit.set := by decide +kernel
  ⟨ha, hb, heq, (eq_iff_contains_eq ha hb).1 heq⟩

end Reachable

end CharClass
