import CharClass.Proofs.Size

/-!
# Insertions that change nothing

Insertion returns early when the interval at the slot or the one before it covers the new one. On a
well-formed set no other interval has to be looked at. Members that follow one another lie in one
interval, since the point behind an interval is no member (`Normal.exists_covers_iff`); and the
interval that includes the first new point is one of the two, since a search for this point looks at
the same slot and finds it (`nearby_covers_iff`).

So an insertion returns early just if it has nothing to add. Any other one adds as many members as
there are new points (`WellFormed.size_insert`).
-/

namespace CharClass

variable {r : Interval}

/-! ## The interval that covers -/

theorem Interval.includes_of_covers {i : Interval} (h : i.covers r = true) {p : Nat}
    (hp : r.includes p = true) : i.includes p = true := by
  rw [covers_eq_true] at h
  rw [includes_eq_true] at hp ⊢
  omega

namespace Normal

/-- Two intervals with a point in common are one. -/
theorem eq_of_includes {is : List Interval} (h : Normal is) {i j : Interval} (hi : i ∈ is)
    (hj : j ∈ is) {p : Nat} (hip : i.includes p = true) (hjp : j.includes p = true) : i = j := by
  rw [Interval.includes_eq_true] at hip hjp
  rcases h.eq_or_separated hi hj with heq | hgap | hgap
  · exact heq
  · omega
  · omega

/-- Points that follow one another are covered by one interval, if they are covered: it cannot end
before the last of them, because the point behind it is not covered. -/
theorem exists_covers_iff {is : List Interval} (h : Normal is) (hr : r.Valid) :
    (∃ i ∈ is, i.covers r = true) ↔ ∀ p, r.includes p = true → Covered is p := by
  constructor
  · rintro ⟨i, hi, hcov⟩ p hp
    exact ⟨i, hi, Interval.includes_of_covers hcov hp⟩
  · intro hcov
    obtain ⟨i, hi, hincl⟩ := hcov r.first (Interval.includes_first hr)
    have hends := Interval.includes_eq_true.1 hincl
    refine ⟨i, hi, Interval.covers_eq_true.2 ⟨hends.1, Nat.le_of_not_lt fun hlt => ?_⟩⟩
    have hnext := hcov (i.last + 1) (Interval.includes_eq_true.2 (by omega))
    exact h.not_covered_succ_last hi hnext

end Normal

theorem nearby_imp {intervals : Array Interval} {slot : Nat} {q q' : Interval → Bool}
    (h : ∀ i ∈ intervals.toList, q i = true → q' i = true)
    (hnear : nearby intervals slot q = true) : nearby intervals slot q' = true := by
  have hstep : ∀ k : Nat, intervals[k]?.any q = true → intervals[k]?.any q' = true := by
    intro k hk
    rw [Option.any_eq_true] at hk ⊢
    obtain ⟨i, hi, hq⟩ := hk
    exact ⟨i, hi, h i (Array.mem_toList_iff.2 (Array.mem_of_getElem? hi)) hq⟩
  simp only [nearby, Bool.or_eq_true, Bool.and_eq_true] at hnear ⊢
  exact hnear.imp (hstep _) (And.imp_right (hstep _))

/-- The test of the two intervals at the slot misses no interval that covers the new one. -/
theorem nearby_covers_iff {intervals : Array Interval} (h : Normal intervals.toList)
    (hr : r.Valid) :
    nearby intervals (insertionPoint intervals r.first) (·.covers r) = true ↔
      ∀ p, r.includes p = true → Covered intervals.toList p := by
  rw [← h.exists_covers_iff hr]
  constructor
  · exact exists_of_nearby
  · rintro ⟨i, hi, hcov⟩
    have hincl := Interval.includes_of_covers hcov (Interval.includes_first hr)
    have hfound : found intervals r.first = true := h.found_iff.2 ⟨i, hi, hincl⟩
    rw [found_eq_nearby] at hfound
    refine nearby_imp (fun j hj hjincl => ?_) hfound
    rw [h.eq_of_includes hj hi hjincl hincl]
    exact hcov

/-! ## The set after the insertion -/

namespace PointSet.WellFormed

variable {s : PointSet} (h : s.WellFormed) (hr : r.Valid)
include h hr

theorem nearby_covers_iff :
    nearby s.intervals (insertionPoint s.intervals r.first) (·.covers r) = true ↔
      ∀ p, r.includes p = true → s.contains p = true := by
  simp only [h.contains_iff]
  exact CharClass.nearby_covers_iff h.normal hr

theorem insert_eq_self_iff :
    s.insert r = s ↔ ∀ p, r.includes p = true → s.contains p = true := by
  constructor
  · intro heq p hp
    rw [← heq, h.contains_insert hr, hp, Bool.or_true]
  · intro hsub
    exact if_pos ((h.nearby_covers_iff hr).2 hsub)

theorem members_insert : (s.insert r).members = s.members ∪ Finset.Icc r.first r.last := by
  ext p
  rw [(h.insert hr).mem_members, h.contains_insert hr, Bool.or_eq_true, Finset.mem_union,
    h.mem_members, Finset.mem_Icc, Interval.includes_eq_true]

/-- An insertion adds as many members as the interval has points that were none. -/
theorem size_insert :
    (s.insert r).size = (Finset.Icc r.first r.last \ s.members).card + s.size := by
  rw [(h.insert hr).size_eq_card, h.members_insert hr, h.size_eq_card, Finset.union_comm,
    Finset.card_sdiff_add_card]

theorem size_lt_size_insert (hnew : ∃ p, r.includes p = true ∧ s.contains p = false) :
    s.size < (s.insert r).size := by
  obtain ⟨p, hp, hnone⟩ := hnew
  have hmem : p ∈ Finset.Icc r.first r.last \ s.members := by
    rw [Finset.mem_sdiff, Finset.mem_Icc, h.mem_members, hnone]
    exact ⟨Interval.includes_eq_true.1 hp, Bool.false_ne_true⟩
  have hpos := Finset.card_pos.2 ⟨p, hmem⟩
  rw [h.size_insert hr]
  omega

end PointSet.WellFormed

namespace Reachable

/-- Insertion into a set that is not empty returns early just if all points of the interval are
members, so the set stays as it is, intervals and bitmap, for such an interval and for no other one.
Any other one makes the set larger. -/
theorem covered_test_exact {s : PointSet} (hs : Reachable s) (hr : r.Valid) :
    (s.isEmpty = false ∧
          nearby s.intervals (insertionPoint s.intervals r.first) (·.covers r) = true ↔
        s.isEmpty = false ∧ ∀ p, r.includes p = true → s.contains p = true) ∧
      (s.insert r = s ↔ ∀ p, r.includes p = true → s.contains p = true) ∧
      ((∃ p, r.includes p = true ∧ s.contains p = false) → s.size < (s.insert r).size) := by
  have h := hs.wellFormed
  exact ⟨and_congr_right fun _ => h.nearby_covers_iff hr, h.insert_eq_self_iff hr,
    h.size_lt_size_insert hr⟩

/-- The last capitals are covered by the interval before their slot, and with the point behind them
they are not. -/
theorem covered_test_exact_of_capitals :
    Reachable Predefined.alpha.set ∧ (⟨0x58, 0x5A⟩ : Interval).Valid ∧
      (⟨0x58, 0x5B⟩ : Interval).Valid ∧
      insertionPoint Predefined.alpha.set.intervals 0x58 = 1 ∧
      (∀ p, (⟨0x58, 0x5A⟩ : Interval).includes p = true → Predefined.alpha.set.contains p = true) ∧
      Predefined.alpha.set.insert ⟨0x58, 0x5A⟩ = Predefined.alpha.set ∧
      Predefined.alpha.set.size < (Predefined.alpha.set.insert ⟨0x58, 0x5B⟩).size := by
  have hs : Reachable Predefined.alpha.set := .built (.predefined .alpha)
  have hr : (⟨0x58, 0x5A⟩ : Interval).Valid := by decide
  have hr' : (⟨0x58, 0x5B⟩ : Interval).Valid := by decide
  obtain ⟨htest, hsame, -⟩ := covered_test_exact hs hr
  obtain ⟨-, -, hlarger⟩ := covered_test_exact hs hr'
  have hcovered := htest.1 (by decide +kernel)
  exact ⟨hs, hr, hr', by decide +kernel, hcovered.2, hsame.2 hcovered.2,
    hlarger ⟨0x5B, by decide, by decide +kernel⟩⟩

end Reachable

end CharClass
