import CharClass.Proofs.Overlap
import CharClass.Proofs.Reachable
import Mathlib.Order.Interval.Finset.Nat

/-!
# Sizes

The size of a set is the sum of the widths of its intervals. No point lies in two of them, so each
member is counted once, and the size is the number of members (`WellFormed.size_eq_card`).

From there on no interval is looked at. The members form a finite set of points, on which the
operations of the algebra are those of finite sets, and how the sizes of two sets and of what is
made of them hang together is counted there (`SizeLaws`).
-/

namespace CharClass

/-! ## Counting the members -/

/-- The widths of separated intervals add up to the number of points that they cover. -/
theorem Normal.card_covered {is : List Interval} (h : Normal is) :
    ((Finset.range (maxPoint + 1)).filter fun p => is.any (·.includes p) = true).card =
      is.foldr (·.width + ·) 0 := by
  induction is with
  | nil => simp
  | cons i is ih =>
    obtain ⟨hi, his, -⟩ := normal_cons.1 h
    have hsplit : ((Finset.range (maxPoint + 1)).filter fun p =>
          (i :: is).any (·.includes p) = true) =
        Finset.Icc i.first i.last ∪
          (Finset.range (maxPoint + 1)).filter fun p => is.any (·.includes p) = true := by
      ext p
      rw [Finset.mem_filter, Finset.mem_union, Finset.mem_Icc, Finset.mem_filter, Finset.mem_range,
        List.any_cons, Bool.or_eq_true, Interval.includes_eq_true]
      have hlast := hi.2
      constructor
      · intro hp
        exact hp.2.imp_right fun hrest => ⟨hp.1, hrest⟩
      · intro hp
        rcases hp with hp | hp
        · exact ⟨by omega, .inl hp⟩
        · exact ⟨hp.1, .inr hp.2⟩
    have hdisjoint : Disjoint (Finset.Icc i.first i.last)
        ((Finset.range (maxPoint + 1)).filter fun p => is.any (·.includes p) = true) := by
      refine Finset.disjoint_left.2 fun p hp hrest => ?_
      have hbehind := h.last_lt_of_covered (covered_iff_any.2 (Finset.mem_filter.1 hrest).2)
      have := (Finset.mem_Icc.1 hp).2
      omega
    rw [hsplit, Finset.card_union_of_disjoint hdisjoint, Nat.card_Icc, ih his, List.foldr_cons,
      Interval.width]
    have := hi.1
    omega

namespace PointSet

/-- The members, as far as they lie in the domain. -/
def members (s : PointSet) : Finset Nat :=
  (Finset.range (maxPoint + 1)).filter fun p => s.contains p = true

namespace WellFormed

variable {s t : PointSet}

/-- No member lies above the domain. -/
theorem mem_members (h : s.WellFormed) {p : Nat} : p ∈ s.members ↔ s.contains p = true := by
  rw [members, Finset.mem_filter, Finset.mem_range, Nat.lt_succ_iff]
  refine and_iff_right_of_imp fun hp => ?_
  exact h.normal.le_maxPoint_of_covered (h.contains_iff.1 hp)

theorem size_eq_card (h : s.WellFormed) : s.size = s.members.card := by
  have hcard := h.normal.card_covered
  simp only [h.any_includes] at hcard
  exact hcard.symm

end WellFormed

/-- No interval is without points. -/
theorem size_eq_zero_iff {s : PointSet} : s.size = 0 ↔ s.isEmpty = true := by
  rw [size, isEmpty, ← Array.isEmpty_toList]
  cases s.intervals.toList with
  | nil => exact iff_of_true rfl rfl
  | cons i is =>
    have hwidth : 0 < i.width := Nat.succ_pos _
    refine iff_of_false ?_ Bool.false_ne_true
    rw [List.foldr_cons]
    omega

/-- The bits that are set are the members that have one. -/
theorem count_ascii (s : PointSet) :
    s.ascii.count = ((Finset.range (maxAscii + 1)).filter fun c => s.contains c = true).card := by
  have hbits : s.ascii = .ofPred s.contains := by
    refine AsciiMap.ext fun c hc => ?_
    rw [AsciiMap.get_ofPred, decide_eq_true hc, Bool.true_and, contains, if_pos hc]
  exact (congrArg AsciiMap.count hbits).trans (AsciiMap.count_ofPred s.contains)

/-! ## Members of what the algebra makes -/

namespace WellFormed

section
variable {s t : PointSet} (hs : s.WellFormed) (ht : t.WellFormed)

include hs in
theorem members_complement : s.complement.members = Finset.range (maxPoint + 1) \ s.members := by
  ext p
  rw [hs.complement.mem_members, hs.contains_complement, Bool.and_eq_true, decide_eq_true_iff,
    Bool.not_eq_true', ← Bool.not_eq_true, Finset.mem_sdiff, Finset.mem_range, Nat.lt_succ_iff,
    hs.mem_members]

include hs ht

theorem members_union : (s.union t).members = s.members ∪ t.members := by
  ext p
  rw [(hs.union ht).mem_members, hs.contains_union ht, Bool.or_eq_true, Finset.mem_union,
    hs.mem_members, ht.mem_members]

theorem members_intersection : (s.intersection t).members = s.members ∩ t.members := by
  ext p
  rw [(hs.intersection ht).mem_members, hs.contains_intersection ht, Bool.and_eq_true,
    Finset.mem_inter, hs.mem_members, ht.mem_members]

theorem members_difference : (s.difference t).members = s.members \ t.members := by
  ext p
  rw [(hs.difference ht).mem_members, hs.contains_difference ht, Bool.and_eq_true,
    Bool.not_eq_true', ← Bool.not_eq_true, Finset.mem_sdiff, hs.mem_members, ht.mem_members]

/-- A point of just one of two sets lies in both together and not in what they have in common. -/
theorem members_symmetricDifference :
    (s.symmetricDifference t).members = (s.members ∪ t.members) \ (s.members ∩ t.members) := by
  ext p
  rw [(hs.symmetricDifference ht).mem_members, hs.contains_symmetricDifference ht,
    Finset.mem_sdiff, Finset.mem_union, Finset.mem_inter, hs.mem_members, ht.mem_members]
  cases s.contains p <;> cases t.contains p <;> simp

end

end WellFormed

end PointSet

/-! ## The laws -/

/-- How the size of a set tells its members, and how the sizes of two sets and of what the algebra
makes of them hang together. The differences of sizes are written as sums, so that none of them is
cut off at zero. -/
structure SizeLaws (a b : PointSet) : Prop where
  size_eq : a.size = ((Finset.range (maxPoint + 1)).filter fun p => a.contains p = true).card
  size_eq_zero : a.size = 0 ↔ a.isEmpty = true
  count_ascii : a.ascii.count =
    ((Finset.range (maxAscii + 1)).filter fun c => a.contains c = true).card
  cpop_ascii : a.ascii.bits.cpop.toNat =
    ((Finset.range (maxAscii + 1)).filter fun c => a.contains c = true).card
  union : (a.union b).size + (a.intersection b).size = a.size + b.size
  difference : (a.difference b).size + (a.intersection b).size = a.size
  symmetricDifference :
    (a.symmetricDifference b).size + (a.intersection b).size = (a.union b).size
  complement : a.complement.size + a.size = maxPoint + 1

theorem Reachable.size_laws {a b : PointSet} (ha : Reachable a) (hb : Reachable b) :
    SizeLaws a b := by
  have ha := ha.wellFormed
  have hb := hb.wellFormed
  have hcount := a.count_ascii
  have hinter : (a.intersection b).size = (a.members ∩ b.members).card := by
    rw [(ha.intersection hb).size_eq_card, ha.members_intersection hb]
  have hunion : (a.union b).size = (a.members ∪ b.members).card := by
    rw [(ha.union hb).size_eq_card, ha.members_union hb]
  refine
    { size_eq := ha.size_eq_card
      size_eq_zero := PointSet.size_eq_zero_iff
      count_ascii := hcount
      cpop_ascii := a.ascii.count_eq_cpop.symm.trans hcount
      union := ?_
      difference := ?_
      symmetricDifference := ?_
      complement := ?_ }
  · rw [hunion, hinter, ha.size_eq_card, hb.size_eq_card]
    exact Finset.card_union_add_card_inter _ _
  · rw [(ha.difference hb).size_eq_card, ha.members_difference hb, hinter, ha.size_eq_card]
    exact Finset.card_sdiff_add_card_inter _ _
  · rw [(ha.symmetricDifference hb).size_eq_card, ha.members_symmetricDifference hb, hinter, hunion]
    exact Finset.card_sdiff_add_card_eq_card Finset.inter_subset_union
  · have hdomain : a.members ⊆ Finset.range (maxPoint + 1) := Finset.filter_subset _ _
    rw [ha.complement.size_eq_card, ha.members_complement, ha.size_eq_card,
      Finset.card_sdiff_add_card_eq_card hdomain, Finset.card_range]

/-- The 52 letters and the 22 hexadecimal digits have 12 points in common. -/
theorem Reachable.size_laws_of_letters :
    Reachable Predefined.alpha.set ∧ Reachable Predefined.xdigit.set ∧
      (Predefined.alpha.set.union Predefined.xdigit.set).size + 12 = 52 + 22 ∧
      (Predefined.alpha.set.symmetricDifference Predefined.xdigit.set).size + 12 =
        (Predefined.alpha.set.union Predefined.xdigit.set).size := by
  have ha : Reachable Predefined.alpha.set := .built (.predefined .alpha)
  have hb : Reachable Predefined.xdigit.set := .built (.predefined .xdigit)
  have hlaws := size_laws ha hb
  have hsize : Predefined.alpha.set.size = 52 := by decide +kernel
  have hsize' : Predefined.xdigit.set.size = 22 := by decide +kernel
  have hcommon : (Predefined.alpha.set.intersection Predefined.xdigit.set).size = 12 := by
    decide +kernel
  have hunion := hlaws.union
  have hsymm := hlaws.symmetricDifference
  rw [hcommon] at hunion hsymm
  rw [hsize, hsize'] at hunion
  exact ⟨ha, hb, hunion, hsymm⟩

end CharClass
