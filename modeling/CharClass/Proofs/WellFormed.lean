import CharClass.Proofs.Normal

/-!
# Well-formed sets

A set is well formed when its intervals are normal and its bitmap is the one of its intervals. Then
the two ways of asking for a member, by a bit and by a search, say whether the point is covered
(`WellFormed.contains_iff`), and the points alone determine the representation (`WellFormed.ext`).

The test of the representation looks at neighbours, and at bits beside the answers of the search. On
whatever intervals and bits, it passes just if they are well formed (`check_iff`): a gap between
neighbours is a gap between any two once the intervals are valid, and then the search may be
trusted.
-/

namespace CharClass

theorem AsciiMap.ext {m n : AsciiMap} (h : ∀ p ≤ maxAscii, m.get p = n.get p) : m = n := by
  obtain ⟨m⟩ := m
  obtain ⟨n⟩ := n
  congr 1
  apply BitVec.eq_of_getLsbD_eq
  intro p hp
  have hle : p ≤ maxAscii := Nat.le_of_lt_succ hp
  simpa [AsciiMap.get, hle] using h p hle

namespace PointSet

namespace WellFormed

variable {s t : PointSet}

theorem normal (h : s.WellFormed) : Normal s.intervals.toList := ⟨h.valid, h.separated⟩

/-- A bitmap that is computed from normal intervals agrees with them. -/
theorem ofIntervals {intervals : Array Interval} (h : Normal intervals.toList) :
    (PointSet.ofIntervals intervals).WellFormed where
  valid := h.valid
  separated := h.separated
  cached p hp := by
    change (AsciiMap.ofPred (found intervals)).get p = intervals.toList.any (·.includes p)
    rw [AsciiMap.get_ofPred, decide_eq_true hp, Bool.true_and, Bool.eq_iff_iff, h.found_iff,
      covered_iff_any]

theorem empty : PointSet.empty.WellFormed where
  valid := by simp [PointSet.empty]
  separated := by simp [PointSet.empty]
  cached p _ := by simp [PointSet.empty, AsciiMap.get, AsciiMap.empty]

theorem ofInterval {i : Interval} (h : i.Valid) : (PointSet.ofInterval i).WellFormed :=
  ofIntervals (.singleton h)

/-- The bit and the search give the same answer: whether an interval includes the point. -/
theorem contains_iff (h : s.WellFormed) {p : Nat} :
    s.contains p = true ↔ Covered s.intervals.toList p := by
  unfold contains
  split
  · next hp => rw [h.cached p hp, covered_iff_any]
  · exact h.normal.found_iff

/-- The search answers for ASCII points as their bits do. -/
theorem found_eq_contains (h : s.WellFormed) (p : Nat) : found s.intervals p = s.contains p := by
  rw [Bool.eq_iff_iff, h.normal.found_iff, h.contains_iff]

theorem contains_eq_false (h : s.WellFormed) {p : Nat} (hp : maxPoint < p) :
    s.contains p = false := by
  rw [Bool.eq_false_iff, ne_eq, h.contains_iff]
  intro hcov
  have := h.normal.le_maxPoint_of_covered hcov
  omega

/-- The intervals of a well-formed set determine its bitmap. -/
theorem eq_ofIntervals (h : s.WellFormed) : s = PointSet.ofIntervals s.intervals := by
  have hbits : s.ascii = .ofIntervals s.intervals := AsciiMap.ext fun p hp =>
    (h.cached p hp).trans ((ofIntervals h.normal).cached p hp).symm
  unfold PointSet.ofIntervals
  rw [← hbits]

/-- A set of points has one well-formed representation. -/
theorem ext (hs : s.WellFormed) (ht : t.WellFormed) (h : ∀ p, s.contains p = t.contains p) :
    s = t := by
  have hlist : s.intervals.toList = t.intervals.toList :=
    hs.normal.ext ht.normal fun p => by rw [← hs.contains_iff, ← ht.contains_iff, h p]
  rw [hs.eq_ofIntervals, ht.eq_ofIntervals, Array.toList_inj.1 hlist]

/-- The points of the domain suffice to tell two sets apart. -/
theorem ext_of_le_maxPoint (hs : s.WellFormed) (ht : t.WellFormed)
    (h : ∀ p ≤ maxPoint, s.contains p = t.contains p) : s = t := by
  refine hs.ext ht fun p => ?_
  by_cases hp : p ≤ maxPoint
  · exact h p hp
  · have hp : maxPoint < p := Nat.lt_of_not_le hp
    rw [hs.contains_eq_false hp, ht.contains_eq_false hp]

/-- A set without intervals is the empty set, its bitmap included. -/
theorem isEmpty_iff (h : s.WellFormed) : s.isEmpty = true ↔ s = PointSet.empty := by
  constructor
  · intro hempty
    refine h.ext .empty fun p => ?_
    rw [Bool.eq_iff_iff, h.contains_iff, empty.contains_iff, Array.isEmpty_iff.1 hempty]
    rfl
  · rintro rfl
    rfl

end WellFormed

/-! ## The test of the representation -/

/-- A gap between neighbours is a gap between any two: each interval is at least as long as the gap
to the next one has to be. -/
theorem neighboursSeparated_iff {is : List Interval} (hvalid : ∀ i ∈ is, i.Valid) :
    neighboursSeparated is = true ↔ is.Pairwise Separated := by
  fun_induction neighboursSeparated is with
  | case1 i j rest ih =>
    obtain ⟨-, hvalid⟩ := List.forall_mem_cons.1 hvalid
    rw [Bool.and_eq_true, decide_eq_true_iff, List.pairwise_cons, ih hvalid]
    constructor
    · rintro ⟨hij, hpairs⟩
      refine ⟨?_, hpairs⟩
      intro k hk
      rcases List.mem_cons.1 hk with rfl | hk
      · exact hij
      · have hgap : i.last + 1 < j.first := hij
        have hj : j.first ≤ j.last := (hvalid j List.mem_cons_self).1
        have hgap' : j.last + 1 < k.first := (List.pairwise_cons.1 hpairs).1 k hk
        show i.last + 1 < k.first
        omega
    · rintro ⟨hi, hpairs⟩
      exact ⟨hi j List.mem_cons_self, hpairs⟩
  | case2 is hshort =>
    cases is with
    | nil => simp
    | cons i is =>
      cases is with
      | nil => simp
      | cons j rest => exact absurd rfl (hshort i j rest)

theorem all_valid_iff {intervals : Array Interval} :
    intervals.all (fun i => decide i.Valid) = true ↔ ∀ i ∈ intervals.toList, i.Valid := by
  simp only [Array.all_eq_true_iff_forall_mem, decide_eq_true_iff, Array.mem_toList_iff]

/-- On normal intervals a bit that agrees with the search agrees with a scan. -/
theorem all_bits_iff {s : PointSet} (h : Normal s.intervals.toList) :
    ((List.range 128).all fun p => s.ascii.get p == found s.intervals p) = true ↔
      ∀ p ≤ maxAscii, s.ascii.get p = s.intervals.toList.any (·.includes p) := by
  have hscan : ∀ p, found s.intervals p = s.intervals.toList.any (·.includes p) := by
    intro p
    rw [Bool.eq_iff_iff, h.found_iff, covered_iff_any]
  simp only [List.all_eq_true, List.mem_range, beq_iff_eq, hscan]
  exact forall_congr' fun p => imp_congr Nat.lt_succ_iff Iff.rfl

/-- Well-formed sets pass the test of the representation, and no others do. -/
theorem check_iff {s : PointSet} : s.check = true ↔ s.WellFormed := by
  rw [PointSet.check, Bool.and_eq_true, Bool.and_eq_true, all_valid_iff]
  constructor
  · rintro ⟨⟨hvalid, hseparated⟩, hbits⟩
    have hnormal : Normal s.intervals.toList :=
      ⟨hvalid, (neighboursSeparated_iff hvalid).1 hseparated⟩
    exact ⟨hvalid, hnormal.separated, (all_bits_iff hnormal).1 hbits⟩
  · intro h
    have hseparated := (neighboursSeparated_iff h.valid).2 h.separated
    exact ⟨⟨h.valid, hseparated⟩, (all_bits_iff h.normal).2 h.cached⟩

theorem WellFormed.check {s : PointSet} (h : s.WellFormed) : s.check = true := check_iff.2 h

/-- The test passes just where the invariant holds, whatever the intervals and the bits are: valid
intervals, a gap between any two of them, and for each ASCII point a bit that is set where an
interval includes it. -/
theorem check_iff_invariant (s : PointSet) :
    s.check = true ↔
      (∀ i ∈ s.intervals, i.first ≤ i.last ∧ i.last ≤ maxPoint) ∧
        (∀ j k (hjk : j < k) (hk : k < s.intervals.size),
          s.intervals[j].last + 1 < s.intervals[k].first) ∧
        ∀ c ≤ maxAscii, s.ascii.bits.getLsbD c = true ↔
          ∃ i ∈ s.intervals, i.includes c = true := by
  rw [check_iff]
  have hcached : ∀ c ≤ maxAscii, s.ascii.get c = s.intervals.toList.any (·.includes c) ↔
      (s.ascii.bits.getLsbD c = true ↔ ∃ i ∈ s.intervals, i.includes c = true) := by
    intro c hc
    rw [AsciiMap.get, decide_eq_true hc, Bool.true_and, Bool.eq_iff_iff, ← covered_iff_any]
    simp [Covered]
  constructor
  · intro h
    refine ⟨?_, ?_, ?_⟩
    · intro i hi
      exact h.valid i (Array.mem_toList_iff.2 hi)
    · intro j k hjk hk
      exact List.pairwise_iff_getElem.1 h.separated j k (by simp; omega) (by simpa using hk) hjk
    · intro c hc
      exact (hcached c hc).1 (h.cached c hc)
  · rintro ⟨hvalid, hseparated, hbits⟩
    refine ⟨?_, ?_, ?_⟩
    · intro i hi
      exact hvalid i (Array.mem_toList_iff.1 hi)
    · rw [List.pairwise_iff_getElem]
      intro j k _ hk hjk
      exact hseparated j k hjk (by simpa using hk)
    · intro c hc
      exact (hcached c hc).2 (hbits c hc)

end PointSet

end CharClass
