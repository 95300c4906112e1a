import CharClass.Search

/-!
# What bisection finds

An array that ascends by first ends splits at the slot that bisection names: every interval before
the slot starts below the point, every one behind it at the point or above
(`splits_insertionPoint`). From here on the array is only looked at as these two lists. A test of
the two nearby intervals is a test of the last one before the slot and of the first one behind it
(`nearby_eq`), and the shortcut for a lone interval gives the answer of the search
(`found_eq_nearby`).

The intervals may overlap, and then the search can miss an interval that a later one is nested in.
What it finds is an interval that starts at the point, or the last one that starts below it, if it
reaches that far (`found_iff_of_ascending`). Where the last ends ascend as well it finds every point
(`found_iff_of_last_le`).
-/

namespace CharClass

/-- The intervals ascend by their first ends. Several may start at one point. -/
def Ascending (is : List Interval) : Prop := is.Pairwise fun i j => i.first ≤ j.first

/-- The slot divides the intervals at `p`: those before it start below `p`, those behind it do
not. -/
structure Splits (is : List Interval) (p slot : Nat) : Prop where
  before : ∀ i ∈ is.take slot, i.first < p
  after : ∀ i ∈ is.drop slot, p ≤ i.first

theorem Ascending.first_le {intervals : Array Interval} (h : Ascending intervals.toList)
    {j k : Nat} (hjk : j ≤ k) (hk : k < intervals.size) :
    intervals[j].first ≤ intervals[k].first := by
  rcases Nat.lt_or_eq_of_le hjk with hlt | rfl
  · exact List.pairwise_iff_getElem.1 h j k (by simp; omega) (by simpa using hk) hlt
  · exact Nat.le_refl _

/-- The search closes in on a slot that divides the intervals: everything before `lo` starts below
`p` and nothing from `hi` on does, throughout. -/
theorem splits_bisect {intervals : Array Interval} (h : Ascending intervals.toList)
    {p lo hi : Nat} (bound : hi ≤ intervals.size) (hle : lo ≤ hi)
    (hlo : ∀ k (hk : k < intervals.size), k < lo → intervals[k].first < p)
    (hhi : ∀ k (hk : k < intervals.size), hi ≤ k → p ≤ intervals[k].first) :
    Splits intervals.toList p (bisect intervals p lo hi bound) := by
  fun_induction bisect intervals p lo hi bound with
  | case1 lo hi bound between mid hmid ih =>
    refine ih (by omega) (fun k hk hlt => ?_) hhi
    exact Nat.lt_of_le_of_lt (h.first_le (by omega) (by omega)) hmid
  | case2 lo hi bound between mid hmid ih =>
    refine ih (by omega) hlo (fun k hk hge => ?_)
    exact Nat.le_trans (Nat.le_of_not_lt hmid) (h.first_le hge hk)
  | case3 lo hi bound between =>
    obtain rfl : lo = hi := by omega
    constructor
    · intro i hmem
      obtain ⟨k, hk, rfl⟩ := List.mem_take_iff_getElem.1 hmem
      exact hlo k (by simp at hk; omega) (by omega)
    · intro i hmem
      obtain ⟨k, hk, rfl⟩ := List.mem_drop_iff_getElem.1 hmem
      exact hhi (lo + k) (by simp at hk; omega) (by omega)

theorem splits_insertionPoint {intervals : Array Interval} (h : Ascending intervals.toList)
    (p : Nat) : Splits intervals.toList p (insertionPoint intervals p) :=
  splits_bisect h _ (Nat.zero_le _) (fun _ _ hlt => absurd hlt (Nat.not_lt_zero _))
    (fun _ hk hge => absurd hk (Nat.not_lt.2 hge))

/-- The two intervals that are looked at are the ones next to the slot. -/
theorem nearby_eq {intervals : Array Interval} {slot : Nat} (h : slot ≤ intervals.size)
    (q : Interval → Bool) :
    nearby intervals slot q =
      ((intervals.toList.drop slot).head?.any q ||
        (intervals.toList.take slot).getLast?.any q) := by
  unfold nearby
  rw [List.head?_drop, List.getLast?_take, Array.getElem?_toList]
  by_cases hslot : slot = 0
  · simp [hslot]
  · have hinside : slot - 1 < intervals.size := by omega
    have hne : (slot != 0) = true := by simpa using hslot
    simp [hslot, hne, hinside]

theorem exists_of_nearby {intervals : Array Interval} {slot : Nat} {q : Interval → Bool}
    (h : nearby intervals slot q = true) : ∃ i ∈ intervals.toList, q i = true := by
  simp only [nearby, Bool.or_eq_true, Bool.and_eq_true, Option.any_eq_true] at h
  obtain ⟨i, hi, hq⟩ | ⟨-, i, hi, hq⟩ := h
  · exact ⟨i, Array.mem_toList_iff.2 (Array.mem_of_getElem? hi), hq⟩
  · exact ⟨i, Array.mem_toList_iff.2 (Array.mem_of_getElem? hi), hq⟩

/-- Testing a lone interval at once answers as the search would. -/
theorem found_eq_nearby (intervals : Array Interval) (p : Nat) :
    found intervals p = nearby intervals (insertionPoint intervals p) (·.includes p) := by
  have hbound := insertionPoint_le_size intervals p
  unfold found
  split
  · next hnone =>
    have hslot : insertionPoint intervals p = 0 := by omega
    simp [nearby, hslot, hnone]
  · split
    · next hlone =>
      obtain hslot | hslot : insertionPoint intervals p = 0 ∨ insertionPoint intervals p = 1 := by
        omega
      · simp [nearby, hslot, hlone]
      · simp [nearby, hslot, hlone]
    · rfl

/-! ## What is found -/

/-- Whatever the order of the intervals, a point that is found lies in one of them. -/
theorem exists_of_found {intervals : Array Interval} {p : Nat} (h : found intervals p = true) :
    ∃ i ∈ intervals.toList, i.includes p = true := by
  rw [found_eq_nearby] at h
  exact exists_of_nearby h

/-- The intervals before the slot are those that start below the point. -/
theorem Splits.filter_eq {is : List Interval} {p slot : Nat} (h : Splits is p slot) :
    is.filter (·.first < p) = is.take slot := by
  have hbefore : (is.take slot).filter (·.first < p) = is.take slot :=
    List.filter_eq_self.2 fun i hi => decide_eq_true (h.before i hi)
  have hafter : (is.drop slot).filter (·.first < p) = [] := by
    rw [List.filter_eq_nil_iff]
    intro i hi hlt
    exact Nat.not_lt.2 (h.after i hi) (of_decide_eq_true hlt)
  calc is.filter (·.first < p)
      = (is.take slot ++ is.drop slot).filter (·.first < p) := by rw [List.take_append_drop]
    _ = is.take slot := by rw [List.filter_append, hbefore, hafter, List.append_nil]

/-- Of valid intervals that start at `p` or above, the first includes `p` just if one of them starts
there. -/
theorem Ascending.head?_includes_iff {is : List Interval} (h : Ascending is)
    (hvalid : ∀ i ∈ is, i.Valid) {p : Nat} (hp : ∀ i ∈ is, p ≤ i.first) :
    is.head?.any (·.includes p) = true ↔ ∃ i ∈ is, i.first = p := by
  cases is with
  | nil => simp
  | cons j is =>
    have hj : p ≤ j.first := hp j List.mem_cons_self
    have hj' : j.first ≤ j.last := (hvalid j List.mem_cons_self).1
    simp only [List.head?_cons, Option.any_some, Interval.includes_eq_true]
    constructor
    · intro hincl
      exact ⟨j, List.mem_cons_self, Nat.le_antisymm hincl.1 hj⟩
    · rintro ⟨i, hi, rfl⟩
      have hji : j.first ≤ i.first := by
        rcases List.mem_cons.1 hi with rfl | hi
        · exact Nat.le_refl _
        · exact (List.pairwise_cons.1 h).1 i hi
      exact ⟨hji, Nat.le_trans hj hj'⟩

theorem getLast?_includes_iff {is : List Interval} {p : Nat} (hp : ∀ i ∈ is, i.first < p) :
    is.getLast?.any (·.includes p) = true ↔ ∃ i, is.getLast? = some i ∧ p ≤ i.last := by
  rw [Option.any_eq_true]
  constructor
  · rintro ⟨i, hi, hincl⟩
    exact ⟨i, hi, (Interval.includes_eq_true.1 hincl).2⟩
  · rintro ⟨i, hi, hle⟩
    have hbelow : i.first < p := hp i (List.mem_of_getLast? hi)
    exact ⟨i, hi, Interval.includes_eq_true.2 ⟨Nat.le_of_lt hbelow, hle⟩⟩

/-- Where the last ends ascend, the last interval of the list ends last. -/
theorem exists_getLast?_of_mem {is : List Interval} (h : is.Pairwise fun i j => i.last ≤ j.last)
    {i : Interval} (hi : i ∈ is) : ∃ j, is.getLast? = some j ∧ i.last ≤ j.last := by
  cases hlast : is.getLast? with
  | none => exact absurd (List.getLast?_eq_none_iff.1 hlast) (List.ne_nil_of_mem hi)
  | some j =>
    obtain ⟨init, rfl⟩ := List.getLast?_eq_some_iff.1 hlast
    refine ⟨j, rfl, ?_⟩
    rcases List.mem_append.1 hi with hinit | hself
    · exact (List.pairwise_append.1 h).2.2 i hinit j List.mem_cons_self
    · obtain rfl := List.mem_singleton.1 hself
      exact Nat.le_refl _

section
variable {intervals : Array Interval} (h : Ascending intervals.toList)
  (hvalid : ∀ i ∈ intervals.toList, i.Valid)
include h hvalid

/-- The search finds the points at which an interval starts, and those that the last interval to
start below them reaches. -/
theorem found_iff_of_ascending {p : Nat} :
    found intervals p = true ↔
      (∃ i ∈ intervals.toList, i.first = p) ∨
        ∃ i, (intervals.toList.filter (·.first < p)).getLast? = some i ∧ p ≤ i.last := by
  have hsplits := splits_insertionPoint h p
  have hlist := List.take_append_drop (insertionPoint intervals p) intervals.toList
  have hstart : (∃ i ∈ intervals.toList.drop (insertionPoint intervals p), i.first = p) ↔
      ∃ i ∈ intervals.toList, i.first = p := by
    constructor
    · rintro ⟨i, hi, heq⟩
      exact ⟨i, List.mem_of_mem_drop hi, heq⟩
    · rintro ⟨i, hi, heq⟩
      rw [← hlist] at hi
      rcases List.mem_append.1 hi with hi | hi
      · exact absurd heq (Nat.ne_of_lt (hsplits.before i hi))
      · exact ⟨i, hi, heq⟩
  have hafter : Ascending (intervals.toList.drop (insertionPoint intervals p)) :=
    h.sublist (List.drop_sublist _ _)
  rw [found_eq_nearby, nearby_eq (insertionPoint_le_size intervals p), Bool.or_eq_true,
    hafter.head?_includes_iff (fun i hi => hvalid i (List.mem_of_mem_drop hi)) hsplits.after,
    hstart, getLast?_includes_iff hsplits.before, hsplits.filter_eq]

/-- Where a later interval never ends before an earlier one, the search finds all points. -/
theorem found_iff_of_last_le (hlast : intervals.toList.Pairwise fun i j => i.last ≤ j.last)
    {p : Nat} : found intervals p = true ↔ ∃ i ∈ intervals.toList, i.includes p = true := by
  refine ⟨exists_of_found, ?_⟩
  rintro ⟨i, hi, hincl⟩
  rw [Interval.includes_eq_true] at hincl
  rw [found_iff_of_ascending h hvalid]
  rcases Nat.lt_or_eq_of_le hincl.1 with hbelow | hstart
  · -- `i` starts below `p`, so the last interval to do so reaches at least as far as `i`
    have hmem : i ∈ intervals.toList.filter (·.first < p) :=
      List.mem_filter.2 ⟨hi, decide_eq_true hbelow⟩
    obtain ⟨j, hj, hle⟩ := exists_getLast?_of_mem (hlast.filter _) hmem
    exact .inr ⟨j, hj, Nat.le_trans hincl.2 hle⟩
  · exact .inl ⟨i, hi, hstart⟩

/-- No two intervals have a point in common: then a later one ends behind an earlier one. -/
theorem last_le_of_disjoint
    (hdisjoint : intervals.toList.Pairwise fun i j =>
      ∀ p, ¬(i.includes p = true ∧ j.includes p = true)) :
    intervals.toList.Pairwise fun i j => i.last ≤ j.last := by
  refine (h.and hdisjoint).imp_of_mem fun {i j} _ hj hij => ?_
  have hle : j.first ≤ j.last := (hvalid j hj).1
  -- the first point of `j` is not in `i`, which starts no later
  have hnot : ¬j.first ≤ i.last := fun hlt =>
    hij.2 j.first ⟨Interval.includes_eq_true.2 ⟨hij.1, hlt⟩,
      Interval.includes_eq_true.2 ⟨Nat.le_refl _, hle⟩⟩
  omega

end

end CharClass
