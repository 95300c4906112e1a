import CharClass.Predefined
import CharClass.Proofs.Algebra

/-!
# Updates by a pass over the whole list

Insertion and removal find a slot and mend the list around it. A pass over the whole list would do
as well: an inserted interval takes in all intervals that it touches and stands between those that
end before it and those that begin behind it (`WellFormed.insert_eq`), a removed one takes its
points out of every interval (`WellFormed.remove_eq`). Neither pass has a slot, or a merged interval
that grows on the way.

For insertion this is not shown along the code. The list of the pass is normal and covers the points
that the set has after the insertion, and there is one such list.
-/

namespace CharClass

open PointSet (Separated)

/-! ## Intervals that touch -/

namespace Interval

/-- `x` ends before `r`, and a point lies in between. -/
def endsBefore (x r : Interval) : Bool := decide (Separated x r)

/-- `x` and `r` overlap or lie next to each other. -/
def touches (x r : Interval) : Bool := !x.endsBefore r && !r.endsBefore x

@[simp] theorem endsBefore_eq_true {x r : Interval} :
    x.endsBefore r = true ↔ x.last + 1 < r.first :=
  decide_eq_true_iff

@[simp] theorem endsBefore_eq_false {x r : Interval} :
    x.endsBefore r = false ↔ r.first ≤ x.last + 1 := by
  rw [← Bool.not_eq_true, endsBefore_eq_true, Nat.not_lt]

@[simp] theorem touches_eq_true {x r : Interval} :
    x.touches r = true ↔ r.first ≤ x.last + 1 ∧ x.first ≤ r.last + 1 := by
  simp [touches]

theorem mergeable_eq_touches {x r : Interval} (hx : x.Valid) (hr : r.Valid) :
    x.mergeable r = x.touches r := by
  rw [Bool.eq_iff_iff, mergeable_iff hx hr, touches_eq_true, and_comm]

/-! ## The hull of several intervals -/

theorem touches_hull {x i : Interval} (j : Interval) (h : x.touches i = true) :
    x.touches (i.hull j) = true := by
  rw [touches_eq_true] at h ⊢
  simp only [hull]
  omega

theorem valid_foldl_hull {i : Interval} {xs : List Interval} (hi : i.Valid)
    (hxs : ∀ x ∈ xs, x.Valid) : (xs.foldl hull i).Valid := by
  induction xs generalizing i with
  | nil => exact hi
  | cons x xs ih =>
    obtain ⟨hx, hxs⟩ := List.forall_mem_cons.1 hxs
    exact ih (valid_hull hi hx) hxs

/-- What ends before each of several intervals ends before their hull. -/
theorem endsBefore_foldl_hull {j i : Interval} {xs : List Interval} (hi : Separated j i)
    (hxs : ∀ x ∈ xs, Separated j x) : Separated j (xs.foldl hull i) := by
  induction xs generalizing i with
  | nil => exact hi
  | cons x xs ih =>
    obtain ⟨hx, hxs⟩ := List.forall_mem_cons.1 hxs
    refine ih ?_ hxs
    exact Nat.lt_min.2 ⟨hi, hx⟩

theorem foldl_hull_endsBefore {j i : Interval} {xs : List Interval} (hi : Separated i j)
    (hxs : ∀ x ∈ xs, Separated x j) : Separated (xs.foldl hull i) j := by
  induction xs generalizing i with
  | nil => exact hi
  | cons x xs ih =>
    obtain ⟨hx, hxs⟩ := List.forall_mem_cons.1 hxs
    refine ih ?_ hxs
    unfold PointSet.Separated at hi hx ⊢
    simp only [hull]
    omega

/-- The hull of an interval and of others that touch it is their union. -/
theorem mem_foldl_hull_iff {i : Interval} {xs : List Interval} {p : Nat} (hi : i.Valid)
    (hxs : ∀ x ∈ xs, x.Valid) (htouch : ∀ x ∈ xs, x.touches i = true) :
    (xs.foldl hull i).first ≤ p ∧ p ≤ (xs.foldl hull i).last ↔
      (i.first ≤ p ∧ p ≤ i.last) ∨ Covered xs p := by
  induction xs generalizing i with
  | nil => simp
  | cons x xs ih =>
    obtain ⟨hx, hxs⟩ := List.forall_mem_cons.1 hxs
    obtain ⟨hxi, htouch⟩ := List.forall_mem_cons.1 htouch
    have hmerge : i.mergeable x = true :=
      (mergeable_iff hi hx).2 (touches_eq_true.1 hxi)
    have hgrown : ∀ y ∈ xs, y.touches (i.hull x) = true := fun y hy => touches_hull x (htouch y hy)
    rw [List.foldl_cons, ih (valid_hull hi hx) hxs hgrown, mem_hull_iff hi hx hmerge, covered_cons,
      or_assoc]

end Interval

/-! ## The list of the pass -/

/-- The intervals that end before `r`, the hull of `r` and of those that touch it, and the intervals
that begin behind `r`. -/
def spliced (is : List Interval) (r : Interval) : List Interval :=
  is.filter (·.endsBefore r) ++
    (is.filter (·.touches r)).foldl Interval.hull r :: is.filter (r.endsBefore ·)

/-- A list in which nothing with the property comes after something without it. -/
theorem filter_append_filter_not {α : Type} {q : α → Bool} {xs : List α}
    (h : xs.Pairwise fun x y => q y = true → q x = true) :
    xs.filter q ++ xs.filter (!q ·) = xs := by
  induction xs with
  | nil => rfl
  | cons x xs ih =>
    obtain ⟨hx, hxs⟩ := List.pairwise_cons.1 h
    by_cases hq : q x = true
    · simp [hq, ih hxs]
    · have hnone : ∀ y ∈ xs, ¬q y = true := fun y hy hqy => hq (hx y hy hqy)
      have hall : ∀ y ∈ xs, (!q y) = true := fun y hy => by simp [hnone y hy]
      simp [hq, List.filter_eq_nil_iff.2 hnone, List.filter_eq_self.2 hall]

section
variable {is : List Interval} {r : Interval} (h : Normal is) (hr : r.Valid)

include h hr

/-- What ends before `r`, what touches `r` and what begins behind `r` follow one another in the
list. -/
theorem append_filter_touches :
    is.filter (·.endsBefore r) ++ (is.filter (·.touches r) ++ is.filter (r.endsBefore ·)) = is := by
  have hbehind : is.Pairwise fun x y => (!r.endsBefore y) = true → (!r.endsBefore x) = true := by
    refine h.pairwise_le.imp fun {x y} hxy => ?_
    simp only [Bool.not_eq_true', Interval.endsBefore_eq_false]
    omega
  have hbefore : (is.filter (!r.endsBefore ·)).Pairwise fun x y =>
      y.endsBefore r = true → x.endsBefore r = true := by
    refine (h.pairwise_le.filter _).imp fun {x y} hxy => ?_
    simp only [Interval.endsBefore_eq_true]
    omega
  have hfilter : (is.filter (!r.endsBefore ·)).filter (·.endsBefore r) =
      is.filter (·.endsBefore r) := by
    rw [List.filter_filter]
    refine List.filter_congr fun x hx => ?_
    have hx : x.first ≤ x.last := (h.valid x hx).1
    have hr : r.first ≤ r.last := hr.1
    rw [Bool.eq_iff_iff, Bool.and_eq_true, Bool.not_eq_true', Interval.endsBefore_eq_true,
      Interval.endsBefore_eq_false]
    omega
  have hsplit := filter_append_filter_not hbefore
  rw [hfilter, List.filter_filter] at hsplit
  have hsplit' := filter_append_filter_not hbehind
  simp only [Bool.not_not] at hsplit'
  rw [← List.append_assoc]
  unfold Interval.touches
  rw [hsplit, hsplit']

theorem normal_spliced : Normal (spliced is r) := by
  have hsplit := append_filter_touches h hr
  obtain ⟨hB, hTA, hsep⟩ := normal_append.1 (hsplit.symm ▸ h)
  obtain ⟨hT, hA, hsep'⟩ := normal_append.1 hTA
  refine normal_append.2 ⟨hB, normal_cons.2 ⟨Interval.valid_foldl_hull hr hT.valid, hA, ?_⟩, ?_⟩
  · intro y hy
    have hy' : Separated r y := of_decide_eq_true (List.mem_filter.1 hy).2
    exact Interval.foldl_hull_endsBefore hy' fun x hx => hsep' x hx y hy
  · intro x hx y hy
    rcases List.mem_cons.1 hy with rfl | hy
    · have hx' : Separated x r := of_decide_eq_true (List.mem_filter.1 hx).2
      exact Interval.endsBefore_foldl_hull hx' fun z hz => hsep x hx z (List.mem_append_left _ hz)
    · exact hsep x hx y (List.mem_append_right _ hy)

theorem covered_spliced {p : Nat} :
    Covered (spliced is r) p ↔ Covered is p ∨ (r.first ≤ p ∧ p ≤ r.last) := by
  have hsplit := append_filter_touches h hr
  obtain ⟨-, hTA, -⟩ := normal_append.1 (hsplit.symm ▸ h)
  obtain ⟨hT, -, -⟩ := normal_append.1 hTA
  have htouch : ∀ x ∈ is.filter (·.touches r), x.touches r = true :=
    fun x hx => (List.mem_filter.1 hx).2
  have hlist : Covered is p ↔ Covered (is.filter (·.endsBefore r)) p ∨
      Covered (is.filter (·.touches r)) p ∨ Covered (is.filter (r.endsBefore ·)) p := by
    rw [← covered_append, ← covered_append, hsplit]
  rw [spliced, covered_append, covered_cons, Interval.mem_foldl_hull_iff hr hT.valid htouch, hlist]
  tauto

/-- What does not touch `r` is kept, in its order. -/
theorem append_filter_endsBefore :
    is.filter (·.endsBefore r) ++ is.filter (r.endsBefore ·) = is.filter (!·.touches r) := by
  have hsplit := congrArg (List.filter (!Interval.touches · r)) (append_filter_touches h hr)
  have hB : (is.filter (·.endsBefore r)).filter (!·.touches r) = is.filter (·.endsBefore r) := by
    refine List.filter_eq_self.2 fun x hx => ?_
    simp [Interval.touches, (List.mem_filter.1 hx).2]
  have hT : (is.filter (·.touches r)).filter (!·.touches r) = [] := by
    refine List.filter_eq_nil_iff.2 fun x hx => ?_
    simp only [(List.mem_filter.1 hx).2, Bool.not_true, Bool.false_eq_true, not_false_eq_true]
  have hA : (is.filter (r.endsBefore ·)).filter (!·.touches r) = is.filter (r.endsBefore ·) := by
    refine List.filter_eq_self.2 fun x hx => ?_
    simp [Interval.touches, (List.mem_filter.1 hx).2]
  rwa [List.filter_append, List.filter_append, hB, hT, hA, List.nil_append] at hsplit

/-- One interval comes, and all that touch it go. -/
theorem length_spliced : (spliced is r).length + is.countP (·.touches r) = is.length + 1 := by
  have hsplit := congrArg List.length (append_filter_touches h hr)
  simp only [List.length_append] at hsplit
  rw [spliced, List.length_append, List.length_cons, List.countP_eq_length_filter]
  omega

end

namespace PointSet.WellFormed

variable {s : PointSet} {r : Interval}

/-- The set after an insertion is that of the list which the pass leaves. -/
theorem insert_eq (h : s.WellFormed) (hr : r.Valid) :
    s.insert r = PointSet.ofIntervals (spliced s.intervals.toList r).toArray := by
  have hspliced : (PointSet.ofIntervals (spliced s.intervals.toList r).toArray).WellFormed :=
    ofIntervals (normal_spliced h.normal hr)
  refine (h.insert hr).ext hspliced fun p => ?_
  rw [h.contains_insert hr, Bool.eq_iff_iff, Bool.or_eq_true, h.contains_iff,
    Interval.includes_eq_true, hspliced.contains_iff]
  exact (covered_spliced h.normal hr).symm

/-- Insertion leaves the intervals that end before the new one and those that begin behind it as
they are, and puts between them the hull of the new one and of those that it touches. So the
intervals that are not mergeable with the new one are kept in their order, those that are go, and
one comes. -/
theorem insert_by_pass (h : s.WellFormed) (hr : r.Valid) :
    (s.insert r).intervals.toList =
        s.intervals.toList.filter (·.endsBefore r) ++
          (s.intervals.toList.filter (·.touches r)).foldl Interval.hull r ::
            s.intervals.toList.filter (r.endsBefore ·) ∧
      s.intervals.toList.filter (·.endsBefore r) ++ s.intervals.toList.filter (r.endsBefore ·) =
        s.intervals.toList.filter (!·.mergeable r) ∧
      (∀ x ∈ s.intervals.toList, x.mergeable r = x.touches r) ∧
      (s.insert r).intervalCount + s.intervals.toList.countP (·.mergeable r) =
        s.intervalCount + 1 := by
  have hsame : ∀ x ∈ s.intervals.toList, x.mergeable r = x.touches r :=
    fun x hx => Interval.mergeable_eq_touches (h.valid x hx) hr
  have hlist : (s.insert r).intervals.toList = spliced s.intervals.toList r := by
    rw [h.insert_eq hr]
    rfl
  refine ⟨hlist, ?_, hsame, ?_⟩
  · rw [append_filter_endsBefore h.normal hr]
    exact List.filter_congr fun x hx => by rw [hsame x hx]
  · have hcount : s.intervals.toList.countP (·.mergeable r) =
        s.intervals.toList.countP (·.touches r) :=
      List.countP_congr fun x hx => by rw [hsame x hx]
    rw [hcount]
    change (s.insert r).intervals.size + _ = s.intervals.size + 1
    rw [← Array.length_toList, ← Array.length_toList, hlist]
    exact length_spliced h.normal hr

/-- From the point behind the digits into the capitals: both are taken in, the small letters are
kept. -/
theorem insert_by_pass_of_bridge :
    Predefined.alnum.set.WellFormed ∧ (⟨0x3A, 0x45⟩ : Interval).Valid ∧
      (Predefined.alnum.set.insert ⟨0x3A, 0x45⟩).intervals.toList = [⟨0x30, 0x5A⟩, ⟨0x61, 0x7A⟩] ∧
      (Predefined.alnum.set.insert ⟨0x3A, 0x45⟩).intervalCount + 2 =
        Predefined.alnum.set.intervalCount + 1 := by
  have h : Predefined.alnum.set.WellFormed := .ofList (by decide)
  have hr : (⟨0x3A, 0x45⟩ : Interval).Valid := by decide
  obtain ⟨hlist, -, -, hcount⟩ := insert_by_pass h hr
  have hmerged : Predefined.alnum.set.intervals.toList.countP (·.mergeable ⟨0x3A, 0x45⟩) = 2 := by
    decide +kernel
  refine ⟨h, hr, hlist.trans ?_, hmerged ▸ hcount⟩
  decide +kernel

/-- Removal leaves of each interval the piece before the removed one and the piece behind it, as far
as there is any, in the order of the list. The bitmap is that of the pieces. -/
theorem remove_by_pass (h : s.WellFormed) (hr : r.Valid) :
    (s.remove r).intervals.toList = s.intervals.toList.flatMap (fun x =>
        (if x.first < r.first then [⟨x.first, min x.last (r.first - 1)⟩] else []) ++
          if r.last < x.last then [⟨max x.first (r.last + 1), x.last⟩] else []) ∧
      (∀ i ∈ (s.remove r).intervals.toList, i.first ≤ i.last) ∧
      (s.remove r).ascii = .ofIntervals (s.remove r).intervals ∧
      ∀ c ≤ maxAscii, (s.remove r).ascii.get c =
        (s.remove r).intervals.toList.any (·.includes c) := by
  have hremoved := h.remove hr
  refine ⟨?_, fun i hi => (hremoved.valid i hi).1, ?_, hremoved.cached⟩
  · rw [h.remove_eq hr]
    rfl
  · rw [h.remove_eq hr]
    rfl

/-- From a digit to a small letter: both classes lose an end, and the capitals in between go. -/
theorem remove_by_pass_of_bridge :
    Predefined.alnum.set.WellFormed ∧ (⟨0x35, 0x65⟩ : Interval).Valid ∧
      (Predefined.alnum.set.remove ⟨0x35, 0x65⟩).intervals.toList = [⟨0x30, 0x34⟩, ⟨0x66, 0x7A⟩] ∧
      (Predefined.alnum.set.remove ⟨0x35, 0x65⟩).ascii.get 0x66 = true := by
  have h : Predefined.alnum.set.WellFormed := .ofList (by decide)
  have hr : (⟨0x35, 0x65⟩ : Interval).Valid := by decide
  obtain ⟨hlist, -, -, hbits⟩ := remove_by_pass h hr
  have hpieces : (Predefined.alnum.set.remove ⟨0x35, 0x65⟩).intervals.toList =
      [⟨0x30, 0x34⟩, ⟨0x66, 0x7A⟩] := by
    rw [hlist]
    decide +kernel
  refine ⟨h, hr, hpieces, (hbits 0x66 (by decide)).trans ?_⟩
  rw [hpieces]
  rfl

end PointSet.WellFormed

end CharClass
