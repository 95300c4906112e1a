import CharClass.Ascii
import CharClass.Proofs.Search
import Mathlib.Data.Finset.Card
import Mathlib.Data.Finset.Range

/-!
# Searching intervals that overlap

The search and the bitmap take any array of valid intervals that ascends by first ends, also one
whose intervals overlap, repeat or lie in one another. This module says what they answer there. The
search looks at two intervals only, so of an interval that a later one is nested in it may miss the
points behind the later one; it never finds a point that no interval includes.
-/

namespace CharClass

namespace AsciiMap

/-- The members are the bits that are set. -/
theorem count_eq_cpop (m : AsciiMap) : m.count = m.bits.cpop.toNat := by
  have hbits : ∀ n, m.bits.cpopNatRec n 0 = (List.range n).countP (m.bits.getLsbD ·) := by
    intro n
    induction n with
    | zero => rfl
    | succ n ih =>
      rw [BitVec.cpopNatRec_succ, BitVec.cpopNatRec_add, ih, List.range_succ, List.countP_append,
        List.countP_singleton]
      cases m.bits.getLsbD n <;> rfl
  rw [BitVec.toNat_cpop, hbits]
  refine List.countP_congr fun p hp => ?_
  have hle : p ≤ maxAscii := Nat.le_of_lt_succ (List.mem_range.1 hp)
  rw [get, decide_eq_true hle, Bool.true_and]

theorem count_ofPred (q : Nat → Bool) :
    (ofPred q).count = ((Finset.range (maxAscii + 1)).filter (q · = true)).card := by
  have hcount : (ofPred q).count = (List.range (maxAscii + 1)).countP q := by
    refine List.countP_congr fun p hp => ?_
    have hle : p ≤ maxAscii := Nat.le_of_lt_succ (List.mem_range.1 hp)
    rw [get_ofPred, decide_eq_true hle, Bool.true_and]
  rw [hcount, List.countP_eq_length_filter]
  change _ = ((List.range (maxAscii + 1)).filter fun p => decide (q p = true)).length
  simp only [Bool.decide_eq_true]

end AsciiMap

/-- Of valid intervals that ascend by first ends, the search finds the points at which an interval
starts and those that the last interval to start below them reaches, and so only points of the
intervals. It finds all of them where the last ends ascend too, as they do where no two intervals
have a point in common. The answer for a lone interval is the one of the search, and the bitmap has
that of the search at each of its bits. -/
theorem found_of_overlapping {intervals : Array Interval} (h : Ascending intervals.toList)
    (hvalid : ∀ i ∈ intervals.toList, i.Valid) :
    (∀ p, found intervals p = true ↔
        (∃ i ∈ intervals.toList, i.first = p) ∨
          ∃ i, (intervals.toList.filter (·.first < p)).getLast? = some i ∧ p ≤ i.last) ∧
      (∀ p, found intervals p =
        nearby intervals (insertionPoint intervals p) (·.includes p)) ∧
      (∀ p, found intervals p = true → ∃ i ∈ intervals.toList, i.includes p = true) ∧
      (intervals.toList.Pairwise (fun i j => i.last ≤ j.last) →
        ∀ p, found intervals p = true ↔ ∃ i ∈ intervals.toList, i.includes p = true) ∧
      (intervals.toList.Pairwise (fun i j => ∀ p, ¬(i.includes p = true ∧ j.includes p = true)) →
        ∀ p, found intervals p = true ↔ ∃ i ∈ intervals.toList, i.includes p = true) ∧
      (∀ c, (AsciiMap.ofIntervals intervals).get c =
        (decide (c ≤ maxAscii) && found intervals c)) ∧
      (AsciiMap.ofIntervals intervals).bits.cpop.toNat =
        ((Finset.range (maxAscii + 1)).filter (found intervals · = true)).card ∧
      (AsciiMap.ofIntervals intervals).count =
        ((Finset.range (maxAscii + 1)).filter (found intervals · = true)).card := by
  have hcount := AsciiMap.count_ofPred (found intervals)
  refine ⟨fun p => found_iff_of_ascending h hvalid, found_eq_nearby intervals,
    fun p => exists_of_found, fun hlast p => found_iff_of_last_le h hvalid hlast,
    fun hdisjoint p => found_iff_of_last_le h hvalid (last_le_of_disjoint h hvalid hdisjoint),
    AsciiMap.get_ofPred (found intervals), ?_, hcount⟩
  rw [← AsciiMap.count_eq_cpop]
  exact hcount

/-- `D` lies in `A`-`Z`, but the last interval that starts below it is `A`-`C`. `G` lies in `E`-`H`.
Without `A`-`Z` the intervals have no point in common, and all their points are found. -/
theorem found_of_overlapping_of_nested :
    Ascending (#[⟨0x41, 0x5A⟩, ⟨0x41, 0x43⟩, ⟨0x45, 0x48⟩] : Array Interval).toList ∧
      (∀ i ∈ (#[⟨0x41, 0x5A⟩, ⟨0x41, 0x43⟩, ⟨0x45, 0x48⟩] : Array Interval).toList, i.Valid) ∧
      ¬found #[⟨0x41, 0x5A⟩, ⟨0x41, 0x43⟩, ⟨0x45, 0x48⟩] 0x44 = true ∧
      found #[⟨0x41, 0x5A⟩, ⟨0x41, 0x43⟩, ⟨0x45, 0x48⟩] 0x47 = true ∧
      ∀ p, found #[⟨0x41, 0x43⟩, ⟨0x45, 0x48⟩] p = true ↔
        ∃ i ∈ (#[⟨0x41, 0x43⟩, ⟨0x45, 0x48⟩] : Array Interval).toList, i.includes p = true := by
  have h : Ascending (#[⟨0x41, 0x5A⟩, ⟨0x41, 0x43⟩, ⟨0x45, 0x48⟩] : Array Interval).toList := by
    unfold Ascending
    decide
  have hvalid : ∀ i ∈ (#[⟨0x41, 0x5A⟩, ⟨0x41, 0x43⟩, ⟨0x45, 0x48⟩] : Array Interval).toList,
      i.Valid := by decide
  have hfound := (found_of_overlapping h hvalid).1
  have htail : Ascending (#[⟨0x41, 0x43⟩, ⟨0x45, 0x48⟩] : Array Interval).toList := h.tail
  have hdisjoint : (#[⟨0x41, 0x43⟩, ⟨0x45, 0x48⟩] : Array Interval).toList.Pairwise
      (fun i j => ∀ p, ¬(i.includes p = true ∧ j.includes p = true)) := by
    refine List.pairwise_pair.2 ?_
    intro p hp
    simp only [Interval.includes_eq_true] at hp
    omega
  refine ⟨h, hvalid, ?_, (hfound 0x47).2 (.inr ⟨⟨0x45, 0x48⟩, rfl, by decide⟩),
    (found_of_overlapping htail (by decide)).2.2.2.2.1 hdisjoint⟩
  intro hmiss
  rcases (hfound 0x44).1 hmiss with ⟨i, hi, heq⟩ | ⟨i, hi, hle⟩
  · revert i
    decide
  · cases hi
    exact absurd hle (by decide)

end CharClass
