import CharClass.PointSet.Guarded
import CharClass.Proofs.Reachable

/-!
# Updates never fault

On a well-formed set the guarded updates succeed with the results of the plain ones. The lists are
looked at as two parts that meet at the slot, so an index is the length of the first part and always
at hand. What the guards need beyond that is little: valid ends for the widths, the strict start of
the interval before the slot for the point before `r`, and an interval that reaches beyond `r`
wherever the point behind `r` is taken.
-/

namespace CharClass.Guarded

open PointSet (absorb join cut cutAfter)

theorem ok_bind {α β : Type} (a : α) (f : α → Except Fault β) : (Except.ok a >>= f) = f a := rfl

/-! ## Numbers and intervals -/

theorem sub_of_le {a b : Nat} (h : b ≤ a) : sub a b = .ok (a - b) := if_pos h

theorem add_of_le {limit a b : Nat} (h : a + b ≤ limit) : add limit a b = .ok (a + b) := if_pos h

theorem width_le_of_valid {i : Interval} (h : i.Valid) : i.width ≤ maxPoint + 1 := by
  have := h.2
  unfold Interval.width
  omega

theorem width_eq {i : Interval} (h : i.Valid) : width i = .ok i.width := by
  have hlong : i.last - i.first + 1 ≤ maxLong :=
    Nat.le_trans (width_le_of_valid h) (by decide)
  rw [width, sub_of_le h.1, ok_bind, add_of_le hlong, Interval.width]

theorem mergeable_eq {i j : Interval} (hi : i.Valid) (hj : j.Valid) :
    mergeable i j = .ok (i.mergeable j) := by
  have hhull := Interval.valid_hull hi hj
  have hspan : max i.last j.last - min i.first j.first + 1 ≤ maxLong :=
    Nat.le_trans (width_le_of_valid hhull) (by decide)
  have hsum : i.width + j.width ≤ maxLong :=
    Nat.le_trans (Nat.add_le_add (width_le_of_valid hi) (width_le_of_valid hj)) (by decide)
  have hends : min i.first j.first ≤ max i.last j.last := hhull.1
  simp only [mergeable, sub_of_le hends, add_of_le hspan, width_eq hi, width_eq hj,
    add_of_le hsum, ok_bind]
  rfl

/-! ## Lists around a slot -/

section
variable (before after : List Interval) (i j : Interval)

theorem read_append : read (before ++ i :: after) before.length = .ok i := by
  simp [read]

theorem write_append :
    write (before ++ i :: after) before.length j = .ok (before ++ j :: after) := by
  simp [write]

theorem insertIdx_length_append :
    (before ++ after).insertIdx before.length i = before ++ i :: after := by
  induction before with
  | nil => rfl
  | cons j before ih => rw [List.cons_append, List.length_cons, List.insertIdx_succ_cons, ih]; rfl

theorem insertAt_append :
    insertAt (before ++ after) before.length i = .ok (before ++ i :: after) := by
  simp [insertAt, insertIdx_length_append]

theorem drain_append (middle : List Interval) :
    drain (before ++ (middle ++ after)) before.length (before.length + middle.length) =
      .ok (before ++ after) := by
  simp [drain]

theorem suffix_append : suffix (before ++ after) before.length = .ok after := by
  simp [suffix]

variable {q : Interval → Except Fault Bool} (t : Interval → Bool)

theorem atSlot_append (h : ∀ i ∈ after, q i = .ok (t i)) :
    atSlot (before ++ after) before.length q = .ok (after.head?.any t) := by
  cases after with
  | nil => simp [atSlot]
  | cons i after =>
    rw [atSlot, if_neg (by simp), read_append, ok_bind, h i List.mem_cons_self]
    rfl

theorem sub_length_concat : sub (before ++ [j]).length 1 = .ok before.length := by
  simp [sub]

theorem beforeSlot_append (h : ∀ i ∈ before, q i = .ok (t i)) :
    beforeSlot (before ++ after) before.length q = .ok (before.getLast?.any t) := by
  cases hlast : before.getLast? with
  | none =>
    obtain rfl := List.getLast?_eq_none_iff.1 hlast
    rfl
  | some j =>
    obtain ⟨init, rfl⟩ := List.getLast?_eq_some_iff.1 hlast
    have hread := read_append init after j
    rw [beforeSlot, if_neg (by simp), sub_length_concat, ok_bind, List.append_assoc,
      List.singleton_append, hread, ok_bind, h j (by simp)]
    rfl

end

theorem refresh_eq {is : List Interval} (h : (PointSet.ofIntervals is.toArray).WellFormed) :
    refresh is = .ok (.ofIntervals is.toArray) :=
  if_pos h.check

/-! ## Insertion -/

/-- The loop stops where `absorb` does. -/
theorem grow_append (before : List Interval) {after : List Interval} {i : Interval} (hi : i.Valid)
    (hafter : ∀ j ∈ after, j.Valid) :
    ∃ taken rest j, after = taken ++ rest ∧ absorb i after = j :: rest ∧
      grow (before ++ after) i before.length = .ok (j, before.length + taken.length) := by
  induction after generalizing before i with
  | nil =>
    refine ⟨[], [], i, rfl, rfl, ?_⟩
    rw [grow, if_neg (by simp)]
    rfl
  | cons k after ih =>
    obtain ⟨hk, hafter⟩ := List.forall_mem_cons.1 hafter
    have hgrow : grow (before ++ k :: after) i before.length =
        if i.mergeable k then grow (before ++ k :: after) (i.hull k) (before.length + 1)
        else .ok (i, before.length) := by
      rw [grow, if_pos (by simp), read_append, ok_bind, mergeable_eq hi hk, ok_bind]
    by_cases hmerge : i.mergeable k = true
    · obtain ⟨taken, rest, j, rfl, habsorb, hrest⟩ :=
        ih (before ++ [k]) (Interval.valid_hull hi hk) hafter
      refine ⟨k :: taken, rest, j, rfl, ?_, ?_⟩
      · rw [absorb, if_pos hmerge, habsorb]
      · rw [hgrow, if_pos hmerge, List.length_cons, Nat.add_comm taken.length, ← Nat.add_assoc]
        simpa using hrest
    · refine ⟨[], k :: after, i, rfl, ?_, ?_⟩
      · rw [absorb, if_neg hmerge]
      · rw [hgrow, if_neg hmerge]
        rfl

theorem mergeAt_append (before : List Interval) {after : List Interval} {i r : Interval}
    (hi : i.Valid) (hr : r.Valid) (hafter : ∀ j ∈ after, j.Valid) :
    mergeAt (before ++ i :: after) before.length r =
      .ok (before ++ absorb (i.hull r) after) := by
  obtain ⟨taken, rest, j, rfl, habsorb, hgrow⟩ :=
    grow_append (before ++ [i]) (Interval.valid_hull hi hr) hafter
  have hdrain := drain_append (before ++ [j]) rest taken
  simp only [List.append_assoc, List.singleton_append, List.length_append, List.length_singleton]
    at hgrow hdrain
  simp only [mergeAt, read_append, ok_bind, hgrow, write_append, hdrain, habsorb]

/-- Merging with the interval at the slot or else filling the gap is absorbing what follows. -/
theorem absorb_at_slot {before after : List Interval} {r : Interval} (hr : r.Valid)
    (hafter : ∀ j ∈ after, j.Valid) :
    (if after.head?.any (·.mergeable r) then mergeAt (before ++ after) before.length r
      else insertAt (before ++ after) before.length r) = .ok (before ++ absorb r after) := by
  cases after with
  | nil => exact insertAt_append before [] r
  | cons i after =>
    obtain ⟨hi, hafter⟩ := List.forall_mem_cons.1 hafter
    change (if i.mergeable r = true then _ else _) = _
    rw [absorb, Interval.mergeable_comm i r]
    split
    · rw [mergeAt_append before hi hr hafter, Interval.hull_comm]
    · rw [insertAt_append]

theorem place_append {before after : List Interval} {r : Interval} (hr : r.Valid)
    (hvalid : ∀ j ∈ before ++ after, j.Valid) :
    place (before ++ after) before.length r = .ok (join before r after) := by
  obtain ⟨hbefore, hafter⟩ := List.forall_mem_append.1 hvalid
  have habove := atSlot_append before after (·.mergeable r)
    fun i hi => mergeable_eq (hafter i hi) hr
  have hbelow := beforeSlot_append before after (·.mergeable r)
    fun i hi => mergeable_eq (hbefore i hi) hr
  simp only [place, habove, hbelow, ok_bind, absorb_at_slot hr hafter]
  cases hlast : before.getLast? with
  | none =>
    obtain rfl := List.getLast?_eq_none_iff.1 hlast
    rfl
  | some j =>
    obtain ⟨init, rfl⟩ := List.getLast?_eq_some_iff.1 hlast
    have hmerge := mergeAt_append init (hbefore j (by simp)) hr hafter
    simp only [Option.any_some, PointSet.join_concat, sub_length_concat, ok_bind,
      List.append_assoc, List.singleton_append, hmerge]
    split <;> rfl

/-- A well-formed set's intervals as two parts that meet at the slot. -/
theorem exists_append_insertionPoint {s : PointSet} (h : s.WellFormed) (p : Nat) :
    ∃ before after, s.intervals.toList = before ++ after ∧
      insertionPoint s.intervals p = before.length ∧ (∀ j ∈ before, j.first < p) ∧
        ∀ j ∈ after, p ≤ j.first := by
  obtain ⟨hbefore, hafter⟩ := splits_insertionPoint h.normal.ascending p
  refine ⟨_, _, (List.take_append_drop _ _).symm, ?_, hbefore, hafter⟩
  simpa using insertionPoint_le_size s.intervals p

theorem insert_eq {s : PointSet} {r : Interval} (h : s.WellFormed) (hr : r.Valid) :
    insert s r = .ok (s.insert r) := by
  have hresult := h.insert hr
  by_cases hempty : s.isEmpty = true
  · obtain rfl := h.isEmpty_iff.1 hempty
    have hplain : PointSet.empty.insert r = .ofIntervals [r].toArray := by
      simp [PointSet.insert, PointSet.empty, nearby, absorb]
    rw [insert, if_pos hempty, hplain]
    exact refresh_eq (hplain ▸ hresult)
  · obtain ⟨before, after, hlist, hslot, -, -⟩ := exists_append_insertionPoint h r.first
    have habove := atSlot_append before after (·.covers r) fun _ _ => rfl
    have hbelow := beforeSlot_append before after (·.covers r) fun _ _ => rfl
    have hplace := place_append hr (hlist ▸ h.valid)
    have hnearby := nearby_eq (insertionPoint_le_size s.intervals r.first) (·.covers r)
    rw [hslot, hlist, List.take_left, List.drop_left] at hnearby
    unfold PointSet.insert at hresult ⊢
    simp only [hslot, hlist, List.take_left, List.drop_left, hnearby] at hresult ⊢
    rw [insert, if_neg hempty, hslot, hlist]
    simp only [habove, hbelow, ok_bind, hplace]
    -- both sides now depend on the same two tests for a cover, the one at the slot first
    generalize after.head?.any (·.covers r) = above at hresult ⊢
    generalize before.getLast?.any (·.covers r) = below at hresult ⊢
    cases above with
    | true => rfl
    | false =>
      cases below with
      | true => rfl
      | false => exact refresh_eq hresult

/-! ## Removal -/

theorem shorten_append (before after : List Interval) {i r : Interval} (h : i.first < r.first) :
    shorten (before ++ i :: after) before.length r =
      .ok (before ++ ⟨i.first, r.first - 1⟩ :: after) := by
  have hfirst : 1 ≤ r.first := by omega
  have hlast : setLast i (r.first - 1) = .ok ⟨i.first, r.first - 1⟩ := if_pos (by omega)
  simp only [shorten, read_append, sub_of_le hfirst, hlast, ok_bind, write_append]

theorem sweep_append (before : List Interval) {after : List Interval} {r : Interval}
    (hvalid : ∀ j ∈ after, j.Valid) (hafter : ∀ j ∈ after, r.first ≤ j.first) :
    sweep (before ++ after) before.length r = .ok (before ++ cutAfter r after) := by
  have hsplit := List.takeWhile_append_dropWhile (p := r.covers) (l := after)
  have hdrain := drain_append before (after.dropWhile r.covers) (after.takeWhile r.covers)
  rw [hsplit] at hdrain
  simp only [sweep, suffix_append, hdrain, ok_bind, cutAfter]
  cases hrest : after.dropWhile r.covers with
  | nil => simp
  | cons i rest =>
    have hi : i ∈ after := by
      rw [← hsplit, hrest]
      simp
    have hcov : r.covers i = false := by
      have hhead := List.head?_dropWhile_not r.covers after
      rwa [hrest] at hhead
    -- `i` starts inside `r` or behind it, so it is not covered because it reaches beyond `r`
    have hlast : r.last < i.last := by
      have := hafter i hi
      rw [← Bool.not_eq_true, Interval.covers_eq_true] at hcov
      omega
    have hdomain : r.last + 1 ≤ maxPoint := Nat.le_trans hlast (hvalid i hi).2
    have hfirst : setFirst i (r.last + 1) = .ok ⟨r.last + 1, i.last⟩ := if_pos hlast
    have hslot : (before ++ i :: rest)[before.length]? = some i := by simp
    simp only [hslot, add_of_le hdomain, hfirst, ok_bind, write_append]
    split <;> rfl

theorem carve_append {before after : List Interval} {r : Interval}
    (hvalid : ∀ j ∈ before ++ after, j.Valid) (hbefore : ∀ j ∈ before, j.first < r.first)
    (hafter : ∀ j ∈ after, r.first ≤ j.first) :
    carve (before ++ after) before.length r = .ok (cut before r after) := by
  obtain ⟨hvalid, hvalid'⟩ := List.forall_mem_append.1 hvalid
  cases hlast : before.getLast? with
  | none =>
    obtain rfl := List.getLast?_eq_none_iff.1 hlast
    exact sweep_append [] hvalid' hafter
  | some j =>
    obtain ⟨init, rfl⟩ := List.getLast?_eq_some_iff.1 hlast
    have hj : j.Valid := hvalid j (by simp)
    have hsweep : ∀ i, sweep (init ++ i :: after) (init ++ [j]).length r =
        .ok (init ++ i :: cutAfter r after) := fun i => by
      simpa using sweep_append (init ++ [i]) hvalid' hafter
    have hinsert : ∀ i k, insertAt (init ++ i :: after) (init ++ [j]).length k =
        .ok (init ++ i :: k :: after) := fun i k => by
      simpa using insertAt_append (init ++ [i]) after k
    have hlist : init ++ [j] ++ after = init ++ j :: after := by simp
    have hread := read_append init after j
    have hshort := shorten_append init after (hbefore j (by simp))
    rw [carve, if_neg (by simp), sub_length_concat, ok_bind, PointSet.cut_concat]
    simp only [hlist, hread, hshort, hsweep, hinsert, ok_bind]
    split
    · split
      · next hlast =>
        have hdomain : r.last + 1 ≤ maxPoint := Nat.le_trans hlast hj.2
        have htail : unchecked (r.last + 1) j.last = .ok ⟨r.last + 1, j.last⟩ :=
          if_pos ⟨hlast, hj.2⟩
        rw [add_of_le hdomain, ok_bind, htail, ok_bind]
      · rfl
    · rw [List.append_assoc, List.singleton_append]

theorem remove_eq {s : PointSet} {r : Interval} (h : s.WellFormed) (hr : r.Valid) :
    remove s r = .ok (s.remove r) := by
  have hresult := h.remove hr
  by_cases hempty : s.isEmpty = true
  · rw [remove, if_pos hempty, PointSet.remove, if_pos hempty]
  · obtain ⟨before, after, hlist, hslot, hbefore, hafter⟩ := exists_append_insertionPoint h r.first
    have hplain : s.remove r = .ofIntervals (cut before r after).toArray := by
      rw [PointSet.remove, if_neg hempty]
      simp only [hslot, hlist, List.take_left, List.drop_left]
    rw [hplain] at hresult ⊢
    rw [remove, if_neg hempty, hslot, hlist, carve_append (hlist ▸ h.valid) hbefore hafter, ok_bind]
    exact refresh_eq hresult

/-! ## The number of members -/

/-- Before each interval no more points were counted than lie below it. -/
theorem foldlM_count {is : List Interval} {n : Nat} (h : Normal is) (hn : n ≤ maxPoint + 1)
    (hbelow : ∀ i ∈ is, n ≤ i.first) :
    n + is.foldr (·.width + ·) 0 ≤ maxPoint + 1 ∧
      is.foldlM count n = .ok (n + is.foldr (·.width + ·) 0) := by
  induction is generalizing n with
  | nil => exact ⟨hn, rfl⟩
  | cons i is ih =>
    obtain ⟨hi, his, hsep⟩ := normal_cons.1 h
    -- `i` starts above what was counted, and the next interval above `i`
    have hcount : n + i.width ≤ i.last + 1 := by
      have := hbelow i List.mem_cons_self
      have := hi.1
      unfold Interval.width
      omega
    have hn' : n + i.width ≤ maxPoint + 1 := Nat.le_trans hcount (Nat.succ_le_succ hi.2)
    have hbelow' : ∀ j ∈ is, n + i.width ≤ j.first := fun j hj =>
      Nat.le_trans hcount (Nat.le_of_lt (hsep j hj))
    rw [List.foldlM_cons, count, width_eq hi, ok_bind, add_of_le hn', ok_bind, List.foldr_cons,
      ← Nat.add_assoc]
    exact ih his hn' hbelow'

theorem size_eq {s : PointSet} (h : s.WellFormed) :
    size s = .ok s.size ∧ s.size ≤ maxPoint + 1 := by
  obtain ⟨hle, hsum⟩ := foldlM_count h.normal (Nat.zero_le _) fun i _ => Nat.zero_le _
  rw [Nat.zero_add] at hle hsum
  exact ⟨hsum, hle⟩

/-! ## Runs of updates -/

/-- What one update does, all of them do one after the other. -/
theorem foldlM_eq_foldl {step : PointSet → Interval → Except Fault PointSet}
    {plain : PointSet → Interval → PointSet}
    (hstep : ∀ {s : PointSet} {r : Interval}, s.WellFormed → r.Valid →
      step s r = .ok (plain s r) ∧ (plain s r).WellFormed)
    {s : PointSet} {is : List Interval} (h : s.WellFormed) (his : ∀ i ∈ is, i.Valid) :
    is.foldlM step s = .ok (is.foldl plain s) := by
  induction is generalizing s with
  | nil => rfl
  | cons i is ih =>
    obtain ⟨hi, his⟩ := List.forall_mem_cons.1 his
    obtain ⟨heq, hnext⟩ := hstep h hi
    rw [List.foldlM_cons, heq, ok_bind, List.foldl_cons]
    exact ih hnext his

theorem insertAll_eq {s : PointSet} {is : List Interval} (h : s.WellFormed)
    (his : ∀ i ∈ is, i.Valid) : is.foldlM insert s = .ok (s.insertAll is) :=
  foldlM_eq_foldl (fun hs hr => ⟨insert_eq hs hr, hs.insert hr⟩) h his

theorem removeAll_eq {s : PointSet} {is : List Interval} (h : s.WellFormed)
    (his : ∀ i ∈ is, i.Valid) : is.foldlM remove s = .ok (s.removeAll is) :=
  foldlM_eq_foldl (fun hs hr => ⟨remove_eq hs hr, hs.remove hr⟩) h his

end CharClass.Guarded

namespace CharClass.Reachable

open PointSet (absorb)

/-- On a reachable set and a valid interval no guard fails and the results are those of the plain
updates: no access misses the list, no difference falls below zero, no sum leaves its word or, for
points, the domain, each end that is set keeps its interval valid, and the test of the
representation passes. The same holds of a run of updates, of merging at any slot, of widths and
their comparison, and of the number of members, which never exceeds that of the domain. -/
theorem no_fault {s : PointSet} (hs : Reachable s) {r : Interval} (hr : r.Valid) :
    Guarded.insert s r = .ok (s.insert r) ∧ Guarded.remove s r = .ok (s.remove r) ∧
      (∀ is : List Interval, (∀ i ∈ is, i.Valid) →
        is.foldlM Guarded.insert s = .ok (s.insertAll is) ∧
          is.foldlM Guarded.remove s = .ok (s.removeAll is)) ∧
      (∀ slot (hslot : slot < s.intervals.size), Guarded.mergeAt s.intervals.toList slot r =
        .ok (s.intervals.toList.take slot ++
          absorb (s.intervals[slot].hull r) (s.intervals.toList.drop (slot + 1)))) ∧
      (∀ i j : Interval, i.Valid → j.Valid →
        Guarded.width i = .ok i.width ∧ Guarded.mergeable i j = .ok (i.mergeable j)) ∧
      Guarded.size s = .ok s.size ∧ s.size ≤ maxPoint + 1 := by
  have h := hs.wellFormed
  refine ⟨Guarded.insert_eq h hr, Guarded.remove_eq h hr, fun is his => ?_, fun slot hslot => ?_,
    fun i j hi hj => ?_, Guarded.size_eq h⟩
  · exact ⟨Guarded.insertAll_eq h his, Guarded.removeAll_eq h his⟩
  · have hlist : s.intervals.toList =
        s.intervals.toList.take slot ++
          s.intervals[slot] :: s.intervals.toList.drop (slot + 1) := by
      rw [← Array.getElem_toList, List.getElem_cons_drop, List.take_append_drop]
    have hlength : (s.intervals.toList.take slot).length = slot := by
      simpa using Nat.le_of_lt hslot
    have hvalid := h.valid
    rw [hlist] at hvalid
    obtain ⟨-, hvalid⟩ := List.forall_mem_append.1 hvalid
    obtain ⟨hi, hafter⟩ := List.forall_mem_cons.1 hvalid
    have hmerge := Guarded.mergeAt_append (s.intervals.toList.take slot) hi hr hafter
    rwa [← hlist, hlength] at hmerge
  · exact ⟨Guarded.width_eq hi, Guarded.mergeable_eq hi hj⟩

/-- All points but the digits: the least and the greatest point are ends of the set and of what is
taken out of it. -/
theorem no_fault_of_complement :
    Reachable Predefined.digit.set.complement ∧ (⟨minPoint, maxPoint⟩ : Interval).Valid ∧
      Guarded.insert Predefined.digit.set.complement ⟨minPoint, maxPoint⟩ =
        .ok PointSet.everything ∧
      Guarded.remove Predefined.digit.set.complement ⟨minPoint, maxPoint⟩ = .ok PointSet.empty ∧
      Guarded.mergeAt Predefined.digit.set.complement.intervals.toList 0 ⟨minPoint, maxPoint⟩ =
        .ok [⟨minPoint, maxPoint⟩] ∧
      Guarded.mergeable ⟨minPoint, 0x2F⟩ ⟨0x3A, maxPoint⟩ = .ok false ∧
      Guarded.size Predefined.digit.set.complement = .ok 0x10FFF6 := by
  have h : Reachable Predefined.digit.set.complement := .complement (.built (.predefined .digit))
  have hr : (⟨minPoint, maxPoint⟩ : Interval).Valid := by decide
  obtain ⟨hinsert, hremove, -, hmerge, hwidth, hsize, -⟩ := no_fault h hr
  have hinserted : Predefined.digit.set.complement.insert ⟨minPoint, maxPoint⟩ =
      PointSet.everything := by decide +kernel
  have hremoved : Predefined.digit.set.complement.remove ⟨minPoint, maxPoint⟩ =
      PointSet.empty := by decide +kernel
  have hcount : Predefined.digit.set.complement.size = 0x10FFF6 := by decide +kernel
  refine ⟨h, hr, hinserted ▸ hinsert, hremoved ▸ hremove, ?_, ?_, hcount ▸ hsize⟩
  · rw [hmerge 0 (by decide +kernel)]
    decide +kernel
  · exact (hwidth _ _ (by decide) (by decide)).2

end CharClass.Reachable
