import CharClass.Json.Value
import CharClass.Json.Read
import CharClass.Predefined
import CharClass.Spec
import CharClass.Proofs.Algebra
import CharClass.Proofs.Outcome
import Mathlib.Order.Interval.Set.Basic

/-!
# Building sets

Every way of building a set collects a list of intervals, and every list that is collected holds
checked intervals only: those of a spec string and of a JSON text pass `Interval.make`, the others
are given. So what is built is well formed, and it has the members that the construction means
(`Built.represents`).
-/

namespace CharClass

/-! ## Where intervals come from -/

theorem Spec.Item.valid_interval {item : Spec.Item} {i : Interval} (h : item.interval = .ok i) :
    i.Valid := by
  cases item with
  | literal c =>
    cases h
    exact Interval.valid_single c
  | range c d => exact Interval.valid_of_between h

theorem Spec.valid_of_compile {text : String} {is : List Interval} (h : compile text = .ok is) :
    ∀ i ∈ is, i.Valid :=
  forall_mem_of_mapM_ok (fun _ _ => Item.valid_interval) h

theorem Json.valid_of_readIntervals {first : Bool} {c d : Cursor} {is : List Interval}
    (h : readIntervals first c = .ok (is, d)) : ∀ i ∈ is, i.Valid := by
  fun_induction readIntervals first c generalizing is d with
  | case1 => cases h
  | case2 =>
    cases h
    simp
  | case3 => cases h
  | case4 => cases h
  | case5 first c e went ends e' read i made _ _ ih =>
    obtain ⟨⟨is', d'⟩, hrest, heq⟩ := map_ok_iff.1 h
    cases heq
    exact List.forall_mem_cons.2 ⟨(Interval.make_eq_ok_iff.1 made).2, ih hrest⟩

theorem Json.valid_of_readSet {c d : Cursor} {is : List Interval} (h : readSet c = .ok (is, d)) :
    ∀ i ∈ is, i.Valid := by
  unfold readSet at h
  split at h
  · cases h
  · obtain ⟨⟨is', e⟩, hread, h⟩ := bind_ok_iff.1 h
    obtain ⟨f, -, h⟩ := bind_ok_iff.1 h
    cases h
    exact valid_of_readIntervals hread
  · cases h

theorem Json.Value.valid_interval {v : Json.Value} {i : Interval} (h : v.interval = .ok i) :
    i.Valid := by
  unfold interval at h
  split at h
  · cases h
  · obtain ⟨_, -, h⟩ := bind_ok_iff.1 h
    cases h
  · obtain ⟨first, -, h⟩ := bind_ok_iff.1 h
    obtain ⟨last, -, h⟩ := bind_ok_iff.1 h
    split at h
    · exact (Interval.make_eq_ok_iff.1 (mapError_ok_iff.1 h)).2
    · cases h
  · cases h

theorem Json.Value.valid_intervals {v : Json.Value} {is : List Interval}
    (h : v.intervals = .ok is) : ∀ i ∈ is, i.Valid := by
  unfold intervals at h
  split at h
  · exact forall_mem_of_mapM_ok (fun _ _ => valid_interval) h
  · cases h

theorem Predefined.valid_intervals (q : Predefined) : ∀ i ∈ q.intervals, i.Valid := by
  cases q <;> decide

theorem valid_of_mem_map_single {cs : List Char} : ∀ i ∈ cs.map Interval.single, i.Valid := by
  intro i hi
  obtain ⟨c, -, rfl⟩ := List.mem_map.1 hi
  exact Interval.valid_single c

namespace PointSet

theorem ofSpec_ok {text : String} {s : PointSet} (h : ofSpec text = .ok s) :
    ∃ is, Spec.compile text = .ok is ∧ ofList is = s :=
  map_ok_iff.1 h

theorem ofSpec_of_compile_ok {text : String} {is : List Interval} (h : Spec.compile text = .ok is) :
    ofSpec text = .ok (ofList is) :=
  congrArg (Except.map ofList) h

theorem ofSpec_of_compile_error {text : String} {e : BoundsError}
    (h : Spec.compile text = .error e) : ofSpec text = .error e :=
  congrArg (Except.map ofList) h

theorem ofJson_ok {text : String} {s : PointSet} (h : ofJson text = .ok s) :
    ∃ is c, Json.readSet (.ofString text) = .ok (is, c) ∧ ofList is = s := by
  obtain ⟨⟨is, c⟩, hread, h⟩ := bind_ok_iff.1 h
  obtain ⟨_, -, h⟩ := bind_ok_iff.1 h
  exact ⟨is, c, hread, Except.ok.inj h⟩

theorem ofValue_ok {v : Json.Value} {s : PointSet} (h : ofValue v = .ok s) :
    ∃ is, v.intervals = .ok is ∧ ofList is = s := by
  unfold ofValue at h
  split at h
  · cases h
  · next is his => exact ⟨is, his, Except.ok.inj h⟩

end PointSet

/-! ## What is built -/

/-- The set is well formed and its members are the points of `S`. -/
structure Represents (s : PointSet) (S : Set Nat) : Prop where
  wellFormed : s.WellFormed
  contains_iff : ∀ p, s.contains p = true ↔ p ∈ S

/-- The ways of building a set from something else than sets, and the points that each of them
means. A text or a JSON value means the points of the intervals that are read from it. -/
inductive Built : PointSet → Set Nat → Prop
  | empty : Built .empty ∅
  | ofChar (c : Char) : Built (.ofChar c) {c.toNat}
  | between {c d : Char} {i : Interval} (h : Interval.between c d = .ok i) :
      Built (.ofInterval i) (Set.Icc c.toNat d.toNat)
  | ofEnds {first last : Nat} {i : Interval} (h : Interval.make first last = .ok i) :
      Built (.ofInterval i) (Set.Icc first last)
  | ofInterval {i : Interval} (h : i.Valid) : Built (.ofInterval i) (Set.Icc i.first i.last)
  | ofList {is : List Interval} (h : ∀ i ∈ is, i.Valid) : Built (.ofList is) {p | Covered is p}
  | ofChars (cs : List Char) : Built (.ofChars cs) {p | ∃ c ∈ cs, c.toNat = p}
  | ofSpec {text : String} {s : PointSet} (h : PointSet.ofSpec text = .ok s) :
      Built s {p | ∃ is, Spec.compile text = .ok is ∧ Covered is p}
  | ofJson {text : String} {s : PointSet} (h : PointSet.ofJson text = .ok s) :
      Built s {p | ∃ is c, Json.readSet (.ofString text) = .ok (is, c) ∧ Covered is p}
  | ofValue {v : Json.Value} {s : PointSet} (h : PointSet.ofValue v = .ok s) :
      Built s {p | ∃ is, v.intervals = .ok is ∧ Covered is p}
  | predefined (q : Predefined) : Built q.set {p | Covered q.intervals p}

namespace Represents

theorem empty : Represents .empty ∅ := ⟨.empty, fun p => by simp⟩

theorem ofInterval {i : Interval} (h : i.Valid) :
    Represents (.ofInterval i) (Set.Icc i.first i.last) where
  wellFormed := .ofInterval h
  contains_iff p := by
    rw [(PointSet.WellFormed.ofInterval h).contains_iff]
    simp [PointSet.ofInterval, PointSet.ofIntervals]

theorem ofList {is : List Interval} (h : ∀ i ∈ is, i.Valid) :
    Represents (.ofList is) {p | Covered is p} where
  wellFormed := .ofList h
  contains_iff p := by
    rw [PointSet.contains_ofList h, ← covered_iff_any]
    rfl

end Represents

/-- What is built has the members that the construction means. -/
theorem Built.represents {s : PointSet} {S : Set Nat} (h : Built s S) : Represents s S := by
  cases h with
  | empty => exact .empty
  | ofChar c =>
    rw [← Set.Icc_self]
    exact .ofInterval (Interval.valid_single c)
  | between h =>
    obtain ⟨rfl, hi⟩ := Interval.make_eq_ok_iff.1 h
    exact .ofInterval hi
  | ofEnds h =>
    obtain ⟨rfl, hi⟩ := Interval.make_eq_ok_iff.1 h
    exact .ofInterval hi
  | ofInterval h => exact .ofInterval h
  | ofList h => exact .ofList h
  | ofChars cs =>
    have hcov : {p | Covered (cs.map .single) p} = {p | ∃ c ∈ cs, c.toNat = p} := by
      ext p
      simp [Covered, Interval.single, Nat.le_antisymm_iff]
    rw [← hcov]
    exact .ofList valid_of_mem_map_single
  | ofSpec h =>
    obtain ⟨is, his, rfl⟩ := PointSet.ofSpec_ok h
    simpa [his] using Represents.ofList (Spec.valid_of_compile his)
  | ofJson h =>
    obtain ⟨is, c, his, rfl⟩ := PointSet.ofJson_ok h
    simpa [his] using Represents.ofList (Json.valid_of_readSet his)
  | ofValue h =>
    obtain ⟨is, his, rfl⟩ := PointSet.ofValue_ok h
    simpa [his] using Represents.ofList (Json.Value.valid_intervals his)
  | predefined q => exact .ofList q.valid_intervals

end CharClass
