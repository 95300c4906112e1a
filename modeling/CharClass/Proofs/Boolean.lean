import CharClass.Proofs.Reachable
import Mathlib.Data.Set.BooleanAlgebra
import Mathlib.Order.SymmDiff

/-!
# The algebra of reachable sets

The operations on sets are the Boolean operations on membership, point by point, at every point and
not only at those of the domain: above it nothing is a member, of a complement as little as of any
other set.

The reachable sets form a Boolean algebra under these operations (`ReachableSet`). It is carried
over from the subsets of the domain: a set is mapped to its members, which determine its
representation and which the operations respect. So every law of Boolean algebra is an equation
between representations, intervals and bitmap alike, however differently its two sides are computed.
-/

namespace CharClass.Reachable

theorem contains_algebra {a b : PointSet} (ha : Reachable a) (hb : Reachable b) (p : Nat) :
    ((a.union b).contains p = true ↔ a.contains p = true ∨ b.contains p = true) ∧
      ((a.difference b).contains p = true ↔ a.contains p = true ∧ ¬b.contains p = true) ∧
      ((a.intersection b).contains p = true ↔ a.contains p = true ∧ b.contains p = true) ∧
      ((a.symmetricDifference b).contains p = true ↔ a.contains p ≠ b.contains p) ∧
      (a.complement.contains p = true ↔ p ≤ maxPoint ∧ ¬a.contains p = true) := by
  have ha := ha.wellFormed
  have hb := hb.wellFormed
  refine ⟨?_, ?_, ?_, ?_, ?_⟩
  · rw [ha.contains_union hb, Bool.or_eq_true]
  · rw [ha.contains_difference hb, Bool.and_eq_true, Bool.not_eq_true', Bool.not_eq_true]
  · rw [ha.contains_intersection hb, Bool.and_eq_true]
  · rw [ha.contains_symmetricDifference hb, bne_iff_ne]
  · rw [ha.contains_complement, Bool.and_eq_true, decide_eq_true_iff, Bool.not_eq_true',
      Bool.not_eq_true]

/-- `g` is a letter and no hexadecimal digit. -/
theorem contains_algebra_of_letters :
    Reachable Predefined.alpha.set ∧ Reachable Predefined.xdigit.set.complement ∧
      (Predefined.alpha.set.intersection Predefined.xdigit.set.complement).contains 0x67 = true :=
  have ha : Reachable Predefined.alpha.set := .built (.predefined .alpha)
  have hb : Reachable Predefined.xdigit.set.complement := .complement (.built (.predefined .xdigit))
  ⟨ha, hb, (contains_algebra ha hb 0x67).2.2.1.2 ⟨by decide +kernel, by decide +kernel⟩⟩

end CharClass.Reachable

namespace CharClass

/-! ## The Boolean algebra -/

/-- A set together with the fact that it is reachable. -/
@[ext]
structure ReachableSet where
  set : PointSet
  reachable : Reachable set

namespace ReachableSet

/-- The members among the points of the domain. -/
def members (x : ReachableSet) : Set {p : Nat // p ≤ maxPoint} := {p | x.set.contains p = true}

instance : Max ReachableSet := ⟨fun x y => ⟨x.set.union y.set, x.reachable.union y.reachable⟩⟩

instance : Min ReachableSet :=
  ⟨fun x y => ⟨x.set.intersection y.set, x.reachable.intersection y.reachable⟩⟩

instance : SDiff ReachableSet :=
  ⟨fun x y => ⟨x.set.difference y.set, x.reachable.difference y.reachable⟩⟩

instance : Compl ReachableSet := ⟨fun x => ⟨x.set.complement, x.reachable.complement⟩⟩

instance : HImp ReachableSet := ⟨fun x y => y ⊔ xᶜ⟩

instance : Top ReachableSet := ⟨⟨Predefined.any.set, .built (.predefined .any)⟩⟩

instance : Bot ReachableSet := ⟨⟨Predefined.nothing.set, .built (.predefined .nothing)⟩⟩

instance : LE ReachableSet := ⟨fun x y => x.members ⊆ y.members⟩

instance : LT ReachableSet := ⟨fun x y => x ≤ y ∧ ¬y ≤ x⟩

theorem members_injective : Function.Injective members := by
  intro x y h
  have hset : x.set = y.set := by
    refine x.reachable.wellFormed.ext_of_le_maxPoint y.reachable.wellFormed fun p hp => ?_
    have hmem : ⟨p, hp⟩ ∈ x.members ↔ ⟨p, hp⟩ ∈ y.members := by rw [h]
    exact Bool.eq_iff_iff.2 hmem
  exact ReachableSet.ext hset

section
variable (x y : ReachableSet)

theorem members_sup : (x ⊔ y).members = x.members ∪ y.members := by
  ext p
  change (x.set.union y.set).contains p = true ↔ _
  rw [x.reachable.wellFormed.contains_union y.reachable.wellFormed, Bool.or_eq_true]
  rfl

theorem members_inf : (x ⊓ y).members = x.members ∩ y.members := by
  ext p
  change (x.set.intersection y.set).contains p = true ↔ _
  rw [x.reachable.wellFormed.contains_intersection y.reachable.wellFormed, Bool.and_eq_true]
  rfl

theorem members_sdiff : (x \ y).members = x.members \ y.members := by
  ext p
  change (x.set.difference y.set).contains p = true ↔ _
  rw [x.reachable.wellFormed.contains_difference y.reachable.wellFormed, Bool.and_eq_true,
    Bool.not_eq_true', ← Bool.not_eq_true]
  rfl

theorem members_compl : xᶜ.members = x.membersᶜ := by
  ext p
  change x.set.complement.contains p = true ↔ _
  rw [x.reachable.wellFormed.contains_complement, decide_eq_true p.property, Bool.true_and,
    Bool.not_eq_true', ← Bool.not_eq_true]
  rfl

theorem members_himp : (x ⇨ y).members = x.members ⇨ y.members := by
  rw [himp_eq, ← members_compl]
  exact members_sup y xᶜ

end

theorem members_top : (⊤ : ReachableSet).members = Set.univ := by
  ext p
  change PointSet.everything.contains p = true ↔ _
  rw [PointSet.contains_everything, decide_eq_true p.property]
  exact ⟨fun _ => trivial, fun _ => rfl⟩

theorem members_bot : (⊥ : ReachableSet).members = ∅ := by
  ext p
  change PointSet.empty.contains p = true ↔ _
  rw [PointSet.contains_empty]
  exact ⟨nofun, False.elim⟩

instance : BooleanAlgebra ReachableSet :=
  members_injective.booleanAlgebra members .rfl .rfl members_sup members_inf members_top members_bot
    members_compl members_sdiff members_himp

theorem isEmpty_iff {x : ReachableSet} : x.set.isEmpty = true ↔ x = ⊥ := by
  rw [x.reachable.wellFormed.isEmpty_iff, ReachableSet.ext_iff]
  rfl

end ReachableSet

/-! ## The laws -/

/-- The laws of a Boolean algebra whose top is the class of all points and whose bottom is the empty
class, as equations between representations. -/
structure BooleanLaws (a b c : PointSet) : Prop where
  union_comm : a.union b = b.union a
  union_assoc : (a.union b).union c = a.union (b.union c)
  union_self : a.union a = a
  union_intersection_self : a.union (a.intersection b) = a
  union_intersection : a.union (b.intersection c) = (a.union b).intersection (a.union c)
  union_bottom : a.union Predefined.nothing.set = a
  union_top : a.union Predefined.any.set = Predefined.any.set
  intersection_comm : a.intersection b = b.intersection a
  intersection_assoc : (a.intersection b).intersection c = a.intersection (b.intersection c)
  intersection_self : a.intersection a = a
  intersection_union_self : a.intersection (a.union b) = a
  intersection_union : a.intersection (b.union c) = (a.intersection b).union (a.intersection c)
  intersection_bottom : a.intersection Predefined.nothing.set = Predefined.nothing.set
  intersection_top : a.intersection Predefined.any.set = a
  complement_complement : a.complement.complement = a
  complement_union : (a.union b).complement = a.complement.intersection b.complement
  complement_intersection : (a.intersection b).complement = a.complement.union b.complement
  intersection_complement : a.intersection a.complement = Predefined.nothing.set
  union_complement : a.union a.complement = Predefined.any.set
  symmetricDifference_comm : a.symmetricDifference b = b.symmetricDifference a
  symmetricDifference_assoc : (a.symmetricDifference b).symmetricDifference c =
    a.symmetricDifference (b.symmetricDifference c)
  symmetricDifference_cancel : (a.symmetricDifference b).symmetricDifference b = a
  symmetricDifference_eq :
    a.symmetricDifference b = (a.union b).difference (a.intersection b)
  difference_eq : a.difference b = a.intersection b.complement
  isEmpty_difference_iff_union : (a.difference b).isEmpty = true ↔ a.union b = b
  isEmpty_difference_iff_intersection : (a.difference b).isEmpty = true ↔ a.intersection b = a

theorem Reachable.boolean_laws {a b c : PointSet} (ha : Reachable a) (hb : Reachable b)
    (hc : Reachable c) : BooleanLaws a b c := by
  let x : ReachableSet := ⟨a, ha⟩
  let y : ReachableSet := ⟨b, hb⟩
  let z : ReachableSet := ⟨c, hc⟩
  have set_eq {u v : ReachableSet} (h : u = v) : u.set = v.set := congrArg ReachableSet.set h
  have empty_iff : (a.difference b).isEmpty = true ↔ x ≤ y :=
    (ReachableSet.isEmpty_iff (x := x \ y)).trans sdiff_eq_bot_iff
  exact
    { union_comm := set_eq (sup_comm x y)
      union_assoc := set_eq (sup_assoc x y z)
      union_self := set_eq (sup_idem x)
      union_intersection_self := set_eq (sup_inf_self (a := x) (b := y))
      union_intersection := set_eq (sup_inf_left x y z)
      union_bottom := set_eq (sup_bot_eq x)
      union_top := set_eq (sup_top_eq x)
      intersection_comm := set_eq (inf_comm x y)
      intersection_assoc := set_eq (inf_assoc x y z)
      intersection_self := set_eq (inf_idem x)
      intersection_union_self := set_eq (inf_sup_self (a := x) (b := y))
      intersection_union := set_eq (inf_sup_left x y z)
      intersection_bottom := set_eq (inf_bot_eq x)
      intersection_top := set_eq (inf_top_eq x)
      complement_complement := set_eq (compl_compl x)
      complement_union := set_eq (compl_sup (a := x) (b := y))
      complement_intersection := set_eq (compl_inf (x := x) (y := y))
      intersection_complement := set_eq (inf_compl_self x)
      union_complement := set_eq (sup_compl_eq_top (x := x))
      symmetricDifference_comm := set_eq (symmDiff_comm x y)
      symmetricDifference_assoc := set_eq (symmDiff_assoc x y z)
      symmetricDifference_cancel := set_eq (symmDiff_symmDiff_cancel_right y x)
      symmetricDifference_eq := set_eq (symmDiff_eq_sup_sdiff_inf x y)
      difference_eq := set_eq (sdiff_eq (x := x) (y := y))
      isEmpty_difference_iff_union :=
        empty_iff.trans (sup_eq_right.symm.trans ReachableSet.ext_iff)
      isEmpty_difference_iff_intersection :=
        empty_iff.trans (inf_eq_left.symm.trans ReachableSet.ext_iff) }

/-- The letters, the hexadecimal digits, which overlap them, and everything but the letters. -/
theorem Reachable.boolean_laws_of_letters :
    Reachable Predefined.alpha.set ∧ Reachable Predefined.xdigit.set ∧
      Reachable Predefined.alpha.set.complement ∧
      BooleanLaws Predefined.alpha.set Predefined.xdigit.set Predefined.alpha.set.complement :=
  have ha : Reachable Predefined.alpha.set := .built (.predefined .alpha)
  have hb : Reachable Predefined.xdigit.set := .built (.predefined .xdigit)
  ⟨ha, hb, ha.complement, boolean_laws ha hb ha.complement⟩

end CharClass
