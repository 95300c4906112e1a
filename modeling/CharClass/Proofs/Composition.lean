import CharClass.Proofs.Grammar
import CharClass.Proofs.LastChange

/-!
# Spec strings one after the other

The reader looks two characters ahead, so what follows a text can change how its end is read. Only
two things do: a hyphen that follows, for which the last literal becomes the first end of a range,
and a hyphen that ends the text and was a literal for that. Without them the reading of two texts is
that of the first and then that of the second (`Spec.scan_append`), and the set of both is the
union.

A descending range stands before whatever follows the text. So a text that is refused stays refused,
for the same range (`Spec.DescendsFirst.append`).
-/

namespace CharClass

namespace Spec

/-! ## Readings -/

/-- A text that no closing hyphen ends is read up to its end before a text that starts with no
hyphen. -/
theorem scan_append {cs ds : List Char} (hclosing : (scan cs).closingHyphen = false)
    (hhead : ds.head? ≠ some '-') :
    scan (cs ++ ds) = ⟨(scan cs).items ++ (scan ds).items, (scan ds).closingHyphen⟩ := by
  fun_induction scan cs with
  | case1 => rfl
  | case2 c => cases hclosing
  | case3 c d rest ih => exact congrArg (Scan.cons (.range c d)) (ih hclosing)
  | case4 c rest hend hrange ih =>
    have hrest : rest.head? ≠ some '-' := head?_ne_hyphen hend hrange
    have hnext : (rest ++ ds).head? ≠ some '-' := by
      cases rest with
      | nil => exact hhead
      | cons x rest => exact hrest
    rw [List.cons_append, scan_cons_of_head? hnext, ih hclosing]
    rfl

example : (scan "a-z".toList).items ≠ (scan "a".toList).items ++ (scan "-z".toList).items ∧
    (scan "a-z".toList).items ≠ (scan "a-".toList).items ++ (scan "z".toList).items := by decide

/-! ## Compiling -/

theorem compile_append {a b : String} {is : List Interval} (ha : compile a = .ok is)
    (hclosing : (scan a.toList).closingHyphen = false) (hhead : b.toList.head? ≠ some '-') :
    compile (a ++ b) = (compile b).map (is ++ ·) := by
  have hitems : compile (a ++ b) =
      ((scan a.toList).items ++ (scan b.toList).items).mapM Item.interval := by
    rw [compile, String.toList_append, scan_append hclosing hhead]
  rw [hitems, List.mapM_append]
  change (compile a >>= fun is => compile b >>= fun js => .ok (is ++ js)) = _
  rw [ha]
  cases compile b <;> rfl

/-- The first descending range of a text is that of every text which goes on behind it. -/
theorem DescendsFirst.append {text : String} {c d : Char} (h : DescendsFirst text c d)
    (more : String) : DescendsFirst (text ++ more) c d := by
  obtain ⟨before, rest, htext, hsettled, hbefore, hlt⟩ := h
  refine ⟨before, rest ++ more.toList, ?_, hsettled, hbefore, hlt⟩
  rw [String.toList_append, htext, List.append_assoc]
  rfl

theorem compile_append_of_error {a : String} {e : BoundsError} (ha : compile a = .error e)
    (b : String) : compile (a ++ b) = .error e := by
  obtain ⟨c, d, hfirst, rfl⟩ := compile_eq_error_iff.1 ha
  exact compile_eq_error_iff.2 ⟨c, d, hfirst.append b, rfl⟩

end Spec

namespace PointSet

/-! ## Sets -/

theorem ofList_append {is js : List Interval} (his : ∀ i ∈ is, i.Valid)
    (hjs : ∀ j ∈ js, j.Valid) : ofList (is ++ js) = (ofList is).union (ofList js) := by
  have hfold : ofList (is ++ js) = (ofList is).insertAll js := List.foldl_append
  rw [hfold, (WellFormed.ofList his).insertAll_eq_union hjs]

/-- Where the first text ends in no closing hyphen and the second one starts with none, the
intervals of both texts are those of the first and then those of the second, and the set is the
union. If one of the texts is refused, so are both together: for the first text, whatever follows
it, else for the second. -/
theorem ofSpec_append :
    (∀ (a b : String) (is : List Interval), Spec.compile a = .ok is →
        (Spec.scan a.toList).closingHyphen = false → b.toList.head? ≠ some '-' →
        Spec.compile (a ++ b) = (Spec.compile b).map (is ++ ·) ∧
          (∀ e, Spec.compile b = .error e →
            Spec.compile (a ++ b) = .error e ∧ ofSpec (a ++ b) = .error e) ∧
          ∃ s, ofSpec a = .ok s ∧ ofSpec (a ++ b) = (ofSpec b).map s.union) ∧
      ∀ (a b : String) (e : BoundsError), Spec.compile a = .error e →
        Spec.compile (a ++ b) = .error e ∧ ofSpec (a ++ b) = .error e := by
  constructor
  · intro a b is ha hclosing hhead
    have hboth := Spec.compile_append ha hclosing hhead
    refine ⟨hboth, ?_, ofList is, ?_, ?_⟩
    · intro e hb
      rw [hb] at hboth
      exact ⟨hboth, ofSpec_of_compile_error hboth⟩
    · exact ofSpec_of_compile_ok ha
    · rw [ofSpec, ofSpec, hboth]
      cases hb : Spec.compile b with
      | error e => rfl
      | ok js =>
        have hunion := ofList_append (Spec.valid_of_compile ha) (Spec.valid_of_compile hb)
        exact congrArg Except.ok hunion
  · intro a b e ha
    have hboth := Spec.compile_append_of_error ha b
    exact ⟨hboth, ofSpec_of_compile_error hboth⟩

/-- A hyphen that stands behind a range closes nothing, so another text may follow. A range that
descends is refused behind it, and with whatever follows. -/
theorem ofSpec_append_of_hyphen :
    Spec.compile "a-c-" = .ok [⟨0x61, 0x63⟩, ⟨0x2D, 0x2D⟩] ∧
      (Spec.scan "a-c-".toList).closingHyphen = false ∧
      "x-z".toList.head? ≠ some '-' ∧ "z-a".toList.head? ≠ some '-' ∧
      (∃ s, ofSpec "a-c-" = .ok s ∧ ofSpec ("a-c-" ++ "x-z") = (ofSpec "x-z").map s.union) ∧
      Spec.compile "z-a" = .error (.descending 0x7A 0x61) ∧
      Spec.compile ("a-c-" ++ "z-a") = .error (.descending 0x7A 0x61) ∧
      Spec.compile ("z-a" ++ "-~") = .error (.descending 0x7A 0x61) := by
  have ha : Spec.compile "a-c-" = .ok [⟨0x61, 0x63⟩, ⟨0x2D, 0x2D⟩] := by rfl
  have hclosing : (Spec.scan "a-c-".toList).closingHyphen = false := by decide
  have hhead : "x-z".toList.head? ≠ some '-' := by decide
  have hhead' : "z-a".toList.head? ≠ some '-' := by decide
  have hdesc : Spec.compile "z-a" = .error (.descending 0x7A 0x61) := by rfl
  obtain ⟨happend, hrefused⟩ := ofSpec_append
  exact ⟨ha, hclosing, hhead, hhead', (happend _ _ _ ha hclosing hhead).2.2, hdesc,
    ((happend _ _ _ ha hclosing hhead').2.1 _ hdesc).1, (hrefused _ "-~" _ hdesc).1⟩

end PointSet

end CharClass
