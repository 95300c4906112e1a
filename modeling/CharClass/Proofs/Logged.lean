import CharClass.Spec.Logged
import CharClass.Proofs.Construction
import CharClass.Proofs.Grammar

/-!
# What the log of a reading tells

A reading that is refused reports the refusal and nothing else. Any other reports the set that it
gives, last, and before it the hyphen that ends the text if it is read as a literal for that. The
turns give and report what the scan of the text from their index on tells (`Spec.run_turns`), so
whether the hyphen is reported depends on how the whole text is scanned: it is, unless the hyphen or
the character before it is the last end of a range (`Spec.closingHyphen_scan_iff`).
-/

namespace CharClass.Spec

/-! ## The hyphen that ends a text -/

/-- The character `k` of the text that the items make up is the last end of a range. -/
def EndsRange (items : List Item) (k : Nat) : Prop :=
  ∃ before c d after, items = before ++ .range c d :: after ∧
    k = (before.flatMap Item.render).length + 2

theorem EndsRange.exists_mem {items : List Item} {k : Nat} (h : EndsRange items k) :
    ∃ c d, .range c d ∈ items := by
  obtain ⟨before, c, d, after, rfl, -⟩ := h
  exact ⟨c, d, List.mem_append_right _ List.mem_cons_self⟩

theorem endsRange_cons_iff {item : Item} {items : List Item} {k : Nat} :
    EndsRange (item :: items) k ↔
      (∃ c d, item = .range c d ∧ k = 2) ∨ ∃ j, EndsRange items j ∧ k = item.render.length + j := by
  constructor
  · rintro ⟨before, c, d, after, hitems, hk⟩
    cases before with
    | nil =>
      obtain ⟨rfl, -⟩ := List.cons.inj hitems
      exact .inl ⟨c, d, rfl, hk⟩
    | cons x before =>
      obtain ⟨rfl, hrest⟩ := List.cons.inj hitems
      refine .inr ⟨_, ⟨before, c, d, after, hrest, rfl⟩, ?_⟩
      rw [hk, List.flatMap_cons, List.length_append, Nat.add_assoc]
  · rintro (⟨c, d, rfl, rfl⟩ | ⟨j, ⟨before, c, d, after, rfl, rfl⟩, rfl⟩)
    · exact ⟨[], c, d, items, rfl, rfl⟩
    · refine ⟨item :: before, c, d, after, rfl, ?_⟩
      rw [List.flatMap_cons, List.length_append, Nat.add_assoc]

/-- Behind the text of the first item the others count. -/
theorem endsRange_cons_add {item : Item} {items : List Item} {k : Nat} :
    EndsRange (item :: items) (item.render.length + k) ↔ EndsRange items k := by
  rw [endsRange_cons_iff]
  constructor
  · rintro (⟨c, d, rfl, hk⟩ | ⟨j, hj, hk⟩)
    · have hlength : (Item.range c d).render.length = 3 := rfl
      omega
    · obtain rfl : k = j := Nat.add_left_cancel hk
      exact hj
  · intro h
    exact .inr ⟨k, h, rfl⟩

/-- The text ends in a hyphen, another character stands before it, and neither of the two is the
last end of a range in the scan. -/
structure FreeHyphen (cs : List Char) : Prop where
  two_le_length : 2 ≤ cs.length
  getLast? : cs.getLast? = some '-'
  hyphen : ¬EndsRange (scan cs).items (cs.length - 1)
  before : ¬EndsRange (scan cs).items (cs.length - 2)

theorem freeHyphen_iff {cs : List Char} {n : Nat} (hlen : cs.length = n + 2) :
    FreeHyphen cs ↔ cs.getLast? = some '-' ∧ ¬EndsRange (scan cs).items (n + 1) ∧
      ¬EndsRange (scan cs).items n := by
  have hlast : cs.length - 1 = n + 1 := by omega
  have hbefore : cs.length - 2 = n := by omega
  constructor
  · rintro ⟨-, hhyphen, h, h'⟩
    exact ⟨hhyphen, hlast ▸ h, hbefore ▸ h'⟩
  · rintro ⟨hhyphen, h, h'⟩
    exact ⟨by omega, hhyphen, hlast.symm ▸ h, hbefore.symm ▸ h'⟩

/-- A turn of the scan moves the end of the text and the ends of the ranges by the same number of
characters. Only a text of less than two characters behind the item has to be looked at. -/
theorem freeHyphen_append_iff {item : Item} {rest : List Char}
    (hscan : scan (item.render ++ rest) = (scan rest).cons item)
    (hshort : rest.length < 2 → ¬FreeHyphen (item.render ++ rest)) :
    FreeHyphen (item.render ++ rest) ↔ FreeHyphen rest := by
  by_cases hlen : rest.length < 2
  · refine iff_of_false (hshort hlen) (fun h => ?_)
    exact Nat.not_le.2 hlen h.two_le_length
  · obtain ⟨n, hn⟩ : ∃ n, rest.length = n + 2 := ⟨rest.length - 2, by omega⟩
    have hn' : (item.render ++ rest).length = item.render.length + n + 2 := by
      rw [List.length_append, hn, Nat.add_assoc]
    have hne : rest ≠ [] := List.ne_nil_of_length_eq_add_one hn
    rw [freeHyphen_iff hn, freeHyphen_iff hn', hscan, List.getLast?_append_of_ne_nil _ hne,
      Scan.cons, Nat.add_assoc, endsRange_cons_add, endsRange_cons_add]

theorem closingHyphen_scan_iff {cs : List Char} :
    (scan cs).closingHyphen = true ↔ FreeHyphen cs := by
  fun_induction scan cs with
  | case1 =>
    refine iff_of_false Bool.false_ne_true (fun h => ?_)
    exact absurd h.two_le_length (by simp)
  | case2 c =>
    have hnone : ∀ k, ¬EndsRange [.literal c, .literal '-'] k := by
      intro k h
      obtain ⟨a, b, hmem⟩ := h.exists_mem
      simp at hmem
    exact iff_of_true rfl ⟨Nat.le_refl _, rfl, hnone _, hnone _⟩
  | case3 c d rest ih =>
    -- the range ends right before the text behind it, which is too short to have a free hyphen of
    -- its own
    have hend : EndsRange (scan (c :: '-' :: d :: rest)).items 2 := ⟨[], c, d, _, rfl, rfl⟩
    have hshort : rest.length < 2 → ¬FreeHyphen (c :: '-' :: d :: rest) := by
      intro hlen h
      obtain hnil | hone : rest.length = 0 ∨ rest.length = 1 := by omega
      · refine h.hyphen ?_
        simpa [hnil] using hend
      · refine h.before ?_
        simpa [hone] using hend
    have hturn : FreeHyphen ((Item.range c d).render ++ rest) ↔ FreeHyphen rest :=
      freeHyphen_append_iff rfl hshort
    exact ih.trans hturn.symm
  | case4 c rest hend hrange ih =>
    have hhead : rest.head? ≠ some '-' := head?_ne_hyphen hend hrange
    have hshort : rest.length < 2 → ¬FreeHyphen (c :: rest) := by
      intro hlen h
      cases rest with
      | nil => exact absurd h.two_le_length (by simp)
      | cons x tail =>
        have hnone : tail.length = 0 := Nat.lt_one_iff.1 (Nat.lt_of_succ_lt_succ hlen)
        obtain rfl : tail = [] := List.length_eq_zero_iff.1 hnone
        exact hhead h.getLast?
    have hturn : FreeHyphen ((Item.literal c).render ++ rest) ↔ FreeHyphen rest :=
      freeHyphen_append_iff (scan_cons_of_head? hhead) hshort
    exact ih.trans hturn.symm

example : ["a-", "a-c-", "+--", "---", "----"].map (fun text => (scan text.toList).closingHyphen) =
    [true, false, false, false, false] := by decide

/-! ## The turns -/

/-- What is given and reported for a scanned text: its intervals, and its closing hyphen if there is
one, or the first range that descends and nothing else. -/
def Scan.told (spec : String) (s : Scan) : Except BoundsError (List Interval) × List Event :=
  match s.items.mapM Item.interval with
  | .error reason => (.error reason, [.rejected spec reason])
  | .ok is => (.ok is, if s.closingHyphen then [.closingHyphen spec] else [])

section
variable {spec : String} {item : Item} {s : Scan}

theorem Scan.told_cons_of_ok {r : Interval} (h : item.interval = .ok r) :
    (s.cons item).told spec = ((s.told spec).1.map (r :: ·), (s.told spec).2) := by
  have hitems : (s.cons item).items.mapM Item.interval =
      (s.items.mapM Item.interval).map (r :: ·) := by
    change (item :: s.items).mapM Item.interval = _
    rw [List.mapM_cons, h]
    cases s.items.mapM Item.interval <;> rfl
  rw [told, told, hitems]
  cases s.items.mapM Item.interval <;> rfl

theorem Scan.told_cons_of_error {reason : BoundsError} (h : item.interval = .error reason) :
    (s.cons item).told spec = (.error reason, [.rejected spec reason]) := by
  have hitems : (s.cons item).items.mapM Item.interval = .error reason := by
    change (item :: s.items).mapM Item.interval = _
    rw [List.mapM_cons, h]
    rfl
  rw [told, hitems]

end

theorem drop_eq_cons_of_getElem? {cs : List Char} {i : Nat} {c : Char} (h : cs[i]? = some c) :
    cs.drop i = c :: cs.drop (i + 1) := by
  obtain ⟨hi, rfl⟩ := List.getElem?_eq_some_iff.1 h
  exact List.drop_eq_getElem_cons hi

/-- Where a hyphen and one more character follow, the scan takes the three for a range. -/
theorem scan_drop_of_range {cs : List Char} {i : Nat} {d : Char} (inside : i < cs.length)
    (hhyphen : cs[i + 1]? = some '-') (hd : cs[i + 2]? = some d) :
    scan (cs.drop i) = (scan (cs.drop (i + 3))).cons (.range cs[i] d) := by
  rw [List.drop_eq_getElem_cons inside, drop_eq_cons_of_getElem? hhyphen,
    drop_eq_cons_of_getElem? hd]
  rfl

theorem map_append_map_cons {ε α : Type} (x : Except ε (List α)) (made : List α) (a : α) :
    (x.map (a :: ·)).map (made ++ ·) = x.map (made ++ [a] ++ ·) := by
  cases x with
  | error e => rfl
  | ok is => simp [Except.map]

/-- The turns from a character on give and report what the scan of the text from there on tells,
behind what was made and reported before. -/
theorem run_turns (spec : String) (cs : List Char) (i : Nat) (made : List Interval) :
    ∀ log, (turns spec cs i made).run.run log =
      (((scan (cs.drop i)).told spec).1.map (made ++ ·),
        log ++ ((scan (cs.drop i)).told spec).2) := by
  -- on the turns: those behind a turn start with one more interval made, which is the item they
  -- stand behind
  fun_induction turns spec cs i made with
  | case1 i made inside hhyphen d hd r hr ih =>
    intro log
    have hitem : (Item.range cs[i] d).interval = .ok r := hr
    rw [scan_drop_of_range inside hhyphen hd, Scan.told_cons_of_ok hitem, map_append_map_cons]
    exact ih log
  | case2 i made inside hhyphen d hd reason hr =>
    intro log
    have hitem : (Item.range cs[i] d).interval = .error reason := hr
    rw [scan_drop_of_range inside hhyphen hd, Scan.told_cons_of_error hitem]
    rfl
  | case3 i made inside hhyphen hd =>
    intro log
    have hdrop : cs.drop i = [cs[i], '-'] := by
      rw [List.drop_eq_getElem_cons inside, drop_eq_cons_of_getElem? hhyphen,
        List.drop_eq_nil_of_le (List.getElem?_eq_none_iff.1 hd)]
    rw [hdrop]
    rfl
  | case4 i made inside hhyphen ih =>
    intro log
    have hhead : (cs.drop (i + 1)).head? ≠ some '-' := by
      rw [List.head?_drop]
      exact hhyphen
    have hscan : scan (cs.drop i) = (scan (cs.drop (i + 1))).cons (.literal cs[i]) := by
      rw [List.drop_eq_getElem_cons inside, scan_cons_of_head? hhead]
    have hitem : (Item.literal cs[i]).interval = .ok (.single cs[i]) := rfl
    rw [hscan, Scan.told_cons_of_ok hitem, map_append_map_cons]
    exact ih log
  | case5 i made outside =>
    intro log
    rw [List.drop_eq_nil_of_le (Nat.le_of_not_lt outside)]
    change (Except.ok made, log) = (Except.ok (made ++ []), log ++ [])
    rw [List.append_nil, List.append_nil]

/-! ## The log -/

theorem logged_of_error {spec : String} {reason : BoundsError} {log : List Event}
    (h : (turns spec spec.toList 0 []).run.run [] = (.error reason, log)) :
    logged spec = (.error reason, log) := by
  unfold logged read
  rw [ExceptT.run_bind, StateT.run_bind, h]
  rfl

/-- The set is collected and reported behind the last turn. -/
theorem logged_of_ok {spec : String} {is : List Interval} {log : List Event}
    (h : (turns spec spec.toList 0 []).run.run [] = (.ok is, log)) :
    logged spec = (.ok (.ofList is), log ++ [.compiled spec (.ofList is)]) := by
  unfold logged read
  rw [ExceptT.run_bind, StateT.run_bind, h]
  rfl

/-- Reported where it happens, or told from the outcome and the scan: the events are the same. -/
theorem logged_eq (spec : String) : logged spec = (PointSet.ofSpec spec, trace spec) := by
  have hturns := run_turns spec spec.toList 0 [] []
  rw [List.drop_zero, Scan.told] at hturns
  cases hcompile : (scan spec.toList).items.mapM Item.interval with
  | error reason =>
    rw [hcompile] at hturns
    have hspec : PointSet.ofSpec spec = .error reason :=
      PointSet.ofSpec_of_compile_error hcompile
    rw [logged_of_error hturns, trace, hspec]
    rfl
  | ok is =>
    rw [hcompile] at hturns
    have hspec : PointSet.ofSpec spec = .ok (.ofList is) :=
      PointSet.ofSpec_of_compile_ok hcompile
    rw [logged_of_ok hturns, trace, hspec]
    cases (scan spec.toList).closingHyphen <;> rfl

/-- A reading that is refused reports just that, with the reason it gives. One that gives a set
reports the set, with the number and the text of its intervals, and before it the hyphen that ends
the text, just if this hyphen is free. The hyphen is never reported beside a refusal. The messages
are these whatever way of quoting the text they are written with. -/
theorem log_matches_outcome (quote : String → String) (spec : String) :
    logged spec = (PointSet.ofSpec spec, trace spec) ∧
      ((∃ reason, logged spec = (.error reason, [.rejected spec reason]) ∧
          (trace spec).map (Event.message quote) =
            ["rejecting spec " ++ quote spec ++ ": " ++ reason.message]) ∨
        (∃ set, FreeHyphen spec.toList ∧
          logged spec = (.ok set, [.closingHyphen spec, .compiled spec set]) ∧
          (trace spec).map (Event.message quote) =
            ["spec " ++ quote spec ++ " ends in '-', treating it as a literal",
              "compiled spec " ++ quote spec ++ " into " ++ Nat.repr set.intervalCount ++
                " range(s): " ++ set.text]) ∨
        ∃ set, ¬FreeHyphen spec.toList ∧ logged spec = (.ok set, [.compiled spec set]) ∧
          (trace spec).map (Event.message quote) =
            ["compiled spec " ++ quote spec ++ " into " ++ Nat.repr set.intervalCount ++
              " range(s): " ++ set.text]) ∧
      ∀ reason, ¬(.closingHyphen spec ∈ trace spec ∧ .rejected spec reason ∈ trace spec) := by
  rw [logged_eq]
  refine ⟨rfl, ?_⟩
  cases hspec : PointSet.ofSpec spec with
  | error reason =>
    have htrace : trace spec = [.rejected spec reason] := by
      rw [trace, hspec]
    rw [htrace]
    refine ⟨.inl ⟨reason, rfl, rfl⟩, ?_⟩
    intro other h
    simpa using h.1
  | ok set =>
    by_cases hfree : FreeHyphen spec.toList
    · have htrace : trace spec = [.closingHyphen spec, .compiled spec set] := by
        rw [trace, hspec, closingHyphen_scan_iff.2 hfree]
        rfl
      rw [htrace]
      refine ⟨.inr (.inl ⟨set, hfree, rfl, rfl⟩), ?_⟩
      intro other h
      simpa using h.2
    · have hclosing : (scan spec.toList).closingHyphen = false :=
        Bool.eq_false_iff.2 (mt closingHyphen_scan_iff.1 hfree)
      have htrace : trace spec = [.compiled spec set] := by
        rw [trace, hspec, hclosing]
        rfl
      rw [htrace]
      refine ⟨.inr (.inr ⟨set, hfree, rfl, rfl⟩), ?_⟩
      intro other h
      simpa using h.2

end CharClass.Spec
