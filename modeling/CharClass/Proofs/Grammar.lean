import CharClass.Spec
import CharClass.Proofs.Interval
import CharClass.Proofs.Outcome

/-!
# The grammar of spec strings

A list of items is *settled* when no literal stands right before an item whose text begins with a
hyphen, but for a hyphen that ends the list: this is all that keeps a reader from taking the literal
for the first end of a range. The settled lists are exactly the readings of texts, one for each text
(`items_scan_eq_iff`). So a text compiles just if its settled reading has no descending range, and
the error names the first one otherwise (`compile_eq_ok_iff`, `compile_eq_error_iff`).
-/

namespace CharClass.Spec

/-! ## Valid lists of items -/

/-- The ends of the item do not descend. -/
def Item.Ascends : Item → Prop
  | literal _ => True
  | range c d => c ≤ d

instance : (item : Item) → Decidable item.Ascends
  | .literal _ => inferInstanceAs (Decidable True)
  | .range c d => inferInstanceAs (Decidable (c ≤ d))

/-- The points from the first to the last end of the item. -/
def Item.span : Item → Interval
  | literal c => .single c
  | range c d => ⟨c.toNat, d.toNat⟩

/-- Right behind a literal no item begins with a hyphen, but for the literal hyphen that ends the
list. -/
def Settled : List Item → Prop
  | .literal _ :: next :: rest =>
    (next.render.head? = some '-' → next = .literal '-' ∧ rest = []) ∧ Settled (next :: rest)
  | .range _ _ :: rest => Settled rest
  | [.literal _] | [] => True

instance decidableSettled : (items : List Item) → Decidable (Settled items)
  | .literal _ :: next :: rest =>
    have := decidableSettled (next :: rest)
    inferInstanceAs (Decidable (_ ∧ _))
  | .range _ _ :: rest => decidableSettled rest
  | [.literal _] | [] => inferInstanceAs (Decidable True)

/-- The items of a text that compiles. -/
structure Valid (items : List Item) : Prop where
  settled : Settled items
  ascends : ∀ item ∈ items, item.Ascends

/-- The text of the items, one after the other. -/
def render (items : List Item) : String := .ofList (items.flatMap Item.render)

/-- The settled reading of the text starts with items that do not descend, and goes on with the
range from `c` down to `d`. -/
def DescendsFirst (text : String) (c d : Char) : Prop :=
  ∃ before rest, text.toList = before.flatMap Item.render ++ c :: '-' :: d :: rest ∧
    Settled (before ++ [.range c d]) ∧ (∀ item ∈ before, item.Ascends) ∧ d < c

/-! ## One reading for each text -/

theorem Item.render_ne_nil (item : Item) : item.render ≠ [] := by
  cases item <;> simp [render]

theorem flatMap_render_map_literal (cs : List Char) :
    (cs.map Item.literal).flatMap Item.render = cs := by
  rw [List.flatMap_map]
  exact List.flatMap_singleton' cs

theorem head?_flatMap_render_cons (item : Item) (items : List Item) :
    ((item :: items).flatMap Item.render).head? = item.render.head? := by
  rw [List.flatMap_cons]
  exact List.head?_append_of_ne_nil _ item.render_ne_nil

/-- A character that no hyphen follows is read as a literal. -/
theorem scan_cons_of_head? {c : Char} {cs : List Char} (h : cs.head? ≠ some '-') :
    scan (c :: cs) = (scan cs).cons (.literal c) := by
  cases cs with
  | nil => rfl
  | cons x cs =>
    have hx : x ≠ '-' := by simpa using h
    rw [scan]
    · intro heq
      exact hx (List.cons.inj heq).1
    · intro d rest heq
      exact hx (List.cons.inj heq).1

/-- The two forms of a text that starts with a hyphen. Where the reader takes a literal it has met
neither. -/
theorem head?_ne_hyphen {cs : List Char} (hend : cs = ['-'] → False)
    (hrange : ∀ d rest, cs = '-' :: d :: rest → False) : cs.head? ≠ some '-' := by
  intro hhead
  obtain ⟨tail, rfl⟩ := List.head?_eq_some_iff.1 hhead
  cases tail with
  | nil => exact hend rfl
  | cons d rest => exact hrange d rest rfl

theorem settled_literal_cons {c : Char} {items : List Item} (h : Settled items)
    (hhead : (items.flatMap Item.render).head? ≠ some '-') : Settled (.literal c :: items) := by
  cases items with
  | nil => trivial
  | cons next rest =>
    rw [head?_flatMap_render_cons] at hhead
    exact ⟨fun hhyphen => absurd hhyphen hhead, h⟩

/-- Items of which none begins with a hyphen are settled. -/
theorem settled_of_head?_ne {items : List Item}
    (h : ∀ item ∈ items, item.render.head? ≠ some '-') : Settled items := by
  induction items with
  | nil => trivial
  | cons item items ih =>
    obtain ⟨-, hitems⟩ := List.forall_mem_cons.1 h
    cases item with
    | range c d => exact ih hitems
    | literal c =>
      cases items with
      | nil => trivial
      | cons next rest =>
        exact ⟨fun hhyphen => absurd hhyphen (hitems next List.mem_cons_self), ih hitems⟩

/-- Whatever a text is, its reading is settled. -/
theorem settled_scan (cs : List Char) : Settled (scan cs).items := by
  fun_induction scan cs with
  | case1 => trivial
  | case2 c => exact ⟨fun _ => ⟨rfl, rfl⟩, trivial⟩
  | case3 c d rest ih => exact ih
  | case4 c rest hend hrange ih =>
    refine settled_literal_cons ih ?_
    rw [flatMap_render_scan]
    exact head?_ne_hyphen hend hrange

/-- A hyphen that closes a text is one of its items. -/
theorem literal_hyphen_mem_of_closingHyphen {cs : List Char} (h : (scan cs).closingHyphen = true) :
    .literal '-' ∈ (scan cs).items := by
  fun_induction scan cs with
  | case1 => cases h
  | case2 c => simp
  | case3 c d rest ih => exact List.mem_cons_of_mem _ (ih h)
  | case4 c rest hend hrange ih => exact List.mem_cons_of_mem _ (ih h)

/-- The reading of the text of settled items is these items. -/
theorem items_scan_render {items : List Item} (h : Settled items) :
    (scan (items.flatMap Item.render)).items = items := by
  induction items with
  | nil => rfl
  | cons item items ih =>
    cases item with
    | range c d => exact congrArg (Item.range c d :: ·) (ih h)
    | literal c =>
      cases items with
      | nil => rfl
      | cons next rest =>
        obtain ⟨hhyphen, hrest⟩ := h
        by_cases hnext : next.render.head? = some '-'
        · -- the only hyphen that may follow ends the text
          obtain ⟨rfl, rfl⟩ := hhyphen hnext
          rfl
        · have hhead : ((next :: rest).flatMap Item.render).head? ≠ some '-' := by
            rwa [head?_flatMap_render_cons]
          rw [List.flatMap_cons]
          change (scan (c :: (next :: rest).flatMap Item.render)).items = _
          rw [scan_cons_of_head? hhead]
          exact congrArg (Item.literal c :: ·) (ih hrest)

/-- The settled lists are the readings: one for each text. -/
theorem items_scan_eq_iff {cs : List Char} {items : List Item} :
    (scan cs).items = items ↔ Settled items ∧ items.flatMap Item.render = cs := by
  constructor
  · rintro rfl
    exact ⟨settled_scan cs, flatMap_render_scan cs⟩
  · rintro ⟨h, rfl⟩
    exact items_scan_render h

/-- Behind a range everything starts anew. -/
theorem settled_append_range_cons {before after : List Item} {c d : Char} :
    Settled (before ++ .range c d :: after) ↔ Settled (before ++ [.range c d]) ∧ Settled after := by
  induction before with
  | nil => simp [Settled]
  | cons item before ih =>
    cases item with
    | range a b => exact ih
    | literal a =>
      cases before with
      | nil => simp [Settled]
      | cons next before =>
        simp only [List.cons_append, Settled] at ih ⊢
        rw [ih, and_assoc]
        simp

/-! ## Compiling -/

theorem Item.interval_eq_ok_iff {item : Item} {i : Interval} :
    item.interval = .ok i ↔ item.Ascends ∧ item.span = i := by
  cases item with
  | literal c => simp [interval, Ascends, span]
  | range c d =>
    constructor
    · intro h
      obtain ⟨rfl, hle, -⟩ := Interval.make_eq_ok_iff.1 h
      exact ⟨UInt32.le_iff_toNat_le.2 hle, rfl⟩
    · rintro ⟨hle, rfl⟩
      exact Interval.between_eq_ok hle

theorem Item.interval_eq_error_iff {item : Item} {e : BoundsError} :
    item.interval = .error e ↔
      ∃ c d, item = .range c d ∧ d < c ∧ e = .descending c.toNat d.toNat := by
  cases item with
  | literal c => simp [interval]
  | range c d =>
    by_cases hle : c ≤ d
    · have hmade : (range c d).interval = .ok ⟨c.toNat, d.toNat⟩ := Interval.between_eq_ok hle
      rw [hmade]
      constructor
      · nofun
      · rintro ⟨a, b, heq, hlt, -⟩
        cases heq
        exact absurd hle (Char.not_le.2 hlt)
    · have hlt : d < c := Char.not_le.1 hle
      have hmade : (range c d).interval = .error (.descending c.toNat d.toNat) :=
        Interval.between_eq_error hlt
      rw [hmade, Except.error.injEq]
      constructor
      · rintro rfl
        exact ⟨c, d, rfl, hlt, rfl⟩
      · rintro ⟨a, b, heq, -, rfl⟩
        cases heq
        rfl

theorem mapM_interval_eq_ok_iff {items : List Item} {is : List Interval} :
    items.mapM Item.interval = .ok is ↔
      (∀ item ∈ items, item.Ascends) ∧ items.map Item.span = is := by
  simp only [mapM_ok_iff, Item.interval_eq_ok_iff]
  rw [List.forall₂_and_left, ← List.forall₂_map_left_iff (R := Eq), List.forall₂_eq_eq_eq]

theorem toList_render (items : List Item) : (render items).toList = items.flatMap Item.render :=
  String.toList_ofList

theorem render_eq_iff {items : List Item} {text : String} :
    render items = text ↔ items.flatMap Item.render = text.toList := by
  rw [← toList_render, String.toList_inj]

/-- A text compiles just if it is the text of valid items, to the points of these items in order. -/
theorem compile_eq_ok_iff {text : String} {is : List Interval} :
    compile text = .ok is ↔
      ∃ items, Valid items ∧ render items = text ∧ items.map Item.span = is := by
  rw [compile, mapM_interval_eq_ok_iff]
  constructor
  · rintro ⟨hasc, hspan⟩
    obtain ⟨hsettled, htext⟩ := items_scan_eq_iff.1 (rfl : (scan text.toList).items = _)
    exact ⟨_, ⟨hsettled, hasc⟩, render_eq_iff.2 htext, hspan⟩
  · rintro ⟨items, hvalid, htext, hspan⟩
    have hscan := items_scan_eq_iff.2 ⟨hvalid.settled, render_eq_iff.1 htext⟩
    rw [hscan]
    exact ⟨hvalid.ascends, hspan⟩

/-- A text that does not compile is refused for its first descending range. -/
theorem compile_eq_error_iff {text : String} {e : BoundsError} :
    compile text = .error e ↔
      ∃ c d, DescendsFirst text c d ∧ e = .descending c.toNat d.toNat := by
  rw [compile, mapM_error_iff]
  constructor
  · rintro ⟨before, item, after, hitems, hbefore, herror⟩
    obtain ⟨c, d, rfl, hlt, rfl⟩ := Item.interval_eq_error_iff.1 herror
    obtain ⟨hsettled, htext⟩ := items_scan_eq_iff.1 hitems
    refine ⟨c, d, ⟨before, after.flatMap Item.render, ?_, ?_, ?_, hlt⟩, rfl⟩
    · rw [← htext, List.flatMap_append, List.flatMap_cons]
      rfl
    · exact (settled_append_range_cons.1 hsettled).1
    · intro x hx
      obtain ⟨i, hi⟩ := hbefore x hx
      exact (Item.interval_eq_ok_iff.1 hi).1
  · rintro ⟨c, d, ⟨before, rest, htext, hsettled, hbefore, hlt⟩, rfl⟩
    have hitems : (scan text.toList).items = before ++ .range c d :: (scan rest).items := by
      refine items_scan_eq_iff.2 ⟨settled_append_range_cons.2 ⟨hsettled, settled_scan rest⟩, ?_⟩
      rw [htext, List.flatMap_append, List.flatMap_cons, flatMap_render_scan]
      rfl
    refine ⟨before, _, _, hitems, fun x hx => ⟨x.span, ?_⟩, ?_⟩
    · exact Item.interval_eq_ok_iff.2 ⟨hbefore x hx, rfl⟩
    · exact Item.interval_eq_error_iff.2 ⟨c, d, rfl, hlt, rfl⟩

theorem Valid.eq_of_render_eq {items items' : List Item} (h : Valid items) (h' : Valid items')
    (heq : render items = render items') : items = items' := by
  have hread := items_scan_eq_iff.2 ⟨h.settled, render_eq_iff.1 heq⟩
  have hread' := items_scan_eq_iff.2 ⟨h'.settled, render_eq_iff.1 rfl⟩
  exact hread.symm.trans hread'

/-- Valid items are read back from their text and compile to their points in order. A text compiles
just if it has a valid reading, and only one. Every other text is refused for its first descending
range. -/
theorem compile_grammar :
    (∀ items, Valid items → compile (render items) = .ok (items.map Item.span)) ∧
      (∀ text, (∃ is, compile text = .ok is) ↔ ∃! items, Valid items ∧ render items = text) ∧
      (∀ text, (¬∃ items, Valid items ∧ render items = text) →
        ∃ c d, DescendsFirst text c d ∧ compile text = .error (.descending c.toNat d.toNat)) ∧
      ∀ text c d, DescendsFirst text c d →
        compile text = .error (.descending c.toNat d.toNat) := by
  refine ⟨fun items h => ?_, fun text => ?_, fun text hnone => ?_, fun text c d h => ?_⟩
  · exact compile_eq_ok_iff.2 ⟨items, h, rfl, rfl⟩
  · constructor
    · rintro ⟨is, his⟩
      obtain ⟨items, hvalid, rfl, -⟩ := compile_eq_ok_iff.1 his
      refine ⟨items, ⟨hvalid, rfl⟩, ?_⟩
      rintro items' ⟨hvalid', heq⟩
      exact hvalid'.eq_of_render_eq hvalid heq
    · rintro ⟨items, ⟨hvalid, htext⟩, -⟩
      exact ⟨_, compile_eq_ok_iff.2 ⟨items, hvalid, htext, rfl⟩⟩
  · cases hcompile : compile text with
    | ok is =>
      obtain ⟨items, hvalid, htext, -⟩ := compile_eq_ok_iff.1 hcompile
      exact absurd ⟨items, hvalid, htext⟩ hnone
    | error e =>
      obtain ⟨c, d, hfirst, rfl⟩ := compile_eq_error_iff.1 hcompile
      exact ⟨c, d, hfirst, rfl⟩
  · exact compile_eq_error_iff.2 ⟨c, d, h, rfl⟩

/-- A hyphen that ends a range, one that ends the text, and one that a letter cannot ascend to. -/
theorem compile_grammar_of_hyphens :
    Valid [.range '+' '-', .literal 'x', .literal '-'] ∧
      compile "+--x-" = .ok [⟨0x2B, 0x2D⟩, ⟨0x78, 0x78⟩, ⟨0x2D, 0x2D⟩] ∧
      DescendsFirst "+--x--y" 'x' '-' ∧ compile "+--x--y" = .error (.descending 0x78 0x2D) := by
  have hvalid : Valid [.range '+' '-', .literal 'x', .literal '-'] := ⟨by decide, by decide⟩
  have htext : render [.range '+' '-', .literal 'x', .literal '-'] = "+--x-" := by decide
  have hok := compile_grammar.1 _ hvalid
  rw [htext] at hok
  have hfirst : DescendsFirst "+--x--y" 'x' '-' :=
    ⟨[.range '+' '-'], ['y'], by decide, by decide, by decide, by decide⟩
  exact ⟨hvalid, hok, hfirst, compile_grammar.2.2.2 _ _ _ hfirst⟩

end CharClass.Spec
