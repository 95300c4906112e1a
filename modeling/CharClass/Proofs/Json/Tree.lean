import CharClass.Json.Parse
import CharClass.Proofs.Outcome

/-!
# Reading a text as a tree

The reader of trees takes fuel, and more fuel than needed changes nothing. So a text has a tree with
the fuel that `parse?` computes from it just if it has one with any fuel at all
(`parse?_eq_some_iff`). What a reader with one more unit of fuel does is said once for each of the
three readers (`read?_succ_iff`, `readElements?_succ_iff`, `readMembers?_succ_iff`); nothing behind
these looks at their definitions.
-/

namespace CharClass.Json

open Cursor

theorem toOption_eq_some_iff {ε α : Type} {x : Except ε α} {a : α} :
    x.toOption = some a ↔ x = .ok a := by
  cases x <;> simp [Except.toOption]

/-! ## One step of each reader -/

namespace Value

/-- How a value is read that starts at `c`, where no blanks are left. -/
inductive ReadAs (fuel : Nat) (c d : Cursor) : Value → Prop
  | null {tail : List Char} (starts : c.rest = 'n' :: tail)
      (h : word ['u', 'l', 'l'] c.advance = .ok d) : ReadAs fuel c d null
  | yes {tail : List Char} (starts : c.rest = 't' :: tail)
      (h : word ['r', 'u', 'e'] c.advance = .ok d) : ReadAs fuel c d (boolean true)
  | no {tail : List Char} (starts : c.rest = 'f' :: tail)
      (h : word ['a', 'l', 's', 'e'] c.advance = .ok d) : ReadAs fuel c d (boolean false)
  | text {tail : List Char} {s : String} (starts : c.rest = '"' :: tail)
      (h : stringBody c.advance = .ok (s, d)) : ReadAs fuel c d (text s)
  | list {tail : List Char} {vs : List Value} {e : Cursor} (starts : c.rest = '[' :: tail)
      (h : readElements? fuel true c.advance = some (vs, e)) (hclose : closeList e = .ok d) :
      ReadAs fuel c d (list vs)
  | object {tail : List Char} {ms : List (String × Value)} (starts : c.rest = '\x7b' :: tail)
      (h : readMembers? fuel true c.advance = some (ms, d)) : ReadAs fuel c d (object ms)
  | number {x : Char} {tail : List Char} {n : Number} (starts : c.rest = x :: tail)
      (hx : startsNumber x = true) (h : Json.number c = .ok (n, d)) : ReadAs fuel c d (number n)

theorem read?_succ_iff {fuel : Nat} {c d : Cursor} {v : Value} :
    read? (fuel + 1) c = some (v, d) ↔ ReadAs fuel c.skipBlanks d v := by
  constructor
  · intro h
    rw [read?] at h
    split at h
    · cases h
    · next starts =>
      obtain ⟨e, hword, heq⟩ := Option.map_eq_some_iff.1 h
      cases heq
      exact .null starts (toOption_eq_some_iff.1 hword)
    · next starts =>
      obtain ⟨e, hword, heq⟩ := Option.map_eq_some_iff.1 h
      cases heq
      exact .yes starts (toOption_eq_some_iff.1 hword)
    · next starts =>
      obtain ⟨e, hword, heq⟩ := Option.map_eq_some_iff.1 h
      cases heq
      exact .no starts (toOption_eq_some_iff.1 hword)
    · next starts =>
      obtain ⟨e, hbody, heq⟩ := Option.map_eq_some_iff.1 h
      cases heq
      exact .text starts (toOption_eq_some_iff.1 hbody)
    · next starts =>
      obtain ⟨⟨vs, e⟩, helements, h⟩ := Option.bind_eq_some_iff.1 h
      obtain ⟨f, hclose, heq⟩ := Option.bind_eq_some_iff.1 h
      cases heq
      exact .list starts helements (toOption_eq_some_iff.1 hclose)
    · next starts =>
      obtain ⟨e, hmembers, heq⟩ := Option.map_eq_some_iff.1 h
      cases heq
      exact .object starts hmembers
    · next starts =>
      split at h
      · next hx =>
        obtain ⟨e, hnumber, heq⟩ := Option.map_eq_some_iff.1 h
        cases heq
        exact .number starts hx (toOption_eq_some_iff.1 hnumber)
      · cases h
  · intro h
    rw [read?]
    cases h with
    | null starts h => simp [starts, h, Except.toOption]
    | yes starts h => simp [starts, h, Except.toOption]
    | no starts h => simp [starts, h, Except.toOption]
    | text starts h => simp [starts, h, Except.toOption]
    | list starts h hclose => simp [starts, h, hclose, Except.toOption]
    | object starts h => simp [starts, h]
    | number starts hx h =>
      -- a number starts with none of the characters that are asked for before
      split
      · next hnil => rw [starts] at hnil; cases hnil
      iterate 6
        · next hother => rw [starts] at hother; cases hother; exact absurd hx (by decide)
      · next hcons =>
        rw [starts] at hcons
        cases hcons
        rw [if_pos hx, h]
        rfl

/-- Reading a value takes fuel, so what was read was read by a step. -/
theorem exists_readAs {fuel : Nat} {c d : Cursor} {v : Value} (h : read? fuel c = some (v, d)) :
    ∃ n, ReadAs n c.skipBlanks d v := by
  cases fuel with
  | zero =>
    rw [read?] at h
    cases h
  | succ n => exact ⟨n, read?_succ_iff.1 h⟩

theorem readElements?_succ_iff {fuel : Nat} {first : Bool} {c d : Cursor} {vs : List Value} :
    readElements? (fuel + 1) first c = some (vs, d) ↔
      (nextElement first c = .ok (false, d) ∧ vs = []) ∨
        ∃ e f v ws, nextElement first c = .ok (true, e) ∧ read? fuel e = some (v, f) ∧
          readElements? fuel false f = some (ws, d) ∧ vs = v :: ws := by
  rw [readElements?]
  constructor
  · intro h
    obtain ⟨⟨more, e⟩, hnext, h⟩ := Option.bind_eq_some_iff.1 h
    have hnext := toOption_eq_some_iff.1 hnext
    cases more with
    | false =>
      cases h
      exact .inl ⟨hnext, rfl⟩
    | true =>
      obtain ⟨⟨v, f⟩, hv, h⟩ := Option.bind_eq_some_iff.1 h
      obtain ⟨⟨ws, g⟩, hws, h⟩ := Option.bind_eq_some_iff.1 h
      cases h
      exact .inr ⟨e, f, v, ws, hnext, hv, hws, rfl⟩
  · rintro (⟨hnext, rfl⟩ | ⟨e, f, v, ws, hnext, hv, hws, rfl⟩)
    · rw [hnext]
      rfl
    · simp [hnext, hv, hws, Except.toOption]

theorem exists_succ_of_readElements? {fuel : Nat} {first : Bool} {c d : Cursor} {vs : List Value}
    (h : readElements? fuel first c = some (vs, d)) : ∃ n, fuel = n + 1 := by
  cases fuel with
  | zero =>
    rw [readElements?] at h
    cases h
  | succ n => exact ⟨n, rfl⟩

theorem readMembers?_succ_iff {fuel : Nat} {first : Bool} {c d : Cursor}
    {ms : List (String × Value)} :
    readMembers? (fuel + 1) first c = some (ms, d) ↔
      (∃ e, nextMember? first c = some (false, e) ∧ d = e.advance ∧ ms = []) ∨
        ∃ e f g k name v ns, nextMember? first c = some (true, e) ∧
          stringBody e.advance = .ok (name, f) ∧ colon? f = some g ∧ read? fuel g = some (v, k) ∧
            readMembers? fuel false k = some (ns, d) ∧ ms = (name, v) :: ns := by
  rw [readMembers?]
  constructor
  · intro h
    obtain ⟨⟨more, e⟩, hnext, h⟩ := Option.bind_eq_some_iff.1 h
    cases more with
    | false =>
      cases h
      exact .inl ⟨e, hnext, rfl, rfl⟩
    | true =>
      obtain ⟨⟨name, f⟩, hname, h⟩ := Option.bind_eq_some_iff.1 h
      obtain ⟨g, hcolon, h⟩ := Option.bind_eq_some_iff.1 h
      obtain ⟨⟨v, k⟩, hv, h⟩ := Option.bind_eq_some_iff.1 h
      obtain ⟨⟨ns, l⟩, hns, h⟩ := Option.bind_eq_some_iff.1 h
      cases h
      exact .inr
        ⟨e, f, g, k, name, v, ns, hnext, toOption_eq_some_iff.1 hname, hcolon, hv, hns, rfl⟩
  · rintro (⟨e, hnext, rfl, rfl⟩ | ⟨e, f, g, k, name, v, ns, hnext, hname, hcolon, hv, hns, rfl⟩)
    · simp [hnext]
    · simp [hnext, hname, hcolon, hv, hns, Except.toOption]

end Value

/-! ## Reading takes characters -/

theorem length_word_le {letters : List Char} {c d : Cursor} (h : word letters c = .ok d) :
    d.rest.length ≤ c.rest.length := by
  fun_induction word letters c with
  | case1 c =>
    cases h
    exact Nat.le_refl _
  | case2 => cases h
  | case3 letters c y tail starts ih => exact Nat.le_trans (ih h) (length_advance_le c)
  | case4 => cases h

theorem length_stringFrom_le {read : List Char} {c d : Cursor} {s : String}
    (h : stringFrom read c = .ok (s, d)) : d.rest.length ≤ c.rest.length := by
  fun_induction stringFrom read c with
  | case1 => cases h
  | case2 read c tail starts =>
    cases h
    exact length_advance_le c
  | case3 => cases h
  | case4 read c tail starts x e taken _ hadvance ih =>
    have := length_escape_lt taken
    have := ih h
    omega
  | case5 => cases h
  | case6 read c x tail _ _ starts hlt _ ih => exact Nat.le_trans (ih h) (length_advance_le c)

namespace Value

theorem length_nextMember?_le {first more : Bool} {c d : Cursor}
    (h : nextMember? first c = some (more, d)) : d.rest.length ≤ c.rest.length := by
  have blanks := length_skipBlanks_le c
  have comma := length_advance_le c.skipBlanks
  have behind := length_skipBlanks_le c.skipBlanks.advance
  unfold nextMember? at h
  dsimp only at h
  repeat' split at h
  all_goals cases h
  all_goals omega

theorem length_colon?_le {c d : Cursor} (h : colon? c = some d) :
    d.rest.length ≤ c.rest.length := by
  have blanks := length_skipBlanks_le c
  have colon := length_advance_le c.skipBlanks
  unfold colon? at h
  dsimp only at h
  split at h <;> cases h
  omega

/-! ## Enough fuel -/

/-- What is read with this fuel takes characters, and is read with any fuel that the text is
worth. -/
structure Sound (fuel : Nat) : Prop where
  value : ∀ {c d : Cursor} {v : Value}, read? fuel c = some (v, d) →
    d.rest.length < c.rest.length ∧
      ∀ {more : Nat}, 2 * c.rest.length ≤ more → read? more c = some (v, d)
  elements : ∀ {first : Bool} {c d : Cursor} {vs : List Value},
    readElements? fuel first c = some (vs, d) → d.rest.length ≤ c.rest.length ∧
      ∀ {more : Nat}, 2 * c.rest.length < more → readElements? more first c = some (vs, d)
  members : ∀ {first : Bool} {c d : Cursor} {ms : List (String × Value)},
    readMembers? fuel first c = some (ms, d) → d.rest.length ≤ c.rest.length ∧
      ∀ {more : Nat}, 2 * c.rest.length < more → readMembers? more first c = some (ms, d)

namespace Sound

variable {fuel : Nat} {c d : Cursor}

theorem readAs (hs : Sound fuel) {v : Value} (h : ReadAs fuel c d v) :
    d.rest.length < c.rest.length ∧
      ∀ {more : Nat}, 2 * c.rest.length ≤ more + 1 → ReadAs more c d v := by
  have hstep : ∀ {x : Char} {tail : List Char}, c.rest = x :: tail →
      c.advance.rest.length < c.rest.length := fun starts => length_advance_lt (by simp [starts])
  cases h with
  | null starts h =>
    exact ⟨Nat.lt_of_le_of_lt (length_word_le h) (hstep starts), fun _ => .null starts h⟩
  | yes starts h =>
    exact ⟨Nat.lt_of_le_of_lt (length_word_le h) (hstep starts), fun _ => .yes starts h⟩
  | no starts h =>
    exact ⟨Nat.lt_of_le_of_lt (length_word_le h) (hstep starts), fun _ => .no starts h⟩
  | text starts h =>
    exact ⟨Nat.lt_of_le_of_lt (length_stringFrom_le h) (hstep starts), fun _ => .text starts h⟩
  | list starts h hclose =>
    have hlt := hstep starts
    obtain ⟨hle, hmore⟩ := hs.elements h
    have := length_closeList_le hclose
    exact ⟨by omega, fun hfuel => .list starts (hmore (by omega)) hclose⟩
  | object starts h =>
    have hlt := hstep starts
    obtain ⟨hle, hmore⟩ := hs.members h
    exact ⟨by omega, fun hfuel => .object starts (hmore (by omega))⟩
  | number starts hx h => exact ⟨length_number_lt h, fun _ => .number starts hx h⟩

theorem succ (hs : Sound fuel) : Sound (fuel + 1) where
  value {c d v} h := by
    obtain ⟨hlt, hmore⟩ := hs.readAs (read?_succ_iff.1 h)
    have hblanks := length_skipBlanks_le c
    refine ⟨by omega, fun {more} hfuel => ?_⟩
    obtain ⟨more, rfl⟩ : ∃ n, more = n + 1 := ⟨more - 1, by omega⟩
    exact read?_succ_iff.2 (hmore (by omega))
  elements {first c d vs} h := by
    rcases readElements?_succ_iff.1 h with ⟨hnext, rfl⟩ | ⟨e, f, v, ws, hnext, hv, hws, rfl⟩
    · refine ⟨length_nextElement_le hnext, fun {more} hfuel => ?_⟩
      obtain ⟨more, rfl⟩ : ∃ n, more = n + 1 := ⟨more - 1, by omega⟩
      exact readElements?_succ_iff.2 (.inl ⟨hnext, rfl⟩)
    · have hle := length_nextElement_le hnext
      obtain ⟨hvlt, hvmore⟩ := hs.value hv
      obtain ⟨hwle, hwmore⟩ := hs.elements hws
      refine ⟨by omega, fun {more} hfuel => ?_⟩
      obtain ⟨more, rfl⟩ : ∃ n, more = n + 1 := ⟨more - 1, by omega⟩
      exact readElements?_succ_iff.2
        (.inr ⟨e, f, v, ws, hnext, hvmore (by omega), hwmore (by omega), rfl⟩)
  members {first c d ms} h := by
    rcases readMembers?_succ_iff.1 h with
      ⟨e, hnext, rfl, rfl⟩ | ⟨e, f, g, k, name, v, ns, hnext, hname, hcolon, hv, hns, rfl⟩
    · have hle := length_nextMember?_le hnext
      refine ⟨Nat.le_trans (length_advance_le e) hle, fun {more} hfuel => ?_⟩
      obtain ⟨more, rfl⟩ : ∃ n, more = n + 1 := ⟨more - 1, by omega⟩
      exact readMembers?_succ_iff.2 (.inl ⟨e, hnext, rfl, rfl⟩)
    · have hle := length_nextMember?_le hnext
      have hquote := length_advance_le e
      have hname' := length_stringFrom_le hname
      have hcolon' := length_colon?_le hcolon
      obtain ⟨hvlt, hvmore⟩ := hs.value hv
      obtain ⟨hnle, hnmore⟩ := hs.members hns
      refine ⟨by omega, fun {more} hfuel => ?_⟩
      obtain ⟨more, rfl⟩ : ∃ n, more = n + 1 := ⟨more - 1, by omega⟩
      exact readMembers?_succ_iff.2 (.inr ⟨e, f, g, k, name, v, ns, hnext, hname, hcolon,
        hvmore (by omega), hnmore (by omega), rfl⟩)

end Sound

theorem sound (fuel : Nat) : Sound fuel := by
  induction fuel with
  | zero =>
    constructor
    · intro c d v h
      rw [read?] at h
      cases h
    · intro first c d vs h
      rw [readElements?] at h
      cases h
    · intro first c d ms h
      rw [readMembers?] at h
      cases h
  | succ fuel ih => exact ih.succ

/-- A text has the tree that is read with any fuel. -/
theorem parse?_eq_some_iff {text : String} {v : Value} :
    parse? text = some v ↔
      ∃ fuel d, read? fuel (.ofString text) = some (v, d) ∧ expectEnd d = .ok () := by
  unfold parse?
  constructor
  · intro h
    obtain ⟨⟨w, d⟩, hread, h⟩ := Option.bind_eq_some_iff.1 h
    obtain ⟨_, hend, h⟩ := Option.bind_eq_some_iff.1 h
    cases h
    exact ⟨_, d, hread, toOption_eq_some_iff.1 hend⟩
  · rintro ⟨fuel, d, hread, hend⟩
    have hread := ((sound fuel).value hread).2
      (Nat.le_add_right (2 * (Cursor.ofString text).rest.length) 2)
    simp only [hread, hend, Except.toOption, bind, Option.bind]

end Value

end CharClass.Json
