import CharClass.Proofs.Construction
import CharClass.Proofs.Json.Marks
import CharClass.Proofs.Json.Tree

/-!
# A text and its tree

A set is read from a text while its characters go by, or from the tree of the text. Where the text
has a tree, both ways give the same set, or fail for the same cause, to which the text adds a
position. One kind of list sets them apart: behind the second end of an interval the reader of texts
asks for the closing bracket, while the tree knows the length of the list. `Agree` is this relation
between two outcomes; it passes from ends to intervals and from these to sets (`agree_readSet`).
-/

namespace CharClass.Json

open Cursor

/-! ## The end of a list -/

/-- Where no element follows, the list can be closed, before the blanks or behind them. -/
theorem closeList_of_nextElement_false {first : Bool} {c d : Cursor}
    (h : nextElement first c = .ok (false, d)) :
    closeList c = .ok d.advance ∧ closeList d = .ok d.advance := by
  obtain ⟨rfl, hclose⟩ := nextElement_eq_false_iff.1 h
  refine ⟨closeList_eq_ok_iff.2 ⟨rfl, hclose⟩, closeList_eq_ok_iff.2 ?_⟩
  rw [skipBlanks_skipBlanks]
  exact ⟨rfl, hclose⟩

/-- Where another element follows, it cannot. -/
theorem closeList_of_nextElement_true {c d : Cursor} (h : nextElement false c = .ok (true, d)) :
    ∃ e, closeList c = .error e := by
  rcases nextElement_eq_true_iff.1 h with ⟨⟨hfirst, -⟩ | ⟨-, ⟨tail, starts⟩, -⟩, -⟩
  · cases hfirst
  · cases hclose : closeList c with
    | error e => exact ⟨e, rfl⟩
    | ok e =>
      obtain ⟨-, tail', starts'⟩ := closeList_eq_ok_iff.1 hclose
      rw [starts] at starts'
      cases starts'

/-! ## Values of another kind -/

namespace Value

variable {fuel : Nat} {c d : Cursor} {v : Value}

/-- The reader of texts tells a value that it does not want by its first character, and reads it. -/
theorem ReadAs.mismatch (h : ReadAs fuel c d v) (target : Target) :
    ∃ p, mismatch target c = ⟨.wrongType v.shape target, some p⟩ := by
  unfold Json.mismatch
  cases h with
  | null starts h => exact ⟨d.position, by simp only [starts, h]; rfl⟩
  | yes starts h => exact ⟨d.position, by simp only [starts, h]; rfl⟩
  | no starts h => exact ⟨d.position, by simp only [starts, h]; rfl⟩
  | text starts h => exact ⟨d.position, by simp only [starts, h]; rfl⟩
  | list starts h hclose => exact ⟨c.position, by simp only [starts]; rfl⟩
  | object starts h => exact ⟨c.position, by simp only [starts]; rfl⟩
  | number starts hx h =>
    refine ⟨d.position, ?_⟩
    split
    · next hnil => rw [starts] at hnil; cases hnil
    iterate 6
      · next hother => rw [starts] at hother; cases hother; exact absurd hx (by decide)
    · next hcons =>
      rw [starts] at hcons
      cases hcons
      rw [if_pos hx, h]
      rfl

theorem ReadAs.number_or (h : ReadAs fuel c d v) :
    (∃ x tail n, c.rest = x :: tail ∧ startsNumber x = true ∧ Json.number c = .ok (n, d) ∧
        v = .number n) ∨
      ∃ x tail, c.rest = x :: tail ∧ startsNumber x = false ∧
        v.point = .error (.wrongType v.shape .point) := by
  cases h with
  | null starts h => exact .inr ⟨_, _, starts, by decide, rfl⟩
  | yes starts h => exact .inr ⟨_, _, starts, by decide, rfl⟩
  | no starts h => exact .inr ⟨_, _, starts, by decide, rfl⟩
  | text starts h => exact .inr ⟨_, _, starts, by decide, rfl⟩
  | list starts h hclose => exact .inr ⟨_, _, starts, by decide, rfl⟩
  | object starts h => exact .inr ⟨_, _, starts, by decide, rfl⟩
  | number starts hx h => exact .inl ⟨_, _, _, starts, hx, h, rfl⟩

theorem ReadAs.list_or (h : ReadAs fuel c d v) :
    (∃ tail vs e, c.rest = '[' :: tail ∧ readElements? fuel true c.advance = some (vs, e) ∧
        closeList e = .ok d ∧ v = .list vs) ∨
      ∃ x tail, c.rest = x :: tail ∧ x ≠ '[' ∧
        v.interval = .error (.wrongType v.shape .interval) ∧
          v.intervals = .error (.wrongType v.shape .set) := by
  cases h with
  | null starts h => exact .inr ⟨_, _, starts, by decide, rfl, rfl⟩
  | yes starts h => exact .inr ⟨_, _, starts, by decide, rfl, rfl⟩
  | no starts h => exact .inr ⟨_, _, starts, by decide, rfl, rfl⟩
  | text starts h => exact .inr ⟨_, _, starts, by decide, rfl, rfl⟩
  | list starts h hclose => exact .inl ⟨_, _, _, starts, h, hclose, rfl⟩
  | object starts h => exact .inr ⟨_, _, starts, by decide, rfl, rfl⟩
  | number starts hx h =>
    refine .inr ⟨_, _, starts, ?_, rfl, rfl⟩
    rintro rfl
    exact absurd hx (by decide)

/-! ## Agreement -/

/-- A list with more elements than an interval has ends. -/
def TooLong : Value → Prop
  | list vs => 2 < vs.length
  | _ => False

/-- A list with such an element. -/
def HasTooLong : Value → Prop
  | list vs => ∃ v ∈ vs, v.TooLong
  | _ => False

end Value

/-- Both succeed alike, the reader of the text with its cursor at `d`, or both fail; the causes are
the same if `exact` holds. -/
inductive Agree {α : Type} (exact : Prop) (d : Cursor) :
    Except Error (α × Cursor) → Except Cause α → Prop
  | ok (a : α) : Agree exact d (.ok (a, d)) (.ok a)
  | error {e : Error} {cause : Cause} (h : exact → ∃ p, e = ⟨cause, some p⟩) :
      Agree exact d (.error e) (.error cause)

theorem Agree.eq_or {α : Type} {exact : Prop} {d : Cursor} {read : Except Error (α × Cursor)}
    {made : Except Cause α} (h : Agree exact d read made) :
    (∃ a, read = .ok (a, d) ∧ made = .ok a) ∨
      ∃ e cause, read = .error e ∧ made = .error cause ∧
        (exact → ∃ p, e = ⟨cause, some p⟩) := by
  cases h with
  | ok a => exact .inl ⟨a, rfl, rfl⟩
  | error h => exact .inr ⟨_, _, rfl, rfl, h⟩

namespace Value

variable {fuel : Nat} {c d : Cursor} {v : Value}

theorem agree_readPoint (h : read? fuel c = some (v, d)) :
    Agree True d (readPoint c) v.point := by
  obtain ⟨_, h⟩ := exists_readAs h
  unfold readPoint pointAt
  rcases h.number_or with ⟨x, tail, n, starts, hx, hnumber, rfl⟩ | ⟨x, tail, starts, hx, hpoint⟩
  · simp only [starts, hx, hnumber, ↓reduceIte]
    rw [point]
    cases n.point with
    | ok p => exact .ok p
    | error cause => exact .error fun _ => ⟨_, rfl⟩
  · obtain ⟨p, hmismatch⟩ := h.mismatch .point
    simp only [starts, hx, Bool.false_eq_true, ↓reduceIte, hpoint, hmismatch]
    exact .error fun _ => ⟨p, rfl⟩

end Value

/-- Reads an interval of a set. -/
def readInterval (c : Cursor) : Except Error (Interval × Cursor) :=
  match readEnds c with
  | .error e => .error e
  | .ok (ends, d) =>
    match Interval.make ends.1 ends.2 with
    | .error reason => .error ⟨.bounds reason, some (leaveList d)⟩
    | .ok i => .ok (i, d)

theorem readIntervals_of_true {first : Bool} {c d : Cursor}
    (h : nextElement first c = .ok (true, d)) :
    readIntervals first c =
      match readInterval d with
      | .error e => .error e
      | .ok (i, e) => (readIntervals false e).map fun (is, f) => (i :: is, f) := by
  rw [readIntervals_eq, h, readInterval]
  dsimp only
  cases readEnds d with
  | error e => rfl
  | ok read =>
    obtain ⟨ends, e⟩ := read
    dsimp only
    cases Interval.make ends.1 ends.2 with
    | error reason => rfl
    | ok i => rfl

theorem readInterval_of_bracket {c : Cursor} {tail : List Char}
    (starts : c.skipBlanks.rest = '[' :: tail) :
    readInterval c =
      (do
        let (p, d) ← readEnd 0 c.skipBlanks.advance
        let (q, e) ← readEnd 1 d
        let f ← closeList e
        match Interval.make p q with
        | .error reason => .error ⟨.bounds reason, some (leaveList f)⟩
        | .ok i => .ok (i, f)) := by
  have hends : readEnds c = endsFrom c.skipBlanks.advance := by
    unfold readEnds
    simp only [starts]
  rw [readInterval, hends, endsFrom]
  cases readEnd 0 c.skipBlanks.advance with
  | error e => rfl
  | ok first =>
    simp only [bind, Except.bind]
    cases readEnd 1 first.2 with
    | error e => rfl
    | ok last => cases h : closeList last.2 <;> simp only [h]

theorem readEnds_of_ne_bracket {c : Cursor} {x : Char} {tail : List Char}
    (starts : c.skipBlanks.rest = x :: tail) (hx : x ≠ '[') :
    readEnds c = .error (mismatch .interval c.skipBlanks) := by
  unfold readEnds
  split
  · next hnil => rw [starts] at hnil; cases hnil
  · next hbracket => rw [starts] at hbracket; cases hbracket; exact absurd rfl hx
  · rfl

theorem readSet_of_ne_bracket {c : Cursor} {x : Char} {tail : List Char}
    (starts : c.skipBlanks.rest = x :: tail) (hx : x ≠ '[') :
    readSet c = .error (mismatch .set c.skipBlanks) := by
  unfold readSet
  split
  · next hnil => rw [starts] at hnil; cases hnil
  · next hbracket => rw [starts] at hbracket; cases hbracket; exact absurd rfl hx
  · rfl

theorem readEnd_of_true (index : Nat) {c d : Cursor}
    (h : nextElement (index == 0) c = .ok (true, d)) : readEnd index c = readPoint d := by
  rw [readEnd, h]

theorem readEnd_of_false (index : Nat) {c d : Cursor}
    (h : nextElement (index == 0) c = .ok (false, d)) :
    readEnd index c = .error ⟨.tooShort index, some (leaveList d)⟩ := by
  rw [readEnd, h]

namespace Value

variable {fuel : Nat} {c d : Cursor} {v : Value}

theorem interval_of_point_error {cause : Cause} {vs : List Value} (h : v.point = .error cause) :
    (list (v :: vs)).interval = .error cause := by
  cases vs <;> rw [interval, h] <;> rfl

/-- Behind the first end: the elements that are left against the second end and the bracket. -/
theorem agree_behind_first {p : Nat} {vs : List Value} {e : Cursor} (hpoint : v.point = .ok p)
    (h : readElements? fuel false c = some (vs, e)) (hclose : closeList e = .ok d) :
    Agree (¬(list (v :: vs)).TooLong) d
      (do
        let (q, f) ← readEnd 1 c
        let f ← closeList f
        match Interval.make p q with
        | .error reason => .error ⟨.bounds reason, some (leaveList f)⟩
        | .ok i => .ok (i, f))
      (list (v :: vs)).interval := by
  obtain ⟨n, rfl⟩ := exists_succ_of_readElements? h
  rcases readElements?_succ_iff.1 h with ⟨hnext, rfl⟩ | ⟨f, g, w, ws, hnext, hw, hws, rfl⟩
  · rw [readEnd_of_false 1 hnext, interval, hpoint]
    exact .error fun _ => ⟨_, rfl⟩
  · rw [readEnd_of_true 1 hnext]
    rcases (agree_readPoint hw).eq_or with ⟨q, hq, hq'⟩ | ⟨e, cause, he, he', hsame⟩
    · obtain ⟨n, rfl⟩ := exists_succ_of_readElements? hws
      rcases readElements?_succ_iff.1 hws with ⟨hnext, rfl⟩ | ⟨f, k, u, us, hnext, -, -, rfl⟩
      · obtain ⟨hclose', hclose''⟩ := closeList_of_nextElement_false hnext
        obtain rfl : d = e.advance := Except.ok.inj (hclose.symm.trans hclose'')
        simp only [hq, interval, hpoint, hq', bind, Except.bind, hclose', List.isEmpty_nil,
          ↓reduceIte]
        cases Interval.make p q with
        | error reason => exact .error fun _ => ⟨_, rfl⟩
        | ok i => exact .ok i
      · obtain ⟨e, he⟩ := closeList_of_nextElement_true hnext
        simp only [hq, interval, hpoint, hq', bind, Except.bind, he, List.isEmpty_cons,
          Bool.false_eq_true, ↓reduceIte]
        exact .error fun hshort => absurd (by simp [TooLong]) hshort
    · simp only [he, interval, hpoint, he', bind, Except.bind]
      exact .error fun _ => hsame trivial

/-- Behind an opening bracket: the elements up to the closing one against both ends. -/
theorem agree_readInterval_of_elements {vs : List Value} {e : Cursor} {tail : List Char}
    (starts : c.skipBlanks.rest = '[' :: tail)
    (h : readElements? fuel true c.skipBlanks.advance = some (vs, e))
    (hclose : closeList e = .ok d) :
    Agree (¬(list vs).TooLong) d (readInterval c) (list vs).interval := by
  rw [readInterval_of_bracket starts]
  obtain ⟨n, rfl⟩ := exists_succ_of_readElements? h
  rcases readElements?_succ_iff.1 h with ⟨hnext, rfl⟩ | ⟨f, g, v, ws, hnext, hv, hws, rfl⟩
  · rw [readEnd_of_false 0 hnext]
    exact .error fun _ => ⟨_, rfl⟩
  · rw [readEnd_of_true 0 hnext]
    rcases (agree_readPoint hv).eq_or with ⟨p, hp, hp'⟩ | ⟨e, cause, he, he', hsame⟩
    · rw [hp]
      exact agree_behind_first hp' hws hclose
    · rw [he, interval_of_point_error he']
      exact .error fun _ => hsame trivial

theorem agree_readInterval (h : read? fuel c = some (v, d)) :
    Agree (¬v.TooLong) d (readInterval c) v.interval := by
  obtain ⟨_, h⟩ := exists_readAs h
  rcases h.list_or with
    ⟨tail, vs, e, starts, hvs, hclose, rfl⟩ | ⟨x, tail, starts, hx, hinterval, -⟩
  · exact agree_readInterval_of_elements starts hvs hclose
  · obtain ⟨p, hmismatch⟩ := h.mismatch .interval
    rw [readInterval, readEnds_of_ne_bracket starts hx, hmismatch, hinterval]
    exact .error fun _ => ⟨p, rfl⟩

theorem agree_readIntervals {first : Bool} {vs : List Value}
    (h : readElements? fuel first c = some (vs, d)) :
    Agree (∀ v ∈ vs, ¬v.TooLong) d (readIntervals first c) (vs.mapM interval) := by
  induction fuel generalizing first c vs with
  | zero =>
    rw [readElements?] at h
    cases h
  | succ fuel ih =>
    rcases readElements?_succ_iff.1 h with ⟨hnext, rfl⟩ | ⟨e, f, v, ws, hnext, hv, hws, rfl⟩
    · rw [readIntervals_eq, hnext]
      exact .ok []
    · rw [readIntervals_of_true hnext, List.mapM_cons]
      rcases (agree_readInterval hv).eq_or with ⟨i, hi, hi'⟩ | ⟨e, cause, he, he', hsame⟩
      · rw [hi, hi']
        rcases (ih hws).eq_or with ⟨is, his, his'⟩ | ⟨e, cause, he, he', hsame⟩
        · simp only [his, his']
          exact .ok (i :: is)
        · simp only [he, he']
          exact .error fun hshort => hsame fun w hw => hshort w (List.mem_cons_of_mem _ hw)
      · rw [he, he']
        exact .error fun hshort => hsame (hshort v List.mem_cons_self)

theorem agree_readSet (h : read? fuel c = some (v, d)) :
    Agree (¬v.HasTooLong) d (readSet c) v.intervals := by
  obtain ⟨_, h⟩ := exists_readAs h
  rcases h.list_or with ⟨tail, vs, e, starts, hvs, hclose, rfl⟩ | ⟨x, tail, starts, hx, -, hset⟩
  · unfold readSet
    simp only [starts, intervals]
    rcases (agree_readIntervals hvs).eq_or with ⟨is, his, his'⟩ | ⟨f, cause, hf, hf', hsame⟩
    · simp only [his, his', hclose, bind, Except.bind]
      exact .ok is
    · simp only [hf, hf', bind, Except.bind]
      exact .error fun hshort => hsame fun w hw hlong => hshort ⟨w, hw, hlong⟩
  · obtain ⟨p, hmismatch⟩ := h.mismatch .set
    rw [readSet_of_ne_bracket starts hx, hset, hmismatch]
    exact .error fun _ => ⟨p, rfl⟩

end Value

end CharClass.Json

namespace CharClass.PointSet

/-- A text and its tree describe the same set, or neither describes one. In the latter case the
message for the text is the one for the tree and a position, unless an element of the list is too
long. -/
theorem ofJson_agrees_with_ofValue {text : String} {v : Json.Value}
    (h : Json.Value.parse? text = some v) :
    (∀ s, ofJson text = .ok s ↔ ofValue v = .ok s) ∧
      ∀ e f, ofJson text = .error e → ofValue v = .error f → ¬v.HasTooLong →
        ∃ line column, e.message =
          f.message ++ " at line " ++ Nat.repr line ++ " column " ++ Nat.repr column := by
  obtain ⟨fuel, d, hread, hend⟩ := Json.Value.parse?_eq_some_iff.1 h
  have hagree := Json.Value.agree_readSet hread
  rcases hagree.eq_or with ⟨is, his, his'⟩ | ⟨e, cause, he, he', hsame⟩
  · have htext : ofJson text = .ok (ofList is) :=
      bind_ok_iff.2 ⟨_, his, bind_ok_iff.2 ⟨(), hend, rfl⟩⟩
    have htree : ofValue v = .ok (ofList is) := by rw [ofValue, his']
    rw [htext, htree]
    exact ⟨fun s => Iff.rfl, fun e f he => by cases he⟩
  · have htext : ofJson text = .error e := bind_error_iff.2 (.inl he)
    have htree : ofValue v = .error ⟨cause, none⟩ := by rw [ofValue, he']
    rw [htext, htree]
    refine ⟨fun s => ⟨nofun, nofun⟩, fun e' f he hf hshort => ?_⟩
    cases he
    cases hf
    obtain ⟨p, rfl⟩ := hsame hshort
    exact ⟨p.line, p.column, rfl⟩

/-- An interval with one end, on the second line. -/
theorem ofJson_agrees_with_ofValue_of_short :
    Json.Value.parse? "[[0,9],\n [9]]" =
        some (.list [.list [.number (.integer 0), .number (.integer 9)],
          .list [.number (.integer 9)]]) ∧
      ofJson "[[0,9],\n [9]]" = .error ⟨.tooShort 1, some ⟨2, 4⟩⟩ ∧
      ofValue (.list [.list [.number (.integer 0), .number (.integer 9)],
        .list [.number (.integer 9)]]) = .error ⟨.tooShort 1, none⟩ ∧
      ∃ line column, (⟨.tooShort 1, some ⟨2, 4⟩⟩ : Json.Error).message =
        (⟨.tooShort 1, none⟩ : Json.Error).message ++ " at line " ++ Nat.repr line ++ " column " ++
          Nat.repr column := by
  have hparse : Json.Value.parse? "[[0,9],\n [9]]" =
      some (.list [.list [.number (.integer 0), .number (.integer 9)],
        .list [.number (.integer 9)]]) := rfl
  have htext : ofJson "[[0,9],\n [9]]" = .error ⟨.tooShort 1, some ⟨2, 4⟩⟩ := by
    decide +kernel
  have hshort : ¬(Json.Value.list [.list [.number (.integer 0), .number (.integer 9)],
      .list [.number (.integer 9)]]).HasTooLong := by
    simp [Json.Value.HasTooLong, Json.Value.TooLong]
  exact ⟨hparse, htext, rfl, (ofJson_agrees_with_ofValue hparse).2 _ _ htext rfl hshort⟩

end CharClass.PointSet
