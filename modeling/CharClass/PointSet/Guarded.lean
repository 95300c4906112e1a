import CharClass.PointSet.Update

/-!
# Updates that watch their steps

Insertion and removal once more, as they go through the list in place: by index, in numbers of 32
and 64 bits, and with the assertions on the way. Each access, each sum and difference and each
assertion is tested here, and the first that fails is the outcome. Nothing runs these definitions in
place of the plain ones; they say what the plain ones leave out.
-/

namespace CharClass.Guarded

inductive Fault where
  /-- A slot, a gap or a part that is not in the list. -/
  | index
  /-- A difference below zero, or a sum above its limit. -/
  | arithmetic
  /-- An interval whose ends do not ascend in the domain, or a representation that fails its
  test. -/
  | assertion
deriving DecidableEq

/-! ## Numbers -/

/-- The greatest number of 64 bits. -/
def maxLong : Nat := 0xFFFFFFFFFFFFFFFF

def sub (a b : Nat) : Except Fault Nat := if b ≤ a then .ok (a - b) else .error .arithmetic

def add (limit a b : Nat) : Except Fault Nat :=
  if a + b ≤ limit then .ok (a + b) else .error .arithmetic

/-! ## Intervals -/

def unchecked (first last : Nat) : Except Fault Interval :=
  if (⟨first, last⟩ : Interval).Valid then .ok ⟨first, last⟩ else .error .assertion

def setFirst (i : Interval) (p : Nat) : Except Fault Interval :=
  if p ≤ i.last then .ok ⟨p, i.last⟩ else .error .assertion

def setLast (i : Interval) (p : Nat) : Except Fault Interval :=
  if i.first ≤ p then .ok ⟨i.first, p⟩ else .error .assertion

def width (i : Interval) : Except Fault Nat := do
  let n ← sub i.last i.first
  add maxLong n 1

def mergeable (i j : Interval) : Except Fault Bool := do
  let n ← sub (max i.last j.last) (min i.first j.first)
  let span ← add maxLong n 1
  let m ← width i
  let n ← width j
  let sum ← add maxLong m n
  .ok (decide (span ≤ sum))

/-! ## Lists -/

def read (is : List Interval) (slot : Nat) : Except Fault Interval :=
  match is[slot]? with
  | none => .error .index
  | some i => .ok i

def write (is : List Interval) (slot : Nat) (i : Interval) : Except Fault (List Interval) :=
  if slot < is.length then .ok (is.set slot i) else .error .index

/-- Moves the intervals from the slot on by one and fills the gap. -/
def insertAt (is : List Interval) (slot : Nat) (i : Interval) : Except Fault (List Interval) :=
  if slot ≤ is.length then .ok (is.insertIdx slot i) else .error .index

/-- Takes out the intervals from `slot` to just before `stop`. -/
def drain (is : List Interval) (slot stop : Nat) : Except Fault (List Interval) :=
  if slot ≤ stop ∧ stop ≤ is.length then .ok (is.take slot ++ is.drop stop) else .error .index

def suffix (is : List Interval) (slot : Nat) : Except Fault (List Interval) :=
  if slot ≤ is.length then .ok (is.drop slot) else .error .index

/-- Asks the interval at the slot, unless the slot is the end of the list. -/
def atSlot (is : List Interval) (slot : Nat) (q : Interval → Except Fault Bool) :
    Except Fault Bool :=
  if slot = is.length then .ok false
  else do
    let i ← read is slot
    q i

/-- Asks the interval before the slot, unless the slot is the first. -/
def beforeSlot (is : List Interval) (slot : Nat) (q : Interval → Except Fault Bool) :
    Except Fault Bool :=
  if slot = 0 then .ok false
  else do
    let k ← sub slot 1
    let i ← read is k
    q i

/-- The set of these intervals, with its bitmap computed anew and its test passed. -/
def refresh (is : List Interval) : Except Fault PointSet :=
  if (PointSet.ofIntervals is.toArray).check then .ok (.ofIntervals is.toArray)
  else .error .assertion

/-! ## Insertion -/

/-- Grows `i` by the intervals from `stop` on, and says where the first one stands that stays. -/
def grow (is : List Interval) (i : Interval) (stop : Nat) : Except Fault (Interval × Nat) :=
  if stop < is.length then do
    let j ← read is stop
    let merges ← mergeable i j
    if merges then grow is (i.hull j) (stop + 1) else .ok (i, stop)
  else .ok (i, stop)
termination_by is.length - stop

/-- Extends the interval at the slot by `r` and by the ones behind it that have become mergeable. -/
def mergeAt (is : List Interval) (slot : Nat) (r : Interval) : Except Fault (List Interval) := do
  let i ← read is slot
  let (i, stop) ← grow is (i.hull r) (slot + 1)
  let is ← write is slot i
  drain is (slot + 1) stop

/-- Merges `r` with the interval before the slot or with the one at it, or puts it between them. -/
def place (is : List Interval) (slot : Nat) (r : Interval) : Except Fault (List Interval) := do
  let below ← beforeSlot is slot (mergeable · r)
  if below then
    let k ← sub slot 1
    mergeAt is k r
  else
    let above ← atSlot is slot (mergeable · r)
    if above then mergeAt is slot r else insertAt is slot r

def insert (s : PointSet) (r : Interval) : Except Fault PointSet :=
  if s.isEmpty then refresh (s.intervals.toList ++ [r])
  else do
    let slot := insertionPoint s.intervals r.first
    let above ← atSlot s.intervals.toList slot fun i => .ok (i.covers r)
    let covered ←
      if above then .ok true
      else beforeSlot s.intervals.toList slot fun i => .ok (i.covers r)
    if covered then .ok s
    else
      let is ← place s.intervals.toList slot r
      refresh is

/-! ## Removal -/

/-- Takes `r` and what lies behind it from the interval at the slot. -/
def shorten (is : List Interval) (slot : Nat) (r : Interval) : Except Fault (List Interval) := do
  let i ← read is slot
  let p ← sub r.first 1
  let i ← setLast i p
  write is slot i

/-- Takes `r` from the intervals from the slot on, none of which starts below it. -/
def sweep (is : List Interval) (slot : Nat) (r : Interval) : Except Fault (List Interval) := do
  let after ← suffix is slot
  let is ← drain is slot (slot + (after.takeWhile r.covers).length)
  match is[slot]? with
  | none => .ok is
  | some i =>
    if i.includes r.last then
      let p ← add maxPoint r.last 1
      let i ← setFirst i p
      write is slot i
    else .ok is

/-- Takes `r` from the interval before the slot, which may be split by it, and from those behind. -/
def carve (is : List Interval) (slot : Nat) (r : Interval) : Except Fault (List Interval) :=
  if slot = 0 then sweep is slot r
  else do
    let k ← sub slot 1
    let j ← read is k
    if j.includes r.first then
      if r.last < j.last then
        let p ← add maxPoint r.last 1
        let tail ← unchecked p j.last
        let is ← shorten is k r
        insertAt is slot tail
      else
        let is ← shorten is k r
        sweep is slot r
    else sweep is slot r

def remove (s : PointSet) (r : Interval) : Except Fault PointSet :=
  if s.isEmpty then .ok s
  else do
    let is ← carve s.intervals.toList (insertionPoint s.intervals r.first) r
    refresh is

/-! ## The number of members -/

/-- Counts the points of `i` on top of `n`. There are no more than the domain has. -/
def count (n : Nat) (i : Interval) : Except Fault Nat := do
  let m ← width i
  add (maxPoint + 1) n m

def size (s : PointSet) : Except Fault Nat := s.intervals.toList.foldlM count 0

end CharClass.Guarded
