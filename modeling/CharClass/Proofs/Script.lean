import CharClass.Proofs.Reachable
import CharClass.Proofs.Updating

/-!
# Scripts over reachable sets

The registers of a script start empty and are only written with what an expression or an action
yields. So they hold reachable sets throughout, whatever the steps are and whether they are refused
or not (`Script.reachable_final`), and every state that a script reports passes the test of its
representation.
-/

namespace CharClass

theorem lookup_cons_eq_ite {α : Type} (key other : String) (a : α) (rest : List (String × α)) :
    ((key, a) :: rest).lookup other = if other = key then some a else rest.lookup other := by
  rw [List.lookup_cons]
  by_cases h : other = key
  · rw [if_pos h, beq_iff_eq.2 h]
  · rw [if_neg h, beq_false_of_ne h]

theorem Registers.lookup_putEntry (name other : String) (s : PointSet)
    (entries : List (String × PointSet)) :
    (putEntry name s entries).lookup other =
      if other = name then some s else entries.lookup other := by
  induction entries with
  | nil => exact lookup_cons_eq_ite name other s []
  | cons entry rest ih =>
    obtain ⟨key, t⟩ := entry
    rw [putEntry]
    split
    · next hname =>
      subst hname
      rw [lookup_cons_eq_ite, lookup_cons_eq_ite]
      split <;> rfl
    · next hname =>
      rw [lookup_cons_eq_ite, lookup_cons_eq_ite, ih]
      by_cases hkey : other = key
      · have hother : ¬other = name := fun h => hname (h.symm.trans hkey)
        rw [if_pos hkey, if_neg hother, if_pos hkey]
      · rw [if_neg hkey, if_neg hkey]

theorem Registers.get_put (r : Registers) (name other : String) (s : PointSet) :
    (r.put name s).get other = if other = name then s else r.get other := by
  rw [get, put, lookup_putEntry]
  split <;> rfl

/-- Every register holds a reachable set. -/
def Registers.Reachable (r : Registers) : Prop := ∀ name, CharClass.Reachable (r.get name)

theorem Registers.reachable_empty : Registers.empty.Reachable := fun _ => .built .empty

theorem Registers.Reachable.put {r : Registers} (h : r.Reachable) {s : PointSet}
    (hs : CharClass.Reachable s) (name : String) : (r.put name s).Reachable := by
  intro other
  rw [get_put]
  split
  · exact hs
  · exact h other

theorem Ends.make_of_interval {e : Ends} {i : Interval} (h : e.interval = .ok i) :
    Interval.make e.1 e.2 = .ok i :=
  mapError_ok_iff.1 h

theorem Ends.valid_interval {e : Ends} {i : Interval} (h : e.interval = .ok i) : i.Valid :=
  (Interval.make_eq_ok_iff.1 (make_of_interval h)).2

section
variable {r : Registers} (hr : r.Reachable)
include hr

/-- What an expression denotes over reachable registers is reachable. -/
theorem Expr.reachable_eval {e : Expr} {s : PointSet} (h : e.eval r = .ok s) : Reachable s := by
  induction e generalizing s with
  | spec text => exact .built (.ofSpec (mapError_ok_iff.1 h))
  | char c =>
    cases h
    exact .built (.ofChar c)
  | between c d =>
    obtain ⟨i, hi, rfl⟩ := map_ok_iff.1 h
    exact .built (.between (Ends.make_of_interval hi))
  | points ends =>
    obtain ⟨i, hi, rfl⟩ := map_ok_iff.1 h
    exact .built (.ofEnds (Ends.make_of_interval hi))
  | intervals ends =>
    obtain ⟨is, his, rfl⟩ := map_ok_iff.1 h
    exact .built (.ofList (forall_mem_of_mapM_ok (fun _ _ => Ends.valid_interval) his))
  | chars text =>
    cases h
    exact .built (.ofChars _)
  | json text => exact .built (.ofJson (mapError_ok_iff.1 h))
  | predefined q =>
    cases h
    exact .built (.predefined q)
  | register name =>
    cases h
    exact hr name
  | complement a iha =>
    obtain ⟨s, hs, heq⟩ := bind_ok_iff.1 h
    cases heq
    exact .complement (iha hs)
  | union a b iha ihb =>
    obtain ⟨s, t, hs, ht, rfl⟩ := bind₂_ok_iff.1 h
    exact .union (iha hs) (ihb ht)
  | difference a b iha ihb =>
    obtain ⟨s, t, hs, ht, rfl⟩ := bind₂_ok_iff.1 h
    exact .difference (iha hs) (ihb ht)
  | intersection a b iha ihb =>
    obtain ⟨s, t, hs, ht, rfl⟩ := bind₂_ok_iff.1 h
    exact .intersection (iha hs) (ihb ht)
  | symmetricDifference a b iha ihb =>
    obtain ⟨s, t, hs, ht, rfl⟩ := bind₂_ok_iff.1 h
    exact .symmetricDifference (iha hs) (ihb ht)

end

section
open Updating

/-- Reachable registers stay reachable, at whatever point a step is refused. -/
theorem Step.keeps_perform (step : Step) :
    Keeps Registers.Reachable step.perform fun _ => True := by
  obtain ⟨register, action⟩ := step
  have hload : Keeps Registers.Reachable (load register) Reachable :=
    keeps_load fun _ hr => hr register
  have hstore : ∀ s, Reachable s → Keeps Registers.Reachable (store register s) fun _ => True :=
    fun _ hs => keeps_store fun _ hr => hr.put hs register
  have hinsert : ∀ i : Interval, i.Valid →
      Keeps Registers.Reachable (update register (·.insert i)) fun _ => True :=
    fun i hi => keeps_update fun _ hr =>
      hr.put (.change (hr register) (c := .insert i) hi rfl) register
  cases action with
  | clear => exact (hstore _ (.built .empty)).bind_pure _
  | assign e =>
    refine keeps_get.bind fun r hr => ?_
    refine (keeps_check fun s hs => Expr.reachable_eval hr hs).bind fun s hs => ?_
    exact (hstore s hs).bind_pure _
  | insert ends =>
    refine (keeps_check fun i hi => Ends.valid_interval hi).bind fun i hi => ?_
    exact (hinsert i hi).bind_pure _
  | remove ends =>
    refine (keeps_check fun i hi => Ends.valid_interval hi).bind fun i hi => ?_
    refine (keeps_update fun r hr => ?_).bind_pure _
    exact hr.put (.change (hr register) (c := .remove i) hi rfl) register
  | extend ends =>
    refine (keeps_check fun is his => ?_).bind fun is (his : ∀ i ∈ is, i.Valid) => ?_
    · exact forall_mem_of_mapM_ok (fun _ _ => Ends.valid_interval) his
    · exact (Keeps.forM fun i hi => hinsert i (his i hi)).bind_pure _
  | roundTrip =>
    refine hload.bind fun s _ => ?_
    refine (keeps_check fun t ht => ?_).bind fun t (ht : Reachable t) => ?_
    · exact .built (.ofJson (mapError_ok_iff.1 ht))
    · exact (hstore t ht).bind_pure _
  | contains p | insertionPoint p | matchText text offset =>
    exact hload.bind_pure _
  | equal e =>
    refine hload.bind fun s _ => keeps_get.bind fun r hr => ?_
    exact (keeps_check fun t ht => Expr.reachable_eval hr ht).bind_pure _

end

section
variable {r : Registers} (hr : r.Reachable)
include hr

theorem Step.reachable_next (step : Step) : (step.next r).Reachable :=
  (step.keeps_perform r hr).1

theorem Script.reachable_final (steps : List Step) : (Script.final r steps).Reachable := by
  induction steps generalizing r with
  | nil => exact hr
  | cons step rest ih => exact ih (Step.reachable_next hr step)

theorem Script.reachable_run (steps : List Step) :
    ∀ report ∈ Script.run r steps, Reachable report.state := by
  induction steps generalizing r with
  | nil => simp [Script.run]
  | cons step rest ih =>
    have hnext : (step.next r).Reachable := Step.reachable_next hr step
    exact List.forall_mem_cons.2 ⟨hnext step.register, ih hnext⟩

end

/-- No script, whatever its steps do and however they are refused, reports a set with a broken
representation. -/
theorem Script.check_of_mem_run (steps : List Step) :
    ∀ report ∈ Script.run .empty steps, report.state.check = true := fun report hreport =>
  (Script.reachable_run Registers.reachable_empty steps report hreport).wellFormed.check

end CharClass
