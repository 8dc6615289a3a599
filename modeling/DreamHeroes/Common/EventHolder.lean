/-
The timers (`common/event_table_object.cpp`): one list of events, visited in order by every `update`.

- `hasEvent`, `addEvent`, `removeEvents`: what an object does with its events. An event that is removed stays in the
  list, marked as deleted, until the holder erases it; the model leaves an erased entry where it is, so that the places
  in the list do not change.
- `visit`: the loop of `EventableObjectHolder::update` at one entry. `exec` runs a callback, which may remove events.
- `hasNext`: the loop takes the iterator of the next entry before it runs the callback. Behind the last entry this is
  the end of the list, and it stays the end when the callback adds an event.
- `updateLoop`: the loop of `update`. It visits the entries that the callbacks add, when it is not at the end by then;
  `none` stands for a loop that is still running after the given number of rounds. A model that leaves out the timers of
  other objects gives the places that have one of them behind in `behind`.
- `updateLoop_rule`, `updateLoop_inv`: what every visit keeps, the loop keeps. `updateLoop_ends`: the loop ends when
  every callback only adds callbacks of a lower rank.
- `update`: the loop over the entries of the list, for callbacks that add none (`updateLoop_eq_update`).
- `Timed.map`: the same list with another world. `updateLoop_map`: the loop does the same over both, when the callbacks
  do.

The events have no flags.
-/
import Mathlib.Tactic
import DreamHeroes.Lib.Machine

namespace DreamHeroes.Common

structure TimedEvent (Cb : Type*) where
  obj : Option ℕ
  cb : Cb
  eventType : ℕ
  msTime : ℕ
  currTime : ℕ
  repeats : ℤ
  deleted : Bool := false
  /-- no longer in the list of the holder -/
  erased : Bool := false
deriving DecidableEq, Repr

/-- the world the callbacks change, and the list of the holder -/
structure Timed (S Cb : Type*) where
  world : S
  events : List (TimedEvent Cb) := []

variable {S Cb : Type*}

/-- `eventHasEvent` -/
def hasEvent (s : Timed S Cb) (obj ty : ℕ) : Bool :=
  s.events.any fun ev => ev.obj = some obj && ev.eventType == ty && !ev.deleted

/-- `EventMgr::addEvent` -/
def addEvent (s : Timed S Cb) (obj : Option ℕ) (cb : Cb) (ty time : ℕ) (repeats : ℤ) : Timed S Cb :=
  { s with events := s.events ++
      [{ obj := obj, cb := cb, eventType := ty, msTime := time, currTime := time, repeats := repeats }] }

/-- `eventRemoveEvents` of a type -/
def removeEvents (s : Timed S Cb) (obj ty : ℕ) : Timed S Cb :=
  { s with events := s.events.map fun ev =>
      if ev.obj = some obj ∧ ev.eventType = ty then { ev with deleted := true } else ev }

/-- the destructor of an `EventableObject` -/
def removeAllEvents (s : Timed S Cb) (obj : ℕ) : Timed S Cb :=
  { s with events := s.events.map fun ev => if ev.obj = some obj then { ev with deleted := true } else ev }

/-- `decRef` and `erase` -/
def TimedEvent.erase (ev : TimedEvent Cb) : TimedEvent Cb := { ev with deleted := true, erased := true }

/-- an event that has been executed: it is erased, or starts again -/
def TimedEvent.rearm (ev : TimedEvent Cb) : TimedEvent Cb :=
  let repeats := if ev.repeats = 0 then 0 else ev.repeats - 1
  if (ev.repeats ≠ 0 ∧ repeats = 0) ∨ ev.deleted then { ev with repeats := repeats }.erase
  else { ev with repeats := repeats, currTime := ev.msTime }

/-- the loop of `update` at the entry `i` -/
def visit (exec : Cb → Timed S Cb → Timed S Cb) (d : ℕ) (s : Timed S Cb) (i : ℕ) : Timed S Cb :=
  match s.events[i]? with
  | none => s
  | some ev =>
    if ev.erased then s
    else if ev.deleted then { s with events := s.events.modify i TimedEvent.erase }
    else if ev.currTime ≤ d then
      let s := exec ev.cb s
      { s with events := s.events.modify i TimedEvent.rearm }
    else { s with events := s.events.modify i fun ev => { ev with currTime := ev.currTime - d } }

/-- the iterator behind the entry `i` is not at the end -/
def hasNext (behind : List ℕ) (s : Timed S Cb) (i : ℕ) : Bool :=
  behind.contains i || (s.events.drop (i + 1)).any fun ev => !ev.erased

/-- the loop of `update` from the entry `i` on -/
def updateLoop (exec : Cb → Timed S Cb → Timed S Cb) (d : ℕ) (behind : List ℕ) :
    ℕ → ℕ → Timed S Cb → Option (Timed S Cb)
  | 0, _, _ => none
  | n + 1, i, s =>
    if s.events.length ≤ i then some s
    else if hasNext behind s i then updateLoop exec d behind n (i + 1) (visit exec d s i)
    else some (visit exec d s i)

def update (exec : Cb → Timed S Cb → Timed S Cb) (s : Timed S Cb) (d : ℕ) : Timed S Cb :=
  Lib.run (visit exec d) s (List.range s.events.length)

/-! ## The loop -/

theorem hasNext_eq_true_iff {behind : List ℕ} {s : Timed S Cb} {i : ℕ} :
    hasNext behind s i = true ↔ i ∈ behind ∨ ∃ j ev, i < j ∧ s.events[j]? = some ev ∧ ev.erased = false := by
  unfold hasNext
  rw [Bool.or_eq_true, List.contains_iff_mem, List.any_eq_true]
  apply or_congr Iff.rfl
  constructor
  · rintro ⟨ev, hmem, herased⟩
    obtain ⟨j, hj⟩ := List.mem_iff_getElem?.1 hmem
    rw [List.getElem?_drop] at hj
    exact ⟨i + 1 + j, ev, by omega, hj, by simpa using herased⟩
  · rintro ⟨j, ev, hij, hj, herased⟩
    refine ⟨ev, List.mem_iff_getElem?.2 ⟨j - (i + 1), ?_⟩, by simp [herased]⟩
    rw [List.getElem?_drop, ← hj]
    congr 1
    omega

variable (exec : Cb → Timed S Cb → Timed S Cb) (d : ℕ) (behind : List ℕ)

/-- **The loop.** A property of the entry the loop has come to, and one of the state in which it stops: at the end of
the list, or behind an entry that had nothing behind it. -/
theorem updateLoop_rule {I : ℕ → Timed S Cb → Prop} {F : Timed S Cb → Prop}
    (hend : ∀ (s : Timed S Cb) (i : ℕ), s.events.length ≤ i → I i s → F s)
    (hnext : ∀ (s : Timed S Cb) (i : ℕ), i < s.events.length → hasNext behind s i = true → I i s →
      I (i + 1) (visit exec d s i))
    (hlast : ∀ (s : Timed S Cb) (i : ℕ), i < s.events.length → hasNext behind s i = false → I i s →
      F (visit exec d s i))
    {n i : ℕ} {s s' : Timed S Cb} (h : I i s) (hloop : updateLoop exec d behind n i s = some s') : F s' := by
  induction n generalizing i s with
  | zero => cases hloop
  | succ n ih =>
    rw [updateLoop] at hloop
    split_ifs at hloop with hlen hmore
    · cases hloop
      exact hend _ i hlen h
    · exact ih (hnext s i (Nat.not_le.1 hlen) hmore h) hloop
    · cases hloop
      exact hlast s i (Nat.not_le.1 hlen) (by simpa using hmore) h

/-- what every visit keeps, the loop keeps -/
theorem updateLoop_inv {I : Timed S Cb → Prop} (hvisit : ∀ (s : Timed S Cb) (i : ℕ), I s → I (visit exec d s i))
    {n i : ℕ} {s s' : Timed S Cb} (h : I s) (hloop : updateLoop exec d behind n i s = some s') : I s' :=
  updateLoop_rule exec d behind (I := fun _ => I) (fun _ _ _ h => h) (fun s i _ _ h => hvisit s i h)
    (fun s i _ _ h => hvisit s i h) h hloop

/-- the rounds that are left at the entry `i`, when a callback of the rank `r` takes `r + 1` of them -/
def roundsLeft (rank : Cb → ℕ) (cbs : List Cb) (i : ℕ) : ℕ := ((cbs.drop i).map fun cb => rank cb + 1).sum

theorem map_modify_of_eq {α β : Type*} {g : α → β} {f : α → α} (hf : ∀ a, g (f a) = g a) (l : List α) (i : ℕ) :
    (l.modify i f).map g = l.map g := by
  apply List.ext_getElem?
  intro j
  rw [List.getElem?_map, List.getElem?_map, List.getElem?_modify]
  cases l[j]? with
  | none => rfl
  | some a =>
    simp only [Option.map_eq_map, Option.map_some]
    split_ifs
    · rw [hf]
    · rfl

theorem rearm_cb (ev : TimedEvent Cb) : ev.rearm.cb = ev.cb := by
  simp only [TimedEvent.rearm]
  split_ifs <;> rfl

/-- a visit keeps the callbacks of the entries, and adds those that the callback of the entry adds -/
theorem visit_cbs {rank : Cb → ℕ} {s : Timed S Cb} {i : ℕ} {ev : TimedEvent Cb} (hev : s.events[i]? = some ev)
    (hexec : ev.erased = false → ev.deleted = false →
      ∃ new, (exec ev.cb s).events.map TimedEvent.cb = s.events.map TimedEvent.cb ++ new ∧
        (new.map fun cb => rank cb + 1).sum ≤ rank ev.cb) :
    ∃ new, (visit exec d s i).events.map TimedEvent.cb = s.events.map TimedEvent.cb ++ new ∧
      (new.map fun cb => rank cb + 1).sum ≤ rank ev.cb := by
  have hkeep : ∀ f : TimedEvent Cb → TimedEvent Cb, (∀ ev, (f ev).cb = ev.cb) →
      ∃ new, (s.events.modify i f).map TimedEvent.cb = s.events.map TimedEvent.cb ++ new ∧
        (new.map fun cb => rank cb + 1).sum ≤ rank ev.cb := by
    intro f hf
    exact ⟨[], by rw [map_modify_of_eq hf, List.append_nil], Nat.zero_le _⟩
  rw [visit, hev]
  dsimp only
  split_ifs with herased hdel
  · exact ⟨[], by simp, Nat.zero_le _⟩
  · exact hkeep _ fun _ => rfl
  · obtain ⟨new, hnew, hsum⟩ := hexec (by simpa using herased) (by simpa using hdel)
    exact ⟨new, by rw [map_modify_of_eq rearm_cb, hnew], hsum⟩
  · exact hkeep _ fun _ => rfl

/-- **The loop ends**, when what a callback adds has a lower rank than the callback. -/
theorem updateLoop_ends (rank : Cb → ℕ) {I : Timed S Cb → Prop}
    (hvisit : ∀ (s : Timed S Cb) (i : ℕ), I s → I (visit exec d s i))
    (hexec : ∀ (s : Timed S Cb) (i : ℕ) ev, I s → s.events[i]? = some ev → ev.erased = false → ev.deleted = false →
      ∃ new, (exec ev.cb s).events.map TimedEvent.cb = s.events.map TimedEvent.cb ++ new ∧
        (new.map fun cb => rank cb + 1).sum ≤ rank ev.cb)
    {n i : ℕ} {s : Timed S Cb} (h : I s) (hn : roundsLeft rank (s.events.map TimedEvent.cb) i < n) :
    ∃ s', updateLoop exec d behind n i s = some s' := by
  induction n generalizing i s with
  | zero => omega
  | succ n ih =>
    rw [updateLoop]
    split_ifs with hend
    · exact ⟨s, rfl⟩
    · apply ih (hvisit s i h)
      have hlt : i < s.events.length := Nat.not_le.1 hend
      have hev : s.events[i]? = some s.events[i] := List.getElem?_eq_getElem hlt
      obtain ⟨new, hnew, hsum⟩ := visit_cbs exec d hev (hexec s i _ h hev)
      have hlt' : i + 1 ≤ (s.events.map TimedEvent.cb).length := by rwa [List.length_map]
      rw [roundsLeft, List.drop_eq_getElem_cons hlt', List.map_cons, List.sum_cons, List.getElem_map] at hn
      rw [roundsLeft, hnew, List.drop_append_of_le_length hlt', List.map_append, List.sum_append]
      omega
    · exact ⟨_, rfl⟩

/-- a visit executes the callback of the entry, or leaves the world alone -/
theorem visit_world_cases (s : Timed S Cb) (i : ℕ) :
    (visit exec d s i).world = s.world ∨ ∃ ev, s.events[i]? = some ev ∧ ev.erased = false ∧ ev.deleted = false ∧
      (visit exec d s i).world = (exec ev.cb s).world := by
  unfold visit
  split
  · exact .inl rfl
  · rename_i ev hev
    split_ifs with herased hdel
    · exact .inl rfl
    · exact .inl rfl
    · exact .inr ⟨ev, hev, by simpa using herased, by simpa using hdel, rfl⟩
    · exact .inl rfl

/-! ## Another world -/

section Map

variable {S' : Type*}

def Timed.map (f : S → S') (s : Timed S Cb) : Timed S' Cb := { world := f s.world, events := s.events }

variable {exec} {exec' : Cb → Timed S' Cb → Timed S' Cb} {f : S → S'}

theorem visit_map (hexec : ∀ cb s, (exec cb s).map f = exec' cb (s.map f)) (s : Timed S Cb) (i : ℕ) :
    (visit exec d s i).map f = visit exec' d (s.map f) i := by
  unfold visit
  rw [show (s.map f).events = s.events from rfl]
  split
  · rfl
  · rename_i ev hev
    split_ifs
    · rfl
    · rfl
    · rw [← hexec]
      rfl
    · rfl

theorem updateLoop_map (hexec : ∀ cb s, (exec cb s).map f = exec' cb (s.map f)) (n i : ℕ) (s : Timed S Cb) :
    (updateLoop exec d behind n i s).map (Timed.map f) = updateLoop exec' d behind n i (s.map f) := by
  induction n generalizing i s with
  | zero => rfl
  | succ n ih =>
    rw [updateLoop, updateLoop, ← visit_map d hexec, ← ih]
    show Option.map (Timed.map f) (if s.events.length ≤ i then _ else if hasNext behind s i then _ else _) =
      if s.events.length ≤ i then _ else if hasNext behind s i then _ else _
    split_ifs <;> rfl

end Map

/-! ## Callbacks that add nothing -/

/-- a visit to an entry that has been erased does nothing -/
theorem visit_erased {s : Timed S Cb} {i : ℕ} (h : ∀ ev, s.events[i]? = some ev → ev.erased = true) :
    visit exec d s i = s := by
  unfold visit
  split
  · rfl
  · rename_i ev hev
    rw [if_pos (h ev hev)]

theorem run_visit_erased {s : Timed S Cb} {l : List ℕ}
    (h : ∀ i ∈ l, ∀ ev, s.events[i]? = some ev → ev.erased = true) : Lib.run (visit exec d) s l = s := by
  induction l with
  | nil => rfl
  | cons i l ih =>
    rw [Lib.run_cons, visit_erased exec d (h i List.mem_cons_self)]
    exact ih fun j hj => h j (List.mem_cons_of_mem i hj)

variable {exec d} in
/-- the callbacks leave the list as long as it is, and erase nothing -/
theorem visit_keeps
    (hexec : ∀ cb (s : Timed S Cb), (exec cb s).events.map TimedEvent.erased = s.events.map TimedEvent.erased)
    (s : Timed S Cb) (i : ℕ) :
    (visit exec d s i).events.length = s.events.length ∧
      ∀ j, j ≠ i → (visit exec d s i).events[j]?.map TimedEvent.erased = s.events[j]?.map TimedEvent.erased := by
  have hlen : ∀ cb, (exec cb s).events.length = s.events.length := by
    intro cb
    simpa using congrArg List.length (hexec cb s)
  unfold visit
  split
  · exact ⟨rfl, fun _ _ => rfl⟩
  · rename_i ev hev
    split_ifs
    · exact ⟨rfl, fun _ _ => rfl⟩
    · exact ⟨List.length_modify _ _ _, fun j hj => by rw [List.getElem?_modify_ne _ _ (Ne.symm hj)]⟩
    · refine ⟨(List.length_modify _ _ _).trans (hlen ev.cb), ?_⟩
      intro j hj
      dsimp only
      rw [List.getElem?_modify_ne _ _ (Ne.symm hj), ← List.getElem?_map, ← List.getElem?_map, hexec]
    · exact ⟨List.length_modify _ _ _, fun j hj => by rw [List.getElem?_modify_ne _ _ (Ne.symm hj)]⟩

/-- with callbacks that add nothing the loop visits the entries it started with -/
theorem updateLoop_eq_update
    (hexec : ∀ cb (s : Timed S Cb), (exec cb s).events.map TimedEvent.erased = s.events.map TimedEvent.erased)
    (s : Timed S Cb) : updateLoop exec d behind (s.events.length + 1) 0 s = some (update exec s d) := by
  have hloop : ∀ (n i : ℕ) (t : Timed S Cb), t.events.length = i + n →
      updateLoop exec d behind (n + 1) i t = some (Lib.run (visit exec d) t (List.range' i n)) := by
    intro n
    induction n with
    | zero =>
      intro i t ht
      simp [updateLoop, ht]
    | succ n ih =>
      intro i t ht
      obtain ⟨hlen, hkeep⟩ := visit_keeps (d := d) hexec t i
      rw [updateLoop, if_neg (by omega), List.range'_succ, Lib.run_cons]
      split_ifs with hmore
      · exact ih (i + 1) _ (by omega)
      · -- the rest of the list has been erased
        rw [run_visit_erased]
        intro j hj ev hev
        have hij : i < j := by
          have hmem := List.mem_range'_1.1 hj
          omega
        have hsame := hkeep j (by omega)
        rw [hev] at hsame
        obtain ⟨old, hold, herased⟩ := Option.map_eq_some_iff.1 hsame.symm
        by_contra hlive
        rw [hasNext_eq_true_iff] at hmore
        exact hmore (.inr ⟨j, old, hij, hold, by rw [herased]; simpa using hlive⟩)
  rw [hloop s.events.length 0 s (by omega), update, List.range_eq_range']

end DreamHeroes.Common
