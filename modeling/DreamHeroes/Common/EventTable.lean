/-
The timers with their memory (`common/event_table_object.cpp`, `common/event_manager.h`). `EventHolder.lean` models one
`update` as a whole; here the objects and the holder share events on a heap, and what a callback does is done step by
step while the loop of `update` stands at the entry that is executed.

- `Act`: what the program does with events, between two updates or in a callback: `addEvent`, `removeEvents`, the
  destructor of an `EventableObject`, and the changes of the times.
- `Table`: the heap, the map of every object and the list of the holder. During an update the list is cut where the
  iterators stand: `front` has been visited, `cur` is executed, `rest` begins at `itr`, and `back` is what has been
  added while `itr` was at the end.
- `visit`, `ret`: one round of the loop, up to the callback and after it.
- `step`: one step of a run.
- `LoopStep`: what the steps of the loop do, case by case; the proofs about them start from here.

The fields of an event from `owner` on and the stamps of the table are bookkeeping. A program has one holder, for
`WORLD_INSTANCE`, and no class overrides `eventGetInstanceID`.
-/
import Mathlib.Tactic
import DreamHeroes.Lib.Machine
import DreamHeroes.Lib.RefCount

namespace DreamHeroes.Events

open DreamHeroes.Lib

/-! ## Events -/

def worldInstance : ℤ := -1

/-- `EVENT_REMOVAL_FLAG_ALL` -/
def removalFlagAll : ℕ := 0xFFFFFFFF

/-- the number of the updates that have started, and their times together -/
structure Stamp where
  round : ℕ := 0
  clock : ℕ := 0
deriving DecidableEq, Repr

/-- an execution of a callback: what it waited for since when, and the stamps around the update it happens in -/
structure Firing where
  armed : Stamp
  goal : ℕ
  before : Stamp
  now : Stamp
deriving DecidableEq, Repr

structure TimedEvent (Cb : Type*) where
  cb : Option Cb
  eventType : ℕ
  eventFlag : ℕ
  msTime : ℕ
  currTime : ℕ
  repeats : ℤ
  deleted : Bool := false
  instanceId : ℤ := worldInstance
  owner : ℕ
  /-- `msTime` and `repeats` at the beginning, and when that was -/
  delay : ℕ
  wanted : ℤ
  added : Stamp
  /-- when `currTime` was last set, and to what -/
  armed : Stamp
  goal : ℕ
  firings : List Firing := []
  modified : Bool := false
  removed : Bool := false
deriving DecidableEq, Repr

variable {Cb : Type*}

/-- `EVENT_FLAG_DO_NOT_EXECUTE_IN_WORLD_CONTEXT` -/
def TimedEvent.notInWorld (ev : TimedEvent Cb) : Bool := ev.eventFlag.testBit 0

/-- `EVENT_FLAG_DELETES_OBJECT` -/
def TimedEvent.deletesObject (ev : TimedEvent Cb) : Bool := ev.eventFlag.testBit 1

/-- what `decRef` sets -/
def TimedEvent.mark (ev : TimedEvent Cb) : TimedEvent Cb := { ev with deleted := true }

/-- the same, from `eventRemoveEvents` and the destructor -/
def TimedEvent.remove (ev : TimedEvent Cb) : TimedEvent Cb := { ev with deleted := true, removed := true }

def TimedEvent.setTimeLeft (ev : TimedEvent Cb) (time : ℕ) (seen : Stamp) : TimedEvent Cb :=
  { ev with currTime := time, goal := time, armed := seen }

/-- the update visits the event, and it is not due -/
def TimedEvent.pass (d : ℕ) (ev : TimedEvent Cb) : TimedEvent Cb := { ev with currTime := ev.currTime - d }

def TimedEvent.fire (before now : Stamp) (ev : TimedEvent Cb) : TimedEvent Cb :=
  { ev with firings := ev.firings ++ [⟨ev.armed, ev.goal, before, now⟩] }

/-- `ev->repeats && --ev->repeats` -/
def TimedEvent.count (ev : TimedEvent Cb) : TimedEvent Cb :=
  { ev with repeats := if ev.repeats = 0 then 0 else ev.repeats - 1 }

/-- the callback was the last one, or the event has been removed -/
def TimedEvent.ends (ev : TimedEvent Cb) : Bool := (ev.repeats ≠ 0 ∧ ev.count.repeats = 0) || ev.deleted

def TimedEvent.rearm (now : Stamp) (ev : TimedEvent Cb) : TimedEvent Cb := ev.count.setTimeLeft ev.msTime now

/-! ## The table -/

structure EventableObject where
  /-- `m_events`: the entries of a type in the order of the insertion -/
  events : List (ℕ × ℕ) := []
  destroyed : Bool := false
deriving DecidableEq, Repr

def EventableObject.ids (ob : EventableObject) : List ℕ := ob.events.map Prod.snd

/-- the events of a type -/
def EventableObject.find (ob : EventableObject) (ty : ℕ) : List ℕ :=
  (ob.events.filter fun p => p.1 = ty).map Prod.snd

structure Table (Cb : Type*) where
  heap : Heap (TimedEvent Cb) := {}
  objects : ℕ → EventableObject := fun _ => {}
  front : List ℕ := []
  cur : Option ℕ := none
  rest : List ℕ := []
  back : List ℕ := []
  /-- the time of the update that is running -/
  updating : Option ℕ := none
  /-- before the update that is running, or now -/
  before : Stamp := {}
  now : Stamp := {}

/-- `m_events` of the holder -/
def Table.list (s : Table Cb) : List ℕ := s.front ++ s.cur.toList ++ s.rest ++ s.back

def Table.val (s : Table Cb) (i : ℕ) : Option (TimedEvent Cb) := s.heap.val i

/-- a callback runs, and `itr` is at the end -/
def Table.atEnd (s : Table Cb) : Bool := s.cur.isSome && s.rest.isEmpty

/-- the updates that have visited the entry, or passed it -/
def Table.seen (s : Table Cb) (i : ℕ) : Stamp := if i ∈ s.rest then s.before else s.now

/-! ## What the program does -/

/-- `EventMgr::addEvent`, on the object `owner` -/
structure NewEvent (Cb : Type*) where
  owner : ℕ
  cb : Option Cb
  eventType : ℕ
  time : ℕ
  repeats : ℤ
  flags : ℕ
deriving DecidableEq, Repr

inductive Act (Cb : Type*) where
  | addEvent (n : NewEvent Cb)
  | removeEvents (owner ty : ℕ)
  | destroy (owner : ℕ)
  | modifyTimeLeft (owner ty timeLeft : ℕ) (unconditioned : Bool)
  | modifyTime (owner ty time : ℕ)
  | modifyTimeAndTimeLeft (owner ty time : ℕ)
deriving DecidableEq, Repr

def Act.object : Act Cb → ℕ
  | .addEvent n => n.owner
  | .removeEvents o _ => o
  | .destroy o => o
  | .modifyTimeLeft o _ _ _ => o
  | .modifyTime o _ _ => o
  | .modifyTimeAndTimeLeft o _ _ => o

def NewEvent.event (n : NewEvent Cb) (seen : Stamp) : TimedEvent Cb :=
  { cb := n.cb, eventType := n.eventType, eventFlag := n.flags, msTime := n.time, currTime := n.time,
    repeats := n.repeats, owner := n.owner, delay := n.time, wanted := n.repeats, added := seen, armed := seen,
    goal := n.time }

/-- `eventAddEvent`: one reference from the map of the object, one from the list of the holder -/
def addEvent (s : Table Cb) (n : NewEvent Cb) : Table Cb :=
  let i := s.heap.cells.length
  let ob := s.objects n.owner
  { s with
    heap := ((s.heap.alloc (n.event (if s.atEnd then s.now else s.before))).incRef i).incRef i
    objects := Function.update s.objects n.owner { ob with events := ob.events ++ [(n.eventType, i)] }
    rest := if s.atEnd then s.rest else s.rest ++ [i]
    back := if s.atEnd then s.back ++ [i] else s.back }

/-- the entries of a type, or all, leave the map of the object -/
def eventRemoveEvents (s : Table Cb) (o ty : ℕ) : Table Cb :=
  let ob := s.objects o
  let gone := ob.events.filter fun p => ty = removalFlagAll ∨ p.1 = ty
  { s with
    heap := s.heap.decRefs TimedEvent.remove (gone.map Prod.snd)
    objects := Function.update s.objects o
      { ob with events := ob.events.filter fun p => ¬(ty = removalFlagAll ∨ p.1 = ty) } }

/-- `~EventableObject` -/
def destroy (s : Table Cb) (o : ℕ) : Table Cb :=
  let ob := s.objects o
  { s with
    heap := s.heap.decRefs TimedEvent.remove ob.ids
    objects := Function.update s.objects o { events := [], destroyed := true } }

/-- the loop over the events of a type -/
def modifyEvents (s : Table Cb) (o ty : ℕ) (f : ℕ → TimedEvent Cb → TimedEvent Cb) : Table Cb :=
  { s with heap := s.heap.writes f ((s.objects o).find ty) }

def eventModifyTimeLeft (s : Table Cb) (o ty timeLeft : ℕ) (unconditioned : Bool) : Table Cb :=
  modifyEvents s o ty fun i ev =>
    let time := if unconditioned then timeLeft else if timeLeft > ev.msTime then ev.msTime else timeLeft
    { ev.setTimeLeft time (s.seen i) with modified := true }

def eventModifyTime (s : Table Cb) (o ty time : ℕ) : Table Cb :=
  modifyEvents s o ty fun _ ev => { ev with msTime := time, modified := true }

def eventModifyTimeAndTimeLeft (s : Table Cb) (o ty time : ℕ) : Table Cb :=
  modifyEvents s o ty fun i ev => { ev.setTimeLeft time (s.seen i) with msTime := time, modified := true }

def act (s : Table Cb) : Act Cb → Table Cb
  | .addEvent n => addEvent s n
  | .removeEvents o ty => eventRemoveEvents s o ty
  | .destroy o => destroy s o
  | .modifyTimeLeft o ty timeLeft unconditioned => eventModifyTimeLeft s o ty timeLeft unconditioned
  | .modifyTime o ty time => eventModifyTime s o ty time
  | .modifyTimeAndTimeLeft o ty time => eventModifyTimeAndTimeLeft s o ty time

/-! ## The update -/

/-- the start of `EventableObjectHolder::update` -/
def startUpdate (s : Table Cb) (d : ℕ) : Table Cb :=
  { s with updating := some d, before := s.now, now := ⟨s.now.round + 1, s.now.clock + d⟩ }

/-- `itr` is at the end -/
def endUpdate (s : Table Cb) : Table Cb :=
  { s with front := [], rest := s.front ++ s.back, back := [], updating := none, before := s.now }

/-- the loop at the entry `i`, up to the callback -/
def visitEvent (s : Table Cb) (d i : ℕ) (ev : TimedEvent Cb) : Table Cb :=
  if ev.instanceId ≠ worldInstance ∨ ev.deleted ∨ ev.notInWorld then { s with heap := s.heap.decRef TimedEvent.mark i }
  else if ev.currTime ≤ d then
    match ev.cb with
    | none => { s with heap := s.heap.decRef TimedEvent.mark i }
    | some _ => { s with heap := s.heap.write (TimedEvent.fire s.before s.now) i, cur := some i }
  else { s with heap := s.heap.write (TimedEvent.pass d) i, front := s.front ++ [i] }

/-- the test of the loop, and the entry `itr` stands at -/
def visit (s : Table Cb) (d : ℕ) : Table Cb :=
  match s.rest with
  | [] => endUpdate s
  | i :: rest =>
    match s.val i with
    | none => s
    | some ev => visitEvent { s with rest := rest } d i ev

/-- the loop after the callback of the entry `i` -/
def ret (s : Table Cb) (i : ℕ) (ev : TimedEvent Cb) : Table Cb :=
  if ev.deletesObject then { s with heap := s.heap.decRef TimedEvent.mark i, cur := none }
  else if ev.ends then { s with heap := (s.heap.write TimedEvent.count i).decRef TimedEvent.mark i, cur := none }
  else { s with heap := s.heap.write (TimedEvent.rearm s.now) i, cur := none, front := s.front ++ [i] }

/-! ## Steps -/

inductive Op (Cb : Type*) where
  | act (a : Act Cb)
  | update (d : ℕ)
  | visit
  | ret
deriving DecidableEq, Repr

/-- the program acts between two updates and in the callbacks, on objects that exist; between these the loop runs -/
def step (s : Table Cb) : Op Cb → Table Cb
  | .act a =>
    if (s.updating = none ∨ s.cur ≠ none) ∧ (s.objects a.object).destroyed = false then act s a else s
  | .update d => if s.updating = none then startUpdate s d else s
  | .visit =>
    match s.updating, s.cur with
    | some d, none => visit s d
    | _, _ => s
  | .ret =>
    match s.cur with
    | none => s
    | some i =>
      match s.val i with
      | none => s
      | some ev => ret s i ev

/-! ## What the loop does -/

/-- the loop may execute the event -/
structure Executable (ev : TimedEvent Cb) : Prop where
  instance_eq : ev.instanceId = worldInstance
  not_deleted : ev.deleted = false
  inWorld : ev.notInWorld = false

/-- the loop stands at the event, or returns from its callback -/
def Turn (s : Table Cb) (o : Op Cb) (i : ℕ) : Prop :=
  (o = .visit ∧ s.updating ≠ none ∧ s.cur = none ∧ s.rest.head? = some i) ∨ (o = .ret ∧ s.cur = some i)

/-- a step of the loop, by what it does to the entry whose turn it is -/
inductive LoopStep (s : Table Cb) : Op Cb → Table Cb → Prop where
  | idle (o : Op Cb) (h : ∀ i ev, s.val i = some ev → ¬Turn s o i) : LoopStep s o s
  | atEnd (d : ℕ) (hd : s.updating = some d) (hcur : s.cur = none) (hrest : s.rest = []) :
      LoopStep s .visit (endUpdate s)
  | erase (d i : ℕ) (l : List ℕ) (ev : TimedEvent Cb) (hd : s.updating = some d) (hcur : s.cur = none)
      (hrest : s.rest = i :: l) (hev : s.val i = some ev) (h : ¬Executable ev ∨ ev.currTime ≤ d ∧ ev.cb = none) :
      LoopStep s .visit { s with heap := s.heap.decRef TimedEvent.mark i, rest := l }
  | fire (d i : ℕ) (l : List ℕ) (ev : TimedEvent Cb) (hd : s.updating = some d) (hcur : s.cur = none)
      (hrest : s.rest = i :: l) (hev : s.val i = some ev) (h : Executable ev) (hdue : ev.currTime ≤ d)
      (hcb : ev.cb ≠ none) :
      LoopStep s .visit { s with heap := s.heap.write (TimedEvent.fire s.before s.now) i, cur := some i, rest := l }
  | pass (d i : ℕ) (l : List ℕ) (ev : TimedEvent Cb) (hd : s.updating = some d) (hcur : s.cur = none)
      (hrest : s.rest = i :: l) (hev : s.val i = some ev) (h : Executable ev) (hdue : d < ev.currTime) :
      LoopStep s .visit { s with heap := s.heap.write (TimedEvent.pass d) i, front := s.front ++ [i], rest := l }
  | deletesObject (i : ℕ) (ev : TimedEvent Cb) (hcur : s.cur = some i) (hev : s.val i = some ev)
      (h : ev.deletesObject = true) : LoopStep s .ret { s with heap := s.heap.decRef TimedEvent.mark i, cur := none }
  | ends (i : ℕ) (ev : TimedEvent Cb) (hcur : s.cur = some i) (hev : s.val i = some ev) (h : ev.deletesObject = false)
      (hends : ev.ends = true) :
      LoopStep s .ret { s with heap := (s.heap.write TimedEvent.count i).decRef TimedEvent.mark i, cur := none }
  | rearm (i : ℕ) (ev : TimedEvent Cb) (hcur : s.cur = some i) (hev : s.val i = some ev) (h : ev.deletesObject = false)
      (hends : ev.ends = false) :
      LoopStep s .ret { s with heap := s.heap.write (TimedEvent.rearm s.now) i, cur := none, front := s.front ++ [i] }

theorem loop_visit (s : Table Cb) : LoopStep s .visit (step s .visit) := by
  simp only [step]
  split
  · rename_i d hd hcur
    unfold visit
    split
    · rename_i hrest
      exact .atEnd d hd hcur hrest
    · rename_i i l hrest
      split
      · rename_i hi
        refine .idle _ fun j ev hev => ?_
        rintro (⟨-, -, -, hhead⟩ | ⟨ho, -⟩)
        · rw [hrest] at hhead
          rw [← Option.some.inj hhead, hi] at hev
          cases hev
        · cases ho
      · rename_i ev hev
        unfold visitEvent
        split_ifs with hskip hdue
        · refine .erase d i l ev hd hcur hrest hev (Or.inl fun hex => ?_)
          simp [hex.instance_eq, hex.not_deleted, hex.inWorld] at hskip
        · have hex : Executable ev := by
            push Not at hskip
            exact ⟨hskip.1, by simpa using hskip.2.1, by simpa using hskip.2.2⟩
          split
          · rename_i hcb
            exact .erase d i l ev hd hcur hrest hev (Or.inr ⟨hdue, hcb⟩)
          · rename_i c hcb
            exact .fire d i l ev hd hcur hrest hev hex hdue (by rw [hcb]; exact Option.some_ne_none c)
        · have hex : Executable ev := by
            push Not at hskip
            exact ⟨hskip.1, by simpa using hskip.2.1, by simpa using hskip.2.2⟩
          exact .pass d i l ev hd hcur hrest hev hex (Nat.not_le.1 hdue)
  · rename_i hno
    refine .idle _ fun j ev hev => ?_
    rintro (⟨-, hupdating, hcur, -⟩ | ⟨ho, -⟩)
    · obtain ⟨d, hd⟩ := Option.ne_none_iff_exists'.1 hupdating
      exact hno d hd hcur
    · cases ho

theorem loop_ret (s : Table Cb) : LoopStep s .ret (step s .ret) := by
  simp only [step]
  split
  · rename_i hcur
    exact .idle _ fun j ev _ => by simp [Turn, hcur]
  · rename_i i hcur
    split
    · rename_i hi
      refine .idle _ fun j ev hev => ?_
      rintro (⟨ho, -⟩ | ⟨-, he⟩)
      · cases ho
      · rw [hcur] at he
        rw [← Option.some.inj he, hi] at hev
        cases hev
    · rename_i ev hev
      unfold ret
      split_ifs with hdeletes hends
      · exact .deletesObject i ev hcur hev hdeletes
      · exact .ends i ev hcur hev (by simpa using hdeletes) hends
      · exact .rearm i ev hcur hev (by simpa using hdeletes) (by simpa using hends)

end DreamHeroes.Events
