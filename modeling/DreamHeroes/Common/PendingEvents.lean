/-
The events of an object that are not deleted (`EventableObject::eventHasEvent`), and what each operation of the program
and each step of the loop makes of them.

- `Table.pending`: the event, while it is one of the object and not deleted.
- `Listed`: such an event is in the map of its object, under its type, and in the list of the holder. `listed_step`
  keeps it, and by `listed_run` it holds after every run.
- `pending_addEvent`, `pending_removeEvents`, `pending_modifyTimeAndTimeLeft`: the operations, on their own object;
  `pending_other`: on another one.
- `Ages`: what the loop makes of an event that goes on; `pending_before` and `pending_after` say that it goes on, starts
  again after its callback, or ends there.
- `Kept.waits`: between two updates no pending event has reached its goal. `Kept.reached`: an event that is executed
  has.
-/
import Mathlib.Tactic
import DreamHeroes.Common.TimerAccuracy

namespace DreamHeroes.Events

open DreamHeroes.Lib

variable {Cb : Type*}

/-! ## Events that are not deleted -/

def Table.pending (s : Table Cb) (o i : ℕ) : Option (TimedEvent Cb) :=
  (s.val i).filter fun ev => ev.deleted = false ∧ ev.owner = o

def eventHasEvent (s : Table Cb) (o ty : ℕ) : Bool := ((s.objects o).find ty).any fun i => (s.pending o i).isSome

theorem pending_eq_some {s : Table Cb} {o i : ℕ} {ev : TimedEvent Cb} :
    s.pending o i = some ev ↔ s.val i = some ev ∧ ev.deleted = false ∧ ev.owner = o := by
  simp [Table.pending, Option.filter_eq_some_iff]

structure Listed (s : Table Cb) : Prop where
  mapped : ∀ o i ev, s.pending o i = some ev → (ev.eventType, i) ∈ (s.objects o).events
  listed : ∀ o i ev, s.pending o i = some ev → i ∈ s.list
  typed : ∀ o ty i ev, (ty, i) ∈ (s.objects o).events → s.val i = some ev → ev.eventType = ty

theorem mem_find_iff {ob : EventableObject} {ty i : ℕ} : i ∈ ob.find ty ↔ (ty, i) ∈ ob.events := by
  simp only [EventableObject.find, List.mem_map, List.mem_filter, decide_eq_true_eq]
  constructor
  · rintro ⟨⟨ty', i'⟩, ⟨hmem, rfl⟩, rfl⟩
    exact hmem
  · intro hmem
    exact ⟨(ty, i), ⟨hmem, rfl⟩, rfl⟩

/-- a pending event has the type it is found under -/
theorem Listed.find_iff {s : Table Cb} (h : Listed s) {o i : ℕ} {ev : TimedEvent Cb} (hev : s.pending o i = some ev)
    (ty : ℕ) : i ∈ (s.objects o).find ty ↔ ev.eventType = ty := by
  rw [mem_find_iff]
  constructor
  · intro hmem
    exact h.typed o ty i ev hmem (pending_eq_some.1 hev).1
  · rintro rfl
    exact h.mapped o i ev hev

theorem eventHasEvent_iff {s : Table Cb} (h : Listed s) (o ty : ℕ) :
    eventHasEvent s o ty = true ↔ ∃ i ev, s.pending o i = some ev ∧ ev.eventType = ty := by
  simp only [eventHasEvent, List.any_eq_true, Option.isSome_iff_exists]
  constructor
  · rintro ⟨i, hi, ev, hev⟩
    exact ⟨i, ev, hev, (h.find_iff hev ty).1 hi⟩
  · rintro ⟨i, ev, hev, hty⟩
    exact ⟨i, (h.find_iff hev ty).2 hty, ev, hev⟩

/-! ## What the program does -/

theorem pending_addEvent (s : Table Cb) (n : NewEvent Cb) (i : ℕ) :
    (addEvent s n).pending n.owner i =
      if i = s.heap.cells.length then some (n.event (if s.atEnd then s.now else s.before))
      else s.pending n.owner i := by
  simp only [Table.pending, val_addEvent]
  by_cases hi : i = s.heap.cells.length
  · rw [if_pos hi, if_pos hi]
    exact Option.filter_some_pos (by simp [NewEvent.event])
  · rw [if_neg hi, if_neg hi]

theorem val_dropped {s s' : Table Cb} {l : List ℕ} (h : s'.heap = s.heap.decRefs TimedEvent.remove l) (i : ℕ) :
    s'.val i = if i ∈ l then (s.val i).map TimedEvent.remove else s.val i := by
  unfold Table.val
  rw [h]
  exact s.heap.val_decRefs (g := TimedEvent.remove) (fun _ => rfl) l i

theorem pending_dropped {s s' : Table Cb} {l : List ℕ} (h : s'.heap = s.heap.decRefs TimedEvent.remove l) (o i : ℕ) :
    s'.pending o i = if i ∈ l then none else s.pending o i := by
  simp only [Table.pending, val_dropped h]
  split_ifs
  · cases s.val i with
    | none => rfl
    | some ev => simp [TimedEvent.remove]
  · rfl

theorem heap_removeEvents (s : Table Cb) (o : ℕ) {ty : ℕ} (hty : ty ≠ removalFlagAll) :
    (eventRemoveEvents s o ty).heap = s.heap.decRefs TimedEvent.remove ((s.objects o).find ty) := by
  simp [eventRemoveEvents, EventableObject.find, hty]

theorem pending_removeEvents {s : Table Cb} (h : Listed s) (o : ℕ) {ty : ℕ} (hty : ty ≠ removalFlagAll) (i : ℕ) :
    (eventRemoveEvents s o ty).pending o i = (s.pending o i).filter fun ev => ev.eventType ≠ ty := by
  rw [pending_dropped (heap_removeEvents s o hty)]
  rcases hev : s.pending o i with _ | ev
  · simp
  · simp only [h.find_iff hev ty]
    by_cases htype : ev.eventType = ty
    · rw [if_pos htype]
      exact (Option.filter_some_neg (by simp [htype])).symm
    · rw [if_neg htype]
      exact (Option.filter_some_pos (by simp [htype])).symm

theorem pending_modifyTimeAndTimeLeft {s : Table Cb} (h : Owned s) (hl : Listed s) (o ty time i : ℕ) :
    (eventModifyTimeAndTimeLeft s o ty time).pending o i = (s.pending o i).map fun ev =>
      if ev.eventType = ty then { ev.setTimeLeft time (s.seen i) with msTime := time, modified := true } else ev := by
  have hval := val_modifyEvents h o ty
    (fun i ev => { ev.setTimeLeft time (s.seen i) with msTime := time, modified := true }) i
  rcases hev : s.pending o i with _ | ev
  · simp only [Table.pending, eventModifyTimeAndTimeLeft, hval, Option.map_none] at hev ⊢
    split_ifs
    · cases hold : s.val i with
      | none => rfl
      | some ev =>
        rw [hold] at hev
        simpa [Option.filter_some, TimedEvent.setTimeLeft] using hev
    · exact hev
  · obtain ⟨hold, hdeleted, howner⟩ := pending_eq_some.1 hev
    refine pending_eq_some.2 ?_
    simp only [eventModifyTimeAndTimeLeft, hval, hold, hl.find_iff hev ty]
    split_ifs
    · exact ⟨rfl, hdeleted, howner⟩
    · exact ⟨rfl, hdeleted, howner⟩

/-- an operation leaves the events of the other objects as they are -/
theorem val_other {s : Table Cb} (h : Owned s) (a : Act Cb) {i : ℕ} {ev : TimedEvent Cb} (hev : s.val i = some ev)
    (ho : ev.owner ≠ a.object) : (act s a).val i = some ev := by
  have howner : s.ownerOf i = some ev.owner := by
    unfold Table.ownerOf
    rw [hev]
    rfl
  have hout : i ∉ (s.objects a.object).ids := by
    intro hi
    rw [h.own a.object i hi] at howner
    exact ho (Option.some.inj howner).symm
  have hdrop {s' : Table Cb} {l : List ℕ} (hheap : s'.heap = s.heap.decRefs TimedEvent.remove l)
      (hl : ∀ j ∈ l, j ∈ (s.objects a.object).ids) : s'.val i = some ev := by
    rw [val_dropped hheap, if_neg fun hi => hout (hl i hi)]
    exact hev
  have hmodify (ty : ℕ) (f : ℕ → TimedEvent Cb → TimedEvent Cb) :
      (modifyEvents s a.object ty f).val i = some ev := by
    rw [val_modifyEvents h, if_neg fun hi => hout (mem_find hi)]
    exact hev
  cases a with
  | addEvent n =>
    have hlt : i < s.heap.cells.length := lt_of_ownerOf howner
    simp only [act, val_addEvent]
    rw [if_neg hlt.ne]
    exact hev
  | removeEvents o ty =>
    refine hdrop rfl fun j hj => ?_
    obtain ⟨p, hp, rfl⟩ := List.mem_map.1 hj
    exact List.mem_map_of_mem (List.mem_of_mem_filter hp)
  | destroy o => exact hdrop rfl fun j hj => hj
  | modifyTimeLeft o ty timeLeft unconditioned => exact hmodify ty _
  | modifyTime o ty time => exact hmodify ty _
  | modifyTimeAndTimeLeft o ty time => exact hmodify ty _

/-- a step other than `addEvent` makes no event, and none changes its object or its type -/
theorem Change.same_object {s s' : Table Cb} {i : ℕ} {ev ev' : TimedEvent Cb} {o : Op Cb} (h : Change s s' i ev o ev') :
    ev'.owner = ev.owner ∧ ev'.eventType = ev.eventType ∧ (ev'.deleted = false → ev.deleted = false) := by
  cases h with
  | same => exact ⟨rfl, rfl, id⟩
  | remove => exact ⟨rfl, rfl, fun hdeleted => by cases hdeleted⟩
  | setTimeLeft => exact ⟨rfl, rfl, id⟩
  | setTime => exact ⟨rfl, rfl, id⟩
  | erase => exact ⟨rfl, rfl, fun hdeleted => by cases hdeleted⟩
  | fire => exact ⟨rfl, rfl, id⟩
  | pass => exact ⟨rfl, rfl, id⟩
  | deletesObject => exact ⟨rfl, rfl, fun hdeleted => by cases hdeleted⟩
  | ends => exact ⟨rfl, rfl, fun hdeleted => by cases hdeleted⟩
  | rearm => exact ⟨rfl, rfl, id⟩

theorem pending_other {s : Table Cb} (h : Owned s) (a : Act Cb) {o : ℕ} (ho : o ≠ a.object) (i : ℕ) :
    (step s (.act a)).pending o i = s.pending o i := by
  simp only [step]
  split_ifs with hguard
  · refine Option.ext fun ev => ?_
    rw [pending_eq_some, pending_eq_some]
    constructor
    · rintro ⟨hev, hdeleted, howner⟩
      have hstep : (step s (.act a)).val i = some ev := by
        simp only [step]
        rw [if_pos hguard]
        exact hev
      rcases exists_before h (.act a) hstep with ⟨ev0, hev0, hchange⟩ | ⟨n, ha, -, -, rfl⟩
      · have hown := hchange.same_object.1
        have hsame := val_other h a hev0 (by rw [← hown, howner]; exact ho)
        rw [hev] at hsame
        exact ⟨hev0.trans hsame.symm, hdeleted, howner⟩
      · cases ha
        exact absurd howner.symm ho
    · rintro ⟨hev, hdeleted, howner⟩
      exact ⟨val_other h a hev (by rw [howner]; exact ho), hdeleted, howner⟩
  · rfl

/-! ## The maps and the list -/

theorem objects_loop {s s' : Table Cb} {o : Op Cb} (hl : LoopStep s o s') : s'.objects = s.objects := by
  cases hl with
  | idle => rfl
  | atEnd => rfl
  | erase => rfl
  | fire => rfl
  | pass => rfl
  | deletesObject => rfl
  | ends => rfl
  | rearm => rfl

/-- an entry of a map was there before, or is the one that is added -/
theorem events_step (s : Table Cb) (op : Op Cb) {o : ℕ} {p : ℕ × ℕ} (hp : p ∈ ((step s op).objects o).events) :
    p ∈ (s.objects o).events ∨
      ∃ n, op = .act (.addEvent n) ∧ step s op = addEvent s n ∧ p = (n.eventType, s.heap.cells.length) := by
  cases op with
  | act a =>
    simp only [step] at hp ⊢
    split_ifs at hp ⊢
    · cases a with
      | addEvent n =>
        simp only [act, addEvent] at hp
        rcases eq_or_ne o n.owner with rfl | ho
        · rw [Function.update_self] at hp
          rcases List.mem_append.1 hp with hp | hp
          · exact Or.inl hp
          · exact Or.inr ⟨n, rfl, rfl, List.mem_singleton.1 hp⟩
        · rw [Function.update_of_ne ho] at hp
          exact Or.inl hp
      | removeEvents o' ty =>
        left
        simp only [act, eventRemoveEvents] at hp
        rcases eq_or_ne o o' with rfl | ho
        · rw [Function.update_self] at hp
          exact List.mem_of_mem_filter hp
        · rwa [Function.update_of_ne ho] at hp
      | destroy o' =>
        left
        simp only [act, destroy] at hp
        rcases eq_or_ne o o' with rfl | ho
        · rw [Function.update_self] at hp
          cases hp
        · rwa [Function.update_of_ne ho] at hp
      | modifyTimeLeft => exact Or.inl hp
      | modifyTime => exact Or.inl hp
      | modifyTimeAndTimeLeft => exact Or.inl hp
    · exact Or.inl hp
  | update d =>
    simp only [step] at hp ⊢
    split_ifs at hp
    · exact Or.inl hp
    · exact Or.inl hp
  | visit =>
    rw [objects_loop (loop_visit s)] at hp
    exact Or.inl hp
  | ret =>
    rw [objects_loop (loop_ret s)] at hp
    exact Or.inl hp

/-- an entry that leaves a map is deleted -/
theorem kept_step_entry (s : Table Cb) (op : Op Cb) {o ty i : ℕ} (hp : (ty, i) ∈ (s.objects o).events)
    {ev' : TimedEvent Cb} (hev' : (step s op).pending o i = some ev') : (ty, i) ∈ ((step s op).objects o).events := by
  cases op with
  | act a =>
    simp only [step] at hev' ⊢
    split_ifs at hev' ⊢
    · cases a with
      | addEvent n =>
        simp only [act, addEvent]
        rcases eq_or_ne o n.owner with rfl | ho
        · rw [Function.update_self]
          exact List.mem_append_left _ hp
        · rwa [Function.update_of_ne ho]
      | removeEvents o' ty' =>
        simp only [act, eventRemoveEvents] at hev' ⊢
        rcases eq_or_ne o o' with rfl | ho
        · rw [Function.update_self]
          refine List.mem_filter.2 ⟨hp, ?_⟩
          rw [decide_eq_true_eq]
          intro hgone
          rw [pending_dropped rfl, if_pos] at hev'
          · cases hev'
          · exact List.mem_map_of_mem (List.mem_filter.2 ⟨hp, decide_eq_true hgone⟩)
        · rwa [Function.update_of_ne ho]
      | destroy o' =>
        simp only [act, destroy] at hev' ⊢
        rcases eq_or_ne o o' with rfl | ho
        · rw [pending_dropped rfl, if_pos] at hev'
          · cases hev'
          · exact List.mem_map_of_mem hp
        · rwa [Function.update_of_ne ho]
      | modifyTimeLeft => exact hp
      | modifyTime => exact hp
      | modifyTimeAndTimeLeft => exact hp
    · exact hp
  | update d =>
    simp only [step]
    split_ifs
    · exact hp
    · exact hp
  | visit => rwa [objects_loop (loop_visit s)]
  | ret => rwa [objects_loop (loop_ret s)]

theorem listed_step {s : Table Cb} (h : Owned s) (hp : Placed s) (op : Op Cb) (hl : Listed s) : Listed (step s op) := by
  refine ⟨fun o i ev' hev' => ?_, fun o i ev' hev' => ?_, fun o ty i ev' hmem hev' => ?_⟩
  · obtain ⟨hval, hdeleted, howner⟩ := pending_eq_some.1 hev'
    rcases exists_before h op hval with ⟨ev, hev, hchange⟩ | ⟨n, -, he, hi, rfl⟩
    · obtain ⟨hown, htype, hlive⟩ := hchange.same_object
      have hold := hl.mapped o i ev (pending_eq_some.2 ⟨hev, hlive hdeleted, hown.symm.trans howner⟩)
      rw [← htype] at hold
      exact kept_step_entry s op hold hev'
    · rw [he, hi, ← howner]
      simp [addEvent, NewEvent.event]
  · obtain ⟨hval, hdeleted, howner⟩ := pending_eq_some.1 hev'
    rcases exists_before h op hval with ⟨ev, hev, hchange⟩ | ⟨n, -, he, hi, rfl⟩
    · obtain ⟨hown, -, hlive⟩ := hchange.same_object
      have hold := hl.listed o i ev (pending_eq_some.2 ⟨hev, hlive hdeleted, hown.symm.trans howner⟩)
      have hlt : i < s.heap.cells.length := h.list_lt hold
      have hact (a : Act Cb) : i ∈ (step s (.act a)).list :=
        (stays_step hp hlt (by unfold Turn; simp)).list.2 hold
      cases hchange with
      | same hturn => exact (stays_step hp hlt hturn).list.2 hold
      | remove a => exact hact a
      | setTimeLeft a => exact hact a
      | setTime a => exact hact a
      | erase => cases hdeleted
      | fire d _ _ _ _ _ hcur => simp [Table.list, hcur]
      | pass _ _ _ _ _ _ _ hin => exact hin
      | deletesObject => cases hdeleted
      | ends => cases hdeleted
      | rearm _ _ _ _ _ hin => exact hin
    · rw [he, hi]
      exact (list_addEvent s n).mem_iff.2 List.mem_cons_self
  · rcases exists_before h op hev' with ⟨ev, hev, hchange⟩ | ⟨n, hop, he, hi, rfl⟩
    · rw [hchange.same_object.2.1]
      rcases events_step s op hmem with hold | ⟨n, -, -, hnew⟩
      · exact hl.typed o ty i ev hold hev
      · have hlt : i < s.heap.cells.length :=
          lt_of_ownerOf (o := ev.owner) (by unfold Table.ownerOf; rw [hev]; rfl)
        rw [(Prod.mk.inj hnew).2] at hlt
        exact absurd hlt (Nat.lt_irrefl _)
    · rcases events_step s op hmem with hold | ⟨n', hop', -, hnew⟩
      · have hlt := h.map_lt (List.mem_map_of_mem (f := Prod.snd) hold)
        rw [hi] at hlt
        exact absurd hlt (Nat.lt_irrefl _)
      · rw [hop] at hop'
        cases hop'
        exact (Prod.mk.inj hnew).1.symm

theorem listed_start : Listed ({} : Table Cb) where
  mapped := fun o i ev hev => by simp [Table.pending, Table.val, Heap.val] at hev
  listed := fun o i ev hev => by simp [Table.pending, Table.val, Heap.val] at hev
  typed := fun o ty i ev hmem => by cases hmem

theorem listed_run (ops : List (Op Cb)) : Listed (run step ({} : Table Cb) ops) := by
  have hboth := inv_run_all (I := fun s : Table Cb => Kept s ∧ Listed s)
    (fun _ o h => ⟨kept_step o h.1, listed_step h.1.owned h.1.placed o h.2⟩) ops ⟨kept_run [], listed_start⟩
  exact hboth.2

/-! ## The loop -/

/-- what stays of an event while it goes on -/
structure Ages (ev ev' : TimedEvent Cb) : Prop where
  cb : ev'.cb = ev.cb
  eventType : ev'.eventType = ev.eventType
  eventFlag : ev'.eventFlag = ev.eventFlag
  instanceId : ev'.instanceId = ev.instanceId
  delay : ev'.delay = ev.delay
  wanted : ev'.wanted = ev.wanted
  modified : ev'.modified = ev.modified
  goal : ev'.goal = ev.goal
  armed : ev'.armed = ev.armed

theorem Ages.refl (ev : TimedEvent Cb) : Ages ev ev := ⟨rfl, rfl, rfl, rfl, rfl, rfl, rfl, rfl, rfl⟩

/-- a pending event after a step of the loop went on, or starts again after its callback -/
theorem pending_before {s : Table Cb} (h : Owned s) {op : Op Cb} (hloop : ∀ a, op ≠ .act a) {o i : ℕ}
    {ev' : TimedEvent Cb}
    (hev' : (step s op).pending o i = some ev') : ∃ ev, s.pending o i = some ev ∧
      (Ages ev ev' ∧ (op = .ret → s.cur ≠ some i) ∨
        op = .ret ∧ s.cur = some i ∧ ev.deletesObject = false ∧ ev' = ev.rearm s.now) := by
  obtain ⟨hval, hdeleted, howner⟩ := pending_eq_some.1 hev'
  rcases exists_before h op hval with ⟨ev, hev, hchange⟩ | ⟨n, hop, -⟩
  · obtain ⟨hown, -, hlive⟩ := hchange.same_object
    refine ⟨ev, pending_eq_some.2 ⟨hev, hlive hdeleted, hown.symm.trans howner⟩, ?_⟩
    cases hchange with
    | same hturn => exact Or.inl ⟨.refl _, fun hop hcur => hturn (Or.inr ⟨hop, hcur⟩)⟩
    | remove a => exact absurd rfl (hloop a)
    | setTimeLeft a => exact absurd rfl (hloop a)
    | setTime a => exact absurd rfl (hloop a)
    | erase => cases hdeleted
    | fire => exact Or.inl ⟨⟨rfl, rfl, rfl, rfl, rfl, rfl, rfl, rfl, rfl⟩, fun hop => by cases hop⟩
    | pass => exact Or.inl ⟨⟨rfl, rfl, rfl, rfl, rfl, rfl, rfl, rfl, rfl⟩, fun hop => by cases hop⟩
    | deletesObject => cases hdeleted
    | ends => cases hdeleted
    | rearm hcur hkeeps => exact Or.inr ⟨rfl, hcur, hkeeps, rfl⟩
  · exact absurd hop (hloop _)

/-- a pending event goes on, or its callback returns: it starts again, or ends -/
theorem pending_after {s : Table Cb} (h : Owned s) {op : Op Cb} (hloop : ∀ a, op ≠ .act a) {o i : ℕ}
    {ev : TimedEvent Cb} (hev : s.pending o i = some ev) (hex : Executable ev) (hcb : ev.cb ≠ none) :
    (∃ ev', (step s op).pending o i = some ev' ∧ Ages ev ev') ∨
      s.cur = some i ∧
      (ev.deletesObject = true ∨ ev.ends = true ∨ (step s op).pending o i = some (ev.rearm s.now)) := by
  obtain ⟨hval, hdeleted, howner⟩ := pending_eq_some.1 hev
  obtain ⟨ev', hev', hchange⟩ := change_step h op hval
  have hon (hdeleted' : ev'.deleted = false) : (step s op).pending o i = some ev' :=
    pending_eq_some.2 ⟨hev', hdeleted', hchange.same_object.1.trans howner⟩
  cases hchange with
  | same => exact Or.inl ⟨_, hon hdeleted, .refl _⟩
  | remove a => exact absurd rfl (hloop a)
  | setTimeLeft a => exact absurd rfl (hloop a)
  | setTime a => exact absurd rfl (hloop a)
  | erase d _ _ hskip =>
    rcases hskip with hnot | ⟨-, hnone⟩
    · exact absurd hex hnot
    · exact absurd hnone hcb
  | fire => exact Or.inl ⟨_, hon hdeleted, ⟨rfl, rfl, rfl, rfl, rfl, rfl, rfl, rfl, rfl⟩⟩
  | pass => exact Or.inl ⟨_, hon hdeleted, ⟨rfl, rfl, rfl, rfl, rfl, rfl, rfl, rfl, rfl⟩⟩
  | deletesObject hcur hdeletes => exact Or.inr ⟨hcur, Or.inl hdeletes⟩
  | ends hcur _ hends => exact Or.inr ⟨hcur, Or.inr (Or.inl hends)⟩
  | rearm hcur => exact Or.inr ⟨hcur, Or.inr (Or.inr (hon hdeleted))⟩

theorem Kept.ret_cur {s : Table Cb} (h : Kept s) : (step s .ret).cur = none := by
  have hloop := loop_ret s
  revert hloop
  generalize step s .ret = s'
  intro hloop
  cases hloop with
  | idle _ hidle =>
    rcases hcur : s.cur with _ | i
    · rfl
    · obtain ⟨ev, hev⟩ := exists_val (h.owned.list_lt (show i ∈ s.list by simp [Table.list, hcur]))
      exact absurd (Or.inr ⟨rfl, hcur⟩) (hidle i ev hev)
  | deletesObject => rfl
  | ends => rfl
  | rearm => rfl

/-- the loop executes an event -/
theorem Kept.reached {s : Table Cb} (h : Kept s) {i : ℕ} (hcur : s.cur = none) (hcur' : (step s .visit).cur = some i) :
    ∃ ev, s.val i = some ev ∧ ev.deleted = false ∧ (step s .visit).val i = some (ev.fire s.before s.now) ∧
      ev.armed.clock + ev.goal ≤ s.now.clock := by
  have htimely := (kept_step .visit h).timely i
  have hloop := loop_visit s
  revert htimely hcur' hloop
  generalize hs' : step s .visit = s'
  intro hcur' htimely hloop
  have hnone (hsame : s'.cur = none) : False := by
    rw [hsame] at hcur'
    cases hcur'
  cases hloop with
  | idle => exact absurd hcur hnone
  | atEnd => exact absurd hcur hnone
  | erase => exact absurd hcur hnone
  | pass => exact absurd hcur hnone
  | fire d j l ev hd _ hrest hev hex hdue hcb =>
    obtain rfl : j = i := Option.some.inj hcur'
    have hval : (s.heap.write (TimedEvent.fire s.before s.now) j).val j = some (ev.fire s.before s.now) := by
      rw [s.heap.val_write, if_pos rfl, show s.heap.val j = some ev from hev]
      rfl
    have hfire := (htimely _ hval).due ⟨ev.armed, ev.goal, s.before, s.now⟩
      (List.mem_append_right _ (List.mem_singleton.2 rfl))
    refine ⟨ev, hev, hex.not_deleted, hval, ?_⟩
    have hreached := hfire.reached
    have hpast := (hfire.after.trans hfire.next).clock
    dsimp only at hreached hpast
    omega

/-- between two updates no pending event has reached its goal -/
theorem Kept.waits {s : Table Cb} (h : Kept s) (hl : Listed s) (hidle : s.updating = none) {o i : ℕ}
    {ev : TimedEvent Cb}
    (hev : s.pending o i = some ev) (hgoal : 0 < ev.goal) : s.now.clock < ev.armed.clock + ev.goal := by
  obtain ⟨hcur, -, -, hbefore⟩ := h.placed.idle hidle
  have hwait := (h.timely i ev (pending_eq_some.1 hev).1).waiting (hl.listed o i ev hev) (by simp [hcur])
  rw [show s.seen i = s.now by simp [Table.seen, hbefore]] at hwait
  obtain ⟨⟨-, hclock⟩, hsame, -, hnotDue⟩ := hwait
  rcases hnotDue with hround | hless
  · rw [hsame hround]
    omega
  · omega

end DreamHeroes.Events
