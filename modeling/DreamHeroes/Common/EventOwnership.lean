/-
Who holds an event, and how long it lives: the references of the maps of the objects and of the list of the holder, over
every order of additions, removals, destructions and updates, from inside the callbacks too.

- `Owned`: the references of an event are counted as they are held (`Lib.Counted`), an event is in the map of its own
  object only, and no container has it twice.
- `owned_run`: so it is after every run.
- `ref_eq_ncard`: the count of an event is the number of the containers that have it; it is freed once, when no
  container is left.
- `removed_run`: an event that is deleted is not executed in any further run.
-/
import Mathlib.Tactic
import DreamHeroes.Common.EventTable

namespace DreamHeroes.Events

open DreamHeroes.Lib

variable {Cb : Type*}

/-! ## References -/

def Table.ownerOf (s : Table Cb) (i : ℕ) : Option ℕ := (s.val i).map TimedEvent.owner

/-- the references from the maps -/
def Table.mapped (s : Table Cb) (i : ℕ) : ℕ :=
  match s.ownerOf i with
  | none => 0
  | some o => (s.objects o).ids.count i

structure Owned (s : Table Cb) : Prop where
  counted : Counted s.heap fun i => s.mapped i + s.list.count i
  own : ∀ o, ∀ i ∈ (s.objects o).ids, s.ownerOf i = some o
  nodup : ∀ o, (s.objects o).ids.Nodup
  list_nodup : s.list.Nodup

theorem Owned.map_pos {s : Table Cb} (h : Owned s) {o i : ℕ} (hi : i ∈ (s.objects o).ids) : 0 < s.mapped i := by
  unfold Table.mapped
  rw [h.own o i hi]
  exact List.count_pos_iff.2 hi

theorem Owned.list_pos {s : Table Cb} {i : ℕ} (hi : i ∈ s.list) : 0 < s.mapped i + s.list.count i :=
  Nat.add_pos_right _ (List.count_pos_iff.2 hi)

theorem lt_of_ownerOf {s : Table Cb} {i o : ℕ} (h : s.ownerOf i = some o) : i < s.heap.cells.length := by
  by_contra hlt
  unfold Table.ownerOf Table.val Heap.val at h
  rw [List.getElem?_eq_none (Nat.not_lt.1 hlt)] at h
  cases h

theorem Owned.list_lt {s : Table Cb} (h : Owned s) {i : ℕ} (hi : i ∈ s.list) : i < s.heap.cells.length :=
  h.counted.lt (Owned.list_pos hi)

theorem Owned.map_lt {s : Table Cb} (h : Owned s) {o i : ℕ} (hi : i ∈ (s.objects o).ids) : i < s.heap.cells.length :=
  lt_of_ownerOf (h.own o i hi)

/-- an event in a container has a value -/
theorem exists_val {s : Table Cb} {i : ℕ} (h : i < s.heap.cells.length) : ∃ ev, s.val i = some ev :=
  ⟨_, by unfold Table.val Heap.val; rw [List.getElem?_eq_getElem h]; rfl⟩

/-- the maps stay as they are, and the list changes with the counts -/
theorem Owned.of_list {s s' : Table Cb} (h : Owned s) (hobjects : s'.objects = s.objects)
    (howner : ∀ i, s'.ownerOf i = s.ownerOf i) {c : ℕ → ℕ} (hc : Counted s'.heap c)
    (hlist : ∀ i, s.mapped i + s'.list.count i = c i) (hnodup : s'.list.Nodup) : Owned s' := by
  have hmapped (i : ℕ) : s'.mapped i = s.mapped i := by
    unfold Table.mapped
    rw [howner, hobjects]
  refine ⟨hc.congr fun i => ?_, ?_, ?_, hnodup⟩
  · rw [hmapped]
    exact hlist i
  · intro o i hi
    rw [howner]
    rw [hobjects] at hi
    exact h.own o i hi
  · rw [hobjects]
    exact h.nodup

/-! ## What the program does -/

theorem ownerOf_addEvent (s : Table Cb) (n : NewEvent Cb) (i : ℕ) :
    (addEvent s n).ownerOf i = if i = s.heap.cells.length then some n.owner else s.ownerOf i := by
  simp only [Table.ownerOf, Table.val, addEvent]
  rw [Heap.val_incRef, Heap.val_incRef, Heap.val_alloc]
  rcases eq_or_ne i s.heap.cells.length with hi | hi
  · rw [if_pos hi, if_pos hi]; rfl
  · rw [if_neg hi, if_neg hi]

theorem list_addEvent (s : Table Cb) (n : NewEvent Cb) : (addEvent s n).list.Perm (s.heap.cells.length :: s.list) := by
  unfold Table.list addEvent
  dsimp only
  by_cases hend : s.atEnd = true
  · rw [if_pos hend, if_pos hend, ← List.append_assoc]
    exact List.perm_append_comm
  · rw [if_neg hend, if_neg hend]
    calc s.front ++ s.cur.toList ++ (s.rest ++ [s.heap.cells.length]) ++ s.back
        = s.front ++ s.cur.toList ++ s.rest ++ s.heap.cells.length :: s.back := by simp
      _ |>.Perm (s.heap.cells.length :: (s.front ++ s.cur.toList ++ s.rest ++ s.back)) := List.perm_middle

theorem owned_addEvent {s : Table Cb} (h : Owned s) (n : NewEvent Cb) : Owned (addEvent s n) := by
  have hfresh {o i : ℕ} (hi : i ∈ (s.objects o).ids) : i ≠ s.heap.cells.length := (h.map_lt hi).ne
  have hlist := list_addEvent s n
  have hnew : s.heap.cells.length ∉ s.list := fun hmem => Nat.lt_irrefl _ (h.list_lt hmem)
  have hids (o : ℕ) : ((addEvent s n).objects o).ids =
      if o = n.owner then (s.objects o).ids ++ [s.heap.cells.length] else (s.objects o).ids := by
    unfold addEvent EventableObject.ids
    rcases eq_or_ne o n.owner with rfl | ho
    · simp
    · simp [ho]
  refine ⟨?_, ?_, ?_, ?_⟩
  · have hcount := (h.counted.alloc (n.event (if s.atEnd then s.now else s.before))).incRef
      (i := s.heap.cells.length) (by simp)
    refine Counted.congr hcount fun i => ?_
    rw [hlist.count_eq]
    unfold Table.mapped
    rw [ownerOf_addEvent]
    rcases eq_or_ne i s.heap.cells.length with rfl | hi
    · simp only [if_true, hids, List.count_append, List.count_cons_self]
      rw [List.count_eq_zero_of_not_mem fun hmem => hfresh hmem rfl, List.count_eq_zero_of_not_mem hnew]
      simp
    · simp only [if_neg hi, List.count_cons_of_ne (Ne.symm hi), Nat.add_right_cancel_iff]
      rcases s.ownerOf i with _ | o
      · rfl
      · dsimp only
        rw [hids]
        split_ifs
        · rw [List.count_append, List.count_singleton, if_neg (by simpa using Ne.symm hi), Nat.add_zero]
        · rfl
  · intro o i hi
    rw [ownerOf_addEvent]
    rw [hids] at hi
    split_ifs at hi with ho
    · rcases List.mem_append.1 hi with hi | hi
      · rw [if_neg (hfresh hi)]; exact h.own o i hi
      · rw [if_pos (List.mem_singleton.1 hi), ho]
    · rw [if_neg (hfresh hi)]; exact h.own o i hi
  · intro o
    rw [hids]
    split_ifs
    · rw [List.nodup_append]
      refine ⟨h.nodup o, List.nodup_singleton _, ?_⟩
      intro i hi j hj
      rw [List.mem_singleton.1 hj]
      exact hfresh hi
    · exact h.nodup o
  · exact hlist.nodup_iff.2 (List.nodup_cons.2 ⟨hnew, h.list_nodup⟩)

/-- entries leave the map of an object, each with its reference -/
theorem owned_drop {s s' : Table Cb} (h : Owned s) {o : ℕ} {gone : List ℕ} {ob : EventableObject}
    (hheap : s'.heap = s.heap.decRefs TimedEvent.remove gone) (hobjects : s'.objects = Function.update s.objects o ob)
    (hlist : s'.list = s.list) (hperm : (s.objects o).ids.Perm (gone ++ ob.ids)) : Owned s' := by
  have hval (i : ℕ) : s'.ownerOf i = s.ownerOf i := by
    simp only [Table.ownerOf, Table.val, hheap]
    rw [s.heap.val_decRefs (g := TimedEvent.remove) (fun _ => rfl)]
    split_ifs
    · rw [Option.map_map]; rfl
    · rfl
  have hids (o' : ℕ) : (s'.objects o').ids = if o' = o then ob.ids else (s.objects o').ids := by
    rw [hobjects]
    rcases eq_or_ne o' o with rfl | ho
    · rw [Function.update_self, if_pos rfl]
    · rw [Function.update_of_ne ho, if_neg ho]
  have hsub {i : ℕ} (hi : i ∈ ob.ids) : i ∈ (s.objects o).ids := hperm.mem_iff.2 (List.mem_append_right _ hi)
  have hmapped (i : ℕ) : s.mapped i = s'.mapped i + gone.count i := by
    unfold Table.mapped
    rw [hval]
    have hnone (hne : s.ownerOf i ≠ some o) : gone.count i = 0 :=
      List.count_eq_zero_of_not_mem fun hmem => hne (h.own o i (hperm.mem_iff.2 (List.mem_append_left _ hmem)))
    rcases howner : s.ownerOf i with _ | o'
    · show 0 = 0 + gone.count i
      rw [hnone (by rw [howner]; nofun)]
    · dsimp only
      rw [hids]
      split_ifs with ho
      · rw [ho, hperm.count_eq, List.count_append, Nat.add_comm]
      · rw [hnone (by rw [howner]; exact fun he => ho (Option.some.inj he)), Nat.add_zero]
  refine ⟨?_, ?_, ?_, ?_⟩
  · rw [hheap]
    refine (h.counted.decRefs TimedEvent.remove (l := gone) fun i => ?_).congr fun i => ?_
    · rw [hmapped]; omega
    · rw [hmapped, hlist]; omega
  · intro o' i hi
    rw [hval]
    rw [hids] at hi
    split_ifs at hi with ho
    · rw [ho]; exact h.own o i (hsub hi)
    · exact h.own o' i hi
  · intro o'
    rw [hids]
    split_ifs
    · exact (hperm.nodup_iff.1 (h.nodup o)).of_append_right
    · exact h.nodup o'
  · rw [hlist]; exact h.list_nodup

theorem owned_eventRemoveEvents {s : Table Cb} (h : Owned s) (o ty : ℕ) : Owned (eventRemoveEvents s o ty) := by
  refine owned_drop h rfl rfl rfl ?_
  have hsplit := List.filter_append_perm (fun p : ℕ × ℕ => decide (ty = removalFlagAll ∨ p.1 = ty)) (s.objects o).events
  unfold EventableObject.ids
  rw [← List.map_append]
  refine (hsplit.symm.map Prod.snd).trans ?_
  simp

theorem owned_destroy {s : Table Cb} (h : Owned s) (o : ℕ) : Owned (destroy s o) :=
  owned_drop h rfl rfl rfl (by simp [EventableObject.ids])

theorem mem_find {ob : EventableObject} {ty i : ℕ} (hi : i ∈ ob.find ty) : i ∈ ob.ids := by
  obtain ⟨p, hp, rfl⟩ := List.mem_map.1 hi
  exact List.mem_map_of_mem (List.mem_of_mem_filter hp)

theorem nodup_find {s : Table Cb} (h : Owned s) (o ty : ℕ) : ((s.objects o).find ty).Nodup :=
  (h.nodup o).sublist (List.filter_sublist.map _)

theorem val_modifyEvents {s : Table Cb} (h : Owned s) (o ty : ℕ) (f : ℕ → TimedEvent Cb → TimedEvent Cb) (i : ℕ) :
    (modifyEvents s o ty f).val i = if i ∈ (s.objects o).find ty then (s.val i).map (f i) else s.val i :=
  Heap.val_writes _ _ (nodup_find h o ty) i

theorem owned_modifyEvents {s : Table Cb} (h : Owned s) (o ty : ℕ) {f : ℕ → TimedEvent Cb → TimedEvent Cb}
    (hf : ∀ i ev, (f i ev).owner = ev.owner) : Owned (modifyEvents s o ty f) := by
  refine h.of_list rfl ?_ (h.counted.writes ?_ f) (fun _ => rfl) h.list_nodup
  · intro i
    unfold Table.ownerOf
    rw [val_modifyEvents h]
    split_ifs
    · rw [Option.map_map]
      exact congrArg (Option.map · _) (funext (hf i))
    · rfl
  · intro i hi
    exact Nat.add_pos_left (h.map_pos (mem_find hi)) _

theorem owned_act {s : Table Cb} (h : Owned s) (a : Act Cb) : Owned (act s a) := by
  cases a with
  | addEvent n => exact owned_addEvent h n
  | removeEvents o ty => exact owned_eventRemoveEvents h o ty
  | destroy o => exact owned_destroy h o
  | modifyTimeLeft o ty timeLeft unconditioned => exact owned_modifyEvents h o ty fun _ _ => rfl
  | modifyTime o ty time => exact owned_modifyEvents h o ty fun _ _ => rfl
  | modifyTimeAndTimeLeft o ty time => exact owned_modifyEvents h o ty fun _ _ => rfl

/-! ## The update -/

/-- the loop writes to an entry of the list -/
theorem owned_write {s s' : Table Cb} (h : Owned s) {i : ℕ} (hi : i ∈ s.list) (g : TimedEvent Cb → TimedEvent Cb)
    (hg : ∀ ev, (g ev).owner = ev.owner) (hheap : s'.heap = s.heap.write g i) (hobjects : s'.objects = s.objects)
    (hlist : s'.list.Perm s.list) : Owned s' := by
  refine h.of_list hobjects ?_ (hheap ▸ h.counted.write (Owned.list_pos hi) g) ?_ (hlist.nodup_iff.2 h.list_nodup)
  · intro j
    simp only [Table.ownerOf, Table.val, hheap]
    rw [Heap.val_write]
    split_ifs
    · rw [Option.map_map]
      exact congrArg (Option.map · _) (funext hg)
    · rfl
  · intro j
    rw [hlist.count_eq]

/-- the loop erases an entry of the list, with its reference -/
theorem owned_erase {s s' : Table Cb} (h : Owned s) {i : ℕ} (hlist : s.list.Perm (i :: s'.list))
    (hheap : s'.heap = s.heap.decRef TimedEvent.mark i) (hobjects : s'.objects = s.objects) : Owned s' := by
  have hi : i ∈ s.list := hlist.mem_iff.2 List.mem_cons_self
  refine h.of_list hobjects ?_ (hheap ▸ h.counted.decRef (Owned.list_pos hi) TimedEvent.mark) ?_
    (List.nodup_cons.1 (hlist.nodup_iff.1 h.list_nodup)).2
  · intro j
    simp only [Table.ownerOf, Table.val, hheap]
    rw [Heap.val_decRef]
    split_ifs
    · rw [Option.map_map]; rfl
    · rfl
  · intro j
    rw [hlist.count_eq]
    split_ifs with hj
    · rw [hj, List.count_cons_self]; rfl
    · rw [List.count_cons_of_ne (Ne.symm hj)]

theorem owned_endUpdate {s : Table Cb} (h : Owned s) (hcur : s.cur = none) (hrest : s.rest = []) :
    Owned (endUpdate s) := by
  have hlist : (endUpdate s).list = s.list := by
    simp [Table.list, endUpdate, hcur, hrest]
  exact h.of_list rfl (fun _ => rfl) h.counted (fun i => by rw [hlist]) (by rw [hlist]; exact h.list_nodup)

theorem list_perm_rest {s : Table Cb} {i : ℕ} {l : List ℕ} (hcur : s.cur = none) (hrest : s.rest = i :: l) :
    s.list.Perm (i :: (s.front ++ s.cur.toList ++ l ++ s.back)) := by
  simp only [Table.list, hrest, hcur, Option.toList_none, List.append_nil, List.append_assoc, List.cons_append]
  exact List.perm_middle

theorem list_perm_cur {s : Table Cb} {i : ℕ} (hcur : s.cur = some i) :
    s.list.Perm (i :: (s.front ++ (none : Option ℕ).toList ++ s.rest ++ s.back)) := by
  simp only [Table.list, hcur, Option.toList_some, Option.toList_none, List.append_nil, List.append_assoc,
    List.cons_append, List.nil_append]
  exact List.perm_middle

/-- the entry whose turn it is stands nowhere else -/
theorem Owned.rest_once {s : Table Cb} (h : Owned s) {i : ℕ} {l : List ℕ} (hcur : s.cur = none)
    (hrest : s.rest = i :: l) : i ∉ s.front ++ s.cur.toList ++ l ++ s.back :=
  (List.nodup_cons.1 ((list_perm_rest hcur hrest).nodup_iff.1 h.list_nodup)).1

theorem Owned.cur_once {s : Table Cb} (h : Owned s) {i : ℕ} (hcur : s.cur = some i) :
    i ∉ s.front ++ (none : Option ℕ).toList ++ s.rest ++ s.back :=
  (List.nodup_cons.1 ((list_perm_cur hcur).nodup_iff.1 h.list_nodup)).1

theorem owned_loop {s s' : Table Cb} {o : Op Cb} (h : Owned s) (hl : LoopStep s o s') : Owned s' := by
  cases hl with
  | idle => exact h
  | atEnd d hd hcur hrest => exact owned_endUpdate h hcur hrest
  | erase d i l ev hd hcur hrest => exact owned_erase h (list_perm_rest hcur hrest) rfl rfl
  | fire d i l ev hd hcur hrest =>
    exact owned_write h (by simp [Table.list, hrest]) (TimedEvent.fire s.before s.now) (fun _ => rfl) rfl rfl
      (by simp [Table.list, hrest, hcur])
  | pass d i l ev hd hcur hrest =>
    exact owned_write h (by simp [Table.list, hrest]) (TimedEvent.pass d) (fun _ => rfl) rfl rfl
      (by simp [Table.list, hrest, hcur])
  | deletesObject i ev hcur => exact owned_erase h (list_perm_cur hcur) rfl rfl
  | ends i ev hcur =>
    have hcount : Owned { s with heap := s.heap.write TimedEvent.count i } :=
      owned_write h (by simp [Table.list, hcur]) TimedEvent.count (fun _ => rfl) rfl rfl (List.Perm.refl _)
    exact owned_erase hcount (list_perm_cur hcur) rfl rfl
  | rearm i ev hcur =>
    exact owned_write h (by simp [Table.list, hcur]) (TimedEvent.rearm s.now) (fun _ => rfl) rfl rfl
      (by simp [Table.list, hcur])

theorem owned_step {s : Table Cb} (o : Op Cb) (h : Owned s) : Owned (step s o) := by
  cases o with
  | act a =>
    simp only [step]
    split_ifs
    · exact owned_act h a
    · exact h
  | update d =>
    simp only [step]
    split_ifs
    · exact h.of_list rfl (fun _ => rfl) h.counted (fun _ => rfl) h.list_nodup
    · exact h
  | visit => exact owned_loop h (loop_visit s)
  | ret => exact owned_loop h (loop_ret s)

theorem owned_run (ops : List (Op Cb)) : Owned (run step ({} : Table Cb) ops) :=
  inv_run_all (fun _ o h => owned_step o h) ops
    ⟨⟨nofun, fun _ _ => rfl, rfl⟩, nofun, fun _ => List.nodup_nil, List.nodup_nil⟩

/-! ## What a step does to an event -/

/-- what a step from `s` to `s'` may make of the event `i` -/
inductive Change (s s' : Table Cb) (i : ℕ) (ev : TimedEvent Cb) : Op Cb → TimedEvent Cb → Prop where
  | same {o : Op Cb} (h : ¬Turn s o i) : Change s s' i ev o ev
  | remove (a : Act Cb) : Change s s' i ev (.act a) ev.remove
  | setTimeLeft (a : Act Cb) (time msTime : ℕ) :
      Change s s' i ev (.act a) { ev.setTimeLeft time (s.seen i) with msTime := msTime, modified := true }
  | setTime (a : Act Cb) (msTime : ℕ) : Change s s' i ev (.act a) { ev with msTime := msTime, modified := true }
  | erase (d : ℕ) (hd : s.updating = some d) (hrest : s.rest.head? = some i)
      (h : ¬Executable ev ∨ ev.currTime ≤ d ∧ ev.cb = none) (hout : i ∉ s'.list) : Change s s' i ev .visit ev.mark
  | fire (d : ℕ) (hd : s.updating = some d) (hrest : s.rest.head? = some i) (h : Executable ev)
      (hdue : ev.currTime ≤ d) (hcb : ev.cb ≠ none) (hcur : s'.cur = some i) :
      Change s s' i ev .visit (ev.fire s.before s.now)
  | pass (d : ℕ) (hd : s.updating = some d) (hrest : s.rest.head? = some i) (h : Executable ev)
      (hdue : d < ev.currTime) (hcur : s'.cur = none) (hpast : i ∉ s'.rest) (hin : i ∈ s'.list) :
      Change s s' i ev .visit (ev.pass d)
  | deletesObject (hcur : s.cur = some i) (h : ev.deletesObject = true) (hout : i ∉ s'.list) :
      Change s s' i ev .ret ev.mark
  | ends (hcur : s.cur = some i) (h : ev.deletesObject = false) (hends : ev.ends = true) (hout : i ∉ s'.list) :
      Change s s' i ev .ret ev.count.mark
  | rearm (hcur : s.cur = some i) (h : ev.deletesObject = false) (hends : ev.ends = false) (hcur' : s'.cur = none)
      (hpast : i ∉ s'.rest) (hin : i ∈ s'.list) : Change s s' i ev .ret (ev.rearm s.now)

theorem change_act {s : Table Cb} (h : Owned s) (a : Act Cb) {i : ℕ} {ev : TimedEvent Cb} (hev : s.val i = some ev) :
    ∃ ev', (act s a).val i = some ev' ∧ Change s (act s a) i ev (.act a) ev' := by
  have hsame : Change s (act s a) i ev (.act a) ev := .same (by unfold Turn; simp)
  have hgone (l : List ℕ) : (s.heap.decRefs TimedEvent.remove l).val i = some ev ∨
      (s.heap.decRefs TimedEvent.remove l).val i = some ev.remove := by
    rw [s.heap.val_decRefs (g := TimedEvent.remove) (fun _ => rfl)]
    unfold Table.val at hev
    rw [hev]
    split_ifs
    · exact Or.inr rfl
    · exact Or.inl rfl
  have hmodify (o ty : ℕ) (f : ℕ → TimedEvent Cb → TimedEvent Cb) (hf : Change s (act s a) i ev (.act a) (f i ev)) :
      ∃ ev', (modifyEvents s o ty f).val i = some ev' ∧ Change s (act s a) i ev (.act a) ev' := by
    rw [val_modifyEvents h, hev]
    split_ifs
    · exact ⟨_, rfl, hf⟩
    · exact ⟨_, rfl, hsame⟩
  cases a with
  | addEvent n =>
    have hlt : i < s.heap.cells.length := lt_of_ownerOf (o := ev.owner) (by unfold Table.ownerOf; rw [hev]; rfl)
    refine ⟨ev, ?_, hsame⟩
    simp only [act, Table.val, addEvent]
    rw [Heap.val_incRef, Heap.val_incRef, Heap.val_alloc, if_neg hlt.ne]
    exact hev
  | removeEvents o ty =>
    rcases hgone _ with hval | hval
    · exact ⟨ev, hval, hsame⟩
    · exact ⟨ev.remove, hval, .remove _⟩
  | destroy o =>
    rcases hgone _ with hval | hval
    · exact ⟨ev, hval, hsame⟩
    · exact ⟨ev.remove, hval, .remove _⟩
  | modifyTimeLeft o ty timeLeft unconditioned => exact hmodify o ty _ (.setTimeLeft _ _ ev.msTime)
  | modifyTime o ty time => exact hmodify o ty _ (.setTime _ time)
  | modifyTimeAndTimeLeft o ty time => exact hmodify o ty _ (.setTimeLeft _ time time)

theorem change_loop {s s' : Table Cb} {o : Op Cb} (h : Owned s) (hl : LoopStep s o s') {i : ℕ} {ev : TimedEvent Cb}
    (hev : s.val i = some ev) : ∃ ev', s'.val i = some ev' ∧ Change s s' i ev o ev' := by
  have hvisit {j : ℕ} {l : List ℕ} (hrest : s.rest = j :: l) (hne : i ≠ j) : ¬Turn s .visit i := by
    simp [Turn, hrest, Ne.symm hne]
  have hret {j : ℕ} (hcur : s.cur = some j) (hne : i ≠ j) : ¬Turn s .ret i := by
    simp [Turn, hcur, Ne.symm hne]
  have hhead {j : ℕ} {l : List ℕ} (hrest : s.rest = j :: l) : s.rest.head? = some j := by rw [hrest]; rfl
  have hother {heap : Heap (TimedEvent Cb)} {j : ℕ} {g : TimedEvent Cb → TimedEvent Cb} (hne : i ≠ j)
      (hval : ∀ k, heap.val k = if k = j then (s.heap.val k).map g else s.heap.val k) : heap.val i = some ev := by
    rw [hval, if_neg hne]
    exact hev
  have hself {heap : Heap (TimedEvent Cb)} {g : TimedEvent Cb → TimedEvent Cb}
      (hval : ∀ k, heap.val k = if k = i then (s.heap.val k).map g else s.heap.val k) :
      heap.val i = some (g ev) := by
    rw [hval, if_pos rfl, show s.heap.val i = some ev from hev]
    rfl
  cases hl with
  | idle _ hidle => exact ⟨ev, hev, .same (hidle i ev hev)⟩
  | atEnd d hd hcur hrest => exact ⟨ev, hev, .same (by simp [Turn, hrest])⟩
  | erase d j l ev0 hd hcur hrest hev0 hskip =>
    rcases eq_or_ne i j with rfl | hne
    · obtain rfl : ev0 = ev := Option.some.inj (hev0.symm.trans hev)
      exact ⟨_, hself (s.heap.val_decRef _ i), .erase d hd (hhead hrest) hskip (h.rest_once hcur hrest)⟩
    · exact ⟨ev, hother hne (s.heap.val_decRef _ j), .same (hvisit hrest hne)⟩
  | fire d j l ev0 hd hcur hrest hev0 hex hdue hcb =>
    rcases eq_or_ne i j with rfl | hne
    · obtain rfl : ev0 = ev := Option.some.inj (hev0.symm.trans hev)
      exact ⟨_, hself (s.heap.val_write _ i), .fire d hd (hhead hrest) hex hdue hcb rfl⟩
    · exact ⟨ev, hother hne (s.heap.val_write _ j), .same (hvisit hrest hne)⟩
  | pass d j l ev0 hd hcur hrest hev0 hex hdue =>
    rcases eq_or_ne i j with rfl | hne
    · obtain rfl : ev0 = ev := Option.some.inj (hev0.symm.trans hev)
      have hpast : i ∉ l := fun hi => h.rest_once hcur hrest (by simp [hi])
      exact ⟨_, hself (s.heap.val_write _ i), .pass d hd (hhead hrest) hex hdue hcur hpast (by simp [Table.list])⟩
    · exact ⟨ev, hother hne (s.heap.val_write _ j), .same (hvisit hrest hne)⟩
  | deletesObject j ev0 hcur hev0 hdeletes =>
    rcases eq_or_ne i j with rfl | hne
    · obtain rfl : ev0 = ev := Option.some.inj (hev0.symm.trans hev)
      exact ⟨_, hself (s.heap.val_decRef _ i), .deletesObject hcur hdeletes (h.cur_once hcur)⟩
    · exact ⟨ev, hother hne (s.heap.val_decRef _ j), .same (hret hcur hne)⟩
  | ends j ev0 hcur hev0 hkeeps hends =>
    have hval (k : ℕ) : ((s.heap.write TimedEvent.count j).decRef TimedEvent.mark j).val k =
        if k = j then (s.heap.val k).map (TimedEvent.mark ∘ TimedEvent.count) else s.heap.val k := by
      rw [Heap.val_decRef, Heap.val_write]
      split_ifs
      · exact Option.map_map _ _ _
      · rfl
    rcases eq_or_ne i j with rfl | hne
    · obtain rfl : ev0 = ev := Option.some.inj (hev0.symm.trans hev)
      exact ⟨_, hself hval, .ends hcur hkeeps hends (h.cur_once hcur)⟩
    · exact ⟨ev, hother hne hval, .same (hret hcur hne)⟩
  | rearm j ev0 hcur hev0 hkeeps hends =>
    rcases eq_or_ne i j with rfl | hne
    · obtain rfl : ev0 = ev := Option.some.inj (hev0.symm.trans hev)
      have hpast : i ∉ s.rest := fun hi => h.cur_once hcur (by simp [hi])
      exact ⟨_, hself (s.heap.val_write _ i), .rearm hcur hkeeps hends rfl hpast (by simp [Table.list])⟩
    · exact ⟨ev, hother hne (s.heap.val_write _ j), .same (hret hcur hne)⟩

/-- **What a step makes of an event.** -/
theorem change_step {s : Table Cb} (h : Owned s) (o : Op Cb) {i : ℕ} {ev : TimedEvent Cb} (hev : s.val i = some ev) :
    ∃ ev', (step s o).val i = some ev' ∧ Change s (step s o) i ev o ev' := by
  cases o with
  | act a =>
    simp only [step]
    split_ifs
    · exact change_act h a hev
    · exact ⟨ev, hev, .same (by unfold Turn; simp)⟩
  | update d =>
    have hsame (s' : Table Cb) : Change s s' i ev (.update d) ev := .same (by unfold Turn; simp)
    simp only [step]
    split_ifs
    · exact ⟨ev, hev, hsame _⟩
    · exact ⟨ev, hev, hsame _⟩
  | visit => exact change_loop h (loop_visit s) hev
  | ret => exact change_loop h (loop_ret s) hev

/-! ## Removed events -/

/-- a step does not execute an event that has been removed -/
theorem removed_step {s s' : Table Cb} {o : Op Cb} {i : ℕ} {ev ev' : TimedEvent Cb} (h : Change s s' i ev o ev')
    (hdeleted : ev.deleted = true) :
    ev'.deleted = true ∧ ev'.firings = ev.firings ∧ (ev.removed = true → ev'.removed = true) := by
  cases h with
  | same => exact ⟨hdeleted, rfl, id⟩
  | remove => exact ⟨rfl, rfl, fun _ => rfl⟩
  | setTimeLeft => exact ⟨hdeleted, rfl, id⟩
  | setTime => exact ⟨hdeleted, rfl, id⟩
  | erase => exact ⟨rfl, rfl, id⟩
  | fire d _ _ hex => rw [hex.not_deleted] at hdeleted; cases hdeleted
  | pass d _ _ hex => rw [hex.not_deleted] at hdeleted; cases hdeleted
  | deletesObject => exact ⟨rfl, rfl, id⟩
  | ends => exact ⟨rfl, rfl, id⟩
  | rearm _ _ hends _ _ _ => simp [TimedEvent.ends, hdeleted] at hends

theorem length_loop {s s' : Table Cb} {o : Op Cb} (hl : LoopStep s o s') :
    s'.heap.cells.length = s.heap.cells.length := by
  cases hl with
  | idle => rfl
  | atEnd => rfl
  | erase => exact Heap.length_access ..
  | fire => exact Heap.length_access ..
  | pass => exact Heap.length_access ..
  | deletesObject => exact Heap.length_access ..
  | ends => exact (Heap.length_access ..).trans (Heap.length_access ..)
  | rearm => exact Heap.length_access ..

/-- only `addEvent` makes an event -/
theorem length_step (s : Table Cb) (o : Op Cb) :
    (step s o).heap.cells.length = s.heap.cells.length ∨
      ∃ n, o = .act (.addEvent n) ∧ step s o = addEvent s n := by
  cases o with
  | act a =>
    simp only [step]
    split_ifs
    · cases a with
      | addEvent n => exact Or.inr ⟨n, rfl, rfl⟩
      | removeEvents o ty => exact Or.inl (Heap.length_decRefs ..)
      | destroy o => exact Or.inl (Heap.length_decRefs ..)
      | modifyTimeLeft o ty timeLeft unconditioned => exact Or.inl (Heap.length_writes ..)
      | modifyTime o ty time => exact Or.inl (Heap.length_writes ..)
      | modifyTimeAndTimeLeft o ty time => exact Or.inl (Heap.length_writes ..)
    · exact Or.inl rfl
  | update d =>
    left
    simp only [step]
    split_ifs
    · rfl
    · rfl
  | visit => exact Or.inl (length_loop (loop_visit s))
  | ret => exact Or.inl (length_loop (loop_ret s))

theorem val_addEvent (s : Table Cb) (n : NewEvent Cb) (i : ℕ) :
    (addEvent s n).val i =
      if i = s.heap.cells.length then some (n.event (if s.atEnd then s.now else s.before)) else s.val i := by
  simp only [Table.val, addEvent]
  rw [Heap.val_incRef, Heap.val_incRef, Heap.val_alloc]

/-- where an event after a step comes from -/
theorem exists_before {s : Table Cb} (h : Owned s) (o : Op Cb) {i : ℕ} {ev' : TimedEvent Cb}
    (hev' : (step s o).val i = some ev') :
    (∃ ev, s.val i = some ev ∧ Change s (step s o) i ev o ev') ∨
      ∃ n, o = .act (.addEvent n) ∧ step s o = addEvent s n ∧ i = s.heap.cells.length ∧
        ev' = n.event (if s.atEnd then s.now else s.before) := by
  rcases hev : s.val i with _ | ev
  · right
    have hge : s.heap.cells.length ≤ i := by
      by_contra hlt
      obtain ⟨ev, hsome⟩ := exists_val (s := s) (Nat.not_le.1 hlt)
      rw [hev] at hsome
      cases hsome
    rcases length_step s o with hlen | ⟨n, ho, he⟩
    · unfold Table.val Heap.val at hev'
      rw [List.getElem?_eq_none (by omega)] at hev'
      cases hev'
    · rw [he, val_addEvent, hev] at hev'
      by_cases hi : i = s.heap.cells.length
      · rw [if_pos hi] at hev'
        exact ⟨n, ho, he, hi, (Option.some.inj hev').symm⟩
      · rw [if_neg hi] at hev'
        cases hev'
  · left
    obtain ⟨ev1, hev1, hchange⟩ := change_step h o hev
    obtain rfl := Option.some.inj (hev1.symm.trans hev')
    exact ⟨ev, rfl, hchange⟩

/-- a removed event is marked -/
def Marked (s : Table Cb) : Prop := ∀ i ev, s.val i = some ev → ev.removed = true → ev.deleted = true

theorem marked_step {s : Table Cb} (h : Owned s) (o : Op Cb) (hm : Marked s) : Marked (step s o) := by
  intro i ev' hev' hremoved
  rcases exists_before h o hev' with ⟨ev, hev, hchange⟩ | ⟨n, -, -, -, rfl⟩
  · have hold := hm i ev hev
    cases hchange with
    | same => exact hold hremoved
    | remove => rfl
    | setTimeLeft => exact hold hremoved
    | setTime => exact hold hremoved
    | erase => rfl
    | fire => exact hold hremoved
    | pass => exact hold hremoved
    | deletesObject => rfl
    | ends => rfl
    | rearm => exact hold hremoved
  · cases hremoved

theorem removed_run {s : Table Cb} (h : Owned s) (ops : List (Op Cb)) {i : ℕ} {ev : TimedEvent Cb}
    (hev : s.val i = some ev) (hdeleted : ev.deleted = true) :
    ∃ ev', (run step s ops).val i = some ev' ∧ ev'.firings = ev.firings := by
  induction ops generalizing s ev with
  | nil => exact ⟨ev, hev, rfl⟩
  | cons o ops ih =>
    obtain ⟨ev1, hev1, hchange⟩ := change_step h o hev
    obtain ⟨hdeleted1, hfirings, -⟩ := removed_step hchange hdeleted
    obtain ⟨ev', hev', hlast⟩ := ih (owned_step o h) hev1 hdeleted1
    exact ⟨ev', hev', hlast.trans hfirings⟩

/-! ## Ownership -/

inductive Container where
  | object (o : ℕ)
  | holder
deriving DecidableEq, Repr

/-- the events a container has -/
def Table.contents (s : Table Cb) : Container → List ℕ
  | .object o => (s.objects o).ids
  | .holder => s.list

/-- the references are the containers -/
theorem Owned.ncard {s : Table Cb} (h : Owned s) (i : ℕ) :
    {c | i ∈ s.contents c}.ncard = s.mapped i + s.list.count i := by
  have hlist : s.list.count i = if i ∈ s.list then 1 else 0 := h.list_nodup.count
  have hset (o : ℕ) (ho : s.ownerOf i = some o ∨ ∀ o, i ∉ (s.objects o).ids) :
      {c | i ∈ s.contents c} = {c | c = .object o ∧ i ∈ (s.objects o).ids} ∪ {c | c = .holder ∧ i ∈ s.list} := by
    ext c
    cases c with
    | holder => simp [Table.contents]
    | object o' =>
      simp only [Table.contents, Set.mem_ofPred_eq, Set.mem_union, Container.object.injEq, reduceCtorEq, false_and,
        or_false]
      refine ⟨fun hi => ?_, fun ⟨he, hi⟩ => he ▸ hi⟩
      rcases ho with ho | ho
      · have hoo : o' = o := Option.some.inj ((h.own o' i hi).symm.trans ho)
        exact ⟨hoo, hoo ▸ hi⟩
      · exact absurd hi (ho o')
  have hcard (c0 : Container) (p : Prop) [Decidable p] : {c | c = c0 ∧ p}.ncard = if p then 1 else 0 := by
    split_ifs with hp
    · simp [hp]
    · simp [hp]
  have hdisjoint (o : ℕ) : Disjoint {c | c = Container.object o ∧ i ∈ (s.objects o).ids}
      {c | c = Container.holder ∧ i ∈ s.list} := by
    rw [Set.disjoint_left]
    rintro c ⟨rfl, -⟩ ⟨hc, -⟩
    cases hc
  have hfinite (c0 : Container) (p : Prop) : {c | c = c0 ∧ p}.Finite :=
    (Set.finite_singleton c0).subset fun c hc => hc.1
  rcases howner : s.ownerOf i with _ | o
  · have hnone (o : ℕ) : i ∉ (s.objects o).ids := by
      intro hi
      rw [h.own o i hi] at howner
      cases howner
    rw [hset 0 (Or.inr hnone), Set.ncard_union_eq (hdisjoint 0) (hfinite _ _) (hfinite _ _), hcard, hcard, hlist,
      if_neg (hnone 0)]
    unfold Table.mapped
    rw [howner]
  · rw [hset o (Or.inl howner), Set.ncard_union_eq (hdisjoint o) (hfinite _ _) (hfinite _ _), hcard, hcard, hlist]
    have hmapped : s.mapped i = (s.objects o).ids.count i := by unfold Table.mapped; rw [howner]
    rw [hmapped, (h.nodup o).count]

/-- what is removed is deleted, after every run -/
theorem marked_run (ops : List (Op Cb)) : Marked (run step ({} : Table Cb) ops) := by
  have hboth := inv_run_all (I := fun s : Table Cb => Owned s ∧ Marked s)
    (fun _ o h => ⟨owned_step o h.1, marked_step h.1 o h.2⟩) ops
    ⟨owned_run [], fun i ev hev => by simp [Table.val, Heap.val] at hev⟩
  exact hboth.2

/-- the count of an event is the number of the containers that have it, and it is freed once, when there is none -/
theorem ref_eq_ncard {s : Table Cb} (h : Owned s) {i : ℕ} {cell : Cell (TimedEvent Cb)}
    (hcell : s.heap.cells[i]? = some cell) :
    cell.ref = ({c | i ∈ s.contents c}.ncard : ℤ) ∧ cell.freed = if cell.ref = 0 then 1 else 0 := by
  have hheld := h.counted.held i cell hcell
  rw [h.ncard i]
  refine ⟨hheld.ref, ?_⟩
  rw [hheld.freed, hheld.ref]
  simp only [Nat.cast_eq_zero]

end DreamHeroes.Events
