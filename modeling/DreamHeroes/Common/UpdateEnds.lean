/-
Does an update return, when the callbacks add events to the list that it goes through? An event that is added while
`itr` is not at the end is visited by the same update, which takes its whole time from it as from the others; one that
is added while `itr` is at the end is not.

- `round`, `rounds`: the loop of `update`, with what the callbacks do in each round.
- `Allowed`: what a callback may do: add one event, remove events, destroy objects, and change the times of events, as
  long as that makes no event due.
- `round_work`: a round of the loop is a round of a work list (`Lib.Round`).
- `update_returns_iff`: an update returns, whatever the callbacks do, unless two entries of the list start a chain of
  events that are added one by the other without an end.
- `update_never_returns`: two events that add themselves again.
-/
import Mathlib.Tactic
import DreamHeroes.Lib.Worklist
import DreamHeroes.Common.TimerAccuracy

namespace DreamHeroes.Events

open DreamHeroes.Lib

variable {Cb : Type*}

/-! ## The loop -/

/-- one round of the loop of `update`; a callback that is entered does `acts` and returns -/
def round (s : Table Cb) (acts : List (Act Cb)) : Table Cb :=
  let s' := step s .visit
  if s'.cur = none then s' else step (run step s' (acts.map .act)) .ret

def rounds (s : Table Cb) (acts : ℕ → List (Act Cb)) : ℕ → Table Cb
  | 0 => s
  | n + 1 => round (rounds s acts n) (acts n)

/-- the callback that the next round enters -/
def Table.entered (s : Table Cb) : Option Cb :=
  let s' := step s .visit
  s'.cur.bind fun i => (s'.val i).bind TimedEvent.cb

def Act.added : Act Cb → Option (NewEvent Cb)
  | .addEvent n => some n
  | _ => none

/-- the time left of an event is only set to more than an update of `d` -/
def Act.PutsOff (d : ℕ) : Act Cb → Prop
  | .modifyTimeLeft _ _ timeLeft unconditioned => unconditioned = true ∧ d < timeLeft
  | .modifyTimeAndTimeLeft _ _ time => d < time
  | _ => True

/-- what the callback `c` may do in an update of `d`, when `adds c n` says that it may add the event `n` -/
structure Allowed (adds : Cb → NewEvent Cb → Prop) (d : ℕ) (c : Cb) (acts : List (Act Cb)) : Prop where
  once : (acts.filterMap Act.added).length ≤ 1
  adds : ∀ n ∈ acts.filterMap Act.added, adds c n
  putsOff : ∀ a ∈ acts, a.PutsOff d

def Permitted (adds : Cb → NewEvent Cb → Prop) (d : ℕ) (s : Table Cb) (acts : ℕ → List (Act Cb)) : Prop :=
  ∀ n c, (rounds s acts n).entered = some c → Allowed adds d c (acts n)

/-- the callback that an update of `d` executes when it visits the event -/
def TimedEvent.due (d : ℕ) (ev : TimedEvent Cb) : Option Cb :=
  if ev.instanceId = worldInstance ∧ ev.deleted = false ∧ ev.notInWorld = false ∧ ev.currTime ≤ d then ev.cb else none

theorem due_eq_some {d : ℕ} {ev : TimedEvent Cb} {c : Cb} :
    ev.due d = some c ↔ Executable ev ∧ ev.currTime ≤ d ∧ ev.cb = some c := by
  unfold TimedEvent.due
  split_ifs with hex
  · exact ⟨fun hc => ⟨⟨hex.1, hex.2.1, hex.2.2.1⟩, hex.2.2.2, hc⟩, fun h => h.2.2⟩
  · exact ⟨fun hc => hc.elim, fun h => absurd ⟨h.1.1, h.1.2, h.1.3, h.2.1⟩ hex⟩

def Table.due (s : Table Cb) (d i : ℕ) : Option Cb := (s.val i).bind (TimedEvent.due d)

/-- the callback `c` may add an event, on an object that exists, of which the same update executes the callback `c'` -/
def Leads (adds : Cb → NewEvent Cb → Prop) (s : Table Cb) (d : ℕ) (c' c : Cb) : Prop :=
  ∃ n : NewEvent Cb, adds c n ∧ (s.objects n.owner).destroyed = false ∧ (n.event {}).due d = some c'

/-- the update executes the entry, and then the events that the callbacks add may go on forever -/
def StartsForever (adds : Cb → NewEvent Cb → Prop) (s : Table Cb) (d i : ℕ) : Prop :=
  ∃ c, s.due d i = some c ∧ Endless (Leads adds s d) c

/-! ## All behaviours of the callbacks -/

/-- one round of an update that runs, with any behaviour of the callback -/
def Goes (adds : Cb → NewEvent Cb → Prop) (d : ℕ) (s' s : Table Cb) : Prop :=
  s.updating ≠ none ∧ ∃ acts, (∀ c, s.entered = some c → Allowed adds d c acts) ∧ s' = round s acts

theorem returns_iff (adds : Cb → NewEvent Cb → Prop) (d : ℕ) (s : Table Cb) :
    (∀ acts, Permitted adds d s acts → ∃ n, (rounds s acts n).updating = none) ↔ Acc (Goes adds d) s := by
  constructor
  · intro h
    by_contra hacc
    obtain ⟨t, hstart, hgoes⟩ := not_acc_iff_exists_descending_chain.1 hacc
    choose hrunning acts hallowed hround using hgoes
    have hrounds (n : ℕ) : rounds s acts n = t n := by
      induction n with
      | zero => exact hstart.symm
      | succ n ih => rw [rounds, ih, hround n]
    obtain ⟨n, hn⟩ := h acts fun n c hc => hallowed n c (hrounds n ▸ hc)
    exact hrunning n (hrounds n ▸ hn)
  · intro hacc acts hpermitted
    by_contra hrunning
    push Not at hrunning
    exact not_acc_iff_exists_descending_chain.2
      ⟨rounds s acts, rfl, fun n => ⟨hrunning n, acts n, hpermitted n, rfl⟩⟩ hacc

/-! ## One round -/

/-- the loop of an update of `d`, between two rounds -/
structure InLoop (s : Table Cb) (d : ℕ) : Prop where
  owned : Owned s
  updating : s.updating = some d
  cur : s.cur = none

theorem Owned.exists_val {s : Table Cb} (h : Owned s) {i : ℕ} (hi : i ∈ s.rest) : ∃ ev, s.val i = some ev :=
  DreamHeroes.Events.exists_val (h.list_lt (by simp [Table.list, hi]))

/-- the loop at an entry, or after its callback, leaves the others as they are -/
theorem due_other {s : Table Cb} (h : Owned s) {o : Op Cb} (hact : ∀ a, o ≠ .act a) {j : ℕ} (hj : j ∈ s.rest)
    (hvisit : o = .visit → s.rest.head? ≠ some j) (hret : o = .ret → s.cur ≠ some j) (d : ℕ) :
    (step s o).due d j = s.due d j := by
  obtain ⟨ev, hev⟩ := h.exists_val hj
  obtain ⟨ev', hev', hchange⟩ := change_step h o hev
  have hsame : ev' = ev := by
    cases hchange with
    | same => rfl
    | remove a => exact absurd rfl (hact a)
    | setTimeLeft a => exact absurd rfl (hact a)
    | setTime a => exact absurd rfl (hact a)
    | erase _ _ hrest => exact absurd hrest (hvisit rfl)
    | fire _ _ hrest => exact absurd hrest (hvisit rfl)
    | pass _ _ hrest => exact absurd hrest (hvisit rfl)
    | deletesObject hcur => exact absurd hcur (hret rfl)
    | ends hcur => exact absurd hcur (hret rfl)
    | rearm hcur => exact absurd hcur (hret rfl)
  unfold Table.due
  rw [hev', hev, hsame]

/-- what the loop does at the entry in front of `l` -/
structure Visited (d i : ℕ) (l : List ℕ) (s s' : Table Cb) : Prop where
  owned : Owned s'
  updating : s'.updating = some d
  rest : s'.rest = l
  objects : s'.objects = s.objects
  due : ∀ j ∈ l, s'.due d j = s.due d j
  enters : ∀ c, s.due d i = some c → s'.cur = some i ∧ s.entered = some c
  passes : s.due d i = none → s'.cur = none

theorem visited_loop {s s' : Table Cb} {d i : ℕ} {l : List ℕ} (h : InLoop s d) (hrest : s.rest = i :: l)
    (hl : LoopStep s .visit s') :
    s'.updating = some d ∧ s'.rest = l ∧ s'.objects = s.objects ∧
      (∀ c, s.due d i = some c → s'.cur = some i ∧ (s'.val i).bind TimedEvent.cb = some c) ∧
      (s.due d i = none → s'.cur = none) := by
  obtain ⟨howned, hupdating, hcur⟩ := h
  obtain ⟨ev, hev⟩ := howned.exists_val (i := i) (by rw [hrest]; exact List.mem_cons_self)
  have hval : s.due d i = ev.due d := by unfold Table.due; rw [hev]; rfl
  rw [hval]
  have hsame {d' j : ℕ} {l' : List ℕ} {ev' : TimedEvent Cb} (hd' : s.updating = some d') (hrest' : s.rest = j :: l')
      (hev' : s.val j = some ev') : d' = d ∧ j = i ∧ l' = l ∧ ev' = ev := by
    obtain ⟨rfl, rfl⟩ := List.cons.inj (hrest'.symm.trans hrest)
    exact ⟨Option.some.inj (hd'.symm.trans hupdating), rfl, rfl, Option.some.inj (hev'.symm.trans hev)⟩
  cases hl with
  | idle _ hidle =>
    refine absurd (Or.inl ⟨rfl, ?_, hcur, by rw [hrest]; rfl⟩) (hidle i ev hev)
    rw [hupdating]
    exact Option.some_ne_none d
  | atEnd _ _ _ hnil =>
    rw [hrest] at hnil
    cases hnil
  | erase d' j l' ev' hd' _ hrest' hev' hskip =>
    obtain ⟨rfl, rfl, rfl, rfl⟩ := hsame hd' hrest' hev'
    refine ⟨hupdating, rfl, rfl, fun c hc => ?_, fun _ => hcur⟩
    obtain ⟨hex, -, hcb⟩ := due_eq_some.1 hc
    rcases hskip with hskip | ⟨-, hnone⟩
    · exact absurd hex hskip
    · rw [hcb] at hnone
      cases hnone
  | fire d' j l' ev' hd' _ hrest' hev' hex htime hcb =>
    obtain ⟨rfl, rfl, rfl, rfl⟩ := hsame hd' hrest' hev'
    refine ⟨hupdating, rfl, rfl, fun c hc => ⟨rfl, ?_⟩, fun hnone => ?_⟩
    · simp only [Table.val]
      rw [Heap.val_write, if_pos rfl, show s.heap.val j = some ev' from hev]
      exact (due_eq_some.1 hc).2.2
    · obtain ⟨c, hc⟩ := Option.ne_none_iff_exists'.1 hcb
      rw [due_eq_some.2 ⟨hex, htime, hc⟩] at hnone
      cases hnone
  | pass d' j l' ev' hd' _ hrest' hev' hex htime =>
    obtain ⟨rfl, rfl, rfl, rfl⟩ := hsame hd' hrest' hev'
    refine ⟨hupdating, rfl, rfl, fun c hc => ?_, fun _ => hcur⟩
    exact absurd (due_eq_some.1 hc).2.1 (Nat.not_le.2 htime)

theorem visited {s : Table Cb} {d i : ℕ} {l : List ℕ} (h : InLoop s d) (hrest : s.rest = i :: l) :
    Visited d i l s (step s .visit) := by
  obtain ⟨hupdating, hrest', hobjects, henters, hpasses⟩ := visited_loop h hrest (loop_visit s)
  have hfront : i ∉ l := fun hi => h.owned.rest_once h.cur hrest (by simp [hi])
  refine ⟨owned_step _ h.owned, hupdating, hrest', hobjects, ?_, fun c hc => ?_, hpasses⟩
  · intro j hj
    refine due_other h.owned (by simp) (by rw [hrest]; exact List.mem_cons_of_mem i hj) (fun _ hhead => ?_) (by simp) d
    rw [hrest] at hhead
    exact hfront (Option.some.inj hhead ▸ hj)
  · obtain ⟨hcur, hcb⟩ := henters c hc
    refine ⟨hcur, ?_⟩
    unfold Table.entered
    dsimp only
    rw [hcur]
    exact hcb

theorem returned_loop {s s' : Table Cb} {i : ℕ} (h : Owned s) (hcur : s.cur = some i) (hl : LoopStep s .ret s') :
    s'.updating = s.updating ∧ s'.cur = none ∧ s'.rest = s.rest ∧ s'.objects = s.objects := by
  obtain ⟨ev, hev⟩ := exists_val (h.list_lt (i := i) (by simp [Table.list, hcur]))
  cases hl with
  | idle _ hidle => exact absurd (Or.inr ⟨rfl, hcur⟩) (hidle i ev hev)
  | deletesObject => exact ⟨rfl, rfl, rfl, rfl⟩
  | ends => exact ⟨rfl, rfl, rfl, rfl⟩
  | rearm => exact ⟨rfl, rfl, rfl, rfl⟩

/-- after the callback -/
theorem returned {s : Table Cb} {d i : ℕ} (h : Owned s) (hupdating : s.updating = some d) (hcur : s.cur = some i) :
    InLoop (step s .ret) d ∧ (step s .ret).rest = s.rest ∧ (step s .ret).objects = s.objects ∧
      ∀ j ∈ s.rest, (step s .ret).due d j = s.due d j := by
  obtain ⟨hupdating', hcur', hrest', hobjects'⟩ := returned_loop h hcur (loop_ret s)
  refine ⟨⟨owned_step _ h, hupdating'.trans hupdating, hcur'⟩, hrest', hobjects', fun j hj => ?_⟩
  exact due_other h (by simp) hj (by simp) (fun _ he => h.cur_ne hj he) d

/-! ## What a callback does -/

/-- from `s` to `s'` the callback has added the events `added` of which `new` are behind `itr` -/
structure Acted (d : ℕ) (added : List (NewEvent Cb)) (new : List ℕ) (s s' : Table Cb) : Prop where
  owned : Owned s'
  cur : s'.cur = s.cur
  updating : s'.updating = s.updating
  alive : ∀ o, (s'.objects o).destroyed = false → (s.objects o).destroyed = false
  rest : s'.rest = s.rest ++ new
  atEnd : s.rest = [] → new = []
  once : new.length ≤ added.length
  due : ∀ j ∈ s.rest, ∀ c, s'.due d j = some c → s.due d j = some c
  leads : ∀ j ∈ new, ∀ c, s'.due d j = some c →
    ∃ n ∈ added, (s.objects n.owner).destroyed = false ∧ (n.event {}).due d = some c

theorem Acted.refl {s : Table Cb} (d : ℕ) (h : Owned s) (added : List (NewEvent Cb)) : Acted d added [] s s :=
  ⟨h, rfl, rfl, fun _ => id, (List.append_nil _).symm, fun _ => rfl, Nat.zero_le _, fun _ _ _ => id,
    List.forall_mem_nil _⟩

theorem Acted.trans {d : ℕ} {added added' : List (NewEvent Cb)} {new new' : List ℕ} {s s' s'' : Table Cb}
    (h : Acted d added new s s') (h' : Acted d added' new' s' s'') : Acted d (added ++ added') (new ++ new') s s'' := by
  refine ⟨h'.owned, h'.cur.trans h.cur, h'.updating.trans h.updating, fun o ho => h.alive o (h'.alive o ho), ?_, ?_, ?_,
    ?_, ?_⟩
  · rw [h'.rest, h.rest, List.append_assoc]
  · intro hnil
    rw [h.atEnd hnil, h'.atEnd (by rw [h.rest, hnil, h.atEnd hnil]; rfl)]
    rfl
  · rw [List.length_append, List.length_append]
    exact Nat.add_le_add h.once h'.once
  · intro j hj c hc
    exact h.due j hj c (h'.due j (by rw [h.rest]; exact List.mem_append_left _ hj) c hc)
  · intro j hj c hc
    rcases List.mem_append.1 hj with hj | hj
    · obtain ⟨n, hn, hleads⟩ := h.leads j hj c (h'.due j (by rw [h.rest]; exact List.mem_append_right _ hj) c hc)
      exact ⟨n, List.mem_append_left _ hn, hleads⟩
    · obtain ⟨n, hn, halive, hdue⟩ := h'.leads j hj c hc
      exact ⟨n, List.mem_append_right _ hn, h.alive _ halive, hdue⟩

theorem due_of_map {s s' : Table Cb} {d j : ℕ} {f : TimedEvent Cb → TimedEvent Cb}
    (hval : s'.val j = s.val j ∨ s'.val j = (s.val j).map f) (hf : ∀ ev c, (f ev).due d = some c → ev.due d = some c)
    (c : Cb) (hc : s'.due d j = some c) : s.due d j = some c := by
  unfold Table.due at hc ⊢
  rcases hval with hval | hval
  · rwa [hval] at hc
  · rw [hval] at hc
    obtain ⟨ev', hev', hdue⟩ := Option.bind_eq_some_iff.1 hc
    obtain ⟨ev, hev, rfl⟩ := Option.map_eq_some_iff.1 hev'
    exact Option.bind_eq_some_iff.2 ⟨ev, hev, hf ev c hdue⟩

/-- an event that is no more due -/
theorem due_of_not {d : ℕ} {ev ev' : TimedEvent Cb} (h : ev'.deleted = true ∨ d < ev'.currTime) (c : Cb)
    (hc : ev'.due d = some c) : ev.due d = some c := by
  obtain ⟨hex, htime, -⟩ := due_eq_some.1 hc
  rcases h with h | h
  · rw [hex.not_deleted] at h
    cases h
  · exact absurd htime (Nat.not_le.2 h)

theorem acted_drop {s s' : Table Cb} {d : ℕ} (h' : Owned s') {l : List ℕ} {added : List (NewEvent Cb)}
    (hheap : s'.heap = s.heap.decRefs TimedEvent.remove l) (hcur : s'.cur = s.cur)
    (hupdating : s'.updating = s.updating)
    (hrest : s'.rest = s.rest) (halive : ∀ o, (s'.objects o).destroyed = false → (s.objects o).destroyed = false) :
    Acted d added [] s s' := by
  refine ⟨h', hcur, hupdating, halive, by rw [hrest, List.append_nil], fun _ => rfl, Nat.zero_le _, fun j _ => ?_,
    List.forall_mem_nil _⟩
  refine due_of_map (f := TimedEvent.remove) ?_ fun ev c => due_of_not (Or.inl rfl) c
  unfold Table.val
  rw [hheap, s.heap.val_decRefs (g := TimedEvent.remove) (fun _ => rfl)]
  split_ifs
  · exact Or.inr rfl
  · exact Or.inl rfl

theorem acted_modify {s : Table Cb} {d : ℕ} (h : Owned s) (o ty : ℕ) {f : ℕ → TimedEvent Cb → TimedEvent Cb}
    (howner : ∀ i ev, (f i ev).owner = ev.owner) (hf : ∀ i ev c, (f i ev).due d = some c → ev.due d = some c)
    (added : List (NewEvent Cb)) : Acted d added [] s (modifyEvents s o ty f) := by
  refine ⟨owned_modifyEvents h o ty howner, rfl, rfl, fun _ => id, (List.append_nil _).symm, fun _ => rfl,
    Nat.zero_le _, fun j _ => ?_, List.forall_mem_nil _⟩
  refine due_of_map (f := f j) ?_ (hf j)
  rw [val_modifyEvents h]
  split_ifs
  · exact Or.inr rfl
  · exact Or.inl rfl

theorem addEvent_destroyed (s : Table Cb) (n : NewEvent Cb) (o : ℕ) :
    ((addEvent s n).objects o).destroyed = (s.objects o).destroyed := by
  simp only [addEvent]
  rcases eq_or_ne o n.owner with rfl | ho
  · rw [Function.update_self]
  · rw [Function.update_of_ne ho]

theorem due_addEvent {s : Table Cb} (h : Owned s) (n : NewEvent Cb) (d : ℕ) {j : ℕ} (hj : j ∈ s.rest) :
    (addEvent s n).due d j = s.due d j := by
  unfold Table.due
  rw [val_addEvent, if_neg (h.list_lt (by simp [Table.list, hj])).ne]

theorem due_addEvent_new (s : Table Cb) (n : NewEvent Cb) (d : ℕ) :
    (addEvent s n).due d s.heap.cells.length = (n.event {}).due d := by
  unfold Table.due
  rw [val_addEvent, if_pos rfl]
  rfl

theorem acted_addEvent {s : Table Cb} (h : Owned s) (d : ℕ) (n : NewEvent Cb) (hcur : s.cur ≠ none)
    (halive : (s.objects n.owner).destroyed = false) : ∃ new, Acted d [n] new s (addEvent s n) := by
  have hend : s.atEnd = s.rest.isEmpty := by
    unfold Table.atEnd
    rw [Option.isSome_iff_ne_none.2 hcur, Bool.true_and]
  have hobjects (o : ℕ) (ho : ((addEvent s n).objects o).destroyed = false) : (s.objects o).destroyed = false := by
    rwa [addEvent_destroyed] at ho
  have hdue : ∀ j ∈ s.rest, ∀ c, (addEvent s n).due d j = some c → s.due d j = some c := by
    intro j hj c hc
    rwa [due_addEvent h n d hj] at hc
  rcases eq_or_ne s.rest [] with hrest | hrest
  · refine ⟨[], owned_addEvent h n, rfl, rfl, hobjects, ?_, fun _ => rfl, Nat.zero_le _, hdue,
      List.forall_mem_nil _⟩
    simp [addEvent, hend, hrest]
  · refine ⟨[s.heap.cells.length], owned_addEvent h n, rfl, rfl, hobjects, ?_, fun hnil => absurd hnil hrest,
      le_rfl, hdue, ?_⟩
    · simp [addEvent, hend, hrest]
    · intro j hj c hc
      rw [List.mem_singleton.1 hj, due_addEvent_new] at hc
      exact ⟨n, List.mem_singleton_self n, halive, hc⟩

theorem acted_act {s : Table Cb} (h : Owned s) (d : ℕ) {a : Act Cb} (ha : a.PutsOff d) (hcur : s.cur ≠ none) :
    ∃ new, Acted d a.added.toList new s (step s (.act a)) := by
  by_cases hexists : (s.objects a.object).destroyed = false
  · have hstep : step s (.act a) = act s a := if_pos ⟨Or.inr hcur, hexists⟩
    rw [hstep]
    have hupdate (o : ℕ) (ob : EventableObject) (hob : ob.destroyed = false → (s.objects o).destroyed = false) (o' : ℕ)
        (ho' : (Function.update s.objects o ob o').destroyed = false) : (s.objects o').destroyed = false := by
      rcases eq_or_ne o' o with rfl | hne
      · rw [Function.update_self] at ho'
        exact hob ho'
      · rwa [Function.update_of_ne hne] at ho'
    cases a with
    | addEvent n => exact acted_addEvent h d n hcur hexists
    | removeEvents o ty => exact ⟨[], acted_drop (owned_act h (.removeEvents o ty)) rfl rfl rfl rfl (hupdate o _ id)⟩
    | destroy o => exact ⟨[], acted_drop (owned_act h (.destroy o)) rfl rfl rfl rfl (hupdate o _ (by simp))⟩
    | modifyTimeLeft o ty timeLeft unconditioned =>
      obtain ⟨rfl, htime⟩ := ha
      refine ⟨[], acted_modify h o ty (fun _ _ => ?_) (fun _ _ c => ?_) _⟩
      · rfl
      · exact due_of_not (Or.inr htime) c
    | modifyTime o ty time =>
      refine ⟨[], acted_modify h o ty (fun _ _ => ?_) (fun _ _ c => ?_) _⟩
      · rfl
      · exact id
    | modifyTimeAndTimeLeft o ty time =>
      refine ⟨[], acted_modify h o ty (fun _ _ => ?_) (fun _ _ c => ?_) _⟩
      · rfl
      · exact due_of_not (Or.inr ha) c
  · have hstep : step s (.act a) = s := if_neg fun hand => hexists hand.2
    rw [hstep]
    exact ⟨[], Acted.refl d h _⟩

theorem acted_run {s : Table Cb} (h : Owned s) (d : ℕ) (hcur : s.cur ≠ none) (acts : List (Act Cb))
    (hacts : ∀ a ∈ acts, a.PutsOff d) :
    ∃ new, Acted d (acts.filterMap Act.added) new s (run step s (acts.map .act)) := by
  induction acts generalizing s with
  | nil => exact ⟨[], Acted.refl d h _⟩
  | cons a acts ih =>
    obtain ⟨new, hact⟩ := acted_act h d (hacts a List.mem_cons_self) hcur
    obtain ⟨new', hrun⟩ := ih hact.owned (hact.cur ▸ hcur) fun b hb => hacts b (List.mem_cons_of_mem a hb)
    refine ⟨new ++ new', ?_⟩
    have hadded : (a :: acts).filterMap Act.added = a.added.toList ++ acts.filterMap Act.added := by
      rw [List.filterMap_cons]
      rcases a.added with _ | n
      · rfl
      · rfl
    rw [hadded]
    exact hact.trans hrun

/-! ## The list as a work list -/

/-- an object that exists is one of `s0` -/
def AliveIn (s0 s : Table Cb) : Prop := ∀ o, (s.objects o).destroyed = false → (s0.objects o).destroyed = false

/-- what the entries that the update has still to visit do -/
def Table.work (s : Table Cb) (d : ℕ) : List (Option Cb) := s.rest.map (s.due d)

/-- **One round of the loop is a round of the work list.** -/
theorem round_work {adds : Cb → NewEvent Cb → Prop} {s s0 : Table Cb} {d : ℕ} (h : InLoop s d) (halive : AliveIn s0 s)
    (hrest : s.rest ≠ []) {acts : List (Act Cb)} (hacts : ∀ c, s.entered = some c → Allowed adds d c acts) :
    InLoop (round s acts) d ∧ AliveIn s0 (round s acts) ∧
      Round (Leads adds s0 d) ((round s acts).work d) (s.work d) := by
  obtain ⟨i, l, hrest⟩ := List.exists_cons_of_ne_nil hrest
  have hvisited := visited h hrest
  have hwork : s.work d = s.due d i :: l.map (s.due d) := by rw [Table.work, hrest, List.map_cons]
  rw [hwork]
  rcases hdue : s.due d i with _ | c
  · have hround : round s acts = step s .visit := if_pos (hvisited.passes hdue)
    rw [hround]
    refine ⟨⟨hvisited.owned, hvisited.updating, hvisited.passes hdue⟩, ?_, ?_⟩
    · intro o ho
      rw [hvisited.objects] at ho
      exact halive o ho
    · rw [Table.work, hvisited.rest]
      exact Round.drop none (struck_map fun j hj c hc => hvisited.due j hj ▸ hc)
  · obtain ⟨hcur, hentered⟩ := hvisited.enters c hdue
    obtain ⟨honce, hadds, hputsOff⟩ := hacts c hentered
    have hne : (step s .visit).cur ≠ none := by rw [hcur]; exact Option.some_ne_none i
    have hround : round s acts = step (run step (step s .visit) (acts.map .act)) .ret := if_neg hne
    obtain ⟨new, hacted⟩ := acted_run hvisited.owned d hne acts hputsOff
    obtain ⟨hloop, hrest', hobjects', hdue'⟩ := returned hacted.owned (hacted.updating.trans hvisited.updating)
      (hacted.cur.trans hcur)
    rw [← hround] at hloop hrest' hobjects' hdue'
    rw [hacted.rest, hvisited.rest] at hrest' hdue'
    have halive' : AliveIn s0 (step s .visit) := by
      intro o ho
      rw [hvisited.objects] at ho
      exact halive o ho
    have hstruck : Struck (l.map ((round s acts).due d)) (l.map (s.due d)) := by
      refine struck_map fun j hj c' hc' => ?_
      rw [hdue' j (List.mem_append_left _ hj)] at hc'
      rw [← hvisited.due j hj]
      exact hacted.due j (by rwa [hvisited.rest]) c' hc'
    refine ⟨hloop, fun o ho => ?_, ?_⟩
    · rw [hobjects'] at ho
      exact halive' o (hacted.alive o ho)
    · have hlen : new.length ≤ 1 := hacted.once.trans honce
      rw [Table.work, hrest', List.map_append]
      rcases new with _ | ⟨j, _ | ⟨k, new⟩⟩
      · rw [List.map_nil, List.append_nil]
        exact Round.drop (some c) hstruck
      · have hl : l ≠ [] := by
          intro hnil
          cases hacted.atEnd (by rw [hvisited.rest, hnil])
        refine Round.put hstruck (fun hnil => hl (List.map_eq_nil_iff.1 hnil)) fun c' hc' => ?_
        rw [hdue' j (List.mem_append_right _ (List.mem_singleton_self j))] at hc'
        obtain ⟨n, hn, halive'', hn'⟩ := hacted.leads j (List.mem_singleton_self j) c' hc'
        exact ⟨n, hadds n hn, halive' _ halive'', hn'⟩
      · simp at hlen

theorem round_end {s : Table Cb} {d : ℕ} (h : InLoop s d) (hrest : s.rest = []) (acts : List (Act Cb)) :
    (round s acts).updating = none := by
  have hstep : step s .visit = endUpdate s := by simp only [step, h.updating, h.cur, visit, hrest]
  have hround : round s acts = step s .visit := if_pos (by rw [hstep]; exact h.cur)
  rw [hround, hstep]
  rfl

theorem acc_goes {adds : Cb → NewEvent Cb → Prop} {s0 : Table Cb} {d : ℕ} {q : List (Option Cb)}
    (hq : Acc (Round (Leads adds s0 d)) q) {s : Table Cb} (h : InLoop s d) (halive : AliveIn s0 s) (hs : s.work d = q) :
    Acc (Goes adds d) s := by
  induction hq generalizing s with
  | intro q _ ih =>
    refine Acc.intro s ?_
    rintro s' ⟨-, acts, hacts, rfl⟩
    rcases eq_or_ne s.rest [] with hrest | hrest
    · exact Acc.intro _ fun s'' hgoes => absurd (round_end h hrest acts) hgoes.1
    · obtain ⟨hloop, halive', hround⟩ := round_work h halive hrest hacts
      exact ih _ (hs ▸ hround) hloop halive' rfl

/-! ## Two endless entries -/

/-- the loop visits an entry and nothing is added -/
theorem round_idle {s : Table Cb} {d i : ℕ} {l : List ℕ} (h : InLoop s d) (hrest : s.rest = i :: l) :
    InLoop (round s []) d ∧ (round s []).rest = l ∧ (round s []).objects = s.objects ∧
      ∀ j ∈ l, (round s []).due d j = s.due d j := by
  obtain ⟨howned, hupdating, hrest', hobjects, hdue, henters, hpasses⟩ := visited h hrest
  rcases hd : s.due d i with _ | c
  · have hround : round s [] = step s .visit := if_pos (hpasses hd)
    rw [hround]
    exact ⟨⟨howned, hupdating, hpasses hd⟩, hrest', hobjects, hdue⟩
  · obtain ⟨hcur, -⟩ := henters c hd
    have hround : round s [] = step (step s .visit) .ret := if_neg (by rw [hcur]; exact Option.some_ne_none i)
    obtain ⟨hloop, hrest'', hobjects', hdue'⟩ := returned howned hupdating hcur
    rw [hround]
    rw [hrest'] at hrest'' hdue'
    exact ⟨hloop, hrest'', hobjects'.trans hobjects, fun j hj => (hdue' j hj).trans (hdue j hj)⟩

/-- the loop executes an entry that adds an event, and others are left -/
theorem round_add {s : Table Cb} {d i : ℕ} {l : List ℕ} (h : InLoop s d) (hrest : s.rest = i :: l)
    (hl : l ≠ []) {c : Cb}
    (hc : s.due d i = some c) {n : NewEvent Cb} (halive : (s.objects n.owner).destroyed = false) :
    InLoop (round s [.addEvent n]) d ∧
      (∀ o, ((round s [.addEvent n]).objects o).destroyed = (s.objects o).destroyed) ∧
      (∀ j ∈ l, (round s [.addEvent n]).due d j = s.due d j) ∧
      ∃ k, k ∉ l ∧ (round s [.addEvent n]).rest = l ++ [k] ∧
        (round s [.addEvent n]).due d k = (n.event {}).due d := by
  obtain ⟨howned, hupdating, hrest', hobjects, hdue, henters, -⟩ := visited h hrest
  obtain ⟨hcur, -⟩ := henters c hc
  have hne : (step s .visit).cur ≠ none := by rw [hcur]; exact Option.some_ne_none i
  have hadd : step (step s .visit) (.act (.addEvent n)) = addEvent (step s .visit) n := by
    refine if_pos ⟨Or.inr hne, ?_⟩
    rw [hobjects]
    exact halive
  have hround : round s [.addEvent n] = step (addEvent (step s .visit) n) .ret := by
    unfold round
    rw [if_neg hne, List.map_singleton, run_cons, run_nil, hadd]
  have hend : (step s .visit).atEnd = false := by
    unfold Table.atEnd
    rw [hrest', Bool.and_eq_false_iff]
    exact Or.inr (by simpa using hl)
  have hrestAdd : (addEvent (step s .visit) n).rest = l ++ [(step s .visit).heap.cells.length] := by
    simp [addEvent, hend, hrest']
  obtain ⟨hloop, hrest'', hobjects', hdue'⟩ := returned (owned_addEvent howned n) hupdating hcur
  rw [hround]
  rw [hrestAdd] at hrest'' hdue'
  refine ⟨hloop, fun o => ?_, fun j hj => ?_, (step s .visit).heap.cells.length, ?_, hrest'', ?_⟩
  · rw [hobjects', addEvent_destroyed, hobjects]
  · rw [hdue' j (List.mem_append_left _ hj), due_addEvent howned n d (by rwa [hrest']), hdue j hj]
  · intro hmem
    exact Nat.lt_irrefl _ (howned.list_lt (by simp [Table.list, hrest', hmem]))
  · rw [hdue' _ (List.mem_append_right _ (List.mem_singleton_self _)), due_addEvent_new]

/-- with two endless entries the callbacks can go on forever -/
theorem not_acc_goes {adds : Cb → NewEvent Cb → Prop} {s0 s : Table Cb} {d : ℕ} (hacc : Acc (Goes adds d) s)
    (h : InLoop s d) (halive : ∀ o, (s.objects o).destroyed = (s0.objects o).destroyed) {i j : ℕ} (hij : i ≠ j)
    (hi : i ∈ s.rest) (hj : j ∈ s.rest) {ci cj : Cb} (hci : s.due d i = some ci) (hcj : s.due d j = some cj)
    (hei : Endless (Leads adds s0 d) ci) (hej : Endless (Leads adds s0 d) cj) : False := by
  induction hacc generalizing i j ci cj with
  | intro s _ ih =>
    have hrunning : s.updating ≠ none := by rw [h.updating]; exact Option.some_ne_none d
    obtain ⟨k, l, hrest⟩ := List.exists_cons_of_ne_nil (List.ne_nil_of_mem hi)
    -- the entry in front adds the next one of its chain, and the other stays
    have hfront {m : ℕ} (hm : m ∈ l) {ck cm : Cb} (hck : s.due d k = some ck) (hcm : s.due d m = some cm)
        (hek : Endless (Leads adds s0 d) ck) (hem : Endless (Leads adds s0 d) cm) : False := by
      obtain ⟨c', ⟨n, hadds, hexists, hn⟩, he'⟩ := hek.next
      obtain ⟨hloop, hobjects, hdue, new, hnew, hrest', hdueNew⟩ :=
        round_add h hrest (List.ne_nil_of_mem hm) hck (n := n) (by rw [halive]; exact hexists)
      have hallowed (c : Cb) (hc : s.entered = some c) : Allowed adds d c [.addEvent n] := by
        obtain ⟨-, hentered⟩ := (visited h hrest).enters ck hck
        obtain rfl : ck = c := Option.some.inj (hentered.symm.trans hc)
        exact ⟨le_rfl, fun n' hn' => by rwa [List.mem_singleton.1 hn'], fun a ha => by
          rw [List.mem_singleton.1 ha]; trivial⟩
      refine ih _ ⟨hrunning, _, hallowed, rfl⟩ hloop (fun o => (hobjects o).trans (halive o))
        (fun he : m = new => hnew (he ▸ hm)) (by rw [hrest']; exact List.mem_append_left _ hm)
        (by rw [hrest']; exact List.mem_append_right _ (List.mem_singleton_self new)) ((hdue m hm).trans hcm)
        (hdueNew.trans hn) hem he'
    rw [hrest] at hi hj
    rcases List.mem_cons.1 hi with rfl | hil
    · rcases List.mem_cons.1 hj with rfl | hjl
      · exact hij rfl
      · exact hfront hjl hci hcj hei hej
    · rcases List.mem_cons.1 hj with rfl | hjl
      · exact hfront hil hcj hci hej hei
      · obtain ⟨hloop, hrest', hobjects, hdue⟩ := round_idle h hrest
        have hallowed (c : Cb) (_ : s.entered = some c) : Allowed adds d c [] :=
          ⟨Nat.zero_le _, List.forall_mem_nil _, List.forall_mem_nil _⟩
        exact ih _ ⟨hrunning, _, hallowed, rfl⟩ hloop (fun o => by rw [hobjects]; exact halive o) hij (by rwa [hrest'])
          (by rwa [hrest']) ((hdue i hil).trans hci) ((hdue j hjl).trans hcj) hei hej

/-! ## The update -/

/-- **An update returns, unless two entries start a chain of events without an end.** After every run, for every update:
it returns whatever the callbacks do, of what they are allowed, exactly when at most one entry of the list is executed
by the update and may start a chain of events that are added for the same update and go on forever. -/
theorem update_returns_iff (ops : List (Op Cb)) (d : ℕ) (adds : Cb → NewEvent Cb → Prop)
    (hidle : (run step ({} : Table Cb) ops).updating = none) :
    let s := run step ({} : Table Cb) ops
    (∀ acts, Permitted adds d (step s (.update d)) acts → ∃ n, (rounds (step s (.update d)) acts n).updating = none) ↔
      ∀ i ∈ s.list, ∀ j ∈ s.list, StartsForever adds s d i → StartsForever adds s d j → i = j := by
  intro s
  obtain ⟨howned, hplaced, -, -⟩ := kept_run ops
  obtain ⟨hcur, hfront, hback, -⟩ := hplaced.idle hidle
  have hlist : s.list = s.rest := by
    show s.front ++ s.cur.toList ++ s.rest ++ s.back = s.rest
    rw [hcur, hfront, hback, List.append_nil]
    rfl
  have hstart : step s (.update d) = startUpdate s d := if_pos hidle
  have hloop : InLoop (startUpdate s d) d := ⟨hstart ▸ owned_step (.update d) howned, rfl, hcur⟩
  have hnodup : s.rest.Nodup := hlist ▸ howned.list_nodup
  rw [hstart, hlist, returns_iff]
  constructor
  · intro hacc i hi j hj ⟨ci, hci, hei⟩ ⟨cj, hcj, hej⟩
    by_contra hij
    exact not_acc_goes hacc hloop (fun _ => rfl) hij hi hj hci hcj hei hej
  · intro hone
    have hq : (items (Endless (Leads adds s d)) (s.rest.map (s.due d))).length ≤ 1 := length_items_map hnodup hone
    exact acc_goes (acc_round hq) hloop (fun _ => id) rfl

/-- one event of 10 ms whose callback adds it again, in an update of 10 ms -/
theorem update_returns_once :
    let n : NewEvent Unit := ⟨0, some (), 0, 10, 1, 0⟩
    let s := run step ({} : Table Unit) [.act (.addEvent n)]
    ∀ acts, Permitted (fun _ m => m = n) 10 (step s (.update 10)) acts →
      ∃ k, (rounds (step s (.update 10)) acts k).updating = none := by
  intro n s
  refine (update_returns_iff [.act (.addEvent n)] 10 (fun _ m => m = n) rfl).2 ?_
  intro i hi j hj _ _
  have hlist : (run step ({} : Table Unit) [.act (.addEvent n)]).list = [0] := rfl
  rw [hlist, List.mem_singleton] at hi hj
  rw [hi, hj]

/-- two entries are left, both with the callback `c`, and the object of `n` exists -/
def Pair (s : Table Cb) (d : ℕ) (c : Cb) (n : NewEvent Cb) : Prop :=
  InLoop s d ∧ (s.objects n.owner).destroyed = false ∧
    ∃ i j, s.rest = [i, j] ∧ s.due d i = some c ∧ s.due d j = some c

theorem pair_round {s : Table Cb} {d : ℕ} {c : Cb} {n : NewEvent Cb} (hn : (n.event {}).due d = some c)
    (h : Pair s d c n) : Pair (round s [.addEvent n]) d c n := by
  obtain ⟨hloop, halive, i, j, hrest, hi, hj⟩ := h
  obtain ⟨hloop', hobjects, hdue, new, -, hrest', hnew⟩ := round_add hloop hrest (List.cons_ne_nil j []) hi halive
  exact ⟨hloop', (hobjects n.owner).trans halive, j, new, hrest', (hdue j (List.mem_singleton_self j)).trans hj,
    hnew.trans hn⟩

/-- two of them: the update never returns -/
theorem update_never_returns :
    let n : NewEvent Unit := ⟨0, some (), 0, 10, 1, 0⟩
    let s := run step ({} : Table Unit) [.act (.addEvent n), .act (.addEvent n)]
    Permitted (fun _ m => m = n) 10 (step s (.update 10)) (fun _ => [.addEvent n]) ∧
      ∀ k, (rounds (step s (.update 10)) (fun _ => [.addEvent n]) k).updating ≠ none := by
  intro n s
  refine ⟨fun _ _ _ => ⟨le_rfl, fun m hm => List.mem_singleton.1 hm, fun a ha => ?_⟩, fun k => ?_⟩
  · rw [List.mem_singleton.1 ha]
    trivial
  · have hpair : Pair (rounds (step s (.update 10)) (fun _ => [.addEvent n]) k) 10 () n := by
      induction k with
      | zero =>
        have howned := owned_run [.act (.addEvent n), .act (.addEvent n), .update 10]
        exact ⟨⟨howned, rfl, rfl⟩, rfl, 0, 1, rfl, by decide, by decide⟩
      | succ k ih => exact pair_round (by decide) ih
    rw [hpair.1.updating]
    exact Option.some_ne_none 10

end DreamHeroes.Events
