/-
Loops with an iterator over an ordered container that erase elements as they go.

- A container is the list of its elements in order. An element is named by its key, and an iterator is at an element or
  at the end (`Iter`).
- `deref`, `incr`, `erase`: what may be asked of an iterator. At the end or at an erased element nothing is defined,
  which is `none`.
- `walk`: the loop. A round reads the element; one that matches is erased, and then the iterator is incremented as it is
  (`Advance.increment`), or it takes the place behind the element, which `erase` returns (`Advance.returned`).
- `sweep`: what the loop is for, each element visited once and the ones that match left out.
- `walk_returned`: with the returned iterator the loop is the sweep. `walk_increment`: with the increment it
  is only when no element matches.
-/
import Mathlib.Tactic
import DreamHeroes.Lib.OrdMap

namespace DreamHeroes.Lib.MapCursor

variable {K V S : Type*}

/-! ## The sweep -/

/-- the container, what the rounds have changed outside of it, and the elements that have been read -/
structure Loop (K V S : Type*) where
  left : List (K × V)
  state : S
  visited : List (K × V) := []

/-- one round of the sweep -/
def visit (step : S → K × V → S × Bool) (r : Loop K V S) (e : K × V) : Loop K V S where
  left := if (step r.state e).2 then r.left else r.left ++ [e]
  state := (step r.state e).1
  visited := r.visited ++ [e]

def sweep (step : S → K × V → S × Bool) (s : S) (l : List (K × V)) : Loop K V S :=
  l.foldl (visit step) { left := [], state := s }

variable {step : S → K × V → S × Bool} {e : K × V} {todo : List (K × V)} {r : Loop K V S}

/-- what is left when `todo` has not been visited -/
def Loop.before (r : Loop K V S) (todo : List (K × V)) : Loop K V S := { r with left := r.left ++ todo }

/-- the keys stay different -/
theorem nodup_visit (hnodup : ((r.left ++ e :: todo).map Prod.fst).Nodup) :
    (((visit step r e).left ++ todo).map Prod.fst).Nodup := by
  rw [visit]
  split_ifs
  · exact hnodup.sublist (((List.sublist_cons_self e todo).append_left r.left).map Prod.fst)
  · simpa using hnodup

theorem foldl_visited (l : List (K × V)) (r : Loop K V S) : (l.foldl (visit step) r).visited = r.visited ++ l := by
  induction l generalizing r with
  | nil => rw [List.foldl_nil, List.append_nil]
  | cons e l ih =>
    rw [List.foldl_cons, ih, visit, List.append_assoc]
    rfl

theorem foldl_state (l : List (K × V)) (r : Loop K V S) :
    (l.foldl (visit step) r).state = l.foldl (fun s e => (step s e).1) r.state := by
  induction l generalizing r with
  | nil => rfl
  | cons e l ih =>
    rw [List.foldl_cons, ih]
    rfl

/-- whether an element matches depends on what the rounds leave alone -/
theorem foldl_left {kept : S → Prop} {hit : K × V → Bool} (hkept : ∀ s e, kept s → kept (step s e).1)
    (hhit : ∀ s e, kept s → (step s e).2 = hit e) (l : List (K × V)) (r : Loop K V S) (hr : kept r.state) :
    (l.foldl (visit step) r).left = r.left ++ l.filter fun e => !hit e := by
  induction l generalizing r with
  | nil => simp
  | cons e l ih =>
    rw [List.foldl_cons, ih _ (hkept _ e hr), visit, hhit _ e hr, List.filter_cons]
    cases hit e <;> simp

theorem sweep_visited (s : S) (l : List (K × V)) : (sweep step s l).visited = l := by
  rw [sweep, foldl_visited, List.nil_append]

theorem sweep_state (s : S) (l : List (K × V)) : (sweep step s l).state = l.foldl (fun s e => (step s e).1) s :=
  foldl_state l _

theorem sweep_left (kept : S → Prop) (hit : K × V → Bool) (hkept : ∀ s e, kept s → kept (step s e).1)
    (hhit : ∀ s e, kept s → (step s e).2 = hit e) {s : S} (hs : kept s) (l : List (K × V)) :
    (sweep step s l).left = l.filter fun e => !hit e := by
  rw [sweep, foldl_left hkept hhit l _ hs, List.nil_append]

theorem sweep_left_of_same (hit : K × V → Bool) (hhit : ∀ s e, (step s e).2 = hit e) (s : S) (l : List (K × V)) :
    (sweep step s l).left = l.filter fun e => !hit e :=
  sweep_left (fun _ => True) hit (fun _ _ _ => trivial) (fun s e _ => hhit s e) trivial l

/-! ## Iterators -/

theorem notMem_of_nodup {pre post : List (K × V)} (h : ((pre ++ e :: post).map Prod.fst).Nodup) :
    e.1 ∉ pre.map Prod.fst ∧ e.1 ∉ post.map Prod.fst := by
  rw [List.map_append, List.map_cons, List.nodup_append] at h
  exact ⟨fun hmem => h.2.2 _ hmem _ List.mem_cons_self rfl, (List.nodup_cons.1 h.2.1).1⟩

variable [DecidableEq K]

/-- at the element of a key, or at the end -/
abbrev Iter (K : Type*) := Option K

def begin (l : List (K × V)) : Iter K := l.head?.map Prod.fst

def deref (l : List (K × V)) (it : Iter K) : Option V := it.bind fun k => l.lookup k

def incr : List (K × V) → Iter K → Option (Iter K)
  | [], _ => none
  | e :: l, it => if it = some e.1 then some (begin l) else incr l it

def erase (l : List (K × V)) (it : Iter K) : Option (List (K × V)) :=
  it.bind fun k => if k ∈ l.map Prod.fst then some (l.filter fun e => e.1 ≠ k) else none

/-! ## The loop -/

inductive Advance where
  | increment
  | returned
deriving DecidableEq, Repr

/-- `step` gives the state behind the round, and whether the element matches -/
def walk (step : S → K × V → S × Bool) (how : Advance) : ℕ → Loop K V S → Iter K → Option (Loop K V S)
  | _, r, none => some r
  | 0, _, some _ => none
  | n + 1, r, some k =>
    (deref r.left (some k)).bind fun v =>
      let (s, hit) := step r.state (k, v)
      let visited := r.visited ++ [(k, v)]
      if hit then
        (erase r.left (some k)).bind fun left =>
          (incr (if how = .returned then r.left else left) (some k)).bind fun it =>
            walk step how n { left := left, state := s, visited := visited } it
      else
        (incr r.left (some k)).bind fun it => walk step how n { r with state := s, visited := visited } it

/-- the loop from the first element on, with a round for each element -/
def eraseLoop (step : S → K × V → S × Bool) (how : Advance) (s : S) (l : List (K × V)) : Option (Loop K V S) :=
  walk step how l.length { left := l, state := s } (begin l)

/-! ## One element -/

section

variable {pre post : List (K × V)}

theorem deref_at (h : ((pre ++ e :: post).map Prod.fst).Nodup) : deref (pre ++ e :: post) (some e.1) = some e.2 :=
  (lookup_eq_some_iff h e.1 e.2).2 (by simp)

theorem incr_at (h : e.1 ∉ pre.map Prod.fst) : incr (pre ++ e :: post) (some e.1) = some (begin post) := by
  induction pre with
  | nil => exact if_pos rfl
  | cons p pre ih =>
    rw [List.map_cons, List.mem_cons, not_or] at h
    rw [List.cons_append, incr, if_neg (fun heq => h.1 (Option.some.inj heq)), ih h.2]

/-- an erased element -/
theorem incr_notMem {l : List (K × V)} {k : K} (h : k ∉ l.map Prod.fst) : incr l (some k) = none := by
  induction l with
  | nil => rfl
  | cons p l ih =>
    rw [List.map_cons, List.mem_cons, not_or] at h
    rw [incr, if_neg (fun heq => h.1 (Option.some.inj heq)), ih h.2]

theorem erase_at (h : ((pre ++ e :: post).map Prod.fst).Nodup) :
    erase (pre ++ e :: post) (some e.1) = some (pre ++ post) := by
  have hpre : pre.filter (fun x => x.1 ≠ e.1) = pre := by
    rw [List.filter_eq_self]
    intro x hx
    simpa using fun heq : x.1 = e.1 => (notMem_of_nodup h).1 (heq ▸ List.mem_map_of_mem hx)
  have hpost : post.filter (fun x => x.1 ≠ e.1) = post := by
    rw [List.filter_eq_self]
    intro x hx
    simpa using fun heq : x.1 = e.1 => (notMem_of_nodup h).2 (heq ▸ List.mem_map_of_mem hx)
  rw [erase, Option.bind_some, if_pos (by simp), List.filter_append, List.filter_cons_of_neg (by simp), hpre, hpost]

end

/-! ## One round -/

variable {how : Advance} {n : ℕ}

theorem walk_keep (hnodup : ((r.left ++ e :: todo).map Prod.fst).Nodup) (hit : (step r.state e).2 = false) :
    walk step how (n + 1) (r.before (e :: todo)) (some e.1) =
      walk step how n ((visit step r e).before todo) (begin todo) := by
  have hvisit : (visit step r e).before todo =
      { left := r.left ++ e :: todo, state := (step r.state e).1, visited := r.visited ++ [e] } := by
    rw [visit, hit]
    simp [Loop.before]
  rw [walk, Loop.before, deref_at hnodup, Option.bind_some, hvisit]
  simp [hit, incr_at (notMem_of_nodup hnodup).1]

theorem walk_erase (hnodup : ((r.left ++ e :: todo).map Prod.fst).Nodup) (hit : (step r.state e).2 = true) :
    walk step .returned (n + 1) (r.before (e :: todo)) (some e.1) =
      walk step .returned n ((visit step r e).before todo) (begin todo) := by
  have hvisit : (visit step r e).before todo =
      { left := r.left ++ todo, state := (step r.state e).1, visited := r.visited ++ [e] } := by
    rw [visit, hit]
    simp [Loop.before]
  rw [walk, Loop.before, deref_at hnodup, Option.bind_some, hvisit]
  simp [hit, erase_at hnodup, incr_at (notMem_of_nodup hnodup).1]

/-- the erased element is asked for the one behind it -/
theorem walk_undefined (hnodup : ((r.left ++ e :: todo).map Prod.fst).Nodup) (hit : (step r.state e).2 = true) :
    walk step .increment (n + 1) (r.before (e :: todo)) (some e.1) = none := by
  have hgone : e.1 ∉ (r.left ++ todo).map Prod.fst := by
    rw [List.map_append, List.mem_append, not_or]
    exact notMem_of_nodup hnodup
  rw [walk, Loop.before, deref_at hnodup, Option.bind_some]
  simp [hit, erase_at hnodup, incr_notMem hgone]

/-! ## The whole loop -/

theorem walk_returned (hnodup : ((r.left ++ todo).map Prod.fst).Nodup) (hn : todo.length ≤ n) :
    walk step .returned n (r.before todo) (begin todo) = some (todo.foldl (visit step) r) := by
  induction todo generalizing r n with
  | nil => rw [Loop.before, List.append_nil, begin, List.head?_nil, Option.map_none, walk, List.foldl_nil]
  | cons e todo ih =>
    obtain ⟨n, rfl⟩ : ∃ m, n = m + 1 := ⟨n - 1, by rw [List.length_cons] at hn; omega⟩
    have hnext : (((visit step r e).left ++ todo).map Prod.fst).Nodup := nodup_visit hnodup
    have hrest := ih hnext (Nat.le_of_succ_le_succ hn)
    rw [begin, List.head?_cons, Option.map_some, List.foldl_cons]
    cases hit : (step r.state e).2 with
    | true => rw [walk_erase hnodup hit, hrest]
    | false => rw [walk_keep hnodup hit, hrest]

/-- as soon as an element matches, the loop has no defined result; `hquiet`: an element that does not match changes
nothing -/
theorem walk_increment (hquiet : ∀ s e, (step s e).2 = false → (step s e).1 = s)
    (hnodup : ((r.left ++ todo).map Prod.fst).Nodup) (hn : todo.length ≤ n) :
    walk step .increment n (r.before todo) (begin todo) =
      if ∀ e ∈ todo, (step r.state e).2 = false then some (todo.foldl (visit step) r) else none := by
  induction todo generalizing r n with
  | nil =>
    rw [Loop.before, List.append_nil, begin, List.head?_nil, Option.map_none, walk, List.foldl_nil,
      if_pos (List.forall_mem_nil _)]
  | cons e todo ih =>
    obtain ⟨n, rfl⟩ : ∃ m, n = m + 1 := ⟨n - 1, by rw [List.length_cons] at hn; omega⟩
    rw [begin, List.head?_cons, Option.map_some, List.foldl_cons]
    cases hit : (step r.state e).2 with
    | true =>
      rw [walk_undefined hnodup hit, if_neg]
      intro hall
      rw [hall e List.mem_cons_self] at hit
      cases hit
    | false =>
      have hstate : (visit step r e).state = r.state := hquiet r.state e hit
      rw [walk_keep hnodup hit, ih (nodup_visit hnodup) (Nat.le_of_succ_le_succ hn), hstate]
      simp only [List.forall_mem_cons, hit, true_and]

variable {s : S} {l : List (K × V)} {P : Loop K V S → Prop}

/-- with the returned iterator the loop is the sweep -/
theorem eraseLoop_returned (hnodup : (l.map Prod.fst).Nodup) :
    eraseLoop step .returned s l = some (sweep step s l) :=
  walk_returned (r := { left := [], state := s }) hnodup le_rfl

/-- with the increment, only when no element matches -/
theorem eraseLoop_increment_iff (hquiet : ∀ s e, (step s e).2 = false → (step s e).1 = s)
    (hnodup : (l.map Prod.fst).Nodup) (hP : P (sweep step s l)) :
    (∃ r, eraseLoop step .increment s l = some r ∧ P r) ↔ ∀ e ∈ l, (step s e).2 = false := by
  have hloop : eraseLoop step .increment s l =
      if ∀ e ∈ l, (step s e).2 = false then some (sweep step s l) else none :=
    walk_increment (r := { left := [], state := s }) hquiet hnodup le_rfl
  rw [hloop]
  split_ifs with hall
  · exact iff_of_true ⟨_, rfl, hP⟩ hall
  · refine iff_of_false ?_ hall
    rintro ⟨r, hr, -⟩
    cases hr

end DreamHeroes.Lib.MapCursor
