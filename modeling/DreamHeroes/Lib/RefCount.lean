/-
Reference counts.

An object is made with a count of 0, every container that takes a pointer to it adds one, and every container that drops
its pointer takes one away; when that leaves nothing the object is freed. A heap remembers whether an object has been
accessed after it was freed.

- `Heap.alloc`, `Heap.incRef`, `Heap.decRef`, `Heap.write`, `Heap.writes`: the operations. `decRef` marks the object
  with `g` first.
- `Counted h c`: `c i` pointers to the object `i` are held. Its count is `c i`; it has been freed once if no pointer is
  left, and not yet otherwise; and no freed object has been accessed.
- `Counted.write`, `Counted.alloc`, `Counted.incRef`, `Counted.decRef`, `Counted.decRefs`: every operation through a
  pointer that is held is safe, and what it makes of the counts.
- `Heap.val_alloc`, `Heap.val_write`, `Heap.val_decRefs`: what the operations make of the objects themselves.
-/
import Mathlib.Tactic

namespace DreamHeroes.Lib

structure Cell (α : Type*) where
  val : α
  ref : ℤ := 0
  /-- how often the object has been freed -/
  freed : ℕ := 0
deriving DecidableEq, Repr

structure Heap (α : Type*) where
  cells : List (Cell α) := []
  /-- an object has been accessed after it was freed -/
  fault : Bool := false
deriving DecidableEq, Repr

variable {α : Type*}

def Heap.live (h : Heap α) (i : ℕ) : Bool :=
  match h.cells[i]? with
  | none => false
  | some cell => cell.freed = 0

def Heap.access (h : Heap α) (i : ℕ) (f : Cell α → Cell α) : Heap α :=
  { cells := h.cells.modify i f, fault := h.fault || !h.live i }

def Heap.alloc (h : Heap α) (v : α) : Heap α := { h with cells := h.cells ++ [{ val := v }] }

def Heap.write (h : Heap α) (g : α → α) (i : ℕ) : Heap α := h.access i fun cell => { cell with val := g cell.val }

def Heap.incRef (h : Heap α) (i : ℕ) : Heap α := h.access i fun cell => { cell with ref := cell.ref + 1 }

def Cell.decRef (g : α → α) (cell : Cell α) : Cell α :=
  { val := g cell.val
    ref := cell.ref - 1
    freed := if cell.ref - 1 ≤ 0 then cell.freed + 1 else cell.freed }

def Heap.decRef (g : α → α) (h : Heap α) (i : ℕ) : Heap α := h.access i (Cell.decRef g)

def Heap.decRefs (g : α → α) (h : Heap α) (l : List ℕ) : Heap α := l.foldl (Heap.decRef g) h

/-- a loop over pointers that writes to each object -/
def Heap.writes (f : ℕ → α → α) (h : Heap α) (l : List ℕ) : Heap α := l.foldl (fun h i => h.write (f i) i) h

/-- the object, freed or not -/
def Heap.val (h : Heap α) (i : ℕ) : Option α := (h.cells[i]?).map Cell.val

/-- `n` pointers to the object of the cell are held -/
structure Cell.Held (cell : Cell α) (n : ℕ) : Prop where
  ref : cell.ref = n
  freed : cell.freed = if n = 0 then 1 else 0

/-- `c i` pointers to the object `i` are held -/
structure Counted (h : Heap α) (c : ℕ → ℕ) : Prop where
  held : ∀ (i : ℕ) (cell : Cell α), h.cells[i]? = some cell → cell.Held (c i)
  none : ∀ i : ℕ, h.cells.length ≤ i → c i = 0
  safe : h.fault = false

theorem Counted.empty : Counted ({} : Heap α) fun _ => 0 := ⟨nofun, fun _ _ => rfl, rfl⟩

theorem Counted.congr {h : Heap α} {c c' : ℕ → ℕ} (hc : Counted h c) (heq : ∀ i, c' i = c i) : Counted h c' := by
  have hfun : c' = c := funext heq
  rw [hfun]
  exact hc

theorem Counted.lt {h : Heap α} {c : ℕ → ℕ} (hc : Counted h c) {i : ℕ} (hi : 0 < c i) : i < h.cells.length := by
  by_contra hlt
  have hzero := hc.none i (Nat.not_lt.1 hlt)
  omega

/-- what a pointer leads to has not been freed -/
theorem Counted.live {h : Heap α} {c : ℕ → ℕ} (hc : Counted h c) {i : ℕ} (hi : 0 < c i) : h.live i = true := by
  have hlt := hc.lt hi
  have hheld := hc.held i _ (List.getElem?_eq_getElem hlt)
  unfold Heap.live
  rw [List.getElem?_eq_getElem hlt]
  have hfreed := hheld.freed
  rw [if_neg (by omega)] at hfreed
  exact decide_eq_true hfreed

theorem Counted.access {h : Heap α} {c c' : ℕ → ℕ} (hc : Counted h c) {i : ℕ} (hi : 0 < c i) {f : Cell α → Cell α}
    (hf : ∀ cell : Cell α, cell.Held (c i) → (f cell).Held (c' i)) (hrest : ∀ j, j ≠ i → c' j = c j) :
    Counted (h.access i f) c' := by
  refine ⟨?_, ?_, ?_⟩
  · intro j cell hj
    simp only [Heap.access, List.getElem?_modify] at hj
    obtain ⟨old, hold, rfl⟩ := Option.map_eq_some_iff.1 hj
    rcases eq_or_ne i j with rfl | hne
    · rw [if_pos rfl]
      exact hf old (hc.held i old hold)
    · rw [if_neg hne, hrest j (Ne.symm hne)]
      exact hc.held j old hold
  · intro j hj
    simp only [Heap.access, List.length_modify] at hj
    have hlt := hc.lt hi
    rw [hrest j (by omega)]
    exact hc.none j hj
  · simp [Heap.access, hc.safe, hc.live hi]

theorem Counted.write {h : Heap α} {c : ℕ → ℕ} (hc : Counted h c) {i : ℕ} (hi : 0 < c i) (g : α → α) :
    Counted (h.write g i) c :=
  hc.access hi (fun _ hcell => ⟨hcell.ref, hcell.freed⟩) fun _ _ => rfl

theorem Counted.writes {h : Heap α} {c : ℕ → ℕ} (hc : Counted h c) {l : List ℕ} (hl : ∀ i ∈ l, 0 < c i)
    (f : ℕ → α → α) : Counted (h.writes f l) c := by
  induction l generalizing h with
  | nil => exact hc
  | cons i l ih =>
    exact ih (hc.write (hl i List.mem_cons_self) (f i)) fun j hj => hl j (List.mem_cons_of_mem i hj)

theorem Counted.incRef {h : Heap α} {c : ℕ → ℕ} (hc : Counted h c) {i : ℕ} (hi : 0 < c i) :
    Counted (h.incRef i) fun j => if j = i then c j + 1 else c j := by
  refine hc.access hi (fun cell hcell => ?_) fun j hj => if_neg hj
  have hfreed := hcell.freed
  rw [if_neg (by omega)] at hfreed
  refine ⟨?_, ?_⟩
  · simp [hcell.ref]
  · simp [hfreed]

theorem Counted.decRef {h : Heap α} {c : ℕ → ℕ} (hc : Counted h c) {i : ℕ} (hi : 0 < c i) (g : α → α) :
    Counted (h.decRef g i) fun j => if j = i then c j - 1 else c j := by
  refine hc.access hi (fun cell hcell => ?_) fun j hj => if_neg hj
  have href := hcell.ref
  have hfreed := hcell.freed
  rw [if_neg (by omega)] at hfreed
  refine ⟨?_, ?_⟩
  · simp only [Cell.decRef, if_true, href]
    omega
  · simp only [Cell.decRef, if_true, href, hfreed]
    congr 1
    simp only [eq_iff_iff]
    omega

theorem Counted.decRefs {h : Heap α} {c : ℕ → ℕ} (hc : Counted h c) (g : α → α) {l : List ℕ}
    (hl : ∀ j, l.count j ≤ c j) : Counted (h.decRefs g l) fun j => c j - l.count j := by
  induction l generalizing h c with
  | nil => exact hc
  | cons i l ih =>
    have hi : 0 < c i := by
      have hone := hl i
      rw [List.count_cons_self] at hone
      omega
    have hstep := hc.decRef hi g
    have hle (j : ℕ) : l.count j ≤ if j = i then c j - 1 else c j := by
      have hj := hl j
      rcases eq_or_ne j i with rfl | hne
      · rw [List.count_cons_self] at hj
        rw [if_pos rfl]
        omega
      · rw [List.count_cons_of_ne (Ne.symm hne)] at hj
        rwa [if_neg hne]
    refine (ih hstep hle).congr fun j => ?_
    rcases eq_or_ne j i with rfl | hne
    · rw [List.count_cons_self, if_pos rfl]
      omega
    · rw [List.count_cons_of_ne (Ne.symm hne), if_neg hne]

/-- a new object and the first pointer to it -/
theorem Counted.alloc {h : Heap α} {c : ℕ → ℕ} (hc : Counted h c) (v : α) :
    Counted ((h.alloc v).incRef h.cells.length) fun j => if j = h.cells.length then 1 else c j := by
  refine ⟨?_, ?_, ?_⟩
  · intro j cell hj
    simp only [Heap.incRef, Heap.access, Heap.alloc, List.getElem?_modify] at hj
    obtain ⟨old, hold, rfl⟩ := Option.map_eq_some_iff.1 hj
    rcases eq_or_ne j h.cells.length with rfl | hne
    · simp only [List.getElem?_concat_length, Option.some.injEq] at hold
      subst hold
      simp only [if_true]
      exact ⟨rfl, rfl⟩
    · rw [if_neg (Ne.symm hne), if_neg hne]
      have hlt : j < h.cells.length := by
        have hlen := (List.getElem?_eq_some_iff.1 hold).1
        rw [List.length_append, List.length_singleton] at hlen
        omega
      rw [List.getElem?_append_left hlt] at hold
      exact hc.held j old hold
  · intro j hj
    simp only [Heap.incRef, Heap.access, Heap.alloc, List.length_modify, List.length_append,
      List.length_singleton] at hj
    rw [if_neg (by omega)]
    exact hc.none j (by omega)
  · simp [Heap.incRef, Heap.access, Heap.alloc, Heap.live, hc.safe]

/-! ## The objects -/

theorem Heap.length_access (h : Heap α) (i : ℕ) (f : Cell α → Cell α) :
    (h.access i f).cells.length = h.cells.length := List.length_modify ..

theorem Heap.length_decRefs (g : α → α) (h : Heap α) (l : List ℕ) : (h.decRefs g l).cells.length = h.cells.length := by
  induction l generalizing h with
  | nil => rfl
  | cons i l ih => exact (ih (h.decRef g i)).trans (h.length_access i _)

theorem Heap.length_writes (f : ℕ → α → α) (h : Heap α) (l : List ℕ) :
    (h.writes f l).cells.length = h.cells.length := by
  induction l generalizing h with
  | nil => rfl
  | cons i l ih => exact (ih (h.write (f i) i)).trans (h.length_access i _)

theorem Heap.val_access (h : Heap α) (i : ℕ) {f : Cell α → Cell α} {g : α → α} (hf : ∀ cell, (f cell).val = g cell.val)
    (j : ℕ) : (h.access i f).val j = if j = i then (h.val j).map g else h.val j := by
  simp only [Heap.val, Heap.access, List.getElem?_modify]
  rcases h.cells[j]? with _ | cell
  · simp
  · rcases eq_or_ne j i with rfl | hne
    · simp [hf]
    · simp [hne, Ne.symm hne]

theorem Heap.val_write (h : Heap α) (g : α → α) (i j : ℕ) :
    (h.write g i).val j = if j = i then (h.val j).map g else h.val j := h.val_access i (fun _ => rfl) j

/-- every object that is written to is written to once -/
theorem Heap.val_writes (h : Heap α) (f : ℕ → α → α) {l : List ℕ} (hl : l.Nodup) (j : ℕ) :
    (h.writes f l).val j = if j ∈ l then (h.val j).map (f j) else h.val j := by
  induction l generalizing h with
  | nil => simp [Heap.writes]
  | cons i l ih =>
    obtain ⟨hi, hl⟩ := List.nodup_cons.1 hl
    have hrest := ih (h.write (f i) i) hl
    rw [h.val_write] at hrest
    show ((h.write (f i) i).writes f l).val j = _
    rw [hrest]
    rcases eq_or_ne j i with rfl | hne
    · simp [hi]
    · simp [hne]

theorem Heap.val_incRef (h : Heap α) (i j : ℕ) : (h.incRef i).val j = h.val j := by
  have hval : (h.incRef i).val j = if j = i then (h.val j).map id else h.val j := h.val_access i (fun _ => rfl) j
  rw [hval]
  simp

theorem Heap.val_decRef (h : Heap α) (g : α → α) (i j : ℕ) :
    (h.decRef g i).val j = if j = i then (h.val j).map g else h.val j := h.val_access i (fun _ => rfl) j

/-- every pointer that is dropped marks its object -/
theorem Heap.val_decRefs (h : Heap α) {g : α → α} (hg : ∀ v, g (g v) = g v) (l : List ℕ) (j : ℕ) :
    (h.decRefs g l).val j = if j ∈ l then (h.val j).map g else h.val j := by
  induction l generalizing h with
  | nil => simp [Heap.decRefs]
  | cons i l ih =>
    have hrest := ih (h.decRef g i)
    rw [h.val_decRef] at hrest
    show ((h.decRef g i).decRefs g l).val j = _
    rw [hrest]
    rcases eq_or_ne j i with rfl | hne
    · by_cases hj : j ∈ l
      · simp [hj, Function.comp_def, hg]
      · simp [hj]
    · simp [hne]

theorem Heap.val_alloc (h : Heap α) (v : α) (j : ℕ) :
    (h.alloc v).val j = if j = h.cells.length then some v else h.val j := by
  simp only [Heap.val, Heap.alloc]
  rcases lt_trichotomy j h.cells.length with hj | rfl | hj
  · rw [List.getElem?_append_left hj, if_neg (Nat.ne_of_lt hj)]
  · simp
  · rw [List.getElem?_eq_none (by simp; omega), if_neg (Nat.ne_of_gt hj), List.getElem?_eq_none (Nat.le_of_lt hj)]

end DreamHeroes.Lib
