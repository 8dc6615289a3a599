/-
Lists whose entries carry a key: the loops that overwrite, erase, or add the entry of a key.

- `lastOf`: the last entry of a key.
- `replaceFirst`: the first entry with the key of a new one gives way to it. `foldl_replaceFirst`: when the keys are
  different, overwriting with a whole list leaves at each place the last entry of its key.
- `eraseP_eq_filter`: when the keys are different, erasing the first entry of a key leaves the entries of the others.
- `addNew`: an entry is appended unless it is there. `foldl_addNew`: what a whole list adds.
- `filter_key`: when the keys are different, the entries of a key are one.
- `foldl_update_mem`, `foldl_update_notMem`: a loop over a list of different keys that rewrites the value at each key.
- `get_insertLast`: a map to which a list of entries is written holds the last one of each key.
-/
import Mathlib.Tactic
import DreamHeroes.Lib.OrdMap

namespace DreamHeroes.Lib

variable {α K V : Type*} [DecidableEq K]

/-- the last entry with the key `k` -/
def lastOf (key : α → K) (l : List α) (k : K) : Option α := (l.filter fun a => key a = k).getLast?

theorem lastOf_snoc (key : α → K) (l : List α) (a : α) (k : K) :
    lastOf key (l ++ [a]) k = if key a = k then some a else lastOf key l k := by
  rw [lastOf, List.filter_append]
  split_ifs with h
  · simp [h]
  · simp [h, lastOf]

theorem key_of_lastOf {key : α → K} {l : List α} {k : K} {a : α} (h : lastOf key l k = some a) : key a = k := by
  simpa using (List.mem_filter.1 (List.mem_of_getLast? h)).2

/-! ## Overwriting -/

def replaceFirst (key : α → K) (e : α) : List α → List α
  | [] => []
  | a :: l => if key a = key e then e :: l else a :: replaceFirst key e l

theorem map_key_replaceFirst (key : α → K) (e : α) (l : List α) : (replaceFirst key e l).map key = l.map key := by
  induction l with
  | nil => rfl
  | cons a l ih =>
    rw [replaceFirst]
    split_ifs with h
    · rw [List.map_cons, List.map_cons, h]
    · rw [List.map_cons, List.map_cons, ih]

theorem map_key_foldl_replaceFirst (key : α → K) (es l : List α) :
    (es.foldl (fun l e => replaceFirst key e l) l).map key = l.map key := by
  induction es generalizing l with
  | nil => rfl
  | cons e es ih => rw [List.foldl_cons, ih, map_key_replaceFirst]

theorem replaceFirst_of_notMem {key : α → K} {e : α} {l : List α} (h : key e ∉ l.map key) :
    replaceFirst key e l = l := by
  induction l with
  | nil => rfl
  | cons a l ih =>
    rw [List.map_cons, List.mem_cons, not_or] at h
    rw [replaceFirst, if_neg (Ne.symm h.1), ih h.2]

theorem replaceFirst_eq_map {key : α → K} {e : α} {l : List α} (hl : (l.map key).Nodup) :
    replaceFirst key e l = l.map fun a => if key a = key e then e else a := by
  induction l with
  | nil => rfl
  | cons a l ih =>
    rw [List.map_cons, List.nodup_cons] at hl
    rw [replaceFirst, List.map_cons]
    split_ifs with h
    · have hnot : key e ∉ l.map key := h ▸ hl.1
      rw [← ih hl.2, replaceFirst_of_notMem hnot]
    · rw [ih hl.2]

/-- each entry ends as the last one of its key -/
theorem foldl_replaceFirst {key : α → K} {l : List α} (hl : (l.map key).Nodup) (es : List α) :
    es.foldl (fun l e => replaceFirst key e l) l = l.map fun a => (lastOf key es (key a)).getD a := by
  induction es using List.reverseRecOn with
  | nil => simp [lastOf]
  | append_singleton es e ih =>
    have hkey : ∀ a, key ((lastOf key es (key a)).getD a) = key a := by
      intro a
      cases hlast : lastOf key es (key a) with
      | none => rfl
      | some b => exact key_of_lastOf hlast
    have hkeys : (l.map fun a => (lastOf key es (key a)).getD a).map key = l.map key := by
      rw [List.map_map]
      exact List.map_congr_left fun a _ => hkey a
    rw [List.foldl_append, List.foldl_cons, List.foldl_nil, ih, replaceFirst_eq_map (hkeys ▸ hl), List.map_map]
    apply List.map_congr_left
    intro a _
    simp only [Function.comp_apply, hkey, lastOf_snoc, @eq_comm _ (key a)]
    split_ifs <;> rfl

/-! ## Erasing -/

theorem eraseP_eq_filter {key : α → K} {l : List α} (hl : (l.map key).Nodup) (k : K) :
    l.eraseP (fun a => key a = k) = l.filter fun a => key a ≠ k := by
  induction l with
  | nil => rfl
  | cons a l ih =>
    rw [List.map_cons, List.nodup_cons] at hl
    by_cases h : key a = k
    · have hrest : ∀ b ∈ l, key b ≠ k := fun b hb hbk => hl.1 (List.mem_map.2 ⟨b, hb, hbk.trans h.symm⟩)
      rw [List.eraseP_cons_of_pos (by simpa using h), List.filter_cons_of_neg (by simpa using h)]
      exact (List.filter_eq_self.2 fun b hb => by simpa using hrest b hb).symm
    · rw [List.eraseP_cons_of_neg (by simpa using h), List.filter_cons_of_pos (by simpa using h), ih hl.2]

theorem map_key_eraseP (key : α → K) (l : List α) (k : K) :
    (l.eraseP fun a => key a = k).map key = (l.map key).erase k := by
  rw [List.erase_eq_eraseP, List.eraseP_map]
  congr 2
  funext a
  simp [Function.comp_apply, Bool.beq_eq_decide_eq, eq_comm]

/-! ## One entry for each key -/

theorem filter_key {key : α → K} {l : List α} (hl : (l.map key).Nodup) {a : α} (ha : a ∈ l) :
    l.filter (fun b => key b = key a) = [a] := by
  induction l with
  | nil => cases ha
  | cons b l ih =>
    rw [List.map_cons, List.nodup_cons] at hl
    rcases List.mem_cons.1 ha with rfl | ha
    · have hrest : ∀ c ∈ l, ¬ key c = key a := fun c hc heq => hl.1 (List.mem_map.2 ⟨c, hc, heq⟩)
      rw [List.filter_cons_of_pos (by simp), List.filter_eq_nil_iff.2 (by simpa using hrest)]
    · have hne : key b ≠ key a := fun heq => hl.1 (heq ▸ List.mem_map_of_mem ha)
      rw [List.filter_cons_of_neg (by simpa using hne), ih hl.2 ha]

theorem foldl_update_notMem (key : α → K) (g : α → V → V) {l : List α} (f : K → V) {k : K} (hk : k ∉ l.map key) :
    l.foldl (fun f a => Function.update f (key a) (g a (f (key a)))) f k = f k := by
  induction l generalizing f with
  | nil => rfl
  | cons a l ih =>
    rw [List.map_cons, List.mem_cons, not_or] at hk
    rw [List.foldl_cons, ih _ hk.2, Function.update_of_ne hk.1]

theorem foldl_update_mem (key : α → K) (g : α → V → V) {l : List α} (hl : (l.map key).Nodup) (f : K → V) {a : α}
    (ha : a ∈ l) : l.foldl (fun f a => Function.update f (key a) (g a (f (key a)))) f (key a) = g a (f (key a)) := by
  induction l generalizing f with
  | nil => cases ha
  | cons b l ih =>
    rw [List.map_cons, List.nodup_cons] at hl
    rw [List.foldl_cons]
    rcases List.mem_cons.1 ha with rfl | ha
    · rw [foldl_update_notMem key g _ hl.1, Function.update_self]
    · have hne : key a ≠ key b := fun heq => hl.1 (heq ▸ List.mem_map_of_mem ha)
      rw [ih hl.2 _ ha, Function.update_of_ne hne]

/-! ## Adding -/

def addNew [DecidableEq α] (l : List α) (a : α) : List α := if a ∈ l then l else l ++ [a]

/-- the entries that are new, once each and in their order -/
theorem foldl_addNew [DecidableEq α] (l es : List α) :
    ∃ added, es.foldl addNew l = l ++ added ∧ added.Nodup ∧ added.Sublist es ∧
      ∀ a, a ∈ added ↔ a ∈ es ∧ a ∉ l := by
  induction es using List.reverseRecOn with
  | nil => exact ⟨[], by simp⟩
  | append_singleton es e ih =>
    obtain ⟨added, heq, hnodup, hsub, hmem⟩ := ih
    rw [List.foldl_append, List.foldl_cons, List.foldl_nil, heq, addNew]
    split_ifs with h
    · refine ⟨added, rfl, hnodup, hsub.trans (List.sublist_append_left es [e]), ?_⟩
      intro a
      rw [hmem, List.mem_append, List.mem_singleton]
      constructor
      · rintro ⟨hes, hl⟩
        exact ⟨.inl hes, hl⟩
      · rintro ⟨hes | rfl, hl⟩
        · exact ⟨hes, hl⟩
        · have hadded : a ∈ added := (List.mem_append.1 h).resolve_left hl
          exact (hmem a).1 hadded
    · rw [List.mem_append, not_or] at h
      refine ⟨added ++ [e], by rw [List.append_assoc], ?_, hsub.append_right [e], ?_⟩
      · rw [List.nodup_append]
        refine ⟨hnodup, List.nodup_singleton e, ?_⟩
        intro a ha b hb hab
        rw [List.mem_singleton] at hb
        exact h.2 (hb ▸ hab ▸ ha)
      · intro a
        rw [List.mem_append, hmem, List.mem_append, List.mem_singleton]
        constructor
        · rintro (⟨hes, hl⟩ | rfl)
          · exact ⟨.inl hes, hl⟩
          · exact ⟨.inr rfl, h.1⟩
        · rintro ⟨hes | rfl, hl⟩
          · exact .inl ⟨hes, hl⟩
          · exact .inr rfl

/-! ## Writing to a map -/

theorem get_insertLast [Ord K] [Std.TransOrd K] [Std.LawfulEqOrd K] (m : Std.TreeMap K V) (es : List (K × V)) (k : K) :
    (es.foldl (fun m e => m.insert e.1 e.2) m)[k]? = ((lastOf Prod.fst es k).map Prod.snd).or m[k]? := by
  induction es using List.reverseRecOn with
  | nil => simp [lastOf]
  | append_singleton es e ih =>
    rw [List.foldl_append, List.foldl_cons, List.foldl_nil, get_insert, lastOf_snoc, ih]
    by_cases h : k = e.1
    · rw [if_pos h, if_pos h.symm]
      rfl
    · rw [if_neg h, if_neg (Ne.symm h)]

end DreamHeroes.Lib
