/-
A work list that grows while it is worked off: the first item is taken, other items may be struck off meanwhile, and
while something is left one successor of the first item may be put behind. `none` is an item with nothing to do, and
`r b a` says that `b` is a successor of `a`.

- `Round r q' q`: one round from the list `q` to the list `q'`.
- `items p q`: the items of the list that meet `p`. An item is `Endless` when a chain of successors without an end
  starts at it.
- `acc_round`: with at most one endless item the work comes to an end, whatever is put behind. The measure is the number
  of the endless items, then the multiset of the others (`Relation.CutExpand`), then the length and who is in front.
-/
import Mathlib.Tactic
import Mathlib.Data.List.ReduceOption
import Mathlib.Logic.Hydra

namespace DreamHeroes.Lib

open Relation

variable {β : Type*} {r : β → β → Prop} {p : β → Prop}

/-- each item of a chain is a successor of the one before -/
def Endless (r : β → β → Prop) (c : β) : Prop := ∃ f : ℕ → β, f 0 = c ∧ ∀ n, r (f (n + 1)) (f n)

theorem endless_iff {c : β} : Endless r c ↔ ¬Acc r c := not_acc_iff_exists_descending_chain.symm

theorem Endless.next {c : β} (h : Endless r c) : ∃ c', r c' c ∧ Endless r c' := by
  obtain ⟨f, rfl, hf⟩ := h
  exact ⟨f 1, hf 0, fun n => f (n + 1), rfl, fun n => hf (n + 1)⟩

/-- some items are struck off -/
def Struck (q' q : List (Option β)) : Prop := List.Forall₂ (fun x' x => ∀ c, x' = some c → x = some c) q' q

theorem struck_map {ι : Type*} {f' f : ι → Option β} {l : List ι} (h : ∀ j ∈ l, ∀ c, f' j = some c → f j = some c) :
    Struck (l.map f') (l.map f) := by
  unfold Struck
  rw [List.forall₂_map_left_iff, List.forall₂_map_right_iff, List.forall₂_same]
  exact h

inductive Round (r : β → β → Prop) : List (Option β) → List (Option β) → Prop where
  | drop (x : Option β) {q q' : List (Option β)} (hq : Struck q' q) : Round r q' (x :: q)
  | put {c : β} {x : Option β} {q q' : List (Option β)} (hq : Struck q' q) (hne : q ≠ [])
      (hx : ∀ c', x = some c' → r c' c) : Round r (q' ++ [x]) (some c :: q)

/-! ## Items -/

open Classical in
noncomputable def items (p : β → Prop) (q : List (Option β)) : List β := q.reduceOption.filter p

theorem items_append (q q' : List (Option β)) : items p (q ++ q') = items p q ++ items p q' := by
  unfold items
  rw [List.reduceOption_append, List.filter_append]

theorem items_cons_of_pos {c : β} (hc : p c) (q : List (Option β)) : items p (some c :: q) = c :: items p q := by
  unfold items
  rw [List.reduceOption_cons_of_some, List.filter_cons_of_pos (by simpa using hc)]

theorem items_cons_of_neg {c : β} (hc : ¬p c) (q : List (Option β)) : items p (some c :: q) = items p q := by
  unfold items
  rw [List.reduceOption_cons_of_some, List.filter_cons_of_neg (by simpa using hc)]

theorem items_cons_none (q : List (Option β)) : items p (none :: q) = items p q := by
  unfold items
  rw [List.reduceOption_cons_of_none]

theorem mem_items {c : β} {q : List (Option β)} : c ∈ items p q ↔ some c ∈ q ∧ p c := by
  unfold items
  simp [List.mem_filter, List.reduceOption_mem_iff]

theorem items_sublist_cons (x : Option β) (q : List (Option β)) : (items p q).Sublist (items p (x :: q)) := by
  rcases x with _ | c
  · rw [items_cons_none]
  · by_cases hc : p c
    · rw [items_cons_of_pos hc]
      exact List.sublist_cons_self c _
    · rw [items_cons_of_neg hc]

theorem Struck.sublist {q' q : List (Option β)} (h : Struck q' q) : (items p q').Sublist (items p q) := by
  induction h with
  | nil => exact List.Sublist.refl _
  | @cons x' x q' q hx _ ih =>
    rcases x' with _ | c
    · rw [items_cons_none]
      exact ih.trans (items_sublist_cons x q)
    · rw [hx c rfl]
      by_cases hc : p c
      · rw [items_cons_of_pos hc, items_cons_of_pos hc]
        exact ih.cons_cons c
      · rw [items_cons_of_neg hc, items_cons_of_neg hc]
        exact ih

theorem length_items_singleton (x : Option β) : (items p [x]).length ≤ 1 := by
  refine (List.length_filter_le _ _).trans ?_
  rcases x with _ | c
  · exact Nat.zero_le 1
  · exact le_rfl

/-- entries of which at most one has an item that meets `p` -/
theorem length_items_map {ι : Type*} {f : ι → Option β} {l : List ι} (hl : l.Nodup)
    (h : ∀ i ∈ l, ∀ j ∈ l, (∃ c, f i = some c ∧ p c) → (∃ c, f j = some c ∧ p c) → i = j) :
    (items p (l.map f)).length ≤ 1 := by
  induction l with
  | nil => exact Nat.zero_le 1
  | cons i l ih =>
    obtain ⟨hi, hl⟩ := List.nodup_cons.1 hl
    have htail := ih hl fun j hj k hk => h j (List.mem_cons_of_mem i hj) k (List.mem_cons_of_mem i hk)
    rw [List.map_cons]
    rcases hfi : f i with _ | c
    · rwa [items_cons_none]
    · by_cases hc : p c
      · -- no other entry has one
        have hnil : items p (l.map f) = [] := by
          refine List.eq_nil_iff_forall_not_mem.2 fun c' hc' => ?_
          obtain ⟨hmem, hp⟩ := mem_items.1 hc'
          obtain ⟨j, hj, hfj⟩ := List.mem_map.1 hmem
          obtain rfl := h i List.mem_cons_self j (List.mem_cons_of_mem i hj) ⟨c, hfi, hc⟩ ⟨c', hfj, hp⟩
          exact hi hj
        rw [items_cons_of_pos hc, hnil]
        exact le_rfl
      · rwa [items_cons_of_neg hc]

/-! ## The end of the work -/

/-- `r` below the items at which it ends -/
theorem wellFounded_acc (r : β → β → Prop) : WellFounded fun b a => Acc r a ∧ r b a := by
  refine ⟨fun a => ?_⟩
  by_cases ha : Acc r a
  · induction ha with
    | intro a _ ih => exact Acc.intro a fun b hb => ih b hb.2
  · exact Acc.intro a fun b hb => absurd hb.1 ha

open Classical in
/-- twice the length, and one for an endless item in front -/
noncomputable def weight (r : β → β → Prop) (q : List (Option β)) : ℕ :=
  2 * q.length + if ∃ c, q.head? = some (some c) ∧ Endless r c then 1 else 0

theorem weight_le (q : List (Option β)) : weight r q ≤ 2 * q.length + 1 := by
  unfold weight
  split_ifs
  · exact le_rfl
  · exact Nat.le_succ _

/-- nothing endless is in front -/
theorem weight_append {q : List (Option β)} (hne : q ≠ []) (h : items (Endless r) q = []) (q' : List (Option β)) :
    weight r (q ++ q') = 2 * (q ++ q').length := by
  unfold weight
  rw [if_neg, Nat.add_zero]
  rintro ⟨c, hhead, hc⟩
  obtain ⟨x, q, rfl⟩ := List.exists_cons_of_ne_nil hne
  obtain rfl : x = some c := by simpa using hhead
  rw [items_cons_of_pos hc] at h
  cases h

/-- the bounds that a round lowers -/
structure Bounded (r : β → β → Prop) (q : List (Option β)) (e : ℕ) (m : Multiset β) (n : ℕ) : Prop where
  endless : (items (Endless r) q).length ≤ e
  ending : (items (Acc r) q : Multiset β) ≤ m
  size : weight r q ≤ n

theorem bounded_self (r : β → β → Prop) (q : List (Option β)) :
    Bounded r q (items (Endless r) q).length (items (Acc r) q) (weight r q) :=
  ⟨le_rfl, le_rfl, le_rfl⟩

/-- the first item is dropped -/
theorem Bounded.drop {x : Option β} {q q' : List (Option β)} {e n : ℕ} {m : Multiset β} (h : Bounded r (x :: q) e m n)
    (hq : Struck q' q) : Bounded r q' e m (weight r q') ∧ weight r q' < n := by
  have hlen : q'.length = q.length := hq.length_eq
  have hle := weight_le (r := r) q'
  have hge : 2 * (q.length + 1) ≤ weight r (x :: q) := Nat.le_add_right _ _
  have hn := h.size
  have hsub (p : β → Prop) : (items p q').Sublist (items p (x :: q)) := hq.sublist.trans (items_sublist_cons x q)
  refine ⟨⟨?_, ?_, le_rfl⟩, by omega⟩
  · calc (items (Endless r) q').length
        ≤ (items (Endless r) (x :: q)).length := (hsub (Endless r)).length_le
      _ ≤ e := h.endless
  · calc (items (Acc r) q' : Multiset β)
        ≤ items (Acc r) (x :: q) := Multiset.coe_le.2 (hsub (Acc r)).subperm
      _ ≤ m := h.ending

/-- a successor that ends takes the place of an item that ends -/
theorem Bounded.put_ending {c : β} {x : Option β} {q q' : List (Option β)} {e n : ℕ} {m : Multiset β} (hc : Acc r c)
    (h : Bounded r (some c :: q) e m n) (hq : Struck q' q) (hx : ∀ c', x = some c' → r c' c) :
    ∃ m', Bounded r (q' ++ [x]) e m' (weight r (q' ++ [x])) ∧ CutExpand (fun b a => Acc r a ∧ r b a) m' m := by
  obtain ⟨hendless, hending, -⟩ := h
  rw [items_cons_of_neg fun he => endless_iff.1 he hc] at hendless
  rw [items_cons_of_pos hc] at hending
  obtain ⟨m', rfl⟩ := Multiset.le_iff_exists_add.1 hending
  have hnil : items (Endless r) [x] = [] := by
    refine List.eq_nil_iff_forall_not_mem.2 fun c' hc' => ?_
    obtain ⟨hmem, hnot⟩ := mem_items.1 hc'
    exact endless_iff.1 hnot (hc.inv (hx c' (List.mem_singleton.1 hmem).symm))
  refine ⟨↑(items (Acc r) q) + m' + ↑(items (Acc r) [x]), ⟨?_, ?_, le_rfl⟩, ↑(items (Acc r) [x]), c, ?_, ?_⟩
  · rw [items_append, hnil, List.append_nil]
    exact hq.sublist.length_le.trans hendless
  · rw [items_append, ← Multiset.coe_add]
    exact add_le_add_left ((Multiset.coe_le.2 hq.sublist.subperm).trans (Multiset.le_add_right _ _)) _
  · intro c' hc'
    obtain ⟨hmem, -⟩ := mem_items.1 (Multiset.mem_coe.1 hc')
    exact ⟨hc, hx c' (List.mem_singleton.1 hmem).symm⟩
  · rw [← Multiset.cons_coe, ← Multiset.singleton_add]
    abel

/-- the endless item was alone: no other is left, or it has gone to the end -/
theorem Bounded.put_endless {c : β} {x : Option β} {q q' : List (Option β)} {n : ℕ} {m : Multiset β} (hc : ¬Acc r c)
    (h : Bounded r (some c :: q) 1 m n) (hq : Struck q' q) (hne : q ≠ []) :
    items (Endless r) (q' ++ [x]) = [] ∨ Bounded r (q' ++ [x]) 1 m (weight r (q' ++ [x])) ∧
    weight r (q' ++ [x]) < n := by
  obtain ⟨hendless, hending, hsize⟩ := h
  rw [items_cons_of_pos (endless_iff.2 hc), List.length_cons] at hendless
  rw [items_cons_of_neg hc] at hending
  have hlen : q'.length = q.length := hq.length_eq
  have hnil : items (Endless r) q' = [] := by
    have hle := (hq.sublist (p := Endless r)).length_le
    exact List.eq_nil_of_length_eq_zero (by omega)
  have hsame : items (Endless r) (q' ++ [x]) = items (Endless r) [x] := by rw [items_append, hnil, List.nil_append]
  have hend (hx : items (Acc r) [x] = []) :
      Bounded r (q' ++ [x]) 1 m (weight r (q' ++ [x])) ∧ weight r (q' ++ [x]) < n := by
    have hne' : q' ≠ [] := fun hq' => hne (List.eq_nil_of_length_eq_zero (by rw [← hlen, hq']; rfl))
    refine ⟨⟨hsame ▸ length_items_singleton x, ?_, le_rfl⟩, ?_⟩
    · rw [items_append, hx, List.append_nil]
      exact (Multiset.coe_le.2 hq.sublist.subperm).trans hending
    · have hfront : weight r (some c :: q) = 2 * (q.length + 1) + 1 := by
        unfold weight
        rw [if_pos ⟨c, rfl, endless_iff.2 hc⟩, List.length_cons]
      rw [weight_append hne' hnil, List.length_append, List.length_singleton]
      omega
  rcases x with _ | b
  · left
    rw [hsame, items_cons_none]
    rfl
  · by_cases hb : Acc r b
    · left
      rw [hsame, items_cons_of_neg fun he => endless_iff.1 he hb]
      rfl
    · right
      exact hend (by rw [items_cons_of_neg hb]; rfl)

/-- **The end of the work.** With at most one endless item every sequence of rounds ends. -/
theorem acc_round {q : List (Option β)} (h : (items (Endless r) q).length ≤ 1) : Acc (Round r) q := by
  have hwf := Nat.lt_wfRel.wf.prod_lex ((wellFounded_acc r).cutExpand.prod_lex Nat.lt_wfRel.wf)
  suffices hbound : ∀ (b : ℕ × Multiset β × ℕ) (q : List (Option β)), b.1 ≤ 1 → Bounded r q b.1 b.2.1 b.2.2 →
      Acc (Round r) q from hbound ⟨_, _, _⟩ q h (bounded_self r q)
  intro b
  induction b using hwf.induction with
  | _ b ih =>
    obtain ⟨e, m, n⟩ := b
    intro q hone hb
    refine Acc.intro q fun q' hround => ?_
    cases hround with
    | drop x hq =>
      obtain ⟨hb', hlt⟩ := hb.drop hq
      exact ih (e, m, _) (Prod.Lex.right _ (Prod.Lex.right _ hlt)) q' hone hb'
    | @put c x q q' hq hne hx =>
      by_cases hc : Acc r c
      · obtain ⟨m', hb', hcut⟩ := hb.put_ending hc hq hx
        exact ih (e, m', _) (Prod.Lex.right _ (Prod.Lex.left _ _ hcut)) _ hone hb'
      · have hpos : 0 < e := by
          have hle := hb.endless
          rw [items_cons_of_pos (endless_iff.2 hc)] at hle
          exact lt_of_lt_of_le (Nat.succ_pos _) hle
        obtain rfl : e = 1 := le_antisymm hone hpos
        rcases hb.put_endless hc hq hne with hnil | ⟨hb', hlt⟩
        · refine ih (0, _, _) (Prod.Lex.left _ _ hpos) _ (Nat.zero_le 1) ⟨?_, le_rfl, le_rfl⟩
          rw [hnil]
          exact le_rfl
        · exact ih (1, m, _) (Prod.Lex.right _ (Prod.Lex.right _ hlt)) _ hone hb'

end DreamHeroes.Lib
