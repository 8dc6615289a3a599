/-
A switch that is turned on and off.

`Switches b l b'`: from the position `b` the turns `l` bring it to `b'`, and each of them turns it. `switches_append`:
one list of turns after another. `Switches.chain`: from the position `false` the turns alternate, and the first is
`true`. `Switches.balanced`: at every moment it has been turned on as often as off, or once more.
-/
import Mathlib.Tactic

namespace DreamHeroes.Lib

def Switches : Bool → List Bool → Bool → Prop
  | b, [], b' => b' = b
  | b, c :: l, b' => c = !b ∧ Switches c l b'

theorem switches_refl (b : Bool) : Switches b [] b := rfl

theorem switches_append {b : Bool} {l l' : List Bool} {b'' : Bool} :
    Switches b (l ++ l') b'' ↔ ∃ b', Switches b l b' ∧ Switches b' l' b'' := by
  induction l generalizing b with
  | nil => simp [Switches]
  | cons c l ih => simp only [List.cons_append, Switches, ih, exists_and_left, and_assoc]

theorem Switches.trans {b b' b'' : Bool} {l l' : List Bool} (h : Switches b l b') (h' : Switches b' l' b'') :
    Switches b (l ++ l') b'' := switches_append.2 ⟨b', h, h'⟩

theorem Switches.chain {b b' : Bool} {l : List Bool} (h : Switches b l b') : List.IsChain (· ≠ ·) (b :: l) := by
  induction l generalizing b with
  | nil => exact List.isChain_singleton b
  | cons c l ih =>
    obtain ⟨rfl, hrest⟩ := h
    refine List.isChain_cons_cons.2 ⟨?_, ih hrest⟩
    cases b <;> decide

theorem Switches.count {b b' : Bool} {l : List Bool} (h : Switches b l b') :
    b.toNat + l.count true = l.count false + b'.toNat := by
  induction l generalizing b with
  | nil =>
    cases h
    simp
  | cons c l ih =>
    obtain ⟨rfl, hrest⟩ := h
    have hcount := ih hrest
    cases b <;> simp at hcount ⊢ <;> omega

theorem Switches.balanced {b' : Bool} {l pre : List Bool} (h : Switches false l b') (hpre : pre <+: l) :
    pre.count false ≤ pre.count true ∧ pre.count true ≤ pre.count false + 1 := by
  obtain ⟨rest, rfl⟩ := hpre
  obtain ⟨b, hb, -⟩ := switches_append.1 h
  have hcount := hb.count
  have hle : b.toNat ≤ 1 := by cases b <;> decide
  simp only [Bool.toNat_false] at hcount
  omega

end DreamHeroes.Lib
