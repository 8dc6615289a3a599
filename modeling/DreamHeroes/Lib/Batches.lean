/-
Statements of many rows: a head, and behind it rows that are joined with a separator.

- `statement head sep rows`: the text of one statement.
- `Batched head sep limit stmts rows`: the texts are statements of one to `limit` rows each, and their rows one after
  the other are `rows`, each once and in the order.
- `pendingText`: the text that a loop has built for the batch it is filling; empty when the batch is.
- `Filling`: what such a loop has sent and what it is filling. A row can be added (`Filling.add`), a full batch can be
  sent (`Filling.flush`), and at the end everything has been sent (`Filling.finish`).
- `not_batched`: a text that does not begin with the head is no statement.
-/
import Mathlib.Tactic
import DreamHeroes.Lib.Text

namespace DreamHeroes.Lib

def statement (head sep : String) (rows : List String) : String := head ++ sep.intercalate rows

def Batched (head sep : String) (limit : ℕ) (stmts rows : List String) : Prop :=
  ∃ batches : List (List String), (∀ b ∈ batches, b ≠ [] ∧ b.length ≤ limit) ∧
    stmts = batches.map (statement head sep) ∧ batches.flatten = rows

def pendingText (head sep : String) (batch : List String) : String :=
  if batch = [] then "" else statement head sep batch

variable {head sep : String} {limit : ℕ} {stmts rows batch : List String}

/-! ## One statement -/

theorem statement_singleton (r : String) : statement head sep [r] = head ++ r := by
  rw [statement, String.intercalate_singleton]

theorem statement_snoc (h : batch ≠ []) (r : String) :
    statement head sep (batch ++ [r]) = statement head sep batch ++ sep ++ r := by
  rw [statement, String.intercalate_append_of_ne_nil h (List.cons_ne_nil r []), String.intercalate_singleton, statement]
  simp only [String.append_assoc]

@[simp] theorem pendingText_nil : pendingText head sep [] = "" := rfl

theorem pendingText_of_ne_nil (h : batch ≠ []) : pendingText head sep batch = statement head sep batch := if_neg h

/-- the head in front of the first row, the separator in front of every other one -/
theorem pendingText_snoc (r : String) :
    pendingText head sep (batch ++ [r]) = (if batch = [] then head else pendingText head sep batch ++ sep) ++ r := by
  rw [pendingText_of_ne_nil (by simp)]
  split_ifs with hnil
  · rw [hnil, List.nil_append, statement_singleton]
  · rw [statement_snoc hnil, pendingText_of_ne_nil hnil]

theorem noZero_statement (hhead : NoZero head) (hsep : NoZero sep) (hrows : ∀ r ∈ rows, NoZero r) :
    NoZero (statement head sep rows) := by
  refine hhead.append ?_
  induction rows with
  | nil => exact List.not_mem_nil
  | cons r rows ih =>
    have hr : NoZero r := hrows r List.mem_cons_self
    cases rows with
    | nil => rwa [String.intercalate_singleton]
    | cons r' rows =>
      rw [String.intercalate_cons_cons]
      exact (hr.append hsep).append (ih fun x hx => hrows x (List.mem_cons_of_mem r hx))

theorem noZero_pendingText (hhead : NoZero head) (hsep : NoZero sep) (hrows : ∀ r ∈ rows, NoZero r) :
    NoZero (pendingText head sep rows) := by
  rw [pendingText]
  split_ifs
  · exact List.not_mem_nil
  · exact noZero_statement hhead hsep hrows

/-! ## Batches -/

theorem Batched.nil : Batched head sep limit [] [] := ⟨[], List.forall_mem_nil _, rfl, rfl⟩

theorem Batched.snoc (h : Batched head sep limit stmts rows) (hne : batch ≠ []) (hlen : batch.length ≤ limit) :
    Batched head sep limit (stmts ++ [statement head sep batch]) (rows ++ batch) := by
  obtain ⟨batches, hall, rfl, rfl⟩ := h
  refine ⟨batches ++ [batch], ?_, by simp, by simp⟩
  intro b hb
  rcases List.mem_append.1 hb with hb | hb
  · exact hall b hb
  · rw [List.mem_singleton.1 hb]
    exact ⟨hne, hlen⟩

theorem batched_nil_iff : Batched head sep limit stmts [] ↔ stmts = [] := by
  constructor
  · rintro ⟨batches, hall, rfl, hflat⟩
    rw [List.map_eq_nil_iff, List.eq_nil_iff_forall_not_mem]
    intro b hb
    exact (hall b hb).1 (List.flatten_eq_nil_iff.1 hflat b hb)
  · rintro rfl
    exact .nil

/-- a text that does not begin with the head -/
theorem not_batched {s : String} (hmem : s ∈ stmts) (hhead : ¬head.toList <+: s.toList) :
    ¬Batched head sep limit stmts rows := by
  rintro ⟨batches, -, rfl, -⟩
  obtain ⟨b, -, rfl⟩ := List.mem_map.1 hmem
  apply hhead
  rw [statement, String.toList_append]
  exact List.prefix_append _ _

/-! ## The loop that fills batches -/

/-- `rows` have been visited; `batch` is the last of them, not sent yet, and `text` is what has been built of it -/
structure Filling (head sep : String) (limit : ℕ) (stmts rows batch : List String) (text : String) : Prop where
  sent : ∃ before, Batched head sep limit stmts before ∧ before ++ batch = rows
  text : text = pendingText head sep batch

variable {text : String}

theorem Filling.start : Filling head sep limit [] [] [] "" := ⟨⟨[], .nil, rfl⟩, rfl⟩

theorem Filling.add (h : Filling head sep limit stmts rows batch text) (r : String) :
    Filling head sep limit stmts (rows ++ [r]) (batch ++ [r]) ((if batch = [] then head else text ++ sep) ++ r) := by
  obtain ⟨⟨before, hbefore, hrows⟩, htext⟩ := h
  refine ⟨⟨before, hbefore, ?_⟩, ?_⟩
  · rw [← hrows, List.append_assoc]
  · rw [htext, pendingText_snoc]

/-- a batch with a row is sent -/
theorem Filling.flush (h : Filling head sep limit stmts rows batch text) (hne : batch ≠ [])
    (hlen : batch.length ≤ limit) : Filling head sep limit (stmts ++ [text]) rows [] "" := by
  obtain ⟨⟨before, hbefore, hrows⟩, htext⟩ := h
  refine ⟨⟨rows, ?_, List.append_nil rows⟩, rfl⟩
  rw [htext, pendingText_of_ne_nil hne, ← hrows]
  exact hbefore.snoc hne hlen

theorem Filling.noZero (h : Filling head sep limit stmts rows batch text) (hhead : NoZero head) (hsep : NoZero sep)
    (hrows : ∀ r ∈ rows, NoZero r) : NoZero text := by
  obtain ⟨⟨before, -, rfl⟩, rfl⟩ := h
  exact noZero_pendingText hhead hsep fun r hr => hrows r (List.mem_append_right before hr)

theorem Filling.batched (h : Filling head sep limit stmts rows [] text) : Batched head sep limit stmts rows := by
  obtain ⟨⟨before, hbefore, hrows⟩, -⟩ := h
  rw [List.append_nil] at hrows
  exact hrows ▸ hbefore

/-- the text is empty exactly when nothing is left to send -/
theorem Filling.text_eq_empty (h : Filling head sep limit stmts rows batch text) (hrows : ∀ r ∈ rows, head ++ r ≠ "") :
    text = "" ↔ batch = [] := by
  obtain ⟨⟨before, -, rfl⟩, rfl⟩ := h
  constructor
  · intro hempty
    by_contra hne
    obtain ⟨b, r, rfl⟩ := (List.eq_nil_or_concat' batch).resolve_left hne
    have hr : head ++ r ≠ "" := hrows r (by simp)
    rw [pendingText_snoc, String.append_eq_empty_iff] at hempty
    apply hr
    rw [hempty.2, String.append_empty]
    have hfirst := hempty.1
    split_ifs at hfirst with hnil
    · exact hfirst
    · rw [pendingText_of_ne_nil hnil, statement, String.append_eq_empty_iff, String.append_eq_empty_iff] at hfirst
      exact hfirst.1.1
  · rintro rfl
    rfl

/-- what is left is sent, if there is anything -/
theorem Filling.finish (h : Filling head sep limit stmts rows batch text) (hrows : ∀ r ∈ rows, head ++ r ≠ "")
    (hlen : batch.length ≤ limit) : Batched head sep limit (if text = "" then stmts else stmts ++ [text]) rows := by
  have hempty := h.text_eq_empty hrows
  split_ifs with htext
  · rw [hempty.1 htext] at h
    exact h.batched
  · exact (h.flush (fun hnil => htext (hempty.2 hnil)) hlen).batched

end DreamHeroes.Lib
