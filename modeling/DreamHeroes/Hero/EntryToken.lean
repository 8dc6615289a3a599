/-
Every accepted exit of an instance has an accepted entry of its own: along which runs of a hero.

- `Settles`: an entry and a later accepted exit of the same instance, with no other exit between them. An entry is
  settled by one exit at most (`settles_unique`).
- `openEntries`: the entries since the last exit.
- `EntryOk`: `LoadFromConfig` leaves the pair (0, 0) where the constructor and `ReqExitGame` leave (-1, -1), so an exit
  of (0, 0) must have been entered; and a row that is loaded must not bring back an entry that has been left since.
- `settled_after_entry`: along runs that meet it, every accepted exit settles an entry. `new_hero_exits` is the exit of
  (0, 0) by a new hero.
-/
import Mathlib.Tactic
import DreamHeroes.Lib.Machine
import DreamHeroes.Hero.RequestEffects

namespace DreamHeroes.Hero.Requests

open DreamHeroes.Lib DreamHeroes.Config DreamHeroes.Rank

/-! ## Entries and exits -/

/-- the answers, oldest first -/
def answers (log : List Event) : List Answer := log.map (·.answer)

/-- the `j`-th answer accepts the exit of the instance whose entry the `i`-th accepts -/
structure Settles (l : List Answer) (i j : ℕ) (ack : MsgS2CExitGameACK) : Prop where
  lt : i < j
  exit : l[j]? = some (.exitGame ack)
  accepted : ack.error = .no
  entry : ∃ a, l[i]? = some a ∧ a.entry = some (ack.chapterId, ack.sectionId)
  between : ∀ (m : ℕ) (a : Answer), i < m → m < j → l[m]? = some a → a.exit = none

def SettledAfterEntry (l : List Answer) : Prop :=
  ∀ j ack, l[j]? = some (.exitGame ack) → ack.error = .no → ∃ i, Settles l i j ack

/-- an entry is settled at most once -/
theorem settles_unique {l : List Answer} {i j j' : ℕ} {ack ack' : MsgS2CExitGameACK} (h : Settles l i j ack)
    (h' : Settles l i j' ack') : j = j' := by
  rcases lt_trichotomy j j' with hlt | heq | hgt
  · have hnone := h'.between j _ h.lt hlt h.exit
    cases hnone
  · exact heq
  · have hnone := h.between j' _ h'.lt hgt h'.exit
    cases hnone

/-- the entries since the last exit -/
def openEntries (l : List Answer) : List (ℤ × ℤ) :=
  l.foldl (fun entries a => if a.exit.isSome then [] else a.entry.toList ++ entries) []

theorem openEntries_snoc (l : List Answer) (a : Answer) :
    openEntries (l ++ [a]) = if a.exit.isSome then [] else a.entry.toList ++ openEntries l := by
  rw [openEntries, List.foldl_append]
  rfl

/-- an open entry has an answer with no exit after it -/
theorem entry_of_open {l : List Answer} {e : ℤ × ℤ} (h : e ∈ openEntries l) :
    ∃ (i : ℕ) (a : Answer), l[i]? = some a ∧ a.entry = some e ∧
      ∀ (m : ℕ) (a' : Answer), i < m → l[m]? = some a' → a'.exit = none := by
  induction l using List.reverseRecOn with
  | nil => simp [openEntries] at h
  | append_singleton l a ih =>
    rw [openEntries_snoc] at h
    split_ifs at h with hexit
    · cases h
    · have hnone : a.exit = none := by simpa using hexit
      rcases List.mem_append.1 h with hnew | hold
      · refine ⟨l.length, a, by simp, by simpa using hnew, ?_⟩
        intro m a' hm ha'
        have hlen := (List.getElem?_eq_some_iff.1 ha').1
        simp at hlen
        omega
      · obtain ⟨i, a0, hi, hentry, hafter⟩ := ih hold
        have hilt := (List.getElem?_eq_some_iff.1 hi).1
        refine ⟨i, a0, by rw [List.getElem?_append_left hilt, hi], hentry, ?_⟩
        intro m a' hm ha'
        rcases Nat.lt_or_ge m l.length with hmlt | hmge
        · rw [List.getElem?_append_left hmlt] at ha'
          exact hafter m a' hm ha'
        · have hlen := (List.getElem?_eq_some_iff.1 ha').1
          have hmeq : m = l.length := by
            simp at hlen
            omega
          rw [hmeq, List.getElem?_concat_length, Option.some.injEq] at ha'
          exact ha' ▸ hnone

/-- a longer list settles what a shorter one does -/
theorem Settles.append {l : List Answer} {i j : ℕ} {ack : MsgS2CExitGameACK} (h : Settles l i j ack)
    (l' : List Answer) :
    Settles (l ++ l') i j ack := by
  have hj := (List.getElem?_eq_some_iff.1 h.exit).1
  obtain ⟨a, ha, hentry⟩ := h.entry
  refine ⟨h.lt, by rw [List.getElem?_append_left hj, h.exit], h.accepted, ⟨a, ?_, hentry⟩, ?_⟩
  · rw [List.getElem?_append_left (h.lt.trans hj), ha]
  · intro m a' him hmj ha'
    rw [List.getElem?_append_left (hmj.trans hj)] at ha'
    exact h.between m a' him hmj ha'

/-- one more answer, which may exit an open entry only -/
theorem SettledAfterEntry.snoc {l : List Answer} (h : SettledAfterEntry l) (a : Answer)
    (ha : ∀ ack, a = .exitGame ack → ack.error = .no → (ack.chapterId, ack.sectionId) ∈ openEntries l) :
    SettledAfterEntry (l ++ [a]) := by
  intro j ack hj hno
  rcases Nat.lt_or_ge j l.length with hlt | hge
  · rw [List.getElem?_append_left hlt] at hj
    obtain ⟨i, hi⟩ := h j ack hj hno
    exact ⟨i, hi.append [a]⟩
  · have hlen := (List.getElem?_eq_some_iff.1 hj).1
    have hjeq : j = l.length := by
      simp at hlen
      omega
    subst hjeq
    rw [List.getElem?_concat_length, Option.some.injEq] at hj
    obtain ⟨i, a0, hi, hentry, hafter⟩ := entry_of_open (ha ack hj hno)
    have hilt := (List.getElem?_eq_some_iff.1 hi).1
    refine ⟨i, hilt, by rw [List.getElem?_concat_length, hj], hno, ⟨a0, ?_, hentry⟩, ?_⟩
    · rw [List.getElem?_append_left hilt, hi]
    · intro m a' him hmlt ha'
      rw [List.getElem?_append_left hmlt] at ha'
      exact hafter m a' him ha'

/-! ## Runs -/

variable {cfg : GameConfig} {out : Outside}

/-- what an operation must find -/
def EntryOk (cfg : GameConfig) (s : St) : Op → Prop
  | .client env _ req =>
    Defined cfg { env with serverTime := s.now } s.hero req ∧
      ∀ msg, req = .exitGame msg → (msg.chapterId, msg.sectionId) = (0, 0) → (marks s.hero).entry = (0, 0) →
        (0, 0) ∈ openEntries (answers s.log)
  | .reload _ _ _ => ∀ row, s.row = some row →
    let entry := (row.currentChapter, row.currentSection)
    entry = (-1, -1) ∨ entry = (0, 0) ∨ entry ∈ openEntries (answers s.log)
  | _ => True

/-- the entry the hero holds is open, or one of the two pairs that stand for none -/
structure EntryInv (s : St) : Prop where
  settled : SettledAfterEntry (answers s.log)
  entry : (marks s.hero).entry = (-1, -1) ∨ (marks s.hero).entry = (0, 0) ∨
    (marks s.hero).entry ∈ openEntries (answers s.log)

/-- an operation that answers nothing and keeps the entry, or sets it to one of the two pairs -/
theorem EntryInv.silent {s s' : St} (h : EntryInv s) (hlog : s'.log = s.log)
    (hentry : (marks s'.hero).entry = (marks s.hero).entry ∨ (marks s'.hero).entry = (0, 0)) : EntryInv s' := by
  refine ⟨hlog ▸ h.settled, ?_⟩
  rcases hentry with hsame | hzero
  · rw [hsame, hlog]
    exact h.entry
  · exact .inr (.inl hzero)

/-- plain answers, which exit nothing and enter nothing -/
theorem openEntries_plain {l l' : List Answer} (hl' : ∀ a ∈ l', a.Plain) :
    openEntries (l ++ l') = openEntries l := by
  induction l' using List.reverseRecOn with
  | nil => rw [List.append_nil]
  | append_singleton l' a ih =>
    have ha := hl' a (by simp)
    rw [← List.append_assoc, openEntries_snoc, ih fun b hb => hl' b (List.mem_append_left [a] hb)]
    simp [ha.entry, ha.exit]

theorem settledAfterEntry_plain {l l' : List Answer} (h : SettledAfterEntry l) (hl' : ∀ a ∈ l', a.Plain) :
    SettledAfterEntry (l ++ l') := by
  induction l' using List.reverseRecOn with
  | nil => rwa [List.append_nil]
  | append_singleton l' a ih =>
    have ha := hl' a (by simp)
    rw [← List.append_assoc]
    apply (ih fun b hb => hl' b (List.mem_append_left [a] hb)).snoc a
    intro ack hack
    have hnone := ha.exit
    rw [hack] at hnone
    cases hnone

/-- an answer that is no exit -/
theorem SettledAfterEntry.snoc_other {l : List Answer} (h : SettledAfterEntry l) {a : Answer} (ha : a.exit = none) :
    SettledAfterEntry (l ++ [a]) := by
  apply h.snoc a
  intro ack hack
  rw [hack] at ha
  cases ha

/-- a request that has the effect `Effect`, the answers written after the older ones -/
theorem entryInv_effect {s : St} (h : EntryInv s) {env : Env} {ranks : RankManager} {req : ClientRequest}
    (hok : EntryOk cfg s (.client env ranks req)) {m : Marks} {new : List Answer} {spent : ℤ}
    (heff : Effect cfg { env with serverTime := s.now } s.beginTime s.hero req m new spent) :
    SettledAfterEntry (answers s.log ++ new) ∧
      (m.entry = (-1, -1) ∨ m.entry = (0, 0) ∨ m.entry ∈ openEntries (answers s.log ++ new)) := by
  -- the cases that neither enter nor exit
  have hother : ∀ {a : Answer}, a.entry = none → a.exit = none →
      SettledAfterEntry (answers s.log ++ [a]) ∧
        ((marks s.hero).entry = (-1, -1) ∨ (marks s.hero).entry = (0, 0) ∨
          (marks s.hero).entry ∈ openEntries (answers s.log ++ [a])) := by
    intro a hentry hexit
    refine ⟨h.settled.snoc_other hexit, ?_⟩
    rw [openEntries_snoc, hexit, hentry]
    exact h.entry
  cases heff with
  | plain _ _ hplain =>
    refine ⟨settledAfterEntry_plain h.settled hplain, ?_⟩
    rw [openEntries_plain hplain]
    exact h.entry
  | enterGame chapterId sectionId a _ hentry hexit hquota =>
    refine ⟨h.settled.snoc_other hexit, .inr (.inr ?_)⟩
    rw [openEntries_snoc, hexit, hentry]
    exact List.mem_cons_self
  | exitGame msg ack _ hreq hids haccepted =>
    refine ⟨h.settled.snoc _ ?_, .inl rfl⟩
    intro ack' hack hno
    cases hack
    obtain ⟨hheld, hsentinel⟩ := haccepted hno
    rw [hids, ← hheld]
    rcases h.entry with hnone | hzero | hopen
    · exact absurd hnone hsentinel
    · rw [hzero]
      exact hok.2 msg hreq (hheld.symm.trans hzero) hzero
    · exact hopen
  | dayLottery a _ hreq htoday hentry hexit hquota => exact hother hentry hexit
  | buySpirit a _ hday hentry hexit hquota => exact hother hentry hexit
  | resetDailyGame a _ hreq htoday hjewel hentry hexit hquota hreset => exact hother hentry hexit
  | beginPeriod msg a _ hreq hbegin hplain => exact hother hplain.entry hplain.exit

theorem dayRefresh_entry (env : Env) (h : DreamHero) : (marks (dayRefresh cfg env h)).entry = (marks h).entry := by
  rw [dayRefresh_marks]

theorem dailyGamePrize_entry (h : DreamHero) (gold : ℤ) : (marks (dailyGamePrize h gold)).entry = (marks h).entry := by
  rw [dailyGamePrize_marks]

theorem entryInv_step (s : St) (o : Op) (h : EntryInv s) (hok : EntryOk cfg s o) : EntryInv (step cfg out s o) := by
  cases o with
  | client env ranks req =>
    rw [step]
    split
    case h_1 hero ranks' new hr =>
      obtain ⟨hsettled, hentry⟩ := entryInv_effect h hok (handleClient_effect hr)
      have hlog : answers (s.log ++ new.map fun answer => ⟨s.now, answer, s.hero.info.jewel - hero.info.jewel⟩) =
          answers s.log ++ new := by
        simp [answers, Function.comp_def]
      exact ⟨hlog ▸ hsettled, hlog ▸ hentry⟩
    case h_2 => exact h
  | command env cmd => exact h.silent rfl (command_entry cmd)
  | dayRefresh env => exact h.silent rfl (.inl (dayRefresh_entry _ s.hero))
  | dailyGameUpdate prize =>
    refine h.silent rfl (.inl ?_)
    simp only [step, tryToGetGamePrize_marks]
    cases prize with
    | none => rfl
    | some gold => exact dailyGamePrize_entry s.hero gold
  | reload env name channel =>
    have hrefresh : (marks (step cfg out s (.reload env name channel)).hero).entry =
        (marks (loadHero cfg out s name channel)).entry := dayRefresh_entry _ _
    refine ⟨h.settled, ?_⟩
    rw [hrefresh, loadHero]
    cases hrow : s.row with
    | none => exact .inr (.inl rfl)
    | some row =>
      dsimp only
      rw [setInfo_marks]
      exact hok row hrow
  | _ => exact h.silent rfl (.inl rfl)

/-- **No settlement without an entry.** From `LoadFromConfig` on, along a run that meets `EntryOk`, every exit that is
answered with `Error_NO` settles an entry that was answered so before, with no exit between them, and no entry is
settled by two exits. -/
theorem settled_after_entry (cfg : GameConfig) (out : Outside) (name : String) (channel : ℤ) (h : DreamHero)
    (row : Option CharacterRow) (now beginTime : ℕ) (ops : List Op)
    (hops : Along (step cfg out) (EntryOk cfg) (start cfg name channel h row now beginTime) ops) :
    let l := answers (run (step cfg out) (start cfg name channel h row now beginTime) ops).log
    SettledAfterEntry l ∧ ∀ i j j' ack ack', Settles l i j ack → Settles l i j' ack' → j = j' := by
  have hstart : EntryInv (start cfg name channel h row now beginTime) :=
    ⟨fun j ack hj => by simp [start, answers] at hj, .inr (.inl rfl)⟩
  have hrun := inv_run (fun s o hs ho => entryInv_step s o hs ho) hstart hops
  exact ⟨hrun.settled, fun _ _ _ _ _ => settles_unique⟩

/-- a new hero enters an instance, is saved and loaded, and leaves it -/
theorem entered_and_left :
    let ranks : RankManager := { dailyMaxRankSize := 1, minDailyScore := 0 }
    let ops : List Op :=
      [.client {} ranks (.request (.enterGame 1 1 false)), .saveHero, .reload {} "a" 0,
        .client {} ranks (.exitGame { chapterId := 1, sectionId := 1 })]
    let l := answers (run (step {} plainOutside) (start {} "a" 0 {} none 1 1) ops).log
    SettledAfterEntry l ∧ ∀ i j j' ack ack', Settles l i j ack → Settles l i j' ack' → j = j' := by
  intro ranks ops
  apply settled_after_entry {} plainOutside "a" 0 {} none 1 1 ops
  refine ⟨⟨trivial, fun _ hreq => by cases hreq⟩, trivial, ?_, ⟨trivial, fun msg hreq hzero => ?_⟩, trivial⟩
  · intro row hrow
    cases hrow
    exact .inr (.inr (by decide))
  · cases hreq
    exact absurd hzero (by decide)

/-- a new hero, which has entered nothing, leaves the instance (0, 0) -/
theorem new_hero_exits :
    ¬ ∀ (cfg : GameConfig) (out : Outside) (name : String) (channel : ℤ) (h : DreamHero) (row : Option CharacterRow)
      (now beginTime : ℕ) (ops : List Op),
      SettledAfterEntry (answers (run (step cfg out) (start cfg name channel h row now beginTime) ops).log) := by
  intro hall
  have h1 := hall {} plainOutside "a" 0 {} none 1 1
    [.client {} { dailyMaxRankSize := 1, minDailyScore := 0 } (.exitGame { chapterId := 0, sectionId := 0 })]
  obtain ⟨i, hi⟩ := h1 0 _ rfl rfl
  exact absurd hi.lt (Nat.not_lt_zero i)

end DreamHeroes.Hero.Requests
