/-
The list columns of `character` across a save and a load: what `SaveHero` writes, `dbDoQueryHeroInfo` and `set_info`
read back.

- `read_records`, `read_heroes`, `read_tasks`, `read_lotions`, `read_grid`, `read_creatures`, `read_kills`: one round
  trip for each column, for every list, the empty one included, and all integers.
- `get_addAll`: the map of special kills that `set_info` builds; the other map is `get_insertAll`.
- `save_load_lists`: the fields of the hero. A list of special kills that is empty is not written, and its key is gone.

The texts are unbounded: a hero whose statement does not fit the buffers of `SaveHero` is not the subject.
-/
import Mathlib.Tactic
import DreamHeroes.Hero.LoadHero

namespace DreamHeroes.Hero

open DreamHeroes.Lib DreamHeroes.Config

/-! ## Parts -/

theorem part_int {d : Char} (hd : d.isDigit = false ∧ d ≠ '-') (n : ℤ) : Part d (toString n) :=
  part_toString hd.1 hd.2 n

theorem pairText_eq (a b : ℤ) : pairText a b = ",".intercalate [toString a, toString b] := by
  rw [String.intercalate_cons_cons, String.intercalate_singleton]
  rfl

theorem taskText_eq (t : MsgTaskInfo) : pairText t.taskid t.argument1 ++ "," ++ toString t.usetime =
    ",".intercalate [toString t.taskid, toString t.argument1, toString t.usetime] := by
  rw [String.intercalate_cons_cons, String.intercalate_cons_cons, String.intercalate_singleton]
  simp only [pairText, String.append_assoc]

theorem pieces_ints (l : List ℤ) : pieces ',' (",".intercalate (l.map toString)) = l.map toString := by
  apply pieces_intercalate rfl
  intro s hs
  obtain ⟨n, -, rfl⟩ := List.mem_map.1 hs
  exact part_int (by decide) n

/-- a list of numbers is a part between semicolons and between colons -/
theorem part_ints {d : Char} (hd : d.isDigit = false ∧ d ≠ '-') (hcomma : d ≠ ',') {l : List ℤ} (hl : l ≠ []) :
    Part d (",".intercalate (l.map toString)) := by
  refine part_intercalate rfl hcomma ?_ (by simpa using hl)
  intro s hs
  obtain ⟨n, -, rfl⟩ := List.mem_map.1 hs
  exact part_int hd n

theorem pieces_pairText (a b : ℤ) : pieces ',' (pairText a b) = [toString a, toString b] := by
  rw [pairText_eq]
  exact pieces_ints [a, b]

theorem part_pairText {d : Char} (hd : d.isDigit = false ∧ d ≠ '-') (hcomma : d ≠ ',') (a b : ℤ) :
    Part d (pairText a b) := by
  rw [pairText_eq]
  exact part_ints hd hcomma (List.cons_ne_nil a [b])

theorem exactPair_pairText (a b : ℤ) : exactPair (pairText a b) = some (a, b) := by
  simp only [exactPair, pieces_pairText, atoi_toString]

theorem leadingPair_pairText (a b : ℤ) : leadingPair (pairText a b) = some (a, b) := by
  simp only [leadingPair, pieces_pairText, atoi_toString]

/-- a list of parts, each read back on its own -/
theorem read_list {α β : Type*} (write : α → String) (read : String → Option β) (f : α → β) {l : List α}
    (hpart : ∀ a ∈ l, Part ';' (write a)) (hread : ∀ a ∈ l, read (write a) = some (f a)) :
    (pieces ';' (";".intercalate (l.map write))).filterMap read = l.map f := by
  have hpieces : pieces ';' (";".intercalate (l.map write)) = l.map write := by
    apply pieces_intercalate rfl
    intro s hs
    obtain ⟨a, ha, rfl⟩ := List.mem_map.1 hs
    exact hpart a ha
  rw [hpieces, List.filterMap_map, ← List.filterMap_eq_map]
  exact List.filterMap_congr fun a ha => hread a ha

/-! ## Columns -/

theorem read_records (l : List (ℤ × ℤ)) : readRecords (recordText l) = l := by
  have hread := read_list (fun p : ℤ × ℤ => pairText p.1 p.2) exactPair id (l := l)
    (fun p _ => part_pairText (by decide) (by decide) p.1 p.2) (fun p _ => exactPair_pairText p.1 p.2)
  rwa [List.map_id] at hread

theorem flag_ne_zero (b : Bool) : decide (flag b ≠ 0) = b := by
  cases b <;> rfl

theorem read_heroes (l : List Bool) : readHeroes (heroesText l) = l := by
  have hpieces : pieces ';' (heroesText l) = l.map fun b => toString (flag b) := by
    apply pieces_intercalate rfl
    intro s hs
    obtain ⟨b, -, rfl⟩ := List.mem_map.1 hs
    exact part_int (by decide) (flag b)
  rw [readHeroes, hpieces, List.map_map]
  have hid : (fun t => decide (atoi t ≠ 0)) ∘ (fun b : Bool => toString (flag b)) = id := by
    funext b
    simp only [Function.comp_apply, atoi_toString, flag_ne_zero, id]
  rw [hid, List.map_id]

theorem read_tasks (l : List MsgTaskInfo) : readTasks (tasksText l) = l := by
  have hread :=
    read_list (fun t : MsgTaskInfo => pairText t.taskid t.argument1 ++ "," ++ toString t.usetime) readTask id
    (l := l)
    (fun t _ => by
      rw [taskText_eq]
      exact part_ints (l := [t.taskid, t.argument1, t.usetime]) (by decide) (by decide) (List.cons_ne_nil _ _))
    (fun t _ => by
      have hpieces := pieces_ints [t.taskid, t.argument1, t.usetime]
      rw [taskText_eq]
      simp only [List.map_cons, List.map_nil] at hpieces
      simp only [readTask, hpieces, atoi_toString, id])
  rwa [List.map_id] at hread

theorem read_lotions (l : List ℤ) : readLotions (lotionText l) = l := by
  rw [readLotions, lotionText, pieces_ints, List.map_map]
  have hid : atoi ∘ toString = (id : ℤ → ℤ) := funext atoi_toString
  rw [hid, List.map_id]

theorem read_creatures (l : List (ℤ × ℤ)) : readSpecialCreatures (recordText l) = l := by
  have hread := read_list (fun p : ℤ × ℤ => pairText p.1 p.2) leadingPair id (l := l)
    (fun p _ => part_pairText (by decide) (by decide) p.1 p.2) (fun p _ => leadingPair_pairText p.1 p.2)
  rwa [List.map_id] at hread

theorem read_grid (l : List (ℤ × Bool)) : readGridState (gridText l) = l := by
  have hread := read_list (fun p : ℤ × Bool => pairText p.1 (flag p.2)) leadingPair (fun p => (p.1, flag p.2)) (l := l)
    (fun p _ => part_pairText (by decide) (by decide) p.1 (flag p.2)) (fun p _ => leadingPair_pairText p.1 (flag p.2))
  rw [readGridState, gridText, hread, List.map_map]
  have hid : (fun p : ℤ × ℤ => (p.1, decide (p.2 ≠ 0))) ∘ (fun p : ℤ × Bool => (p.1, flag p.2)) = id := by
    funext p
    simp only [Function.comp_apply, flag_ne_zero, id]
  rw [hid, List.map_id]

/-! ## Special kills -/

/-- the text of one entry: the key and the kills, with colons between them -/
theorem killText_eq (head : String) (l : List MsgObjConfig) :
    head ++ String.join (l.map fun k => ":" ++ pairText k.id k.type) =
      ":".intercalate (head :: l.map fun k => pairText k.id k.type) := by
  induction l generalizing head with
  | nil => simp
  | cons k l ih =>
    have htail := ih (pairText k.id k.type)
    calc head ++ String.join ((k :: l).map fun k => ":" ++ pairText k.id k.type)
        = head ++ ":" ++ (pairText k.id k.type ++ String.join (l.map fun k => ":" ++ pairText k.id k.type)) := by
          rw [List.map_cons, String.join_cons]
          simp only [String.append_assoc]
      _ = head ++ ":" ++ ":".intercalate (pairText k.id k.type :: l.map fun k => pairText k.id k.type) := by rw [htail]
      _ = ":".intercalate (head :: (k :: l).map fun k => pairText k.id k.type) := by
          rw [List.map_cons, String.intercalate_cons_cons]

theorem part_kill {d : Char} (hd : d.isDigit = false ∧ d ≠ '-') (hcomma : d ≠ ',') (key : ℤ × ℤ)
    (l : List MsgObjConfig) :
    ∀ s ∈ pairText key.1 key.2 :: l.map (fun k => pairText k.id k.type), Part d s := by
  intro s hs
  rcases List.mem_cons.1 hs with rfl | hs
  · exact part_pairText hd hcomma key.1 key.2
  · obtain ⟨k, -, rfl⟩ := List.mem_map.1 hs
    exact part_pairText hd hcomma k.id k.type

/-- an entry that is written has a kill, and then it passes the check of its size -/
theorem read_kill (key : ℤ × ℤ) {l : List MsgObjConfig} (hl : l ≠ []) :
    readSpecialKill (pairText key.1 key.2 ++ String.join (l.map fun k => ":" ++ pairText k.id k.type)) =
      some { chapterId := key.1, sectionId := key.2, kills := l } := by
  have hpieces : pieces ':' (":".intercalate (pairText key.1 key.2 :: l.map fun k => pairText k.id k.type)) =
      pairText key.1 key.2 :: l.map fun k => pairText k.id k.type :=
    pieces_intercalate rfl (part_kill (by decide) (by decide) key l)
  have hkills : (l.map fun k => pairText k.id k.type).filterMap exactPair = l.map fun k => (k.id, k.type) := by
    rw [List.filterMap_map, ← List.filterMap_eq_map]
    exact List.filterMap_congr fun k _ => exactPair_pairText k.id k.type
  rw [killText_eq, readSpecialKill, hpieces]
  cases l with
  | nil => exact absurd rfl hl
  | cons k l =>
    simp only [List.map_cons] at hkills ⊢
    rw [hkills, exactPair_pairText, Option.map_some, List.map_cons, List.map_map]
    exact congrArg (fun t => some (⟨key.1, key.2, k :: t⟩ : MsgMapSpecialKill)) (List.map_id l)

theorem read_kills (l : List ((ℤ × ℤ) × List MsgObjConfig)) :
    readSpecialKills (specialKillText l) =
      (l.filter fun e => !e.2.isEmpty).map fun e => { chapterId := e.1.1, sectionId := e.1.2, kills := e.2 } := by
  have hne : ∀ e ∈ l.filter (fun e => !e.2.isEmpty), e.2 ≠ [] := by
    intro e he
    simpa using (List.mem_filter.1 he).2
  refine read_list _ readSpecialKill _ ?_ (fun e he => read_kill e.1 (hne e he))
  intro e _
  have hsep : ":".toList = [':'] := by decide
  rw [killText_eq]
  exact part_intercalate hsep (by decide) (part_kill (by decide) (by decide) e.1 e.2) (List.cons_ne_nil _ _)

/-! ## Maps -/

/-- the kills of an entry go behind those the key has already -/
theorem get_addSpecialKills (m : Std.TreeMap (ℤ × ℤ) (List MsgObjConfig)) (e : MsgMapSpecialKill) (k : ℤ × ℤ) :
    (addSpecialKills m e)[k]? =
      if k = (e.chapterId, e.sectionId) ∧ e.kills ≠ [] then some (m[k]?.getD [] ++ e.kills) else m[k]? := by
  obtain ⟨c, s, kills⟩ := e
  simp only [addSpecialKills]
  induction kills generalizing m with
  | nil => simp
  | cons kill kills ih =>
    rw [List.foldl_cons, ih, get_insert, Std.TreeMap.getD_eq_getD_getElem?]
    by_cases hk : k = (c, s)
    · subst hk
      by_cases hkills : kills = []
      · simp [hkills]
      · simp [hkills]
    · simp [hk]

/-- the map that `set_info` builds from entries with kills and different keys -/
theorem get_addAll {l : List ((ℤ × ℤ) × List MsgObjConfig)} (hkeys : (l.map Prod.fst).Nodup)
    (hne : ∀ e ∈ l, e.2 ≠ []) (m : Std.TreeMap (ℤ × ℤ) (List MsgObjConfig)) (k : ℤ × ℤ) (hm : ∀ e ∈ l, m[e.1]? = none) :
    ((l.map fun e => (⟨e.1.1, e.1.2, e.2⟩ : MsgMapSpecialKill)).foldl addSpecialKills m)[k]? =
      (l.lookup k).or m[k]? := by
  induction l generalizing m with
  | nil => rfl
  | cons e l ih =>
    rw [List.map_cons, List.nodup_cons] at hkeys
    have hfresh : ∀ e' ∈ l, (addSpecialKills m ⟨e.1.1, e.1.2, e.2⟩)[e'.1]? = none := by
      intro e' he'
      have hother : e'.1 ≠ e.1 := fun heq => hkeys.1 (heq ▸ List.mem_map_of_mem he')
      rw [get_addSpecialKills, if_neg (fun h => hother h.1)]
      exact hm e' (List.mem_cons_of_mem e he')
    rw [List.map_cons, List.foldl_cons, ih hkeys.2 (fun e' he' => hne e' (List.mem_cons_of_mem e he')) _ hfresh,
      get_addSpecialKills, List.lookup_cons]
    by_cases hk : k = e.1
    · subst hk
      simp [lookup_eq_none hkeys.1, hne e List.mem_cons_self, hm e List.mem_cons_self]
    · simp [hk, beq_eq_false_iff_ne.2 hk]

/-- special kills without a kill are not written -/
theorem lookup_written (m : Std.TreeMap (ℤ × ℤ) (List MsgObjConfig)) (k : ℤ × ℤ) :
    (m.toList.filter fun e => !e.2.isEmpty).lookup k = m[k]?.filter fun l => !l.isEmpty := by
  have hsub : ((m.toList.filter fun e => !e.2.isEmpty).map Prod.fst).Nodup :=
    (toList_keys_nodup m).sublist (List.filter_sublist.map _)
  ext v
  rw [lookup_eq_some_iff hsub, List.mem_filter, Std.TreeMap.mem_toList_iff_getElem?_eq_some,
    Option.filter_eq_some_iff]

/-! ## The hero -/

variable (cfg : GameConfig) (spiritRecovery : ℕ → ℕ → ℤ × ℕ) (serverTime beginTime : ℕ) (channel : ℤ)

/-- the lists and maps of a hero that are columns of its row -/
def listColumns (h : DreamHero) :
    (List (ℤ × ℤ) × List Bool × List MsgTaskInfo × List ℤ × List (ℤ × Bool)) ×
      Std.TreeMap ℤ ℤ × Std.TreeMap (ℤ × ℤ) (List MsgObjConfig) :=
  ((h.info.records, h.info.heroes, h.info.tasks, h.info.lotions, h.info.gridNotifyState),
    h.specialCreatures, h.specialKills)

theorem recoverOffline_lists (h : DreamHero) :
    listColumns (recoverOffline cfg spiritRecovery serverTime h) = listColumns h := by
  rw [recoverOffline]
  split_ifs <;> rfl

theorem newDailyGame_lists (h : DreamHero) : listColumns (newDailyGame beginTime h) = listColumns h := by
  rw [newDailyGame]
  split_ifs <;> rfl

theorem tryToGetGamePrize_lists (h : DreamHero) : listColumns (tryToGetGamePrize cfg beginTime h) = listColumns h := by
  rw [tryToGetGamePrize]
  split_ifs <;> rfl

/-- the lists and maps of the hero are those of the message -/
theorem setInfo_lists (info : MsgHeroDataDB2GS) :
    let h := setInfo cfg spiritRecovery serverTime beginTime info channel
    h.info.records = info.data.records ∧ h.info.heroes = info.data.heroes ∧ h.info.tasks = info.data.tasks ∧
      h.info.lotions = info.data.lotions ∧ h.info.gridNotifyState = info.data.gridNotifyState ∧
      h.specialCreatures = info.specialCreatures.foldl (fun m entry => m.insert entry.1 entry.2) {} ∧
      h.specialKills = info.specialKills.foldl addSpecialKills {} := by
  intro h
  have hsame : listColumns h =
      ((info.data.records, info.data.heroes, info.data.tasks, info.data.lotions, info.data.gridNotifyState),
        info.specialCreatures.foldl (fun m entry => m.insert entry.1 entry.2) {},
        info.specialKills.foldl addSpecialKills {}) :=
    (tryToGetGamePrize_lists cfg beginTime _).trans <|
      (newDailyGame_lists beginTime _).trans (recoverOffline_lists cfg spiritRecovery serverTime _)
  simpa only [listColumns, Prod.mk.injEq, and_assoc] using hsame

/-- **Round trip of the list columns.** The lists come back as they were, in the same order, and so do the two maps,
except for the keys of `_special_kills` without a kill. -/
theorem save_load_lists (time : ℕ → String) (unixTimestamp : String → ℕ) (h : DreamHero) :
    let loaded := setInfo cfg spiritRecovery serverTime beginTime
      (dbDoQueryHeroInfo unixTimestamp (characterRow time h)) channel
    loaded.info.records = h.info.records ∧ loaded.info.heroes = h.info.heroes ∧ loaded.info.tasks = h.info.tasks ∧
      loaded.info.lotions = h.info.lotions ∧ loaded.info.gridNotifyState = h.info.gridNotifyState ∧
      (∀ k : ℤ, loaded.specialCreatures[k]? = h.specialCreatures[k]?) ∧
      (∀ k : ℤ × ℤ, loaded.specialKills[k]? = h.specialKills[k]?.filter fun l : List MsgObjConfig => !l.isEmpty) := by
  intro loaded
  obtain ⟨hrecords, hheroes, htasks, hlotions, hgrid, hcreatures, hkills⟩ := setInfo_lists cfg spiritRecovery serverTime
    beginTime channel (dbDoQueryHeroInfo unixTimestamp (characterRow time h))
  refine ⟨hrecords.trans (read_records _), hheroes.trans (read_heroes _), htasks.trans (read_tasks _),
    hlotions.trans (read_lotions _), hgrid.trans (read_grid _), ?_, ?_⟩
  · intro k
    have hread : (dbDoQueryHeroInfo unixTimestamp (characterRow time h)).specialCreatures = h.specialCreatures.toList :=
      read_creatures _
    rw [hcreatures, hread, get_insertAll (toList_keys_nodup _), lookup_toList]
    simp
  · intro k
    have hread : (dbDoQueryHeroInfo unixTimestamp (characterRow time h)).specialKills =
        (h.specialKills.toList.filter fun e => !e.2.isEmpty).map fun e => ⟨e.1.1, e.1.2, e.2⟩ :=
      read_kills _
    have hkeys : ((h.specialKills.toList.filter fun e => !e.2.isEmpty).map Prod.fst).Nodup :=
      (toList_keys_nodup _).sublist (List.filter_sublist.map _)
    have hne : ∀ e ∈ h.specialKills.toList.filter (fun e => !e.2.isEmpty), e.2 ≠ [] := by
      intro e he
      simpa using (List.mem_filter.1 he).2
    rw [hkills, hread, get_addAll hkeys hne _ _ (fun _ _ => rfl), lookup_written]
    simp

end DreamHeroes.Hero
