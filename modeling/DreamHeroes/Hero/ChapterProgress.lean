/-
The chapters of a hero: how far its records can go along a run.

- `Unlocks`: what `ReqUnlockChapter` tests. `RecordStep`: what a request does to the records, in five cases.
- `Progress`: no section goes back; an accepted exit adds one to the section of its chapter, or nothing, and to no other
  chapter; a chapter is added by an unlock at its price.
- `WithinMax`, `PassesWithin`: a section that `max_section_count` does not cover is reached by the unlock or the exit
  that reaches it. No handler compares the two.
- `chapter_progress`: every run of a hero from its creation. `passed_beyond` passes the one section of a chapter, and
  the one behind it.

Loading the hero again, and making it anew, are not part of a run.
-/
import Mathlib.Tactic
import DreamHeroes.Lib.Machine
import DreamHeroes.Hero.Kept

namespace DreamHeroes.Hero.Requests

open DreamHeroes.Lib DreamHeroes.Config DreamHeroes.Rank

/-- the chapters that have a record -/
def chapters (h : DreamHero) : List ℤ := h.info.records.map Prod.fst

/-! ## Unlocking a chapter -/

structure Unlocks (cfg : GameConfig) (h : DreamHero) (chapterId : ℤ) (config : MsgChapterConfigInfo) : Prop where
  configured : cfg.getChapterConfigInfo chapterId = some config
  tasks : config.requiredTaskCompleteCount ≤ h.info.completeTaskCount
  locked : chapterId ∉ chapters h
  required : ∃ r ∈ h.info.records, config.requiredChapterId = r.1 ∧ config.requiredSectionId ≤ r.2
  gold : config.requireGold ≤ h.info.gold

variable {cfg : GameConfig} {env : Env} {h h' : DreamHero}

theorem Unlocks.unique {chapterId : ℤ} {config config' : MsgChapterConfigInfo} (hu : Unlocks cfg h chapterId config)
    (hconfig : cfg.getChapterConfigInfo chapterId = some config') : config' = config :=
  Option.some.inj (hconfig.symm.trans hu.configured)

/-- the loop over the records ends without an error: there is no record of the chapter, and the required one is found -/
theorem unlockLoop_eq_no_iff (config : MsgChapterConfigInfo) (chapterId : ℤ) (records : List (ℤ × ℤ)) (e : GameError) :
    unlockLoop config chapterId records e = some .no ↔
      chapterId ∉ records.map Prod.fst ∧
        (e = .no ∨ ∃ r ∈ records, config.requiredChapterId = r.1 ∧ config.requiredSectionId ≤ r.2) := by
  induction records generalizing e with
  | nil => simp [unlockLoop]
  | cons r records ih =>
    rw [unlockLoop]
    split_ifs with hsame hrequired
    · simp [hsame]
    · rw [ih]
      simp [Ne.symm hsame, hrequired]
    · rw [ih]
      have hnot : ¬ (config.requiredChapterId = r.1 ∧ config.requiredSectionId ≤ r.2) := hrequired
      simp [Ne.symm hsame, hnot]

theorem reqUnlockChapter_unlocks {chapterId : ℤ} {config : MsgChapterConfigInfo} (hu : Unlocks cfg h chapterId config) :
    (reqUnlockChapter cfg h chapterId).1 =
      { h with info := { h.info with records := h.info.records ++ [(chapterId, 0)],
                                     gold := h.info.gold - config.requireGold } } := by
  have htasks : ¬ h.info.completeTaskCount < config.requiredTaskCompleteCount := not_lt.2 hu.tasks
  have hloop := (unlockLoop_eq_no_iff config chapterId h.info.records
    .unlockChapterFailedTheRequiredSectionNotPass).2 ⟨hu.locked, .inr hu.required⟩
  have hgold : ¬ h.info.gold - config.requireGold < 0 := not_lt.2 (sub_nonneg.2 hu.gold)
  rw [reqUnlockChapter, hu.configured]
  dsimp only
  rw [if_neg htasks, hloop]
  dsimp only
  rw [if_neg hgold]

theorem reqUnlockChapter_refused {chapterId : ℤ} (hno : ∀ config, ¬ Unlocks cfg h chapterId config) :
    (reqUnlockChapter cfg h chapterId).1 = h := by
  rw [reqUnlockChapter]
  cases hconfig : cfg.getChapterConfigInfo chapterId with
  | none => rfl
  | some config =>
    dsimp only
    split
    case isTrue => rfl
    case isFalse htasks =>
      cases hloop : unlockLoop config chapterId h.info.records .unlockChapterFailedTheRequiredSectionNotPass with
      | none => rfl
      | some e =>
        cases e with
        | no =>
          dsimp only
          split
          case isTrue => rfl
          case isFalse hgold =>
            obtain ⟨hlocked, hrequired⟩ := (unlockLoop_eq_no_iff _ _ _ _).1 hloop
            refine absurd ⟨hconfig, not_lt.1 htasks, hlocked, ?_, sub_nonneg.1 (not_lt.1 hgold)⟩ (hno config)
            exact hrequired.resolve_left (by decide)
        | _ => rfl

/-! ## What a request does to the records -/

inductive RecordStep (cfg : GameConfig) (h : DreamHero) : ClientRequest → DreamHero → Prop
  | unlocked {h' : DreamHero} (chapterId : ℤ) (config : MsgChapterConfigInfo) (hu : Unlocks cfg h chapterId config)
      (hrecords : h'.info.records = h.info.records ++ [(chapterId, 0)])
      (hgold : h'.info.gold = h.info.gold - config.requireGold) :
    RecordStep cfg h (.request (.unlockChapter chapterId)) h'
  | refused {h' : DreamHero} (chapterId : ℤ) (hno : ∀ config, ¬ Unlocks cfg h chapterId config)
      (hrecords : h'.info.records = h.info.records) :
    RecordStep cfg h (.request (.unlockChapter chapterId)) h'
  | passed {h' : DreamHero} (msg : MsgC2SReqExitGame) (hno : exitError h msg = .no) (hsuccess : msg.success = true)
      (hrecords : h'.info.records = h.info.records.map (passSection msg.chapterId msg.sectionId)) :
    RecordStep cfg h (.exitGame msg) h'
  | left {h' : DreamHero} (msg : MsgC2SReqExitGame) (hno : ¬ (exitError h msg = .no ∧ msg.success = true))
      (hrecords : h'.info.records = h.info.records) :
    RecordStep cfg h (.exitGame msg) h'
  | other {req : ClientRequest} {h' : DreamHero} (hreq : ¬ req.WritesRecords)
      (hrecords : h'.info.records = h.info.records) :
    RecordStep cfg h req h'

theorem reqUnlockChapter_records (chapterId : ℤ) :
    RecordStep cfg h (.request (.unlockChapter chapterId)) (reqUnlockChapter cfg h chapterId).1 := by
  by_cases hu : ∃ config, Unlocks cfg h chapterId config
  · obtain ⟨config, hu⟩ := hu
    have heq := reqUnlockChapter_unlocks hu
    exact .unlocked chapterId config hu (by rw [heq]) (by rw [heq])
  · push Not at hu
    exact .refused chapterId hu (by rw [reqUnlockChapter_refused hu])

theorem reqExitGame_records (msg : MsgC2SReqExitGame) :
    RecordStep cfg h (.exitGame msg) (reqExitGame cfg h msg).1 := by
  by_cases hno : exitError h msg = .no
  · have hrecords : (reqExitGame cfg h msg).1.info.records =
        if msg.success then h.info.records.map (passSection msg.chapterId msg.sectionId) else h.info.records := by
      rw [reqExitGame_accepted hno]
      rfl
    by_cases hsuccess : msg.success = true
    · exact .passed msg hno hsuccess (hrecords.trans (if_pos hsuccess))
    · exact .left msg (fun hboth => hsuccess hboth.2) (hrecords.trans (if_neg hsuccess))
  · exact .left msg (fun hboth => hno hboth.1) (by rw [reqExitGame_rejected hno])

theorem handleClient_recordStep {ranks ranks' : RankManager} {req : ClientRequest} {answers : List Answer}
    (hr : handleClient cfg env ranks h req = some (h', ranks', answers)) : RecordStep cfg h req h' := by
  by_cases hreq : req.WritesRecords
  · cases req with
    | exitGame msg =>
      cases hr
      exact reqExitGame_records msg
    | request req =>
      cases req with
      | unlockChapter chapterId =>
        cases hr
        exact reqUnlockChapter_records chapterId
      | _ => exact hreq.elim
    | _ => exact hreq.elim
  · exact .other hreq (handleClient_records hr hreq)

/-! ## Progress -/

/-- records are never lost or lowered, an exit passes one section, and a chapter that is new has been unlocked -/
structure Progress (cfg : GameConfig) (h : DreamHero) (req : ClientRequest) (h' : DreamHero) : Prop where
  kept : ∀ r ∈ h.info.records, ∃ r' ∈ h'.info.records, r'.1 = r.1 ∧ r.2 ≤ r'.2
  passed : ∀ r ∈ h.info.records, ∀ r' ∈ h'.info.records, r'.1 = r.1 → r' ≠ r →
    r'.2 = r.2 + 1 ∧ ∃ msg, req = .exitGame msg ∧ (reqExitGame cfg h msg).2.error = .no ∧ r.1 = msg.chapterId
  added : ∀ r' ∈ h'.info.records, r'.1 ∉ chapters h →
    ∃ config, req = .request (.unlockChapter r'.1) ∧ Unlocks cfg h r'.1 config ∧
      h'.info.gold = h.info.gold - config.requireGold

/-- with different chapters, a chapter has one record -/
theorem eq_of_chapter (hdistinct : (chapters h).Nodup) {r r' : ℤ × ℤ} (hr : r ∈ h.info.records)
    (hr' : r' ∈ h.info.records) (heq : r'.1 = r.1) : r' = r := List.inj_on_of_nodup_map hdistinct hr' hr heq

theorem Progress.same {req : ClientRequest} (hdistinct : (chapters h).Nodup)
    (hrecords : h'.info.records = h.info.records) : Progress cfg h req h' := by
  constructor
  case kept =>
    intro r hr
    exact ⟨r, hrecords ▸ hr, rfl, le_rfl⟩
  case passed =>
    intro r hr r' hr' heq hne
    exact absurd (eq_of_chapter hdistinct hr (hrecords ▸ hr') heq) hne
  case added =>
    intro r' hr' hnew
    exact absurd (List.mem_map_of_mem (hrecords ▸ hr')) hnew

theorem RecordStep.progress {req : ClientRequest} (hstep : RecordStep cfg h req h') (hdistinct : (chapters h).Nodup) :
    Progress cfg h req h' := by
  cases hstep with
  | refused chapterId hno hrecords => exact .same hdistinct hrecords
  | left msg hno hrecords => exact .same hdistinct hrecords
  | other hreq hrecords => exact .same hdistinct hrecords
  | unlocked chapterId config hu hrecords hgold =>
    constructor
    case kept =>
      intro r hr
      refine ⟨r, ?_, rfl, le_rfl⟩
      rw [hrecords]
      exact List.mem_append_left _ hr
    case passed =>
      intro r hr r' hr' heq hne
      rw [hrecords, List.mem_append, List.mem_singleton] at hr'
      rcases hr' with hr' | rfl
      · exact absurd (eq_of_chapter hdistinct hr hr' heq) hne
      · have hmem : r.1 ∈ chapters h := List.mem_map_of_mem hr
        rw [← heq] at hmem
        exact absurd hmem hu.locked
    case added =>
      intro r' hr' hnew
      rw [hrecords, List.mem_append, List.mem_singleton] at hr'
      rcases hr' with hr' | rfl
      · exact absurd (List.mem_map_of_mem hr') hnew
      · exact ⟨config, rfl, hu, hgold⟩
  | passed msg hno hsuccess hrecords =>
    have hfst (r : ℤ × ℤ) : (passSection msg.chapterId msg.sectionId r).1 = r.1 := by
      rw [passSection]
      split_ifs <;> rfl
    constructor
    case kept =>
      intro r hr
      refine ⟨passSection msg.chapterId msg.sectionId r, ?_, hfst r, ?_⟩
      · rw [hrecords]
        exact List.mem_map_of_mem hr
      · rw [passSection]
        split_ifs with hpass
        · show r.2 ≤ msg.sectionId
          omega
        · exact le_rfl
    case passed =>
      intro r hr r' hr' heq hne
      rw [hrecords] at hr'
      obtain ⟨r0, hr0, rfl⟩ := List.mem_map.1 hr'
      obtain rfl : r0 = r := eq_of_chapter hdistinct hr hr0 ((hfst r0).symm.trans heq)
      rw [passSection] at hne ⊢
      split_ifs at hne ⊢ with hpass
      · exact ⟨hpass.2, msg, rfl, reqExitGame_error.trans hno, hpass.1⟩
      · exact absurd rfl hne
    case added =>
      intro r' hr' hnew
      rw [hrecords] at hr'
      obtain ⟨r0, hr0, rfl⟩ := List.mem_map.1 hr'
      rw [hfst] at hnew
      exact absurd (List.mem_map_of_mem hr0) hnew

theorem distinct_of_same (hrecords : h'.info.records = h.info.records) (hdistinct : (chapters h).Nodup) :
    (chapters h').Nodup := by
  rw [chapters, hrecords]
  exact hdistinct

theorem RecordStep.distinct {req : ClientRequest} (hstep : RecordStep cfg h req h') (hdistinct : (chapters h).Nodup) :
    (chapters h').Nodup := by
  cases hstep with
  | refused chapterId hno hrecords => exact distinct_of_same hrecords hdistinct
  | left msg hno hrecords => exact distinct_of_same hrecords hdistinct
  | other hreq hrecords => exact distinct_of_same hrecords hdistinct
  | unlocked chapterId config hu hrecords hgold =>
    have hnew := hu.locked
    rw [chapters] at hnew hdistinct ⊢
    rw [hrecords, List.map_append]
    exact hdistinct.append (List.nodup_singleton _) (List.disjoint_singleton.2 hnew)
  | passed msg hno hsuccess hrecords =>
    have hsame : chapters h' = chapters h := by
      rw [chapters, hrecords, List.map_map, chapters]
      apply List.map_congr_left
      intro r _
      simp only [Function.comp_apply, passSection]
      split_ifs <;> rfl
    exact hsame ▸ hdistinct

/-! ## The number of sections -/

/-- no record is beyond the sections of its chapter -/
def WithinMax (cfg : GameConfig) (h : DreamHero) : Prop :=
  ∀ r ∈ h.info.records, ∀ config, cfg.getChapterConfigInfo r.1 = some config → r.2 ≤ config.maxSectionCount

/-- the section that a request reaches is one of its chapter: of an unlock section 0, of an exit the section passed -/
def PassesWithin (cfg : GameConfig) (h : DreamHero) : ClientRequest → Prop
  | .request (.unlockChapter chapterId) => ∀ config, Unlocks cfg h chapterId config → 0 ≤ config.maxSectionCount
  | .exitGame msg =>
    exitError h msg = .no → msg.success = true → (msg.chapterId, msg.sectionId - 1) ∈ h.info.records →
      ∀ config, cfg.getChapterConfigInfo msg.chapterId = some config → msg.sectionId ≤ config.maxSectionCount
  | _ => True

theorem withinMax_of_same (hrecords : h'.info.records = h.info.records) : WithinMax cfg h ↔ WithinMax cfg h' := by
  rw [WithinMax, WithinMax, hrecords]

theorem mem_passSection {msg : MsgC2SReqExitGame} {r : ℤ × ℤ}
    (hr : r ∈ h.info.records.map (passSection msg.chapterId msg.sectionId)) :
    r ∈ h.info.records ∨
      r = (msg.chapterId, msg.sectionId) ∧ (msg.chapterId, msg.sectionId - 1) ∈ h.info.records := by
  obtain ⟨r0, hr0, rfl⟩ := List.mem_map.1 hr
  rw [passSection]
  split_ifs with hpass
  · obtain ⟨hchapter, hsection⟩ := hpass
    refine .inr ⟨by rw [hchapter], ?_⟩
    have heq : r0 = (msg.chapterId, msg.sectionId - 1) := Prod.ext hchapter (by simp only; omega)
    exact heq ▸ hr0
  · exact .inl hr0

/-- a request keeps the records within the sections exactly when the section it reaches is one -/
theorem RecordStep.withinMax_iff {req : ClientRequest} (hstep : RecordStep cfg h req h') (hmax : WithinMax cfg h) :
    PassesWithin cfg h req ↔ WithinMax cfg h' := by
  cases hstep with
  | refused chapterId hno hrecords =>
    exact iff_of_true (fun config hu => absurd hu (hno config)) ((withinMax_of_same hrecords).1 hmax)
  | left msg hno hrecords =>
    exact iff_of_true (fun herr hsuccess => absurd ⟨herr, hsuccess⟩ hno) ((withinMax_of_same hrecords).1 hmax)
  | other hreq hrecords =>
    refine iff_of_true ?_ ((withinMax_of_same hrecords).1 hmax)
    cases req with
    | exitGame msg => exact absurd trivial hreq
    | request req =>
      cases req with
      | unlockChapter chapterId => exact absurd trivial hreq
      | _ => trivial
    | _ => trivial
  | unlocked chapterId config hu hrecords hgold =>
    constructor
    · intro hok r hr config' hconfig
      rw [hrecords, List.mem_append, List.mem_singleton] at hr
      rcases hr with hr | rfl
      · exact hmax r hr config' hconfig
      · exact hok config' (hu.unique hconfig ▸ hu)
    · intro hmax' config' hu'
      apply hmax' (chapterId, 0) _ config' hu'.configured
      rw [hrecords]
      exact List.mem_append_right _ (List.mem_singleton_self _)
  | passed msg hno hsuccess hrecords =>
    constructor
    · intro hok r hr config hconfig
      rw [hrecords] at hr
      rcases mem_passSection hr with hr | ⟨rfl, hbefore⟩
      · exact hmax r hr config hconfig
      · exact hok hno hsuccess hbefore config hconfig
    · intro hmax' _ _ hbefore config hconfig
      refine hmax' (msg.chapterId, msg.sectionId) ?_ config hconfig
      have hpass : passSection msg.chapterId msg.sectionId (msg.chapterId, msg.sectionId - 1) =
          (msg.chapterId, msg.sectionId) := if_pos ⟨rfl, (sub_add_cancel _ _).symm⟩
      rw [hrecords, ← hpass]
      exact List.mem_map_of_mem hbefore

/-! ## Runs -/

/-- the hero is neither loaded again nor made anew, and every request has a defined result -/
def SameHero (cfg : GameConfig) (s : St) : Op → Prop
  | .client env _ req => Defined cfg { env with serverTime := s.now } s.hero req
  | o => StaysInPlace s o

/-- progress at one step: only a request changes the records -/
def StepProgress (cfg : GameConfig) (out : Outside) (s : St) : Op → Prop
  | .client env ranks req => Progress cfg s.hero req (step cfg out s (.client env ranks req)).hero
  | o => (step cfg out s o).hero.info.records = s.hero.info.records

def StepPassesWithin (cfg : GameConfig) (s : St) : Op → Prop
  | .client _ _ req => PassesWithin cfg s.hero req
  | _ => True

variable {out : Outside} {s : St}

theorem client_recordStep {env : Env} {ranks : RankManager} {req : ClientRequest}
    (hdefined : Defined cfg { env with serverTime := s.now } s.hero req) :
    RecordStep cfg s.hero req (step cfg out s (.client env ranks req)).hero := by
  have hsome := (handleClient_isSome_iff { ranks with dailyGameBeginTime := s.beginTime }).2 hdefined
  obtain ⟨⟨hero, ranks', answers⟩, hr⟩ := Option.isSome_iff_exists.1 hsome
  simp only [step, hr]
  exact handleClient_recordStep hr

theorem sameHero_stays {o : Op} (ho : SameHero cfg s o) (hclient : ∀ env ranks req, o ≠ .client env ranks req) :
    StaysInPlace s o := by
  cases o with
  | client env ranks req => exact absurd rfl (hclient env ranks req)
  | _ => exact ho

/-- a step that is no request leaves the records alone -/
theorem sameHero_records {o : Op} (ho : SameHero cfg s o) (hclient : ∀ env ranks req, o ≠ .client env ranks req) :
    (step cfg out s o).hero.info.records = s.hero.info.records := (step_kept (sameHero_stays ho hclient)).records

theorem distinct_step (s : St) (o : Op) (hdistinct : (chapters s.hero).Nodup) (ho : SameHero cfg s o) :
    (chapters (step cfg out s o).hero).Nodup := by
  by_cases hclient : ∃ env ranks req, o = .client env ranks req
  · obtain ⟨env, ranks, req, rfl⟩ := hclient
    exact (client_recordStep ho).distinct hdistinct
  · push Not at hclient
    exact distinct_of_same (sameHero_records ho hclient) hdistinct

theorem progress_step (s : St) (o : Op) (hdistinct : (chapters s.hero).Nodup) (ho : SameHero cfg s o) :
    StepProgress cfg out s o := by
  cases o with
  | client env ranks req => exact (client_recordStep ho).progress hdistinct
  | _ => exact sameHero_records ho (by simp)

theorem withinMax_step (s : St) (o : Op) (ho : SameHero cfg s o) (hmax : WithinMax cfg s.hero) :
    StepPassesWithin cfg s o ↔ WithinMax cfg (step cfg out s o).hero := by
  cases o with
  | client env ranks req => exact (client_recordStep ho).withinMax_iff hmax
  | _ => exact iff_of_true trivial ((withinMax_of_same (sameHero_records ho (by simp))).1 hmax)

/-- **Chapter progress.** Along every run of a hero from its creation: the records are of different chapters, every step
makes `Progress`, and the records stay within the sections of their chapters exactly when those of the new hero are and
every section that is reached is one. -/
theorem chapter_progress (cfg : GameConfig) (out : Outside) (name : String) (channel : ℤ) (h : DreamHero)
    (row : Option CharacterRow) (now beginTime : ℕ) (ops : List Op)
    (hops : Along (step cfg out) (SameHero cfg) (start cfg name channel h row now beginTime) ops) :
    Along (step cfg out) (StepProgress cfg out) (start cfg name channel h row now beginTime) ops ∧
      (∀ pre, pre <+: ops →
        (chapters (run (step cfg out) (start cfg name channel h row now beginTime) pre).hero).Nodup) ∧
      (WithinMax cfg (loadFromConfig cfg name channel h) ∧
          Along (step cfg out) (StepPassesWithin cfg) (start cfg name channel h row now beginTime) ops ↔
        ∀ pre, pre <+: ops →
          WithinMax cfg (run (step cfg out) (start cfg name channel h row now beginTime) pre).hero) := by
  have hstart : (chapters (start cfg name channel h row now beginTime).hero).Nodup := by
    show [1, 0].Nodup
    decide
  refine ⟨hops.imp distinct_step progress_step hstart, ?_, ?_⟩
  · rintro pre ⟨post, rfl⟩
    exact inv_run distinct_step hstart ((along_append _ _ _ _ _).1 hops).1
  · exact along_iff_under (J := fun s => WithinMax cfg s.hero) (I := fun _ => True) (fun _ _ _ _ => trivial)
      (fun s o _ ho hmax => withinMax_step s o ho hmax) trivial hops

/-- chapter 1 has one section, chapter 2 two; it is unlocked after the first for 5 gold -/
def twoChapters : GameConfig where
  globalConfig := { configGold := 7 }
  getChapterConfigInfo id :=
    if id = 1 then some { requiredChapterId := 1, requiredSectionId := 0, requiredTaskCompleteCount := 0,
                          requireGold := 0, maxSectionCount := 1 }
    else if id = 2 then some { requiredChapterId := 1, requiredSectionId := 1, requiredTaskCompleteCount := 0,
                               requireGold := 5, maxSectionCount := 2 }
    else none

def noRanks : RankManager where
  dailyMaxRankSize := 1
  minDailyScore := 0

/-- chapter 2 is unlocked and its first section passed -/
def unlockAndPass : List Op :=
  [.client {} noRanks (.request (.unlockChapter 2)), .client {} noRanks (.request (.enterGame 2 1 false)),
    .client {} noRanks (.exitGame { chapterId := 2, sectionId := 1, success := true })]

theorem chapter_progress_unlocked :
    let s := start twoChapters "a" 0 {} none 0 0
    Along (step twoChapters plainOutside) (StepProgress twoChapters plainOutside) s unlockAndPass ∧
      (∀ pre, pre <+: unlockAndPass → (chapters (run (step twoChapters plainOutside) s pre).hero).Nodup) ∧
      (WithinMax twoChapters (loadFromConfig twoChapters "a" 0 {}) ∧
          Along (step twoChapters plainOutside) (StepPassesWithin twoChapters) s unlockAndPass ↔
        ∀ pre, pre <+: unlockAndPass → WithinMax twoChapters (run (step twoChapters plainOutside) s pre).hero) := by
  intro s
  exact chapter_progress twoChapters plainOutside "a" 0 {} none 0 0 unlockAndPass ⟨trivial, trivial, trivial, trivial⟩

/-- chapter 1 has one section; a new hero, which has passed it, passes a second one -/
theorem passed_beyond :
    let ops : List Op :=
      [.client {} noRanks (.request (.enterGame 1 2 false)),
        .client {} noRanks (.exitGame { chapterId := 1, sectionId := 2, success := true })]
    ¬ WithinMax twoChapters (run (step twoChapters plainOutside) (start twoChapters "a" 0 {} none 0 0) ops).hero := by
  intro ops hmax
  have hmem : ((1, 2) : ℤ × ℤ) ∈
      (run (step twoChapters plainOutside) (start twoChapters "a" 0 {} none 0 0) ops).hero.info.records := by decide
  have hle := hmax (1, 2) hmem _ rfl
  exact absurd hle (by decide)

end DreamHeroes.Hero.Requests
