/-
The lotions of a hero: no lotion twice, and what an exit takes from them.

- `reqBuyLotion_distinct`, `reqDayLottery_distinct`, `reqExitGame_distinct`: the three handlers that write the lotions
  keep them different. The lottery draws a box of `lotteryBoxes` (`drawBox_mem`), which leaves out the lotions that are
  held.
- `InventoryLaw`: an accepted exit takes away the multiset `use_lotions`, which the hero holds, and one that is not held
  is rejected. `inventoryLaw_iff`: the check looks for every lotion in the whole inventory, so the law holds when an
  accepted exit names no lotion twice, and only then.
- `lotions_iff`: every run from an empty inventory, saved and loaded rows included. `used_twice` uses one lotion twice.
-/
import Mathlib.Tactic
import DreamHeroes.Lib.Machine
import DreamHeroes.Hero.Kept
import DreamHeroes.Hero.RoundTrip

namespace DreamHeroes.Hero.Requests

open DreamHeroes.Lib DreamHeroes.Config DreamHeroes.Rank

variable {cfg : GameConfig} {env : Env} {h h' : DreamHero}

/-! ## The inventory is a set -/

theorem nodup_snoc {l : List ℤ} (hl : l.Nodup) {id : ℤ} (hnew : id ∉ l) : (l ++ [id]).Nodup :=
  hl.append (List.nodup_singleton id) (List.disjoint_singleton.2 hnew)

theorem reqBuyLotion_distinct (hl : h.info.lotions.Nodup) (lotionId : ℤ) :
    (reqBuyLotion cfg h lotionId).1.info.lotions.Nodup := by
  simp only [reqBuyLotion]
  split
  case isFalse => exact hl
  case isTrue =>
    cases cfg.getLotionShop lotionId with
    | none => exact hl
    | some shopConfig =>
      dsimp only
      split
      case isTrue => exact hl
      case isFalse hnew =>
        obtain ⟨useType, useCount⟩ := shopConfig
        cases useType with
        | _ =>
          dsimp only
          split_ifs
          · exact hl
          · exact nodup_snoc hl hnew

theorem mem_ratedBoxes {boxes : List LotteryDrawBoxConfig} {e : ℤ × LotteryDrawBoxConfig}
    (he : e ∈ (ratedBoxes boxes).1.toList) : e.2 ∈ boxes := by
  have hget := Std.TreeMap.mem_toList_iff_getElem?_eq_some.1 he
  obtain ⟨i, hbox, -⟩ := (get_ratedBoxes boxes e.1 e.2).1 hget
  exact List.mem_of_getElem? hbox

/-- the walk over the map ends at a box -/
theorem drawBox_mem {boxes : List LotteryDrawBoxConfig} {entry : LotteryDrawBoxConfig} (hentry : entry ∈ boxes)
    (draw : ℤ) : drawBox entry (ratedBoxes boxes).1 draw ∈ boxes := by
  have hwalk (l : List (ℤ × LotteryDrawBoxConfig)) (hl : ∀ e ∈ l, e.2 ∈ boxes) :
      ∀ first ∈ boxes, l.foldl (fun _ e => e.2) first ∈ boxes := by
    induction l with
    | nil => exact fun first hfirst => hfirst
    | cons e l ih =>
      intro first _
      exact ih (fun e' he' => hl e' (List.mem_cons_of_mem e he')) e.2 (hl e List.mem_cons_self)
  refine hwalk _ ?_ entry hentry
  intro e he
  exact mem_ratedBoxes ((List.takeWhile_prefix _).subset he)

/-- a box of a lotion that is held is not drawn -/
theorem not_held_of_lotteryBoxes {box : LotteryDrawBoxConfig} (hbox : box ∈ lotteryBoxes cfg h)
    (hlotion : box.lotteryType = .lotion) : box.subIndex ∉ h.info.lotions := by
  intro hheld
  have hkept := (List.mem_filter.1 hbox).2
  simp [hlotion, hheld] at hkept

theorem lotteryPrize_distinct (hl : h.info.lotions.Nodup) {entry : LotteryDrawBoxConfig}
    (hentry : entry.lotteryType = .lotion → entry.subIndex ∉ h.info.lotions) :
    (lotteryPrize env h entry).1.info.lotions.Nodup := by
  simp only [lotteryPrize]
  cases htype : entry.lotteryType with
  | lotion =>
    dsimp only
    split_ifs
    · exact nodup_snoc hl (hentry htype)
    · exact hl
  | _ => exact hl

theorem reqDayLottery_distinct (hl : h.info.lotions.Nodup) : (reqDayLottery cfg env h).1.info.lotions.Nodup := by
  simp only [reqDayLottery]
  split
  case isFalse => exact hl
  case isTrue =>
    cases hboxes : lotteryBoxes cfg h with
    | nil => exact hl
    | cons entry boxes =>
      dsimp only
      split
      case isFalse => exact hl
      case isTrue =>
        refine lotteryPrize_distinct (h := { h with lastDayLotteryTime := u32 env.serverTime }) hl ?_
        intro hlotion
        have hdrawn := drawBox_mem (List.mem_cons_self (a := entry) (l := boxes))
          (env.rand 0 % (ratedBoxes (entry :: boxes)).2)
        have hbox : drawBox entry (ratedBoxes (entry :: boxes)).1 (env.rand 0 % (ratedBoxes (entry :: boxes)).2) ∈
            lotteryBoxes cfg h := hboxes ▸ hdrawn
        exact not_held_of_lotteryBoxes hbox hlotion

theorem reqExitGame_lotions (hno : exitError h msg = .no) :
    (reqExitGame cfg h msg).1.info.lotions = h.info.lotions.filter fun lotion => lotion ∉ msg.useLotions := by
  rw [reqExitGame_accepted hno]
  exact settle_lotions

theorem reqExitGame_distinct (hl : h.info.lotions.Nodup) (msg : MsgC2SReqExitGame) :
    (reqExitGame cfg h msg).1.info.lotions.Nodup := by
  by_cases hno : exitError h msg = .no
  · rw [reqExitGame_lotions hno]
    exact hl.filter _
  · rw [reqExitGame_rejected hno]
    exact hl

theorem handleClient_distinct {ranks ranks' : RankManager} {req : ClientRequest} {answers : List Answer}
    (hl : h.info.lotions.Nodup) (hr : handleClient cfg env ranks h req = some (h', ranks', answers)) :
    h'.info.lotions.Nodup := by
  by_cases hreq : req.WritesLotions
  · cases req with
    | exitGame msg =>
      cases hr
      exact reqExitGame_distinct hl msg
    | request req =>
      cases req with
      | dayLottery =>
        cases hr
        exact reqDayLottery_distinct hl
      | buyLotion lotionId =>
        cases hr
        exact reqBuyLotion_distinct hl lotionId
      | _ => exact hreq.elim
    | _ => exact hreq.elim
  · rw [handleClient_lotions hr hreq]
    exact hl

/-! ## The exit -/

structure InventoryLaw (cfg : GameConfig) (h : DreamHero) (msg : MsgC2SReqExitGame) : Prop where
  contained : (reqExitGame cfg h msg).2.error = .no → (msg.useLotions : Multiset ℤ) ≤ h.info.lotions
  removed : (reqExitGame cfg h msg).2.error = .no →
    ((reqExitGame cfg h msg).1.info.lotions : Multiset ℤ) = (h.info.lotions : Multiset ℤ) - msg.useLotions
  rejected : ¬ (msg.useLotions : Multiset ℤ) ≤ h.info.lotions → (reqExitGame cfg h msg).2.error ≠ .no

/-- an exit of the entered instance with lotions that are all held names none of them twice -/
def UsesOnce (h : DreamHero) (msg : MsgC2SReqExitGame) : Prop :=
  exitError h msg = .no → msg.useLotions.Nodup

theorem inventoryLaw_iff (hl : h.info.lotions.Nodup) (msg : MsgC2SReqExitGame) :
    UsesOnce h msg ↔ InventoryLaw cfg h msg := by
  constructor
  · intro honce
    have hcontained (hno : exitError h msg = .no) : (msg.useLotions : Multiset ℤ) ≤ h.info.lotions := by
      obtain ⟨-, -, -, hheld⟩ := exitError_eq_no hno
      exact Multiset.coe_le.2 ((honce hno).subperm hheld)
    constructor
    case contained => exact fun hno => hcontained (reqExitGame_error.symm.trans hno)
    case rejected => exact fun hnot hno => hnot (hcontained (reqExitGame_error.symm.trans hno))
    case removed =>
      intro hno
      rw [reqExitGame_lotions (reqExitGame_error.symm.trans hno), Multiset.coe_sub, hl.sdiff_eq_filter]
  · intro hlaw hno
    have hcontained := hlaw.contained (reqExitGame_error.trans hno)
    exact Multiset.coe_nodup.1 (Multiset.nodup_of_le hcontained (Multiset.coe_nodup.2 hl))

/-! ## Runs -/

/-- every request has a defined result -/
def DefinedOp (cfg : GameConfig) (s : St) : Op → Prop
  | .client env _ req => Defined cfg { env with serverTime := s.now } s.hero req
  | _ => True

def StepUsesOnce (s : St) : Op → Prop
  | .client _ _ (.exitGame msg) => UsesOnce s.hero msg
  | _ => True

def StepLaw (cfg : GameConfig) (s : St) : Op → Prop
  | .client _ _ (.exitGame msg) => InventoryLaw cfg s.hero msg
  | _ => True

/-- in memory and in the row, no lotion twice -/
structure LotionInv (s : St) : Prop where
  hero : s.hero.info.lotions.Nodup
  row : ∀ row, s.row = some row → (readLotions row.lotions).Nodup

variable {out : Outside}

theorem loadHero_lotions {s : St} (hs : LotionInv s) (name : String) (channel : ℤ) :
    (loadHero cfg out s name channel).info.lotions.Nodup := by
  rw [loadHero]
  cases hrow : s.row with
  | none => exact List.nodup_nil
  | some row =>
    have hlists :=
      setInfo_lists cfg out.spiritRecovery s.now s.beginTime channel (dbDoQueryHeroInfo out.unixTimestamp row)
    dsimp only at hlists ⊢
    rw [hlists.2.2.2.1]
    exact hs.row row hrow

theorem command_lotions {cmd : Command} (hl : h.info.lotions.Nodup) : (command cfg env h cmd).info.lotions.Nodup := by
  by_cases hcmd : h.gmLevel > 0 → cmd.KeepsHero
  · rw [(command_kept hcmd).lotions]
    exact hl
  · push Not at hcmd
    rw [command, if_pos hcmd.1]
    cases cmd with
    | resetGame name => exact List.nodup_nil
    | _ => exact absurd trivial hcmd.2

theorem lotionInv_step (s : St) (o : Op) (hs : LotionInv s) : LotionInv (step cfg out s o) := by
  cases o with
  | client env ranks req =>
    rw [step]
    split
    case h_1 hero _ answers hr => exact ⟨handleClient_distinct hs.hero hr, hs.row⟩
    case h_2 => exact hs
  | command env cmd => exact ⟨command_lotions hs.hero, hs.row⟩
  | reload env name channel =>
    refine ⟨?_, hs.row⟩
    rw [step, (dayRefresh_kept (h := loadHero cfg out s name channel)).lotions]
    exact loadHero_lotions hs name channel
  | saveHero =>
    refine ⟨hs.hero, ?_⟩
    intro row hrow
    cases hrow
    have hread : readLotions (characterRow out.time s.hero).lotions = s.hero.info.lotions := read_lotions _
    exact hread ▸ hs.hero
  | offlinePrize beginTime prizeGold =>
    refine ⟨hs.hero, ?_⟩
    intro row hrow
    obtain ⟨row', hrow', rfl⟩ := Option.map_eq_some_iff.1 hrow
    exact hs.row row' hrow'
  | dayRefresh env =>
    refine ⟨?_, hs.row⟩
    rw [(step_kept (o := .dayRefresh env) trivial).lotions]
    exact hs.hero
  | dailyGameUpdate prize =>
    refine ⟨?_, hs.row⟩
    rw [(step_kept (o := .dailyGameUpdate prize) trivial).lotions]
    exact hs.hero
  | _ => exact ⟨hs.hero, hs.row⟩

/-- **The lotions.** Along every run from an empty inventory no lotion is held twice, and every exit obeys the law of
the inventory exactly when every accepted exit of the run names no lotion twice. -/
theorem lotions_iff (cfg : GameConfig) (out : Outside) (s : St) (hempty : s.hero.info.lotions = [])
    (hrow : ∀ row, s.row = some row → readLotions row.lotions = []) (ops : List Op)
    (hops : Along (step cfg out) (DefinedOp cfg) s ops) :
    (∀ pre, pre <+: ops → (run (step cfg out) s pre).hero.info.lotions.Nodup) ∧
      (Along (step cfg out) StepUsesOnce s ops ↔ Along (step cfg out) (StepLaw cfg) s ops) := by
  have hstart : LotionInv s := by
    constructor
    case hero =>
      rw [hempty]
      exact List.nodup_nil
    case row =>
      intro row hsome
      rw [hrow row hsome]
      exact List.nodup_nil
  constructor
  · intro pre _
    exact (inv_run_all lotionInv_step pre hstart).hero
  · refine along_iff_steps (fun s o hs _ _ => lotionInv_step s o hs) ?_ hstart hops
    intro s o hs _
    cases o with
    | client env ranks req =>
      cases req with
      | exitGame msg => exact inventoryLaw_iff hs.hero msg
      | _ => exact Iff.rfl
    | _ => exact Iff.rfl

/-- lotions for nothing -/
def freeLotions : GameConfig where
  getLotionShop id := if id = 1 ∨ id = 2 then some { useType := .gold, useCount := 0 } else none

/-- two lotions are bought, and one of them used -/
theorem lotions_used :
    let ranks : RankManager := { dailyMaxRankSize := 1, minDailyScore := 0 }
    let ops : List Op :=
      [.client {} ranks (.request (.buyLotion 1)), .client {} ranks (.request (.buyLotion 2)),
        .client {} ranks (.request (.enterGame 1 1 false)),
        .client {} ranks (.exitGame { chapterId := 1, sectionId := 1, useLotions := [2] })]
    let s := start freeLotions "a" 0 {} none 0 0
    (∀ pre, pre <+: ops → (run (step freeLotions plainOutside) s pre).hero.info.lotions.Nodup) ∧
      (Along (step freeLotions plainOutside) StepUsesOnce s ops ↔
        Along (step freeLotions plainOutside) (StepLaw freeLotions) s ops) := by
  intro ranks ops s
  exact lotions_iff freeLotions plainOutside s rfl (by simp [s, start]) ops ⟨trivial, trivial, trivial,
    trivial, trivial⟩

/-- a hero with one lotion uses it twice -/
theorem used_twice :
    let msg : MsgC2SReqExitGame := { chapterId := 1, sectionId := 1, useLotions := [1, 1] }
    let ranks : RankManager := { dailyMaxRankSize := 1, minDailyScore := 0 }
    let ops : List Op :=
      [.client {} ranks (.request (.buyLotion 1)), .client {} ranks (.request (.enterGame 1 1 false)),
        .client {} ranks (.exitGame msg)]
    ¬ Along (step freeLotions plainOutside) (StepLaw freeLotions) (start freeLotions "a" 0 {} none 0 0) ops := by
  intro msg ranks ops hlaw
  have hexit := hlaw.2.2.1
  have hle := Multiset.card_le_card (hexit.contained (by decide))
  exact absurd hle (by decide)

end DreamHeroes.Hero.Requests
