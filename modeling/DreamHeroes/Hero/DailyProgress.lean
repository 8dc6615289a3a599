/-
The progress of the daily game: runs of `ReqUpdateDailyGameProgress` within one period.

- `Op`, `step`, `St`: the runs. Each message finds a rank list of its own, with the begin time and the greatest progress
  of the period. `reached` is the greatest progress the hero has had.
- `StepRight`: a message leaves the progress, adds one, or sets it to the one behind the record; that needs hit points,
  before and in the message. The top does not fall.
- `ProgressInv`: the progress is within its bounds and the top is not below what has been reached (`progressInv_step`).
- `TopNamed`: an accepted message without hit points names no progress above the top. Along such messages the top is
  what has been reached.
- `daily_progress`: all of it, for every run. `progress_restarts`: a message that names 1 takes a hero from 2 back to 1.

The record progress is 0: `set_info` and the loading from the configuration set it so, and what would raise it is
commented out.
-/
import Mathlib.Tactic
import DreamHeroes.Lib.Machine
import DreamHeroes.Hero.ClientRequests

namespace DreamHeroes.Hero.Progress

open DreamHeroes.Lib DreamHeroes.Rank DreamHeroes.Hero.Requests

/-! ## Runs -/

structure St where
  hero : DreamHero
  reached : ℤ

structure Op where
  serverTime : ℕ
  ranks : RankManager
  msg : MsgC2SReqUpdateDailyGameProgress

def handle (s : St) (op : Op) : DreamHero := (reqUpdateDailyGameProgress op.serverTime op.ranks s.hero op.msg).1

def step (s : St) (op : Op) : St where
  hero := handle s op
  reached := max s.reached (handle s op).info.dailyGameProgress

/-- the messages of one period -/
structure InPeriod (beginTime : ℕ) (maxProgress : ℤ) (op : Op) : Prop where
  time : op.ranks.dailyGameBeginTime = beginTime
  max : op.ranks.maxDailyProgress = maxProgress

/-! ## What a message does -/

structure StepRight (s : St) (op : Op) : Prop where
  progress : (step s op).hero.info.dailyGameProgress = s.hero.info.dailyGameProgress ∨
    ((step s op).hero.info.dailyGameProgress = s.hero.info.dailyGameProgress + 1 ∨
        (step s op).hero.info.dailyGameProgress = s.hero.info.dailyGameRecordProgress + 1) ∧
      0 < s.hero.info.dailyGameHpPct ∧ 0 < op.msg.hpPct
  top : s.hero.info.dailyTopGrogress ≤ (step s op).hero.info.dailyTopGrogress

def TopNamed (s : St) (op : Op) : Prop :=
  updateProgressError op.ranks s.hero op.msg = .no → op.msg.hpPct ≤ 0 →
    op.msg.dailyGameProgress ≤ s.hero.info.dailyTopGrogress

structure ProgressInv (beginTime : ℕ) (maxProgress : ℤ) (s : St) : Prop where
  begun : s.hero.dailyGameTime = beginTime
  record : s.hero.info.dailyGameRecordProgress = 0
  nonneg : 0 ≤ s.hero.info.dailyGameProgress
  le_max : s.hero.info.dailyGameProgress ≤ maxProgress
  le_reached : s.hero.info.dailyGameProgress ≤ s.reached
  reached_le : s.reached ≤ s.hero.info.dailyTopGrogress

variable {beginTime : ℕ} {maxProgress : ℤ} {s : St} {op : Op}

/-- the period has begun, so the message is tested at once -/
theorem handle_eq (h : ProgressInv beginTime maxProgress s) (hop : InPeriod beginTime maxProgress op) :
    handle s op = if updateProgressError op.ranks s.hero op.msg = .no then recordProgress s.hero op.msg
      else s.hero := by
  have hbegin : beginDailyGame op.ranks s.hero = s.hero := by
    rw [beginDailyGame, if_neg]
    rw [hop.time, h.begun, ne_eq, not_not]
  rw [handle, reqUpdateDailyGameProgress, hbegin]
  split_ifs with hno
  · rw [hno]
  · cases herror : updateProgressError op.ranks s.hero op.msg <;> first | exact absurd herror hno | rfl

/-- the tests of an accepted message -/
theorem accepted {ranks : RankManager} {h : DreamHero} {msg : MsgC2SReqUpdateDailyGameProgress}
    (hno : updateProgressError ranks h msg = .no) :
    h.info.dailyGameProgress ≠ ranks.maxDailyProgress ∧ 0 < h.info.dailyGameHpPct ∧
      (0 < msg.hpPct → msg.dailyGameProgress = h.info.dailyGameProgress + 1 ∨
        msg.dailyGameProgress = h.info.dailyGameRecordProgress + 1) := by
  simp only [updateProgressError] at hno
  split_ifs at hno with hmax hzero hpct hreported hprogress hprogress
  · exact ⟨hmax, hpct, fun _ => hprogress.imp_left Eq.symm⟩
  · exact ⟨hmax, hpct, fun hpos => absurd hpos hreported⟩

/-- what of the hero a message can change here -/
structure Changed (h h' : DreamHero) (progress top : ℤ) : Prop where
  progress : h'.info.dailyGameProgress = progress
  top : h'.info.dailyTopGrogress = top
  record : h'.info.dailyGameRecordProgress = h.info.dailyGameRecordProgress
  time : h'.dailyGameTime = h.dailyGameTime

/-- a message is rejected, or accepted without hit points, or accepted with them -/
theorem step_cases (h : ProgressInv beginTime maxProgress s) (hop : InPeriod beginTime maxProgress op) :
    (updateProgressError op.ranks s.hero op.msg ≠ .no ∧
        Changed s.hero (step s op).hero s.hero.info.dailyGameProgress s.hero.info.dailyTopGrogress) ∨
      (updateProgressError op.ranks s.hero op.msg = .no ∧ op.msg.hpPct ≤ 0 ∧
        Changed s.hero (step s op).hero s.hero.info.dailyGameProgress
          (max s.hero.info.dailyTopGrogress op.msg.dailyGameProgress)) ∨
      (s.hero.info.dailyGameProgress ≠ maxProgress ∧ 0 < s.hero.info.dailyGameHpPct ∧ 0 < op.msg.hpPct ∧
        (op.msg.dailyGameProgress = s.hero.info.dailyGameProgress + 1 ∨
          op.msg.dailyGameProgress = s.hero.info.dailyGameRecordProgress + 1) ∧
        Changed s.hero (step s op).hero op.msg.dailyGameProgress
          (max s.hero.info.dailyTopGrogress op.msg.dailyGameProgress)) := by
  have hstep : (step s op).hero = _ := handle_eq h hop
  by_cases hno : updateProgressError op.ranks s.hero op.msg = .no
  · right
    rw [if_pos hno] at hstep
    obtain ⟨hmax, hpct, hnamed⟩ := accepted hno
    rw [hstep]
    by_cases hpos : 0 < op.msg.hpPct
    · exact .inr ⟨hop.max ▸ hmax, hpct, hpos, hnamed hpos, ⟨if_pos hpos, rfl, rfl, rfl⟩⟩
    · exact .inl ⟨hno, not_lt.1 hpos, ⟨if_neg hpos, rfl, rfl, rfl⟩⟩
  · left
    rw [if_neg hno] at hstep
    rw [hstep]
    exact ⟨hno, ⟨rfl, rfl, rfl, rfl⟩⟩

/-! ## One step -/

theorem stepRight (h : ProgressInv beginTime maxProgress s) (hop : InPeriod beginTime maxProgress op) :
    StepRight s op := by
  rcases step_cases h hop with ⟨-, hsame⟩ | ⟨-, -, hsame⟩ | ⟨-, hpct, hpos, hnamed, hchanged⟩
  · exact ⟨.inl hsame.progress, hsame.top.ge⟩
  · exact ⟨.inl hsame.progress, hsame.top ▸ le_max_left _ _⟩
  · refine ⟨.inr ⟨?_, hpct, hpos⟩, hchanged.top ▸ le_max_left _ _⟩
    rw [hchanged.progress]
    exact hnamed

theorem progressInv_step (h : ProgressInv beginTime maxProgress s) (hop : InPeriod beginTime maxProgress op) :
    ProgressInv beginTime maxProgress (step s op) := by
  have hreached : (step s op).reached = max s.reached (step s op).hero.info.dailyGameProgress := rfl
  have hnonneg := h.nonneg
  have hmax := h.le_max
  have hle := h.le_reached
  have htop := h.reached_le
  have hrecord := h.record
  rcases step_cases h hop with ⟨-, hc⟩ | ⟨-, -, hc⟩ | ⟨hne, -, -, hnamed, hc⟩
  all_goals
    refine ⟨hc.time.trans h.begun, hc.record.trans h.record, ?_, ?_, ?_, ?_⟩
    all_goals
      simp only [hreached, hc.progress, hc.top]
      omega

/-- without hit points nothing is reached, and what is named is not above the top -/
theorem top_step (h : ProgressInv beginTime maxProgress s) (hop : InPeriod beginTime maxProgress op)
    (hnamed : TopNamed s op) (heq : s.hero.info.dailyTopGrogress = s.reached) :
    (step s op).hero.info.dailyTopGrogress = (step s op).reached := by
  have hreached : (step s op).reached = max s.reached (step s op).hero.info.dailyGameProgress := rfl
  have hle := h.le_reached
  rcases step_cases h hop with ⟨-, hc⟩ | ⟨hno, hpct, hc⟩ | ⟨-, -, -, -, hc⟩
  · rw [hreached, hc.progress, hc.top]
    omega
  · have htop := hnamed hno hpct
    rw [hreached, hc.progress, hc.top]
    omega
  · rw [hreached, hc.progress, hc.top, heq]

/-! ## Runs -/

/-- **Daily game.** In every run of messages within a period, from a hero with a progress up to the greatest one: each
message leaves the progress, adds one or sets it to the one behind the record, the last two only with hit points before
and in the message; the progress stays within its bounds; the top does not fall and is never below what has been
reached; and along messages that name nothing above the top without hit points it is what has been reached. -/
theorem daily_progress (beginTime : ℕ) (maxProgress : ℤ) (h : DreamHero) (ops : List Op)
    (hbegun : h.dailyGameTime = beginTime)
    (hrecord : h.info.dailyGameRecordProgress = 0) (hnonneg : 0 ≤ h.info.dailyGameProgress)
    (hmax : h.info.dailyGameProgress ≤ maxProgress) (htop : h.info.dailyGameProgress ≤ h.info.dailyTopGrogress)
    (hops : ∀ op ∈ ops, InPeriod beginTime maxProgress op) :
    Along step StepRight { hero := h, reached := h.info.dailyTopGrogress } ops ∧
      ∀ pre, pre <+: ops →
        let s := run step { hero := h, reached := h.info.dailyTopGrogress } pre
        s.hero.info.dailyGameProgress ≤ maxProgress ∧ s.reached ≤ s.hero.info.dailyTopGrogress ∧
          (Along step TopNamed { hero := h, reached := h.info.dailyTopGrogress } pre →
            s.hero.info.dailyTopGrogress = s.reached) := by
  have hstart : ProgressInv beginTime maxProgress { hero := h, reached := h.info.dailyTopGrogress } :=
    ⟨hbegun, hrecord, hnonneg, hmax, htop, le_rfl⟩
  have hperiod (ops : List Op) (hops : ∀ op ∈ ops, InPeriod beginTime maxProgress op) (s : St) :
      Along step (fun _ op => InPeriod beginTime maxProgress op) s ops := Along.of_forall s ops fun _ => hops
  refine ⟨(hperiod ops hops _).imp (fun s op => progressInv_step) (fun s op => stepRight) hstart, ?_⟩
  intro pre hpre
  have hpreops : ∀ op ∈ pre, InPeriod beginTime maxProgress op := fun op hop => hops op (hpre.subset hop)
  have hinv := inv_run (fun s op => progressInv_step) hstart (hperiod pre hpreops _)
  refine ⟨hinv.le_max, hinv.reached_le, ?_⟩
  intro hnamed
  have hboth := (along_and step _ _ _ pre).2 ⟨hperiod pre hpreops _, hnamed⟩
  exact (inv_run (I := fun s => ProgressInv beginTime maxProgress s ∧ s.hero.info.dailyTopGrogress = s.reached)
    (fun s op hs hop => ⟨progressInv_step hs.1 hop.1, top_step hs.1 hop.1 hop.2 hs.2⟩) ⟨hstart, rfl⟩ hboth).2

def dailyRanks : RankManager where
  dailyMaxRankSize := 100
  minDailyScore := 0
  dailyGameBeginTime := 1767312000
  maxDailyProgress := 30

def dailyHero : DreamHero where
  dailyGameTime := 1767312000
  info := { dailyGameHpPct := 100 }

/-- a message that names a progress, with half of the hit points -/
def progressTo (progress : ℤ) : Op where
  serverTime := 1767315600
  ranks := dailyRanks
  msg := { dailyGameProgress := progress, score := 10, hpPct := 50, anger := 0 }

/-- the witness: the progress 1, then 2, then 1 -/
theorem daily_progress_three :
    Along step StepRight { hero := dailyHero, reached := 0 } [progressTo 1, progressTo 2, progressTo 1] ∧
      ∀ pre, pre <+: [progressTo 1, progressTo 2, progressTo 1] →
        let s := run step { hero := dailyHero, reached := 0 } pre
        s.hero.info.dailyGameProgress ≤ 30 ∧ s.reached ≤ s.hero.info.dailyTopGrogress ∧
          (Along step TopNamed { hero := dailyHero, reached := 0 } pre → s.hero.info.dailyTopGrogress = s.reached) := by
  refine daily_progress 1767312000 30 dailyHero [progressTo 1, progressTo 2, progressTo 1] rfl rfl
    (by decide) (by decide)
    (by decide) ?_
  intro op hop
  simp only [List.mem_cons, List.not_mem_nil, or_false] at hop
  rcases hop with rfl | rfl | rfl <;> exact ⟨rfl, rfl⟩

/-- the third message takes the hero back from 2 to 1 -/
theorem progress_restarts :
    ¬Along step (fun s op => (step s op).hero.info.dailyGameProgress = s.hero.info.dailyGameProgress ∨
        (step s op).hero.info.dailyGameProgress = s.hero.info.dailyGameProgress + 1)
      { hero := dailyHero, reached := 0 } [progressTo 1, progressTo 2, progressTo 1] := by
  rintro ⟨-, -, hback, -⟩
  have htwo :
    (run step { hero := dailyHero, reached := 0 } [progressTo 1, progressTo 2]).hero.info.dailyGameProgress = 2 := rfl
  have hone : (run step { hero := dailyHero, reached := 0 }
    [progressTo 1, progressTo 2, progressTo 1]).hero.info.dailyGameProgress = 1 := rfl
  simp only [run_cons, run_nil] at htwo hone
  omega

end DreamHeroes.Hero.Progress
