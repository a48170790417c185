import YaskawaComms.Server.Calls
import Mathlib.Algebra.Order.Archimedean.Real.Basic
import Mathlib.Tactic.Linarith
import Mathlib.Tactic.NormNum

/-!
# The resolution of the idle check

`time()` returns whole seconds while the timeout is given in milliseconds. The difference of two
such readings can exceed the time between them by almost a second.
-/

namespace YaskawaComms.Server

/-- The reading of `time()` at an instant, in seconds. -/
noncomputable def timeAt (instant : ℝ) : Int := ⌊instant⌋

/-- The verdict of `timeout_thread_func` at one instant on a client whose `last_command` was stored
at another one. -/
noncomputable def foundIdle (cfg : ServerConfig) (s : Shared) (last now : ℝ) : Bool :=
  Shared.judgeIdle cfg { s with ctx.client.lastCommand := timeAt last } (timeAt now)

/-- So many milliseconds have gone by. -/
def Elapsed (ms : Nat) (last now : ℝ) : Prop := (ms : ℝ) / 1000 ≤ now - last

variable {cfg : ServerConfig} {s : Shared} {last now : ℝ}

theorem Shared.time_eq_timeAt (s : Shared) : s.time = timeAt ((s.clock : ℝ) / 1000) := by
  have hfloor : ⌊(s.clock : ℝ) / (1000 : ℕ)⌋ = (s.clock : ℤ) / (1000 : ℕ) := by
    rw [Int.floor_div_natCast, Int.floor_natCast]
  exact hfloor.symm

theorem foundIdle_iff : foundIdle cfg s last now = true ↔ s.ctx.client.connected = true ∧
    (cfg.connectionTimeoutMs.toNat : ℤ) < 1000 * (timeAt now - timeAt last) := by
  simp [foundIdle, Shared.judgeIdle]

theorem timeAt_sub_lt (last now : ℝ) : ((timeAt now - timeAt last : ℤ) : ℝ) < now - last + 1 := by
  have hnow : (timeAt now : ℝ) ≤ now := Int.floor_le now
  have hlast : last < timeAt last + 1 := Int.lt_floor_add_one last
  rw [Int.cast_sub]
  linarith

theorem foundIdle_early {timeout : Nat} (htimeout : cfg.connectionTimeoutMs.toNat = timeout)
    (hrest : timeout % 1000 ≠ 0) (hconnected : s.ctx.client.connected = true) :
    ∃ last now, foundIdle cfg s last now = true ∧ ¬ Elapsed timeout last now := by
  have hsplit := Nat.div_add_mod timeout 1000
  have hless : timeout % 1000 < 1000 := Nat.mod_lt _ (by decide)
  generalize timeout / 1000 = seconds at hsplit
  generalize timeout % 1000 = rest at hsplit hless hrest
  have hpos : (0 : ℝ) < rest := by exact_mod_cast Nat.pos_of_ne_zero hrest
  have hbound : (rest : ℝ) < 1000 := by exact_mod_cast hless
  have hlast : timeAt (1 - (rest : ℝ) / 2000) = 0 := by
    rw [timeAt, Int.floor_eq_iff, Int.cast_zero]
    constructor <;> linarith
  have hnow : timeAt ((seconds + 1 : ℤ) : ℝ) = seconds + 1 := Int.floor_intCast _
  refine ⟨1 - (rest : ℝ) / 2000, ((seconds + 1 : ℤ) : ℝ), foundIdle_iff.mpr ⟨hconnected, ?_⟩, ?_⟩
  · rw [htimeout, hnow, hlast]
    omega
  · have hms : (timeout : ℝ) = 1000 * seconds + rest := by exact_mod_cast hsplit.symm
    rw [Elapsed, hms]
    push_cast
    linarith

/-- Every client found idle has been so for the timeout, exactly if the timeout is a number of whole
seconds. -/
theorem foundIdle_elapsed_iff (cfg : ServerConfig) :
    (∀ (s : Shared) (last now : ℝ), foundIdle cfg s last now = true →
        Elapsed cfg.connectionTimeoutMs.toNat last now) ↔
      1000 ∣ cfg.connectionTimeoutMs.toNat := by
  constructor
  · intro hsound
    by_contra hdvd
    let s : Shared :=
      ⟨⟨4, 5, 1, 1, 2, { ClientInfo.cleared with connected := true }⟩, 0, 1, ⟨0, [], false⟩, []⟩
    obtain ⟨last, now, hidle, hshort⟩ : ∃ last now, foundIdle cfg s last now = true ∧
        ¬ Elapsed cfg.connectionTimeoutMs.toNat last now :=
      foundIdle_early rfl (fun hzero => hdvd (Nat.dvd_of_mod_eq_zero hzero)) rfl
    exact hshort (hsound s last now hidle)
  · rintro ⟨seconds, htimeout⟩ s last now hidle
    obtain ⟨-, hlt⟩ := foundIdle_iff.mp hidle
    rw [htimeout] at hlt ⊢
    have hwhole : (seconds : ℤ) + 1 ≤ timeAt now - timeAt last := by
      push_cast at hlt
      omega
    have hreal : (seconds : ℝ) + 1 ≤ ((timeAt now - timeAt last : ℤ) : ℝ) := by exact_mod_cast hwhole
    have hclose := timeAt_sub_lt last now
    have hms : ((1000 * seconds : ℕ) : ℝ) / 1000 = seconds := by
      push_cast
      ring
    rw [Elapsed, hms]
    linarith

/-- With a timeout of a second and a half, a client is dropped after 1.1 seconds. -/
theorem foundIdle_too_early :
    ∃ (cfg : ServerConfig) (s : Shared) (last now : ℝ), foundIdle cfg s last now = true ∧
      ¬ Elapsed cfg.connectionTimeoutMs.toNat last now := by
  let s : Shared :=
    ⟨⟨4, 5, 1, 1, 2, { ClientInfo.cleared with connected := true }⟩, 0, 1, ⟨0, [], false⟩, []⟩
  have hlast : timeAt 0.9 = 0 := by
    rw [timeAt, Int.floor_eq_iff]
    norm_num
  have hnow : timeAt 2 = 2 := Int.floor_ofNat 2
  have hms : (1500 : UInt32).toNat = 1500 := rfl
  refine ⟨{ plainConfig with connectionTimeoutMs := 1500 }, s, 0.9, 2, ?_, ?_⟩
  · rw [foundIdle_iff, hlast, hnow]
    exact ⟨rfl, by decide⟩
  · rw [Elapsed, hms]
    norm_num

end YaskawaComms.Server
