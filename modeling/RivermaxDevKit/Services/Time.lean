import Mathlib.Algebra.Order.Floor.Semifield
import Mathlib.Data.Rat.Floor
import RivermaxDevKit.Services.Definitions

/-!
# Time to RTP timestamp

`time_to_rtp_timestamp` (`rt_threads.cpp`), on exact rationals.

* `floor_timeToRtpTimestamp` — the integer timestamp of a time: its whole ticks,
  five ticks early, modulo `2 ^ 32`.
-/

namespace RivermaxDevKit

/-- `std::fmod`: the remainder has the sign of the dividend. -/
def fmod (x m : ℚ) : ℚ :=
  if 0 ≤ x / m then x - m * ⌊x / m⌋ else x - m * ⌈x / m⌉

/-- `time_to_rtp_timestamp`: five ticks early, modulo `2 ^ 32`. -/
def timeToRtpTimestamp (timeNs : ℚ) (sampleRate : Nat) : ℚ :=
  let timeSec := timeNs / NS_IN_SEC
  let timestamp := timeSec * sampleRate
  fmod (timestamp - 5) 0x100000000

/-- The whole part of a remainder is the remainder of the whole part. -/
theorem floor_fmod {x : ℚ} (hx : 0 ≤ x) (m : Nat) : ⌊fmod x m⌋₊ = ⌊x⌋₊ % m := by
  have hQuotient : 0 ≤ x / m := div_nonneg hx (Nat.cast_nonneg m)
  have hFloor : (⌊x / (m : ℚ)⌋ : ℚ) = ((⌊x⌋₊ / m : Nat) : ℚ) := by
    rw [← Nat.floor_div_natCast, natCast_floor_eq_intCast_floor hQuotient]
  rw [fmod, if_pos hQuotient, hFloor, ← Nat.cast_mul, Nat.floor_sub_natCast]
  exact (Nat.mod_eq_sub_mul_div).symm

/-- The integer timestamp of a time that is five ticks old. -/
theorem floor_timeToRtpTimestamp {timeNs : ℚ} {sampleRate : Nat}
    (h : 5 ≤ timeNs / NS_IN_SEC * sampleRate) :
    ⌊timeToRtpTimestamp timeNs sampleRate⌋₊ =
      (⌊timeNs / NS_IN_SEC * sampleRate⌋₊ - 5) % 2 ^ 32 := by
  have hFive : ⌊timeNs / NS_IN_SEC * sampleRate - 5⌋₊ = ⌊timeNs / NS_IN_SEC * sampleRate⌋₊ - 5 := by
    have hSub := Nat.floor_sub_natCast (timeNs / NS_IN_SEC * sampleRate) 5
    exact_mod_cast hSub
  have hMod := floor_fmod (sub_nonneg.mpr h) (2 ^ 32)
  rw [hFive] at hMod
  rw [← hMod]
  norm_num [timeToRtpTimestamp]

end RivermaxDevKit
