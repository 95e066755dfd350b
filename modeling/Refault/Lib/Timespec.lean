import Mathlib.Tactic.Common
import Mathlib.Tactic.NormNum
import Mathlib.Order.Basic
import Mathlib.Data.Int.Order.Basic
import Mathlib.Order.Defs.LinearOrder

/-!
# Durations and timespecs

`Duration` is an unsigned span of time (64-bit seconds and nanoseconds), `Timespec` a point in time with
signed 64-bit seconds.  Both are ordered and computed with through their nanoseconds: `toNanos` is injective,
the checked operations are total on the values that fit, and `durationSince` saturates at zero.
`Timespec.ofDuration` is the cast of the unsigned seconds to a signed word; below `2 ^ 63` seconds it loses
nothing.
-/

/-- Nanoseconds in a second. -/
abbrev nanosPerSec : ℕ := 1000000000

theorem nanosPerSec_pos : 0 < nanosPerSec := by decide

/-- An unsigned span of time. -/
structure Duration where
  secs : ℕ
  nanos : ℕ
  secs_lt : secs < 2 ^ 64
  nanos_lt : nanos < nanosPerSec
deriving DecidableEq

namespace Duration

def toNanos (d : Duration) : ℕ := nanosPerSec * d.secs + d.nanos

theorem toNanos_lt (d : Duration) : d.toNanos < 2 ^ 64 * nanosPerSec := by
  have h1 := d.secs_lt
  have h2 := d.nanos_lt
  unfold toNanos nanosPerSec at *
  omega

theorem toNanos_injective : Function.Injective toNanos := by
  intro a b h
  have h1 := a.nanos_lt
  have h2 := b.nanos_lt
  obtain ⟨s, n, hs, hn⟩ := a
  obtain ⟨s', n', hs', hn'⟩ := b
  simp only [toNanos, nanosPerSec] at h h1 h2
  obtain rfl : s = s' := by omega
  obtain rfl : n = n' := by omega
  rfl

/-- The duration of `n` nanoseconds. -/
def ofNanos (n : ℕ) (h : n < 2 ^ 64 * nanosPerSec) : Duration :=
  ⟨n / nanosPerSec, n % nanosPerSec, by unfold nanosPerSec at *; omega, Nat.mod_lt _ nanosPerSec_pos⟩

@[simp] theorem toNanos_ofNanos (n : ℕ) (h : n < 2 ^ 64 * nanosPerSec) : (ofNanos n h).toNanos = n := by
  simp only [ofNanos, toNanos, nanosPerSec]
  omega

/-- Addition; `none` when the seconds do not fit. -/
def checkedAdd (a b : Duration) : Option Duration :=
  if h : a.toNanos + b.toNanos < 2 ^ 64 * nanosPerSec then some (ofNanos _ h) else none

/-- Subtraction; `none` when the result would be negative. -/
def checkedSub (a b : Duration) : Option Duration :=
  if b.toNanos ≤ a.toNanos then some (ofNanos (a.toNanos - b.toNanos) (by have := a.toNanos_lt; omega)) else none

theorem checkedAdd_eq_some {a b c : Duration} : a.checkedAdd b = some c ↔ c.toNanos = a.toNanos + b.toNanos := by
  unfold checkedAdd
  constructor
  · intro h
    split_ifs at h with hlt
    cases h
    simp
  · intro h
    have hlt := c.toNanos_lt
    rw [h] at hlt
    rw [dif_pos hlt, Option.some.injEq]
    exact toNanos_injective (by simp [h])

theorem checkedAdd_eq_none {a b : Duration} :
    a.checkedAdd b = none ↔ 2 ^ 64 * nanosPerSec ≤ a.toNanos + b.toNanos := by
  unfold checkedAdd
  split_ifs with h <;> simp <;> omega

theorem checkedSub_eq_some {a b c : Duration} (h : c.toNanos + b.toNanos = a.toNanos) :
    a.checkedSub b = some c := by
  unfold checkedSub
  rw [if_pos (by omega), Option.some.injEq]
  exact toNanos_injective (by simp; omega)

end Duration

/-- A point in time: signed seconds, and nanoseconds counted upwards. -/
structure Timespec where
  secs : ℤ
  nanos : ℕ
  le_secs : -2 ^ 63 ≤ secs
  secs_lt : secs < 2 ^ 63
  nanos_lt : nanos < nanosPerSec
deriving DecidableEq

namespace Timespec

def toNanos (t : Timespec) : ℤ := nanosPerSec * t.secs + t.nanos

theorem toNanos_injective : Function.Injective toNanos := by
  intro a b h
  obtain ⟨s, n, hs1, hs2, hn⟩ := a
  obtain ⟨s', n', hs1', hs2', hn'⟩ := b
  simp only [toNanos, nanosPerSec] at h hn hn'
  obtain rfl : s = s' := by omega
  obtain rfl : n = n' := by omega
  rfl

instance : LinearOrder Timespec := LinearOrder.lift' toNanos toNanos_injective

theorem le_iff {a b : Timespec} : a ≤ b ↔ a.toNanos ≤ b.toNanos := Iff.rfl

theorem lt_iff {a b : Timespec} : a < b ↔ a.toNanos < b.toNanos := Iff.rfl

theorem toNanos_sub_lt (a b : Timespec) : (a.toNanos - b.toNanos).toNat < 2 ^ 64 * nanosPerSec := by
  have h1 := a.secs_lt
  have h2 := b.le_secs
  have h3 := a.nanos_lt
  simp only [toNanos, nanosPerSec] at *
  omega

theorem toNanos_lt (t : Timespec) : t.toNanos < 2 ^ 63 * nanosPerSec := by
  have h1 := t.secs_lt
  have h2 := t.nanos_lt
  unfold toNanos nanosPerSec at *
  omega

/-- The span from `b` to `a`, and zero when `a` is before `b`. -/
def durationSince (a b : Timespec) : Duration :=
  Duration.ofNanos (a.toNanos - b.toNanos).toNat (toNanos_sub_lt a b)

theorem durationSince_toNanos {a b : Timespec} (h : b ≤ a) :
    ((a.durationSince b).toNanos : ℤ) = a.toNanos - b.toNanos := by
  rw [le_iff] at h
  simp only [durationSince, Duration.toNanos_ofNanos]
  omega

/-- The sum; `none` when the seconds overflow. -/
def checkedAdd (t : Timespec) (d : Duration) : Option Timespec :=
  if h : t.toNanos + d.toNanos < 2 ^ 63 * nanosPerSec then
    some ⟨(t.toNanos + d.toNanos) / nanosPerSec, ((t.toNanos + d.toNanos) % nanosPerSec).toNat,
      by have := t.le_secs; simp only [toNanos, nanosPerSec] at *; omega,
      by simp only [nanosPerSec] at *; omega,
      by simp only [nanosPerSec]; omega⟩
  else none

theorem checkedAdd_eq_some {t u : Timespec} {d : Duration} (h : t.checkedAdd d = some u) :
    u.toNanos = t.toNanos + d.toNanos := by
  unfold checkedAdd at h
  split_ifs at h
  cases h
  simp only [toNanos, nanosPerSec]
  omega

theorem le_checkedAdd {t u : Timespec} {d : Duration} (h : t.checkedAdd d = some u) : t ≤ u := by
  rw [le_iff, checkedAdd_eq_some h]
  omega

/-- The cast of an unsigned word to a signed one. -/
@[irreducible] def castI64 (n : ℕ) : ℤ := (n : ℤ).bmod (2 ^ 64)

theorem le_castI64 (n : ℕ) : -2 ^ 63 ≤ castI64 n := by
  unfold castI64
  have h := Int.le_bmod (x := (n : ℤ)) (Nat.two_pow_pos 64)
  norm_num at h
  exact h

theorem castI64_lt (n : ℕ) : castI64 n < 2 ^ 63 := by
  unfold castI64
  have h := Int.bmod_lt (x := (n : ℤ)) (Nat.two_pow_pos 64)
  norm_num at h
  exact h

theorem castI64_of_lt {n : ℕ} (h : n < 2 ^ 63) : castI64 n = n := by
  unfold castI64
  exact Int.bmod_eq_of_le (by norm_num) (by norm_num; omega)

/-- The timespec with the seconds of a duration, cast to a signed word. -/
def ofDuration (d : Duration) : Timespec :=
  ⟨castI64 d.secs, d.nanos, le_castI64 d.secs, castI64_lt d.secs, d.nanos_lt⟩

theorem ofDuration_secs {d : Duration} (h : d.secs < 2 ^ 63) : (ofDuration d).secs = d.secs :=
  castI64_of_lt h

theorem ofDuration_toNanos {d : Duration} (h : d.secs < 2 ^ 63) : (ofDuration d).toNanos = d.toNanos := by
  have hs := ofDuration_secs h
  have hn : (ofDuration d).nanos = d.nanos := rfl
  simp only [toNanos, Duration.toNanos, hs, hn]
  push_cast
  rfl

/-- A duration that reads as a timespec has seconds below `2 ^ 63`. -/
theorem secs_lt_of_toNanos {d : Duration} {t : Timespec} (h : (d.toNanos : ℤ) = t.toNanos) : d.secs < 2 ^ 63 := by
  have h1 := t.secs_lt
  have h2 := t.nanos_lt
  simp only [Duration.toNanos, toNanos, nanosPerSec] at *
  omega

theorem toNat_secs_lt (t : Timespec) : t.secs.toNat < 2 ^ 63 := by
  have := t.secs_lt
  omega

/-- The span from the epoch; `none` before it. -/
def sinceEpoch (t : Timespec) : Option Duration :=
  if 0 ≤ t.secs then some ⟨t.secs.toNat, t.nanos, t.toNat_secs_lt.trans (by norm_num), t.nanos_lt⟩ else none

theorem sinceEpoch_secs_lt {t : Timespec} {d : Duration} (h : t.sinceEpoch = some d) : d.secs < 2 ^ 63 := by
  unfold sinceEpoch at h
  split_ifs at h
  cases h
  exact t.toNat_secs_lt

end Timespec
