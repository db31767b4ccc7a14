import Mathlib.Order.Lattice

/-!
# Timestamps and version infos
-/

namespace Marathon

/-- An instant in UTC, in nanoseconds since the epoch. `OffsetDateTime` is used for
the same instants, always with the offset of UTC. -/
structure Timestamp where
  instant : ℤ
deriving DecidableEq, Repr

instance : LinearOrder Timestamp :=
  LinearOrder.lift' Timestamp.instant fun ⟨_⟩ ⟨_⟩ h => congrArg Timestamp.mk h

/-- The timestamp of a number of milliseconds since the epoch. -/
def Timestamp.ofMillis (ms : ℤ) : Timestamp := ⟨ms * 1000000⟩

/-- A finite duration in nanoseconds. -/
abbrev FiniteDuration := ℤ

namespace Timestamp

/-- `until`: the duration up to another timestamp, in whole milliseconds. -/
def durationUntil (timestamp other : Timestamp) : FiniteDuration :=
  (other.instant - timestamp.instant) / 1000000 * 1000000

/-- `+`: later by the whole milliseconds of a duration. -/
def plus (timestamp : Timestamp) (duration : FiniteDuration) : Timestamp :=
  ⟨timestamp.instant + duration / 1000000 * 1000000⟩

theorem plus_le_plus {timestamp other : Timestamp} (h : timestamp ≤ other)
    (duration : FiniteDuration) : timestamp.plus duration ≤ other.plus duration := by
  have hinstant : timestamp.instant ≤ other.instant := h
  exact Int.add_le_add_right hinstant (duration / 1000000 * 1000000)

/-- Whether the timestamp is more than `by` older than the other one. -/
def expired (timestamp other : Timestamp) (age : FiniteDuration) : Bool :=
  age ≤ timestamp.durationUntil other

end Timestamp

/-- `noVersion` marks an existing run spec for a restart, `onlyVersion` becomes a
`fullVersionInfo` before it is stored. -/
inductive VersionInfo
  | noVersion
  | onlyVersion (version : Timestamp)
  | fullVersionInfo (version lastScalingAt lastConfigChangeAt : Timestamp)
deriving DecidableEq

namespace VersionInfo

def version : VersionInfo → Timestamp
  | noVersion => Timestamp.ofMillis 0
  | onlyVersion version => version
  | fullVersionInfo version _ _ => version

def lastConfigChangeVersion : VersionInfo → Timestamp
  | noVersion => Timestamp.ofMillis 0
  | onlyVersion version => version
  | fullVersionInfo _ _ lastConfigChangeAt => lastConfigChangeAt

variable (info : VersionInfo) (newVersion : Timestamp)

end VersionInfo

end Marathon
