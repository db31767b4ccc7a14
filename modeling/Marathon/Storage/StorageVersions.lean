import Mathlib.Data.Prod.Lex

/-!
# Storage versions

The version of the data in the store and the order that migrations are sorted by.
-/

namespace Marathon.Storage

/-- `StorageFormat` of the protobuf message. -/
inductive StorageFormat
  | legacy
  | persistenceStore
deriving DecidableEq

def StorageFormat.number : StorageFormat → ℤ
  | legacy => 0
  | persistenceStore => 1

def StorageFormat.name : StorageFormat → String
  | legacy => "LEGACY"
  | persistenceStore => "PERSISTENCE_STORE"

structure StorageVersion where
  major : ℤ
  minor : ℤ
  patch : ℤ
  format : StorageFormat
deriving DecidableEq

/-- `StorageVersions.apply` with the default format. -/
def StorageVersions (major minor patch : ℤ) : StorageVersion where
  major := major
  minor := minor
  patch := patch
  format := .persistenceStore

namespace StorageVersion

/-- `OrderedStorageVersion.compare`: the format first. -/
def compare (version that : StorageVersion) : Ordering :=
  let on (left right : ℤ) (fn : Ordering) : Ordering :=
    if Ord.compare left right ≠ .eq then Ord.compare left right else fn
  on version.format.number that.format.number
    (on version.major that.major (on version.minor that.minor (on version.patch that.patch .eq)))

def str (version : StorageVersion) : String :=
  "Version(" ++ toString version.major ++ ", " ++ toString version.minor ++ ", " ++
    toString version.patch ++ ", " ++ version.format.name ++ ")"

/-- The message in the text format of protobuf, as it is interpolated. -/
def text (version : StorageVersion) : String :=
  "major: " ++ toString version.major ++ "\nminor: " ++ toString version.minor ++ "\npatch: " ++
    toString version.patch ++ "\nformat: " ++ version.format.name ++ "\n"

/-! ## The order -/

/-- The fields in the order in which they are compared. -/
def fields (version : StorageVersion) : ℤ ×ₗ ℤ ×ₗ ℤ ×ₗ ℤ :=
  toLex (version.format.number, toLex (version.major, toLex (version.minor, version.patch)))

theorem fields_injective : Function.Injective fields := by
  rintro ⟨major, minor, patch, format⟩ ⟨major', minor', patch', format'⟩ h
  simp only [fields, EmbeddingLike.apply_eq_iff_eq, Prod.mk.injEq] at h
  obtain ⟨hformat, rfl, rfl, rfl⟩ := h
  cases format <;> cases format' <;> first | rfl | cases hformat

theorem compare_eq_compare_fields (version that : StorageVersion) :
    version.compare that = Ord.compare (fields version) (fields that) := by
  have hlt : version.compare that = .lt ↔ fields version < fields that := by
    simp only [compare, fields, Prod.Lex.toLex_lt_toLex]
    grind [compare_lt_iff_lt, compare_eq_iff_eq, compare_gt_iff_gt]
  have hgt : version.compare that = .gt ↔ fields that < fields version := by
    simp only [compare, fields, Prod.Lex.toLex_lt_toLex]
    grind [compare_lt_iff_lt, compare_eq_iff_eq, compare_gt_iff_gt]
  rcases lt_trichotomy (fields version) (fields that) with h | h | h
  · rw [hlt.mpr h, compare_lt_iff_lt.mpr h]
  · rw [compare_eq_iff_eq.mpr h]
    cases hcompare : version.compare that with
    | lt => exact absurd (hlt.mp hcompare) (h ▸ lt_irrefl _)
    | eq => rfl
    | gt => exact absurd (hgt.mp hcompare) (h ▸ lt_irrefl _)
  · rw [hgt.mpr h, compare_gt_iff_gt.mpr h]

/-- `Ordered`: what is less is so by `compare`. -/
instance : LinearOrder StorageVersion :=
  { LinearOrder.lift' fields fields_injective with
    compare := compare
    compare_eq_compareOfLessAndEq := fun version that =>
      (compare_eq_compare_fields version that).trans
        ((LinearOrder.lift' fields fields_injective).compare_eq_compareOfLessAndEq version that) }

theorem lt_iff_fields {version that : StorageVersion} :
    version < that ↔ fields version < fields that := Iff.rfl

end StorageVersion

end Marathon.Storage
