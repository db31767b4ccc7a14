import Marathon.Launcher.ConservedResources
import Marathon.Lib.Ranges
import Marathon.Matcher.OfferMatcherManagerActor

/-!
# Consuming the resources of an offer

What operations use of an offer is taken out of its resources, which are told apart by role, name,
reservation and disk.
-/

namespace Marathon

open Mesos Lib Lib.Ranges

namespace ResourceUtil

/-! ## What is left of a resource -/

section Left

variable {Resource Key : Type} [DecidableEq Key] (util : ResourceUtil Resource Key)

/-- What is left of a resource when all is consumed that is used of those with its key. -/
def leftOver (used : List Resource) (resource : Resource) : Option Resource :=
  (used.filter (util.matchKey · = util.matchKey resource)).foldl util.consumeOne (some resource)

/-- A resource keeps its key as long as something is left of it. -/
def KeepsKey : Prop :=
  ∀ resource used rest, util.consumeResource resource used = .ok (some rest) →
    util.matchKey rest = util.matchKey resource

variable {util} {resources used used' : List Resource} {resource rest : Resource}

theorem consumeResources_eq : util.consumeResources resources used =
    resources.filterMap (util.leftOver used) := rfl

@[simp] theorem foldl_consumeOne_none : used.foldl util.consumeOne none = none := by
  induction used with
  | nil => rfl
  | cons u used ih => exact ih

theorem consumeOne_eq_some {u : Resource} (h : util.consumeOne (some resource) u = some rest) :
    util.consumeResource resource u = .ok (some rest) := by
  unfold consumeOne at h
  dsimp only at h
  split_ifs at h
  cases hconsume : util.consumeResource resource u with
  | error e =>
    rw [hconsume] at h
    cases h
  | ok left =>
    rw [hconsume] at h
    exact congrArg Except.ok h

theorem KeepsKey.foldl (hkeeps : util.KeepsKey)
    (h : used.foldl util.consumeOne (some resource) = some rest) :
    util.matchKey rest = util.matchKey resource := by
  induction used generalizing resource with
  | nil => rw [Option.some.inj h]
  | cons u used ih =>
    rw [List.foldl_cons] at h
    cases hleft : util.consumeOne (some resource) u with
    | none =>
      rw [hleft, foldl_consumeOne_none] at h
      cases h
    | some left =>
      rw [hleft] at h
      rw [ih h, hkeeps _ _ _ (consumeOne_eq_some hleft)]

theorem KeepsKey.leftOver (hkeeps : util.KeepsKey) (h : util.leftOver used resource = some rest) :
    util.matchKey rest = util.matchKey resource := hkeeps.foldl h

theorem leftOver_of_unused (h : util.matchKey resource ∉ used.map util.matchKey) :
    util.leftOver used resource = some resource := by
  have hnil : used.filter (util.matchKey · = util.matchKey resource) = [] := by
    refine List.filter_eq_nil_iff.mpr fun u hu hkey => h ?_
    rw [← of_decide_eq_true hkey]
    exact List.mem_map_of_mem hu
  rw [ResourceUtil.leftOver, hnil]
  rfl

theorem filter_consumeResources (hkeeps : util.KeepsKey) (resources used : List Resource)
    (q : Key → Bool) :
    (util.consumeResources resources used).filter (fun r => q (util.matchKey r)) =
      (resources.filter fun r => q (util.matchKey r)).filterMap (util.leftOver used) := by
  rw [consumeResources_eq]
  induction resources with
  | nil => rfl
  | cons resource resources ih =>
    rw [List.filterMap_cons, List.filter_cons]
    cases hleft : util.leftOver used resource with
    | none =>
      rw [ih]
      split_ifs
      · rw [List.filterMap_cons, hleft]
      · rfl
    | some rest =>
      rw [List.filter_cons, hkeeps.leftOver hleft, ih]
      split_ifs
      · rw [List.filterMap_cons, hleft]
      · rfl

theorem untouched (hkeeps : util.KeepsKey) :
    (util.consumeResources resources used).filter (fun r => util.matchKey r ∉ used.map util.matchKey) =
      resources.filter fun r => util.matchKey r ∉ used.map util.matchKey := by
  have hfilter := filter_consumeResources hkeeps resources used
    fun key => key ∉ used.map util.matchKey
  rw [hfilter, List.filterMap_congr (g := some) fun r hr =>
    leftOver_of_unused (of_decide_eq_true (List.mem_filter.mp hr).2), List.filterMap_some]

end Left

/-! ## Resources of Mesos -/

/-- The resources in launched tasks should be consumed from resources in the offer with the same
key. -/
structure ResourceMatchKey where
  role : Role
  name : ResourceName
  reservation : Option ReservationInfo
  disk : Option DiskInfo
deriving DecidableEq

def ResourceMatchKey.of (r : Mesos.Resource) : ResourceMatchKey := ⟨r.role, r.name, r.reservation, r.disk⟩

/-- The order in which the elements of a set are listed. -/
structure SetOrder where
  listed : Finset String → List String
  listed_eq : ∀ s, (listed s : Multiset String) = s.val

variable {order : SetOrder} {volumeRunSpecId : Mesos.Resource → Option AbsolutePathId}
  {usedResources : InstanceOp → List Mesos.Resource} {r u rest : Mesos.Resource}
  {used : List Mesos.Resource}

section Deduct

variable {ranges usedRanges : List (ℕ × ℕ)} {n : ℕ}

end Deduct

namespace ConsumedResources

noncomputable def listed : SetOrder where
  listed s := s.val.toList
  listed_eq s := s.val.coe_toList

def cpus (value : ℚ) : Mesos.Resource := ⟨.cpus, .scalar value, "*", none, none, none⟩

end ConsumedResources

end ResourceUtil

end Marathon
