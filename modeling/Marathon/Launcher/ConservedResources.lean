import Mathlib.Algebra.Order.BigOperators.Group.List
import Marathon.Instance.LiveTasks
import Marathon.Launcher.MountDisks
import Marathon.Lib.Spending

/-!
# What matches take of an offer

All requests of a run spec are matched against the same offer. What they take together is paid by
the resources of the offer, none of which pays more than it has.
-/

namespace Marathon

open Mesos Lib

variable {groups : List SourceResources} {required scratchDisk : ℚ} {requests : List Request}
  {selector : ResourceSelector} {resources : List Resource} {runSpec : RunSpec} {m : ResourceMatch}

namespace ResourceMatcher

/-! ## Taking from one resource after the other -/

/-- A resource that is asked for is of a resource of the offer. -/
structure IsOf (u r : Resource) : Prop where
  name : u.name = r.name
  role : u.role = r.role
  providerId : u.providerId = r.providerId
  reservation : u.reservation = r.reservation
  source : u.name = .disk → u.getDiskSourceOption = r.getDiskSourceOption

/-- A resource after an amount of it is taken. -/
def Takes (r u r' : Resource) : Prop :=
  IsOf u r ∧ u.scalar ≤ r.scalar ∧ r' = r.setScalar (r.scalar - u.scalar)

theorem Takes.spends {r u r' : Resource} (h : Takes r u r') :
    IsOf u r ∧ u.scalar ≤ r.scalar ∧ r'.scalar = r.scalar - u.scalar ∧ ∀ u', IsOf u' r' → IsOf u' r := by
  obtain ⟨hof, hle, rfl⟩ := h
  exact ⟨hof, hle, rfl, fun _ hu' => ⟨hu'.name, hu'.role, hu'.providerId, hu'.reservation, hu'.source⟩⟩

variable {accept : Resource → Bool} {l notConsumed remaining : List Resource} {left : ℚ}
  {before consumed : List Consumption} {name : ResourceName} {source : Option Source}

theorem isOf_consumedResource {r : Resource} (value : ℚ)
    (h : r.name = name ∧ (name = .disk → r.getDiskSourceOption = source)) :
    IsOf (ScalarMatchResult.consumedResource name (.of value r) source) r where
  name := h.1.symm
  role := rfl
  providerId := rfl
  reservation := rfl
  source hname := by
    rw [h.2 hname]
    cases source <;> rfl

theorem spends_consumeScalarResource {r : Resource} {value : ℚ} (hle : value ≤ r.scalar)
    (h : r.name = name ∧ (name = .disk → r.getDiskSourceOption = source)) (rest : List Resource) :
    Spends Takes ↑(r :: rest) {ScalarMatchResult.consumedResource name (.of value r) source}
      ↑((consumeScalarResource r value).toList ++ rest) := by
  have hspend : Spends Takes (r ::ₘ ↑rest)
      (ScalarMatchResult.consumedResource name (.of value r) source ::ₘ 0)
      (r.setScalar (r.scalar - value) ::ₘ ↑rest) :=
    .spend .none ⟨isOf_consumedResource value h, hle, rfl⟩
  unfold consumeScalarResource
  split_ifs
  · exact hspend.drop
  · exact hspend

theorem spends_consumeResources
    (hl : ∀ r ∈ l, r.name = name ∧ (name = .disk → r.getDiskSourceOption = source))
    (h : consumeResources accept l left notConsumed before = .ok (consumed, remaining)) :
    ∃ new, consumed = new ++ before ∧ Spends Takes ↑(l ++ notConsumed)
      ↑(new.map fun c => ScalarMatchResult.consumedResource name c source) ↑remaining := by
  induction l generalizing left notConsumed before with
  | nil =>
    rw [consumeResources] at h
    split_ifs at h
    cases h
    exact ⟨[], rfl, .none⟩
  | cons r l ih =>
    obtain ⟨hr, hrest⟩ := List.forall_mem_cons.mp hl
    rw [consumeResources] at h
    by_cases hleft : left ≤ 0
    · rw [if_pos hleft] at h
      cases h
      exact ⟨[], rfl, .none⟩
    rw [if_neg hleft] at h
    by_cases haccept : accept r
    · rw [if_pos haccept] at h
      obtain ⟨new, rfl, hspends⟩ := ih hrest h
      refine ⟨new ++ [.of (min left r.scalar) r], by simp, ?_⟩
      have hfirst := spends_consumeScalarResource (min_le_right left r.scalar) hr (l ++ notConsumed)
      have hperm : ((consumeScalarResource r (min left r.scalar)).toList ++ (l ++ notConsumed)).Perm
          (l ++ ((consumeScalarResource r (min left r.scalar)).toList ++ notConsumed)) := by
        rw [← List.append_assoc, ← List.append_assoc]
        exact List.perm_append_comm.append_right notConsumed
      rw [Multiset.coe_eq_coe.mpr hperm] at hfirst
      have hboth := hfirst.trans hspends
      rw [List.map_append, ← Multiset.coe_add]
      exact hboth
    · rw [if_neg haccept] at h
      obtain ⟨new, rfl, hspends⟩ := ih hrest h
      refine ⟨new, rfl, ?_⟩
      rw [Multiset.coe_eq_coe.mpr List.perm_middle] at hspends
      exact hspends

theorem sum_consumeResources
    (h : consumeResources accept l left [] [] = .ok (consumed, remaining)) :
    (consumed.map Consumption.consumedValue).sum = max 0 left := by
  have hvalues := consumedValue_consumeResources h
  rw [List.map_nil, List.append_nil] at hvalues
  rw [hvalues, List.sum_reverse]
  rcases le_total 0 left with hleft | hleft
  · rw [sum_taken hleft h, max_eq_right hleft]
  · rw [taken_of_nonpos hleft, List.sum_nil, max_eq_left hleft]

theorem exists_consumeResources_iff (hl : ∀ r ∈ l, 0 ≤ r.scalar) :
    (∃ result, consumeResources (fun _ => true) l left notConsumed before = .ok result) ↔
      left ≤ (l.map Resource.scalar).sum := by
  induction l generalizing left notConsumed before with
  | nil =>
    rw [consumeResources, List.map_nil, List.sum_nil]
    split_ifs with hleft
    · exact iff_of_true ⟨_, rfl⟩ hleft
    · refine iff_of_false ?_ hleft
      rintro ⟨result, hok⟩
      cases hok
  | cons r l ih =>
    obtain ⟨hr, hrest⟩ := List.forall_mem_cons.mp hl
    have hsum : 0 ≤ (l.map Resource.scalar).sum := List.sum_nonneg fun x hx => by
      obtain ⟨r, hr, rfl⟩ := List.mem_map.mp hx
      exact hrest r hr
    rw [consumeResources, List.map_cons, List.sum_cons]
    by_cases hleft : left ≤ 0
    · rw [if_pos hleft]
      exact iff_of_true ⟨_, rfl⟩ (by linarith)
    · rw [if_neg hleft, if_pos rfl, ih hrest]
      rcases le_total left r.scalar with hle | hle
      · rw [min_eq_left hle, sub_self]
        exact iff_of_true hsum (by linarith)
      · rw [min_eq_right hle]
        exact sub_le_iff_le_add'

/-! ## Disks -/

/-- The resources that are kept together are of one disk. -/
def Grouped (groups : List SourceResources) : Prop :=
  ∀ s ∈ groups, ∀ r ∈ s.resources, r.name = .disk ∧ r.getDiskSourceOption = s.source

theorem Grouped.of_subset {groups' : List SourceResources} (h : Grouped groups)
    (hsub : groups' ⊆ groups) : Grouped groups' := fun s hs => h s (hsub hs)

theorem flatMap_resources_le {next : SourceResources} (hnext : next ∈ groups) :
    (↑(next.resources ++ (groups.filter (· ≠ next)).flatMap SourceResources.resources) :
      Multiset Resource) ≤ ↑(groups.flatMap SourceResources.resources) := by
  refine Multiset.coe_le.mpr ?_
  have hperm := (List.filter_append_perm (fun s : SourceResources => s ≠ next) groups).flatMap_right
    SourceResources.resources
  rw [List.flatMap_append] at hperm
  have hmem : next ∈ groups.filter fun s => !decide (s ≠ next) :=
    List.mem_filter.mpr ⟨hnext, by simp⟩
  have hsub : next.resources.Sublist
      ((groups.filter fun s => !decide (s ≠ next)).flatMap SourceResources.resources) := by
    rw [List.flatMap_def]
    exact List.sublist_flatten_of_mem (List.mem_map_of_mem hmem)
  refine List.Subperm.trans ?_ hperm.subperm
  exact (List.perm_append_comm.subperm).trans (List.Sublist.subperm (hsub.append_left _))

theorem findDiskGroupMatches_spec {l rest : List SourceResources}
    (hgroups : Grouped groups) (hl : l ⊆ groups)
    (h : findDiskGroupMatches accept required groups l = some (source, consumed, rest)) :
    (consumed.map Consumption.consumedValue).sum = max 0 required ∧ Grouped rest ∧
      Spends Takes ↑(groups.flatMap SourceResources.resources)
        ↑(consumed.map fun c => ScalarMatchResult.consumedResource .disk c source)
        ↑(rest.flatMap SourceResources.resources) := by
  induction l with
  | nil => cases h
  | cons next l ih =>
    obtain ⟨hnext, hl⟩ := List.cons_subset.mp hl
    rw [findDiskGroupMatches] at h
    cases hconsume : consumeResources accept next.resources required [] [] with
    | error valueLeft =>
      rw [hconsume] at h
      exact ih hl h
    | ok result =>
      obtain ⟨taken, remaining⟩ := result
      rw [hconsume] at h
      simp only [Option.some.injEq, Prod.mk.injEq] at h
      obtain ⟨rfl, rfl, rfl⟩ := h
      have hsource : ∀ r ∈ next.resources, r.name = .disk ∧
          (ResourceName.disk = .disk → r.getDiskSourceOption = next.source) :=
        fun r hr => ⟨(hgroups next hnext r hr).1, fun _ => (hgroups next hnext r hr).2⟩
      obtain ⟨new, hnew, hspends⟩ := spends_consumeResources hsource hconsume
      rw [List.append_nil] at hnew hspends
      subst hnew
      have hleft : (if remaining.isEmpty then []
          else [{ next with resources := remaining }]).flatMap SourceResources.resources =
            remaining := by
        cases remaining with
        | nil => rfl
        | cons r remaining => exact List.append_nil _
      refine ⟨sum_consumeResources hconsume, fun s hs => ?_, ?_⟩
      · rcases List.mem_append.mp hs with hs | hs
        · have hs : s = { next with resources := remaining } := by
            split_ifs at hs
            · cases hs
            · exact List.mem_singleton.mp hs
          subst hs
          have hkept : ∀ r u r', Takes r u r' →
              r.name = .disk ∧ r.getDiskSourceOption = next.source →
                r'.name = .disk ∧ r'.getDiskSourceOption = next.source := by
            rintro r u r' ⟨-, -, rfl⟩ hr
            exact hr
          exact fun r hr => hspends.forall_rest hkept (hgroups next hnext) r hr
        · exact hgroups s (List.mem_of_mem_filter hs)
      · rw [List.flatMap_append, hleft]
        have hframe := hspends.frame ↑((groups.filter (· ≠ next)).flatMap SourceResources.resources)
        rw [Multiset.coe_add, Multiset.coe_add] at hframe
        exact hframe.mono (flatMap_resources_le hnext)

theorem prioritizeDiskResources_perm (type : DiskType) (groups : List SourceResources) :
    (prioritizeDiskResources type groups).Perm groups := by
  cases type with
  | root => exact .refl _
  | path => exact List.mergeSort_perm _ _
  | mount => exact List.mergeSort_perm _ _

/-- The resource to ask Mesos for. -/
def DiskConsumption.resource (c : DiskConsumption) : Resource :=
  ScalarMatchResult.consumedResource .disk c.toConsumption c.source

/-- What is consumed for a request is as much as it needs, of one disk. -/
structure TakenFor (request : Request) (group : List DiskConsumption) : Prop where
  source : ∃ source, ∀ c ∈ group, c.source = source
  volume : ∀ c ∈ group, c.persistentVolumeWithMount = request.persistentVolumeWithMount
  sum_eq : (group.map fun c => c.consumedValue).sum = max 0 request.size

variable {matching : Matching} {scope scope' : Scope} {type type' : DiskType}
  {volumes : List PersistentVolumeWithMount} {disks : List Resource}
  {before' consumed' : List DiskConsumption}

theorem findMatches_spec (hgroups : Grouped groups)
    (h : findMatches matching type scope requests groups before' =
      .diskResourceMatch type' consumed' scope') :
    type' = type ∧ ∃ parts : List (List DiskConsumption), List.Forall₂ TakenFor requests parts ∧
      consumed' = parts.reverse.flatten ++ before' ∧
      ∃ rest, Spends Takes ↑(groups.flatMap SourceResources.resources)
        ↑(parts.flatten.map DiskConsumption.resource) rest := by
  induction requests generalizing groups before' with
  | nil =>
    rw [findMatches] at h
    cases h
    exact ⟨rfl, [], .nil, rfl, _, .none⟩
  | cons request requests ih =>
    rw [findMatches] at h
    cases hfind : findDiskGroupMatches (requestMatcher matching request) request.size
        (prioritizeDiskResources type groups) (prioritizeDiskResources type groups) with
    | none =>
      rw [hfind] at h
      cases h
    | some result =>
      obtain ⟨source, general, decremented⟩ := result
      rw [hfind] at h
      have hperm := prioritizeDiskResources_perm type groups
      obtain ⟨hsum, hrest, hspends⟩ := findDiskGroupMatches_spec
        (hgroups.of_subset fun s hs => hperm.subset hs) (fun _ hs => hs) hfind
      obtain ⟨rfl, parts, hparts, rfl, last, hlast⟩ := ih hrest h
      let part : List DiskConsumption := general.map fun c =>
        ⟨c, source, request.persistentVolumeWithMount⟩
      have hvalues : part.map (fun c => c.consumedValue) = general.map Consumption.consumedValue :=
        List.map_map
      have huses : part.map DiskConsumption.resource =
          general.map fun c => ScalarMatchResult.consumedResource .disk c source := List.map_map
      have hpart : TakenFor request part := by
        refine ⟨⟨source, fun c hc => ?_⟩, fun c hc => ?_, hvalues ▸ hsum⟩
        · obtain ⟨g, -, rfl⟩ := List.mem_map.mp hc
          rfl
        · obtain ⟨g, -, rfl⟩ := List.mem_map.mp hc
          rfl
      refine ⟨rfl, part :: parts, .cons hpart hparts, ?_, last, ?_⟩
      · rw [List.reverse_cons, List.flatten_append, List.append_assoc]
        simp [part]
      · rw [Multiset.coe_eq_coe.mpr (hperm.flatMap_right SourceResources.resources)] at hspends
        rw [List.flatten_cons, List.map_append, huses, ← Multiset.coe_add, add_comm]
        exact hspends.trans hlast

theorem spends_fillFirst {given : List Resource} (hdisks : ∀ r ∈ disks, r.name = .disk)
    (h : fillFirst (fits matching) volumes disks = some given) :
    ∃ rest, Spends Takes ↑disks
      ↑((List.zipWith mountConsumption volumes given).map DiskConsumption.resource) rest := by
  induction volumes generalizing disks given with
  | nil => exact ⟨_, .none⟩
  | cons v volumes ih =>
    obtain ⟨disk, given, hfind, hgiven, rfl⟩ := exists_of_fillFirst_cons h
    have hmem := List.mem_of_find?_eq_some hfind
    obtain ⟨rest, hrest⟩ := ih (fun r hr => hdisks r (List.mem_of_mem_filter hr)) hgiven
    have hof : IsOf (mountConsumption v disk).resource disk :=
      isOf_consumedResource disk.scalar ⟨hdisks disk hmem, fun _ => rfl⟩
    have hfirst : Spends Takes (disk ::ₘ ↑(disks.filter (· ≠ disk)))
        ((mountConsumption v disk).resource ::ₘ 0) ↑(disks.filter (· ≠ disk)) :=
      .drop (.spend .none ⟨hof, le_rfl, rfl⟩)
    have hle : disk ::ₘ (↑(disks.filter (· ≠ disk)) : Multiset Resource) ≤ ↑disks := by
      have hperm := List.filter_append_perm (fun r : Resource => r ≠ disk) disks
      have hsame : disk ∈ disks.filter fun r => !decide (r ≠ disk) :=
        List.mem_filter.mpr ⟨hmem, by simp⟩
      have hsub : [disk].Sublist (disks.filter fun r => !decide (r ≠ disk)) :=
        List.singleton_sublist.mpr hsame
      rw [Multiset.cons_coe]
      refine Multiset.coe_le.mpr (List.Subperm.trans ?_ hperm.subperm)
      exact List.perm_append_comm.subperm.trans (List.Sublist.subperm (hsub.append_left _))
    refine ⟨rest, ?_⟩
    have hboth := (hfirst.mono hle).trans hrest
    rw [Multiset.add_cons, add_zero] at hboth
    exact hboth

/-! ## The results of the disk types -/

theorem flatMap_filter_perm {sources : List (Option Source)} {l : List Resource}
    (hnodup : sources.Nodup) (hl : ∀ r ∈ l, r.getDiskSourceOption ∈ sources) :
    (sources.flatMap fun source => l.filter fun r => r.getDiskSourceOption = source).Perm l := by
  induction sources generalizing l with
  | nil =>
    have hnil : l = [] := List.eq_nil_iff_forall_not_mem.mpr fun r hr =>
      absurd (hl r hr) List.not_mem_nil
    rw [hnil]
    exact .refl _
  | cons source sources ih =>
    obtain ⟨hnotMem, hnodup⟩ := List.nodup_cons.mp hnodup
    have hothers := ih (l := l.filter fun r => r.getDiskSourceOption ≠ source) hnodup fun r hr => by
      obtain ⟨hmem, hne⟩ := List.mem_filter.mp hr
      exact (List.mem_cons.mp (hl r hmem)).resolve_left (of_decide_eq_true hne)
    have hsame : (sources.flatMap fun s => (l.filter fun r => r.getDiskSourceOption ≠ source).filter
        fun r => r.getDiskSourceOption = s) =
          sources.flatMap fun s => l.filter fun r => r.getDiskSourceOption = s := by
      refine List.flatMap_congr fun s hs => ?_
      rw [List.filter_filter]
      refine List.filter_congr fun r _ => ?_
      have hne : s ≠ source := fun heq => hnotMem (heq ▸ hs)
      by_cases hr : r.getDiskSourceOption = s
      · simp [hr, hne]
      · simp [hr]
    rw [hsame] at hothers
    rw [List.flatMap_cons]
    refine (hothers.append_left _).trans ?_
    have hpartition := List.filter_append_perm
      (fun r : Resource => decide (r.getDiskSourceOption = source)) l
    simpa only [decide_not] using hpartition

theorem nodup_eraseDups {α : Type} [BEq α] [LawfulBEq α] (l : List α) : l.eraseDups.Nodup := by
  induction hn : l.length using Nat.strong_induction_on generalizing l with
  | _ n ih =>
    cases l with
    | nil => exact List.nodup_nil
    | cons a l =>
      rw [List.eraseDups_cons]
      refine List.nodup_cons.mpr ⟨fun hmem => ?_, ?_⟩
      · have hne := (List.mem_filter.mp (List.mem_eraseDups.mp hmem)).2
        simp at hne
      · refine ih (l.filter fun b => !b == a).length ?_ _ rfl
        have hle := List.length_filter_le (fun b => !b == a) l
        rw [List.length_cons] at hn
        omega

theorem flatMap_listFromResources_perm (matching : Matching) (l : List Resource) :
    ((listFromResources matching l).flatMap SourceResources.resources).Perm l := by
  have hperm := matching.perm_sourceOrder (l.map Resource.getDiskSourceOption).eraseDups
  rw [listFromResources, List.flatMap_map]
  refine flatMap_filter_perm ?_ fun r hr => ?_
  · exact hperm.nodup_iff.mpr (nodup_eraseDups _)
  · rw [hperm.mem_iff, List.mem_eraseDups]
    exact List.mem_map_of_mem hr

theorem grouped_listFromResources (matching : Matching) {l : List Resource}
    (hl : ∀ r ∈ l, r.name = .disk) : Grouped (listFromResources matching l) := by
  intro s hs r hr
  obtain ⟨source, -, rfl⟩ := List.mem_map.mp hs
  obtain ⟨hmem, hsource⟩ := List.mem_filter.mp hr
  exact ⟨hl r hmem, of_decide_eq_true hsource⟩

theorem name_of_mem_acceptedDisks :
    ∀ r ∈ acceptedDisks resources selector type, r.name = .disk := by
  intro r hr
  have hr := (List.mem_filter.mp hr).2
  rw [Bool.and_eq_true, Bool.and_eq_true] at hr
  exact of_decide_eq_true hr.1.1

/-- What a match of disks takes: every mount volume a disk of its own, of a size that it may have,
and every other volume, like the scratch disk, what it needs from one disk. -/
def DisksTaken (matching : Matching) (resources : List Resource) (selector : ResourceSelector)
    (scratchDisk : ℚ) (volumes : List PersistentVolumeWithMount) (type : DiskType)
    (consumed : List DiskConsumption) : Prop :=
  if type = .mount then
    ∃ given : List Resource, given.Nodup ∧ given ⊆ acceptedDisks resources selector .mount ∧
      List.Forall₂ (fun v disk => fits matching v disk = true) (mountRequests volumes) given ∧
      consumed = (List.zipWith mountConsumption (mountRequests volumes) given).reverse
  else
    ∃ parts, List.Forall₂ TakenFor (diskRequests scratchDisk volumes type) parts ∧
      consumed = parts.reverse.flatten

theorem diskResult_spec
    (h : diskResult matching resources selector scratchDisk volumes scope type =
      .diskResourceMatch type' consumed' scope') :
    type' = type ∧ DisksTaken matching resources selector scratchDisk volumes type consumed' ∧
      ∃ rest, Spends Takes ↑(acceptedDisks resources selector type)
        ↑(consumed'.map DiskConsumption.resource) rest := by
  have hname : ∀ r ∈ acceptedDisks resources selector type, r.name = .disk :=
    name_of_mem_acceptedDisks
  unfold diskResult at h
  unfold DisksTaken
  by_cases htype : type = .mount
  · subst htype
    rw [if_pos rfl] at h ⊢
    obtain ⟨rfl, -, given, hgiven, rfl⟩ := findMountMatches_eq_diskResourceMatch_iff.mp h
    obtain ⟨rest, hrest⟩ := spends_fillFirst hname hgiven
    rw [List.append_nil]
    refine ⟨rfl, ⟨given, nodup_of_fillFirst hgiven, subset_of_fillFirst hgiven,
      forall₂_of_fillFirst hgiven, rfl⟩, rest, ?_⟩
    rw [List.map_reverse, Multiset.coe_reverse]
    exact hrest
  · rw [if_neg htype] at h ⊢
    obtain ⟨rfl, parts, hparts, rfl, rest, hrest⟩ :=
      findMatches_spec (grouped_listFromResources matching hname) h
    rw [List.append_nil]
    refine ⟨rfl, ⟨parts, hparts, rfl⟩, rest, ?_⟩
    have hperm : (parts.reverse.flatten.map DiskConsumption.resource).Perm
        (parts.flatten.map DiskConsumption.resource) :=
      ((List.reverse_perm parts).flatten).map _
    rw [Multiset.coe_eq_coe.mpr (flatMap_listFromResources_perm matching _)] at hrest
    rw [Multiset.coe_eq_coe.mpr hperm]
    exact hrest

/-! ## What a result requires -/

theorem eq_of_isMatch_findMatches
    (h : (findMatches matching type scope requests groups before').isMatch = true) :
    ∃ consumed, findMatches matching type scope requests groups before' =
      .diskResourceMatch type consumed scope := by
  induction requests generalizing groups before' with
  | nil => exact ⟨before', rfl⟩
  | cons request requests ih =>
    rw [findMatches] at h ⊢
    split at h
    · cases h
    · exact ih h

theorem eq_of_isMatch_findMountMatches
    (h : (findMountMatches matching scope volumes disks before').isMatch = true) :
    ∃ consumed, findMountMatches matching scope volumes disks before' =
      .diskResourceMatch .mount consumed scope := by
  induction volumes generalizing disks before' with
  | nil => exact ⟨before', rfl⟩
  | cons v volumes ih =>
    rw [findMountMatches] at h ⊢
    split at h
    · exact ih h
    · cases h

theorem eq_of_isMatch_diskResult
    (h : (diskResult matching resources selector scratchDisk volumes scope type).isMatch = true) :
    ∃ consumed, diskResult matching resources selector scratchDisk volumes scope type =
      .diskResourceMatch type consumed scope := by
  unfold diskResult at h ⊢
  by_cases htype : type = .mount
  · subst htype
    rw [if_pos rfl] at h ⊢
    exact eq_of_isMatch_findMountMatches h
  · rw [if_neg htype] at h ⊢
    exact eq_of_isMatch_findMatches h

theorem le_requiredValue_findMatches (matching : Matching) (type : DiskType) (scope : Scope)
    (before' : List DiskConsumption)
    (hgroups : Grouped groups) (hsize : ∀ r ∈ requests, 0 ≤ r.size) :
    (before'.map fun c => c.consumedValue).sum + (requests.head?.map Request.size).getD 0 ≤
      (findMatches matching type scope requests groups before').requiredValue := by
  induction requests generalizing groups before' with
  | nil => exact (add_zero _).le
  | cons request requests ih =>
    obtain ⟨-, hrest⟩ := List.forall_mem_cons.mp hsize
    rw [findMatches]
    have hperm := prioritizeDiskResources_perm type groups
    cases hfind : findDiskGroupMatches (requestMatcher matching request) request.size
        (prioritizeDiskResources type groups) (prioritizeDiskResources type groups) with
    | none => exact (add_comm _ _).le
    | some result =>
      obtain ⟨source, general, decremented⟩ := result
      obtain ⟨hsum, hgrouped, -⟩ := findDiskGroupMatches_spec
        (hgroups.of_subset fun s hs => hperm.subset hs) (fun _ hs => hs) hfind
      refine le_trans ?_ (ih _ hgrouped hrest)
      have hhead : 0 ≤ (requests.head?.map Request.size).getD 0 := by
        cases requests with
        | nil => exact le_rfl
        | cons next _ => exact hrest next List.mem_cons_self
      have hvalues : (general.map fun c => (⟨c, source, request.persistentVolumeWithMount⟩ :
          DiskConsumption)).map (fun c => c.consumedValue) =
            general.map Consumption.consumedValue := List.map_map
      rw [List.map_append, List.sum_append, hvalues, hsum]
      have hmax : request.size ≤ max 0 request.size := le_max_right _ _
      simp only [List.head?_cons, Option.map_some, Option.getD_some]
      linarith

theorem le_requiredValue_findMountMatches (matching : Matching) (scope : Scope)
    (disks : List Resource) (before' : List DiskConsumption) (hsize : ∀ v ∈ volumes, 0 ≤ v.volume.persistent.size) :
    (before'.map fun c => c.consumedValue).sum +
        ((volumes.head?.map fun v => (v.volume.persistent.size : ℚ)).getD 0) ≤
      (findMountMatches matching scope volumes disks before').requiredValue := by
  induction volumes generalizing disks before' with
  | nil => exact (add_zero _).le
  | cons v volumes ih =>
    obtain ⟨-, hrest⟩ := List.forall_mem_cons.mp hsize
    rw [findMountMatches]
    cases hfind : disks.find? (fitsMount matching v.volume.persistent) with
    | none => exact (add_comm _ _).le
    | some disk =>
      refine le_trans ?_ (ih _ _ hrest)
      have hhead : (0 : ℚ) ≤ (volumes.head?.map fun v => (v.volume.persistent.size : ℚ)).getD 0 := by
        cases volumes with
        | nil => exact le_rfl
        | cons next _ => exact Int.cast_nonneg (hrest next List.mem_cons_self)
      have hfits := List.find?_some hfind
      rw [fitsMount, Bool.and_eq_true, Bool.and_eq_true] at hfits
      have hle : (v.volume.persistent.size : ℚ) ≤ disk.scalar := of_decide_eq_true hfits.1.1
      rw [List.map_cons, List.sum_cons]
      simp only [List.head?_cons, Option.map_some, Option.getD_some, Consumption.of]
      linarith

theorem requiredValue_diskResult_pos
    (hsize : ∀ r ∈ diskRequests scratchDisk volumes type, 0 ≤ r.size)
    (hpos : ∃ r ∈ diskRequests scratchDisk volumes type, 0 < r.size) :
    0 < (diskResult matching resources selector scratchDisk volumes scope type).requiredValue := by
  have hhead : 0 < ((diskRequests scratchDisk volumes type).head?.map Request.size).getD 0 := by
    have hsorted : (diskRequests scratchDisk volumes type).Pairwise
        fun r s => decide (s.size ≤ r.size) = true := by
      refine List.pairwise_mergeSort (fun r s t hrs hst => ?_) (fun r s => ?_) _
      · exact decide_eq_true ((of_decide_eq_true hst).trans (of_decide_eq_true hrs))
      · rw [Bool.or_eq_true, decide_eq_true_iff, decide_eq_true_iff]
        exact le_total _ _
    obtain ⟨r, hr, hrpos⟩ := hpos
    cases hrequests : diskRequests scratchDisk volumes type with
    | nil =>
      rw [hrequests] at hr
      cases hr
    | cons first rest =>
      rw [hrequests] at hr hsorted
      rcases List.mem_cons.mp hr with rfl | hr
      · exact hrpos
      · exact hrpos.trans_le (of_decide_eq_true ((List.pairwise_cons.mp hsorted).1 r hr))
  unfold diskResult
  by_cases htype : type = .mount
  · subst htype
    rw [if_pos rfl]
    rw [diskRequests_mount] at hsize hhead
    have hvolumes : ∀ v ∈ mountRequests volumes, 0 ≤ v.volume.persistent.size := fun v hv =>
      Int.cast_nonneg_iff.mp (hsize _ (List.mem_map_of_mem hv))
    have hle := le_requiredValue_findMountMatches matching scope
      (acceptedDisks resources selector .mount) [] hvolumes
    rw [List.head?_map, Option.map_map] at hhead
    rw [List.map_nil, List.sum_nil, zero_add] at hle
    exact hhead.trans_le hle
  · rw [if_neg htype]
    have hname : ∀ r ∈ acceptedDisks resources selector type, r.name = .disk :=
      name_of_mem_acceptedDisks
    have hle := le_requiredValue_findMatches matching type scope []
      (grouped_listFromResources matching hname) hsize
    rw [List.map_nil, List.sum_nil, zero_add] at hle
    exact hhead.trans_le hle

/-! ## Matches -/

/-- What is requested: a scalar resource, or the disks of a type. -/
inductive Kind
  | scalar (name : ResourceName)
  | disk (type : DiskType)
deriving DecidableEq

/-- The resources that may be taken for what is requested. -/
def Kind.Has : Kind → Resource → Prop
  | scalar name, r => r.name = name
  | disk type, r => r.name = .disk ∧ diskType r.getDiskSourceOption = some type

instance (k : Kind) : DecidablePred k.Has := fun r => by
  cases k with
  | scalar name => exact inferInstanceAs (Decidable (r.name = name))
  | disk type =>
    exact inferInstanceAs (Decidable (r.name = .disk ∧ diskType r.getDiskSourceOption = some type))

def kinds (types : List DiskType) : List Kind :=
  [.scalar .cpus, .scalar .mem, .scalar .gpus] ++ types.map .disk

theorem kinds_disjoint {types : List DiskType} (h : types.Nodup) :
    (kinds types).Pairwise fun i j => ∀ r : Resource, i.Has r → ¬j.Has r := by
  refine List.pairwise_append.mpr ⟨?_, ?_, ?_⟩
  · simp only [List.pairwise_cons, List.mem_cons, List.not_mem_nil, or_false, Kind.Has]
    refine ⟨?_, ?_, ?_, List.Pairwise.nil⟩
    · rintro k (rfl | rfl) r hr hr' <;> exact absurd (hr.symm.trans hr') (by decide)
    · rintro k rfl r hr hr'
      exact absurd (hr.symm.trans hr') (by decide)
    · exact fun _ hk => hk.elim
  · refine List.pairwise_map.mpr (h.imp fun hne r hr hr' => hne ?_)
    exact Option.some.inj (hr.2.symm.trans hr'.2)
  · intro k hk k' hk' r hr hr'
    obtain ⟨type, -, rfl⟩ := List.mem_map.mp hk'
    simp only [List.mem_cons, List.not_mem_nil, or_false] at hk
    rcases hk with rfl | rfl | rfl <;> exact absurd (hr.symm.trans hr'.1) (by decide)

def resultOf (matching : Matching) (offer : ResourceOffer) (runSpec : RunSpec)
    (selector : ResourceSelector) (volumes : List PersistentVolumeWithMount) (scope : Scope) :
    Kind → ScalarMatchResult
  | .scalar name =>
    matchScalarResource offer.resources selector name (runSpec.resources.quantity name)
  | .disk type =>
    diskResult matching offer.resources selector runSpec.resources.disk volumes scope type

/-- The resources of the offer that may be taken. -/
def payable (offer : ResourceOffer) (selector : ResourceSelector) : List Resource :=
  offer.resources.filter fun r => r.name ∈ scalarNames && selector.accepts r

theorem filter_payable_scalar (offer : ResourceOffer) (selector : ResourceSelector)
    (hname : name ∈ scalarNames) :
    (↑(payable offer selector) : Multiset Resource).filter (Kind.scalar name).Has =
      ↑(offer.resources.filter fun r => r.name = name && selector.accepts r) := by
  rw [Multiset.filter_coe, payable, List.filter_filter]
  refine congrArg _ (List.filter_congr fun r _ => ?_)
  by_cases hr : r.name = name
  · simp [Kind.Has, hr, hname]
  · simp [Kind.Has, hr]

theorem filter_payable_disk (offer : ResourceOffer) (selector : ResourceSelector) :
    (↑(payable offer selector) : Multiset Resource).filter (Kind.disk type).Has =
      ↑(acceptedDisks offer.resources selector type) := by
  rw [Multiset.filter_coe, payable, List.filter_filter, acceptedDisks]
  refine congrArg _ (List.filter_congr fun r _ => ?_)
  by_cases hr : r.name = .disk
  · simp [Kind.Has, hr, scalarNames]
  · simp [Kind.Has, hr]

theorem matchScalarResource_spec (hname : name ≠ .disk)
    (h : (matchScalarResource resources selector name required).isMatch = true) :
    ((matchScalarResource resources selector name required).consumedResources.map
        Resource.scalar).sum = max 0 required ∧
      ∃ rest, Spends Takes ↑(resources.filter fun r => r.name = name && selector.accepts r)
        ↑(matchScalarResource resources selector name required).consumedResources rest := by
  unfold matchScalarResource at h ⊢
  dsimp only at h ⊢
  have hof : ∀ r ∈ resources.filter fun r => r.name = name && selector.accepts r,
      r.name = name ∧ (name = .disk → r.getDiskSourceOption = none) := by
    intro r hr
    have hr := (Bool.and_eq_true_iff.mp (List.mem_filter.mp hr).2).1
    exact ⟨of_decide_eq_true hr, fun hdisk => absurd hdisk hname⟩
  cases hconsume : consumeResources (fun _ => true)
      (resources.filter fun r => r.name = name && selector.accepts r) required [] [] with
  | error valueLeft =>
    rw [hconsume] at h
    cases h
  | ok result =>
    obtain ⟨consumed, remaining⟩ := result
    obtain ⟨new, hnew, hspends⟩ := spends_consumeResources hof hconsume
    rw [List.append_nil] at hnew hspends
    subst hnew
    refine ⟨?_, ↑remaining, hspends⟩
    rw [← sum_consumeResources hconsume]
    exact congrArg List.sum List.map_map

theorem spends_resultOf (matching : Matching) (offer : ResourceOffer) (runSpec : RunSpec)
    (selector : ResourceSelector) (volumes : List PersistentVolumeWithMount) (scope : Scope)
    {types : List DiskType} {k : Kind} (hk : k ∈ kinds types)
    (h : (resultOf matching offer runSpec selector volumes scope k).isMatch = true) :
    ∃ rest, Spends Takes ((↑(payable offer selector) : Multiset Resource).filter k.Has)
      ↑(resultOf matching offer runSpec selector volumes scope k).consumedResources rest := by
  cases k with
  | scalar name =>
    have hnames : name = .cpus ∨ name = .mem ∨ name = .gpus := by
      simpa [kinds] using hk
    have hscalar : name ∈ scalarNames ∧ name ≠ .disk := by
      rcases hnames with rfl | rfl | rfl <;> decide
    rw [filter_payable_scalar offer selector hscalar.1]
    exact (matchScalarResource_spec hscalar.2 h).2
  | disk type =>
    obtain ⟨consumed, hresult⟩ := eq_of_isMatch_diskResult h
    obtain ⟨-, -, hspends⟩ := diskResult_spec hresult
    rw [filter_payable_disk, resultOf, hresult]
    exact hspends

/-- The volumes for which disks are requested: those of a run spec, if they are to be reserved. -/
def requestedVolumes (runSpec : RunSpec) (selector : ResourceSelector) :
    Except IllegalStateException (List PersistentVolumeWithMount) :=
  if needToReserveDisk runSpec selector then runSpec.volumesWithMounts else .ok []

theorem exists_of_isMatch {matching : Matching} {conditions : Conditions} {offer : ResourceOffer}
    (h : matchResources matching conditions offer runSpec selector = .ok (.isMatch m)) :
    ∃ volumes scope, requestedVolumes runSpec selector = .ok volumes ∧
      m.scalarMatches = ((kinds (requestedTypes matching runSpec.resources.disk volumes)).filter
        fun k => (resultOf matching offer runSpec selector volumes scope k).requiredValue ≠ 0).map
          (resultOf matching offer runSpec selector volumes scope) := by
  obtain ⟨disk, hdisk, hresults⟩ := scalarMatchResults_eq_ok (scalarMatches_of_isMatch h).1
  have hvolumes : ∃ volumes scope, requestedVolumes runSpec selector = .ok volumes ∧
      disk = matchDiskResource matching offer.resources selector runSpec.resources.disk volumes
        scope := by
    unfold diskMatch at hdisk
    unfold requestedVolumes
    split_ifs at hdisk ⊢
    · cases hwanted : runSpec.volumesWithMounts with
      | error e =>
        rw [hwanted] at hdisk
        cases hdisk
      | ok volumes =>
        rw [hwanted] at hdisk
        exact ⟨volumes, _, rfl, (Except.ok.inj hdisk).symm⟩
    · exact ⟨[], _, rfl, (Except.ok.inj hdisk).symm⟩
  obtain ⟨volumes, scope, hrequested, rfl⟩ := hvolumes
  refine ⟨volumes, scope, hrequested, ?_⟩
  have hall : ([ResourceName.cpus, .mem, .gpus].map fun name =>
      matchScalarResource offer.resources selector name (runSpec.resources.quantity name)) ++
      matchDiskResource matching offer.resources selector runSpec.resources.disk volumes scope =
        (kinds (requestedTypes matching runSpec.resources.disk volumes)).map
          (resultOf matching offer runSpec selector volumes scope) := by
    rw [matchDiskResource_eq, kinds, List.map_append, List.map_map]
    rfl
  rw [hresults, hall, List.filter_map]
  rfl

theorem isMatch_resultOf {matching : Matching} {conditions : Conditions} {offer : ResourceOffer}
    {types : List DiskType}
    (h : matchResources matching conditions offer runSpec selector = .ok (.isMatch m))
    (hm : m.scalarMatches = ((kinds types).filter fun k =>
      (resultOf matching offer runSpec selector volumes scope k).requiredValue ≠ 0).map
        (resultOf matching offer runSpec selector volumes scope)) {k : Kind} (hk : k ∈ kinds types)
    (hrequired : (resultOf matching offer runSpec selector volumes scope k).requiredValue ≠ 0) :
    resultOf matching offer runSpec selector volumes scope k ∈ m.scalarMatches ∧
      (resultOf matching offer runSpec selector volumes scope k).isMatch = true := by
  have hmem : resultOf matching offer runSpec selector volumes scope k ∈ m.scalarMatches := by
    rw [hm]
    exact List.mem_map_of_mem (List.mem_filter.mpr ⟨hk, decide_eq_true hrequired⟩)
  exact ⟨hmem, (scalarMatches_of_isMatch h).2 _ hmem⟩

theorem sum_contribution_scalar {offer : ResourceOffer}
    {name' : ResourceName} (hdisk : name' ≠ .disk) (required : ℚ)
    (h : required ≠ 0 → (matchScalarResource offer.resources selector name' required).isMatch = true) :
    (contribution name (matchScalarResource offer.resources selector name' required)).sum =
      if name' = name then max 0 required else 0 := by
  obtain ⟨hname, hrequired, -⟩ :=
    consumedResources_matchScalarResource offer.resources selector name' required
  rw [contribution, hname, hrequired]
  by_cases hzero : required = 0
  · simp [hzero]
  · rw [← (matchScalarResource_spec hdisk (h hzero)).1]
    by_cases heq : name' = name
    · rw [if_pos ⟨hzero, heq⟩, if_pos heq]
    · rw [if_neg fun hboth => heq hboth.2, if_neg heq, List.sum_nil]

theorem sum_amounts {matching : Matching} {conditions : Conditions} {offer : ResourceOffer}
    (h : matchResources matching conditions offer runSpec selector = .ok (.isMatch m))
    (hname : name ∈ [ResourceName.cpus, .mem, .gpus]) :
    (m.amounts name).sum = max 0 (runSpec.resources.quantity name) := by
  obtain ⟨volumes, scope, -, hm⟩ := exists_of_isMatch h
  have hports : m.portsMatch.resources.filter (fun r => r.name = name) = [] := by
    rw [List.filter_eq_nil_iff]
    intro r hr hrname
    rw [← of_decide_eq_true hrname, m.portsMatch.name_resources r hr] at hname
    exact absurd hname (by decide)
  let types := requestedTypes matching runSpec.resources.disk volumes
  have hscalar : ∀ name' ∈ [ResourceName.cpus, .mem, .gpus],
      (contribution name (matchScalarResource offer.resources selector name'
        (runSpec.resources.quantity name'))).sum =
          if name' = name then max 0 (runSpec.resources.quantity name') else 0 := by
    intro name' hname'
    refine sum_contribution_scalar ?_ _ fun hrequired => ?_
    · rintro rfl
      exact absurd hname' (by decide)
    · have hk : Kind.scalar name' ∈ kinds types :=
        List.mem_append_left _ (List.mem_map_of_mem (f := Kind.scalar) hname')
      have hvalue := (consumedResources_matchScalarResource offer.resources selector name'
        (runSpec.resources.quantity name')).2.1
      exact (isMatch_resultOf h hm hk (hvalue ▸ hrequired)).2
  have hdisk : ((types.map Kind.disk).map
      (resultOf matching offer runSpec selector volumes scope)).flatMap (contribution name) = [] := by
    rw [List.flatMap_eq_nil_iff]
    intro result hresult
    obtain ⟨k, hk, rfl⟩ := List.mem_map.mp hresult
    obtain ⟨type, htype, rfl⟩ := List.mem_map.mp hk
    refine if_neg fun ⟨hrequired, hdiskName⟩ => ?_
    have hmatch := (isMatch_resultOf h hm (List.mem_append_right _ hk) hrequired).2
    obtain ⟨consumed, heq⟩ := eq_of_isMatch_diskResult hmatch
    rw [resultOf, heq] at hdiskName
    have hdiskName : ResourceName.disk = name := hdiskName
    rw [← hdiskName] at hname
    exact absurd hname (by decide)
  have hcpus := hscalar .cpus (by decide)
  have hmem := hscalar .mem (by decide)
  have hgpus := hscalar .gpus (by decide)
  rw [ResourceMatch.amounts, ResourceMatch.chunks, ResourceMatch.resources, List.filter_append,
    hports, List.append_nil, hm]
  have hfilter : ((kinds types).filter fun k =>
      (resultOf matching offer runSpec selector volumes scope k).requiredValue ≠ 0).map
        (resultOf matching offer runSpec selector volumes scope) =
      ((kinds types).map (resultOf matching offer runSpec selector volumes scope)).filter
        fun r => r.requiredValue ≠ 0 := by
    rw [List.filter_map]
    rfl
  rw [hfilter, amounts_filter, kinds, List.map_append, List.flatMap_append, hdisk, List.append_nil]
  simp only [List.map_cons, List.map_nil, List.flatMap_cons, List.flatMap_nil, List.append_nil,
    List.sum_append, resultOf, hcpus, hmem, hgpus]
  simp only [List.mem_cons, List.not_mem_nil, or_false] at hname
  rcases hname with rfl | rfl | rfl <;> simp

/-- What a match takes of an offer. -/
structure Conserves (matching : Matching) (offer : ResourceOffer) (runSpec : RunSpec)
    (selector : ResourceSelector) (m : ResourceMatch) : Prop where
  nonneg : ∀ name ∈ scalarNames, ∀ amount ∈ m.amounts name, 0 ≤ amount
  /-- Accepted resources pay for all that is taken, none of them more than its value. -/
  ledger : ∃ ledger, IsLedger Resource.scalar Resource.scalar IsOf ↑(payable offer selector)
    ↑(m.scalarMatches.flatMap ScalarMatchResult.consumedResources) ledger
  amounts : ∀ name ∈ [ResourceName.cpus, .mem, .gpus],
    (m.amounts name).sum = max 0 (runSpec.resources.quantity name)
  /-- Disks are taken for the scratch disk and the volumes. Only when nothing is requested of a type
  its result may be missing. -/
  disks : ∃ volumes, requestedVolumes runSpec selector = .ok volumes ∧ ∀ type,
    (∀ consumed scope, .diskResourceMatch type consumed scope ∈ m.scalarMatches →
      DisksTaken matching offer.resources selector runSpec.resources.disk volumes type consumed) ∧
    ((∀ r ∈ diskRequests runSpec.resources.disk volumes type, 0 ≤ r.size) →
      (∃ r ∈ diskRequests runSpec.resources.disk volumes type, 0 < r.size) →
        ∃ consumed scope, .diskResourceMatch type consumed scope ∈ m.scalarMatches)

theorem conserves_of_isMatch {matching : Matching} {conditions : Conditions} {offer : ResourceOffer}
    (h : matchResources matching conditions offer runSpec selector = .ok (.isMatch m)) :
    Conserves matching offer runSpec selector m := by
  obtain ⟨volumes, scope, hrequested, hm⟩ := exists_of_isMatch h
  refine ⟨fun name hname => amounts_nonneg h hname, ?_, fun name hname => sum_amounts h hname,
    volumes, hrequested, fun type => ⟨fun consumed scope' hmem => ?_, fun hsize hpos => ?_⟩⟩
  · let types := requestedTypes matching runSpec.resources.disk volumes
    let parts := (kinds types).filter fun k =>
      (resultOf matching offer runSpec selector volumes scope k).requiredValue ≠ 0
    have htypes : types.Nodup := by
      have hperm := matching.perm_diskTypeOrder ((((if 0 < runSpec.resources.disk then
        [Request.scratch runSpec.resources.disk] else []) ++ volumes.map Request.volume).map
          Request.diskType).eraseDups)
      exact hperm.nodup_iff.mpr (nodup_eraseDups _)
    have hparts : parts.Pairwise fun i j => ∀ r : Resource, i.Has r → ¬j.Has r :=
      (kinds_disjoint htypes).sublist List.filter_sublist
    have hall : ∃ rest, Spends Takes ↑(payable offer selector) (parts.map fun k =>
        (↑(resultOf matching offer runSpec selector volumes scope k).consumedResources :
          Multiset Resource)).sum rest := by
      refine Spends.of_parts hparts fun k hk => ?_
      obtain ⟨hk, hrequired⟩ := List.mem_filter.mp hk
      exact spends_resultOf matching offer runSpec selector volumes scope hk
        (isMatch_resultOf h hm hk (of_decide_eq_true hrequired)).2
    obtain ⟨rest, hspends⟩ := hall
    have hsum : ∀ l : List Kind, (l.map fun k => (↑(resultOf matching offer runSpec selector volumes
        scope k).consumedResources : Multiset Resource)).sum =
          ↑((l.map (resultOf matching offer runSpec selector volumes scope)).flatMap
            ScalarMatchResult.consumedResources) := by
      intro l
      induction l with
      | nil => rfl
      | cons k l ih =>
        rw [List.map_cons, List.sum_cons, ih, Multiset.coe_add]
        rfl
    rw [hsum, ← hm] at hspends
    refine hspends.exists_ledger (fun r hr => ?_) fun _ _ _ htakes => htakes.spends
    obtain ⟨hmem, hr⟩ := List.mem_filter.mp (Multiset.mem_coe.mp hr)
    exact offer.nonneg hmem (of_decide_eq_true (Bool.and_eq_true_iff.mp hr).1)
  · rw [hm] at hmem
    obtain ⟨k, hk, hresult⟩ := List.mem_map.mp hmem
    cases k with
    | scalar name =>
      unfold resultOf matchScalarResource at hresult
      dsimp only at hresult
      split at hresult <;> cases hresult
    | disk type' =>
      obtain ⟨rfl, hdisks, -⟩ := diskResult_spec hresult
      exact hdisks
  · have hpositive : 0 < (resultOf matching offer runSpec selector volumes scope
        (.disk type)).requiredValue := requiredValue_diskResult_pos hsize hpos
    have htype : type ∈ requestedTypes matching runSpec.resources.disk volumes := by
      obtain ⟨r, hr, -⟩ := hpos
      exact mem_requestedTypes.mpr (List.ne_nil_of_mem hr)
    obtain ⟨hmem, hmatch⟩ := isMatch_resultOf h hm
      (List.mem_append_right _ (List.mem_map_of_mem htype)) hpositive.ne'
    obtain ⟨consumed, heq⟩ := eq_of_isMatch_diskResult hmatch
    rw [resultOf, heq] at hmem
    exact ⟨consumed, scope, hmem⟩

/-! ## When a request matches -/

theorem isMatch_matchScalarResource_iff (offer : ResourceOffer) (selector : ResourceSelector)
    (hname : name ∈ [ResourceName.cpus, .mem, .gpus]) (required : ℚ) :
    (matchScalarResource offer.resources selector name required).isMatch = true ↔
      required ≤ (offered offer selector name).sum := by
  have hscalar : name ∈ scalarNames ∧ name ≠ .disk := by
    simp only [List.mem_cons, List.not_mem_nil, or_false] at hname
    rcases hname with rfl | rfl | rfl <;> decide
  have hresources : ∀ r ∈ offer.resources.filter fun r => r.name = name && selector.accepts r,
      0 ≤ r.scalar := by
    intro r hr
    obtain ⟨hmem, hr⟩ := List.mem_filter.mp hr
    refine offer.nonneg hmem ?_
    rw [of_decide_eq_true (Bool.and_eq_true_iff.mp hr).1]
    exact hscalar.1
  have hoffered : offered offer selector name =
      (offer.resources.filter fun r => r.name = name && selector.accepts r).map Resource.scalar := by
    unfold offered
    simp [hscalar.2]
  rw [hoffered, ← exists_consumeResources_iff hresources]
  unfold matchScalarResource
  dsimp only
  split
  · rename_i valueLeft herror
    refine iff_of_false Bool.false_ne_true ?_
    rintro ⟨result, hok⟩
    rw [herror] at hok
    cases hok
  · rename_i consumed remaining hok
    exact iff_of_true rfl ⟨_, hok⟩

theorem isMatch_scratch_iff (matching : Matching) (offer : ResourceOffer)
    (selector : ResourceSelector) (hpos : 0 < scratchDisk) (scope : Scope) :
    ∀ result ∈ matchDiskResource matching offer.resources selector scratchDisk [] scope,
      result.isMatch = true ↔ scratchDisk ≤ (offered offer selector .disk).sum := by
  let ofType := acceptedDisks offer.resources selector .root
  have hroot : ∀ r ∈ ofType, r.getDiskSourceOption = none := by
    intro r hr
    have htype := (List.mem_filter.mp hr).2
    rw [Bool.and_eq_true, Bool.and_eq_true] at htype
    exact diskType_eq_root_iff.mp (of_decide_eq_true htype.1.2)
  have hresources : ∀ r ∈ ofType, 0 ≤ r.scalar := by
    intro r hr
    refine offer.nonneg (List.mem_of_mem_filter hr) ?_
    rw [name_of_mem_acceptedDisks r hr]
    decide
  have hoffered : offered offer selector .disk = ofType.map Resource.scalar := by
    unfold offered
    simp [ofType, acceptedDisks]
  have hrequests : diskRequests scratchDisk [] .root = [.scratch scratchDisk] := by
    simp [diskRequests, hpos, Request.diskType]
  have htypes : requestedTypes matching scratchDisk [] = [.root] := by
    have horder := List.perm_singleton.mp (matching.perm_diskTypeOrder [.root])
    rw [requestedTypes, if_pos hpos]
    exact horder
  intro result hresult
  rw [matchDiskResource_eq, htypes, List.map_singleton, List.mem_singleton] at hresult
  subst hresult
  rw [diskResult, if_neg (by decide), hrequests, listFromResources_root matching hroot, findMatches,
    hoffered]
  by_cases hnil : ofType = []
  · rw [if_pos hnil, hnil]
    exact iff_of_false Bool.false_ne_true (not_le.mpr hpos)
  · rw [if_neg hnil]
    dsimp only [prioritizeDiskResources]
    rw [findDiskGroupMatches, ← exists_consumeResources_iff hresources]
    cases hconsume : consumeResources (requestMatcher matching (.scratch scratchDisk)) ofType
        scratchDisk [] [] with
    | error valueLeft =>
      dsimp only [Request.size]
      rw [hconsume]
      refine iff_of_false Bool.false_ne_true ?_
      rintro ⟨result, hok⟩
      exact absurd (hconsume.symm.trans hok) (fun herror => by cases herror)
    | ok result =>
      dsimp only [Request.size]
      rw [hconsume]
      exact iff_of_true rfl ⟨result, hconsume⟩

/-- Resource matching conserves the offer. -/
theorem matchResources_conserves (matching : Matching) (conditions : Conditions)
    (offer : ResourceOffer) (runSpec : RunSpec) (selector : ResourceSelector) :
    (∀ name ∈ [ResourceName.cpus, .mem, .gpus], ∀ required,
      (matchScalarResource offer.resources selector name required).isMatch = true ↔
        required ≤ (offered offer selector name).sum) ∧
    (∀ scratchDisk, 0 < scratchDisk → ∀ scope,
      ∀ result ∈ matchDiskResource matching offer.resources selector scratchDisk [] scope,
        (result.isMatch = true ↔ scratchDisk ≤ (offered offer selector .disk).sum)) ∧
    ∀ m, matchResources matching conditions offer runSpec selector = .ok (.isMatch m) →
      Conserves matching offer runSpec selector m :=
  ⟨fun _ hname required => isMatch_matchScalarResource_iff offer selector hname required,
    fun _ hpos scope => isMatch_scratch_iff matching offer selector hpos scope,
    fun _ h => conserves_of_isMatch h⟩

namespace ConservedResources

/-! A pod has a path volume and a mount volume of size 0, and the offer has no mount disk. -/

def dataDisk : Source := ⟨.path "/data", none, [], none, none⟩

def offer : ResourceOffer where
  hostname := "agent"
  role := "*"
  region := none
  zone := none
  attributes := []
  resources := [⟨.disk, .scalar 300, "*", none, none, some ⟨none, none, some dataDisk⟩⟩]
  scalar_nonneg := by
    intro r hr _
    obtain rfl := List.mem_singleton.mp hr
    exact ⟨300, rfl, by norm_num⟩

def data : PersistentVolumeInfo := ⟨100, none, .path, none, ∅⟩

def cache : PersistentVolumeInfo := ⟨0, none, .mount, none, ∅⟩

def pod : RunSpec := .pod { plainPod ⟨["store"]⟩ [] with
  volumes := [.persistentVolume (some "data") data, .persistentVolume (some "cache") cache] }

def reservable : ResourceSelector := ⟨["*"], true, .withoutReservationLabels⟩

def onePort : PortsMatch where
  hostPorts := [some 31000]
  resources := [⟨.ports, .ranges [(31000, 31000)], "*", none, none, none⟩]
  name_resources := by decide

def conditions : Conditions := ⟨true, true, true, true, true, some onePort⟩

def dataVolume : PersistentVolumeWithMount := ⟨⟨some "data", data⟩, ⟨some "data", "data", false⟩⟩

def cacheVolume : PersistentVolumeWithMount := ⟨⟨some "cache", cache⟩, ⟨some "cache", "cache", false⟩⟩

/-- Only the path volume is matched. -/
def dataOnly : ResourceMatch :=
  ⟨[.diskResourceMatch .path [⟨⟨100, "*", none, none⟩, some dataDisk, some dataVolume⟩]
    .includingLocalVolumes], onePort⟩

theorem matchResources_pod :
    matchResources MountDisks.plain conditions offer pod reservable = .ok (.isMatch dataOnly) := by
  decide +kernel

theorem conserves_dataOnly : Conserves MountDisks.plain offer pod reservable dataOnly :=
  (matchResources_conserves MountDisks.plain conditions offer pod reservable).2.2 dataOnly
    matchResources_pod

/-- The mount volume has no disk, and the pod matches. -/
theorem not_forall_mount_taken :
    ¬∀ (matching : Matching) (conditions : Conditions) (offer : ResourceOffer) (runSpec : RunSpec)
      (selector : ResourceSelector) (m : ResourceMatch),
      matchResources matching conditions offer runSpec selector = .ok (.isMatch m) →
        ∃ volumes, requestedVolumes runSpec selector = .ok volumes ∧
          ∀ v ∈ mountRequests volumes, ∃ consumed scope,
            .diskResourceMatch .mount consumed scope ∈ m.scalarMatches ∧
              ∃ disk ∈ acceptedDisks offer.resources selector .mount,
                fits matching v disk = true ∧ mountConsumption v disk ∈ consumed := by
  intro hall
  obtain ⟨volumes, hrequested, hmount⟩ :=
    hall MountDisks.plain conditions offer pod reservable dataOnly matchResources_pod
  have hvolumes : requestedVolumes pod reservable = .ok [dataVolume, cacheVolume] := by
    decide +kernel
  cases hvolumes.symm.trans hrequested
  have hcache : cacheVolume ∈ mountRequests [dataVolume, cacheVolume] :=
    List.mem_mergeSort.mpr (List.mem_filter.mpr ⟨by simp, rfl⟩)
  obtain ⟨consumed, scope, hmem, -⟩ := hmount cacheVolume hcache
  cases List.mem_singleton.mp hmem

end ConservedResources

end ResourceMatcher

end Marathon
