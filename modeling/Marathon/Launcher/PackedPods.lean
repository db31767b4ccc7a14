import Marathon.Instance.LiveTasks
import Marathon.Launcher.TaskGroupBuilder

/-!
# Pods in the resources that were matched

The matcher only looks at the total of each resource. A pod can be built from a match when its
quantities, which cannot be divided, also fit into the chunks that the match is made of. What is
built stays within the chunks when equal quantities lie in one chunk.
-/

namespace Marathon.TaskGroupBuilder

open Lib Mesos ResourceMatcher

variable {order : MapOrder} {pod : PodDefinition} {m : ResourceMatch}

theorem sum_filter_le (l : List ℚ) : l.sum ≤ (l.filter (0 < ·)).sum := by
  induction l with
  | nil => exact le_rfl
  | cons q l ih =>
    by_cases hq : 0 < q
    · rw [List.filter_cons_of_pos (by simpa using hq), List.sum_cons, List.sum_cons]
      exact add_le_add le_rfl ih
    · rw [List.filter_cons_of_neg (by simpa using hq), List.sum_cons]
      exact (add_le_of_nonpos_left (not_lt.mp hq)).trans ih

theorem verifyMatchedResources_of_packable
    (hamounts : ∀ name ∈ scalarNames, ∀ amount ∈ m.amounts name, 0 ≤ amount)
    (h : ∀ name ∈ scalarNames, Packable (quantities pod name) (m.amounts name)) :
    verifyMatchedResources pod m.resources = .ok () := by
  rw [verifyMatchedResources_eq_ok_iff]
  intro name hname
  obtain ⟨ks, hks⟩ := h name hname
  have hpos : ∀ q ∈ quantities pod name, 0 ≤ q := fun q hq => (quantities_pos q hq).le
  exact (sum_filter_le _).trans (hks.sum_le hpos (hamounts name hname))

/-- A matched pod is built when its quantities fit into the chunks of the match: into what the
offer has of each name, taken in turn up to the total. -/
theorem build_matched_iff {matching : Matching} {conditions : Conditions} {offer : ResourceOffer}
    {selector : ResourceSelector}
    (h : matchResources matching conditions offer (.pod pod) selector = .ok (.isMatch m))
    (order : MapOrder) (taskIds : List TaskId) (volumes : List Resource) :
    ((∃ result, build order pod taskIds m volumes = .ok result) ↔
      ∀ name ∈ scalarNames, Packable (quantities pod name) (m.amounts name)) ∧
    (needToReserveDisk (.pod pod) selector = false →
      ((∃ result, build order pod taskIds m volumes = .ok result) ↔
        ∀ name ∈ scalarNames, Packable (quantities pod name)
          (taken (offered offer selector name) (pod.aggregateResources.quantity name)))) := by
  have hiff : (∃ result, build order pod taskIds m volumes = .ok result) ↔
      ∀ name ∈ scalarNames, Packable (quantities pod name) (m.amounts name) := by
    rw [exists_build_iff, and_iff_right_iff_imp]
    exact verifyMatchedResources_of_packable fun name hname => amounts_nonneg h hname
  refine ⟨hiff, fun hreserve => hiff.trans ?_⟩
  apply forall₂_congr
  intro name hname
  rw [amounts_of_isMatch h hreserve hname]
  exact packable_perm_iff (List.reverse_perm _)

namespace Split

/-! A pod asks for two CPUs in one container, and the offer has them in two roles. -/

def matching : Matching where
  meetsVolume := fun _ _ => true
  sourceOrder := id
  diskTypeOrder := id
  perm_sourceOrder := List.Perm.refl
  perm_diskTypeOrder := List.Perm.refl

def noPorts : PortsMatch := ⟨[], [], fun _ h => absurd h List.not_mem_nil⟩

def conditions : Conditions := ⟨true, true, true, true, true, some noPorts⟩

def cpus (value : ℚ) (role : Role) : Resource := ⟨.cpus, .scalar value, role, none, none, none⟩

def containerWith (name : String) (cpus : ℚ) : MesosContainer :=
  { plainContainer name with resources := ⟨cpus, 0, 0, 0⟩ }

def podOf (containers : List MesosContainer) : PodDefinition :=
  { plainPod ⟨["split"]⟩ [] with containers := containers }

def offer : ResourceOffer where
  hostname := "agent"
  role := "*"
  region := none
  zone := none
  attributes := []
  resources := [cpus 1 "*", cpus 1 "web"]
  scalar_nonneg := by
    intro r hr _
    obtain rfl | rfl : r = cpus 1 "*" ∨ r = cpus 1 "web" := by simpa using hr
    · exact ⟨1, rfl, zero_le_one⟩
    · exact ⟨1, rfl, zero_le_one⟩

def selector : ResourceSelector := .any ["*", "web"]

def listed : MapOrder := ⟨List.range, fun _ => List.Perm.refl _⟩

/-- Both chunks are taken. -/
def twoChunks : ResourceMatch :=
  ⟨[.generalScalarMatch .cpus 2 [⟨1, "web", none, none⟩, ⟨1, "*", none, none⟩] .noneDisk], noPorts⟩

def largePod : PodDefinition := podOf [containerWith "large" 2]

theorem matchResources_largePod :
    matchResources matching conditions offer (.pod largePod) selector = .ok (.isMatch twoChunks) := by
  decide +kernel

theorem not_packable : ¬ Packable (quantities largePod .cpus) (twoChunks.amounts .cpus) := by
  rw [← exists_firstFit_iff fun q hq => (quantities_pos q hq).le]
  rintro ⟨ks, hks⟩
  have hnone : firstFit (quantities largePod .cpus) (twoChunks.amounts .cpus) = none := by
    decide +kernel
  rw [hnone] at hks
  cases hks

end Split

theorem not_forall_build_matched :
    ¬ ∀ (matching : Matching) (conditions : Conditions) (offer : ResourceOffer) (pod : PodDefinition)
      (selector : ResourceSelector) (m : ResourceMatch) (order : MapOrder) (taskIds : List TaskId)
      (volumes : List Resource),
      matchResources matching conditions offer (.pod pod) selector = .ok (.isMatch m) →
        ∃ result, build order pod taskIds m volumes = .ok result := by
  intro h
  have hbuild := h _ _ _ _ _ _ Split.listed [] [] Split.matchResources_largePod
  rw [exists_build_iff] at hbuild
  exact Split.not_packable (hbuild.2 .cpus (by decide))

theorem build_largePod_iff :
    ((∃ result, build Split.listed Split.largePod [] Split.twoChunks [] = .ok result) ↔
      ∀ name ∈ scalarNames,
        Packable (quantities Split.largePod name) (Split.twoChunks.amounts name)) ∧
    (needToReserveDisk (.pod Split.largePod) Split.selector = false →
      ((∃ result, build Split.listed Split.largePod [] Split.twoChunks [] = .ok result) ↔
        ∀ name ∈ scalarNames, Packable (quantities Split.largePod name)
          (taken (offered Split.offer Split.selector name)
            (Split.largePod.aggregateResources.quantity name)))) :=
  build_matched_iff Split.matchResources_largePod Split.listed [] []

/-! ## The search -/

/-- The chunks in some order with the quantities that are placed into them, each quantity as a
resource with this value and the name, role and reservation of its chunk. -/
structure Placed (qs : List ℚ) (resources chunks : List Resource) (parts : List (List ℚ))
    (entries : List (ℚ × Resource)) : Prop where
  arranged : chunks.Perm resources
  partitions : Partitions qs (chunks.map Resource.scalar) parts
  placed : entries = (chunks.zip parts).flatMap fun p => p.2.map fun q => (q, p.1.setScalar q)
  once : (entries.map Prod.fst).Perm qs
  values : ∀ e ∈ entries, e.2.scalar = e.1 ∧
    ∃ r ∈ resources, e.2.name = r.name ∧ e.2.role = r.role ∧ e.2.reservation = r.reservation

theorem map_fst_packedEntries {chunks : List Resource} {parts : List (List ℚ)}
    (h : parts.length = chunks.length) : (packedEntries chunks parts).map Prod.fst = parts.flatten := by
  induction parts generalizing chunks with
  | nil =>
    rw [packedEntries, List.zip_nil_right]
    rfl
  | cons part parts ih =>
    cases chunks with
    | nil => cases h
    | cons r chunks =>
      rw [packedEntries, List.zip_cons_cons, List.flatMap_cons, List.map_append, List.map_map,
        List.flatten_cons, ← ih (Nat.succ.inj h)]
      exact congrArg (· ++ _) (List.map_id part)

/-- The search succeeds if and only if there is a partition, and what it finds is one. -/
theorem binPack_spec (order : MapOrder) {qs : List ℚ} (hqs : ∀ q ∈ qs, 0 < q)
    (resources : List Resource) :
    ((∃ entries, binPack order qs resources = .ok entries) ↔
      ∃ parts, Partitions qs (resources.map Resource.scalar) parts) ∧
    ∀ entries, binPack order qs resources = .ok entries →
      ∃ chunks parts, Placed qs resources chunks parts entries := by
  have hnonneg : ∀ q ∈ qs, 0 ≤ q := fun q hq => (hqs q hq).le
  have harrange := order.arrange_perm (resources.map Resource.scalar)
  constructor
  · rw [← packable_iff_partitions hnonneg, ← packable_perm_iff harrange,
      ← exists_firstFit_iff hnonneg]
    constructor
    · rintro ⟨entries, hok⟩
      obtain ⟨ks, hks, -⟩ := binPack_eq_ok_iff.mp hok
      exact ⟨ks, hks⟩
    · rintro ⟨ks, hks⟩
      exact ⟨_, binPack_eq_ok_iff.mpr ⟨ks, hks, rfl⟩⟩
  · intro entries hok
    obtain ⟨ks, hks, hentries⟩ := binPack_eq_ok_iff.mp hok
    rw [arrange_map] at hks
    have hparts := ((firstFit_eq_some_iff hnonneg).mp hks).1.partitions
    rw [List.map_map] at hparts
    have hlength := hparts.within.length_eq
    rw [List.length_map] at hlength
    refine ⟨order.arrange resources, _, order.arrange_perm resources, hparts, hentries, ?_, ?_⟩
    · rw [hentries]
      exact (map_fst_packedEntries hlength).symm ▸ hparts.perm
    · rw [hentries]
      intro e he
      obtain ⟨⟨r, part⟩, hmem, he⟩ := List.mem_flatMap.mp he
      obtain ⟨q, -, rfl⟩ := List.mem_map.mp he
      have hr := (order.arrange_perm resources).mem_iff.mp (List.of_mem_zip hmem).1
      exact ⟨rfl, r, hr, rfl, rfl, rfl⟩

theorem binPack_twoChunks :
    (∃ entries, binPack Split.listed [1, 1] [Split.cpus 1 "*", Split.cpus 1 "web"] = .ok entries) ∧
    ∀ entries, binPack Split.listed [1, 1] [Split.cpus 1 "*", Split.cpus 1 "web"] = .ok entries →
      ∃ chunks parts, Placed [1, 1] [Split.cpus 1 "*", Split.cpus 1 "web"] chunks parts entries := by
  have hpos : ∀ q ∈ ([1, 1] : List ℚ), 0 < q := by decide
  have hspec := binPack_spec Split.listed hpos [Split.cpus 1 "*", Split.cpus 1 "web"]
  refine ⟨hspec.1.mpr ⟨[[1], [1]], List.Perm.refl _, ?_⟩, hspec.2⟩
  exact .cons (fun _ => by decide +kernel) (.cons (fun _ => by decide +kernel) .nil)

/-! ## What is drawn from the chunks -/

/-- The name, the role and the reservation of a resource. -/
def chunk (r : Resource) : ResourceName × Role × Option ReservationInfo :=
  (r.name, r.role, r.reservation)

def amountOf (l : List Resource) (c : ResourceName × Role × Option ReservationInfo) : ℚ :=
  ((l.filter fun r => chunk r = c).map Resource.scalar).sum

def total (l : List Resource) (name : ResourceName) : ℚ :=
  ((l.filter fun r => r.name = name).map Resource.scalar).sum

/-- What executor and tasks draw from the match. -/
def drawn (result : ExecutorInfo × List TaskInfo) : List Resource :=
  result.1.consumed ++ result.2.flatMap TaskInfo.resources

/-- What the executor asks for, and the containers that become tasks. -/
def served (pod : PodDefinition) (taskIds : List TaskId) : List Resources :=
  pod.executorResources :: (pod.containers.take taskIds.length).map fun c => c.resources

/-- No chunk of the match is overdrawn, and everybody gets what it asks for. -/
structure WithinMatch (pod : PodDefinition) (taskIds : List TaskId) (m : ResourceMatch)
    (result : ExecutorInfo × List TaskInfo) : Prop where
  chunks : ∀ name ∈ scalarNames, ∀ r ∈ m.chunks name,
    amountOf (drawn result) (chunk r) ≤ amountOf m.resources (chunk r)
  executor : ∀ name ∈ scalarNames,
    total result.1.consumed name = pod.executorResources.quantity name
  tasks : List.Forall₂ (fun container task => ∀ name ∈ scalarNames,
    total task.resources name = container.resources.quantity name)
    (pod.containers.take taskIds.length) result.2

/-- What is asked of a chunk when every quantity is served from the first bin that holds it. -/
def demand (order : MapOrder) (pod : PodDefinition) (taskIds : List TaskId) (m : ResourceMatch)
    (ks : List ℕ) (name : ResourceName) (c : ResourceName × Role × Option ReservationInfo) : ℚ :=
  ((served pod taskIds).map fun r =>
    if (servedFrom (bins order m name) (quantities pod name) ks (r.quantity name)).map chunk = some c
    then r.quantity name else 0).sum

theorem amountOf_append (l l' : List Resource) (c : ResourceName × Role × Option ReservationInfo) :
    amountOf (l ++ l') c = amountOf l c + amountOf l' c := by
  unfold amountOf
  rw [List.filter_append, List.map_append, List.sum_append]

theorem amountOf_flatMap {α : Type} (f : α → List Resource) (l : List α)
    (c : ResourceName × Role × Option ReservationInfo) :
    amountOf (l.flatMap f) c = (l.map fun a => amountOf (f a) c).sum := by
  induction l with
  | nil => rfl
  | cons a l ih => rw [List.flatMap_cons, amountOf_append, ih, List.map_cons, List.sum_cons]

variable {name : ResourceName} {r : Resource} {ks : List ℕ}

theorem name_of_mem_bins (h : r ∈ bins order m name) : r.name = name :=
  of_decide_eq_true (List.mem_filter.mp ((order.arrange_perm _).mem_iff.mp h)).2

theorem servedFrom_eq_some {qs : List ℚ} {q : ℚ}
    (h : servedFrom (bins order m name) qs ks q = some r) : r.name = name ∧ r.scalar = q := by
  unfold servedFrom at h
  split_ifs at h
  obtain ⟨bin, hbin, rfl⟩ := Option.map_eq_some_iff.mp h
  obtain ⟨k, -, hk⟩ := Option.bind_eq_some_iff.mp hbin
  have hname : bin.name = name := name_of_mem_bins (List.mem_of_getElem? hk)
  exact ⟨hname, rfl⟩

theorem filter_serve (ks : ResourceName → List ℕ) (r : Resources)
    (hname : name ∈ scalarNames) {p : Resource → Bool} (hp : ∀ r, p r = true → r.name = name) :
    (serve order pod m ks r).filter p =
      (servedFrom (bins order m name) (quantities pod name) (ks name)
        (r.quantity name)).toList.filter p := by
  have hother : ∀ name', (servedFrom (bins order m name') (quantities pod name') (ks name')
      (r.quantity name')).toList.filter p =
      if name' = name then
        (servedFrom (bins order m name) (quantities pod name) (ks name)
          (r.quantity name)).toList.filter p
      else [] := by
    intro name'
    by_cases heq : name' = name
    · rw [if_pos heq, heq]
    · rw [if_neg heq, List.filter_eq_nil_iff]
      intro found hfound hpfound
      have hserved := servedFrom_eq_some (Option.mem_toList.mp hfound)
      exact heq (hserved.1.symm.trans (hp found hpfound))
  unfold serve
  rw [List.filter_flatMap, funext hother]
  simp only [scalarNames, List.mem_cons, List.not_mem_nil, or_false] at hname
  rcases hname with rfl | rfl | rfl | rfl <;> simp [scalarNames]

theorem amountOf_serve (ks : ResourceName → List ℕ) (r : Resources)
    (hname : name ∈ scalarNames) (role : Role) (reservation : Option ReservationInfo) :
    amountOf (serve order pod m ks r) (name, role, reservation) =
      if (servedFrom (bins order m name) (quantities pod name) (ks name) (r.quantity name)).map
        chunk = some (name, role, reservation) then r.quantity name else 0 := by
  unfold amountOf
  have hp : ∀ r', decide (chunk r' = (name, role, reservation)) = true → r'.name = name :=
    fun r' hr' => congrArg Prod.fst (of_decide_eq_true hr')
  rw [filter_serve ks r hname hp]
  cases hserved : servedFrom (bins order m name) (quantities pod name) (ks name)
      (r.quantity name) with
  | none => rfl
  | some found =>
    have hscalar := (servedFrom_eq_some hserved).2
    by_cases hchunk : chunk found = (name, role, reservation) <;> simp [hchunk, hscalar]

theorem total_serve {ks : ResourceName → List ℕ} (hks : Packs order pod m ks) {r : Resources}
    (hr : r ∈ requested pod) (hname : name ∈ scalarNames) :
    total (serve order pod m ks r) name = r.quantity name ↔ 0 ≤ r.quantity name := by
  unfold total
  rw [filter_serve ks r hname fun r' hr' => of_decide_eq_true hr']
  obtain hpos | hnonpos := lt_or_ge 0 (r.quantity name)
  · obtain ⟨k, bin, hk, hbin⟩ := exists_bin (hks name hname).1 (mem_quantities hr hpos)
    have hfound := servedFrom_of_bin hpos hk hbin
    obtain ⟨hfoundName, hscalar⟩ := servedFrom_eq_some hfound
    have hfilter : ([bin.setScalar (r.quantity name)].filter fun r' => r'.name = name) =
        [bin.setScalar (r.quantity name)] := by
      rw [List.filter_eq_self]
      intro r' hr'
      rw [List.mem_singleton.mp hr']
      exact decide_eq_true hfoundName
    rw [hfound, Option.toList_some, hfilter, List.map_singleton, List.sum_singleton, hscalar]
    exact iff_of_true rfl hpos.le
  · rw [servedFrom, if_pos hnonpos]
    constructor
    · intro h
      exact h.le
    · intro h
      exact le_antisymm h hnonpos

theorem map_fst_zip_take {α β : Type} (l : List α) (l' : List β) :
    (l.zip l').map Prod.fst = l.take l'.length := by
  induction l generalizing l' with
  | nil => simp
  | cons a l ih =>
    cases l' with
    | nil => rfl
    | cons b l' => rw [List.zip_cons_cons, List.map_cons, ih, List.length_cons, List.take_succ_cons]

theorem drawn_built (taskIds : List TaskId) (volumes : List Resource) (ks : ResourceName → List ℕ) :
    drawn (built order pod taskIds m volumes ks) =
      (served pod taskIds).flatMap (serve order pod m ks) := by
  unfold drawn built served
  rw [List.flatMap_cons, List.flatMap_map, ← map_fst_zip_take, List.map_map, List.flatMap_map]
  rfl

theorem mem_requested_of_served {taskIds : List TaskId} {r : Resources}
    (h : r ∈ served pod taskIds) : r ∈ requested pod := by
  obtain rfl | hr := List.mem_cons.mp h
  · exact List.mem_cons_self
  · obtain ⟨container, hcontainer, rfl⟩ := List.mem_map.mp hr
    exact List.mem_cons_of_mem _ (List.mem_map_of_mem (List.mem_of_mem_take hcontainer))

theorem amountOf_drawn (taskIds : List TaskId) (volumes : List Resource)
    (ks : ResourceName → List ℕ) (hname : name ∈ scalarNames) (hr : r.name = name) :
    amountOf (drawn (built order pod taskIds m volumes ks)) (chunk r) =
      demand order pod taskIds m (ks name) name (chunk r) := by
  subst hr
  rw [drawn_built, amountOf_flatMap]
  unfold demand
  congr 1
  apply List.map_congr_left
  intro r' _
  exact amountOf_serve ks r' hname r.role r.reservation

theorem exact_iff (taskIds : List TaskId) (volumes : List Resource) {ks : ResourceName → List ℕ}
    (hks : Packs order pod m ks) :
    ((∀ name ∈ scalarNames, total (built order pod taskIds m volumes ks).1.consumed name =
        pod.executorResources.quantity name) ∧
      List.Forall₂ (fun container task => ∀ name ∈ scalarNames,
        total task.resources name = container.resources.quantity name)
        (pod.containers.take taskIds.length) (built order pod taskIds m volumes ks).2) ↔
      ∀ r ∈ served pod taskIds, ∀ name ∈ scalarNames, 0 ≤ r.quantity name := by
  have hexact : ∀ r ∈ served pod taskIds,
      (∀ name ∈ scalarNames, total (serve order pod m ks r) name = r.quantity name) ↔
        ∀ name ∈ scalarNames, 0 ≤ r.quantity name := fun r hr =>
    forall₂_congr fun name hname => total_serve hks (mem_requested_of_served hr) hname
  unfold served at hexact ⊢
  rw [List.forall_mem_cons] at hexact ⊢
  obtain ⟨hexecutor, htasks⟩ := hexact
  apply and_congr hexecutor
  rw [← map_fst_zip_take] at htasks ⊢
  unfold built
  rw [List.forall₂_map_left_iff, List.forall₂_map_right_iff, List.forall₂_same]
  simp only [List.map_map, List.mem_map, Function.comp_apply, forall_exists_index, and_imp,
    forall_apply_eq_imp_iff₂] at htasks ⊢
  exact forall₂_congr htasks

theorem withinMatch_iff_demand {taskIds : List TaskId} {volumes : List Resource}
    {result : ExecutorInfo × List TaskInfo} (h : build order pod taskIds m volumes = .ok result) :
    WithinMatch pod taskIds m result ↔
      (∀ r ∈ served pod taskIds, ∀ name ∈ scalarNames, 0 ≤ r.quantity name) ∧
      ∀ name ∈ scalarNames, ∀ ks,
        IsFirstFit (quantities pod name) ((bins order m name).map Resource.scalar) ks →
          ∀ r ∈ m.chunks name,
            demand order pod taskIds m ks name (chunk r) ≤ amountOf m.resources (chunk r) := by
  obtain ⟨ks, hks, rfl⟩ := build_eq_ok h
  rw [← exact_iff taskIds volumes hks]
  have hname : ∀ name, ∀ r ∈ m.chunks name, r.name = name := fun name r hr =>
    of_decide_eq_true (List.mem_filter.mp hr).2
  constructor
  · intro hwithin
    refine ⟨⟨hwithin.executor, hwithin.tasks⟩, ?_⟩
    intro name hscalar ks' hks' r hr
    obtain rfl := hks'.unique (hks name hscalar)
    rw [← amountOf_drawn taskIds volumes ks hscalar (hname name r hr)]
    exact hwithin.chunks name hscalar r hr
  · rintro ⟨⟨hexecutor, htasks⟩, hdemand⟩
    refine ⟨?_, hexecutor, htasks⟩
    intro name hscalar r hr
    rw [amountOf_drawn taskIds volumes ks hscalar (hname name r hr)]
    exact hdemand name hscalar (ks name) (hks name hscalar) r hr

/-! ## Chunks that can be told apart -/

/-- The chunks of every name differ in their roles or reservations, and none is negative. -/
def Distinct (m : ResourceMatch) : Prop :=
  ∀ name ∈ scalarNames, ((m.chunks name).map chunk).Nodup ∧ ∀ amount ∈ m.amounts name, 0 ≤ amount

theorem sum_map_filter {α : Type} {p : α → Bool} {f : α → ℚ} {l : List α}
    (h : ∀ a ∈ l, p a = false → f a = 0) : (l.map f).sum = ((l.filter p).map f).sum := by
  induction l with
  | nil => rfl
  | cons a l ih =>
    obtain ⟨ha, hl⟩ := List.forall_mem_cons.mp h
    rw [List.map_cons, List.sum_cons, ih hl]
    cases hp : p a with
    | true => rw [List.filter_cons_of_pos hp, List.map_cons, List.sum_cons]
    | false => rw [List.filter_cons_of_neg (by simp [hp]), ha hp, zero_add]

theorem filter_eq_singleton {α β : Type} [DecidableEq β] {f : α → β} {l : List α}
    (h : (l.map f).Nodup) {a : α} (ha : a ∈ l) : l.filter (fun b => f b = f a) = [a] := by
  induction l with
  | nil => exact absurd ha List.not_mem_nil
  | cons b l ih =>
    obtain ⟨hb, hl⟩ := List.nodup_cons.mp h
    obtain rfl | hmem := List.mem_cons.mp ha
    · have hnil : l.filter (fun b => f b = f a) = [] := by
        rw [List.filter_eq_nil_iff]
        intro c hc hfc
        exact hb (of_decide_eq_true hfc ▸ List.mem_map_of_mem hc)
      rw [List.filter_cons_of_pos (by simp), hnil]
    · have hne : f b ≠ f a := fun heq => hb (heq ▸ List.mem_map_of_mem hmem)
      rw [List.filter_cons_of_neg (by simpa using hne), ih hl hmem]

theorem bins_perm (order : MapOrder) (m : ResourceMatch) (name : ResourceName) :
    (bins order m name).Perm (m.chunks name) := order.arrange_perm _

theorem amountOf_chunk (hdistinct : Distinct m) (hname : name ∈ scalarNames)
    (hr : r ∈ m.chunks name) : amountOf m.resources (chunk r) = r.scalar := by
  have hrname : r.name = name := of_decide_eq_true (List.mem_filter.mp hr).2
  have hchunks : m.resources.filter (fun r' => chunk r' = chunk r) =
      (m.chunks name).filter fun r' => chunk r' = chunk r := by
    rw [ResourceMatch.chunks, List.filter_filter]
    apply List.filter_congr
    intro r' _
    by_cases h : chunk r' = chunk r
    · have hname' : r'.name = name := (congrArg Prod.fst h).trans hrname
      simp [h, hname']
    · simp [h]
  rw [amountOf, hchunks, filter_eq_singleton (hdistinct name hname).1 hr, List.map_singleton,
    List.sum_singleton]

theorem demand_bin (hdistinct : Distinct m) {taskIds : List TaskId}
    (hids : pod.containers.length ≤ taskIds.length) (hname : name ∈ scalarNames)
    (hks : IsFirstFit (quantities pod name) ((bins order m name).map Resource.scalar) ks) {k : ℕ}
    (hr : (bins order m name)[k]? = some r) :
    demand order pod taskIds m ks name (chunk r) =
      load k (quantities pod name) (redirect (quantities pod name) ks) := by
  have hserved : served pod taskIds = requested pod := by
    rw [served, requested, List.take_of_length_le hids]
  have hnodup : ((bins order m name).map chunk).Nodup :=
    (((bins_perm order m name).map chunk).nodup_iff).mpr (hdistinct name hname).1
  let share : ℚ → ℚ := fun q =>
    if (servedFrom (bins order m name) (quantities pod name) ks q).map chunk = some (chunk r) then q
    else 0
  have hshare : ∀ q ∈ quantities pod name,
      share q = if (firstBin q (quantities pod name) ks).getD 0 = k then q else 0 := by
    intro q hq
    obtain ⟨j, bin, hj, hbin⟩ := exists_bin hks.1 hq
    have hiff : chunk bin = chunk r ↔ j = k := by
      constructor
      · intro h
        have hlt : j < ((bins order m name).map chunk).length := by
          rw [List.length_map]
          exact (List.getElem?_eq_some_iff.mp hbin).1
        apply (List.getElem?_inj hlt hnodup).mp
        rw [List.getElem?_map, List.getElem?_map, hbin, hr, Option.map_some, Option.map_some, h]
      · rintro rfl
        rw [Option.some.inj (hbin.symm.trans hr)]
    dsimp only [share]
    rw [servedFrom_of_bin (quantities_pos q hq) hj hbin, hj, Option.map_some, Option.getD_some]
    exact if_congr (Option.some_inj.trans hiff) rfl rfl
  calc demand order pod taskIds m ks name (chunk r)
      = (((requested pod).map fun r' => r'.quantity name).map share).sum := by
        rw [demand, hserved, List.map_map]
        rfl
    _ = ((quantities pod name).map share).sum := by
        apply sum_map_filter
        intro q _ hq
        have hnonpos : q ≤ 0 := not_lt.mp (of_decide_eq_false hq)
        dsimp only [share]
        rw [servedFrom, if_pos hnonpos]
        rfl
    _ = load k (quantities pod name) (redirect (quantities pod name) ks) := by
        rw [redirect, load_map_self]
        exact congrArg List.sum (List.map_congr_left hshare)

theorem demand_le_iff (hdistinct : Distinct m) {taskIds : List TaskId}
    (hids : pod.containers.length ≤ taskIds.length) (hname : name ∈ scalarNames)
    (hks : IsFirstFit (quantities pod name) ((bins order m name).map Resource.scalar) ks) :
    (∀ r ∈ m.chunks name,
      demand order pod taskIds m ks name (chunk r) ≤ amountOf m.resources (chunk r)) ↔
        Together (quantities pod name) ks := by
  rw [← hks.fits_redirect_iff]
  constructor
  · intro h
    refine ⟨List.length_map _, ?_⟩
    intro k hk
    obtain ⟨q, hq, rfl⟩ := List.mem_map.mp hk
    obtain ⟨j, bin, hj, hbin⟩ := exists_bin hks.1 hq
    have hmem := (bins_perm order m name).mem_iff.mp (List.mem_of_getElem? hbin)
    have hle := h bin hmem
    rw [demand_bin hdistinct hids hname hks hbin, amountOf_chunk hdistinct hname hmem] at hle
    rw [hj]
    exact ⟨bin.scalar, by rw [Option.getD_some, List.getElem?_map, hbin, Option.map_some], hle⟩
  · intro hfits r hr
    obtain ⟨k, hk⟩ := List.mem_iff_getElem?.mp ((bins_perm order m name).mem_iff.mpr hr)
    rw [demand_bin hdistinct hids hname hks hk, amountOf_chunk hdistinct hname hr]
    by_cases hmem : k ∈ redirect (quantities pod name) ks
    · obtain ⟨c, hc, hle⟩ := hfits.load_le k hmem
      rw [List.getElem?_map, hk, Option.map_some] at hc
      rwa [Option.some.inj hc]
    · rw [load_eq_zero hmem]
      exact (hdistinct name hname).2 _ (List.mem_map_of_mem hr)

/-- What is built stays within the match exactly under the conditions on the demand; where the
chunks can be told apart and there are task ids for all containers, exactly when equal quantities
lie in one chunk. -/
theorem withinMatch_iff {taskIds : List TaskId} {volumes : List Resource}
    {result : ExecutorInfo × List TaskInfo} (h : build order pod taskIds m volumes = .ok result) :
    (WithinMatch pod taskIds m result ↔
      (∀ r ∈ served pod taskIds, ∀ name ∈ scalarNames, 0 ≤ r.quantity name) ∧
      ∀ name ∈ scalarNames, ∀ ks,
        IsFirstFit (quantities pod name) ((bins order m name).map Resource.scalar) ks →
          ∀ r ∈ m.chunks name,
            demand order pod taskIds m ks name (chunk r) ≤ amountOf m.resources (chunk r)) ∧
    (Distinct m → pod.containers.length ≤ taskIds.length →
      (WithinMatch pod taskIds m result ↔
        (∀ r ∈ requested pod, ∀ name ∈ scalarNames, 0 ≤ r.quantity name) ∧
        ∀ name ∈ scalarNames, ∀ ks,
          IsFirstFit (quantities pod name) ((bins order m name).map Resource.scalar) ks →
            Together (quantities pod name) ks)) := by
  refine ⟨withinMatch_iff_demand h, fun hdistinct hids => ?_⟩
  have hserved : served pod taskIds = requested pod := by
    rw [served, requested, List.take_of_length_le hids]
  rw [withinMatch_iff_demand h, hserved]
  apply and_congr_right'
  apply forall₂_congr
  intro name hname
  apply forall₂_congr
  intro ks hks
  exact demand_le_iff hdistinct hids hname hks

namespace Split

/-- Two containers of one CPU each, which lie in a chunk each. -/
def evenPod : PodDefinition := podOf [containerWith "left" 1, containerWith "right" 1]

def taskIds : List TaskId :=
  ["left", "right"].map fun name => .ofContainer ⟨⟨["split"]⟩, .instance, ⟨0⟩⟩ (some name)

/-- Both containers are served from the same chunk. -/
def evenResult : ExecutorInfo × List TaskInfo :=
  (⟨[], [], []⟩, (["left", "right"].zip taskIds).map fun p => ⟨p.1, p.2, [cpus 1 "web"]⟩)

theorem matchResources_evenPod :
    matchResources matching conditions offer (.pod evenPod) selector = .ok (.isMatch twoChunks) := by
  decide +kernel

theorem build_evenPod : build listed evenPod taskIds twoChunks [] = .ok evenResult := by
  decide +kernel

end Split

theorem not_forall_withinMatch :
    ¬ ∀ (matching : Matching) (conditions : Conditions) (offer : ResourceOffer) (pod : PodDefinition)
      (selector : ResourceSelector) (m : ResourceMatch) (order : MapOrder) (taskIds : List TaskId)
      (volumes : List Resource) (result : ExecutorInfo × List TaskInfo),
      matchResources matching conditions offer (.pod pod) selector = .ok (.isMatch m) →
      build order pod taskIds m volumes = .ok result → WithinMatch pod taskIds m result := by
  intro h
  have hwithin := h _ _ _ _ _ _ _ _ _ _ Split.matchResources_evenPod Split.build_evenPod
  have hchunk : Split.cpus 1 "web" ∈ Split.twoChunks.chunks .cpus := List.mem_cons_self
  have hle := hwithin.chunks .cpus (by decide) _ hchunk
  exact absurd hle (by decide +kernel)

theorem withinMatch_evenPod :
    (WithinMatch Split.evenPod Split.taskIds Split.twoChunks Split.evenResult ↔
      (∀ r ∈ served Split.evenPod Split.taskIds, ∀ name ∈ scalarNames, 0 ≤ r.quantity name) ∧
      ∀ name ∈ scalarNames, ∀ ks,
        IsFirstFit (quantities Split.evenPod name)
          ((bins Split.listed Split.twoChunks name).map Resource.scalar) ks →
          ∀ r ∈ Split.twoChunks.chunks name,
            demand Split.listed Split.evenPod Split.taskIds Split.twoChunks ks name (chunk r) ≤
              amountOf Split.twoChunks.resources (chunk r)) ∧
    (Distinct Split.twoChunks → Split.evenPod.containers.length ≤ Split.taskIds.length →
      (WithinMatch Split.evenPod Split.taskIds Split.twoChunks Split.evenResult ↔
        (∀ r ∈ requested Split.evenPod, ∀ name ∈ scalarNames, 0 ≤ r.quantity name) ∧
        ∀ name ∈ scalarNames, ∀ ks,
          IsFirstFit (quantities Split.evenPod name)
            ((bins Split.listed Split.twoChunks name).map Resource.scalar) ks →
            Together (quantities Split.evenPod name) ks)) :=
  withinMatch_iff Split.build_evenPod

end Marathon.TaskGroupBuilder
