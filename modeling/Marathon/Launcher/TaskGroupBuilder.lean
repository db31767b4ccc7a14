import Marathon.Launcher.ResourceMatcher
import Marathon.Lib.Future
import Marathon.Lib.Packing

/-!
# Building the task group of a pod

The quantities of the executor and of the containers are packed into the matched resources, name by
name. Executor and containers then look their quantities up in what was packed, each of them with a
consumer of its own.
-/

namespace Marathon.TaskGroupBuilder

open Lib Mesos ResourceMatcher

/-- In which order a map is traversed that has the positions of a list as keys. -/
structure MapOrder where
  keys : ℕ → List ℕ
  perm_keys : ∀ n, (keys n).Perm (List.range n)

def MapOrder.arrange {α : Type} (order : MapOrder) (l : List α) : List α :=
  (order.keys l.length).filterMap (l[·]?)

inductive Throwable
  | assertionError
  | illegalStateException (e : IllegalStateException)
deriving DecidableEq

/-- What the executor and the containers ask for. -/
def requested (pod : PodDefinition) : List Resources :=
  pod.executorResources :: pod.containers.map fun c => c.resources

/-! ## Packing -/

/-- This just double-checks that the matched resources suffice. -/
def verifyMatchedResources (pod : PodDefinition) (matchedResources : List Resource) :
    Except Throwable Unit :=
  scalarNames.forM fun name =>
    if ((requested pod).map fun r => r.quantity name).sum ≤
        ((matchedResources.filter fun r => r.name = name).map Resource.scalar).sum then .ok ()
    else .error .assertionError

/-- The quantities are put into bins one after the other, each into the first bin from where the
others find their places. -/
def assignResourceQuantities : List ℚ → List ℚ → List (List ℚ) → Option (List (List ℚ))
  | [], _, placed => some placed
  | head :: tail, residual, placed =>
    -- nothing optimal is looked for, the first successful assignment is kept
    residual.zipIdx.foldl (fun acc bin => acc.or <|
      if head ≤ bin.1 then
        assignResourceQuantities tail (residual.set bin.2 (bin.1 - head))
          (placed.modify bin.2 (head :: ·))
      else none) none

/-- What was placed into the resources, one entry for each quantity. -/
def packedEntries (resources : List Resource) (placed : List (List ℚ)) : List (ℚ × Resource) :=
  (resources.zip placed).flatMap fun p => p.2.map fun quantity => (quantity, p.1.setScalar quantity)

def binPack (order : MapOrder) (quantities : List ℚ) (resources : List Resource) :
    Except Throwable (List (ℚ × Resource)) :=
  if quantities.length = 0 then .ok []
  else
    match assignResourceQuantities quantities ((order.arrange resources).map Resource.scalar)
        ((order.arrange resources).map fun _ => []) with
    | some placed => .ok (packedEntries (order.arrange resources) placed)
    | none => .error (.illegalStateException ⟨"failed to assign resource quantities"⟩)

/-- The packed resources with their quantities. -/
structure PackedResources where
  cpus : List (ℚ × Resource)
  mem : List (ℚ × Resource)
  disk : List (ℚ × Resource)
  gpus : List (ℚ × Resource)

def PackedResources.get (packed : PackedResources) : ResourceName → List (ℚ × Resource)
  | .cpus => packed.cpus
  | .mem => packed.mem
  | .disk => packed.disk
  | .gpus => packed.gpus
  | _ => []

def quantities (pod : PodDefinition) (name : ResourceName) : List ℚ :=
  ((requested pod).map fun r => r.quantity name).filter (0 < ·)

def binPackResources (order : MapOrder) (pod : PodDefinition) (matchedResources : List Resource) :
    Except Throwable PackedResources := do
  verifyMatchedResources pod matchedResources
  let resources := fun name => matchedResources.filter fun r => r.name = name
  let packedCpus ← binPack order (quantities pod .cpus) (resources .cpus)
  let packedMem ← binPack order (quantities pod .mem) (resources .mem)
  let packedDisk ← binPack order (quantities pod .disk) (resources .disk)
  let packedGpus ← binPack order (quantities pod .gpus) (resources .gpus)
  return ⟨packedCpus, packedMem, packedDisk, packedGpus⟩

/-! ## Consuming -/

/-- Find a resource with exactly the given quantity, and remove it from the list. -/
def consume (resources : List (ℚ × Resource)) (quantity : ℚ) :
    Except Throwable (Option (List (ℚ × Resource) × Resource)) :=
  if quantity ≤ 0 then .ok none
  else
    match resources.partition (·.1 ≠ quantity) with
    | (_, []) =>
      .error (.illegalStateException ⟨"failed to find a resource with the given quantity"⟩)
    | (left, pair :: right) => .ok (some (left ++ right, pair.2))

/-- A consumer has what is left of the packed resources. -/
abbrev ResourceConsumer := StateT PackedResources (Except Throwable)

/-- One of the four lists is consumed from. -/
def consumeFrom (get : PackedResources → List (ℚ × Resource))
    (set : PackedResources → List (ℚ × Resource) → PackedResources) (quantity : ℚ) :
    ResourceConsumer (Option Resource) := fun consumer =>
  (consume (get consumer) quantity).map fun
    | none => (none, consumer)
    | some (left, resource) => (some resource, set consumer left)

def consumeCpus : ℚ → ResourceConsumer (Option Resource) :=
  consumeFrom PackedResources.cpus fun consumer left => { consumer with cpus := left }

def consumeMem : ℚ → ResourceConsumer (Option Resource) :=
  consumeFrom PackedResources.mem fun consumer left => { consumer with mem := left }

def consumeDisk : ℚ → ResourceConsumer (Option Resource) :=
  consumeFrom PackedResources.disk fun consumer left => { consumer with disk := left }

def consumeGpus : ℚ → ResourceConsumer (Option Resource) :=
  consumeFrom PackedResources.gpus fun consumer left => { consumer with gpus := left }

/-- Everything that the executor or a container asks for. -/
def consumeAll (r : Resources) : ResourceConsumer (List Resource) := do
  let cpus ← consumeCpus r.cpus
  let mem ← consumeMem r.mem
  let disk ← consumeDisk r.disk
  let gpus ← consumeGpus r.gpus
  return cpus.toList ++ mem.toList ++ disk.toList ++ gpus.toList

/-! ## Building -/

structure TaskInfo where
  name : String
  taskId : TaskId
  resources : List Resource
deriving DecidableEq

/-- The resources of an executor: what it consumes, its ports and its persistent volumes. -/
structure ExecutorInfo where
  consumed : List Resource
  ports : List Resource
  persistentVolumes : List Resource
deriving DecidableEq

def ExecutorInfo.resources (e : ExecutorInfo) : List Resource :=
  e.consumed ++ e.ports ++ e.persistentVolumes

def computeTaskInfo (container : MesosContainer) (taskId : TaskId) (packed : PackedResources) :
    Except Throwable TaskInfo :=
  ((consumeAll container.resources).run' packed).map fun resources =>
    ⟨container.name, taskId, resources⟩

def computeExecutorInfo (pod : PodDefinition) (packed : PackedResources) (portsMatch : PortsMatch)
    (persistentVolumeResources : List Resource) : Except Throwable ExecutorInfo :=
  ((consumeAll pod.executorResources).run' packed).map fun consumed =>
    ⟨consumed, portsMatch.resources,
      if pod.networks ≠ [] ∨ pod.volumes ≠ [] ∨ pod.linuxInfo.isSome then persistentVolumeResources
      else []⟩

/-- The executor and the tasks, as far as their resources go. -/
def build (order : MapOrder) (pod : PodDefinition) (taskIds : List TaskId)
    (resourceMatch : ResourceMatch) (persistentVolumeResources : List Resource) :
    Except Throwable (ExecutorInfo × List TaskInfo) := do
  let packedResources ← binPackResources order pod resourceMatch.resources
  let executorInfo ← computeExecutorInfo pod packedResources resourceMatch.portsMatch
    persistentVolumeResources
  let taskInfos ← (pod.containers.zip taskIds).mapM fun (container, taskId) =>
    computeTaskInfo container taskId packedResources
  return (executorInfo, taskInfos)

/-! ## What is packed -/

theorem filterMap_getElem?_range {α : Type} (l : List α) :
    (List.range l.length).filterMap (l[·]?) = l := by
  induction l with
  | nil => rfl
  | cons a l ih =>
    rw [List.length_cons, List.range_succ_eq_map, List.filterMap_cons, List.filterMap_map]
    exact congrArg (a :: ·) ih

theorem MapOrder.arrange_perm {α : Type} (order : MapOrder) (l : List α) :
    (order.arrange l).Perm l := by
  have h := (order.perm_keys l.length).filterMap (l[·]?)
  rwa [filterMap_getElem?_range] at h

theorem assignResourceQuantities_eq (qs residual : List ℚ) (placed : List (List ℚ)) :
    assignResourceQuantities qs residual placed =
      (firstFit qs residual).map fun ks => stack qs ks placed := by
  induction qs generalizing residual placed with
  | nil => rfl
  | cons q qs ih =>
    rw [assignResourceQuantities, foldl_first, Option.none_or, firstFit_cons, List.map_findSome?]
    congr 1
    funext bin
    rw [Function.comp_apply]
    split
    · rw [ih, Option.map_map]
      rfl
    · rfl

variable {matchedResources : List Resource} {qs : List ℚ} {entries : List (ℚ × Resource)}
  {quantity : ℚ} {r : Resources} {ks : List ℕ}

theorem verifyMatchedResources_eq_ok_iff {pod : PodDefinition} :
    verifyMatchedResources pod matchedResources = .ok () ↔
      ∀ name ∈ scalarNames, ((requested pod).map fun r => r.quantity name).sum ≤
        ((matchedResources.filter fun r => r.name = name).map Resource.scalar).sum := by
  unfold verifyMatchedResources
  induction scalarNames with
  | nil => exact iff_of_true rfl fun name hname => absurd hname List.not_mem_nil
  | cons name names ih =>
    rw [List.forM_eq_forM, List.forM_cons, List.forall_mem_cons]
    split
    · rename_i hle
      exact ih.trans (and_iff_right hle).symm
    · rename_i hlt
      apply iff_of_false
      · intro h
        cases h
      · exact fun h => hlt h.1

theorem arrange_map {α β : Type} (order : MapOrder) (f : α → β) (l : List α) :
    order.arrange (l.map f) = (order.arrange l).map f := by
  unfold MapOrder.arrange
  rw [List.length_map, List.map_filterMap]
  congr 1
  funext k
  exact List.getElem?_map

theorem binPack_eq_ok_iff {order : MapOrder} {resources : List Resource} :
    binPack order qs resources = .ok entries ↔
      ∃ ks, firstFit qs (order.arrange (resources.map Resource.scalar)) = some ks ∧
        entries = packedEntries (order.arrange resources)
          (stack qs ks ((order.arrange resources).map fun _ => [])) := by
  unfold binPack
  rw [assignResourceQuantities_eq, arrange_map]
  cases qs with
  | nil =>
    have hnil : packedEntries (order.arrange resources) ((order.arrange resources).map fun _ => []) =
        [] := by
      unfold packedEntries
      rw [List.flatMap_eq_nil_iff]
      intro p hp
      obtain ⟨r, -, hr⟩ := List.mem_map.mp (List.of_mem_zip hp).2
      rw [← hr, List.map_nil]
    constructor
    · intro h
      exact ⟨[], rfl, (Except.ok.inj h).symm.trans hnil.symm⟩
    · rintro ⟨ks, hks, rfl⟩
      cases hks
      exact congrArg Except.ok hnil.symm
  | cons q qs =>
    rw [if_neg (by simp)]
    cases hfound : firstFit (q :: qs) ((order.arrange resources).map Resource.scalar) with
    | none =>
      apply iff_of_false
      · intro h
        cases h
      · rintro ⟨ks, hks, -⟩
        exact Option.some_ne_none ks hks.symm
    | some ks =>
      constructor
      · intro h
        exact ⟨ks, rfl, (Except.ok.inj h).symm⟩
      · rintro ⟨ks', hks', rfl⟩
        cases hks'
        rfl

theorem binPackResources_eq_ok_iff {order : MapOrder} {pod : PodDefinition}
    {packed : PackedResources} :
    binPackResources order pod matchedResources = .ok packed ↔
      verifyMatchedResources pod matchedResources = .ok () ∧
        ∀ name ∈ scalarNames, binPack order (quantities pod name)
          (matchedResources.filter fun r => r.name = name) = .ok (packed.get name) := by
  unfold binPackResources scalarNames
  simp only [List.forall_mem_cons, List.not_mem_nil, IsEmpty.forall_iff, implies_true, and_true]
  constructor
  · intro h
    obtain ⟨_, hverify, h⟩ := bind_eq_ok.mp h
    obtain ⟨cpus, hcpus, h⟩ := bind_eq_ok.mp h
    obtain ⟨mem, hmem, h⟩ := bind_eq_ok.mp h
    obtain ⟨disk, hdisk, h⟩ := bind_eq_ok.mp h
    obtain ⟨gpus, hgpus, h⟩ := bind_eq_ok.mp h
    cases h
    exact ⟨hverify, hcpus, hmem, hdisk, hgpus⟩
  · rintro ⟨hverify, hcpus, hmem, hdisk, hgpus⟩
    rw [hverify]
    dsimp only [bind, Except.bind]
    rw [hcpus, hmem, hdisk, hgpus]
    rfl

/-! ## What is looked up -/

/-- One look-up among what was packed. -/
def draw (entries : List (ℚ × Resource)) (quantity : ℚ) : Except Throwable (Option Resource) :=
  (consume entries quantity).map (·.map Prod.snd)

theorem draw_of_nonpos (h : quantity ≤ 0) (entries : List (ℚ × Resource)) :
    draw entries quantity = .ok none := by
  rw [draw, consume, if_pos h]
  rfl

theorem draw_of_find (h : 0 < quantity)
    {entry : ℚ × Resource} (hfind : entries.find? (fun p => p.1 = quantity) = some entry) :
    draw entries quantity = .ok (some entry.2) := by
  have hhead : (entries.filter fun p => p.1 = quantity).head? = some entry := by
    rw [List.head?_filter, hfind]
  obtain ⟨right, hright⟩ := List.head?_eq_some_iff.mp hhead
  rw [draw, consume, if_neg (not_le.mpr h), List.partition_eq_filter_filter]
  have hnot : entries.filter (not ∘ fun p => decide (p.1 ≠ quantity)) = entry :: right := by
    rw [← hright]
    congr 1
    funext p
    simp
  rw [hnot]
  rfl

theorem consumeFrom_of_draw {get : PackedResources → List (ℚ × Resource)}
    (set : PackedResources → List (ℚ × Resource) → PackedResources)
    {consumer : PackedResources} {found : Option Resource}
    (h : draw (get consumer) quantity = .ok found) :
    ∃ left, consumeFrom get set quantity consumer = .ok (found, left) ∧
      (left = consumer ∨ ∃ l, left = set consumer l) := by
  unfold consumeFrom
  unfold draw at h
  cases hconsume : consume (get consumer) quantity with
  | error e =>
    rw [hconsume] at h
    cases h
  | ok result =>
    rw [hconsume] at h
    cases h
    cases result with
    | none => exact ⟨consumer, rfl, .inl rfl⟩
    | some result => exact ⟨set consumer result.1, rfl, .inr ⟨result.1, rfl⟩⟩

theorem consumeAll_eq_ok {packed : PackedResources}
    {found : ResourceName → Option Resource}
    (h : ∀ name ∈ scalarNames, draw (packed.get name) (r.quantity name) = .ok (found name)) :
    (consumeAll r).run' packed = .ok (scalarNames.flatMap fun name => (found name).toList) := by
  have hcpus : draw packed.cpus r.cpus = .ok (found .cpus) := h .cpus (by decide)
  have hmem : draw packed.mem r.mem = .ok (found .mem) := h .mem (by decide)
  have hdisk : draw packed.disk r.disk = .ok (found .disk) := h .disk (by decide)
  have hgpus : draw packed.gpus r.gpus = .ok (found .gpus) := h .gpus (by decide)
  obtain ⟨c₁, h₁, hc₁⟩ := consumeFrom_of_draw
    (fun consumer left => { consumer with cpus := left }) hcpus
  have hmem₁ : c₁.mem = packed.mem ∧ c₁.disk = packed.disk ∧ c₁.gpus = packed.gpus := by
    rcases hc₁ with rfl | ⟨l, rfl⟩ <;> exact ⟨rfl, rfl, rfl⟩
  obtain ⟨c₂, h₂, hc₂⟩ := consumeFrom_of_draw
    (fun consumer left => { consumer with mem := left }) (hmem₁.1 ▸ hmem)
  have hdisk₂ : c₂.disk = packed.disk ∧ c₂.gpus = packed.gpus := by
    rcases hc₂ with rfl | ⟨l, rfl⟩ <;> exact hmem₁.2
  obtain ⟨c₃, h₃, hc₃⟩ := consumeFrom_of_draw
    (fun consumer left => { consumer with disk := left }) (hdisk₂.1 ▸ hdisk)
  have hgpus₃ : c₃.gpus = packed.gpus := by
    rcases hc₃ with rfl | ⟨l, rfl⟩ <;> exact hdisk₂.2
  obtain ⟨c₄, h₄, -⟩ := consumeFrom_of_draw
    (fun consumer left => { consumer with gpus := left }) (hgpus₃ ▸ hgpus)
  have hlist : (found .cpus).toList ++ (found .mem).toList ++ (found .disk).toList ++
      (found .gpus).toList = scalarNames.flatMap fun name => (found name).toList := by
    simp [scalarNames]
  unfold consumeAll StateT.run' consumeCpus consumeMem consumeDisk consumeGpus
  simp only [bind, StateT.bind, Except.bind, h₁, h₂, h₃, h₄]
  exact congrArg Except.ok hlist

/-! ## What serves a quantity -/

/-- The first resource that holds the quantity, with this quantity. -/
def servedFrom (bins : List Resource) (qs : List ℚ) (ks : List ℕ) (quantity : ℚ) : Option Resource :=
  if quantity ≤ 0 then none
  else ((firstBin quantity qs ks).bind (bins[·]?)).map (·.setScalar quantity)

theorem find?_packedEntries {bins : List Resource} {k : ℕ} {r : Resource}
    (hk : firstBin quantity qs ks = some k) (hr : bins[k]? = some r) :
    (packedEntries bins (stack qs ks (bins.map fun _ => []))).find? (fun p => p.1 = quantity) =
      some (quantity, r.setScalar quantity) := by
  obtain ⟨hmem, hfirst⟩ := firstBin_eq_some_iff.mp hk
  have hlt : k < bins.length := (List.getElem?_eq_some_iff.mp hr).1
  have hstack : ∀ j l, (stack qs ks (bins.map fun _ => []))[j]? = some l → quantity ∈ l →
      (quantity, j) ∈ qs.zip ks := by
    intro j l hl hq
    obtain ⟨l', hl', hq'⟩ | h := mem_stack.mp ⟨l, hl, hq⟩
    · obtain ⟨b, -, rfl⟩ := List.mem_map.mp (List.mem_of_getElem? hl')
      cases hq'
    · exact h.1
  obtain ⟨placed, hplaced, hq⟩ : ∃ l, (stack qs ks (bins.map fun _ => []))[k]? = some l ∧
      quantity ∈ l := mem_stack.mpr (.inr ⟨hmem, by rwa [List.length_map]⟩)
  unfold packedEntries
  rw [List.find?_flatMap, findSome?_eq_some_iff_getElem?]
  refine ⟨k, (r, placed), List.getElem?_zip_eq_some.mpr ⟨hr, hplaced⟩, ?_, ?_⟩
  · rw [List.find?_map]
    have hfind : placed.find? (fun q => q = quantity) = some quantity := by
      cases hfound : placed.find? (fun q => q = quantity) with
      | none => exact absurd (List.find?_eq_none.mp hfound quantity hq) (by simp)
      | some q =>
        have heq := List.find?_some hfound
        rw [of_decide_eq_true heq]
    exact congrArg (Option.map _) hfind
  · rintro j hj ⟨r', l⟩ hj'
    rw [List.find?_eq_none]
    intro entry hentry heq
    obtain ⟨q, hq', rfl⟩ := List.mem_map.mp hentry
    obtain rfl : q = quantity := of_decide_eq_true heq
    have hle := hfirst j (hstack j l (List.getElem?_zip_eq_some.mp hj').2 hq')
    omega

/-- Every quantity that is packed is put into some bin. -/
theorem exists_bin {bins : List Resource}
    (hfits : Fits qs (bins.map Resource.scalar) ks) (hmem : quantity ∈ qs) :
    ∃ k r, firstBin quantity qs ks = some k ∧ bins[k]? = some r := by
  obtain ⟨i, hi⟩ := List.mem_iff_getElem?.mp hmem
  have hlt : i < ks.length := by
    rw [hfits.length_eq]
    exact (List.getElem?_eq_some_iff.mp hi).1
  have hzip : (quantity, ks[i]) ∈ qs.zip ks := by
    apply List.mem_of_getElem? (i := i)
    exact List.getElem?_zip_eq_some.mpr ⟨hi, List.getElem?_eq_getElem hlt⟩
  obtain ⟨k, hk, -⟩ := exists_firstBin hzip
  have hbin := (List.of_mem_zip (firstBin_eq_some_iff.mp hk).1).2
  obtain ⟨c, hc, -⟩ := hfits.load_le k hbin
  rw [List.getElem?_map] at hc
  obtain ⟨r, hr, -⟩ := Option.map_eq_some_iff.mp hc
  exact ⟨k, r, hk, hr⟩

theorem servedFrom_of_bin {bins : List Resource} {k : ℕ}
    {r : Resource} (hpos : 0 < quantity) (hk : firstBin quantity qs ks = some k)
    (hr : bins[k]? = some r) : servedFrom bins qs ks quantity = some (r.setScalar quantity) := by
  rw [servedFrom, if_neg (not_le.mpr hpos), hk, Option.bind_some, hr]
  rfl

theorem draw_packedEntries {bins : List Resource}
    (hfits : Fits qs (bins.map Resource.scalar) ks) (hmem : 0 < quantity → quantity ∈ qs) :
    draw (packedEntries bins (stack qs ks (bins.map fun _ => []))) quantity =
      .ok (servedFrom bins qs ks quantity) := by
  by_cases hpos : 0 < quantity
  · obtain ⟨k, r, hk, hr⟩ := exists_bin hfits (hmem hpos)
    rw [draw_of_find hpos (find?_packedEntries hk hr), servedFrom_of_bin hpos hk hr]
  · rw [draw_of_nonpos (not_lt.mp hpos), servedFrom, if_pos (not_lt.mp hpos)]

/-! ## What is built -/

/-- The bins of a name, in the order in which they are tried. -/
def bins (order : MapOrder) (m : ResourceMatch) (name : ResourceName) : List Resource :=
  order.arrange (m.chunks name)

/-- The quantities of each name are assigned to the matched resources by `ks`. -/
def Packs (order : MapOrder) (pod : PodDefinition) (m : ResourceMatch)
    (ks : ResourceName → List ℕ) : Prop :=
  ∀ name ∈ scalarNames,
    IsFirstFit (quantities pod name) ((bins order m name).map Resource.scalar) (ks name)

def serve (order : MapOrder) (pod : PodDefinition) (m : ResourceMatch) (ks : ResourceName → List ℕ)
    (r : Resources) : List Resource :=
  scalarNames.flatMap fun name =>
    (servedFrom (bins order m name) (quantities pod name) (ks name) (r.quantity name)).toList

theorem quantities_pos {pod : PodDefinition} {name : ResourceName} :
    ∀ q ∈ quantities pod name, 0 < q := by
  intro q hq
  exact of_decide_eq_true (List.mem_filter.mp hq).2

theorem mem_quantities {pod : PodDefinition} (h : r ∈ requested pod)
    {name : ResourceName} (hpos : 0 < r.quantity name) : r.quantity name ∈ quantities pod name :=
  List.mem_filter.mpr ⟨List.mem_map_of_mem h, decide_eq_true hpos⟩

variable {order : MapOrder} {pod : PodDefinition} {m : ResourceMatch}

theorem binPackResources_eq_ok {packed : PackedResources}
    (h : binPackResources order pod m.resources = .ok packed) :
    ∃ ks, Packs order pod m ks ∧ ∀ name ∈ scalarNames, packed.get name =
      packedEntries (bins order m name)
        (stack (quantities pod name) (ks name) ((bins order m name).map fun _ => [])) := by
  obtain ⟨-, hpacked⟩ := binPackResources_eq_ok_iff.mp h
  have hks : ∀ name, ∃ ks, name ∈ scalarNames →
      IsFirstFit (quantities pod name) ((bins order m name).map Resource.scalar) ks ∧
      packed.get name = packedEntries (bins order m name)
        (stack (quantities pod name) ks ((bins order m name).map fun _ => [])) := by
    intro name
    by_cases hname : name ∈ scalarNames
    · obtain ⟨ks, hks, hget⟩ := binPack_eq_ok_iff.mp (hpacked name hname)
      rw [arrange_map, firstFit_eq_some_iff fun q hq => (quantities_pos q hq).le] at hks
      exact ⟨ks, fun _ => ⟨hks, hget⟩⟩
    · exact ⟨[], fun h => absurd h hname⟩
  choose ks hks using hks
  exact ⟨ks, fun name hname => (hks name hname).1, fun name hname => (hks name hname).2⟩

theorem consumeAll_packed {packed : PackedResources} {ks : ResourceName → List ℕ}
    (hks : Packs order pod m ks)
    (hpacked : ∀ name ∈ scalarNames, packed.get name = packedEntries (bins order m name)
      (stack (quantities pod name) (ks name) ((bins order m name).map fun _ => [])))
    (hr : r ∈ requested pod) : (consumeAll r).run' packed = .ok (serve order pod m ks r) := by
  apply consumeAll_eq_ok
  intro name hname
  rw [hpacked name hname]
  exact draw_packedEntries (hks name hname).1 (mem_quantities hr)

/-- What is built from a packing. -/
def built (order : MapOrder) (pod : PodDefinition) (taskIds : List TaskId) (m : ResourceMatch)
    (persistentVolumeResources : List Resource) (ks : ResourceName → List ℕ) :
    ExecutorInfo × List TaskInfo :=
  (⟨serve order pod m ks pod.executorResources, m.portsMatch.resources,
      if pod.networks ≠ [] ∨ pod.volumes ≠ [] ∨ pod.linuxInfo.isSome then persistentVolumeResources
      else []⟩,
    (pod.containers.zip taskIds).map fun p => ⟨p.1.name, p.2, serve order pod m ks p.1.resources⟩)

theorem build_of_packed {packed : PackedResources} {ks : ResourceName → List ℕ}
    (hok : binPackResources order pod m.resources = .ok packed) (hks : Packs order pod m ks)
    (hpacked : ∀ name ∈ scalarNames, packed.get name = packedEntries (bins order m name)
      (stack (quantities pod name) (ks name) ((bins order m name).map fun _ => [])))
    (taskIds : List TaskId) (volumes : List Resource) :
    build order pod taskIds m volumes = .ok (built order pod taskIds m volumes ks) := by
  have htasks : ((pod.containers.zip taskIds).mapM fun (container, taskId) =>
      computeTaskInfo container taskId packed) =
      .ok ((pod.containers.zip taskIds).map fun p =>
        ⟨p.1.name, p.2, serve order pod m ks p.1.resources⟩) := by
    apply mapM_eq_ok_map
    intro p hp
    have hr : p.1.resources ∈ requested pod :=
      List.mem_cons_of_mem _ (List.mem_map_of_mem (List.of_mem_zip hp).1)
    dsimp only [computeTaskInfo]
    rw [consumeAll_packed hks hpacked hr]
    rfl
  unfold build
  rw [hok]
  dsimp only [bind, Except.bind]
  unfold computeExecutorInfo
  rw [consumeAll_packed hks hpacked List.mem_cons_self, htasks]
  rfl

/-- A build gives what some packing serves, the first one for every name. -/
theorem build_eq_ok {taskIds : List TaskId} {volumes : List Resource}
    {result : ExecutorInfo × List TaskInfo} (h : build order pod taskIds m volumes = .ok result) :
    ∃ ks, Packs order pod m ks ∧ result = built order pod taskIds m volumes ks := by
  obtain ⟨packed, hok, -⟩ := bind_eq_ok.mp h
  obtain ⟨ks, hks, hpacked⟩ := binPackResources_eq_ok hok
  have hbuilt := build_of_packed hok hks hpacked taskIds volumes
  exact ⟨ks, hks, Except.ok.inj (h.symm.trans hbuilt)⟩

/-- A pod is built when the matched resources suffice and all that is asked for can be packed. -/
theorem exists_build_iff (taskIds : List TaskId) (volumes : List Resource) :
    (∃ result, build order pod taskIds m volumes = .ok result) ↔
      verifyMatchedResources pod m.resources = .ok () ∧
        ∀ name ∈ scalarNames, Packable (quantities pod name) (m.amounts name) := by
  have hperm : ∀ name, (order.arrange (m.amounts name)).Perm (m.amounts name) := fun name =>
    order.arrange_perm _
  constructor
  · rintro ⟨result, h⟩
    obtain ⟨packed, hok, -⟩ := bind_eq_ok.mp h
    obtain ⟨hverify, hpacked⟩ := binPackResources_eq_ok_iff.mp hok
    refine ⟨hverify, fun name hname => ?_⟩
    obtain ⟨ks, hks, -⟩ := binPack_eq_ok_iff.mp (hpacked name hname)
    apply Packable.perm _ (hperm name)
    exact (exists_firstFit_iff fun q hq => (quantities_pos q hq).le).mp ⟨ks, hks⟩
  · rintro ⟨hverify, hpackable⟩
    have hbins : ∀ name ∈ scalarNames, ∃ entries, binPack order (quantities pod name)
        (m.resources.filter fun r => r.name = name) = .ok entries := by
      intro name hname
      obtain ⟨ks, hks⟩ := (exists_firstFit_iff fun q hq => (quantities_pos q hq).le).mpr
        ((hpackable name hname).perm (hperm name).symm)
      exact ⟨_, binPack_eq_ok_iff.mpr ⟨ks, hks, rfl⟩⟩
    obtain ⟨cpus, hcpus⟩ := hbins .cpus (by decide)
    obtain ⟨mem, hmem⟩ := hbins .mem (by decide)
    obtain ⟨disk, hdisk⟩ := hbins .disk (by decide)
    obtain ⟨gpus, hgpus⟩ := hbins .gpus (by decide)
    have hok : binPackResources order pod m.resources = .ok ⟨cpus, mem, disk, gpus⟩ := by
      rw [binPackResources_eq_ok_iff]
      refine ⟨hverify, ?_⟩
      simp only [scalarNames, List.forall_mem_cons, List.not_mem_nil, IsEmpty.forall_iff,
        implies_true, and_true]
      exact ⟨hcpus, hmem, hdisk, hgpus⟩
    obtain ⟨ks, hks, hpacked⟩ := binPackResources_eq_ok hok
    exact ⟨_, build_of_packed hok hks hpacked taskIds volumes⟩

end Marathon.TaskGroupBuilder
