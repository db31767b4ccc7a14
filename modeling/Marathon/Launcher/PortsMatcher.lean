import Mathlib.Data.List.ReduceOption
import Marathon.Launcher.ResourceMatcher
import Marathon.Lib.Ranges

/-!
# Matching the ports of an offer

Host ports that a run spec names are looked up in the offered ranges. The others are taken from the
offered ports one after the other, beginning at a random port of a random order of the ranges.
-/

namespace Marathon

open Mesos Lib.Ranges
open ResourceMatcher (ResourceSelector)

namespace PortsMatcher

/-! ## Offered ports -/

structure PortWithRole where
  role : Role
  port : ℕ
  reservation : Option ReservationInfo
deriving DecidableEq

/-- A request for a port, or for none. -/
inductive Request
  | requestNone
  | portWithRole (port : PortWithRole)
deriving DecidableEq

/-- Ports are numbers of 16 bits, none of them is changed by `toInt` or `toLong`. -/
structure PortRange where
  role : Role
  minPort : ℕ
  maxPort : ℕ
  reservation : Option ReservationInfo
deriving DecidableEq

namespace PortRange

/-- `Range.inclusive`. -/
def range (r : PortRange) : List ℕ := List.range' r.minPort (r.maxPort + 1 - r.minPort)

def size (r : PortRange) : ℕ := r.range.length

def contains (r : PortRange) (port : ℤ) : Bool := r.minPort ≤ port && port ≤ r.maxPort

def portsWithRoles (r : PortRange) : List PortWithRole :=
  r.range.map fun port => ⟨r.role, port, r.reservation⟩

def firstNPorts (r : PortRange) (n : ℕ) : List PortWithRole :=
  (r.range.take n).map fun port => ⟨r.role, port, r.reservation⟩

def withoutNPorts (r : PortRange) (n : ℕ) : List PortWithRole :=
  (r.range.drop n).map fun port => ⟨r.role, port, r.reservation⟩

end PortRange

/-- The port ranges of a resource. -/
def portRanges (resource : Resource) : List PortRange :=
  resource.rangeList.map fun range => ⟨resource.role, range.1, range.2, resource.reservation⟩

def offeredPortRanges (offer : ResourceOffer) (resourceSelector : ResourceSelector) : List PortRange :=
  (offer.resources.filter fun r => resourceSelector.accepts r && r.name = .ports).flatMap portRanges

/-- `scala.util.Random`, of which every match asks once for an order and once for a number. -/
structure Random where
  shuffle : List PortRange → List PortRange
  nextInt : ℕ → ℕ
  perm_shuffle : ∀ ranges, (shuffle ranges).Perm ranges
  nextInt_lt : ∀ n, 0 < n → nextInt n < n

/-- The index of the range with the port to start at, and the index of the port in that range. -/
def findStartPort (startPortIdx : ℕ) : List PortRange → ℕ → ℕ → ℕ × ℕ
  | [], rangeIdx, startPortIdxOfCurrentRange => (rangeIdx, startPortIdx - startPortIdxOfCurrentRange)
  | range :: shuffled, rangeIdx, startPortIdxOfCurrentRange =>
    if startPortIdx < startPortIdxOfCurrentRange + range.size then
      (rangeIdx, startPortIdx - startPortIdxOfCurrentRange)
    else
      findStartPort startPortIdx shuffled (rangeIdx + 1) (startPortIdxOfCurrentRange + range.size)

/-- All offered ports, from the start port to the last one and then from the first one on. -/
def lazyRandomPortsFromRanges (rand : Random) (offeredPortRanges : List PortRange) :
    List PortWithRole :=
  let numberOfOfferedPorts := (offeredPortRanges.map PortRange.size).sum
  if numberOfOfferedPorts = 0 then []
  else
    let shuffled := rand.shuffle offeredPortRanges
    let startPortIdx := rand.nextInt numberOfOfferedPorts
    let (rangeIdx, portInRangeIdx) := findStartPort startPortIdx shuffled 0 0
    match shuffled[rangeIdx]? with
    | none => [] -- an exception, see `lazyRandomPortsFromRanges_eq_rotate`
    | some startRangeOrig =>
      let startRange := startRangeOrig.withoutNPorts portInRangeIdx
      let afterStartRange := (shuffled.drop (rangeIdx + 1)).flatMap PortRange.portsWithRoles
      let beforeStartRange := (shuffled.take rangeIdx).flatMap PortRange.portsWithRoles
      let endRange := startRangeOrig.firstNPorts portInRangeIdx
      startRange ++ afterStartRange ++ beforeStartRange ++ endRange

/-! ## The ports of a run spec -/

def Request.port? : Request → Option PortWithRole
  | requestNone => none
  | portWithRole port => some port

/-- Takes ports up to the first that is not found. All of them must be found. -/
def takeEnoughPortsOrNone (expectedSize : ℕ) (ports : List (Option Request)) :
    Option (List (Option PortWithRole)) :=
  let allocatedPorts := ((ports.takeWhile Option.isSome).take expectedSize).reduceOption
  if allocatedPorts.length = expectedSize then some (allocatedPorts.map Request.port?) else none

/-- The port in the first range that contains it. -/
def findPort (offeredPortRanges : List PortRange) (port : ℤ) : Option PortWithRole :=
  (offeredPortRanges.find? fun r => r.contains port).map fun offeredRange =>
    ⟨offeredRange.role, port.toNat, offeredRange.reservation⟩

def findPortsInOffer (offeredPortRanges : List PortRange) (requiredPorts : List ℤ) :
    Option (List (Option PortWithRole)) :=
  takeEnoughPortsOrNone requiredPorts.length
    (requiredPorts.map fun port => (findPort offeredPortRanges port).map .portWithRole)

def randomPorts (random : Random) (offeredPortRanges : List PortRange) (numberOfPorts : ℕ) :
    Option (List (Option PortWithRole)) :=
  takeEnoughPortsOrNone numberOfPorts
    ((lazyRandomPortsFromRanges random offeredPortRanges).map fun port => some (.portWithRole port))

/-- The ports of the mappings, dynamic ones from an iterator over the available ports. -/
def assignPorts (offeredPortRanges : List PortRange) :
    List (Option ℤ) → List PortWithRole → List (Option Request)
  | [], _ => []
  | none :: ports, available => some .requestNone :: assignPorts offeredPortRanges ports available
  | some port :: ports, available =>
    if port = 0 then
      match available with
      | [] => none :: assignPorts offeredPortRanges ports []
      | next :: available => some (.portWithRole next) :: assignPorts offeredPortRanges ports available
    else
      (findPort offeredPortRanges port).map .portWithRole ::
        assignPorts offeredPortRanges ports available

def mappedPortRanges (random : Random) (offeredPortRanges : List PortRange)
    (ports : List (Option ℤ)) : Option (List (Option PortWithRole)) :=
  let staticPorts := ports.reduceOption.filter (· ≠ 0)
  let availablePortsWithoutStaticHostPorts :=
    (lazyRandomPortsFromRanges random offeredPortRanges).filter fun p => (p.port : ℤ) ∉ staticPorts
  takeEnoughPortsOrNone ports.length
    (assignPorts offeredPortRanges ports availablePortsWithoutStaticHostPorts)

def portsWithRoles (random : Random) (offeredPortRanges : List PortRange) :
    RunSpec → Option (List (Option PortWithRole))
  | .pod podDefinition =>
    let requiredPorts := podDefinition.containers.flatMap fun container =>
      container.endpoints.map Endpoint.hostPort
    mappedPortRanges random offeredPortRanges requiredPorts
  | .app app =>
    let portMappings := (app.container.map Container.portMappings).filter (· ≠ [])
    match app.portNumbers, portMappings with
    | [], none => some []
    | _, some mappings =>
      mappedPortRanges random offeredPortRanges (mappings.map Container.PortMapping.hostPort)
    | ports, none =>
      if app.requirePorts then findPortsInOffer offeredPortRanges ports
      else randomPorts random offeredPortRanges ports.length

/-! ## Resources of the assigned ports -/

def PortWithRole.toRange (p : PortWithRole) : ℕ × ℕ := (p.port, p.port)

/-- The next port extends the last range, or the last range is complete. -/
def process (lastRange : ℕ × ℕ) : List PortWithRole → List (ℕ × ℕ)
  | [] => [lastRange]
  | nextPort :: next =>
    if lastRange.2 + 1 = nextPort.port then process (lastRange.1, nextPort.port) next
    else lastRange :: process nextPort.toRange next

/-- Ranges of consecutive ports, in the order of the ports. -/
def createRanges : List PortWithRole → List (ℕ × ℕ)
  | [] => [] -- an exception, and never called
  | p :: ranges => process p.toRange ranges

def PortWithRole.sameRole (p port : PortWithRole) : Bool :=
  port.role = p.role && port.reservation = p.reservation

/-- One resource for every sequence of ports of the same role and reservation. -/
def createPortsResources : List PortWithRole → List Resource
  | [] => []
  | p :: rest =>
    let resources := p :: rest
    let portsForResource := resources.takeWhile p.sameRole
    ⟨.ports, .ranges (createRanges portsForResource), p.role, none, p.reservation, none⟩ ::
      createPortsResources (resources.drop portsForResource.length)
termination_by resources => resources.length
decreasing_by
  have hpos : 0 < ((p :: rest).takeWhile p.sameRole).length := by
    simp [PortWithRole.sameRole]
  rw [List.length_drop, List.length_cons]
  omega

structure PortsMatch where
  hostPortsWithRole : List (Option PortWithRole)
deriving DecidableEq

namespace PortsMatch

/-- The ports that are assigned. -/
def assigned (m : PortsMatch) : List PortWithRole := m.hostPortsWithRole.reduceOption

def resources (m : PortsMatch) : List Resource := createPortsResources m.assigned

def hostPorts (m : PortsMatch) : List (Option ℕ) := m.hostPortsWithRole.map (Option.map PortWithRole.port)

end PortsMatch

def portsMatch (random : Random) (runSpec : RunSpec) (offer : ResourceOffer)
    (resourceSelector : ResourceSelector) : Option PortsMatch :=
  (portsWithRoles random (offeredPortRanges offer resourceSelector) runSpec).map .mk

/-! ## The order of the offered ports -/

@[simp] theorem length_portsWithRoles (r : PortRange) : r.portsWithRoles.length = r.size := by
  rw [PortRange.portsWithRoles, List.length_map, PortRange.size]

/-- The offered ports. -/
def offeredPorts (ranges : List PortRange) : List PortWithRole :=
  ranges.flatMap PortRange.portsWithRoles

theorem length_offeredPorts (ranges : List PortRange) :
    (offeredPorts ranges).length = (ranges.map PortRange.size).sum := by
  rw [offeredPorts, List.length_flatMap]
  simp only [length_portsWithRoles]

theorem findStartPort_spec {startPortIdx : ℕ} (shuffled : List PortRange) (rangeIdx start : ℕ)
    (hstart : start ≤ startPortIdx) (hlt : startPortIdx < start + (offeredPorts shuffled).length) :
    ∃ before range after n, shuffled = before ++ range :: after ∧ n ≤ range.size ∧
      startPortIdx = start + (offeredPorts before).length + n ∧
      findStartPort startPortIdx shuffled rangeIdx start = (rangeIdx + before.length, n) := by
  induction shuffled generalizing rangeIdx start with
  | nil =>
    have hnil : (offeredPorts []).length = 0 := rfl
    omega
  | cons range shuffled ih =>
    have hcons : (offeredPorts (range :: shuffled)).length =
        range.size + (offeredPorts shuffled).length := by
      rw [offeredPorts, List.flatMap_cons, List.length_append, length_portsWithRoles, offeredPorts]
    rw [findStartPort]
    by_cases hhere : startPortIdx < start + range.size
    · refine ⟨[], range, shuffled, startPortIdx - start, rfl, by omega, ?_, ?_⟩
      · have hnil : (offeredPorts []).length = 0 := rfl
        omega
      · rw [if_pos hhere, List.length_nil, Nat.add_zero]
    · obtain ⟨before, range', after, n, rfl, hn, hidx, hfind⟩ :=
        ih (rangeIdx + 1) (start + range.size) (by omega) (by omega)
      refine ⟨range :: before, range', after, n, rfl, hn, ?_, ?_⟩
      · rw [offeredPorts, List.flatMap_cons, List.length_append, length_portsWithRoles]
        rw [offeredPorts] at hidx
        omega
      · rw [if_neg hhere, hfind, List.length_cons]
        congr 1
        omega

theorem lazyRandomPortsFromRanges_eq_rotate (rand : Random) (ranges : List PortRange)
    (h : 0 < (offeredPorts ranges).length) :
    lazyRandomPortsFromRanges rand ranges =
      (offeredPorts (rand.shuffle ranges)).rotate (rand.nextInt (offeredPorts ranges).length) := by
  have hlength : (offeredPorts (rand.shuffle ranges)).length = (offeredPorts ranges).length :=
    ((rand.perm_shuffle ranges).flatMap_right _).length_eq
  have hlt := rand.nextInt_lt _ h
  obtain ⟨before, range, after, n, hshuffled, hn, hidx, hfind⟩ :=
    findStartPort_spec (rand.shuffle ranges) 0 0 (Nat.zero_le _) (by rwa [hlength, Nat.zero_add])
  have hget : (rand.shuffle ranges)[0 + before.length]? = some range := by
    rw [hshuffled, Nat.zero_add, List.getElem?_append_right le_rfl, Nat.sub_self]
    rfl
  rw [lazyRandomPortsFromRanges]
  simp only [← length_offeredPorts, if_neg h.ne', hfind, hget]
  rw [hidx, hshuffled, Nat.zero_add, Nat.zero_add]
  have hdrop : (before ++ range :: after).drop (before.length + 1) = after := by
    rw [List.drop_length_add_append, List.drop_one, List.tail_cons]
  have htake : (before ++ range :: after).take before.length = before := List.take_left' rfl
  have hports : offeredPorts (before ++ range :: after) =
      offeredPorts before ++ (range.portsWithRoles ++ offeredPorts after) := by
    rw [offeredPorts, List.flatMap_append, List.flatMap_cons]
    rfl
  have hle : n ≤ range.portsWithRoles.length := by rwa [length_portsWithRoles]
  have hfit : (offeredPorts before).length + n ≤
      (offeredPorts before ++ (range.portsWithRoles ++ offeredPorts after)).length := by
    rw [List.length_append, List.length_append]
    omega
  rw [hdrop, htake, hports, List.rotate_eq_drop_append_take hfit, List.drop_length_add_append,
    List.take_length_add_append, List.drop_append_of_le_length hle, List.take_append_of_le_length hle,
    PortRange.withoutNPorts, PortRange.firstNPorts, PortRange.portsWithRoles, List.map_drop,
    List.map_take]
  simp only [offeredPorts, List.append_assoc]

/-- Every offered port is handed out once. -/
theorem perm_lazyRandomPortsFromRanges (rand : Random) (ranges : List PortRange) :
    (lazyRandomPortsFromRanges rand ranges).Perm (offeredPorts ranges) := by
  by_cases h : 0 < (offeredPorts ranges).length
  · rw [lazyRandomPortsFromRanges_eq_rotate rand ranges h]
    exact (List.rotate_perm _ _).trans ((rand.perm_shuffle ranges).flatMap_right _)
  · have hzero : (offeredPorts ranges).length = 0 := by omega
    rw [lazyRandomPortsFromRanges, ← length_offeredPorts, if_pos hzero, List.length_eq_zero_iff.mp hzero]

/-! ## Requested ports -/

/-- A host port as it is asked for. -/
inductive HostPort
  | absent
  | dynamic
  | fixed (port : ℤ)
deriving DecidableEq

def HostPort.of : Option ℤ → HostPort
  | none => .absent
  | some port => if port = 0 then .dynamic else .fixed port

/-- The host ports that a run spec asks for. -/
def requested : RunSpec → List HostPort
  | .pod pod => pod.containers.flatMap fun c => c.endpoints.map fun e => .of e.hostPort
  | .app app =>
    let mappings := (app.container.map Container.portMappings).getD []
    if mappings ≠ [] then mappings.map fun m => .of m.hostPort
    else if app.requirePorts then app.portDefinitions.map fun d => .fixed d.port
    else app.portDefinitions.map fun _ => .dynamic

def HostPort.fixed? : HostPort → Option ℤ
  | fixed port => some port
  | _ => none

def fixedPorts (requests : List HostPort) : List ℤ := requests.filterMap HostPort.fixed?

@[simp] theorem fixedPorts_absent (requests : List HostPort) :
    fixedPorts (.absent :: requests) = fixedPorts requests := rfl

@[simp] theorem fixedPorts_dynamic (requests : List HostPort) :
    fixedPorts (.dynamic :: requests) = fixedPorts requests := rfl

@[simp] theorem fixedPorts_fixed (port : ℤ) (requests : List HostPort) :
    fixedPorts (.fixed port :: requests) = port :: fixedPorts requests := rfl

/-- Fixed ports are looked up, dynamic ones are the first available ports. -/
def allocate (find : ℤ → Option PortWithRole) :
    List HostPort → List PortWithRole → Option (List (Option PortWithRole))
  | [], _ => some []
  | .absent :: requests, available => (allocate find requests available).map (none :: ·)
  | .dynamic :: _, [] => none
  | .dynamic :: requests, next :: available => (allocate find requests available).map (some next :: ·)
  | .fixed port :: requests, available =>
    (find port).bind fun p => (allocate find requests available).map (some p :: ·)

/-- The ports that are neither fixed nor taken, in the order in which they are handed out. -/
def availablePorts (random : Random) (ranges : List PortRange) (requests : List HostPort) :
    List PortWithRole :=
  (lazyRandomPortsFromRanges random ranges).filter fun p => (p.port : ℤ) ∉ fixedPorts requests

theorem takeEnoughPortsOrNone_zero (ports : List (Option Request)) :
    takeEnoughPortsOrNone 0 ports = some [] := by
  rw [takeEnoughPortsOrNone, List.take_zero]
  rfl

theorem takeEnoughPortsOrNone_none (n : ℕ) (ports : List (Option Request)) :
    takeEnoughPortsOrNone (n + 1) (none :: ports) = none := by
  rw [takeEnoughPortsOrNone, List.takeWhile_cons_of_neg (by simp)]
  rfl

theorem takeEnoughPortsOrNone_some (n : ℕ) (request : Request) (ports : List (Option Request)) :
    takeEnoughPortsOrNone (n + 1) (some request :: ports) =
      (takeEnoughPortsOrNone n ports).map (request.port? :: ·) := by
  rw [takeEnoughPortsOrNone, takeEnoughPortsOrNone, List.takeWhile_cons_of_pos (by simp),
    List.take_succ_cons, List.reduceOption_cons_of_some, List.length_cons]
  simp only [Nat.add_right_cancel_iff, List.map_cons]
  split_ifs
  · rfl
  · rfl

theorem fixedPorts_map_of (ports : List (Option ℤ)) :
    fixedPorts (ports.map HostPort.of) = ports.reduceOption.filter (· ≠ 0) := by
  induction ports with
  | nil => rfl
  | cons port ports ih =>
    rw [List.map_cons]
    match port with
    | none => rw [HostPort.of, fixedPorts_absent, List.reduceOption_cons_of_none, ih]
    | some port =>
      rw [List.reduceOption_cons_of_some, HostPort.of]
      by_cases hport : port = 0
      · rw [if_pos hport, fixedPorts_dynamic, ih, List.filter_cons_of_neg (by simpa using hport)]
      · rw [if_neg hport, fixedPorts_fixed, ih, List.filter_cons_of_pos (by simpa using hport)]

theorem mappedPortRanges_eq (random : Random) (ranges : List PortRange) (ports : List (Option ℤ)) :
    mappedPortRanges random ranges ports =
      allocate (findPort ranges) (ports.map .of) (availablePorts random ranges (ports.map .of)) := by
  rw [mappedPortRanges, availablePorts, fixedPorts_map_of]
  generalize List.filter _ (lazyRandomPortsFromRanges random ranges) = available
  induction ports generalizing available with
  | nil => exact takeEnoughPortsOrNone_zero _
  | cons port ports ih =>
    rw [List.length_cons, List.map_cons]
    match port with
    | none =>
      rw [assignPorts, takeEnoughPortsOrNone_some, ih, HostPort.of, allocate]
      rfl
    | some port =>
      rw [assignPorts.eq_def, HostPort.of]
      dsimp only
      by_cases hport : port = 0
      · rw [if_pos hport, if_pos hport]
        match available with
        | [] => exact takeEnoughPortsOrNone_none _ _
        | next :: available =>
          rw [takeEnoughPortsOrNone_some, ih, allocate]
          rfl
      · rw [if_neg hport, if_neg hport, allocate]
        cases findPort ranges port with
        | none => exact takeEnoughPortsOrNone_none _ _
        | some p =>
          rw [Option.map_some, takeEnoughPortsOrNone_some, ih]
          rfl

theorem findPortsInOffer_eq (ranges : List PortRange) (ports : List ℤ)
    (available : List PortWithRole) :
    findPortsInOffer ranges ports = allocate (findPort ranges) (ports.map .fixed) available := by
  rw [findPortsInOffer]
  induction ports with
  | nil => exact takeEnoughPortsOrNone_zero _
  | cons port ports ih =>
    rw [List.length_cons, List.map_cons, List.map_cons, allocate]
    cases findPort ranges port with
    | none => exact takeEnoughPortsOrNone_none _ _
    | some p =>
      rw [Option.map_some, takeEnoughPortsOrNone_some, ih]
      rfl

theorem randomPorts_eq (random : Random) (ranges : List PortRange) (ports : List ℤ) :
    randomPorts random ranges ports.length =
      allocate (findPort ranges) (ports.map fun _ => .dynamic)
        (lazyRandomPortsFromRanges random ranges) := by
  rw [randomPorts]
  generalize lazyRandomPortsFromRanges random ranges = available
  induction ports generalizing available with
  | nil => exact takeEnoughPortsOrNone_zero _
  | cons port ports ih =>
    rw [List.length_cons, List.map_cons]
    match available with
    | [] => rfl
    | next :: available =>
      rw [List.map_cons, takeEnoughPortsOrNone_some, ih, allocate]
      rfl

theorem fixedPorts_map_dynamic (ports : List ℤ) :
    fixedPorts (ports.map fun _ => .dynamic) = [] := by
  induction ports with
  | nil => rfl
  | cons port ports ih => rw [List.map_cons, fixedPorts_dynamic, ih]

/-- Whatever the run spec is, its ports are allocated one after the other. -/
theorem portsWithRoles_eq (random : Random) (ranges : List PortRange) (runSpec : RunSpec) :
    portsWithRoles random ranges runSpec =
      allocate (findPort ranges) (requested runSpec)
        (availablePorts random ranges (requested runSpec)) := by
  match runSpec with
  | .pod pod =>
    rw [portsWithRoles, mappedPortRanges_eq, List.map_flatMap, requested]
    simp only [List.map_map, Function.comp_def]
  | .app app =>
    rw [requested]
    cases hmappings : (app.container.map Container.portMappings).filter (· ≠ []) with
    | some mappings =>
      obtain ⟨hsome, hne⟩ := Option.filter_eq_some_iff.mp hmappings
      rw [hsome, Option.getD_some, if_pos (of_decide_eq_true hne)]
      rw [portsWithRoles, hmappings]
      have hmap : mappings.map (fun m => HostPort.of m.hostPort) =
          (mappings.map Container.PortMapping.hostPort).map .of := by
        rw [List.map_map]
        rfl
      rw [hmap, ← mappedPortRanges_eq]
      cases app.portNumbers <;> rfl
    | none =>
      have hempty : (app.container.map Container.portMappings).getD [] = [] := by
        cases hcontainer : app.container.map Container.portMappings with
        | none => rfl
        | some mappings =>
          rw [hcontainer, Option.filter_eq_none_iff] at hmappings
          simpa using hmappings mappings rfl
      rw [if_neg (not_not_intro hempty), portsWithRoles, hmappings, AppDefinition.portNumbers]
      have hfixed : app.portDefinitions.map (fun d => HostPort.fixed d.port) =
          (app.portDefinitions.map PortDefinition.port).map .fixed := by
        rw [List.map_map]
        rfl
      have hdynamic : app.portDefinitions.map (fun _ => HostPort.dynamic) =
          (app.portDefinitions.map PortDefinition.port).map fun _ => .dynamic := by
        rw [List.map_map]
        rfl
      rw [hfixed, hdynamic]
      cases app.portDefinitions.map PortDefinition.port with
      | nil =>
        have hnil : (if app.requirePorts = true then ([] : List ℤ).map HostPort.fixed
            else ([] : List ℤ).map fun _ => .dynamic) = [] := by
          split_ifs <;> rfl
        rw [hnil, allocate]
      | cons port ports =>
        dsimp only
        by_cases hrequire : app.requirePorts = true
        · rw [if_pos hrequire, if_pos hrequire, ← findPortsInOffer_eq]
        · rw [if_neg hrequire, if_neg hrequire, randomPorts_eq, availablePorts]
          have hall : ∀ p ∈ lazyRandomPortsFromRanges random ranges,
              decide ((p.port : ℤ) ∉ fixedPorts ((port :: ports).map fun _ => .dynamic)) = true := by
            intro p _
            rw [fixedPorts_map_dynamic]
            exact decide_eq_true List.not_mem_nil
          rw [List.filter_eq_self.mpr hall]

end PortsMatcher

end Marathon
