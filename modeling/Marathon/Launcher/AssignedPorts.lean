import Mathlib.Data.List.TakeWhile
import Marathon.Launcher.PortsMatcher

/-!
# The ports that are assigned

A run spec gets all of its ports or none. What is asked of Mesos is just the ports that are assigned.
-/

namespace Marathon

open Mesos Lib.Ranges
open ResourceMatcher (ResourceSelector)

namespace PortsMatcher

variable {ranges : List PortRange} {p : PortWithRole} {port : ℤ}

/-! ## Offered ports -/

theorem mem_portsWithRoles {r : PortRange} :
    p ∈ r.portsWithRoles ↔
      r.role = p.role ∧ r.reservation = p.reservation ∧ r.minPort ≤ p.port ∧ p.port ≤ r.maxPort := by
  rw [PortRange.portsWithRoles, PortRange.range, List.mem_map]
  constructor
  · rintro ⟨n, hn, rfl⟩
    rw [List.mem_range'_1] at hn
    refine ⟨rfl, rfl, hn.1, ?_⟩
    dsimp only
    omega
  · rintro ⟨hrole, hreservation, hmin, hmax⟩
    refine ⟨p.port, List.mem_range'_1.mpr (by omega), ?_⟩
    rw [hrole, hreservation]

theorem contains_iff {r : PortRange} :
    r.contains port = true ↔ (r.minPort : ℤ) ≤ port ∧ port ≤ r.maxPort := by
  rw [PortRange.contains, Bool.and_eq_true, decide_eq_true_iff, decide_eq_true_iff]

theorem offered_of_findPort (h : findPort ranges port = some p) :
    p ∈ offeredPorts ranges ∧ (p.port : ℤ) = port := by
  obtain ⟨r, hfind, rfl⟩ := Option.map_eq_some_iff.mp h
  have hcontains := List.find?_some hfind
  rw [contains_iff] at hcontains
  have hport : ((port.toNat : ℕ) : ℤ) = port := Int.toNat_of_nonneg (by omega)
  refine ⟨List.mem_flatMap.mpr ⟨r, List.mem_of_find?_eq_some hfind, ?_⟩, hport⟩
  refine mem_portsWithRoles.mpr ⟨rfl, rfl, ?_, ?_⟩
  · dsimp only
    omega
  · dsimp only
    omega

theorem isSome_findPort_iff :
    (findPort ranges port).isSome = true ↔ ∃ p ∈ offeredPorts ranges, (p.port : ℤ) = port := by
  constructor
  · intro h
    obtain ⟨p, hp⟩ := Option.isSome_iff_exists.mp h
    exact ⟨p, offered_of_findPort hp⟩
  · rintro ⟨p, hp, rfl⟩
    obtain ⟨r, hr, hp⟩ := List.mem_flatMap.mp hp
    obtain ⟨-, -, hmin, hmax⟩ := mem_portsWithRoles.mp hp
    rw [findPort, Option.isSome_map, List.find?_isSome]
    exact ⟨r, hr, contains_iff.mpr ⟨by omega, by omega⟩⟩

def PortRange.bounds (r : PortRange) : ℕ × ℕ := (r.minPort, r.maxPort)

theorem nodup_portsWithRoles (r : PortRange) : (r.portsWithRoles.map PortWithRole.port).Nodup := by
  rw [PortRange.portsWithRoles, List.map_map]
  have hid : PortWithRole.port ∘ (fun port => ⟨r.role, port, r.reservation⟩) = id := rfl
  rw [hid, List.map_id]
  exact List.nodup_range'

theorem nodup_offeredPorts (h : Separate (ranges.map PortRange.bounds)) :
    ((offeredPorts ranges).map PortWithRole.port).Nodup := by
  rw [offeredPorts, List.map_flatMap, List.nodup_flatMap]
  refine ⟨fun r _ => nodup_portsWithRoles r, ?_⟩
  refine (List.pairwise_map.mp h.disjoint).imp fun {r s} hrs => ?_
  intro n hr hs
  obtain ⟨p, hp, rfl⟩ := List.mem_map.mp hr
  obtain ⟨q, hq, hport⟩ := List.mem_map.mp hs
  have hp := mem_portsWithRoles.mp hp
  have hq := mem_portsWithRoles.mp hq
  dsimp only [PortRange.bounds] at hrs
  omega

/-! ## Allocation -/

variable {find : ℤ → Option PortWithRole} {requests : List HostPort} {available : List PortWithRole}
  {ports : List (Option PortWithRole)}

/-- The port, offered with its role and reservation, is what is asked for. -/
inductive Answers (offered : List PortWithRole) (fixed : List ℤ) : HostPort → Option PortWithRole → Prop
  | absent : Answers offered fixed .absent none
  | dynamic {p : PortWithRole} (hoffered : p ∈ offered) (hfree : (p.port : ℤ) ∉ fixed) :
    Answers offered fixed .dynamic (some p)
  | fixed {p : PortWithRole} {port : ℤ} (hoffered : p ∈ offered) (hport : (p.port : ℤ) = port) :
    Answers offered fixed (.fixed port) (some p)

theorem isSome_allocate_iff :
    (allocate find requests available).isSome = true ↔
      (∀ port ∈ fixedPorts requests, (find port).isSome = true) ∧
        requests.count .dynamic ≤ available.length := by
  induction requests generalizing available with
  | nil =>
    refine iff_of_true rfl ⟨?_, Nat.zero_le _⟩
    intro port hport
    cases hport
  | cons request requests ih =>
    cases request with
    | absent =>
      rw [allocate, Option.isSome_map, ih, fixedPorts_absent, List.count_cons_of_ne (by decide)]
    | dynamic =>
      rw [List.count_cons_self, fixedPorts_dynamic]
      cases available with
      | nil =>
        refine iff_of_false Bool.false_ne_true ?_
        rintro ⟨-, hcount⟩
        rw [List.length_nil] at hcount
        omega
      | cons next available =>
        rw [allocate, Option.isSome_map, ih, List.length_cons, Nat.add_le_add_iff_right]
    | fixed port =>
      rw [List.count_cons_of_ne (by simp), fixedPorts_fixed, List.forall_mem_cons, allocate]
      cases hfind : find port with
      | none => simp
      | some p =>
        rw [Option.bind_some, Option.isSome_map, ih, Option.isSome_some, and_assoc]
        exact (and_iff_right rfl).symm

theorem answers_allocate {offered : List PortWithRole} {fixed : List ℤ}
    (hfind : ∀ port p, find port = some p → p ∈ offered ∧ (p.port : ℤ) = port)
    (havailable : ∀ p ∈ available, p ∈ offered ∧ (p.port : ℤ) ∉ fixed)
    (h : allocate find requests available = some ports) :
    List.Forall₂ (Answers offered fixed) requests ports := by
  induction requests generalizing available ports with
  | nil =>
    cases h
    exact .nil
  | cons request requests ih =>
    cases request with
    | absent =>
      obtain ⟨rest, hrest, rfl⟩ := Option.map_eq_some_iff.mp h
      exact .cons .absent (ih havailable hrest)
    | dynamic =>
      cases available with
      | nil => cases h
      | cons next available =>
        obtain ⟨rest, hrest, rfl⟩ := Option.map_eq_some_iff.mp h
        obtain ⟨⟨hoffered, hfree⟩, havailable⟩ := List.forall_mem_cons.mp havailable
        exact .cons (.dynamic hoffered hfree) (ih havailable hrest)
    | fixed port =>
      obtain ⟨p, hp, h⟩ := Option.bind_eq_some_iff.mp h
      obtain ⟨rest, hrest, rfl⟩ := Option.map_eq_some_iff.mp h
      exact .cons (.fixed (hfind port p hp).1 (hfind port p hp).2) (ih havailable hrest)

theorem perm_allocate (hfind : ∀ port p, find port = some p → (p.port : ℤ) = port)
    (h : allocate find requests available = some ports) :
    (ports.reduceOption.map fun p => (p.port : ℤ)).Perm
      (fixedPorts requests ++
        (available.take (requests.count .dynamic)).map fun p => (p.port : ℤ)) := by
  induction requests generalizing available ports with
  | nil =>
    cases h
    exact .nil
  | cons request requests ih =>
    cases request with
    | absent =>
      obtain ⟨rest, hrest, rfl⟩ := Option.map_eq_some_iff.mp h
      rw [List.reduceOption_cons_of_none, fixedPorts_absent, List.count_cons_of_ne (by decide)]
      exact ih hrest
    | dynamic =>
      cases available with
      | nil => cases h
      | cons next available =>
        obtain ⟨rest, hrest, rfl⟩ := Option.map_eq_some_iff.mp h
        rw [List.reduceOption_cons_of_some, fixedPorts_dynamic, List.count_cons_self,
          List.take_succ_cons, List.map_cons, List.map_cons]
        exact ((ih hrest).cons _).trans List.perm_middle.symm
    | fixed port =>
      obtain ⟨p, hp, h⟩ := Option.bind_eq_some_iff.mp h
      obtain ⟨rest, hrest, rfl⟩ := Option.map_eq_some_iff.mp h
      rw [List.reduceOption_cons_of_some, fixedPorts_fixed, List.count_cons_of_ne (by simp),
        List.map_cons, hfind port p hp]
      exact (ih hrest).cons _

/-! ## Resources -/

section

variable {role : Role} {reservation : Option ReservationInfo}

theorem portsWithRoles_concat {begin last : ℕ} (h : begin ≤ last + 1) :
    (PortRange.mk role begin (last + 1) reservation).portsWithRoles =
      (PortRange.mk role begin last reservation).portsWithRoles ++ [⟨role, last + 1, reservation⟩] := by
  have hrange : List.range' begin (last + 1 + 1 - begin) =
      List.range' begin (last + 1 - begin) ++ [last + 1] := by
    have hlength : last + 1 + 1 - begin = last + 1 - begin + 1 := by omega
    have hlast : begin + (last + 1 - begin) = last + 1 := by omega
    rw [hlength, List.range'_1_concat, hlast]
  rw [PortRange.portsWithRoles, PortRange.range, hrange, List.map_append]
  rfl

theorem portsWithRoles_toRange (p : PortWithRole) :
    (PortRange.mk p.role p.toRange.1 p.toRange.2 p.reservation).portsWithRoles = [p] := by
  have hlength : p.port + 1 - p.port = 1 := by omega
  rw [PortRange.portsWithRoles, PortRange.range, PortWithRole.toRange, hlength]
  rfl

theorem offeredPorts_process {lastRange : ℕ × ℕ} (h : lastRange.1 ≤ lastRange.2 + 1)
    {next : List PortWithRole} (hnext : ∀ p ∈ next, p.role = role ∧ p.reservation = reservation) :
    offeredPorts ((process lastRange next).map fun r => ⟨role, r.1, r.2, reservation⟩) =
      (PortRange.mk role lastRange.1 lastRange.2 reservation).portsWithRoles ++ next := by
  induction next generalizing lastRange with
  | nil => rfl
  | cons nextPort next ih =>
    obtain ⟨⟨rfl, rfl⟩, hnext⟩ := List.forall_mem_cons.mp hnext
    rw [process]
    by_cases hconsecutive : lastRange.2 + 1 = nextPort.port
    · rw [if_pos hconsecutive, ih (by dsimp only; omega) hnext, ← hconsecutive,
        portsWithRoles_concat h, List.append_assoc, List.singleton_append, hconsecutive]
    · rw [if_neg hconsecutive, List.map_cons, offeredPorts, List.flatMap_cons, ← offeredPorts,
        ih (by dsimp only [PortWithRole.toRange]; omega) hnext, portsWithRoles_toRange,
        List.singleton_append]

end

theorem offeredPorts_createPortsResources (resources : List PortWithRole) :
    offeredPorts ((createPortsResources resources).flatMap portRanges) = resources := by
  induction resources using createPortsResources.induct with
  | case1 => rw [createPortsResources]; rfl
  | case2 p rest resources portsForResource ih =>
    have hports : portsForResource = p :: rest.takeWhile p.sameRole :=
      List.takeWhile_cons_of_pos (by simp [PortWithRole.sameRole])
    have happend : portsForResource ++ resources.drop portsForResource.length = resources :=
      List.prefix_iff_eq_append.mp (List.takeWhile_prefix _)
    have hsame : ∀ q ∈ rest.takeWhile p.sameRole, q.role = p.role ∧ q.reservation = p.reservation := by
      intro q hq
      simpa [PortWithRole.sameRole] using List.mem_takeWhile_imp hq
    have hlast : p.toRange.1 ≤ p.toRange.2 + 1 := Nat.le_succ p.port
    have hrole := offeredPorts_process hlast hsame
    rw [portsWithRoles_toRange, List.singleton_append, ← hports] at hrole
    rw [createPortsResources, List.flatMap_cons, offeredPorts, List.flatMap_append, ← offeredPorts,
      ← offeredPorts, ih, portRanges, Resource.rangeList]
    change offeredPorts ((createRanges portsForResource).map _) ++ _ = resources
    rw [hports, createRanges, hrole, ← hports]
    exact happend

/-! ## Matches -/

/-- All fixed ports are offered, and enough others. -/
def Offered (offered : List PortWithRole) (requests : List HostPort) : Prop :=
  (∀ port ∈ fixedPorts requests, ∃ p ∈ offered, (p.port : ℤ) = port) ∧
    requests.count .dynamic ≤
      (offered.filter fun p => (p.port : ℤ) ∉ fixedPorts requests).length

/-- Every request has its port, if the ports are matched. -/
theorem answers_portsMatch {random : Random} {runSpec : RunSpec} {offer : ResourceOffer}
    {resourceSelector : ResourceSelector} {m : PortsMatch}
    (h : portsMatch random runSpec offer resourceSelector = some m) :
    List.Forall₂
      (Answers (offeredPorts (offeredPortRanges offer resourceSelector))
        (fixedPorts (requested runSpec)))
      (requested runSpec) m.hostPortsWithRole := by
  obtain ⟨ports, hports, rfl⟩ := Option.map_eq_some_iff.mp h
  rw [portsWithRoles_eq] at hports
  refine answers_allocate (fun _ _ => offered_of_findPort) ?_ hports
  intro p hp
  obtain ⟨hp, hfree⟩ := List.mem_filter.mp hp
  exact ⟨(perm_lazyRandomPortsFromRanges random _).mem_iff.mp hp, of_decide_eq_true hfree⟩

/-- The ports are matched exactly if they are offered, and then every request has its port, no port
is assigned twice, and the resources are those of the assigned ports. -/
theorem portsMatch_spec (random : Random) (runSpec : RunSpec) (offer : ResourceOffer)
    (resourceSelector : ResourceSelector)
    (hoffer : Separate ((offeredPortRanges offer resourceSelector).map PortRange.bounds))
    (hfixed : (fixedPorts (requested runSpec)).Nodup) :
    ((portsMatch random runSpec offer resourceSelector).isSome = true ↔
      Offered (offeredPorts (offeredPortRanges offer resourceSelector)) (requested runSpec)) ∧
    ∀ m, portsMatch random runSpec offer resourceSelector = some m →
      List.Forall₂
        (Answers (offeredPorts (offeredPortRanges offer resourceSelector))
          (fixedPorts (requested runSpec)))
        (requested runSpec) m.hostPortsWithRole ∧
      (m.assigned.map PortWithRole.port).Nodup ∧
      offeredPorts (m.resources.flatMap portRanges) = m.assigned := by
  let ranges := offeredPortRanges offer resourceSelector
  let requests := requested runSpec
  have hperm : (availablePorts random ranges requests).Perm
      ((offeredPorts ranges).filter fun p => (p.port : ℤ) ∉ fixedPorts requests) :=
    (perm_lazyRandomPortsFromRanges random ranges).filter _
  constructor
  · rw [portsMatch, Option.isSome_map, portsWithRoles_eq, isSome_allocate_iff, hperm.length_eq]
    simp only [isSome_findPort_iff]
    rfl
  · intro m hm
    refine ⟨answers_portsMatch hm, ?_⟩
    obtain ⟨ports, hports, rfl⟩ := Option.map_eq_some_iff.mp hm
    rw [portsWithRoles_eq] at hports
    constructor
    · have hassigned := perm_allocate (fun _ _ h => (offered_of_findPort h).2) hports
      have hnodup : ((availablePorts random ranges requests).map fun p => (p.port : ℤ)).Nodup := by
        have hports := (nodup_offeredPorts hoffer).map (Nat.cast_injective (R := ℤ))
        rw [List.map_map] at hports
        exact (hperm.map _).nodup_iff.mpr (hports.sublist (List.filter_sublist.map _))
      have hall : (ports.reduceOption.map fun p => (p.port : ℤ)).Nodup := by
        refine hassigned.nodup_iff.mpr (List.nodup_append.mpr ⟨hfixed, ?_, ?_⟩)
        · exact hnodup.sublist ((List.take_sublist _ _).map _)
        · intro port hport _ hfree heq
          obtain ⟨p, hp, rfl⟩ := List.mem_map.mp hfree
          have hfree := (List.mem_filter.mp (List.mem_of_mem_take hp)).2
          exact of_decide_eq_true hfree (heq ▸ hport)
      have hcast : (fun p : PortWithRole => (p.port : ℤ)) = Nat.cast ∘ PortWithRole.port := rfl
      rw [hcast, ← List.map_map] at hall
      exact hall.of_map
    · exact offeredPorts_createPortsResources ports.reduceOption

namespace AssignedPorts

/-- The ranges are reversed, and the last port is the first. -/
def lastFirst : Random where
  shuffle := List.reverse
  nextInt n := n - 1
  perm_shuffle := List.reverse_perm
  nextInt_lt n hn := Nat.sub_lt hn Nat.one_pos

def offer : ResourceOffer where
  hostname := "agent"
  role := "*"
  region := none
  zone := none
  attributes := []
  resources := [⟨.ports, .ranges [(31000, 31001), (8080, 8080)], "*", none, none, none⟩]
  scalar_nonneg := by
    intro r hr hname
    obtain rfl := List.mem_singleton.mp hr
    exact absurd hname (by decide)

def mapping (hostPort : Option ℤ) : Container.PortMapping := ⟨80, hostPort, 0, "tcp", none, ∅, []⟩

/-- No host port, any host port, and a fixed one. -/
def web : RunSpec := .app { plainApp ⟨["web"]⟩ ∅ with
  container := some (.mesos [] [mapping none, mapping (some 0), mapping (some 8080)] none) }

theorem portsMatch_web : ∃ m, portsMatch lastFirst web offer (.any ["*"]) = some m ∧
    List.Forall₂ (Answers (offeredPorts (offeredPortRanges offer (.any ["*"])))
      (fixedPorts (requested web))) (requested web) m.hostPortsWithRole ∧
    (m.assigned.map PortWithRole.port).Nodup ∧
    offeredPorts (m.resources.flatMap portRanges) = m.assigned := by
  obtain ⟨hiff, hall⟩ := portsMatch_spec lastFirst web offer (.any ["*"])
    ⟨by decide, by decide⟩ (by decide)
  obtain ⟨m, hm⟩ := Option.isSome_iff_exists.mp (hiff.mpr ⟨by decide, by decide⟩)
  exact ⟨m, hm, hall m hm⟩

example : (portsMatch lastFirst web offer (.any ["*"])).map PortsMatch.hostPorts =
    some [none, some 31001, some 8080] := by decide

end AssignedPorts

end PortsMatcher

end Marathon
