import Marathon.Lib.Allotment
import Marathon.State.LocalEdits

/-!
# Assignment of service ports

A service port of 0 is a request for a free one. New and changed apps get ports that they had
before, and then ports of the configured range that no app uses.
-/

namespace Marathon

open Lib

namespace Container

def servicePorts (container : Container) : List ℤ :=
  container.portMappings.map PortMapping.servicePort

def copyWith (portMappings : List PortMapping) : Container → Container
  | mesos volumes _ linuxInfo => mesos volumes portMappings linuxInfo
  | docker volumes image _ privileged parameters forcePullImage linuxInfo =>
    docker volumes image portMappings privileged parameters forcePullImage linuxInfo
  | mesosDocker volumes image _ credential pullConfig forcePullImage linuxInfo =>
    mesosDocker volumes image portMappings credential pullConfig forcePullImage linuxInfo

@[simp] theorem portMappings_copyWith (portMappings : List PortMapping) (container : Container) :
    (container.copyWith portMappings).portMappings = portMappings := by
  cases container <;> rfl

@[simp] theorem copyWith_portMappings (container : Container) :
    container.copyWith container.portMappings = container := by
  cases container <;> rfl

end Container

namespace AppDefinition

def randomPortValue : ℤ := 0

def randomPortDefinition : PortDefinition := ⟨randomPortValue, "tcp", none, ∅⟩

def servicePorts (app : AppDefinition) : List ℤ :=
  ((app.container.filter fun c => c.portMappings ≠ []).map Container.servicePorts).getD
    app.portNumbers

def hasDynamicServicePorts (app : AppDefinition) : Bool := app.servicePorts.contains randomPortValue

end AppDefinition

namespace AssignDynamicServiceLogic

/-- A `Range`: the ports from `start` on, in steps. -/
structure PortRange where
  start : ℤ
  step : ℤ
  length : ℕ
  step_ne : step ≠ 0

def PortRange.ports (portRange : PortRange) : List ℤ :=
  (List.range portRange.length).map fun (i : ℕ) => portRange.start + i * portRange.step

inductive Failure
  | portRangeExhausted (minPort maxPort : ℤ)
  /-- There is no `min` of an empty range. -/
  | noSuchElement
  /-- `updateApp` requires that the id of the app stays. -/
  | requirementFailed
deriving DecidableEq

def PortRange.exhausted (portRange : PortRange) : Failure :=
  match portRange.ports.min?, portRange.ports.max? with
  | some minPort, some maxPort => .portRangeExhausted minPort maxPort
  | _, _ => .noSuchElement

def changedOrNew (original : RootGroup) (newApp : AppDefinition) : Bool :=
  (original.app newApp.id).all fun app => app.isUpgrade newApp

/-- Pairs of two lists, of which the shorter one is filled up. -/
def zipAll {α β : Type} (xs : List α) (ys : List β) (x : α) (y : β) : List (α × β) :=
  (xs ++ List.replicate (ys.length - xs.length) x).zip
    (ys ++ List.replicate (xs.length - ys.length) y)

def mergeServicePortsAndPortDefinitions (portDefinitions : List PortDefinition)
    (servicePorts : List ℤ) : List PortDefinition :=
  if portDefinitions ≠ [] then
    (zipAll portDefinitions servicePorts AppDefinition.randomPortDefinition
      AppDefinition.randomPortValue).map fun (portDefinition, servicePort) =>
        { portDefinition with port := servicePort }
  else []

/-- `freePortsIterator.next()`: the available ports come before the unassigned ones. -/
def nextPort : List ℤ → List ℤ → Option (ℤ × List ℤ × List ℤ)
  | next :: available, unassigned => some (next, available, unassigned)
  | [], next :: unassigned => some (next, [], unassigned)
  | [], [] => none

/-- The service ports with free ports for the zeros, and the unassigned ports that remain for
other apps. -/
def assignServicePorts (portRange : PortRange) :
    List ℤ → List ℤ → List ℤ → Except Failure (List ℤ × List ℤ)
  | [], _, unassigned => .ok ([], unassigned)
  | port :: ports, available, unassigned =>
    if port = AppDefinition.randomPortValue then
      match nextPort available unassigned with
      | some (next, available, unassigned) =>
        (assignServicePorts portRange ports available unassigned).map (Prod.map (next :: ·) id)
      | none => .error portRange.exhausted
    else (assignServicePorts portRange ports available unassigned).map (Prod.map (port :: ·) id)

/-- The ports of the old app that are not used in the new definition. -/
def assignedAndAvailable (newApp : AppDefinition) (oldApp : Option AppDefinition)
    (portRange : PortRange) : List ℤ :=
  match oldApp with
  | some oldApp =>
    oldApp.servicePorts.filter fun p => p ∈ portRange.ports ∧ p ∉ newApp.servicePorts
  | none => []

def assignPorts (newApp : AppDefinition) (oldApp : Option AppDefinition) (portRange : PortRange)
    (unassigned : List ℤ) : Except Failure (AppDefinition × List ℤ) :=
  (assignServicePorts portRange newApp.servicePorts (assignedAndAvailable newApp oldApp portRange)
    unassigned).map fun (servicePorts, unassigned) =>
      let updatedContainer := (newApp.container.filter fun c => c.portMappings ≠ []).map fun container =>
        container.copyWith (container.portMappings.zipWith
          (fun portMapping servicePort => { portMapping with servicePort := servicePort })
          servicePorts)
      ({ newApp with
        portDefinitions := mergeServicePortsAndPortDefinitions newApp.portDefinitions servicePorts
        container := updatedContainer.or newApp.container }, unassigned)

/-- One app of `dynamicApps`. Ports of definitions are always set to service ports. -/
def dynamicApp (portRange : PortRange) (original : RootGroup) (app : AppDefinition)
    (unassigned : List ℤ) : Except Failure (AppDefinition × List ℤ) :=
  if app.hasDynamicServicePorts then
    assignPorts app (original.app app.id) portRange unassigned
  else
    .ok ({ app with
      portDefinitions := mergeServicePortsAndPortDefinitions app.portDefinitions app.servicePorts },
      unassigned)

def dynamicApps (portRange : PortRange) (original : RootGroup) :
    List AppDefinition → List ℤ → Except Failure (List AppDefinition)
  | [], _ => .ok []
  | app :: apps, unassigned =>
    match dynamicApp portRange original app unassigned with
    | .error failure => .error failure
    | .ok (app, unassigned) => (dynamicApps portRange original apps unassigned).map (app :: ·)

def allServicePorts (root : RootGroup) : List ℤ :=
  root.transitiveApps.flatMap AppDefinition.servicePorts

/-- The ports of the range that no app uses, before or after. -/
def unassignedPorts (portRange : PortRange) (original target : RootGroup) : List ℤ :=
  portRange.ports.filter fun p => p ∉ allServicePorts original ++ allServicePorts target

def changedApps (original target : RootGroup) : List AppDefinition :=
  target.transitiveApps.filter (changedOrNew original)

def assignDynamicServicePorts (behavior : NewGroupEnforceRoleBehavior)
    (portRange : PortRange) (original target : RootGroup) : Except Failure RootGroup :=
  match dynamicApps portRange original (changedApps original target)
    (unassignedPorts portRange original target) with
  | .error failure => .error failure
  | .ok apps =>
    match apps.foldlM (fun rootGroup app =>
      rootGroup.updateApp behavior app.id (fun _ => app) app.version) target with
    | some rootGroup => .ok rootGroup
    | none => .error .requirementFailed

/-! ## What each app gets -/

section Apps

variable (portRange : PortRange) (original : RootGroup)

theorem nodup_ports : portRange.ports.Nodup := by
  rw [PortRange.ports, List.nodup_map_iff_inj_on List.nodup_range]
  intro i _ j _ h
  exact Int.ofNat_inj.mp (Int.eq_of_mul_eq_mul_right portRange.step_ne (Int.add_left_cancel h))

/-- The zeros of an app are a demand for as many ports. -/
def demand (app : AppDefinition) : Demand ℤ where
  amount := app.servicePorts.count AppDefinition.randomPortValue
  own := assignedAndAvailable app (original.app app.id) portRange

/-- The app with other service ports. -/
def withServicePorts (app : AppDefinition) (servicePorts : List ℤ) : AppDefinition :=
  { app with
    portDefinitions := mergeServicePortsAndPortDefinitions app.portDefinitions servicePorts
    container := ((app.container.filter fun c => c.portMappings ≠ []).map fun container =>
      container.copyWith (container.portMappings.zipWith
        (fun portMapping servicePort => { portMapping with servicePort := servicePort })
        servicePorts)).or app.container }

variable {portRange original}

theorem map_granted {P : Prop} [Decidable P] {port : ℤ} {ports rest : List ℤ} {failure : Failure} :
    (if P then Except.ok (ports, rest) else .error failure).map (Prod.map (port :: ·) id) =
      if P then .ok (port :: ports, rest) else .error failure := by
  split_ifs <;> rfl

theorem assignServicePorts_eq (ports own unassigned : List ℤ) :
    assignServicePorts portRange ports own unassigned =
      let d : Demand ℤ := ⟨ports.count AppDefinition.randomPortValue, own⟩
      if d.missing ≤ unassigned.length then
        .ok (fill AppDefinition.randomPortValue ports (d.reused ++ unassigned.take d.missing),
          unassigned.drop d.missing)
      else .error portRange.exhausted := by
  induction ports generalizing own unassigned with
  | nil => simp [assignServicePorts, Demand.missing, fill]
  | cons port ports ih =>
    rw [assignServicePorts]
    by_cases hport : port = AppDefinition.randomPortValue
    · subst hport
      rw [if_pos rfl]
      cases own with
      | cons next own =>
        rw [nextPort]
        dsimp only
        rw [ih]
        simp only [Demand.missing, Demand.reused, List.count_cons_self, List.length_cons,
          Nat.add_sub_add_right, List.take_succ_cons, List.cons_append, fill_cons_self]
        exact map_granted
      | nil =>
        cases unassigned with
        | nil =>
          rw [nextPort, if_neg]
          simp [Demand.missing]
        | cons next unassigned =>
          rw [nextPort]
          dsimp only
          rw [ih]
          simp only [Demand.missing, Demand.reused, List.count_cons_self, List.length_cons,
            List.length_nil, Nat.sub_zero, List.take_nil, List.nil_append, List.take_succ_cons,
            List.drop_succ_cons, fill_cons_self, Nat.add_le_add_iff_right]
          exact map_granted
    · rw [if_neg hport, ih, List.count_cons_of_ne hport]
      dsimp only
      rw [fill_cons_of_ne hport]
      exact map_granted

theorem map_port_merge {portDefinitions : List PortDefinition} {servicePorts : List ℤ}
    (h : servicePorts.length = portDefinitions.length) :
    (mergeServicePortsAndPortDefinitions portDefinitions servicePorts).map PortDefinition.port =
      servicePorts := by
  rw [mergeServicePortsAndPortDefinitions]
  split_ifs with hne
  · rw [List.map_map, zipAll, h, Nat.sub_self, List.replicate_zero, List.replicate_zero,
      List.append_nil, List.append_nil]
    exact List.map_snd_zip h.le
  · rw [not_not.mp hne, List.length_nil] at h
    rw [List.length_eq_zero_iff.mp h]
    rfl

/-- The service ports are those that the app has been given. -/
theorem servicePorts_withServicePorts {app : AppDefinition} {servicePorts : List ℤ}
    (h : servicePorts.length = app.servicePorts.length) :
    (withServicePorts app servicePorts).servicePorts = servicePorts := by
  unfold withServicePorts AppDefinition.servicePorts at *
  cases hcontainer : app.container with
  | none =>
    rw [hcontainer] at h
    exact map_port_merge (h.trans (List.length_map _))
  | some container =>
    rw [hcontainer] at h
    by_cases hne : container.portMappings = []
    · rw [Option.filter_some, if_neg (by simpa using hne)] at h ⊢
      rw [Option.map_none, Option.none_or, Option.filter_some, if_neg (by simpa using hne)]
      exact map_port_merge (h.trans (List.length_map _))
    · rw [Option.filter_some, if_pos (by simpa using hne)] at h ⊢
      have hlength : servicePorts.length = container.portMappings.length :=
        h.trans (List.length_map _)
      have hzip : container.portMappings.zipWith (fun portMapping servicePort =>
          { portMapping with servicePort := servicePort }) servicePorts ≠ [] := by
        rw [← List.length_pos_iff, List.length_zipWith, hlength, Nat.min_self, List.length_pos_iff]
        exact hne
      rw [Option.map_some, Option.some_or, Option.filter_some, Container.portMappings_copyWith,
        if_pos (by simpa using hzip), Option.map_some, Option.getD_some, Container.servicePorts,
        Container.portMappings_copyWith, List.map_zipWith]
      have hsnd := List.map_snd_zip hlength.le
      rw [List.zip, List.map_zipWith] at hsnd
      exact hsnd

theorem withServicePorts_self (app : AppDefinition) :
    withServicePorts app app.servicePorts =
      { app with
        portDefinitions :=
          mergeServicePortsAndPortDefinitions app.portDefinitions app.servicePorts } := by
  have hzip (container : Container) : container.portMappings.zipWith (fun portMapping servicePort =>
      { portMapping with servicePort := servicePort }) container.servicePorts =
        container.portMappings := by
    rw [Container.servicePorts, List.zipWith_map_right, List.zipWith_self]
    exact List.map_id _
  unfold withServicePorts AppDefinition.servicePorts
  cases hcontainer : app.container with
  | none => rfl
  | some container =>
    by_cases hne : container.portMappings = []
    · rw [Option.filter_some, if_neg (by simpa using hne)]
      rfl
    · rw [Option.filter_some, if_pos (by simpa using hne), Option.map_some, Option.map_some,
        Option.getD_some, hzip, Container.copyWith_portMappings]
      rfl

theorem dynamicApp_eq (app : AppDefinition) (unassigned : List ℤ) :
    dynamicApp portRange original app unassigned =
      let d := demand portRange original app
      if d.missing ≤ unassigned.length then
        .ok (withServicePorts app (fill AppDefinition.randomPortValue app.servicePorts
            (d.reused ++ unassigned.take d.missing)),
          unassigned.drop d.missing)
      else .error portRange.exhausted := by
  rw [dynamicApp]
  cases hdynamic : app.hasDynamicServicePorts with
  | true =>
    rw [if_pos rfl, assignPorts, assignServicePorts_eq]
    dsimp only [demand]
    split_ifs <;> rfl
  | false =>
    have hzero : AppDefinition.randomPortValue ∉ app.servicePorts := by
      simpa [AppDefinition.hasDynamicServicePorts] using hdynamic
    have hcount := List.count_eq_zero_of_not_mem hzero
    have hfill : fill AppDefinition.randomPortValue app.servicePorts [] = app.servicePorts :=
      fill_eq_self hzero
    simp [demand, Demand.missing, Demand.reused, hcount, hfill, withServicePorts_self]

/-- The apps get what meets their demands. -/
theorem dynamicApps_eq (apps : List AppDefinition) (unassigned : List ℤ) :
    dynamicApps portRange original apps unassigned =
      match Demand.serve (apps.map (demand portRange original)) unassigned with
      | some given => .ok (apps.zipWith (fun app ports =>
          withServicePorts app (fill AppDefinition.randomPortValue app.servicePorts ports)) given)
      | none => .error portRange.exhausted := by
  induction apps generalizing unassigned with
  | nil => rfl
  | cons app apps ih =>
    rw [dynamicApps, dynamicApp_eq, List.map_cons, Demand.serve]
    by_cases hle : (demand portRange original app).missing ≤ unassigned.length
    · rw [if_pos hle, if_pos hle]
      dsimp only
      rw [ih]
      cases Demand.serve (apps.map (demand portRange original))
        (unassigned.drop (demand portRange original app).missing) <;> rfl
    · rw [if_neg hle, if_neg hle]

end Apps

end AssignDynamicServiceLogic

end Marathon
