import Marathon.Launcher.AssignedPorts
import Marathon.Launcher.PortViews

/-!
# Ports that agree

Where every mapping has a host port or a container port, container, environment and port
assignments say the same. Without both of them the environment gets a random port, and the port
assignments say 0. The first of the variables is the first port that is assigned, which need not be
the one of the first mapping.
-/

namespace Marathon

open Lib Mesos PortsMatcher

/-! ## Names of variables -/

variable {port : (PortRequest × Option ℕ) × ℕ} {env : Dict String String} {hostName : String}
  {address : Option String} {mapping : Container.PortMapping}

namespace EnvironmentHelper

theorem nat_repr_injective {m n : ℕ} (h : m.repr = n.repr) : m = n := by
  have hdigits := congrArg String.toList h
  rw [Nat.toList_repr, Nat.toList_repr] at hdigits
  rw [← Nat.ofDigitChars_ten_toDigits (n := m), ← Nat.ofDigitChars_ten_toDigits (n := n), hdigits]

theorem int_repr_injective {a b : ℤ} (ha : 0 ≤ a) (hb : 0 ≤ b) (h : a.repr = b.repr) : a = b := by
  obtain ⟨m, rfl⟩ := Int.eq_ofNat_of_zero_le ha
  obtain ⟨n, rfl⟩ := Int.eq_ofNat_of_zero_le hb
  exact congrArg _ (nat_repr_injective h)

theorem portVariable_injective {i j : ℕ} (h : "PORT" ++ i.repr = "PORT" ++ j.repr) : i = j := by
  have hlist := congrArg String.toList h
  rw [String.toList_append, String.toList_append] at hlist
  exact nat_repr_injective (String.toList_inj.mp (List.append_cancel_left hlist))

theorem exists_repr_eq (i : ℕ) : ∃ c rest, i.repr.toList = c :: rest ∧ c.isDigit = true := by
  rw [Nat.toList_repr]
  cases hdigits : Nat.toDigits 10 i with
  | nil => exact absurd hdigits Nat.toDigits_ne_nil
  | cons c rest =>
    refine ⟨c, rest, rfl, Nat.isDigit_of_mem_toDigits (b := 10) (n := i) (by decide) (by decide) ?_⟩
    rw [hdigits]
    exact List.mem_cons_self

theorem portVariable_ne (i : ℕ) :
    "PORT" ++ i.repr ≠ "PORT" ∧ "PORT" ++ i.repr ≠ "PORTS" ∧
      ∀ name, "PORT" ++ i.repr ≠ "PORT_" ++ name := by
  obtain ⟨c, rest, hrepr, hdigit⟩ := exists_repr_eq i
  have hlist : ("PORT" ++ i.repr).toList = 'P' :: 'O' :: 'R' :: 'T' :: c :: rest := by
    rw [String.toList_append, hrepr]
    rfl
  refine ⟨fun h => ?_, fun h => ?_, fun name h => ?_⟩
  · rw [h] at hlist
    exact absurd (congrArg List.length hlist) (by simp)
  · rw [h] at hlist
    have hc : c = 'S' := by
      have h5 := congrArg (fun l => l[4]?) hlist
      simpa using h5.symm
    rw [hc] at hdigit
    revert hdigit
    decide
  · rw [h, String.toList_append] at hlist
    have hc : c = '_' := by
      have h5 := congrArg (fun l => l[4]?) hlist
      simpa using h5.symm
    rw [hc] at hdigit
    revert hdigit
    decide

theorem port_ne (name : String) : "PORT" ≠ "PORT_" ++ name := by
  intro h
  have hlist := congrArg (fun s => s.toList.length) h
  rw [String.toList_append, List.length_append] at hlist
  simp at hlist
  omega

/-! ## The environment -/

section Env

variable {generator : ContainerPortGenerator} {requestedPorts : List PortRequest}
  {hostPorts : List (Option ℕ)} {consumedPorts : List ℤ} {portIndex : ℕ}
  {indexed : List (String × String)} {generated : List (ℕ × ℤ)}

/-- The value of a variable with an index: the host port, or the container port, or any port. -/
def Shows (request : PortRequest) : Option ℕ → String → Prop
  | some hostPort, value => value = hostPort.repr
  | none, value =>
    if request.port = 0 then ∃ port : ℤ, 1025 ≤ port ∧ value = port.repr
    else value = request.port.repr

theorem indexedPorts_spec (hlength : portIndex + hostPorts.length ≤ requestedPorts.length)
    (h : indexedPorts generator requestedPorts portIndex hostPorts consumedPorts =
      some (indexed, generated)) :
    indexed.map Prod.fst =
        (List.range' portIndex hostPorts.length).map (fun i => "PORT" ++ i.repr) ∧
      ∀ i hostPort request, hostPorts[i]? = some hostPort →
        requestedPorts[portIndex + i]? = some request →
        ∃ value, ("PORT" ++ (portIndex + i).repr, value) ∈ indexed ∧
          Shows request hostPort value := by
  induction hostPorts generalizing portIndex consumedPorts indexed generated with
  | nil =>
    cases h
    refine ⟨rfl, fun i hostPort request hi => ?_⟩
    cases hi
  | cons first hostPorts ih =>
    rw [List.length_cons] at hlength
    have hlt : portIndex < requestedPorts.length := by omega
    -- the variable of the first port, whatever it is, comes before the others
    have hstep : ∃ value indexed' generated' consumedPorts',
        indexed = ("PORT" ++ portIndex.repr, value) :: indexed' ∧
        indexedPorts generator requestedPorts (portIndex + 1) hostPorts consumedPorts' =
          some (indexed', generated') ∧ Shows requestedPorts[portIndex] first value := by
      cases first with
      | some hostPort =>
        rw [indexedPorts] at h
        obtain ⟨⟨indexed', generated'⟩, hrest, heq⟩ := Option.map_eq_some_iff.mp h
        cases heq
        exact ⟨_, _, _, _, rfl, hrest, rfl⟩
      | none =>
        rw [indexedPorts, List.getElem?_eq_getElem hlt] at h
        dsimp only at h
        by_cases hzero : (requestedPorts[portIndex]).port = 0
        · rw [if_pos hzero] at h
          obtain ⟨port, hport, h⟩ := Option.bind_eq_some_iff.mp h
          obtain ⟨⟨indexed', generated'⟩, hrest, heq⟩ := Option.map_eq_some_iff.mp h
          cases heq
          refine ⟨_, _, _, _, rfl, hrest, ?_⟩
          rw [Shows, if_pos hzero]
          exact ⟨port, (generator.of_next _ _ hport).1, rfl⟩
        · rw [if_neg hzero] at h
          obtain ⟨⟨indexed', generated'⟩, hrest, heq⟩ := Option.map_eq_some_iff.mp h
          cases heq
          refine ⟨_, _, _, _, rfl, hrest, ?_⟩
          rw [Shows, if_neg hzero]
    obtain ⟨value, indexed', generated', consumedPorts', rfl, hrest, hshows⟩ := hstep
    obtain ⟨hkeys, hvalues⟩ := ih (by omega) hrest
    refine ⟨by rw [List.map_cons, hkeys, List.length_cons, List.range'_succ, List.map_cons], ?_⟩
    intro i hostPort request hi hrequest
    cases i with
    | zero =>
      cases hi
      rw [Nat.add_zero, List.getElem?_eq_getElem hlt] at hrequest
      cases hrequest
      exact ⟨value, List.mem_cons_self, hshows⟩
    | succ i =>
      rw [← Nat.add_assoc, Nat.add_right_comm] at hrequest ⊢
      obtain ⟨value', hmem, hshows'⟩ := hvalues i hostPort request hi hrequest
      exact ⟨value', List.mem_cons_of_mem _ hmem, hshows'⟩

theorem exists_indexedPorts
    (hfixed : ∀ i request, hostPorts[i]? = some none →
      requestedPorts[portIndex + i]? = some request → request.port ≠ 0) :
    ∃ indexed, indexedPorts generator requestedPorts portIndex hostPorts consumedPorts =
      some (indexed, []) := by
  induction hostPorts generalizing portIndex with
  | nil => exact ⟨[], rfl⟩
  | cons first hostPorts ih =>
    obtain ⟨indexed, hrest⟩ : ∃ indexed, indexedPorts generator requestedPorts (portIndex + 1)
        hostPorts consumedPorts = some (indexed, []) := ih fun i request hi hrequest =>
      hfixed (i + 1) request hi (by rwa [← Nat.add_assoc, Nat.add_right_comm])
    cases first with
    | some hostPort =>
      rw [indexedPorts, hrest]
      exact ⟨_, rfl⟩
    | none =>
      rw [indexedPorts]
      cases hrequest : requestedPorts[portIndex]? with
      | none => exact ⟨indexed, hrest⟩
      | some request =>
        dsimp only
        rw [if_neg (hfixed 0 request rfl hrequest), hrest]
        exact ⟨_, rfl⟩

theorem key_of_numberedPort {b : String × String}
    (h : numberedPort generated port = some b) : ∃ name, b.1 = "PORT_" ++ name := by
  obtain ⟨⟨⟨_, requestedPort⟩, _ | effectivePort⟩, index⟩ := port
  · rw [numberedPort] at h
    split_ifs at h with hfixed
    · cases h
      exact ⟨_, rfl⟩
    · obtain ⟨port, -, rfl⟩ := Option.map_eq_some_iff.mp h
      exact ⟨_, rfl⟩
  · rw [numberedPort] at h
    split_ifs at h with hzero
    · cases h
      exact ⟨_, rfl⟩
    · cases h
      exact ⟨_, rfl⟩

theorem key_of_namedPort {bs : List (String × String)}
    (h : namedPort generated port = some bs) : ∀ b ∈ bs, ∃ name, b.1 = "PORT_" ++ name := by
  intro b hb
  obtain ⟨⟨⟨_ | portName, requestedPort⟩, _ | effectivePort⟩, index⟩ := port
  · cases h
    cases hb
  · cases h
    cases hb
  · rw [namedPort] at h
    split_ifs at h with hfixed
    · cases h
      rw [List.mem_singleton.mp hb]
      exact ⟨_, rfl⟩
    · obtain ⟨port, -, rfl⟩ := Option.map_eq_some_iff.mp h
      rw [List.mem_singleton.mp hb]
      exact ⟨_, rfl⟩
  · cases h
    rw [List.mem_singleton.mp hb]
    exact ⟨_, rfl⟩

theorem insertAll_append {K V : Type} [DecidableEq K] (d : Dict K V) (a b : List (K × V)) :
    d.insertAll (a ++ b) = (d.insertAll a).insertAll b := List.foldl_append

/-- The ports of the environment: those that are assigned, and those that are generated. -/
def allAssigned (generator : ContainerPortGenerator) (hostPorts : List (Option ℕ))
    (generated : List (ℕ × ℤ)) : List ℤ :=
  hostPorts.reduceOption.map Nat.cast ++ (generator.values generated).map Prod.snd

theorem portsEnv_spec (hne : hostPorts ≠ []) (hlength : hostPorts.length = requestedPorts.length)
    (h : portsEnv generator requestedPorts hostPorts = some env) :
    (∀ (i : ℕ) hostPort request, hostPorts[i]? = some hostPort →
      requestedPorts[i]? = some request → ∃ value, env.lookup ("PORT" ++ i.repr) = some value ∧ Shows request hostPort value) ∧
    ∃ indexed generated, indexedPorts generator requestedPorts 0 hostPorts
        (requestedPorts.map PortRequest.port ++ hostPorts.reduceOption.map Nat.cast) =
          some (indexed, generated) ∧
      env.lookup "PORT" = (allAssigned generator hostPorts generated).head?.map Int.repr := by
  rw [portsEnv, if_neg hne] at h
  obtain ⟨⟨indexed, generated⟩, hindexed, h⟩ := Option.bind_eq_some_iff.mp h
  obtain ⟨numbered, hnumbered, h⟩ := Option.bind_eq_some_iff.mp h
  obtain ⟨named, hnamed, rfl⟩ := Option.map_eq_some_iff.mp h
  obtain ⟨hkeys, hvalues⟩ := indexedPorts_spec (by omega) hindexed
  have hnumberedKeys : ∀ b ∈ numbered, ∃ name, b.1 = "PORT_" ++ name := by
    intro b hb
    obtain ⟨port, -, hport⟩ := (mem_of_mapM hnumbered).mp hb
    exact key_of_numberedPort hport
  have hnamedKeys : ∀ b ∈ named.flatten, ∃ name, b.1 = "PORT_" ++ name := by
    intro b hb
    obtain ⟨bs, hbs, hb⟩ := List.mem_flatten.mp hb
    obtain ⟨port, -, hport⟩ := (mem_of_mapM hnamed).mp hbs
    exact key_of_namedPort hport b hb
  have hnodup : (indexed.map Prod.fst).Nodup := by
    rw [hkeys]
    exact List.Nodup.map (fun _ _ => portVariable_injective) List.nodup_range'
  constructor
  · intro i hostPort request hi hrequest
    obtain ⟨value, hmem, hshows⟩ := hvalues i hostPort request hi (by rwa [Nat.zero_add])
    rw [Nat.zero_add] at hmem
    refine ⟨value, ?_, hshows⟩
    obtain ⟨hport, hports, hname⟩ := portVariable_ne i
    rw [toEnv, insertAll_append, insertAll_append, insertAll_append, insertAll_append,
      Dict.lookup_insertAll_of_notMem, Dict.lookup_insertAll_of_notMem,
      Dict.lookup_insertAll_of_notMem, Dict.lookup_insertAll_of_notMem,
      Dict.lookup_insertAll_of_mem hnodup hmem]
    · intro b hb heq
      obtain ⟨name, hb⟩ := hnumberedKeys b hb
      exact hname name (heq.symm.trans hb)
    · intro b hb heq
      obtain ⟨name, hb⟩ := hnamedKeys b hb
      exact hname name (heq.symm.trans hb)
    · intro b hb heq
      obtain ⟨port, -, rfl⟩ := List.mem_map.mp hb
      exact hport heq.symm
    · intro b hb heq
      rw [List.mem_singleton.mp hb] at heq
      exact hports heq.symm
  · refine ⟨indexed, generated, hindexed, ?_⟩
    rw [toEnv, insertAll_append, Dict.lookup_insertAll_of_notMem, insertAll_append, allAssigned]
    · cases hhead : (hostPorts.reduceOption.map (Nat.cast : ℕ → ℤ) ++
          (generator.values generated).map Prod.snd).head? with
      | some port =>
        exact Dict.lookup_insertAll_of_mem (List.nodup_singleton _) (List.mem_singleton_self _)
      | none =>
        have hempty : (∅ : Dict String String).lookup "PORT" = none := AList.lookup_empty _
        change ((∅ : Dict String String).insertAll (indexed ++ numbered ++ named.flatten)).lookup
          "PORT" = none
        refine (Dict.lookup_insertAll_of_notMem ?_).trans hempty
        intro b hb heq
        rcases List.mem_append.mp hb with hb | hb
        · rcases List.mem_append.mp hb with hb | hb
          · have hkey := List.mem_map_of_mem (f := Prod.fst) hb
            rw [hkeys] at hkey
            obtain ⟨i, -, hi⟩ := List.mem_map.mp hkey
            exact (portVariable_ne i).1 (hi.trans heq)
          · obtain ⟨name, hb⟩ := hnumberedKeys b hb
            exact port_ne name (heq.symm.trans hb)
        · obtain ⟨name, hb⟩ := hnamedKeys b hb
          exact port_ne name (heq.symm.trans hb)
    · intro b hb heq
      rw [List.mem_singleton.mp hb] at heq
      exact absurd heq (show "PORTS" ≠ "PORT" by decide)

theorem exists_portsEnv (generator : ContainerPortGenerator)
    (hfixed : ∀ p ∈ requestedPorts.zip hostPorts, p.2 = none → p.1.port ≠ 0) :
    (∃ indexed, indexedPorts generator requestedPorts 0 hostPorts
      (requestedPorts.map PortRequest.port ++ hostPorts.reduceOption.map Nat.cast) =
        some (indexed, [])) ∧
    ∃ env, portsEnv generator requestedPorts hostPorts = some env := by
  obtain ⟨indexed, hindexed⟩ : ∃ indexed, indexedPorts generator requestedPorts 0 hostPorts
      (requestedPorts.map PortRequest.port ++ hostPorts.reduceOption.map Nat.cast) =
        some (indexed, []) := by
    refine exists_indexedPorts fun i request hi hrequest => hfixed (request, none) ?_ rfl
    rw [Nat.zero_add] at hrequest
    exact List.mem_of_getElem? (List.getElem?_zip_eq_some.mpr ⟨hrequest, hi⟩)
  refine ⟨⟨indexed, hindexed⟩, ?_⟩
  rw [portsEnv]
  split_ifs with hnil
  · exact ⟨∅, rfl⟩
  · have hports : ∀ port ∈ (requestedPorts.zip hostPorts).zipIdx, port.1.2 = none →
        port.1.1.port ≠ 0 := fun port hport => hfixed port.1 (List.fst_mem_of_mem_zipIdx hport)
    obtain ⟨numbered, hnumbered⟩ : ∃ numbered,
        (requestedPorts.zip hostPorts).zipIdx.mapM (numberedPort []) = some numbered := by
      refine exists_mapM_eq_some ?_
      rintro ⟨⟨⟨_, requestedPort⟩, _ | effectivePort⟩, index⟩ hport
      · exact ⟨_, if_pos (hports _ hport rfl)⟩
      · rw [numberedPort]
        split_ifs
        · exact ⟨_, rfl⟩
        · exact ⟨_, rfl⟩
    obtain ⟨named, hnamed⟩ : ∃ named,
        (requestedPorts.zip hostPorts).zipIdx.mapM (namedPort []) = some named := by
      refine exists_mapM_eq_some ?_
      rintro ⟨⟨⟨_ | portName, requestedPort⟩, _ | effectivePort⟩, index⟩ hport
      · exact ⟨_, rfl⟩
      · exact ⟨_, rfl⟩
      · exact ⟨_, if_pos (hports _ hport rfl)⟩
      · exact ⟨_, rfl⟩
    dsimp only
    rw [hindexed]
    dsimp only [Option.bind_some]
    rw [hnumbered]
    dsimp only [Option.bind_some]
    rw [hnamed]
    exact ⟨_, rfl⟩

end Env

end EnvironmentHelper

namespace AgreeingPorts

open EnvironmentHelper

/-! ## Aligned ports -/

/-- A host port for every mapping that asks for one, and for no other. -/
def Aligned (mappings : List Container.PortMapping) (hostPorts : List (Option ℕ)) : Prop :=
  List.Forall₂ (fun mapping hostPort => mapping.hostPort.isSome = hostPort.isSome) mappings hostPorts

variable {mappings : List Container.PortMapping} {hostPorts : List (Option ℕ)}

theorem aligned_of_portsMatch {random : Random} {app : AppDefinition} {container : Container}
    {offer : ResourceOffer} {resourceSelector : ResourceMatcher.ResourceSelector} {m : PortsMatch}
    (hcontainer : app.container = some container) (hne : container.portMappings ≠ [])
    (h : portsMatch random (.app app) offer resourceSelector = some m) :
    Aligned container.portMappings m.hostPorts := by
  have hanswers := answers_portsMatch h
  have hrequested : requested (.app app) =
      container.portMappings.map fun mapping => .of mapping.hostPort := by
    rw [requested, hcontainer]
    exact if_pos hne
  rw [hrequested, List.forall₂_map_left_iff] at hanswers
  rw [Aligned, PortsMatch.hostPorts, List.forall₂_map_right_iff]
  refine hanswers.imp fun mapping hostPort hanswer => ?_
  rw [Option.isSome_map]
  cases hport : mapping.hostPort with
  | none =>
    rw [hport] at hanswer
    cases hanswer
    rfl
  | some port =>
    rw [hport, HostPort.of] at hanswer
    split_ifs at hanswer
    · cases hanswer
      rfl
    · cases hanswer
      rfl

/-- The container port, or the host port in its place. -/
def containerPortOf (mapping : Container.PortMapping) (hostPort : ℕ) : ℤ :=
  if mapping.containerPort = 0 then hostPort else mapping.containerPort

section Collect

variable {α β γ : Type} (f : α → β → γ)

theorem getElem?_filterMap_zip {xs : List α} {ys : List (Option β)} {i : ℕ} {x : α} {y : β}
    (hx : xs[i]? = some x) (hy : ys[i]? = some (some y)) :
    ((xs.zip ys).filterMap fun p => p.2.map (f p.1))[(ys.take i).reduceOption.length]? =
      some (f x y) := by
  induction xs generalizing ys i with
  | nil => cases hx
  | cons x' xs ih =>
    cases ys with
    | nil => cases hy
    | cons y' ys =>
      cases i with
      | zero =>
        cases hx
        cases hy
        rfl
      | succ i =>
        have hrest := ih hx hy
        cases y' with
        | none => exact hrest
        | some y' => exact hrest

theorem length_filterMap_zip {xs : List α} {ys : List (Option β)} (h : ys.length ≤ xs.length) :
    ((xs.zip ys).filterMap fun p => p.2.map (f p.1)).length = ys.reduceOption.length := by
  induction xs generalizing ys with
  | nil =>
    rw [List.length_eq_zero_iff.mp (Nat.le_zero.mp h)]
    rfl
  | cons x' xs ih =>
    cases ys with
    | nil => rfl
    | cons y' ys =>
      have hrest := ih (Nat.le_of_succ_le_succ h)
      cases y' with
      | none => exact hrest
      | some y' => exact congrArg Nat.succ hrest

end Collect

theorem hostPort_boundPortMapping (mapping : Container.PortMapping) (hostPort : ℕ) :
    (TaskBuilder.boundPortMapping mapping hostPort).hostPort = some (hostPort : ℤ) := by
  rw [TaskBuilder.boundPortMapping]
  split_ifs <;> rfl

theorem containerPort_boundPortMapping (mapping : Container.PortMapping) (hostPort : ℕ) :
    (TaskBuilder.boundPortMapping mapping hostPort).containerPort =
      containerPortOf mapping hostPort := by
  rw [TaskBuilder.boundPortMapping, containerPortOf]
  split_ifs <;> rfl

/-- The port assignment of a mapping. -/
def assignmentOf (hostName : String) (address : Option String) (mapping : Container.PortMapping) :
    Option ℕ → PortAssignment
  | some hostPort =>
    ⟨mapping.name, some hostName, hostPort, some (hostPort : ℤ),
      some (containerPortOf mapping hostPort)⟩
  | none =>
    ⟨mapping.name, address,
      if address = none then PortAssignment.noPort else mapping.containerPort, none,
      some mapping.containerPort⟩

theorem required_assignmentOf (h : 0 ≤ mapping.containerPort) (hostPort : Option ℕ) :
    (assignmentOf hostName address mapping hostPort).required = true := by
  cases hostPort with
  | some hostPort =>
    have hne : (hostPort : ℤ) ≠ PortAssignment.noPort := by
      rw [PortAssignment.noPort]
      omega
    simp [PortAssignment.required, assignmentOf, hne]
  | none =>
    have hne : mapping.containerPort ≠ PortAssignment.noPort := by
      rw [PortAssignment.noPort]
      omega
    cases address with
    | none => rfl
    | some ip => simp [PortAssignment.required, assignmentOf, hne]

theorem checked_assignmentOf (h : 0 ≤ mapping.containerPort) (hostPort : Option ℕ) :
    NetworkInfo.checked (assignmentOf hostName address mapping hostPort) =
      .ok (assignmentOf hostName address mapping hostPort) := if_pos (required_assignmentOf h hostPort)

theorem fromPortMappings_eq (hostName : String) (address : Option String)
    (haligned : Aligned mappings hostPorts) (h : ∀ mapping ∈ mappings, 0 ≤ mapping.containerPort) :
    NetworkInfo.fromPortMappings hostName address mappings (hostPorts.reduceOption.map Nat.cast) =
      .ok (mappings.zipWith (assignmentOf hostName address) hostPorts) := by
  induction haligned with
  | nil => rfl
  | @cons mapping hostPort mappings hostPorts hfirst _ ih =>
    obtain ⟨hport, hports⟩ := List.forall_mem_cons.mp h
    have hchecked : NetworkInfo.checked (assignmentOf hostName address mapping hostPort) = _ :=
      checked_assignmentOf hport hostPort
    rw [NetworkInfo.fromPortMappings.eq_def]
    dsimp only
    cases hostPort with
    | some hostPort =>
      have hrequested : mapping.hostPort ≠ none := Option.isSome_iff_ne_none.mp hfirst
      rw [if_neg hrequested, List.reduceOption_cons_of_some, List.map_cons]
      dsimp only
      rw [ih hports]
      unfold assignmentOf containerPortOf at hchecked
      rw [hchecked]
      rfl
    | none =>
      have hrequested := Option.isNone_iff_eq_none.mp (Option.isSome_eq_false_iff.mp hfirst)
      rw [if_pos hrequested, List.reduceOption_cons_of_none, ih hports]
      unfold assignmentOf at hchecked
      rw [hchecked]
      rfl

/-! ## Agreement -/

/-- What the three views say of a mapping: with a host port, all say that one and the same
container port; without one, the environment says what the port assignment does, as soon as there
is an address. -/
def AgreesAt (bound : List Container.PortMapping) (env : Dict String String)
    (assignments : List PortAssignment) (address : Option String) (hostPorts : List (Option ℕ))
    (i : ℕ) (mapping : Container.PortMapping) : Option ℕ → Prop
  | some hostPort =>
    (∃ b, bound[(hostPorts.take i).reduceOption.length]? = some b ∧
      b.hostPort = some (hostPort : ℤ) ∧ b.containerPort = containerPortOf mapping hostPort) ∧
    (∃ a, assignments[i]? = some a ∧ a.hostPort = some (hostPort : ℤ) ∧
      a.containerPort = some (containerPortOf mapping hostPort)) ∧
    env.lookup ("PORT" ++ i.repr) = some hostPort.repr
  | none =>
    ∃ a, assignments[i]? = some a ∧ a.hostPort = none ∧
      (address ≠ none → ∃ port, a.containerPort = some port ∧ a.effectivePort = port ∧
        env.lookup ("PORT" ++ i.repr) = some port.repr)

/-- All views are there, they agree on every mapping, the container has no other mappings, and
`$PORT` is `$PORT0`. -/
def ViewsAgree (generator : ContainerPortGenerator) (app : AppDefinition) (container : Container)
    (hostPorts : List (Option ℕ)) : Prop :=
  ∀ taskId, ∃ info bound env,
    TaskBuilder.computeContainerInfo app hostPorts taskId = some info ∧
    info.container = some bound ∧
    portsEnv generator (TaskBuilder.declaredPorts app) hostPorts = some env ∧
    bound.portMappings.length = hostPorts.reduceOption.length ∧
    env.lookup "PORT" = env.lookup "PORT0" ∧
    ∀ hostName ipAddresses, (∀ a ∈ ipAddresses, a.ipAddress.isSome = true) →
      let networkInfo : NetworkInfo :=
        ⟨hostName, hostPorts.reduceOption.map Nat.cast, ipAddresses⟩
      ∃ address assignments, networkInfo.effectiveIpAddress app = .ok address ∧
        networkInfo.portAssignments app true = .ok assignments ∧
        ∀ (i : ℕ) mapping hostPort, container.portMappings[i]? = some mapping →
          hostPorts[i]? = some hostPort →
          AgreesAt bound.portMappings env assignments address hostPorts i mapping hostPort

/-- Every mapping has a host port or a container port, and the first one has a host port, or the
first host port is its container port. -/
def Decided (container : Container) (hostPorts : List (Option ℕ)) : Prop :=
  (∀ mapping ∈ container.portMappings, mapping.hostPort = none → mapping.containerPort ≠ 0) ∧
    ∀ first, container.portMappings.head? = some first →
      first.hostPort ≠ none ∨
        hostPorts.reduceOption.head?.map Nat.cast = some first.containerPort

section Views

variable {generator : ContainerPortGenerator} {app : AppDefinition} {container : Container}
  (hcontainer : app.container = some container) (hne : container.portMappings ≠ [])
  (hnetworks : Network.hasNonHostNetworking app.networks = true)
  (hports : ∀ mapping ∈ container.portMappings, 0 ≤ mapping.containerPort)
  (haligned : Aligned container.portMappings hostPorts)

theorem portMappings_containerWithPortMappings (container : Container)
    (hostPorts : List (Option ℕ)) (taskId : String) :
    (TaskBuilder.containerWithPortMappings container hostPorts taskId).portMappings =
      TaskBuilder.boundPortMappings container hostPorts := by
  cases container <;> rfl

theorem declaredPorts_eq (hcontainer : app.container = some container)
    (hne : container.portMappings ≠ []) :
    TaskBuilder.declaredPorts app =
      container.portMappings.map fun pm => ⟨pm.name, pm.containerPort⟩ := by
  rw [TaskBuilder.declaredPorts, hcontainer, Option.filter_some, if_pos (by simpa using hne)]

theorem exists_effectiveIpAddress {info : NetworkInfo}
    (h : ∀ a ∈ info.ipAddresses, a.ipAddress.isSome = true) :
    ∃ address, info.effectiveIpAddress app = .ok address := by
  rw [NetworkInfo.effectiveIpAddress]
  split_ifs
  · cases hips : info.ipAddresses with
    | nil => exact ⟨none, rfl⟩
    | cons a ips =>
      obtain ⟨ip, hip⟩ := Option.isSome_iff_exists.mp (h a (by rw [hips]; exact List.mem_cons_self))
      refine ⟨some ip, ?_⟩
      rw [NetworkInfo.pickFirstIpAddressFrom, hip]
  · exact ⟨_, rfl⟩

include hcontainer hnetworks hports haligned in
theorem portAssignments_eq {info : NetworkInfo}
    (hinfo : info.hostPorts = hostPorts.reduceOption.map Nat.cast)
    (haddress : info.effectiveIpAddress app = .ok address) :
    info.portAssignments app true =
      .ok (container.portMappings.zipWith (assignmentOf info.hostName address) hostPorts) := by
  rw [NetworkInfo.portAssignments, haddress]
  change NetworkInfo.computePortAssignments app info.hostName info.hostPorts address true = _
  rw [NetworkInfo.computePortAssignments, hcontainer]
  dsimp only
  rw [if_pos hnetworks, hinfo, fromPortMappings_eq _ _ haligned hports]
  rfl

include hcontainer hne haligned in
theorem containerPort_ne_zero {bound : List Container.PortMapping}
    (henv : portsEnv generator (TaskBuilder.declaredPorts app) hostPorts = some env)
    (haddress : address ≠ none)
    (h : ∀ (i : ℕ) mapping hostPort, container.portMappings[i]? = some mapping →
      hostPorts[i]? = some hostPort →
      AgreesAt bound env (container.portMappings.zipWith (assignmentOf hostName address) hostPorts)
        address hostPorts i mapping hostPort)
    (hmapping : mapping ∈ container.portMappings)
    (hnone : mapping.hostPort = none) : mapping.containerPort ≠ 0 := by
  intro hzero
  have hlength : container.portMappings.length = hostPorts.length := haligned.length_eq
  obtain ⟨i, hi, hget⟩ := List.mem_iff_getElem.mp hmapping
  have hi' : i < hostPorts.length := hlength ▸ hi
  have hmappingAt : container.portMappings[i]? = some mapping :=
    (List.getElem?_eq_getElem hi).trans (congrArg some hget)
  have hhost : hostPorts[i]? = some none := by
    have hsame := List.Forall₂.get haligned hi hi'
    rw [List.get_eq_getElem, List.get_eq_getElem, hget, hnone] at hsame
    rw [List.getElem?_eq_getElem hi']
    exact congrArg some (Option.isNone_iff_eq_none.mp (Option.isSome_eq_false_iff.mp hsame.symm))
  have hrequest : (TaskBuilder.declaredPorts app)[i]? = some ⟨mapping.name, 0⟩ := by
    rw [declaredPorts_eq hcontainer hne, List.getElem?_map, hmappingAt, Option.map_some, hzero]
  have hportsNe : hostPorts ≠ [] := fun hnil => by
    rw [hnil] at hi'
    exact Nat.not_lt_zero _ hi'
  have hrequests : hostPorts.length = (TaskBuilder.declaredPorts app).length := by
    rw [declaredPorts_eq hcontainer hne, List.length_map, hlength]
  obtain ⟨hvalues, -⟩ := portsEnv_spec hportsNe hrequests henv
  obtain ⟨value, hlookup, hshows⟩ := hvalues i none _ hhost hrequest
  rw [Shows, if_pos rfl] at hshows
  obtain ⟨port, hle, rfl⟩ := hshows
  obtain ⟨a, ha, -, hagrees⟩ := h i mapping none hmappingAt hhost
  obtain ⟨port', hcontainerPort, -, hlookup'⟩ := hagrees haddress
  rw [List.getElem?_zipWith, hmappingAt, hhost] at ha
  cases ha
  cases hcontainerPort
  rw [hlookup', hzero] at hlookup
  have heq := int_repr_injective le_rfl (by omega) (Option.some.inj hlookup)
  omega

include hcontainer hne haligned in
theorem fixed_of_decided (hdecided : ∀ mapping ∈ container.portMappings, mapping.hostPort = none →
    mapping.containerPort ≠ 0) :
    ∀ p ∈ (TaskBuilder.declaredPorts app).zip hostPorts, p.2 = none → p.1.port ≠ 0 := by
  intro p hp hnone
  rw [declaredPorts_eq hcontainer hne, List.zip_map_left] at hp
  obtain ⟨⟨mapping, hostPort⟩, hmem, rfl⟩ := List.mem_map.mp hp
  obtain rfl : hostPort = none := hnone
  have hsame : mapping.hostPort.isSome = false := List.forall₂_zip haligned hmem
  exact hdecided mapping (List.of_mem_zip hmem).1
    (Option.isNone_iff_eq_none.mp (Option.isSome_eq_false_iff.mp hsame))

include hcontainer hne hports haligned in
theorem port_eq_port0_iff
    (hdecided : ∀ mapping ∈ container.portMappings, mapping.hostPort = none →
      mapping.containerPort ≠ 0)
    (henv : portsEnv generator (TaskBuilder.declaredPorts app) hostPorts = some env) :
    env.lookup "PORT" = env.lookup "PORT0" ↔
      ∀ first, container.portMappings.head? = some first →
        first.hostPort ≠ none ∨
          hostPorts.reduceOption.head?.map Nat.cast = some first.containerPort := by
  have hrequests : hostPorts.length = (TaskBuilder.declaredPorts app).length := by
    rw [declaredPorts_eq hcontainer hne, List.length_map]
    exact haligned.length_eq.symm
  have hfixed := fixed_of_decided hcontainer hne haligned hdecided
  obtain ⟨⟨indexed, hindexed⟩, -⟩ := exists_portsEnv generator hfixed
  have hhead : (TaskBuilder.declaredPorts app)[0]? =
      container.portMappings.head?.map fun pm => ⟨pm.name, pm.containerPort⟩ := by
    rw [declaredPorts_eq hcontainer hne, List.getElem?_map, List.head?_eq_getElem?]
  cases hmappings : container.portMappings with
  | nil => exact absurd hmappings hne
  | cons first rest =>
    rw [hmappings] at haligned hhead hports hdecided
    cases haligned with
    | @cons _ hostPort _ hostPorts hfirst _ =>
      obtain ⟨hvalues, indexed', generated, hindexed', hport⟩ :=
        portsEnv_spec (List.cons_ne_nil _ _) hrequests henv
      obtain ⟨value, hport0, hshows⟩ := hvalues 0 hostPort _ rfl hhead
      have hgenerated : generator.values generated = [] := by
        rw [hindexed] at hindexed'
        cases Option.some.inj hindexed'
        exact List.perm_nil.mp (generator.perm_values [])
      have hname : "PORT" ++ (0 : ℕ).repr = "PORT0" := by decide
      rw [hname] at hport0
      rw [hport, hport0, allAssigned, hgenerated, List.map_nil, List.append_nil]
      have hall : (∀ f, (first :: rest).head? = some f → f.hostPort ≠ none ∨
          (hostPort :: hostPorts).reduceOption.head?.map Nat.cast = some f.containerPort) ↔
          (first.hostPort ≠ none ∨
            (hostPort :: hostPorts).reduceOption.head?.map Nat.cast = some first.containerPort) :=
        ⟨fun h => h first rfl, fun h f hf => Option.some.inj hf ▸ h⟩
      rw [hall]
      cases hostPort with
      | some hostPort =>
        obtain rfl : value = hostPort.repr := hshows
        exact iff_of_true rfl (.inl (Option.isSome_iff_ne_none.mp hfirst))
      | none =>
        have hnone := Option.isNone_iff_eq_none.mp (Option.isSome_eq_false_iff.mp hfirst)
        rw [Shows, if_neg (hdecided first List.mem_cons_self hnone)] at hshows
        rw [hshows, List.reduceOption_cons_of_none, or_iff_right (not_not_intro hnone), List.head?_map]
        cases hostPorts.reduceOption.head? with
        | none => exact iff_of_false (fun h => by cases h) (fun h => by cases h)
        | some port =>
          dsimp only [Option.map_some]
          rw [Option.some.injEq, Option.some.injEq]
          refine ⟨fun h => ?_, fun h => congrArg Int.repr h⟩
          exact int_repr_injective (Int.natCast_nonneg port) (hports first List.mem_cons_self) h

include hcontainer hne hnetworks hports haligned in
theorem viewsAgree_iff_of_aligned :
    ViewsAgree generator app container hostPorts ↔ Decided container hostPorts := by
  have hlength : container.portMappings.length = hostPorts.length := haligned.length_eq
  constructor
  · intro h
    obtain ⟨info, bound, env, -, -, henv, -, hport, hagrees⟩ := h ""
    have hdecided : ∀ mapping ∈ container.portMappings, mapping.hostPort = none →
        mapping.containerPort ≠ 0 := by
      intro mapping hmapping hnone
      obtain ⟨address, assignments, haddress, hassignments, hall⟩ := hagrees "agent"
        [⟨none, some "10.0.0.1"⟩] (by simp)
      have hknown : address ≠ none := by
        rintro rfl
        rw [NetworkInfo.effectiveIpAddress] at haddress
        split_ifs at haddress
        · cases haddress
        · cases haddress
      rw [portAssignments_eq hcontainer hnetworks hports haligned rfl haddress] at hassignments
      cases hassignments
      exact containerPort_ne_zero hcontainer hne haligned henv hknown hall hmapping hnone
    exact ⟨hdecided, (port_eq_port0_iff hcontainer hne hports haligned hdecided henv).mp hport⟩
  · rintro ⟨hdecided, hfirst⟩ taskId
    have hfixed := fixed_of_decided hcontainer hne haligned hdecided
    obtain ⟨-, env, henv⟩ := exists_portsEnv generator hfixed
    have hinfo : TaskBuilder.computeContainerInfo app hostPorts taskId =
        some ⟨some (TaskBuilder.containerWithPortMappings container hostPorts taskId),
          app.tty.getD false⟩ := by
      rw [TaskBuilder.computeContainerInfo, hcontainer, if_neg]
      · rfl
      · rintro ⟨h, -⟩
        cases h
    refine ⟨_, _, env, hinfo, rfl, henv, ?_,
      (port_eq_port0_iff hcontainer hne hports haligned hdecided henv).mpr hfirst, ?_⟩
    · rw [portMappings_containerWithPortMappings]
      exact length_filterMap_zip _ hlength.ge
    · intro hostName ipAddresses hips
      obtain ⟨address, haddress⟩ : ∃ address, (⟨hostName, hostPorts.reduceOption.map Nat.cast,
          ipAddresses⟩ : NetworkInfo).effectiveIpAddress app = .ok address :=
        exists_effectiveIpAddress hips
      refine ⟨address, _, haddress,
        portAssignments_eq hcontainer hnetworks hports haligned rfl haddress, ?_⟩
      intro i mapping hostPort hmapping hhost
      have hrequests : hostPorts.length = (TaskBuilder.declaredPorts app).length := by
        rw [declaredPorts_eq hcontainer hne, List.length_map, hlength]
      have hportsNe : hostPorts ≠ [] := fun hnil => by
        rw [hnil] at hhost
        cases hhost
      have hrequest : (TaskBuilder.declaredPorts app)[i]? =
          some ⟨mapping.name, mapping.containerPort⟩ := by
        rw [declaredPorts_eq hcontainer hne, List.getElem?_map, hmapping, Option.map_some]
      have hassignment : (container.portMappings.zipWith (assignmentOf hostName address)
          hostPorts)[i]? = some (assignmentOf hostName address mapping hostPort) := by
        rw [List.getElem?_zipWith, hmapping, hhost]
      obtain ⟨hvalues, -⟩ := portsEnv_spec hportsNe hrequests henv
      obtain ⟨value, hlookup, hshows⟩ := hvalues i hostPort _ hhost hrequest
      cases hostPort with
      | some hostPort =>
        obtain rfl : value = hostPort.repr := hshows
        refine ⟨⟨_, ?_, hostPort_boundPortMapping mapping hostPort,
          containerPort_boundPortMapping mapping hostPort⟩, ⟨_, hassignment, rfl, rfl⟩, hlookup⟩
        rw [portMappings_containerWithPortMappings]
        exact getElem?_filterMap_zip _ hmapping hhost
      | none =>
        have hnone : mapping.containerPort ≠ 0 := hfixed (⟨mapping.name, mapping.containerPort⟩, none)
          (List.mem_of_getElem? (List.getElem?_zip_eq_some.mpr ⟨hrequest, hhost⟩)) rfl
        rw [Shows, if_neg hnone] at hshows
        refine ⟨_, hassignment, rfl, fun hknown => ⟨mapping.containerPort, rfl, if_neg hknown, ?_⟩⟩
        rw [hlookup, hshows]

/-- For every match of an app with mappings, in a network that is not the one of the host. -/
theorem viewsAgree_iff (generator : ContainerPortGenerator) {random : Random}
    {offer : ResourceOffer} {resourceSelector : ResourceMatcher.ResourceSelector} {m : PortsMatch}
    (hcontainer : app.container = some container) (hne : container.portMappings ≠ [])
    (hnetworks : Network.hasNonHostNetworking app.networks = true)
    (hports : ∀ mapping ∈ container.portMappings, 0 ≤ mapping.containerPort)
    (hmatch : portsMatch random (.app app) offer resourceSelector = some m) :
    ViewsAgree generator app container m.hostPorts ↔ Decided container m.hostPorts :=
  viewsAgree_iff_of_aligned hcontainer hne hnetworks hports
    (aligned_of_portsMatch hcontainer hne hmatch)

end Views

/-- Ports are taken in order. -/
def lowestFirst : ContainerPortGenerator where
  next consumedPorts :=
    ((List.range' 1025 64511).map (Nat.cast : ℕ → ℤ)).find? (· ∉ consumedPorts)
  values := id
  of_next consumedPorts port h := by
    obtain ⟨n, hn, rfl⟩ := List.mem_map.mp (List.mem_of_find?_eq_some h)
    rw [List.mem_range'_1] at hn
    have hfresh := List.find?_some h
    exact ⟨by omega, by omega, by simpa using hfresh⟩
  perm_values _ := .rfl

def webContainer (first : Container.PortMapping) : Container :=
  .mesos [] [first, AssignedPorts.mapping (some 0), AssignedPorts.mapping (some 8080)] none

def web (first : Container.PortMapping) : AppDefinition :=
  { plainApp ⟨["web"]⟩ ∅ with
    container := some (webContainer first)
    networks := [.containerNetwork "net" ∅] }

theorem exists_portsMatch_web {first : Container.PortMapping} {hostPorts : List (Option ℕ)}
    (h : (portsMatch AssignedPorts.lastFirst (.app (web first)) AssignedPorts.offer
      (.any ["*"])).map PortsMatch.hostPorts = some hostPorts) :
    ∃ m, portsMatch AssignedPorts.lastFirst (.app (web first)) AssignedPorts.offer (.any ["*"]) =
      some m ∧ m.hostPorts = hostPorts :=
  Option.map_eq_some_iff.mp h

theorem viewsAgree_web : ∃ m,
    portsMatch AssignedPorts.lastFirst (.app (web (AssignedPorts.mapping (some 0))))
      AssignedPorts.offer (.any ["*"]) = some m ∧
    m.hostPorts = [some 31001, some 31000, some 8080] ∧
    ViewsAgree lowestFirst (web (AssignedPorts.mapping (some 0)))
      (webContainer (AssignedPorts.mapping (some 0))) m.hostPorts := by
  obtain ⟨m, hmatch, hm⟩ : ∃ m,
      portsMatch AssignedPorts.lastFirst (.app (web (AssignedPorts.mapping (some 0))))
        AssignedPorts.offer (.any ["*"]) = some m ∧
      m.hostPorts = [some 31001, some 31000, some 8080] := exists_portsMatch_web (by decide)
  refine ⟨m, hmatch, hm, ?_⟩
  have hcontainer : (web (AssignedPorts.mapping (some 0))).container =
    some (webContainer (AssignedPorts.mapping (some 0))) := rfl
  refine (viewsAgree_iff lowestFirst hcontainer (by decide) (by decide) (by decide) hmatch).mpr
    ⟨by decide, fun first hfirst => .inl ?_⟩
  cases hfirst
  exact Option.some_ne_none _

/-- A mapping with neither of the ports: the environment gets the port 1025, not 0. -/
theorem not_forall_viewsAgree : ¬ ∀ (generator : ContainerPortGenerator) (app : AppDefinition)
    (container : Container) (random : Random) (offer : ResourceOffer)
    (resourceSelector : ResourceMatcher.ResourceSelector) (m : PortsMatch),
    app.container = some container → container.portMappings ≠ [] →
    Network.hasNonHostNetworking app.networks = true →
    (∀ mapping ∈ container.portMappings, 0 ≤ mapping.containerPort) →
    portsMatch random (.app app) offer resourceSelector = some m →
    ViewsAgree generator app container m.hostPorts := by
  intro h
  let first : Container.PortMapping := ⟨0, none, 0, "tcp", none, ∅, []⟩
  obtain ⟨m, hmatch, hm⟩ : ∃ m, portsMatch AssignedPorts.lastFirst (.app (web first))
      AssignedPorts.offer (.any ["*"]) = some m ∧ m.hostPorts = [none, some 31001, some 8080] :=
    exists_portsMatch_web (by decide)
  have hagree := h lowestFirst (web first) (webContainer first) _ _ _ m rfl (by decide) (by decide)
    (by decide) hmatch
  have hcontainer : (web first).container = some (webContainer first) := rfl
  obtain ⟨hdecided, -⟩ := (viewsAgree_iff_of_aligned hcontainer (by decide) (by decide)
    (by decide) (aligned_of_portsMatch hcontainer (by decide) hmatch)).mp hagree
  exact hdecided first List.mem_cons_self rfl rfl

end AgreeingPorts

end Marathon
