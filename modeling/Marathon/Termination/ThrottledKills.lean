import Marathon.State.RootGroup
import Marathon.Termination.KillServiceActor

/-!
# Throttled kills

There are never more kills in flight than fit in a chunk, and nothing is both in flight and in
the queue. What is left in the queue waits for a kill in flight, unless something that is not
killed was taken from the queue in the place of it.
-/

namespace Marathon.KillServiceActor

open Lib Deployment

variable {config : KillConfig} {event : Event} {s : State} {id : InstanceId}

/-! ## One kill after the other -/

theorem instancesToKill_processKill (event : Event) (s : State) (toKill : ToKill) :
    (processKill event s toKill).2.instancesToKill = s.instancesToKill.erase toKill.instanceId := by
  rw [processKill]
  cases toKill.action <;> rfl

theorem isSome_lookup_processKill (event : Event) (s : State) (toKill : ToKill) :
    ((processKill event s toKill).2.inFlight.lookup id).isSome = true ↔
      (s.inFlight.lookup id).isSome = true ∨
        toKill.instanceId = id ∧ toKill.action = .issueKillRequest := by
  rw [processKill]
  cases toKill.action with
  | issueKillRequest =>
    rw [Keyed.lookup_insert]
    by_cases hid : id = toKill.instanceId
    · simp [hid]
    · simp [hid, Ne.symm hid]
  | noop => simp
  | decommission => simp

theorem effects_processKill (event : Event) (s s' : State) (toKill : ToKill) :
    (processKill event s toKill).1 = (processKill event s' toKill).1 := by
  rw [processKill, processKill]
  cases toKill.action <;> rfl

theorem length_processKill (event : Event) (s : State) (toKill : ToKill) :
    (processKill event s toKill).2.inFlight.values.length = s.inFlight.values.length +
      if toKill.action = .issueKillRequest ∧ s.inFlight.lookup toKill.instanceId = none then 1
      else 0 := by
  rw [processKill]
  cases toKill.action with
  | issueKillRequest =>
    cases hlookup : s.inFlight.lookup toKill.instanceId with
    | none => exact Keyed.length_insert_of_none hlookup
    | some other => exact Keyed.length_insert_of_some hlookup
  | noop => rfl
  | decommission => rfl

variable {kills : List ToKill}

theorem processAll_cons (event : Event) (s : State) (toKill : ToKill) (rest : List ToKill) :
    processAll event s (toKill :: rest) =
      ((processKill event s toKill).1 ++ (processAll event (processKill event s toKill).2 rest).1,
        (processAll event (processKill event s toKill).2 rest).2) := rfl

theorem lookup_processAll (event : Event) (s : State) (kills : List ToKill) (id : InstanceId) :
    (processAll event s kills).2.instancesToKill.lookup id =
      if id ∈ kills.map (·.instanceId) then none else s.instancesToKill.lookup id := by
  induction kills generalizing s with
  | nil => rfl
  | cons toKill rest ih =>
    rw [processAll_cons, ih, instancesToKill_processKill, Keyed.lookup_erase, List.map_cons]
    by_cases hid : id = toKill.instanceId
    · rw [if_pos hid, ite_self, if_pos (hid ▸ List.mem_cons_self)]
    · rw [if_neg hid]
      simp only [List.mem_cons, hid, false_or]

theorem isSome_lookup_processAll (event : Event) (s : State) (kills : List ToKill) :
    ((processAll event s kills).2.inFlight.lookup id).isSome = true ↔
      (s.inFlight.lookup id).isSome = true ∨
        ∃ toKill ∈ kills, toKill.instanceId = id ∧ toKill.action = .issueKillRequest := by
  induction kills generalizing s with
  | nil => simp [processAll]
  | cons toKill rest ih =>
    rw [processAll_cons, ih, isSome_lookup_processKill, or_assoc]
    simp only [List.mem_cons, exists_eq_or_imp]

theorem length_processAll (event : Event) {s : State}
    (hnodup : (kills.map (·.instanceId)).Nodup)
    (hnew : ∀ toKill ∈ kills, s.inFlight.lookup toKill.instanceId = none) :
    (processAll event s kills).2.inFlight.values.length =
      s.inFlight.values.length + kills.countP (·.action = .issueKillRequest) := by
  induction kills generalizing s with
  | nil => rfl
  | cons toKill rest ih =>
    obtain ⟨hnotMem, hnodup⟩ := List.nodup_cons.mp hnodup
    obtain ⟨hhead, hrest⟩ := List.forall_mem_cons.mp hnew
    have hlater : ∀ other ∈ rest,
        (processKill event s toKill).2.inFlight.lookup other.instanceId = none := by
      intro other hother
      rw [← Option.not_isSome_iff_eq_none, isSome_lookup_processKill]
      rintro (hsome | ⟨heq, -⟩)
      · rw [hrest other hother] at hsome
        cases hsome
      · exact hnotMem (List.mem_map.mpr ⟨other, hother, heq.symm⟩)
    rw [processAll_cons, ih hnodup hlater, length_processKill, List.countP_cons]
    simp only [hhead, and_true, decide_eq_true_eq]
    omega

theorem length_processAll_of_inFlight (event : Event) {s : State}
    (hknown : ∀ toKill ∈ kills, (s.inFlight.lookup toKill.instanceId).isSome = true) :
    (processAll event s kills).2.inFlight.values.length = s.inFlight.values.length := by
  induction kills generalizing s with
  | nil => rfl
  | cons toKill rest ih =>
    obtain ⟨hhead, hrest⟩ := List.forall_mem_cons.mp hknown
    have hlater : ∀ other ∈ rest,
        ((processKill event s toKill).2.inFlight.lookup other.instanceId).isSome = true :=
      fun other hother => (isSome_lookup_processKill event s toKill).mpr (.inl (hrest other hother))
    have hne : s.inFlight.lookup toKill.instanceId ≠ none := by
      intro hnone
      rw [hnone] at hhead
      cases hhead
    rw [processAll_cons, ih hlater, length_processKill, if_neg fun h => hne h.2, Nat.add_zero]

theorem effects_processAll (event : Event) (s : State) {toKill : ToKill} (h : toKill ∈ kills)
    {effect : Effect} (heffect : effect ∈ (processKill event s toKill).1) :
    effect ∈ (processAll event s kills).1 := by
  induction kills generalizing s with
  | nil => cases h
  | cons head rest ih =>
    rw [processAll_cons, List.mem_append]
    rcases List.mem_cons.mp h with rfl | hrest
    · exact .inl heffect
    · rw [effects_processKill event s (processKill event s head).2] at heffect
      exact .inr (ih _ hrest heffect)

/-! ## Taking from the queue -/

theorem mem_toKillNow {toKill : ToKill} (h : toKill ∈ toKillNow config event s) :
    s.instancesToKill.lookup toKill.instanceId = some toKill :=
  Keyed.mem_values.mp ((event.order.perm _).mem_iff.mp (List.mem_of_mem_take h))

theorem nodup_order (event : Event) (kills : Kills) :
    ((event.order.list kills).map (·.instanceId)).Nodup :=
  ((event.order.perm kills).map _).nodup_iff.mpr kills.nodup_map_values

theorem nodup_toKillNow (config : KillConfig) (event : Event) (s : State) :
    ((toKillNow config event s).map (·.instanceId)).Nodup := by
  rw [toKillNow, List.map_take]
  exact (nodup_order event s.instancesToKill).sublist (List.take_sublist _ _)

theorem length_toKillNow (config : KillConfig) (event : Event) (s : State) :
    (toKillNow config event s).length =
      min (killCount config s) s.instancesToKill.values.length := by
  rw [toKillNow, List.length_take, (event.order.perm _).length_eq]

/-- Nothing is both in flight and in the queue. -/
def Apart (s : State) : Prop :=
  ∀ id, (s.instancesToKill.lookup id).isSome = true → s.inFlight.lookup id = none

theorem lookup_processKills (config : KillConfig) (event : Event) (s : State) (id : InstanceId) :
    (processKills config event s).2.instancesToKill.lookup id =
      if id ∈ (toKillNow config event s).map (·.instanceId) then none
      else s.instancesToKill.lookup id :=
  lookup_processAll event s _ id

theorem length_processKills (h : Apart s) :
    (processKills config event s).2.inFlight.values.length = s.inFlight.values.length +
      (toKillNow config event s).countP (·.action = .issueKillRequest) := by
  apply length_processAll event (nodup_toKillNow config event s)
  intro toKill hmem
  exact h _ (by rw [mem_toKillNow hmem]; rfl)

theorem apart_processKills (h : Apart s) : Apart (processKills config event s).2 := by
  intro id hqueued
  rw [lookup_processKills] at hqueued
  split_ifs at hqueued with htaken
  · cases hqueued
  · rw [← Option.not_isSome_iff_eq_none]
    intro hflight
    rcases (isSome_lookup_processAll event s _).mp hflight with hbefore | ⟨toKill, hmem, heq, -⟩
    · rw [h id hqueued] at hbefore
      cases hbefore
    · exact htaken (heq ▸ List.mem_map_of_mem hmem)

theorem values_processKills_eq_nil_iff :
    (processKills config event s).2.instancesToKill.values = [] ↔
      s.instancesToKill.values.length ≤ killCount config s := by
  have hperm := event.order.perm s.instancesToKill
  constructor
  · intro hnil
    by_contra hlt
    rw [not_le] at hlt
    -- the first one that is not taken is still in the queue
    obtain ⟨toKill, hdrop⟩ : ∃ toKill, toKill ∈
        (event.order.list s.instancesToKill).drop (killCount config s) := by
      apply List.exists_mem_of_length_pos
      rw [List.length_drop, hperm.length_eq]
      omega
    have hnodup := nodup_order event s.instancesToKill
    rw [← List.take_append_drop (killCount config s) (event.order.list _), List.map_append,
      List.nodup_append] at hnodup
    have hlater : toKill.instanceId ∉ (toKillNow config event s).map (·.instanceId) := fun hmem =>
      hnodup.2.2 _ hmem _ (List.mem_map_of_mem hdrop) rfl
    have hlookup := lookup_processKills config event s toKill.instanceId
    rw [if_neg hlater, Keyed.mem_values.mp (hperm.mem_iff.mp (List.mem_of_mem_drop hdrop))]
      at hlookup
    have hmem := Keyed.mem_values.mpr hlookup
    rw [hnil] at hmem
    cases hmem
  · intro hle
    rw [List.eq_nil_iff_forall_not_mem]
    intro toKill hmem
    have hlookup := Keyed.mem_values.mp hmem
    rw [lookup_processKills] at hlookup
    split_ifs at hlookup with htaken
    apply htaken
    rw [toKillNow, List.take_of_length_le (hperm.length_eq.trans_le hle)]
    exact List.mem_map_of_mem (hperm.mem_iff.mpr (Keyed.mem_values.mpr hlookup))

/-! ## Messages -/

/-- The state from which kills are taken for a message, if they are. -/
def prepared (s : State) : Message → Option State
  | .killUnknownTaskById taskId =>
    if (s.inFlight.lookup taskId.instanceId).isSome then none else some (s.queueTask taskId)
  | .killInstances instances _ | .killInstancesAndForget instances =>
    some (s.queueInstances instances)
  | .instanceChanged id condition changed =>
    if considerTerminal condition && s.knows id then some (s.remove id)
    else if changed.state.goal.isTerminal && !considerTerminal condition then
      if (s.instancesToKill.lookup id).isSome then none else some (s.queueInstances [changed])
    else none
  | .unknownInstanceTerminated id => if s.knows id then some (s.remove id) else none
  | .retry => none

theorem receive_cases (config : KillConfig) (s : State) (event : Event) :
    (∃ p effects, prepared s event.message = some p ∧ receive config s event =
        (effects ++ (processKills config event p).1, (processKills config event p).2)) ∨
      prepared s event.message = none ∧
        (receive config s event = ([], s) ∨ receive config s event = retry config event s) := by
  rw [receive]
  cases event.message with
  | killUnknownTaskById taskId =>
    dsimp only [prepared, killUnknownTaskById]
    split_ifs
    · exact .inr ⟨rfl, .inl rfl⟩
    · exact .inl ⟨_, [], rfl, rfl⟩
  | killInstances instances promise => exact .inl ⟨_, _, rfl, rfl⟩
  | killInstancesAndForget instances => exact .inl ⟨_, _, rfl, rfl⟩
  | instanceChanged id condition changed =>
    dsimp only [prepared]
    split_ifs
    · exact .inl ⟨_, [], rfl, rfl⟩
    · exact .inr ⟨rfl, .inl rfl⟩
    · exact .inl ⟨_, _, rfl, rfl⟩
    · exact .inr ⟨rfl, .inl rfl⟩
  | unknownInstanceTerminated id =>
    dsimp only [prepared]
    split_ifs
    · exact .inl ⟨_, [], rfl, rfl⟩
    · exact .inr ⟨rfl, .inl rfl⟩
  | retry => exact .inr ⟨rfl, .inr rfl⟩

/-- Whether a message says that an instance is terminal. -/
def Message.ReportsTerminal (id : InstanceId) : Message → Prop
  | .instanceChanged other condition _ => other = id ∧ considerTerminal condition = true
  | .unknownInstanceTerminated other => other = id
  | _ => False

theorem isSome_lookup_enqueue {kills : Kills} {i : Instance} :
    ((kills.lookup id).isSome = true → ((State.enqueue kills i).lookup id).isSome = true) ∧
      (((State.enqueue kills i).lookup id).isSome = true →
        (kills.lookup id).isSome = true ∨ i.instanceId = id) := by
  rw [State.enqueue]
  split_ifs
  · exact ⟨fun h => h, .inl⟩
  · rw [Keyed.lookup_insert]
    split_ifs with hid
    · exact ⟨fun _ => rfl, fun _ => .inr hid.symm⟩
    · exact ⟨fun h => h, .inl⟩

theorem isSome_lookup_foldl_enqueue {instances : List Instance} {kills : Kills} :
    ((kills.lookup id).isSome = true →
        ((instances.foldl State.enqueue kills).lookup id).isSome = true) ∧
      (((instances.foldl State.enqueue kills).lookup id).isSome = true →
        (kills.lookup id).isSome = true ∨ ∃ i ∈ instances, i.instanceId = id) := by
  induction instances generalizing kills with
  | nil => exact ⟨fun h => h, .inl⟩
  | cons i rest ih =>
    rw [List.foldl_cons]
    refine ⟨fun h => ih.1 (isSome_lookup_enqueue.1 h), fun h => ?_⟩
    rcases ih.2 h with hhead | ⟨j, hj, heq⟩
    · rcases isSome_lookup_enqueue.2 hhead with hbefore | heq
      · exact .inl hbefore
      · exact .inr ⟨i, List.mem_cons_self, heq⟩
    · exact .inr ⟨j, List.mem_cons_of_mem i hj, heq⟩

/-- What a message does before kills are taken: only what it says is terminal is removed. -/
structure Prepares (s : State) (message : Message) (p : State) : Prop where
  apart : Apart s → Apart p
  length : p.inFlight.values.length ≤ s.inFlight.values.length
  queued : ∀ id, (s.instancesToKill.lookup id).isSome = true →
    (p.instancesToKill.lookup id).isSome = true ∨ message.ReportsTerminal id

theorem prepares_queueInstances (s : State) (message : Message) (instances : List Instance) :
    Prepares s message (s.queueInstances instances) where
  apart hapart id hqueued := by
    rcases isSome_lookup_foldl_enqueue.2 hqueued with hbefore | ⟨i, hi, rfl⟩
    · exact hapart id hbefore
    · obtain ⟨-, hrelevant⟩ := List.mem_filter.mp hi
      rw [Bool.not_eq_true', Bool.or_eq_false_iff] at hrelevant
      exact Option.not_isSome_iff_eq_none.mp (Bool.eq_false_iff.mp hrelevant.1)
  length := le_refl _
  queued id h := .inl (isSome_lookup_foldl_enqueue.1 h)

theorem prepares_remove {s : State} {message : Message} {id : InstanceId}
    (hterminal : message.ReportsTerminal id) : Prepares s message (s.remove id) where
  apart hapart id' hqueued := by
    simp only [State.remove, Keyed.lookup_erase] at hqueued ⊢
    split_ifs at hqueued with hid
    · cases hqueued
    · rw [if_neg hid]
      exact hapart id' hqueued
  length := s.inFlight.length_erase_le id
  queued id' h := by
    by_cases hid : id' = id
    · exact .inr (hid ▸ hterminal)
    · simp only [State.remove, Keyed.lookup_erase, if_neg hid]
      exact .inl h

theorem prepares_of_prepared {message : Message} {p : State} (h : prepared s message = some p) :
    Prepares s message p := by
  cases message with
  | killUnknownTaskById taskId =>
    rw [prepared] at h
    split_ifs at h with hflight
    cases h
    refine ⟨fun hapart id hqueued => ?_, le_refl _, fun id hqueued => .inl ?_⟩
    · simp only [State.queueTask, Keyed.lookup_insert] at hqueued ⊢
      split_ifs at hqueued with hid
      · rw [hid]
        exact Option.not_isSome_iff_eq_none.mp hflight
      · exact hapart id hqueued
    · simp only [State.queueTask, Keyed.lookup_insert]
      split_ifs
      · rfl
      · exact hqueued
  | killInstances instances promise =>
    cases h
    exact prepares_queueInstances s _ instances
  | killInstancesAndForget instances =>
    cases h
    exact prepares_queueInstances s _ instances
  | instanceChanged id condition changed =>
    dsimp only [prepared] at h
    split_ifs at h with hterminal
    · cases h
      exact prepares_remove ⟨rfl, (Bool.and_eq_true_iff.mp hterminal).1⟩
    · cases h
      exact prepares_queueInstances s _ [changed]
  | unknownInstanceTerminated id =>
    rw [prepared] at h
    split_ifs at h
    cases h
    exact prepares_remove rfl
  | retry => cases h

/-! ## Every step -/

/-- The kills are throttled, and a queue that is not empty waits for a kill in flight. -/
structure Throttled (config : KillConfig) (s : State) : Prop where
  bounded : (s.inFlight.values.length : ℤ) ≤ config.killChunkSize
  apart : Apart s
  full : s.instancesToKill.values ≠ [] → (s.inFlight.values.length : ℤ) = config.killChunkSize

/-- How an instance leaves the queue: its kill is requested and it is in flight, it is
decommissioned, its kill is ignored since it cannot be killed and has a reservation, or the
message says that it is terminal. -/
inductive LeavesQueue (s : State) (event : Event) (effects : List Effect) (after : State)
    (id : InstanceId) : Prop
  | killRequest {p : State} {toKill : ToKill} (hp : prepared s event.message = some p)
      (hqueued : p.instancesToKill.lookup id = some toKill)
      (haction : toKill.action = .issueKillRequest)
      (hflight : (after.inFlight.lookup id).isSome = true)
      (hdriver : event.driver = true → ∀ taskId ∈ toKill.taskIdsToKill, .killTask taskId ∈ effects)
  | decommission (heffect : .setGoal id .decommissioned ∈ effects)
  | ignored {p : State} {toKill : ToKill} {i : Instance} (hp : prepared s event.message = some p)
      (hqueued : p.instancesToKill.lookup id = some toKill) (hknown : toKill.maybeInstance = some i)
      (hunreachable : KillAction.wontRespondToKill i.state.condition = true)
      (hreserved : i.hasReservation = true)
  | terminal (h : event.message.ReportsTerminal id)

/-- After the message the kills are throttled, and what has left the queue has done so for a
reason. -/
structure Kept (config : KillConfig) (s : State) (event : Event) : Prop where
  throttled : Throttled config (receive config s event).2
  leaves : ∀ id, (s.instancesToKill.lookup id).isSome = true →
    (receive config s event).2.instancesToKill.lookup id = none →
      LeavesQueue s event (receive config s event).1 (receive config s event).2 id

/-- There is room for the whole queue, or a kill is requested for everything that is taken. -/
def Productive (config : KillConfig) (s : State) (event : Event) : Prop :=
  0 ≤ config.killChunkSize ∧ ∀ p ∈ prepared s event.message,
    p.instancesToKill.values.length ≤ killCount config p ∨
      ∀ toKill ∈ toKillNow config event p, toKill.action = .issueKillRequest

theorem leavesQueue_of_mem_toKillNow {p : State} (hp : prepared s event.message = some p)
    {effects : List Effect} (heffects : ∀ effect ∈ (processKills config event p).1, effect ∈ effects)
    {toKill : ToKill} (hmem : toKill ∈ toKillNow config event p) :
    LeavesQueue s event effects (processKills config event p).2 toKill.instanceId := by
  have hqueued := mem_toKillNow hmem
  have hdone : ∀ effect ∈ (processKill event p toKill).1, effect ∈ effects := fun effect h =>
    heffects effect (effects_processAll event p hmem h)
  rw [processKill] at hdone
  cases haction : toKill.action with
  | issueKillRequest =>
    rw [haction] at hdone
    refine .killRequest hp hqueued haction ?_ fun hdriver taskId htask => ?_
    · exact (isSome_lookup_processAll event p _).mpr (.inr ⟨toKill, hmem, rfl, haction⟩)
    · apply hdone
      rw [if_pos hdriver]
      exact List.mem_map_of_mem htask
  | decommission =>
    rw [haction] at hdone
    exact .decommission (hdone _ (List.mem_singleton_self _))
  | noop =>
    obtain ⟨i, hknown, hunreachable, hreserved⟩ := KillAction.ofInstance_eq_noop haction
    exact .ignored hp hqueued hknown hunreachable hreserved

theorem retry_spec (config : KillConfig) (event : Event) (h : Apart s) :
    (∀ id, (retry config event s).2.instancesToKill.lookup id = s.instancesToKill.lookup id) ∧
      (∀ id, ((retry config event s).2.inFlight.lookup id).isSome = true ↔
        (s.inFlight.lookup id).isSome = true) ∧
      (retry config event s).2.inFlight.values.length = s.inFlight.values.length := by
  have hknown : ∀ toKill ∈ (event.order.list s.inFlight).filter fun toKill =>
      toKill.issued.plus config.killRetryTimeout < event.now,
      (s.inFlight.lookup toKill.instanceId).isSome = true := by
    intro toKill hmem
    have hvalue := (event.order.perm _).mem_iff.mp (List.mem_filter.mp hmem).1
    rw [Keyed.mem_values.mp hvalue]
    rfl
  refine ⟨fun id => ?_, fun id => ?_, length_processAll_of_inFlight event hknown⟩
  · rw [retry, lookup_processAll]
    split_ifs with hmem
    · obtain ⟨toKill, hkill, rfl⟩ := List.mem_map.mp hmem
      symm
      rw [← Option.not_isSome_iff_eq_none]
      intro hqueued
      have hnone := h _ hqueued
      have hflight := hknown toKill hkill
      rw [hnone] at hflight
      cases hflight
    · rfl
  · rw [retry, isSome_lookup_processAll]
    constructor
    · rintro (hflight | ⟨toKill, hkill, rfl, -⟩)
      · exact hflight
      · exact hknown toKill hkill
    · exact .inl

theorem values_eq_nil_iff {kills : Kills} : kills.values = [] ↔ ∀ id, kills.lookup id = none := by
  rw [List.eq_nil_iff_forall_not_mem]
  constructor
  · intro h id
    cases hlookup : kills.lookup id with
    | none => rfl
    | some toKill =>
      obtain rfl := Keyed.key_of_lookup hlookup
      exact absurd (Keyed.mem_values.mpr hlookup) (h toKill)
  · intro h toKill hmem
    cases (h toKill.instanceId).symm.trans (Keyed.mem_values.mp hmem)

theorem kept_of_eq (h : Throttled config s)
    (hreceive : receive config s event = ([], s) ∨ receive config s event = retry config event s) :
    Kept config s event := by
  rcases hreceive with hreceive | hreceive
  · refine ⟨by rw [hreceive]; exact h, fun id hbefore hafter => ?_⟩
    rw [hreceive] at hafter
    rw [hafter] at hbefore
    cases hbefore
  · obtain ⟨hqueue, hflight, hlength⟩ := retry_spec config event h.apart
    refine ⟨?_, fun id hbefore hafter => ?_⟩
    · rw [hreceive]
      refine ⟨by rw [hlength]; exact h.bounded, fun id hqueued => ?_, fun hne => ?_⟩
      · rw [hqueue] at hqueued
        rw [← Option.not_isSome_iff_eq_none, hflight, h.apart id hqueued]
        exact Bool.false_ne_true
      · rw [hlength]
        apply h.full
        rw [ne_eq, values_eq_nil_iff] at hne ⊢
        simpa only [hqueue] using hne
    · rw [hreceive, hqueue] at hafter
      rw [hafter] at hbefore
      cases hbefore

theorem throttled_processKills_iff {p : State} (hapart : Apart p)
    (hle : (p.inFlight.values.length : ℤ) ≤ config.killChunkSize) :
    Throttled config (processKills config event p).2 ↔
      p.instancesToKill.values.length ≤ killCount config p ∨
        ∀ toKill ∈ toKillNow config event p, toKill.action = .issueKillRequest := by
  have hlength : (processKills config event p).2.inFlight.values.length = _ :=
    length_processKills hapart
  have htaken := length_toKillNow config event p
  have hcount : (toKillNow config event p).countP (·.action = .issueKillRequest) ≤
      (toKillNow config event p).length := List.countP_le_length
  have hkills : (killCount config p : ℤ) = config.killChunkSize - p.inFlight.values.length :=
    Int.toNat_of_nonneg (Int.sub_nonneg.mpr hle)
  constructor
  · intro h
    rw [or_iff_not_imp_left]
    intro hroom
    have hfull := h.full (mt values_processKills_eq_nil_iff.mp hroom)
    have hall : (toKillNow config event p).countP (·.action = .issueKillRequest) =
        (toKillNow config event p).length := by omega
    intro toKill hmem
    exact of_decide_eq_true (List.countP_eq_length.mp hall toKill hmem)
  · intro h
    refine ⟨by omega, apart_processKills hapart, fun hne => ?_⟩
    rw [ne_eq, values_processKills_eq_nil_iff] at hne
    have hall := List.countP_eq_length.mpr fun toKill hmem =>
      decide_eq_true (h.resolve_left hne toKill hmem)
    omega

theorem kept_iff (h : 0 ≤ config.killChunkSize → Throttled config s) :
    Kept config s event ↔ Productive config s event := by
  by_cases hsize : 0 ≤ config.killChunkSize
  · have hthrottled := h hsize
    rcases receive_cases config s event with ⟨p, effects, hp, hreceive⟩ | ⟨hnone, hreceive⟩
    · have hprepares := prepares_of_prepared hp
      have hle : (p.inFlight.values.length : ℤ) ≤ config.killChunkSize :=
        le_trans (Int.ofNat_le.mpr hprepares.length) hthrottled.bounded
      have hiff : Throttled config (processKills config event p).2 ↔ _ :=
        throttled_processKills_iff (hprepares.apart hthrottled.apart) hle
      constructor
      · intro hkept
        have hafter := hkept.throttled
        rw [hreceive] at hafter
        refine ⟨hsize, fun p' hp' => ?_⟩
        cases hp.symm.trans hp'
        exact hiff.mp hafter
      · intro hproductive
        refine ⟨by rw [hreceive]; exact hiff.mpr (hproductive.2 p hp), fun id hbefore hafter => ?_⟩
        rw [hreceive] at hafter ⊢
        rcases hprepares.queued id hbefore with hqueued | hterminal
        · -- it has been taken from the queue just now
          rw [lookup_processKills] at hafter
          split_ifs at hafter with htaken
          · obtain ⟨toKill, hmem, rfl⟩ := List.mem_map.mp htaken
            exact leavesQueue_of_mem_toKillNow hp
              (fun effect => List.mem_append_right effects) hmem
          · rw [hafter] at hqueued
            cases hqueued
        · exact .terminal hterminal
    · refine iff_of_true (kept_of_eq hthrottled hreceive) ⟨hsize, fun p hp => ?_⟩
      rw [hnone] at hp
      cases hp
  · refine iff_of_false (fun hkept => ?_) fun hproductive => hsize hproductive.1
    have hbounded := hkept.throttled.bounded
    omega

theorem throttled_initial (hsize : 0 ≤ config.killChunkSize) : Throttled config .initial :=
  ⟨hsize, fun _ _ => rfl, fun hne => absurd rfl hne⟩

/-- **Every message keeps the kills throttled, with nothing stuck in the queue, as long as every
message is productive, and not longer.** -/
theorem throttled_iff (config : KillConfig) (events : List Event) :
    (receive config).Along (Kept config) .initial events ↔
      (receive config).Along (Productive config) .initial events := by
  refine Component.along_iff (fun s event => kept_iff) (fun s event _ hkept _ => ?_)
    (I := fun s => 0 ≤ config.killChunkSize → Throttled config s) throttled_initial
  exact hkept.throttled

/-! ## A queue that is stuck -/

namespace Web

def instanceId (uuid : ℕ) : InstanceId := ⟨⟨["web"]⟩, .instance, ⟨uuid⟩⟩

def task (uuid : ℕ) (condition : Condition) : Task where
  taskId := .ofContainer (instanceId uuid) none
  runSpecVersion := ⟨0⟩
  status := ⟨⟨0⟩, some ⟨0⟩, none, condition, ⟨"host", [], []⟩⟩

def instanceOf (uuid : ℕ) (condition : Condition) : Instance :=
  { Instance.scheduled (.app (plainApp ⟨["web"]⟩ ∅)) (instanceId uuid) ⟨0⟩ with
    state := ⟨condition, ⟨0⟩, some ⟨0⟩, none, .running⟩
    tasksMap := AList.singleton (task uuid condition).taskId (task uuid condition) }

def oneKill : KillConfig := ⟨1, 30000000000⟩

/-- The message at some time, with a driver. -/
def eventOf (message : Message) : Event := ⟨message, ⟨0⟩, true, ⟨Keyed.values, fun _ => .refl _⟩⟩

/-- A running and an unreachable instance are to be killed; the unreachable one is first in the
hash map. -/
def killBoth : Event :=
  eventOf (.killInstances [instanceOf 1 .running, instanceOf 0 .unreachable] 0)

end Web

/-- The unreachable instance is decommissioned, and the running one is left in the queue with
nothing in flight. -/
theorem not_forall_kept : ¬ ∀ (config : KillConfig) (events : List Event),
    0 ≤ config.killChunkSize → (receive config).Along (Kept config) .initial events := by
  intro h
  have hkept := (h Web.oneKill [Web.killBoth] (by decide)).1
  have hfull := hkept.throttled.full (by decide)
  exact absurd hfull (by decide)

end Marathon.KillServiceActor
