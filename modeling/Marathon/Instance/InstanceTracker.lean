import Marathon.Instance.InstanceUpdate
import Marathon.Lib.Keyed

/-!
# The instance tracker

The instances that the tracker holds, and the tracker as those see it who send it one
operation after another.
-/

namespace Marathon

open Lib

/-- `InstanceTracker.InstancesBySpec`: here the instances of all run specs stand in one
dictionary, since the id of an instance names its run spec. -/
abbrev InstancesBySpec := Keyed Instance.instanceId

/-- What the tracker holds once an effect has been persisted. -/
def InstancesBySpec.update (instances : InstancesBySpec) : InstanceUpdateEffect → InstancesBySpec
  | .update i _ _ => instances.insert i
  | .expunge i _ => instances.erase i.instanceId
  | .noop _ | .failure _ => instances

variable {effect : InstanceUpdateEffect} {op : InstanceUpdateOperation} {t t' : SequentialTracker}

namespace InstanceUpdateEffect

/-- Whether the effect is one to persist. -/
def changes : InstanceUpdateEffect → Bool
  | update .. | expunge .. => true
  | noop _ | failure _ => false

/-- Whether it is the instance with the id that the effect changes, if it changes one. -/
def Concerns (id : InstanceId) : InstanceUpdateEffect → Prop
  | update i _ _ | expunge i _ => i.instanceId = id
  | noop _ | failure _ => True

open InstanceUpdater in
theorem concerns_instanceUpdateEffectForTask (i : Instance) (updatedTask : Task) (now : Timestamp) :
    (instanceUpdateEffectForTask i updatedTask now).Concerns i.instanceId := by
  unfold instanceUpdateEffectForTask
  dsimp only
  split_ifs
  · trivial
  all_goals rfl

theorem concerns_mesosUpdate {i : Instance} {condition : Condition}
    {mesosStatus : Mesos.TaskStatus} {now : Timestamp}
    (h : InstanceUpdater.mesosUpdate i condition mesosStatus now = .ok effect) :
    effect.Concerns i.instanceId := by
  obtain ⟨cause, rfl⟩ | rfl | ⟨updatedTask, _, rfl⟩ := InstanceUpdater.mesosUpdate_eq_ok h
  · trivial
  · trivial
  · exact concerns_instanceUpdateEffectForTask i updatedTask now

theorem concerns_resolve {clock : Timestamp} {maybeInstance : Option Instance}
    (hkeyed : ∀ i ∈ maybeInstance, i.instanceId = op.instanceId)
    (h : InstanceUpdateOpResolver.resolve clock maybeInstance op = .ok effect) :
    effect.Concerns op.instanceId := by
  open InstanceUpdateOpResolver in
  have hexisting : ∀ {id : InstanceId} {f : Instance → Except Thrown InstanceUpdateEffect},
      (∀ i effect, f i = .ok effect → effect.Concerns i.instanceId) →
      updateExistingInstance maybeInstance id f = .ok effect → effect.Concerns op.instanceId := by
    intro id f hf hok
    rcases updateExistingInstance_eq_ok hok with ⟨_, rfl⟩ | ⟨i, hi, hok⟩
    · trivial
    · rw [← hkeyed i hi]
      exact hf i effect hok
  cases op with
  | schedule i =>
    cases h
    cases maybeInstance with
    | none => rfl
    | some existing => trivial
  | revert i =>
    cases h
    rfl
  | forceExpunge id =>
    cases maybeInstance with
    | none =>
      cases h
      trivial
    | some existing =>
      cases h
      exact hkeyed existing rfl
  | mesosUpdate => exact hexisting (fun i effect => concerns_mesosUpdate) h
  | provision id agentInfo runSpec tasks now =>
    apply hexisting _ h
    intro i effect hok
    unfold Instance.provisioned at hok
    split_ifs at hok
    · cases hok
      rfl
    · cases hok
  | unreserve id =>
    apply hexisting _ h
    intro i effect hok
    unfold InstanceUpdater.unreserve at hok
    split_ifs at hok
    cases hok
    rfl
  | changeGoal id goal =>
    apply hexisting _ h
    rintro i _ ⟨⟩
    unfold InstanceUpdater.changeGoal
    dsimp only
    split_ifs <;> rfl
  | reservationTimeout id =>
    apply hexisting _ h
    rintro i _ ⟨⟩
    unfold InstanceUpdater.reservationTimeout
    split_ifs
    · rfl
    · trivial
  | rescheduleReserved | reserve =>
    apply hexisting _ h
    rintro i _ ⟨⟩
    rfl

end InstanceUpdateEffect

namespace InstancesBySpec

theorem update_of_not_changes (instances : InstancesBySpec)
    (h : ¬effect.changes = true) : instances.update effect = instances := by
  cases effect with
  | update | expunge => exact absurd rfl h
  | noop | failure => rfl

theorem lookup_update (instances : InstancesBySpec)
    {id : InstanceId} (h : effect.Concerns id) (id' : InstanceId) :
    (instances.update effect).lookup id' =
      if id' = id then effect.applyTo (instances.lookup id) else instances.lookup id' := by
  cases effect with
  | update i oldState events =>
    obtain rfl : i.instanceId = id := h
    exact Keyed.lookup_insert instances i id'
  | expunge i events =>
    obtain rfl : i.instanceId = id := h
    exact Keyed.lookup_erase instances i.instanceId id'
  | noop | failure =>
    show instances.lookup id' = _
    split_ifs with hid
    · rw [hid]
      rfl
    · rfl

end InstancesBySpec

/-- The part of `InstanceTracker` through which instances are changed. Each call answers, or
fails with a text, and leaves some state behind. -/
structure InstanceTracker (σ : Type) where
  process : InstanceUpdateOperation → σ → Except String InstanceUpdateEffect × σ
  revert : Instance → σ → Except String Unit × σ
  forceExpunge : InstanceId → σ → Except String Unit × σ

/-- `InstanceTrackerDelegate`: the other calls are operations to process. -/
def InstanceTracker.ofProcess {σ : Type}
    (process : InstanceUpdateOperation → σ → Except String InstanceUpdateEffect × σ) :
    InstanceTracker σ where
  process := process
  revert i s := Prod.map (Except.map fun _ => ()) id (process (.revert i) s)
  forceExpunge id s := Prod.map (Except.map fun _ => ()) (fun t => t) (process (.forceExpunge id) s)

/-! ## The tracker with nothing under way -/

/-- The tracker between two operations: the instances, the time, and for the next writes of
the repository whether each of them fails. -/
structure SequentialTracker where
  instances : InstancesBySpec
  clock : Timestamp
  failingWrites : List Bool

namespace SequentialTracker

def nextWriteFails (t : SequentialTracker) : Bool := t.failingWrites.headD false

def afterWrite (t : SequentialTracker) : SequentialTracker :=
  { t with failingWrites := t.failingWrites.tail }

/-- An effect that changes the instances is persisted first. -/
def persist (t : SequentialTracker) (effect : InstanceUpdateEffect) :
    Except String InstanceUpdateEffect × SequentialTracker :=
  if t.nextWriteFails then (.error "the repository is not available", t.afterWrite)
  else (.ok effect, { t.afterWrite with instances := t.instances.update effect })

/-- `InstanceTrackerActor` on one operation that it has the time for. -/
def process (op : InstanceUpdateOperation) (t : SequentialTracker) :
    Except String InstanceUpdateEffect × SequentialTracker :=
  match InstanceUpdateOpResolver.resolve t.clock (t.instances.lookup op.instanceId) op with
  | .error thrown => (.error thrown.name, t)
  | .ok (.failure cause) => (.error cause.message, t)
  | .ok (.noop id) => (.ok (.noop id), t)
  | .ok effect => t.persist effect

theorem process_eq_ok (h : t.process op = (.ok effect, t')) :
    InstanceUpdateOpResolver.resolve t.clock (t.instances.lookup op.instanceId) op = .ok effect ∧
      (∀ cause, effect ≠ .failure cause) ∧ t'.instances = t.instances.update effect := by
  unfold process at h
  split at h
  · cases (Prod.mk.inj h).1
  · cases (Prod.mk.inj h).1
  · rename_i hresolve
    obtain ⟨heffect, rfl⟩ := Prod.mk.inj h
    cases heffect
    exact ⟨hresolve, fun cause => InstanceUpdateEffect.noConfusion, rfl⟩
  · rename_i effect' hfailure _ hresolve
    unfold persist at h
    split_ifs at h
    · cases (Prod.mk.inj h).1
    · obtain ⟨heffect, rfl⟩ := Prod.mk.inj h
      cases heffect
      exact ⟨hresolve, hfailure, rfl⟩

/-- After a call that succeeds, the instance of the operation is as its effect has it, and the
others are as before. -/
theorem lookup_process (h : t.process op = (.ok effect, t')) (id : InstanceId) :
    t'.instances.lookup id =
      if id = op.instanceId then effect.applyTo (t.instances.lookup op.instanceId)
      else t.instances.lookup id := by
  obtain ⟨hresolve, _, hinstances⟩ := process_eq_ok h
  rw [hinstances]
  apply InstancesBySpec.lookup_update
  exact InstanceUpdateEffect.concerns_resolve (fun i hi => Keyed.key_of_lookup hi) hresolve

end SequentialTracker

def sequentialTracker : InstanceTracker SequentialTracker := .ofProcess SequentialTracker.process

namespace InstanceTracker

theorem process_eq_ok_of_map {σ : Type} {p : Except String InstanceUpdateEffect × σ} {s : σ}
    (h : Prod.map (Except.map fun _ => ()) (fun t => t) p = (.ok (), s)) :
    ∃ effect, p = (.ok effect, s) := by
  obtain ⟨result, s'⟩ := p
  cases result with
  | error e => cases (Prod.mk.inj h).1
  | ok effect =>
    obtain rfl : s' = s := (Prod.mk.inj h).2
    exact ⟨effect, rfl⟩

theorem lookup_revert {i : Instance}
    (h : sequentialTracker.revert i t = (.ok (), t')) (id : InstanceId) :
    t'.instances.lookup id = if id = i.instanceId then some i else t.instances.lookup id := by
  have hcall : Prod.map (Except.map fun _ => ()) (fun t => t) (t.process (.revert i)) =
      (.ok (), t') := h
  obtain ⟨effect, hprocess⟩ := process_eq_ok_of_map hcall
  obtain ⟨hresolve, _⟩ := SequentialTracker.process_eq_ok hprocess
  cases hresolve
  exact SequentialTracker.lookup_process hprocess id

theorem lookup_forceExpunge {instanceId : InstanceId}
    (h : sequentialTracker.forceExpunge instanceId t = (.ok (), t')) (id : InstanceId) :
    t'.instances.lookup id = if id = instanceId then none else t.instances.lookup id := by
  have hcall : Prod.map (Except.map fun _ => ()) (fun t => t)
      (t.process (.forceExpunge instanceId)) = (.ok (), t') := h
  obtain ⟨effect, hprocess⟩ := process_eq_ok_of_map hcall
  obtain ⟨hresolve, _⟩ := SequentialTracker.process_eq_ok hprocess
  have hlookup := SequentialTracker.lookup_process hprocess id
  simp only [InstanceUpdateOperation.instanceId] at hresolve hlookup
  cases hcurrent : t.instances.lookup instanceId <;>
  · rw [hcurrent] at hresolve hlookup
    cases hresolve
    exact hlookup

end InstanceTracker

end Marathon
