import Marathon.Launcher.PersistedLaunches

/-!
# Launches that are reverted

What the tracker holds after the operations of an offer have been persisted, the launcher could
not be reached and everything has been reverted.
-/

namespace Marathon

open Lib

/-! ## The operations that the factory makes -/

namespace InstanceOp

/-- An operation that the factory makes for some scheduled instances and some offer. -/
def Produced (op : InstanceOp) : Prop :=
  ∃ m scheduledInstances, InstanceOpFactory.matchOfferRequest m scheduledInstances = .ok (some op)

/-- What the operations of the factory have in common: they change an instance that exists, and
the old instance of an operation is the one it changes. -/
structure OnExisting (op : InstanceOp) : Prop where
  stateOp : (∃ id agentInfo runSpec tasks now,
      op.stateOp = .provision id agentInfo runSpec tasks now) ∨
    ∃ id reservation agentInfo, op.stateOp = .reserve id reservation agentInfo
  oldInstance : ∀ i ∈ op.oldInstance, i.instanceId = op.instanceId

end InstanceOp

variable {i : Instance} {op : InstanceOp} {t t' : SequentialTracker} {ops : List InstanceOp}

theorem InstanceOp.IsFor.onExisting (h : op.IsFor i) : op.OnExisting where
  stateOp := by
    obtain ⟨agentInfo, runSpec, tasks, now, hstate⟩ | ⟨reservation, agentInfo, hstate⟩ := h.stateOp
    · exact .inl ⟨_, _, _, _, _, hstate⟩
    · exact .inr ⟨_, _, _, hstate⟩
  oldInstance := by
    intro j hj
    rw [h.instanceId]
    obtain hold | hold := h.oldInstance
    · rw [hold] at hj
      cases hj
    · rw [hold] at hj
      cases hj
      rfl

namespace OfferProcessor

variable {Source : Type}

/-! ## What is persisted -/

theorem process_of_saving_eq_persisted {σ : Type} {tracker : InstanceTracker σ}
    {s s' : σ} (h : saving tracker op s = (.persisted, s')) :
    ∃ effect, tracker.process op.stateOp s = (.ok effect, s') := by
  unfold saving at h
  split at h
  · rename_i effect _ hprocess
    cases h
    exact ⟨effect, hprocess⟩
  · split at h
    · cases (Prod.mk.inj h).1
    · cases (Prod.mk.inj h).1

theorem exists_of_process (hop : op.OnExisting)
    {effect : InstanceUpdateEffect} (h : t.process op.stateOp = (.ok effect, t')) :
    ∃ i, t.instances.lookup op.instanceId = some i := by
  obtain ⟨hresolve, hfailure, _⟩ := SequentialTracker.process_eq_ok h
  rcases hop.stateOp with ⟨id, agentInfo, runSpec, tasks, now, hstate⟩ |
    ⟨id, reservation, agentInfo, hstate⟩
  all_goals
    rw [InstanceOp.instanceId]
    rw [hstate] at hresolve ⊢
    rcases InstanceUpdateOpResolver.updateExistingInstance_eq_ok hresolve with
      ⟨_, rfl⟩ | ⟨i, hi, _⟩
    · exact absurd rfl (hfailure _)
    · exact ⟨i, hi⟩

theorem exists_of_savings (hops : ∀ op ∈ ops, op.OnExisting)
    (h : ∀ r ∈ (savings sequentialTracker ops t).1, r = .persisted) :
    ∀ op ∈ ops, ∃ i, t.instances.lookup op.instanceId = some i := by
  induction ops generalizing t with
  | nil => exact fun op hop => absurd hop List.not_mem_nil
  | cons op ops ih =>
    cases hsaving : saving sequentialTracker op t with
    | mk r t' =>
      have hr : r = .persisted := by
        by_cases hstuck : r = .stuck
        · subst hstuck
          rw [savings_cons_of_stuck hsaving] at h
          exact h _ (List.mem_singleton.mpr rfl)
        · rw [savings_cons_of_ne_stuck hsaving hstuck] at h
          exact h _ List.mem_cons_self
      subst hr
      rw [savings_cons_of_ne_stuck hsaving Saving.noConfusion] at h
      obtain ⟨effect, hprocess⟩ := process_of_saving_eq_persisted hsaving
      have hhead := exists_of_process (hops op List.mem_cons_self) hprocess
      intro op' hop'
      rcases List.mem_cons.mp hop' with rfl | hop'
      · exact hhead
      · by_cases hid : op'.instanceId = op.instanceId
        · rw [hid]
          exact hhead
        · obtain ⟨i, hi⟩ := ih (fun op hop => hops op (List.mem_cons_of_mem _ hop))
            (fun r hr => h r (List.mem_cons_of_mem _ hr)) op' hop'
          have hframe := SequentialTracker.lookup_process hprocess op'.instanceId
          rw [← InstanceOp.instanceId, if_neg hid] at hframe
          exact ⟨i, hframe.symm.trans hi⟩

/-! ## What reverting leaves -/

theorem lookup_undo (hold : ∀ i ∈ op.oldInstance, i.instanceId = op.instanceId)
    (h : undo sequentialTracker op t = (.ok (), t')) (id : InstanceId) :
    t'.instances.lookup id =
      if id = op.instanceId then op.oldInstance else t.instances.lookup id := by
  cases hinstance : op.oldInstance with
  | some i =>
    have hrevert : sequentialTracker.revert i t = (.ok (), t') := by
      rwa [undo, hinstance] at h
    rw [InstanceTracker.lookup_revert hrevert id, hold i hinstance]
  | none =>
    have hexpunge : sequentialTracker.forceExpunge op.instanceId t = (.ok (), t') := by
      rwa [undo, hinstance] at h
    exact InstanceTracker.lookup_forceExpunge hexpunge id

/-- What the reverts of the operations leave of an instance: the last one of its own counts. -/
def restored (ops : List InstanceOp) (id : InstanceId) (current : Option Instance) :
    Option Instance :=
  ops.foldl (fun current op => if id = op.instanceId then op.oldInstance else current) current

theorem restored_of_isLast {before after : List InstanceOp}
    (hlast : ∀ later ∈ after, later.instanceId ≠ op.instanceId) (current : Option Instance) :
    restored (before ++ op :: after) op.instanceId current = op.oldInstance := by
  have hafter : ∀ current, restored after op.instanceId current = current := by
    intro current
    clear before
    induction after generalizing current with
    | nil => rfl
    | cons later after ih =>
      have hne : op.instanceId ≠ later.instanceId := (hlast later List.mem_cons_self).symm
      rw [restored, List.foldl_cons, if_neg hne]
      exact ih (fun op' hop' => hlast op' (List.mem_cons_of_mem _ hop')) current
  rw [restored, List.foldl_append, List.foldl_cons, if_pos rfl]
  exact hafter op.oldInstance

theorem exists_isLast {id : InstanceId} (h : ∃ op ∈ ops, op.instanceId = id) :
    ∃ before last after, ops = before ++ last :: after ∧ last.instanceId = id ∧
      ∀ later ∈ after, later.instanceId ≠ id := by
  induction ops with
  | nil =>
    obtain ⟨op, hop, _⟩ := h
    cases hop
  | cons head ops ih =>
    by_cases hlater : ∃ later ∈ ops, later.instanceId = id
    · obtain ⟨before, last, after, rfl, hlast, hafter⟩ := ih hlater
      exact ⟨head :: before, last, after, rfl, hlast, hafter⟩
    · obtain ⟨op, hop, hid⟩ := h
      rcases List.mem_cons.mp hop with rfl | hop
      · exact ⟨[], op, ops, rfl, hid, fun later hmem heq => hlater ⟨later, hmem, heq⟩⟩
      · exact absurd ⟨op, hop, hid⟩ hlater

variable {env : Environment SequentialTracker Source}

theorem lookup_forM_revertTaskOp (htracker : env.instanceTracker = sequentialTracker)
    (hops : ∀ op ∈ ops, op.OnExisting) {w w' : World SequentialTracker Source}
    (h : (ops.forM (revertTaskOp env)).run w = .ok () w') (id : InstanceId) :
    w'.tracker.instances.lookup id = restored ops id (w.tracker.instances.lookup id) := by
  induction ops generalizing w with
  | nil =>
    cases h
    rfl
  | cons op ops ih =>
    rw [List.forM, revertTaskOp_eq, htracker] at h
    cases hundo : undo sequentialTracker op w.tracker with
    | mk result t =>
      cases result with
      | error e =>
        rw [Future.run_bind_of_error (run_callTracker_of_error _ hundo)] at h
        cases h
      | ok a =>
        rw [Future.run_bind_of_ok (run_callTracker_of_ok _ hundo)] at h
        rw [ih (fun op hop => hops op (List.mem_cons_of_mem _ hop)) h, restored, restored,
          List.foldl_cons, lookup_undo (hops op List.mem_cons_self).oldInstance hundo]

theorem run_forM_of_revertTaskOps {σ : Type} {env : Environment σ Source}
    {w w' : World σ Source} (h : (revertTaskOps env ops).run w = .ok () w') :
    (ops.forM (revertTaskOp env)).run w = .ok () w' := by
  rw [revertTaskOps] at h
  cases hloop : (ops.forM (revertTaskOp env)).run w with
  | ok a w'' =>
    rw [Future.run_tryCatch_of_ok hloop] at h
    exact h
  | error e w'' =>
    rw [Future.run_tryCatch_of_error hloop, Future.run_throw] at h
    cases h

theorem run_processOffer_of_rejected (env : Environment SequentialTracker Source) {offer : Offer}
    {w' : World SequentialTracker Source}
    (hpersisted : ∀ r ∈ (savings env.instanceTracker
      ((matched env offer).opsWithSource.map InstanceOpWithSource.op) t).1, r = .persisted)
    (hrejected : env.acceptOffer (matched env offer).offerId
      ((matched env offer).opsWithSource.map InstanceOpWithSource.op) = false)
    (hrun : (processOffer env offer).run ⟨t, []⟩ = .ok () w') :
    (matched env offer).opsWithSource = [] ∨
      ∃ w, (((matched env offer).opsWithSource.map InstanceOpWithSource.op).forM
        (revertTaskOp env)).run w = .ok () w' := by
  unfold processOffer at hrun
  cases hmatched : matched env offer with
  | mk offerId ops resend =>
    rw [hmatched] at hpersisted hrejected hrun
    dsimp only at hpersisted hrejected hrun ⊢
    obtain ⟨saves, _, hsaves⟩ := foldlM_saveTask_spec env ops [] (w := ⟨t, []⟩) rfl
    have hstuck : Saving.stuck ∉ (savings env.instanceTracker
        (ops.map InstanceOpWithSource.op) t).1 := fun hmem => by cases hpersisted _ hmem
    rw [if_neg hstuck, List.nil_append] at hsaves
    rw [saveTasks, Future.run_bind_of_ok hsaves] at hrun
    cases ops with
    | nil => exact .inl rfl
    | cons x ops =>
      right
      dsimp only at hrun
      rw [acceptOffer, note, Future.run_bind_of_ok (Future.run_modify _ _), hrejected] at hrun
      rw [if_neg Bool.false_ne_true, Future.run_bind_of_ok (run_forM_note _ _ _)] at hrun
      exact ⟨_, run_forM_of_revertTaskOps hrun⟩

/-- The last operation on each instance carries the instance that the tracker holds: as the
factory makes them, it is a launch on the reservation of this very instance. -/
def CarryOldInstances (ops : List InstanceOp) (instances : InstancesBySpec) : Prop :=
  ∀ before last after, ops = before ++ last :: after →
    (∀ later ∈ after, later.instanceId ≠ last.instanceId) →
    ∃ i, last.oldInstance = some i ∧ instances.lookup last.instanceId = some i

/-- **When operations have been persisted and then cannot be launched, every instance is again
what it was exactly when the last operation on it carries the instance that the tracker held.** -/
theorem reverted_iff (env : Environment SequentialTracker Source)
    (htracker : env.instanceTracker = sequentialTracker) {offer : Offer} {t : SequentialTracker}
    {w' : World SequentialTracker Source}
    (hproduced : ∀ x ∈ (matched env offer).opsWithSource, x.op.Produced)
    (hpersisted : ∀ r ∈ (savings env.instanceTracker
      ((matched env offer).opsWithSource.map InstanceOpWithSource.op) t).1, r = .persisted)
    (hrejected : env.acceptOffer (matched env offer).offerId
      ((matched env offer).opsWithSource.map InstanceOpWithSource.op) = false)
    (hrun : (processOffer env offer).run ⟨t, []⟩ = .ok () w') :
    (∀ x ∈ (matched env offer).opsWithSource,
        w'.tracker.instances.lookup x.op.instanceId = t.instances.lookup x.op.instanceId) ↔
      CarryOldInstances ((matched env offer).opsWithSource.map InstanceOpWithSource.op)
        t.instances := by
  have hreverts := run_processOffer_of_rejected env hpersisted hrejected hrun
  generalize (matched env offer).opsWithSource = xs at *
  have hops : ∀ op ∈ xs.map InstanceOpWithSource.op, op.OnExisting := by
    intro op hop
    obtain ⟨x, hx, rfl⟩ := List.mem_map.mp hop
    obtain ⟨m, scheduledInstances, hmatch⟩ := hproduced x hx
    obtain ⟨i, hi, _⟩ := InstanceOpFactory.isFor_of_matchOfferRequest hmatch
    exact hi.onExisting
  rw [htracker] at hpersisted
  have hexists := exists_of_savings hops hpersisted
  have hrestored : ∀ op ∈ xs.map InstanceOpWithSource.op, ∃ current,
      w'.tracker.instances.lookup op.instanceId =
        restored (xs.map InstanceOpWithSource.op) op.instanceId current := by
    intro op hop
    rcases hreverts with rfl | ⟨w, hw⟩
    · cases hop
    · exact ⟨_, lookup_forM_revertTaskOp htracker hops hw op.instanceId⟩
  constructor
  · intro hsame before last after heq hlater
    have hmem : last ∈ xs.map InstanceOpWithSource.op := by
      rw [heq]
      exact List.mem_append_right _ List.mem_cons_self
    obtain ⟨x, hx, hop⟩ := List.mem_map.mp hmem
    obtain ⟨current, hcurrent⟩ := hrestored last hmem
    obtain ⟨i, hi⟩ := hexists last hmem
    have hback := hsame x hx
    rw [hop, hcurrent, heq, restored_of_isLast hlater, hi] at hback
    exact ⟨i, hback, hi⟩
  · intro hcarry x hx
    have hmem : x.op ∈ xs.map InstanceOpWithSource.op := List.mem_map_of_mem hx
    obtain ⟨before, last, after, heq, hid, hlater⟩ := exists_isLast ⟨x.op, hmem, rfl⟩
    rw [← hid] at hlater ⊢
    obtain ⟨i, hold, hi⟩ := hcarry before last after heq hlater
    have hlast : last ∈ xs.map InstanceOpWithSource.op := by
      rw [heq]
      exact List.mem_append_right _ List.mem_cons_self
    obtain ⟨current, hcurrent⟩ := hrestored last hlast
    rw [hcurrent, heq, restored_of_isLast hlater, hold, hi]

/-! ## A launch on a reservation and a launch without one -/

namespace Reverts

/-- An offer that has whatever is asked for. -/
def matching : OfferMatching where
  agentInfo := plainAgent
  matchOffer _ := true
  matchVolumes := List.head?
  matchReserved _ := true
  matchReservable _ := true
  localVolumes _ := []
  networkInfos _ taskIds := Dict.ofBindings <| taskIds.map fun id => (id, ⟨"agent", [], []⟩)
  taskReservationTimeout := 0
  now := ⟨1⟩

def volume : Volume := .persistentVolume (some "data") ⟨1, none, .root, none, ∅⟩

def residentPod : PodDefinition :=
  { plainPod ⟨["resident"]⟩ ["main"] with volumes := [volume] }

def reservedInstance : Instance :=
  { Instance.scheduled (.pod residentPod) ⟨⟨["resident"]⟩, .instance, ⟨0⟩⟩ ⟨0⟩ with
    reservation := some ⟨[], .suspended, .simplifiedId ⟨⟨["resident"]⟩, .instance, ⟨0⟩⟩⟩ }

/-- The operation that the offer gives for a scheduled instance. -/
def launch (i : Instance) : Option InstanceOp :=
  match InstanceOpFactory.matchOfferRequest matching [i] with
  | .ok result => result
  | .error _ => none

theorem produced_of_mem_launch (h : op ∈ launch i) : op.Produced := by
  unfold launch at h
  split at h
  · rename_i hmatch
    obtain rfl := Option.mem_def.mp h
    exact ⟨matching, [i], hmatch⟩
  · cases h

/-- The driver is not available. -/
def environment (i : Instance) : Environment SequentialTracker Unit where
  matchOffer offer := .ok ⟨offer.id, (launch i).toList.map fun op => ⟨(), op⟩, false⟩
  instanceTracker := sequentialTracker
  acceptOffer _ _ := false
  declineOfferDuration := none

def tracker (i : Instance) : SequentialTracker where
  instances := (∅ : InstancesBySpec).insert i
  clock := ⟨1⟩
  failingWrites := []

theorem produced (i : Instance) :
    ∀ x ∈ (matched (environment i) ⟨"offer"⟩).opsWithSource, x.op.Produced := by
  intro x hx
  obtain ⟨op, hop, rfl⟩ := List.mem_map.mp hx
  exact produced_of_mem_launch (Option.mem_toList.mp hop)

/-- The world after the processing of the offer. -/
def processed (i : Instance) : EStateM.Result String (World SequentialTracker Unit) Unit :=
  (processOffer (environment i) ⟨"offer"⟩).run ⟨tracker i, []⟩

theorem processed_eq_ok (h : Future.succeeded (processed i) = true) :
    (processOffer (environment i) ⟨"offer"⟩).run ⟨tracker i, []⟩ =
      .ok () (Future.world (processed i)) := by
  obtain ⟨_, hok⟩ := Future.eq_ok_of_succeeded h
  exact hok

/-- The reserved instance is what it was. -/
theorem reservedInstance_reverted :
    (Future.world (processed reservedInstance)).tracker.instances.lookup
      reservedInstance.instanceId = some reservedInstance := by
  have hheld : (tracker reservedInstance).instances.lookup reservedInstance.instanceId =
      some reservedInstance := by
    show ((∅ : InstancesBySpec).insert reservedInstance).lookup reservedInstance.instanceId = _
    rw [Keyed.lookup_insert, if_pos rfl]
  have hlaunch : (launch reservedInstance).map (fun op => (op.oldInstance, op.instanceId)) =
      some (some reservedInstance, reservedInstance.instanceId) := rfl
  obtain ⟨op, hop, heq⟩ := Option.map_eq_some_iff.mp hlaunch
  obtain ⟨hold, hid⟩ := Prod.mk.inj heq
  have hops : (matched (environment reservedInstance) ⟨"offer"⟩).opsWithSource = [⟨(), op⟩] := by
    show (launch reservedInstance).toList.map _ = _
    rw [hop]
    rfl
  have hcarry : CarryOldInstances
      ((matched (environment reservedInstance) ⟨"offer"⟩).opsWithSource.map
        InstanceOpWithSource.op) (tracker reservedInstance).instances := by
    intro before last after hsplit _
    have hmem : last ∈ before ++ last :: after := List.mem_append_right _ List.mem_cons_self
    rw [← hsplit, hops] at hmem
    obtain rfl := List.mem_singleton.mp hmem
    exact ⟨reservedInstance, hold, by rw [hid, hheld]⟩
  have hall := (reverted_iff (environment reservedInstance) rfl (produced reservedInstance)
    (by decide +kernel) rfl (processed_eq_ok (by decide +kernel))).mpr hcarry
  have hback := hall ⟨(), op⟩ (by rw [hops]; exact List.mem_singleton.mpr rfl)
  rw [← hheld, ← hid]
  exact hback

/-- The scheduled instance of an ephemeral pod is gone. -/
theorem not_forall_reverted :
    ¬∀ (env : Environment SequentialTracker Unit) (offer : Offer) (t : SequentialTracker)
        (w' : World SequentialTracker Unit),
      env.instanceTracker = sequentialTracker →
      (∀ x ∈ (matched env offer).opsWithSource, x.op.Produced) →
      (∀ r ∈ (savings env.instanceTracker
        ((matched env offer).opsWithSource.map InstanceOpWithSource.op) t).1, r = .persisted) →
      env.acceptOffer (matched env offer).offerId
        ((matched env offer).opsWithSource.map InstanceOpWithSource.op) = false →
      (processOffer env offer).run ⟨t, []⟩ = .ok () w' →
      ∀ x ∈ (matched env offer).opsWithSource,
        w'.tracker.instances.lookup x.op.instanceId = t.instances.lookup x.op.instanceId := by
  intro hall
  have hsame := hall (environment Twins.scheduledInstance) ⟨"offer"⟩
    (tracker Twins.scheduledInstance) _ rfl (produced _) (by decide +kernel) rfl
    (processed_eq_ok (by decide +kernel))
  have hgone : ¬∀ x ∈ (matched (environment Twins.scheduledInstance) ⟨"offer"⟩).opsWithSource,
      ((Future.world (processed Twins.scheduledInstance)).tracker.instances.lookup
          x.op.instanceId).isSome =
        ((tracker Twins.scheduledInstance).instances.lookup x.op.instanceId).isSome := by
    decide +kernel
  apply hgone
  intro x hx
  rw [hsame x hx]

end Reverts

end OfferProcessor

end Marathon
