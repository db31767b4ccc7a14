import Marathon.Instance.LiveTasks
import Marathon.Launcher.OfferProcessor

/-!
# Which operations are launched

What the processing of an offer tells the launcher and the sources, for every way in which the
calls to the tracker turn out.
-/

namespace Marathon.OfferProcessor

open Lib

variable {σ Source : Type}

/-! ## What the calls say -/

namespace Call

/-- The operation whose source is told that it is accepted or rejected. -/
def answered : Call Source → Option (InstanceOpWithSource Source)
  | accept x | reject x _ => some x
  | _ => none

/-- The operation whose source is told of a storage error. -/
def storageError : Call Source → Option (InstanceOpWithSource Source)
  | reject x (.storageError _) => some x
  | _ => none

/-- The operation on the state that has been persisted. -/
def persisted : Call Source → Option InstanceUpdateOperation
  | process stateOp true => some stateOp
  | _ => none

/-- The operations that are passed to the launcher. -/
def launched : Call Source → List InstanceOp
  | acceptOffer _ ops => ops
  | _ => []

/-- A call by which something is undone. -/
def IsUndo : Call Source → Prop
  | revert .. | forceExpunge .. => True
  | _ => False

/-- The call by which operations are passed to the launcher. -/
def IsLaunch : Call Source → Prop
  | acceptOffer .. => True
  | _ => False

end Call

/-- Only persisted operations are launched, and each source is answered once; an operation with
a storage error is not launched. -/
structure OnlyPersistedLaunched (ops : List (InstanceOpWithSource Source))
    (calls : List (Call Source)) : Prop where
  launched : ∀ before offerId launchedOps after,
    calls = before ++ .acceptOffer offerId launchedOps :: after →
      (launchedOps.map InstanceOp.stateOp).Subperm (before.filterMap Call.persisted)
  answered : (calls.filterMap Call.answered).Perm ops
  storageErrors : (calls.flatMap Call.launched ++
      (calls.filterMap Call.storageError).map InstanceOpWithSource.op).Subperm
    (ops.map InstanceOpWithSource.op)

/-! ## How the saving of an operation turns out -/

/-- An operation is persisted; or it is not, and reverting it works or fails. -/
inductive Saving
  | persisted
  | reverted
  | stuck
deriving DecidableEq

/-- The call to the tracker that undoes an operation. -/
def undo (t : InstanceTracker σ) (op : InstanceOp) : σ → Except String Unit × σ :=
  match op.oldInstance with
  | some existingInstance => t.revert existingInstance
  | none => t.forceExpunge op.instanceId

def undoCall (op : InstanceOp) (succeeded : Bool) : Call Source :=
  match op.oldInstance with
  | some existingInstance => .revert existingInstance succeeded
  | none => .forceExpunge op.instanceId succeeded

def saving (t : InstanceTracker σ) (op : InstanceOp) (s : σ) : Saving × σ :=
  match t.process op.stateOp s with
  | (.ok _, s) => (.persisted, s)
  | (.error _, s) =>
    match undo t op s with
    | (.ok _, s) => (.reverted, s)
    | (.error _, s) => (.stuck, s)

/-- How the operations turn out one after another, up to the first one that is stuck. -/
def savings (t : InstanceTracker σ) : List InstanceOp → σ → List Saving × σ
  | [], s => ([], s)
  | op :: ops, s =>
    match saving t op s with
    | (.stuck, s) => ([.stuck], s)
    | (r, s) => (r :: (savings t ops s).1, (savings t ops s).2)

/-- The operations that are not persisted, as far as they have been tried. -/
def unsaved : List (InstanceOpWithSource Source) → List Saving → List (InstanceOpWithSource Source)
  | x :: ops, r :: rs => if r = .persisted then unsaved ops rs else x :: unsaved ops rs
  | _, _ => []

/-- The operations on the state that are persisted. -/
def saved : List (InstanceOpWithSource Source) → List Saving → List InstanceUpdateOperation
  | x :: ops, r :: rs => if r = .persisted then x.op.stateOp :: saved ops rs else saved ops rs
  | _, _ => []

theorem unsaved_nil (ops : List (InstanceOpWithSource Source)) : unsaved ops [] = [] := by
  cases ops <;> rfl

theorem saved_nil (ops : List (InstanceOpWithSource Source)) : saved ops [] = [] := by
  cases ops <;> rfl

theorem unsaved_sublist (ops : List (InstanceOpWithSource Source)) (rs : List Saving) :
    (unsaved ops rs).Sublist ops := by
  induction ops generalizing rs with
  | nil => cases rs <;> exact .slnil
  | cons x ops ih =>
    cases rs with
    | nil => exact List.nil_sublist _
    | cons r rs =>
      rw [unsaved]
      split_ifs
      · exact (ih rs).cons x
      · exact (ih rs).cons_cons x

variable {ops : List (InstanceOpWithSource Source)} {rs : List Saving} {r : Saving}
  {calls undos saves : List (Call Source)} {w : World σ Source} {s s' : σ}
  {answer : InstanceOpWithSource Source → Call Source}

theorem unsaved_eq_nil_iff
    (h : rs.length = ops.length) : unsaved ops rs = [] ↔ ∀ r ∈ rs, r = .persisted := by
  induction ops generalizing rs with
  | nil =>
    obtain rfl := List.length_eq_zero_iff.mp h
    simp [unsaved]
  | cons x ops ih =>
    cases rs with
    | nil => cases h
    | cons r rs =>
      rw [unsaved, List.forall_mem_cons, ← ih (Nat.succ.inj h)]
      split_ifs with hr <;> simp [hr]

theorem length_unsaved_iff :
    (unsaved ops rs).length = ops.length ↔
      ops.length ≤ rs.length ∧ ∀ r ∈ rs.take ops.length, r ≠ .persisted := by
  induction ops generalizing rs with
  | nil => cases rs <;> simp [unsaved]
  | cons x ops ih =>
    cases rs with
    | nil => simp [unsaved]
    | cons r rs =>
      have hle := (unsaved_sublist ops rs).length_le
      rw [unsaved]
      split_ifs with hr
      · constructor
        · intro h
          rw [List.length_cons] at h
          omega
        · rintro ⟨_, hne⟩
          exact absurd hr (hne r List.mem_cons_self)
      · rw [List.length_cons, List.length_cons, List.length_cons, Nat.succ_inj, ih,
          Nat.succ_le_succ_iff, List.take_succ_cons, List.forall_mem_cons, and_iff_right hr]

theorem saved_of_forall (hlength : rs.length = ops.length) (h : ∀ r ∈ rs, r = .persisted) :
    saved ops rs = ops.map fun x => x.op.stateOp := by
  induction ops generalizing rs with
  | nil => cases rs <;> rfl
  | cons x ops ih =>
    cases rs with
    | nil => cases hlength
    | cons r rs =>
      rw [saved, if_pos (h r List.mem_cons_self), List.map_cons,
        ih (Nat.succ.inj hlength) fun r hr => h r (List.mem_cons_of_mem _ hr)]

/-- The calls of a saving that turns out as `rs` says. -/
structure SavingCalls (ops : List (InstanceOpWithSource Source)) (rs : List Saving)
    (calls : List (Call Source)) : Prop where
  answered : calls.filterMap Call.answered = unsaved ops rs
  storageErrors : calls.filterMap Call.storageError = unsaved ops rs
  persisted : calls.filterMap Call.persisted = saved ops rs
  notLaunched : ∀ call ∈ calls, ¬call.IsLaunch

theorem SavingCalls.append {x : InstanceOpWithSource Source}
    {calls' : List (Call Source)} (h : SavingCalls [x] [r] calls)
    (h' : SavingCalls ops rs calls') : SavingCalls (x :: ops) (r :: rs) (calls ++ calls') := by
  have hunsaved : unsaved (x :: ops) (r :: rs) = unsaved [x] [r] ++ unsaved ops rs := by
    rw [unsaved, unsaved]
    split_ifs <;> rfl
  have hsaved : saved (x :: ops) (r :: rs) = saved [x] [r] ++ saved ops rs := by
    rw [saved, saved]
    split_ifs <;> rfl
  refine ⟨?_, ?_, ?_, ?_⟩
  · rw [List.filterMap_append, h.answered, h'.answered, hunsaved]
  · rw [List.filterMap_append, h.storageErrors, h'.storageErrors, hunsaved]
  · rw [List.filterMap_append, h.persisted, h'.persisted, hsaved]
  · intro call hcall
    rcases List.mem_append.mp hcall with hcall | hcall
    · exact h.notLaunched call hcall
    · exact h'.notLaunched call hcall

theorem savingCalls_nil (ops : List (InstanceOpWithSource Source)) : SavingCalls ops [] [] where
  answered := (unsaved_nil ops).symm
  storageErrors := (unsaved_nil ops).symm
  persisted := (saved_nil ops).symm
  notLaunched := by simp

variable (env : Environment σ Source)

theorem revertTaskOp_eq (op : InstanceOp) :
    revertTaskOp env op = callTracker (undoCall op) (undo env.instanceTracker op) := by
  unfold revertTaskOp undoCall undo
  cases op.oldInstance <;> rfl

theorem run_callTracker_of_ok {α : Type} (call : Bool → Call Source) {f : σ → Except String α × σ}
    {a : α} (h : f w.tracker = (.ok a, s)) :
    (callTracker call f).run w = .ok a ⟨s, w.calls ++ [call true]⟩ := by
  show callTracker call f w = _
  rw [callTracker, h]

theorem run_callTracker_of_error {α : Type} (call : Bool → Call Source)
    {f : σ → Except String α × σ} {e : String} (h : f w.tracker = (.error e, s)) :
    (callTracker call f).run w = .error e ⟨s, w.calls ++ [call false]⟩ := by
  show callTracker call f w = _
  rw [callTracker, h]

theorem run_revertTaskOps_singleton (op : InstanceOp) (w : World σ Source) :
    (revertTaskOps env [op]).run w =
      match undo env.instanceTracker op w.tracker with
      | (.ok _, s) => .ok () ⟨s, w.calls ++ [undoCall op true]⟩
      | (.error _, s) => .error "while reverting task ops" ⟨s, w.calls ++ [undoCall op false]⟩ := by
  have hone : [op].forM (revertTaskOp env) = revertTaskOp env op >>= fun _ => pure () := rfl
  rw [revertTaskOps, hone, revertTaskOp_eq]
  cases h : undo env.instanceTracker op w.tracker with
  | mk result s =>
    cases result with
    | ok a =>
      have hcall := run_callTracker_of_ok (undoCall op : Bool → Call Source) h
      have hbind := Future.run_bind_of_ok hcall fun _ => (pure () : Future (World σ Source) Unit)
      exact Future.run_tryCatch_of_ok hbind _
    | error e =>
      have hcall := run_callTracker_of_error (undoCall op : Bool → Call Source) h
      have hbind := Future.run_bind_of_error hcall fun _ => (pure () : Future (World σ Source) Unit)
      exact Future.run_tryCatch_of_error hbind _

theorem savingCalls_persisted (x : InstanceOpWithSource Source) :
    SavingCalls [x] [.persisted] [.process x.op.stateOp true] where
  answered := rfl
  storageErrors := rfl
  persisted := rfl
  notLaunched := by simp [Call.IsLaunch]

theorem savingCalls_rejected (hr : r ≠ .persisted) (x : InstanceOpWithSource Source)
    (e : String) (undone : Bool) :
    SavingCalls [x] [r]
      [.process x.op.stateOp false, .reject x (.storageError e), undoCall x.op undone] := by
  have hunsaved : unsaved [x] [r] = [x] := by simp [unsaved, hr]
  have hsaved : saved [x] [r] = [] := by simp [saved, hr]
  unfold undoCall
  cases x.op.oldInstance with
  | none => exact ⟨hunsaved.symm, hunsaved.symm, hsaved.symm, by simp [Call.IsLaunch]⟩
  | some existingInstance =>
    exact ⟨hunsaved.symm, hunsaved.symm, hsaved.symm, by simp [Call.IsLaunch]⟩

theorem saveTask_spec (x : InstanceOpWithSource Source)
    (hr : saving env.instanceTracker x.op w.tracker = (r, s)) :
    ∃ calls, SavingCalls [x] [r] calls ∧
      (saveTask env x).run w =
        if r = .stuck then .error "while reverting task ops" ⟨s, w.calls ++ calls⟩
        else .ok (some x) ⟨s, w.calls ++ calls⟩ := by
  unfold saving at hr
  cases hprocess : env.instanceTracker.process x.op.stateOp w.tracker with
  | mk result t =>
    rw [hprocess] at hr
    cases result with
    | ok effect =>
      cases hr
      refine ⟨_, savingCalls_persisted x, ?_⟩
      have hcall := run_callTracker_of_ok (Call.process x.op.stateOp : Bool → Call Source) hprocess
      have hcatch := Future.run_tryCatch_of_ok (Future.run_discard_of_ok hcall)
      rw [saveTask, Future.run_bind_of_ok (hcatch _)]
      rfl
    | error e =>
      have hcall := run_callTracker_of_error (Call.process x.op.stateOp : Bool → Call Source)
        hprocess
      have hcatch := Future.run_tryCatch_of_error (Future.run_discard_of_error hcall)
      have hundo := run_revertTaskOps_singleton env x.op
        ((World.mk t (w.calls ++ [.process x.op.stateOp false])).note (.reject x (.storageError e)))
      have hreject := hcatch fun e => do
        note (.reject x (.storageError e))
        revertTaskOps env [x.op]
      rw [note, Future.run_bind_of_ok (Future.run_modify _ _)] at hreject
      dsimp only at hr
      cases h : undo env.instanceTracker x.op t with
      | mk undone t' =>
        dsimp only [World.note] at hundo hreject
        rw [h] at hundo hr
        cases undone with
        | ok a =>
          cases hr
          refine ⟨_, savingCalls_rejected Saving.noConfusion x e true, ?_⟩
          rw [saveTask, Future.run_bind_of_ok (hreject.trans hundo)]
          simp
        | error e' =>
          cases hr
          refine ⟨_, savingCalls_rejected Saving.noConfusion x e false, ?_⟩
          rw [saveTask, Future.run_bind_of_error (hreject.trans hundo)]
          simp

theorem savings_cons_of_stuck {t : InstanceTracker σ} {op : InstanceOp} {ops : List InstanceOp}
    (h : saving t op s = (.stuck, s')) : savings t (op :: ops) s = ([.stuck], s') := by
  rw [savings, h]

theorem savings_cons_of_ne_stuck {t : InstanceTracker σ} {op : InstanceOp} {ops : List InstanceOp}
    (h : saving t op s = (r, s')) (hr : r ≠ .stuck) :
    savings t (op :: ops) s = (r :: (savings t ops s').1, (savings t ops s').2) := by
  rw [savings, h]
  cases r with
  | stuck => exact absurd rfl hr
  | persisted => rfl
  | reverted => rfl

/-- The savings of all the operations: as long as none is stuck, all of them are kept. -/
theorem foldlM_saveTask_spec (ops savedTasks : List (InstanceOpWithSource Source))
    (hrs : savings env.instanceTracker (ops.map InstanceOpWithSource.op) w.tracker = (rs, s)) :
    ∃ calls, SavingCalls ops rs calls ∧
      (ops.foldlM (fun savedTasks nextTask => do
          let task ← saveTask env nextTask
          return savedTasks ++ task.toList) savedTasks).run w =
        if Saving.stuck ∈ rs then .error "while reverting task ops" ⟨s, w.calls ++ calls⟩
        else .ok (savedTasks ++ ops) ⟨s, w.calls ++ calls⟩ := by
  induction ops generalizing savedTasks w rs s with
  | nil =>
    cases hrs
    refine ⟨[], savingCalls_nil [], ?_⟩
    simp
  | cons x ops ih =>
    rw [List.map_cons] at hrs
    cases hsaving : saving env.instanceTracker x.op w.tracker with
    | mk r t =>
      obtain ⟨calls, hcalls, hrun⟩ := saveTask_spec env x hsaving
      rw [List.foldlM_cons]
      by_cases hr : r = .stuck
      · subst hr
        rw [savings_cons_of_stuck hsaving] at hrs
        cases hrs
        rw [if_pos rfl] at hrun
        have hcalls' := hcalls.append (savingCalls_nil ops)
        rw [List.append_nil] at hcalls'
        refine ⟨calls, hcalls', ?_⟩
        rw [bind_assoc, Future.run_bind_of_error hrun, if_pos (List.mem_singleton.mpr rfl)]
      · rw [savings_cons_of_ne_stuck hsaving hr] at hrs
        cases hrs
        rw [if_neg hr] at hrun
        obtain ⟨later, hlater, hrest⟩ := ih (savedTasks ++ [x]) (w := ⟨t, w.calls ++ calls⟩) rfl
        refine ⟨calls ++ later, hcalls.append hlater, ?_⟩
        rw [bind_assoc, Future.run_bind_of_ok hrun, pure_bind, Option.toList_some, hrest]
        simp [Ne.symm hr]

theorem savings_cases (t : InstanceTracker σ) (ops : List InstanceOp) (s : σ) :
    (Saving.stuck ∉ (savings t ops s).1 ∧ (savings t ops s).1.length = ops.length) ∨
      ∃ init, (savings t ops s).1 = init ++ [.stuck] ∧ Saving.stuck ∉ init ∧
        init.length < ops.length := by
  induction ops generalizing s with
  | nil => exact .inl ⟨List.not_mem_nil, rfl⟩
  | cons op ops ih =>
    cases hsaving : saving t op s with
    | mk r s' =>
      by_cases hr : r = .stuck
      · subst hr
        rw [savings_cons_of_stuck hsaving]
        exact .inr ⟨[], rfl, List.not_mem_nil, Nat.zero_lt_succ _⟩
      · rw [savings_cons_of_ne_stuck hsaving hr]
        rcases ih s' with ⟨hstuck, hlength⟩ | ⟨init, hinit, hstuck, hlength⟩
        · left
          simp [hstuck, hlength, Ne.symm hr]
        · right
          refine ⟨r :: init, ?_, ?_, ?_⟩
          · rw [hinit, List.cons_append]
          · simp [hstuck, Ne.symm hr]
          · rw [List.length_cons, List.length_cons]
            omega

/-! ## The calls of the whole processing -/

theorem isUndo_undoCall (op : InstanceOp) (succeeded : Bool) :
    (undoCall op succeeded : Call Source).IsUndo := by
  unfold undoCall
  cases op.oldInstance <;> trivial

theorem calls_revertTaskOps (ops : List InstanceOp) (w : World σ Source) :
    ∃ undos, (Future.world ((revertTaskOps env ops).run w)).calls = w.calls ++ undos ∧
      ∀ call ∈ undos, call.IsUndo := by
  have hloop : ∃ undos, (Future.world ((ops.forM (revertTaskOp env)).run w)).calls =
      w.calls ++ undos ∧ ∀ call ∈ undos, call.IsUndo := by
    apply Future.world_forM (P := fun w' : World σ Source =>
      ∃ undos, w'.calls = w.calls ++ undos ∧ ∀ call ∈ undos, call.IsUndo)
    · rintro op _ w' ⟨undos, hcalls, hundos⟩
      rw [revertTaskOp_eq]
      have hmem : ∀ succeeded, ∀ call ∈ undos ++ [undoCall op succeeded], call.IsUndo := by
        intro succeeded call hcall
        rcases List.mem_append.mp hcall with hcall | hcall
        · exact hundos call hcall
        · rw [List.mem_singleton.mp hcall]
          exact isUndo_undoCall op succeeded
      cases h : undo env.instanceTracker op w'.tracker with
      | mk result s =>
        cases result with
        | ok a =>
          refine ⟨undos ++ [undoCall op true], ?_, hmem true⟩
          rw [run_callTracker_of_ok _ h, Future.world_ok, hcalls, List.append_assoc]
        | error e =>
          refine ⟨undos ++ [undoCall op false], ?_, hmem false⟩
          rw [run_callTracker_of_error _ h, Future.world_error, hcalls, List.append_assoc]
    · exact ⟨[], (List.append_nil _).symm, fun call hcall => absurd hcall List.not_mem_nil⟩
  rw [revertTaskOps]
  cases h : (ops.forM (revertTaskOp env)).run w with
  | ok a w' =>
    rw [h] at hloop
    rw [Future.run_tryCatch_of_ok h]
    exact hloop
  | error e w' =>
    rw [h] at hloop
    rw [Future.run_tryCatch_of_error h]
    exact hloop

theorem run_forM_note (call : InstanceOpWithSource Source → Call Source)
    (ops : List (InstanceOpWithSource Source)) (w : World σ Source) :
    (ops.forM fun x => note (call x)).run w = .ok () ⟨w.tracker, w.calls ++ ops.map call⟩ := by
  have hfold : ops.foldl (fun w x => World.note (call x) w) w =
      ⟨w.tracker, w.calls ++ ops.map call⟩ := by
    induction ops generalizing w with
    | nil => simp
    | cons x ops ih =>
      rw [List.foldl_cons, ih]
      simp [World.note]
  exact (Future.run_forM_modify (fun x => World.note (call x)) ops w).trans (by rw [hfold])

theorem calls_acceptOffer (offerId : OfferID) (ops : List (InstanceOpWithSource Source))
    (w : World σ Source) :
    ∃ answer undos,
      (Future.world ((acceptOffer env offerId ops).run w)).calls =
        w.calls ++ .acceptOffer offerId (ops.map InstanceOpWithSource.op) ::
          (ops.map answer ++ undos) ∧
      (answer = .accept ∨ answer = fun x => .reject x .driverUnavailable) ∧
      ∀ call ∈ undos, call.IsUndo := by
  rw [acceptOffer, note, Future.run_bind_of_ok (Future.run_modify _ _)]
  split
  · rw [run_forM_note]
    exact ⟨.accept, [], by simp [World.note], .inl rfl, by simp⟩
  · rw [Future.run_bind_of_ok (run_forM_note _ _ _)]
    obtain ⟨undos, hcalls, hundos⟩ := calls_revertTaskOps env (ops.map InstanceOpWithSource.op)
      ⟨w.tracker, (World.note (.acceptOffer offerId (ops.map InstanceOpWithSource.op)) w).calls ++
        ops.map fun x => .reject x .driverUnavailable⟩
    refine ⟨fun x => .reject x .driverUnavailable, undos, ?_, .inr rfl, hundos⟩
    exact hcalls.trans (by simp [World.note])

theorem calls_processOffer (offer : Offer) (s : σ) :
    let ops := (matched env offer).opsWithSource
    let rs := (savings env.instanceTracker (ops.map InstanceOpWithSource.op) s).1
    ∃ saves rest, SavingCalls ops rs saves ∧
      (Future.world ((processOffer env offer).run ⟨s, []⟩)).calls = saves ++ rest ∧
      if Saving.stuck ∈ rs then rest = []
      else if ops = [] then ∃ offerId duration, rest = [.declineOffer offerId duration]
      else ∃ offerId answer undos,
        rest = .acceptOffer offerId (ops.map InstanceOpWithSource.op) ::
          (ops.map answer ++ undos) ∧
        (answer = .accept ∨ answer = fun x => .reject x .driverUnavailable) ∧
        ∀ call ∈ undos, call.IsUndo := by
  unfold processOffer
  cases matched env offer with
  | mk offerId ops resend =>
    dsimp only
    obtain ⟨saves, hsaves, hrun⟩ := foldlM_saveTask_spec env ops [] (w := ⟨s, []⟩) rfl
    dsimp only at hsaves hrun
    rw [List.nil_append] at hrun
    split_ifs at hrun ⊢ with hstuck hops
    · rw [saveTasks, Future.run_bind_of_error hrun]
      exact ⟨saves, [], hsaves, (List.append_nil _).symm, rfl⟩
    · subst hops
      rw [saveTasks, Future.run_bind_of_ok hrun]
      exact ⟨saves, _, hsaves, rfl, offerId, _, rfl⟩
    · rw [saveTasks, Future.run_bind_of_ok hrun]
      cases ops with
      | nil => exact absurd rfl hops
      | cons x ops =>
        obtain ⟨answer, undos, hcalls, hanswer, hundos⟩ :=
          calls_acceptOffer env offerId (x :: ops) ⟨_, saves⟩
        exact ⟨saves, _, hsaves, hcalls, offerId, answer, undos, rfl, hanswer, hundos⟩

/-! ## When only persisted operations are launched -/

theorem filterMap_undos (h : ∀ call ∈ undos, call.IsUndo) :
    undos.filterMap Call.answered = [] ∧ undos.filterMap Call.storageError = [] ∧
      undos.flatMap Call.launched = [] ∧ ∀ call ∈ undos, ¬call.IsLaunch := by
  refine ⟨List.filterMap_eq_nil_iff.mpr ?_, List.filterMap_eq_nil_iff.mpr ?_,
    List.flatMap_eq_nil_iff.mpr ?_, ?_⟩
  all_goals
    intro call hcall
    have hundo := h call hcall
    cases call with
    | revert | forceExpunge => simp [Call.answered, Call.storageError, Call.launched, Call.IsLaunch]
    | _ => exact hundo.elim

theorem flatMap_launched (h : ∀ call ∈ calls, ¬call.IsLaunch) :
    calls.flatMap Call.launched = [] := by
  apply List.flatMap_eq_nil_iff.mpr
  intro call hcall
  cases call with
  | acceptOffer => exact absurd trivial (h _ hcall)
  | _ => rfl

theorem filterMap_answers (h : answer = .accept ∨ answer = fun x => .reject x .driverUnavailable)
    (ops : List (InstanceOpWithSource Source)) :
    (ops.map answer).filterMap Call.answered = ops ∧
      (ops.map answer).filterMap Call.storageError = [] ∧
      ∀ call ∈ ops.map answer, ¬call.IsLaunch := by
  rw [List.filterMap_map, List.filterMap_map]
  rcases h with rfl | rfl
  · exact ⟨List.filterMap_some, by simp [Function.comp_def, Call.storageError],
      by simp [Call.IsLaunch]⟩
  · exact ⟨List.filterMap_some, by simp [Function.comp_def, Call.storageError],
      by simp [Call.IsLaunch]⟩

theorem eq_of_isLaunch {rest before after : List (Call Source)} {launch launch' : Call Source}
    (hcalls : ∀ call ∈ calls, ¬call.IsLaunch) (hrest : ∀ call ∈ rest, ¬call.IsLaunch)
    (hlaunch' : launch'.IsLaunch) (h : calls ++ launch :: rest = before ++ launch' :: after) :
    before = calls ∧ launch' = launch := by
  rcases List.append_eq_append_iff.mp h with ⟨middle, hbefore, htail⟩ | ⟨middle, hcalls', htail⟩
  · cases middle with
    | nil => exact ⟨hbefore.trans (List.append_nil _), (List.cons.inj htail).1.symm⟩
    | cons call middle =>
      have hmem : launch' ∈ rest := by
        rw [(List.cons.inj htail).2]
        exact List.mem_append_right _ List.mem_cons_self
      exact absurd hlaunch' (hrest _ hmem)
  · cases middle with
    | nil => exact ⟨(hcalls'.trans (List.append_nil _)).symm, (List.cons.inj htail).1⟩
    | cons call middle =>
      have hmem : launch' ∈ calls := by
        rw [hcalls', (List.cons.inj htail).1]
        exact List.mem_append_right _ List.mem_cons_self
      exact absurd hlaunch' (hcalls _ hmem)

theorem onlyPersistedLaunched_of_stuck_iff (h : SavingCalls ops rs saves) :
    OnlyPersistedLaunched ops saves ↔ (unsaved ops rs).length = ops.length := by
  have hlaunched := flatMap_launched h.notLaunched
  constructor
  · intro hsound
    rw [← h.answered]
    exact hsound.answered.length_eq
  · intro hlength
    have hall : unsaved ops rs = ops := (unsaved_sublist ops rs).eq_of_length hlength
    refine ⟨?_, ?_, ?_⟩
    · intro before offerId launchedOps after hcalls
      have hmem : Call.acceptOffer offerId launchedOps ∈ saves := by
        rw [hcalls]
        exact List.mem_append_right _ List.mem_cons_self
      exact absurd trivial (h.notLaunched _ hmem)
    · rw [h.answered, hall]
    · rw [hlaunched, h.storageErrors, hall, List.nil_append]

theorem onlyPersistedLaunched_of_launch_iff (h : SavingCalls ops rs saves)
    (hrs : rs.length = ops.length) (offerId : OfferID)
    (hanswer : answer = .accept ∨ answer = fun x => .reject x .driverUnavailable)
    (hundos : ∀ call ∈ undos, call.IsUndo) :
    OnlyPersistedLaunched ops
        (saves ++ .acceptOffer offerId (ops.map InstanceOpWithSource.op) ::
          (ops.map answer ++ undos)) ↔
      ∀ r ∈ rs, r = .persisted := by
  rw [← unsaved_eq_nil_iff hrs]
  obtain ⟨hanswered, hstorage, hnotLaunched⟩ := filterMap_answers hanswer ops
  obtain ⟨hundosAnswered, hundosStorage, _, hundosLaunched⟩ := filterMap_undos hundos
  have hrest : ∀ call ∈ ops.map answer ++ undos, ¬call.IsLaunch := by
    intro call hcall
    rcases List.mem_append.mp hcall with hcall | hcall
    · exact hnotLaunched call hcall
    · exact hundosLaunched call hcall
  have hall : (saves ++ .acceptOffer offerId (ops.map InstanceOpWithSource.op) ::
      (ops.map answer ++ undos)).filterMap Call.answered = unsaved ops rs ++ ops := by
    rw [List.filterMap_append, h.answered]
    show unsaved ops rs ++ (ops.map answer ++ undos).filterMap Call.answered = _
    rw [List.filterMap_append, hanswered, hundosAnswered, List.append_nil]
  constructor
  · intro hsound
    have hlength := hsound.answered.length_eq
    rw [hall, List.length_append] at hlength
    exact List.length_eq_zero_iff.mp (by omega)
  · intro hunsaved
    refine ⟨?_, ?_, ?_⟩
    · intro before id launchedOps after hcalls
      have hlaunched : (Call.acceptOffer id launchedOps : Call Source).IsLaunch := trivial
      obtain ⟨rfl, hlaunch⟩ := eq_of_isLaunch h.notLaunched hrest hlaunched hcalls
      cases hlaunch
      rw [h.persisted, saved_of_forall hrs ((unsaved_eq_nil_iff hrs).mp hunsaved), List.map_map]
      exact List.Subperm.refl _
    · rw [hall, hunsaved, List.nil_append]
    · have herrors : (saves ++ .acceptOffer offerId (ops.map InstanceOpWithSource.op) ::
          (ops.map answer ++ undos)).filterMap Call.storageError = [] := by
        rw [List.filterMap_append, h.storageErrors, hunsaved]
        show [] ++ (ops.map answer ++ undos).filterMap Call.storageError = _
        rw [List.filterMap_append, hstorage, hundosStorage]
        rfl
      rw [herrors, List.flatMap_append, flatMap_launched h.notLaunched, List.flatMap_cons,
        flatMap_launched hrest]
      simp only [Call.launched, List.nil_append, List.append_nil, List.map_nil]
      exact List.Subperm.refl _

theorem SavingCalls.declineOffer (h : SavingCalls ops rs saves) (offerId : OfferID)
    (duration : Option ℤ) : SavingCalls ops rs (saves ++ [.declineOffer offerId duration]) where
  answered := by simp [h.answered, Call.answered]
  storageErrors := by simp [h.storageErrors, Call.storageError]
  persisted := by simp [h.persisted, Call.persisted]
  notLaunched := by
    intro call hcall
    rcases List.mem_append.mp hcall with hcall | hcall
    · exact h.notLaunched call hcall
    · rw [List.mem_singleton.mp hcall]
      exact not_false

/-- **Only persisted operations are launched, and each source is answered once, exactly when
every operation is persisted, or none is and reverting the last one is what fails first.** -/
theorem onlyPersistedLaunched_iff (offer : Offer) (s : σ) :
    OnlyPersistedLaunched (matched env offer).opsWithSource
        (Future.world ((processOffer env offer).run ⟨s, []⟩)).calls ↔
      (∀ r ∈ (savings env.instanceTracker
          ((matched env offer).opsWithSource.map InstanceOpWithSource.op) s).1, r = .persisted) ∨
        ∃ n, (matched env offer).opsWithSource.length = n + 1 ∧
          (savings env.instanceTracker
            ((matched env offer).opsWithSource.map InstanceOpWithSource.op) s).1 =
              List.replicate n .reverted ++ [.stuck] := by
  obtain ⟨saves, rest, hsaves, hcalls, hrest⟩ := calls_processOffer env offer s
  rw [hcalls]
  generalize (matched env offer).opsWithSource = ops at *
  have hcases := savings_cases env.instanceTracker (ops.map InstanceOpWithSource.op) s
  rw [List.length_map] at hcases
  generalize (savings env.instanceTracker (ops.map InstanceOpWithSource.op) s).1 = rs at *
  rcases hcases with ⟨hstuck, hlength⟩ | ⟨init, rfl, hstuck, hlength⟩
  · have hnot : ¬∃ n, ops.length = n + 1 ∧ rs = List.replicate n .reverted ++ [.stuck] := by
      rintro ⟨n, _, rfl⟩
      exact hstuck (List.mem_append_right _ (List.mem_singleton.mpr rfl))
    rw [or_iff_left hnot]
    rw [if_neg hstuck] at hrest
    split_ifs at hrest with hops
    · subst hops
      obtain ⟨offerId, duration, rfl⟩ := hrest
      obtain rfl := List.length_eq_zero_iff.mp hlength
      rw [onlyPersistedLaunched_of_stuck_iff (hsaves.declineOffer offerId duration)]
      simp [unsaved]
    · obtain ⟨offerId, answer, undos, rfl, hanswer, hundos⟩ := hrest
      exact onlyPersistedLaunched_of_launch_iff hsaves hlength offerId hanswer hundos
  · have hmem : Saving.stuck ∈ init ++ [.stuck] :=
      List.mem_append_right _ (List.mem_singleton.mpr rfl)
    have hnot : ¬∀ r ∈ init ++ [Saving.stuck], r = .persisted := fun h => by cases h _ hmem
    rw [if_pos hmem] at hrest
    rw [or_iff_right hnot, hrest, List.append_nil, onlyPersistedLaunched_of_stuck_iff hsaves,
      length_unsaved_iff, List.length_append, List.length_singleton]
    constructor
    · rintro ⟨hle, hne⟩
      rw [List.take_of_length_le (by simp; omega)] at hne
      refine ⟨init.length, by omega, ?_⟩
      congr 1
      apply List.eq_replicate_iff.mpr ⟨rfl, ?_⟩
      intro r hr
      -- neither persisted nor stuck
      cases r with
      | persisted => exact absurd rfl (hne _ (List.mem_append_left _ hr))
      | reverted => rfl
      | stuck => exact absurd hr hstuck
    · rintro ⟨n, hn, heq⟩
      obtain rfl : init = List.replicate n .reverted := List.append_cancel_right heq
      rw [List.length_replicate]
      refine ⟨by omega, ?_⟩
      intro r hr
      rcases List.mem_append.mp (List.mem_of_mem_take hr) with hr | hr
      · rw [List.eq_of_mem_replicate hr]
        exact Saving.noConfusion
      · rw [List.mem_singleton.mp hr]
        exact Saving.noConfusion

/-! ## One operation that cannot be stored -/

namespace StorageError

/-- The launch of a pod. -/
def launch : InstanceOp :=
  InstanceOpFactoryHelper.provisionTaskGroup
    (.provision Twins.instanceId plainAgent Twins.pod Twins.provisionedTasks ⟨1⟩)

def environment : Environment SequentialTracker Unit where
  matchOffer offer := .ok ⟨offer.id, [⟨(), launch⟩], false⟩
  instanceTracker := sequentialTracker
  acceptOffer _ _ := true
  declineOfferDuration := none

/-- The pod's instance is scheduled, and the next write fails. -/
def tracker : SequentialTracker where
  instances := (∅ : InstancesBySpec).insert Twins.scheduledInstance
  clock := ⟨1⟩
  failingWrites := [true]

theorem length_answered :
    ((Future.world ((processOffer environment ⟨"offer"⟩).run ⟨tracker, []⟩)).calls.filterMap
      Call.answered).length = 2 := by
  decide +kernel

theorem not_forall_onlyPersistedLaunched :
    ¬∀ (env : Environment SequentialTracker Unit) (offer : Offer) (s : SequentialTracker),
      OnlyPersistedLaunched (matched env offer).opsWithSource
        (Future.world ((processOffer env offer).run ⟨s, []⟩)).calls := by
  intro hall
  have hone := (hall environment ⟨"offer"⟩ tracker).answered.length_eq
  rw [length_answered] at hone
  cases hone

end StorageError

end Marathon.OfferProcessor
