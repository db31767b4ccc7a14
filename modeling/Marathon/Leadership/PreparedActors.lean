import Marathon.Leadership.LeadershipCoordinatorActor

/-!
# Prepared actors

When the coordinator says that it is prepared, every actor should have started its child for the
last `PrepareForStart`. A reply does not say which one it answers, so this is so as long as no reply
to an earlier one is outstanding when the next one is sent. Every request is answered once in any
case, and what the actors stash is kept in order.
-/

namespace Marathon.Leadership

open Lib

variable {ι μ : Type*} {deferrable : μ → Bool}

/-! ## Messages of an actor -/

def Message.isControl : Message μ → Bool
  | prepareForStart _ | stop => true
  | user _ => false

/-- The messages that wait for the child of an actor. -/
def Message.isDeferred (deferrable : μ → Bool) : Message μ → Bool
  | user m => deferrable m
  | _ => false

namespace WhenLeaderActor

def isActive (w : WhenLeaderActor μ) : Bool :=
  match w.behavior with
  | .active _ => true
  | _ => false

/-- What has not been handled, in the order in which it will be looked at. -/
def pending (w : WhenLeaderActor μ) : List (Message μ) := w.stash ++ w.mailbox

/-- What the coordinator has sent and has not been handled. -/
def controls (w : WhenLeaderActor μ) : List (Message μ) := w.pending.filter Message.isControl

/-- Nothing is stashed while there is a child, and only what may wait while there is none. What was
sent is handled or pending, in the order in which it was sent, among the messages that wait for a
child and among the others. -/
structure Orderly (deferrable : μ → Bool) (w : WhenLeaderActor μ) : Prop where
  active : w.isActive → w.stash = []
  suspended : w.behavior = .suspended → ∀ m ∈ w.stash, m.isDeferred deferrable
  kept : w.handled.length + w.pending.length = w.sent.length
  deferred : (w.handled ++ w.pending).filter (·.isDeferred deferrable) =
    w.sent.filter (·.isDeferred deferrable)
  others : (w.handled ++ w.pending).filter (!·.isDeferred deferrable) =
    w.sent.filter (!·.isDeferred deferrable)

variable {w w' : WhenLeaderActor μ} {m : Message μ} {replies : List Reply}

theorem isDeferred_of_isControl (h : m.isControl) : m.isDeferred deferrable = false := by
  cases m <;> simp_all [Message.isControl, Message.isDeferred]

/-! ### Telling -/

theorem tell_of_alive (h : w.alive) :
    w.tell m = { w with mailbox := w.mailbox ++ [m], sent := w.sent ++ [m] } := if_pos h

theorem controls_tell (h : w.alive) (hm : m.isControl) : (w.tell m).controls = w.controls ++ [m] := by
  rw [tell_of_alive h]
  simp [controls, pending, hm]

theorem controls_tell_user (u : μ) : (w.tell (.user u)).controls = w.controls := by
  unfold tell
  split_ifs <;> simp [controls, pending, Message.isControl]

/-! ### Handling a message -/

/-- What an actor does with a message of its mailbox, or when its child has terminated. -/
inductive Does (w w' : WhenLeaderActor μ) (replies : List Reply) : Prop
  | nothing (hcontrols : w'.controls = w.controls) (hactive : w'.isActive = w.isActive)
      (hfor : w'.startedFor = w.startedFor) (hreplies : replies ⊆ [.stopped])
  | starts (cycle : ℕ) (hcontrols : w.controls = .prepareForStart cycle :: w'.controls)
      (hidle : w.isActive = false) (hactive : w'.isActive = true)
      (hfor : w'.startedFor = some cycle) (hreplies : replies = [.prepared])
  | confirms (cycle : ℕ) (hcontrols : w.controls = .prepareForStart cycle :: w'.controls)
      (hactive : w.isActive = true) (hactive' : w'.isActive = true)
      (hfor : w'.startedFor = w.startedFor) (hreplies : replies = [.prepared])
  | stops (hcontrols : w.controls = .stop :: w'.controls) (hidle : w'.isActive = false)
      (hfor : w'.startedFor = w.startedFor) (hreplies : replies ⊆ [.stopped])

theorem filter_stash (h : Orderly deferrable w) (hbehavior : w.behavior = .suspended) :
    w.stash.filter Message.isControl = [] := by
  rw [List.filter_eq_nil_iff]
  intro m hm hcontrol
  have hdeferred := h.suspended hbehavior m hm
  rw [isDeferred_of_isControl hcontrol] at hdeferred
  cases hdeferred

theorem does_process (h : Orderly deferrable w)
    (hp : w.process deferrable = some (w', replies)) : Does w w' replies := by
  unfold process at hp
  cases hmailbox : w.mailbox with
  | nil =>
    rw [hmailbox] at hp
    cases hp
  | cons m mailbox =>
    rw [hmailbox] at hp
    obtain ⟨-, heq⟩ := Option.ite_none_right_eq_some.mp hp
    have hcontrols : w.controls = w.stash.filter Message.isControl ++
        (m :: mailbox).filter Message.isControl := by
      rw [controls, pending, hmailbox, List.filter_append]
    replace heq := Option.some.inj heq
    unfold receive at heq
    cases hbehavior : w.behavior with
    | suspended =>
      have hidle : w.isActive = false := by rw [isActive, hbehavior]
      have hstash := filter_stash h hbehavior
      rw [hstash, List.nil_append] at hcontrols
      cases m with
      | prepareForStart cycle =>
        simp only [hbehavior] at heq
        cases heq
        refine .starts cycle ?_ hidle rfl rfl rfl
        rw [hcontrols]
        simp [controls, pending, unstashAll, hstash]
        rfl
      | stop =>
        simp only [hbehavior] at heq
        cases heq
        refine .stops ?_ rfl rfl (List.Subset.refl _)
        rw [hcontrols]
        simp [controls, pending, hstash]
        rfl
      | user u =>
        simp only [hbehavior] at heq
        split_ifs at heq
        · cases heq
          refine .nothing ?_ hidle.symm rfl (List.nil_subset _)
          rw [hcontrols]
          simp [controls, pending, stashed, hstash, Message.isControl]
        · cases heq
          refine .nothing ?_ hidle.symm rfl (List.nil_subset _)
          rw [hcontrols]
          simp [controls, pending, hstash, Message.isControl]
    | active childRef =>
      have hactive : w.isActive = true := by rw [isActive, hbehavior]
      have hstash := h.active hactive
      rw [hstash] at hcontrols
      cases m with
      | prepareForStart cycle =>
        simp only [hbehavior] at heq
        cases heq
        refine .confirms cycle ?_ hactive rfl rfl rfl
        rw [hcontrols]
        simp [controls, pending, hstash]
        rfl
      | stop =>
        simp only [hbehavior] at heq
        cases heq
        refine .stops ?_ rfl rfl (List.nil_subset _)
        rw [hcontrols]
        simp [controls, pending, unstashAll, hstash]
        rfl
      | user u =>
        simp only [hbehavior] at heq
        cases heq
        refine .nothing ?_ hactive.symm rfl (List.nil_subset _)
        rw [hcontrols]
        simp [controls, pending, hstash, Message.isControl]
    | dying childRef =>
      have hidle : w.isActive = false := by rw [isActive, hbehavior]
      simp only [hbehavior] at heq
      cases heq
      refine .nothing ?_ hidle.symm rfl (List.nil_subset _)
      rw [hcontrols]
      simp [controls, pending, stashed, List.filter_cons]

theorem does_childTerminated (h : w.childTerminated = some (w', replies)) : Does w w' replies := by
  unfold childTerminated at h
  cases hbehavior : w.behavior with
  | suspended =>
    rw [hbehavior] at h
    cases h
  | active childRef =>
    rw [hbehavior] at h
    cases h
  | dying childRef =>
    simp only [hbehavior] at h
    obtain ⟨-, heq⟩ := Option.ite_none_right_eq_some.mp h
    cases heq
    refine .nothing ?_ ?_ rfl (List.Subset.refl _)
    · simp [controls, pending, unstashAll]
    · rw [isActive, isActive, hbehavior]

/-! ### The order of the messages -/

theorem Orderly.of_append_eq (h : Orderly deferrable w)
    (hlist : w'.handled ++ w'.pending = w.handled ++ w.pending) (hsent : w'.sent = w.sent)
    (hactive : w'.isActive → w'.stash = [])
    (hsuspended : w'.behavior = .suspended → ∀ m ∈ w'.stash, m.isDeferred deferrable) :
    Orderly deferrable w' where
  active := hactive
  suspended := hsuspended
  kept := by rw [← List.length_append, hlist, List.length_append, hsent, h.kept]
  deferred := by rw [hlist, hsent, h.deferred]
  others := by rw [hlist, hsent, h.others]

theorem Orderly.of_overtaking (h : Orderly deferrable w) {mailbox : List (Message μ)}
    (hmailbox : w.mailbox = m :: mailbox) (hbehavior : w.behavior = .suspended)
    (hm : m.isDeferred deferrable = false) (hhandled : w'.handled = w.handled ++ [m])
    (hpending : w'.pending = w.stash ++ mailbox) (hsent : w'.sent = w.sent)
    (hactive : w'.isActive → w'.stash = [])
    (hsuspended : w'.behavior = .suspended → ∀ m ∈ w'.stash, m.isDeferred deferrable) :
    Orderly deferrable w' where
  active := hactive
  suspended := hsuspended
  kept := by
    have hkept := h.kept
    rw [pending, hmailbox] at hkept
    rw [hhandled, hpending, hsent, ← hkept]
    simp only [List.length_append, List.length_cons, List.length_nil]
    omega
  deferred := by
    rw [hhandled, hpending, hsent, ← h.deferred, pending, hmailbox]
    simp [hm]
  others := by
    have hstash : w.stash.filter (!·.isDeferred deferrable) = [] := by
      rw [List.filter_eq_nil_iff]
      intro m' hm'
      simp [h.suspended hbehavior m' hm']
    rw [hhandled, hpending, hsent, ← h.others, pending, hmailbox]
    simp only [List.filter_append, List.append_assoc, hstash]
    simp [hm]

theorem Orderly.process (h : Orderly deferrable w)
    (hp : w.process deferrable = some (w', replies)) : Orderly deferrable w' := by
  unfold WhenLeaderActor.process at hp
  cases hmailbox : w.mailbox with
  | nil =>
    rw [hmailbox] at hp
    cases hp
  | cons m mailbox =>
    rw [hmailbox] at hp
    obtain ⟨-, heq⟩ := Option.ite_none_right_eq_some.mp hp
    clear hp
    replace heq := Option.some.inj heq
    unfold receive at heq
    cases hbehavior : w.behavior with
    | suspended =>
      cases m with
      | prepareForStart cycle =>
        simp only [hbehavior] at heq
        cases heq
        exact h.of_overtaking hmailbox hbehavior rfl rfl rfl rfl (fun _ => rfl) nofun
      | stop =>
        simp only [hbehavior] at heq
        cases heq
        exact h.of_overtaking hmailbox hbehavior rfl rfl rfl rfl nofun fun _ => h.suspended hbehavior
      | user u =>
        simp only [hbehavior] at heq
        split_ifs at heq with hdeferrable
        · cases heq
          refine h.of_append_eq ?_ rfl nofun fun _ m hm => ?_
          · simp [pending, stashed, hmailbox]
          · obtain hm | hm := List.mem_append.mp hm
            · exact h.suspended hbehavior m hm
            · rw [List.mem_singleton.mp hm]
              exact hdeferrable
        · cases heq
          refine h.of_overtaking hmailbox hbehavior ?_ rfl rfl rfl nofun fun _ =>
            h.suspended hbehavior
          exact Bool.eq_false_of_not_eq_true hdeferrable
    | active childRef =>
      have hstash := h.active (by rw [isActive, hbehavior])
      cases m with
      | prepareForStart cycle =>
        simp only [hbehavior] at heq
        cases heq
        refine h.of_append_eq ?_ rfl (fun _ => hstash) nofun
        simp [pending, hmailbox, hstash]
      | stop =>
        simp only [hbehavior] at heq
        cases heq
        refine h.of_append_eq ?_ rfl (fun _ => rfl) nofun
        simp [pending, unstashAll, hmailbox, hstash]
      | user u =>
        simp only [hbehavior] at heq
        cases heq
        refine h.of_append_eq ?_ rfl (fun _ => hstash) nofun
        simp [pending, hmailbox, hstash]
    | dying childRef =>
      simp only [hbehavior] at heq
      cases heq
      refine h.of_append_eq ?_ rfl nofun nofun
      simp [pending, stashed, hmailbox]

theorem Orderly.childTerminated (h : Orderly deferrable w)
    (hterminated : w.childTerminated = some (w', replies)) : Orderly deferrable w' := by
  unfold WhenLeaderActor.childTerminated at hterminated
  cases hbehavior : w.behavior with
  | suspended => simp [hbehavior] at hterminated
  | active childRef => simp [hbehavior] at hterminated
  | dying childRef =>
    simp only [hbehavior] at hterminated
    obtain ⟨-, heq⟩ := Option.ite_none_right_eq_some.mp hterminated
    cases heq
    exact h.of_append_eq rfl rfl nofun fun _ m hm => nomatch hm

theorem Orderly.tell (h : Orderly deferrable w) (m : Message μ) : Orderly deferrable (w.tell m) := by
  unfold WhenLeaderActor.tell
  split_ifs
  · have hlist : w.handled ++ (w.stash ++ (w.mailbox ++ [m])) = w.handled ++ w.pending ++ [m] := by
      simp [pending]
    exact {
      active := h.active
      suspended := h.suspended
      kept := by
        have hkept := h.kept
        simp only [pending, List.length_append, List.length_singleton] at hkept ⊢
        omega
      deferred := by
        show (w.handled ++ (w.stash ++ (w.mailbox ++ [m]))).filter _ = _
        rw [hlist, List.filter_append, h.deferred, ← List.filter_append]
      others := by
        show (w.handled ++ (w.stash ++ (w.mailbox ++ [m]))).filter _ = _
        rw [hlist, List.filter_append, h.others, ← List.filter_append] }
  · exact h

theorem alive_process (h : w.process deferrable = some (w', replies)) : w'.alive = w.alive := by
  unfold process at h
  split at h
  · obtain ⟨-, heq⟩ := Option.ite_none_right_eq_some.mp h
    replace heq := congrArg (fun r => r.1.alive) (Option.some.inj heq)
    rw [← heq]
    unfold receive stashed unstashAll
    split <;> (try split_ifs) <;> rfl
  · cases h

theorem alive_childTerminated (h : w.childTerminated = some (w', replies)) : w'.alive = w.alive := by
  unfold childTerminated at h
  split at h
  · obtain ⟨-, heq⟩ := Option.ite_none_right_eq_some.mp h
    cases heq
    rfl
  · cases h

/-! ### What is answered -/

theorem Does.terminated_notMem (h : Does w w' replies) : .terminated ∉ replies := by
  intro hmem
  cases h with
  | nothing _ _ _ hreplies => simpa using hreplies hmem
  | starts _ _ _ _ _ hreplies => simp [hreplies] at hmem
  | confirms _ _ _ _ _ hreplies => simp [hreplies] at hmem
  | stops _ _ _ hreplies => simpa using hreplies hmem

/-- A `PrepareForStart` is not forgotten. -/
theorem Does.answers {cycle : ℕ} (h : Does w w' replies)
    (hmem : .prepareForStart cycle ∈ w.controls) :
    .prepareForStart cycle ∈ w'.controls ∨ .prepared ∈ replies := by
  cases h with
  | nothing hcontrols => exact .inl (hcontrols ▸ hmem)
  | starts _ _ _ _ _ hreplies => exact .inr (by simp [hreplies])
  | confirms _ _ _ _ _ hreplies => exact .inr (by simp [hreplies])
  | stops hcontrols =>
    rw [hcontrols] at hmem
    obtain hmem | hmem := List.mem_cons.mp hmem
    · cases hmem
    · exact .inl hmem

end WhenLeaderActor

/-! ## What every run keeps -/

variable [DecidableEq ι]

variable {c : Coordinator ι} {ackStartRefs : Finset ℕ} {withoutAck : Finset ι} {w : ι}
  {w' : WhenLeaderActor μ} {replies : List Reply} {e : Event ι μ}

namespace Coordinator

/-- Who waits for an answer. -/
def waiting (c : Coordinator ι) : Finset ℕ :=
  match c.behavior with
  | .preparingForStart ackStartRefs _ => ackStartRefs
  | _ => ∅

/-- Every request is answered or waits for its answer, and not twice. -/
def Accounted (c : Coordinator ι) : Prop :=
  (c.answers.map Answer.request ++ c.waiting.sort (· ≤ ·)).Perm (List.range c.requests)

theorem accounted_preparingForStart
    (h : (c.answers.map Answer.request ++ ackStartRefs.sort (· ≤ ·)).Perm (List.range c.requests)) :
    (c.preparingForStart ackStartRefs withoutAck).Accounted := by
  unfold preparingForStart Accounted waiting
  split_ifs
  · simpa [Function.comp_def, Answer.request] using h
  · exact h

theorem whenLeaderActors_preparingForStart (c : Coordinator ι) (ackStartRefs : Finset ℕ)
    (withoutAck : Finset ι) :
    (c.preparingForStart ackStartRefs withoutAck).whenLeaderActors = c.whenLeaderActors := by
  unfold preparingForStart
  split_ifs <;> rfl

theorem of_behavior_preparingForStart {ackStartRefs' : Finset ℕ}
    {withoutAck' : Finset ι}
    (h : (c.preparingForStart ackStartRefs withoutAck).behavior =
      .preparingForStart ackStartRefs' withoutAck') :
    withoutAck.Nonempty ∧ withoutAck' = withoutAck := by
  unfold preparingForStart at h
  split_ifs at h with hempty
  exact ⟨Finset.nonempty_iff_ne_empty.mpr hempty, (CoordinatorBehavior.preparingForStart.inj h).2.symm⟩

omit [DecidableEq ι] in
theorem Accounted.lt_requests (h : c.Accounted) {r : ℕ} (hr : r ∈ c.waiting) : r < c.requests := by
  have hmem : r ∈ c.answers.map Answer.request ++ c.waiting.sort (· ≤ ·) :=
    List.mem_append_right _ ((Finset.mem_sort _).mpr hr)
  exact List.mem_range.mp (h.mem_iff.mp hmem)

omit [DecidableEq ι] in
/-- The next request waits with the others. -/
theorem Accounted.insert (h : c.Accounted) :
    (c.answers.map Answer.request ++ (insert c.requests c.waiting).sort (· ≤ ·)).Perm
      (List.range (c.requests + 1)) := by
  have hnew : c.requests ∉ c.waiting := fun hmem => absurd (h.lt_requests hmem) (Nat.lt_irrefl _)
  have hinsert : ((Insert.insert c.requests c.waiting).sort (· ≤ ·)).Perm
      (c.waiting.sort (· ≤ ·) ++ [c.requests]) :=
    ((Finset.sort_perm_toList _ _).trans (Finset.toList_insert hnew)).trans <|
      (((Finset.sort_perm_toList _ _).symm.cons _).trans (List.perm_append_singleton _ _).symm)
  rw [List.range_succ]
  refine (hinsert.append_left _).trans ?_
  rw [← List.append_assoc]
  exact h.append_right _

end Coordinator

namespace System

/-- The actor is dead, or its answer is on its way or is still to be given. -/
def Owes (s : System ι μ) (w : ι) : Prop :=
  .prepared ∈ s.replies w ∨ .terminated ∈ s.replies w ∨
    (s.actors w).alive ∧ ∃ cycle, .prepareForStart cycle ∈ (s.actors w).controls

structure Consistent (deferrable : μ → Bool) (s : System ι μ) : Prop where
  orderly : ∀ w, (s.actors w).Orderly deferrable
  known : ∀ w, (s.actors w).alive → w ∈ s.coordinator.whenLeaderActors
  terminated : ∀ w, .terminated ∈ s.replies w → (s.actors w).alive = false
  dead : ∀ w ∈ s.coordinator.whenLeaderActors, (s.actors w).alive = false →
    .terminated ∈ s.replies w
  owes : ∀ ackStartRefs withoutAck,
    s.coordinator.behavior = .preparingForStart ackStartRefs withoutAck →
      withoutAck.Nonempty ∧ ∀ w ∈ withoutAck, s.Owes w
  accounted : s.coordinator.Accounted

variable {s s' : System ι μ}

theorem consistent_acted (h : s.Consistent deferrable) (hdoes : (s.actors w).Does w' replies)
    (halive : w'.alive = (s.actors w).alive) (horderly : w'.Orderly deferrable) :
    (s.acted w (w', replies)).Consistent deferrable where
  orderly v := by
    by_cases hv : v = w
    · subst hv
      simpa [acted] using horderly
    · simpa [acted, hv] using h.orderly v
  known v hv := by
    by_cases hvw : v = w
    · subst hvw
      exact h.known v (by simpa [acted, halive] using hv)
    · exact h.known v (by simpa [acted, hvw] using hv)
  terminated v hv := by
    by_cases hvw : v = w
    · subst hvw
      have hold : .terminated ∈ s.replies v := by
        simpa [acted, hdoes.terminated_notMem] using hv
      simpa [acted, halive] using h.terminated v hold
    · simp only [acted, ne_eq, hvw, not_false_eq_true, Function.update_of_ne] at hv ⊢
      exact h.terminated v hv
  dead v hv hdead := by
    by_cases hvw : v = w
    · subst hvw
      have hold := h.dead v hv (by simpa [acted, halive] using hdead)
      simp [acted, hold]
    · simp only [acted, ne_eq, hvw, not_false_eq_true, Function.update_of_ne] at hdead ⊢
      exact h.dead v hv hdead
  owes ackStartRefs withoutAck hbehavior := by
    obtain ⟨hnonempty, howes⟩ := h.owes ackStartRefs withoutAck hbehavior
    refine ⟨hnonempty, fun v hv => ?_⟩
    by_cases hvw : v = w
    · subst hvw
      obtain hprepared | hterminated | ⟨hv', cycle, hcycle⟩ := howes v hv
      · exact .inl (by simp [acted, hprepared])
      · exact .inr (.inl (by simp [acted, hterminated]))
      · obtain hcycle | hprepared := hdoes.answers hcycle
        · exact .inr (.inr ⟨by simpa [acted, halive] using hv', cycle, by simpa [acted] using hcycle⟩)
        · exact .inl (by simp [acted, hprepared])
    · simpa [Owes, acted, hvw] using howes v hv
  accounted := h.accounted

theorem consistent_die (h : s.Consistent deferrable) :
    (s.acted w ({ s.actors w with alive := false }, [.terminated])).Consistent deferrable where
  orderly v := by
    by_cases hv : v = w
    · subst hv
      have hold := h.orderly v
      simpa [acted] using (⟨hold.active, hold.suspended, hold.kept, hold.deferred, hold.others⟩ :
        WhenLeaderActor.Orderly deferrable { s.actors v with alive := false })
    · simpa [acted, hv] using h.orderly v
  known v hv := by
    by_cases hvw : v = w
    · subst hvw
      simp [acted] at hv
    · exact h.known v (by simpa [acted, hvw] using hv)
  terminated v hv := by
    by_cases hvw : v = w
    · subst hvw
      simp [acted]
    · simp only [acted, ne_eq, hvw, not_false_eq_true, Function.update_of_ne] at hv ⊢
      exact h.terminated v hv
  dead v hv hdead := by
    by_cases hvw : v = w
    · subst hvw
      simp [acted]
    · simp only [acted, ne_eq, hvw, not_false_eq_true, Function.update_of_ne] at hdead ⊢
      exact h.dead v hv hdead
  owes ackStartRefs withoutAck hbehavior := by
    obtain ⟨hnonempty, howes⟩ := h.owes ackStartRefs withoutAck hbehavior
    refine ⟨hnonempty, fun v hv => ?_⟩
    by_cases hvw : v = w
    · subst hvw
      exact .inr (.inl (by simp [acted]))
    · simpa [Owes, acted, hvw] using howes v hv
  accounted := h.accounted

/-! ### Messages to all actors -/

theorem alive_tellAll (m : Message μ) (w : ι) : (s.tellAll m w).alive = (s.actors w).alive := by
  unfold tellAll WhenLeaderActor.tell
  split_ifs <;> rfl

theorem orderly_tellAll (h : (s.actors w).Orderly deferrable) (m : Message μ) :
    (s.tellAll m w).Orderly deferrable := by
  unfold tellAll
  split_ifs
  · exact h.tell m
  · exact h

theorem controls_tellAll {m : Message μ} (hw : w ∈ s.coordinator.whenLeaderActors)
    (halive : (s.actors w).alive) (hm : m.isControl) :
    (s.tellAll m w).controls = (s.actors w).controls ++ [m] := by
  unfold tellAll
  rw [if_pos hw, WhenLeaderActor.controls_tell halive hm]

/-! ### Requests -/

theorem prepareForStart_of_suspended (h : s.coordinator.behavior = .suspended) :
    s.prepareForStart =
      { s with
        coordinator :=
          { s.coordinator with
            requests := s.coordinator.requests + 1
            cycle := s.coordinator.cycle + 1 }.preparingForStart {s.coordinator.requests}
              s.coordinator.whenLeaderActors
        actors := s.tellAll (.prepareForStart (s.coordinator.cycle + 1)) } := by
  simp only [prepareForStart, h]

theorem prepareForStart_of_preparing
    (h : s.coordinator.behavior = .preparingForStart ackStartRefs withoutAck) :
    s.prepareForStart =
      { s with
        coordinator :=
          { s.coordinator with requests := s.coordinator.requests + 1 }.preparingForStart
            (insert s.coordinator.requests ackStartRefs) withoutAck } := by
  simp only [prepareForStart, h]

theorem prepareForStart_of_active (h : s.coordinator.behavior = .active) :
    s.prepareForStart =
      { s with
        coordinator :=
          { s.coordinator with
            requests := s.coordinator.requests + 1
            answers := s.coordinator.answers ++ [.prepared s.coordinator.requests] } } := by
  simp only [prepareForStart, h]

/-- The coordinator goes to a behavior in which it waits for those who owe it an answer. -/
theorem Consistent.tellAll (h : s.Consistent deferrable) {m : Message μ}
    (hsame : c.whenLeaderActors = s.coordinator.whenLeaderActors) (haccounted : c.Accounted)
    (howes : ∀ ackStartRefs withoutAck, c.behavior = .preparingForStart ackStartRefs withoutAck →
      withoutAck.Nonempty ∧
        ∀ w ∈ withoutAck, Owes { s with coordinator := c, actors := s.tellAll m } w) :
    Consistent deferrable { s with coordinator := c, actors := s.tellAll m } where
  orderly w := orderly_tellAll (h.orderly w) m
  known w hw := hsame ▸ h.known w (alive_tellAll (s := s) m w ▸ hw)
  terminated w hw := (alive_tellAll m w).trans (h.terminated w hw)
  dead w hw hdead := h.dead w (hsame ▸ hw) (alive_tellAll (s := s) m w ▸ hdead)
  owes := howes
  accounted := haccounted

omit [DecidableEq ι] in
theorem Consistent.of_coordinator (h : s.Consistent deferrable)
    (hsame : c.whenLeaderActors = s.coordinator.whenLeaderActors) (haccounted : c.Accounted)
    (howes : ∀ ackStartRefs withoutAck, c.behavior = .preparingForStart ackStartRefs withoutAck →
      withoutAck.Nonempty ∧ ∀ w ∈ withoutAck, s.Owes w) :
    Consistent deferrable { s with coordinator := c } where
  orderly := h.orderly
  known w hw := hsame ▸ h.known w hw
  terminated := h.terminated
  dead w hw := h.dead w (hsame ▸ hw)
  owes := howes
  accounted := haccounted

theorem consistent_prepareForStart (h : s.Consistent deferrable) :
    s.prepareForStart.Consistent deferrable := by
  have hinsert := h.accounted.insert
  unfold Coordinator.waiting at hinsert
  cases hbehavior : s.coordinator.behavior with
  | suspended =>
    rw [prepareForStart_of_suspended hbehavior]
    rw [hbehavior] at hinsert
    refine h.tellAll (Coordinator.whenLeaderActors_preparingForStart _ _ _)
      (Coordinator.accounted_preparingForStart hinsert) fun ackStartRefs withoutAck hprepares => ?_
    obtain ⟨hnonempty, rfl⟩ := Coordinator.of_behavior_preparingForStart hprepares
    refine ⟨hnonempty, fun w hw => ?_⟩
    cases halive : (s.actors w).alive with
    | true =>
      refine .inr (.inr ⟨(alive_tellAll _ w).trans halive, s.coordinator.cycle + 1, ?_⟩)
      show _ ∈ (s.tellAll _ w).controls
      rw [controls_tellAll hw halive rfl]
      exact List.mem_append_right _ (List.mem_singleton_self _)
    | false => exact .inr (.inl (h.dead w hw halive))
  | preparingForStart ackStartRefs withoutAck =>
    rw [prepareForStart_of_preparing hbehavior]
    rw [hbehavior] at hinsert
    refine h.of_coordinator (Coordinator.whenLeaderActors_preparingForStart _ _ _)
      (Coordinator.accounted_preparingForStart hinsert) fun ackStartRefs' withoutAck' hprepares => ?_
    obtain ⟨-, rfl⟩ := Coordinator.of_behavior_preparingForStart hprepares
    exact h.owes _ _ hbehavior
  | active =>
    rw [prepareForStart_of_active hbehavior]
    rw [hbehavior] at hinsert
    refine h.of_coordinator rfl ?_ fun ackStartRefs withoutAck hprepares => ?_
    · unfold Coordinator.Accounted Coordinator.waiting
      simpa [hbehavior, Answer.request] using hinsert
    · cases hbehavior.symm.trans hprepares

theorem consistent_stop (h : s.Consistent deferrable) : s.stop.Consistent deferrable := by
  have haccounted := h.accounted
  unfold Coordinator.Accounted Coordinator.waiting at haccounted
  unfold stop
  cases hbehavior : s.coordinator.behavior with
  | suspended => exact h
  | preparingForStart ackStartRefs withoutAck =>
    rw [hbehavior] at haccounted
    refine h.tellAll rfl ?_ nofun
    unfold Coordinator.Accounted Coordinator.waiting
    simpa [Function.comp_def, Answer.request] using haccounted
  | active =>
    rw [hbehavior] at haccounted
    exact h.tellAll rfl haccounted nofun

/-! ### Replies -/

/-- The next reply of `w` has arrived. -/
def arrived (s : System ι μ) (w : ι) (reply : Reply) (replies : List Reply) : System ι μ :=
  { s with
    coordinator := s.coordinator.receive w reply
    replies := Function.update s.replies w replies }

variable {w v : ι} {reply : Reply} {replies : List Reply}

theorem mem_replies_of_arrived (hreplies : s.replies w = reply :: replies) {r : Reply}
    (h : r ∈ (s.arrived w reply replies).replies v) : r ∈ s.replies v := by
  by_cases hv : v = w
  · subst hv
    rw [hreplies]
    exact List.mem_cons_of_mem _ (by simpa [arrived] using h)
  · simpa [arrived, hv] using h

theorem mem_replies_arrived (hreplies : s.replies w = reply :: replies) {r : Reply}
    (h : r ∈ s.replies v) (hne : v = w → r ≠ reply) :
    r ∈ (s.arrived w reply replies).replies v := by
  by_cases hv : v = w
  · subst hv
    rw [hreplies] at h
    simpa [arrived] using (List.mem_cons.mp h).resolve_left (hne rfl)
  · simpa [arrived, hv] using h

theorem owes_arrived (hv : v ≠ w) : (s.arrived w reply replies).Owes v ↔ s.Owes v := by
  simp [Owes, arrived, hv]

theorem whenLeaderActors_receive (c : Coordinator ι) :
    (c.receive w reply).whenLeaderActors =
      if reply = .terminated then c.whenLeaderActors.erase w else c.whenLeaderActors := by
  unfold Coordinator.receive
  cases reply with
  | prepared =>
    cases c.behavior with
    | preparingForStart => exact Coordinator.whenLeaderActors_preparingForStart _ _ _
    | _ => rfl
  | stopped => cases c.behavior <;> rfl
  | terminated =>
    cases c.behavior with
    | preparingForStart => exact Coordinator.whenLeaderActors_preparingForStart _ _ _
    | _ => rfl

theorem consistent_arrived (h : s.Consistent deferrable) (hreplies : s.replies w = reply :: replies) :
    (s.arrived w reply replies).Consistent deferrable where
  orderly := h.orderly
  known v hv := by
    show v ∈ (s.coordinator.receive w reply).whenLeaderActors
    rw [whenLeaderActors_receive]
    split_ifs with hterminated
    · refine Finset.mem_erase.mpr ⟨?_, h.known v hv⟩
      rintro rfl
      have hdead := h.terminated v (by rw [hreplies, hterminated]; exact List.mem_cons_self)
      rw [show (s.actors v).alive = true from hv] at hdead
      cases hdead
    · exact h.known v hv
  terminated v hv := h.terminated v (mem_replies_of_arrived hreplies hv)
  dead v hv hdead := by
    replace hv : v ∈ (s.coordinator.receive w reply).whenLeaderActors := hv
    rw [whenLeaderActors_receive] at hv
    split_ifs at hv with hterminated
    · rw [Finset.mem_erase] at hv
      exact mem_replies_arrived hreplies (h.dead v hv.2 hdead) fun heq => absurd heq hv.1
    · exact mem_replies_arrived hreplies (h.dead v hv hdead) fun _ heq => hterminated heq.symm
  owes ackStartRefs' withoutAck' hbehavior' := by
    replace hbehavior' : (s.coordinator.receive w reply).behavior =
      .preparingForStart ackStartRefs' withoutAck' := hbehavior'
    unfold Coordinator.receive at hbehavior'
    cases hbehavior : s.coordinator.behavior with
    | suspended => cases reply <;> simp [hbehavior] at hbehavior'
    | active => cases reply <;> simp [hbehavior] at hbehavior'
    | preparingForStart ackStartRefs withoutAck =>
      have howes := h.owes _ _ hbehavior
      have herased : ∀ v ∈ withoutAck.erase w, (s.arrived w reply replies).Owes v := by
        intro v hv
        rw [Finset.mem_erase] at hv
        exact (owes_arrived hv.1).mpr (howes.2 v hv.2)
      cases reply with
      | prepared =>
        simp only [hbehavior] at hbehavior'
        obtain ⟨hnonempty, rfl⟩ := Coordinator.of_behavior_preparingForStart hbehavior'
        exact ⟨hnonempty, herased⟩
      | terminated =>
        simp only [hbehavior] at hbehavior'
        obtain ⟨hnonempty, rfl⟩ := Coordinator.of_behavior_preparingForStart hbehavior'
        exact ⟨hnonempty, herased⟩
      | stopped =>
        simp only [hbehavior] at hbehavior'
        cases hbehavior'
        refine ⟨howes.1, fun v hv => ?_⟩
        obtain hprepared | hterminated | halive := howes.2 v hv
        · exact .inl (mem_replies_arrived hreplies hprepared fun _ => nofun)
        · exact .inr (.inl (mem_replies_arrived hreplies hterminated fun _ => nofun))
        · exact .inr (.inr halive)
  accounted := by
    have haccounted := h.accounted
    show (s.coordinator.receive w reply).Accounted
    unfold Coordinator.receive
    cases hbehavior : s.coordinator.behavior with
    | suspended =>
      unfold Coordinator.Accounted Coordinator.waiting at haccounted ⊢
      cases reply <;> simpa [hbehavior] using haccounted
    | active =>
      unfold Coordinator.Accounted Coordinator.waiting at haccounted ⊢
      cases reply <;> simpa [hbehavior] using haccounted
    | preparingForStart ackStartRefs withoutAck =>
      unfold Coordinator.Accounted Coordinator.waiting at haccounted
      rw [hbehavior] at haccounted
      cases reply with
      | prepared => exact Coordinator.accounted_preparingForStart haccounted
      | terminated => exact Coordinator.accounted_preparingForStart haccounted
      | stopped => exact h.accounted

theorem consistent_step (h : s.Consistent deferrable)
    (hs : s.step deferrable e = some s') : s'.Consistent deferrable := by
  cases e with
  | prepareForStart =>
    cases hs
    exact consistent_prepareForStart h
  | stop =>
    cases hs
    exact consistent_stop h
  | reply w =>
    rw [step] at hs
    cases hreplies : s.replies w with
    | nil =>
      rw [hreplies] at hs
      cases hs
    | cons reply replies =>
      rw [hreplies] at hs
      cases hs
      exact consistent_arrived h hreplies
  | tell w m =>
    cases hs
    refine consistent_acted h (.nothing (WhenLeaderActor.controls_tell_user m) ?_ ?_ (List.nil_subset _))
      ?_ ((h.orderly w).tell _)
    all_goals
      unfold WhenLeaderActor.tell
      split_ifs <;> rfl
  | process w =>
    obtain ⟨⟨w', replies⟩, hprocess, rfl⟩ := Option.map_eq_some_iff.mp hs
    exact consistent_acted h (WhenLeaderActor.does_process (h.orderly w) hprocess)
      (WhenLeaderActor.alive_process hprocess) ((h.orderly w).process hprocess)
  | childTerminated w =>
    obtain ⟨⟨w', replies⟩, hterminated, rfl⟩ := Option.map_eq_some_iff.mp hs
    exact consistent_acted h (WhenLeaderActor.does_childTerminated hterminated)
      (WhenLeaderActor.alive_childTerminated hterminated) ((h.orderly w).childTerminated hterminated)
  | die w =>
    obtain ⟨-, heq⟩ := Option.ite_none_right_eq_some.mp hs
    cases heq
    exact consistent_die h

end System

/-! ## Preparation without outstanding answers -/

namespace WhenLeaderActor

variable {w w' : WhenLeaderActor μ} {replies : List Reply} {cycle : ℕ}

/-- Whether there will be a child when the messages are handled. -/
def lands (active : Bool) : List (Message μ) → Bool
  | [] => active
  | .prepareForStart _ :: messages => lands true messages
  | .stop :: messages => lands false messages
  | .user _ :: messages => lands active messages

theorem lands_append_stop (active : Bool) (messages : List (Message μ)) :
    lands active (messages ++ [.stop]) = false := by
  induction messages generalizing active with
  | nil => rfl
  | cons m messages ih => cases m <;> exact ih _

theorem Does.lands_eq (h : Does w w' replies) :
    lands w'.isActive w'.controls = lands w.isActive w.controls := by
  cases h with
  | nothing hcontrols hactive => rw [hcontrols, hactive]
  | starts cycle hcontrols _ hactive => rw [hcontrols, hactive, lands]
  | confirms cycle hcontrols _ hactive => rw [hcontrols, hactive, lands]
  | stops hcontrols hidle => rw [hcontrols, hidle, lands]

/-- The child for the last `PrepareForStart` has not been started, and no other is to be told of. -/
def Awaits (cycle : ℕ) (w : WhenLeaderActor μ) : Prop :=
  ∃ stops, w.controls = List.replicate stops .stop ++ [.prepareForStart cycle] ∧
    (w.isActive → 0 < stops)

def Started (cycle : ℕ) (w : WhenLeaderActor μ) : Prop :=
  w.controls = [] ∧ w.isActive ∧ w.startedFor = some cycle

theorem awaits_of_lands (hnone : ∀ cycle, .prepareForStart cycle ∉ w.controls)
    (hlands : lands w.isActive w.controls = false)
    (hcontrols : w'.controls = w.controls ++ [.prepareForStart cycle])
    (hactive : w'.isActive = w.isActive) : Awaits cycle w' := by
  have hstops : w.controls = List.replicate w.controls.length .stop := by
    refine List.eq_replicate_of_mem fun m hm => ?_
    have hcontrol : m.isControl := (List.mem_filter.mp hm).2
    cases m with
    | prepareForStart cycle => exact absurd hm (hnone cycle)
    | stop => rfl
    | user u => cases hcontrol
  refine ⟨w.controls.length, by rw [hcontrols, ← hstops], fun h => ?_⟩
  rw [hactive] at h
  by_contra hzero
  rw [List.length_eq_zero_iff.mp (Nat.eq_zero_of_not_pos hzero), lands, h] at hlands
  cases hlands

theorem Does.awaits (hdoes : Does w w' replies) (h : Awaits cycle w) :
    (Awaits cycle w' ∧ .prepared ∉ replies) ∨ Started cycle w' := by
  obtain ⟨stops, hcontrols, hpos⟩ := h
  cases hdoes with
  | nothing hsame hactive _ hreplies =>
    refine .inl ⟨⟨stops, hsame.trans hcontrols, fun h => hpos (hactive ▸ h)⟩, fun hmem => ?_⟩
    simpa using hreplies hmem
  | starts cycle' hhead hidle hactive hfor hreplies =>
    cases stops with
    | zero =>
      obtain ⟨hcycle, hrest⟩ := List.cons.inj (hhead.symm.trans hcontrols)
      cases hcycle
      exact .inr ⟨hrest, hactive, hfor⟩
    | succ stops => cases (List.cons.inj (hhead.symm.trans hcontrols)).1
  | confirms cycle' hhead hactive =>
    cases stops with
    | zero => exact absurd (hpos hactive) (Nat.lt_irrefl 0)
    | succ stops => cases (List.cons.inj (hhead.symm.trans hcontrols)).1
  | stops hhead hidle _ hreplies =>
    cases stops with
    | zero => cases (List.cons.inj (hhead.symm.trans hcontrols)).1
    | succ stops =>
      refine .inl ⟨⟨stops, (List.cons.inj (hhead.symm.trans hcontrols)).2, fun h => ?_⟩, fun hmem => ?_⟩
      · rw [hidle] at h
        cases h
      · simpa using hreplies hmem

theorem Does.started (hdoes : Does w w' replies) (h : Started cycle w) : Started cycle w' := by
  obtain ⟨hcontrols, hactive, hfor⟩ := h
  cases hdoes with
  | nothing hsame hsameActive hsameFor =>
    exact ⟨hsame.trans hcontrols, hsameActive.trans hactive, hsameFor.trans hfor⟩
  | starts _ hhead => cases hhead.symm.trans hcontrols
  | confirms _ hhead => cases hhead.symm.trans hcontrols
  | stops hhead => cases hhead.symm.trans hcontrols

end WhenLeaderActor

namespace System

open WhenLeaderActor (Awaits Started lands)

/-- No answer to an earlier `PrepareForStart` is outstanding when the next one is sent. -/
def Acknowledged (s : System ι μ) : Event ι μ → Prop
  | .prepareForStart => s.coordinator.behavior = .suspended → ∀ w, (s.actors w).alive →
      .prepared ∉ s.replies w ∧ ∀ cycle, .prepareForStart cycle ∉ (s.actors w).controls
  | _ => True

/-- Where an actor stands with the last `PrepareForStart`, while no earlier one interferes. -/
def InCycle (s : System ι μ) (w : ι) : Prop :=
  match s.coordinator.behavior with
  | .suspended => lands (s.actors w).isActive (s.actors w).controls = false
  | .preparingForStart _ withoutAck =>
    (Awaits s.coordinator.cycle (s.actors w) ∧ .prepared ∉ s.replies w ∧ w ∈ withoutAck) ∨
      Started s.coordinator.cycle (s.actors w)
  | .active => Started s.coordinator.cycle (s.actors w)

/-- All actors that live are in the cycle of the coordinator. -/
def AllInCycle (s : System ι μ) : Prop := ∀ w, (s.actors w).alive → s.InCycle w

variable {s s' : System ι μ}

theorem allInCycle_acted (h : s.AllInCycle)
    (hdoes : (s.actors w).Does w' replies) (halive : w'.alive = (s.actors w).alive) :
    (s.acted w (w', replies)).AllInCycle := by
  intro v hv
  by_cases hvw : v = w
  · subst hvw
    have hold := h v (by simpa [acted, halive] using hv)
    unfold InCycle at hold ⊢
    cases hbehavior : s.coordinator.behavior with
    | suspended =>
      rw [hbehavior] at hold
      simpa [acted, hbehavior, hdoes.lands_eq] using hold
    | preparingForStart ackStartRefs withoutAck =>
      rw [hbehavior] at hold
      obtain ⟨hawaits, hprepared, hmem⟩ | hstarted := hold
      · obtain ⟨hawaits', hprepared'⟩ | hstarted := hdoes.awaits hawaits
        · simpa [acted, hbehavior] using .inl ⟨hawaits', ⟨hprepared, hprepared'⟩, hmem⟩
        · simpa [acted, hbehavior] using .inr hstarted
      · simpa [acted, hbehavior] using .inr (hdoes.started hstarted)
    | active =>
      rw [hbehavior] at hold
      simpa [acted, hbehavior] using hdoes.started hold
  · simpa [InCycle, acted, hvw] using h v (by simpa [acted, hvw] using hv)

theorem allInCycle_die (h : s.AllInCycle) :
    (s.acted w ({ s.actors w with alive := false }, [.terminated])).AllInCycle := by
  intro v hv
  by_cases hvw : v = w
  · subst hvw
    simp [acted] at hv
  · simpa [InCycle, acted, hvw] using h v (by simpa [acted, hvw] using hv)

theorem isActive_tellAll (m : Message μ) (w : ι) :
    (s.tellAll m w).isActive = (s.actors w).isActive := by
  unfold tellAll WhenLeaderActor.tell
  split_ifs <;> rfl

theorem allInCycle_stop (hconsistent : s.Consistent deferrable) (h : s.AllInCycle) :
    s.stop.AllInCycle := by
  have hstopped : ∀ w, (s.actors w).alive →
      lands (s.tellAll .stop w).isActive (s.tellAll .stop w).controls = false := by
    intro w hw
    rw [controls_tellAll (hconsistent.known w hw) hw rfl]
    exact WhenLeaderActor.lands_append_stop _ _
  unfold stop
  cases hbehavior : s.coordinator.behavior with
  | suspended => exact h
  | preparingForStart ackStartRefs withoutAck =>
    exact fun w hw => hstopped w (alive_tellAll (s := s) .stop w ▸ hw)
  | active => exact fun w hw => hstopped w (alive_tellAll (s := s) .stop w ▸ hw)

theorem allInCycle_prepareForStart (hconsistent : s.Consistent deferrable) (h : s.AllInCycle)
    (hok : s.Acknowledged .prepareForStart) : s.prepareForStart.AllInCycle := by
  cases hbehavior : s.coordinator.behavior with
  | suspended =>
    rw [prepareForStart_of_suspended hbehavior]
    intro w hw
    replace hw : (s.actors w).alive := alive_tellAll (s := s) _ w ▸ hw
    have hknown := hconsistent.known w hw
    have hold := h w hw
    obtain ⟨hprepared, hnone⟩ := hok hbehavior w hw
    rw [InCycle, hbehavior] at hold
    have hawaits := WhenLeaderActor.awaits_of_lands hnone hold
      (controls_tellAll (m := .prepareForStart (s.coordinator.cycle + 1)) hknown hw rfl)
      (isActive_tellAll _ w)
    have hne : s.coordinator.whenLeaderActors ≠ ∅ := Finset.ne_empty_of_mem hknown
    unfold InCycle Coordinator.preparingForStart
    simp only [if_neg hne]
    exact .inl ⟨hawaits, hprepared, hknown⟩
  | preparingForStart ackStartRefs withoutAck =>
    rw [prepareForStart_of_preparing hbehavior]
    intro w hw
    have hold := h w hw
    rw [InCycle, hbehavior] at hold
    have hne := (hconsistent.owes _ _ hbehavior).1.ne_empty
    unfold InCycle Coordinator.preparingForStart
    simp only [if_neg hne]
    exact hold
  | active =>
    rw [prepareForStart_of_active hbehavior]
    intro w hw
    have hold := h w hw
    rw [InCycle, hbehavior] at hold
    unfold InCycle
    simp only [hbehavior]
    exact hold

theorem inCycle_preparingForStart {v : ι}
    {replies : ι → List Reply} (hcycle : c.cycle = s.coordinator.cycle)
    (h : (Awaits s.coordinator.cycle (s.actors v) ∧ .prepared ∉ replies v ∧ v ∈ withoutAck) ∨
      Started s.coordinator.cycle (s.actors v)) :
    InCycle
      { s with coordinator := c.preparingForStart ackStartRefs withoutAck, replies := replies } v := by
  unfold InCycle Coordinator.preparingForStart
  obtain ⟨hawaits, hprepared, hmem⟩ | hstarted := h
  · simp only [if_neg (Finset.ne_empty_of_mem hmem), hcycle]
    exact .inl ⟨hawaits, hprepared, hmem⟩
  · split_ifs
    · simpa [hcycle] using hstarted
    · simpa [hcycle] using .inr hstarted

theorem allInCycle_arrived (hconsistent : s.Consistent deferrable) (h : s.AllInCycle)
    {reply : Reply} (hreplies : s.replies w = reply :: replies) :
    (s.arrived w reply replies).AllInCycle := by
  intro v hv
  have hold := h v hv
  unfold InCycle at hold
  cases hbehavior : s.coordinator.behavior with
  | suspended =>
    rw [hbehavior] at hold
    cases reply <;> simpa [InCycle, arrived, Coordinator.receive, hbehavior] using hold
  | active =>
    rw [hbehavior] at hold
    cases reply <;> simpa [InCycle, arrived, Coordinator.receive, hbehavior] using hold
  | preparingForStart ackStartRefs withoutAck =>
    rw [hbehavior] at hold
    have hstill : .prepared ∉ s.replies v →
        .prepared ∉ (Function.update s.replies w replies) v := fun hnot hmem =>
      hnot (mem_replies_of_arrived hreplies hmem)
    -- who awaits the start has not answered, and who lives has not died
    have herased : (reply = .prepared ∨ reply = .terminated) → .prepared ∉ s.replies v → v ≠ w := by
      rintro (rfl | rfl) hnot rfl
      · exact hnot (by rw [hreplies]; exact List.mem_cons_self)
      · have hdead := hconsistent.terminated v (by rw [hreplies]; exact List.mem_cons_self)
        rw [show (s.actors v).alive = true from hv] at hdead
        cases hdead
    cases reply with
    | prepared =>
      simp only [arrived, Coordinator.receive, hbehavior]
      refine inCycle_preparingForStart rfl (hold.imp_left fun hold => ?_)
      exact ⟨hold.1, hstill hold.2.1, Finset.mem_erase.mpr ⟨herased (.inl rfl) hold.2.1, hold.2.2⟩⟩
    | terminated =>
      simp only [arrived, Coordinator.receive, hbehavior]
      refine inCycle_preparingForStart rfl (hold.imp_left fun hold => ?_)
      exact ⟨hold.1, hstill hold.2.1, Finset.mem_erase.mpr ⟨herased (.inr rfl) hold.2.1, hold.2.2⟩⟩
    | stopped =>
      simp only [InCycle, arrived, Coordinator.receive, hbehavior]
      exact hold.imp_left fun hold => ⟨hold.1, hstill hold.2.1, hold.2.2⟩

theorem allInCycle_step (hconsistent : s.Consistent deferrable) (h : s.AllInCycle)
    (hok : s.Acknowledged e) (hs : s.step deferrable e = some s') : s'.AllInCycle := by
  cases e with
  | prepareForStart =>
    cases hs
    exact allInCycle_prepareForStart hconsistent h hok
  | stop =>
    cases hs
    exact allInCycle_stop hconsistent h
  | reply w =>
    rw [step] at hs
    cases hreplies : s.replies w with
    | nil =>
      rw [hreplies] at hs
      cases hs
    | cons reply replies =>
      rw [hreplies] at hs
      cases hs
      exact allInCycle_arrived hconsistent h hreplies
  | tell w m =>
    cases hs
    refine allInCycle_acted h
      (.nothing (WhenLeaderActor.controls_tell_user m) ?_ ?_ (List.nil_subset _)) ?_
    all_goals
      unfold WhenLeaderActor.tell
      split_ifs <;> rfl
  | process w =>
    obtain ⟨⟨w', replies⟩, hprocess, rfl⟩ := Option.map_eq_some_iff.mp hs
    exact allInCycle_acted h (WhenLeaderActor.does_process (hconsistent.orderly w) hprocess)
      (WhenLeaderActor.alive_process hprocess)
  | childTerminated w =>
    obtain ⟨⟨w', replies⟩, hterminated, rfl⟩ := Option.map_eq_some_iff.mp hs
    exact allInCycle_acted h (WhenLeaderActor.does_childTerminated hterminated)
      (WhenLeaderActor.alive_childTerminated hterminated)
  | die w =>
    obtain ⟨-, heq⟩ := Option.ite_none_right_eq_some.mp hs
    cases heq
    exact allInCycle_die h

/-! ## Runs -/

theorem consistent_of_init (h : (leadership deferrable).Init s) : s.Consistent deferrable := by
  obtain ⟨whenLeaderActors, rfl⟩ := h
  exact {
    orderly := fun w => ⟨fun _ => rfl, fun _ => nofun, rfl, rfl, rfl⟩
    known := fun w hw => of_decide_eq_true hw
    terminated := fun w hw => nomatch hw
    dead := fun w hw hdead => absurd hw (of_decide_eq_false hdead)
    owes := nofun
    accounted := by simp [Coordinator.Accounted, Coordinator.waiting] }

theorem allInCycle_of_init (h : (leadership deferrable).Init s) : s.AllInCycle := by
  obtain ⟨whenLeaderActors, rfl⟩ := h
  exact fun w _ => rfl

theorem consistent_of_reachable (h : (leadership deferrable).ReachableIf Acknowledged s) :
    s.Consistent deferrable :=
  Machine.ReachableIf.invariant (I := Consistent deferrable) (fun _ => consistent_of_init)
    (fun _ _ _ hI _ hs => consistent_step hI hs) h

theorem allInCycle_of_reachable (h : (leadership deferrable).ReachableIf Acknowledged s) :
    s.AllInCycle :=
  Machine.ReachableIf.invariant_of (fun _ => consistent_of_reachable)
    (fun _ => allInCycle_of_init) (fun _ _ _ => allInCycle_step) h

/-! ### Who is told that the coordinator is prepared -/

/-- Every actor that lives has started a child for the last `PrepareForStart`. After it the
coordinator has sent no `Stop`, when it is active. -/
def AllStarted (s : System ι μ) : Prop :=
  ∀ w, (s.actors w).alive → (s.actors w).startedFor = some s.coordinator.cycle

/-- The coordinator has answered a request with `Prepared`. -/
def AnswersPrepared (s s' : System ι μ) : Prop :=
  ∃ request, .prepared request ∈ s'.coordinator.answers ∧
    .prepared request ∉ s.coordinator.answers

theorem active_of_preparingForStart {answer : Answer}
    (hnew : answer ∈ (c.preparingForStart ackStartRefs withoutAck).answers)
    (hold : answer ∉ c.answers) :
    (c.preparingForStart ackStartRefs withoutAck).behavior = .active := by
  unfold Coordinator.preparingForStart at hnew ⊢
  split_ifs at hnew ⊢
  · rfl
  · exact absurd hnew hold

/-- The coordinator is active when it says that it is prepared. -/
theorem AnswersPrepared.active (h : s.AnswersPrepared s')
    (hs : s.step deferrable e = some s') : s'.coordinator.behavior = .active := by
  obtain ⟨request, hnew, hold⟩ := h
  cases e with
  | prepareForStart =>
    cases hs
    cases hbehavior : s.coordinator.behavior with
    | suspended =>
      rw [prepareForStart_of_suspended hbehavior] at hnew ⊢
      exact active_of_preparingForStart hnew hold
    | preparingForStart ackStartRefs withoutAck =>
      rw [prepareForStart_of_preparing hbehavior] at hnew ⊢
      exact active_of_preparingForStart hnew hold
    | active =>
      rw [prepareForStart_of_active hbehavior]
      exact hbehavior
  | stop =>
    cases hs
    unfold stop at hnew
    cases hbehavior : s.coordinator.behavior with
    | suspended => exact absurd (by simpa [hbehavior] using hnew) hold
    | preparingForStart ackStartRefs withoutAck => exact absurd (by simpa [hbehavior] using hnew) hold
    | active => exact absurd (by simpa [hbehavior] using hnew) hold
  | reply w =>
    rw [step] at hs
    cases hreplies : s.replies w with
    | nil =>
      rw [hreplies] at hs
      cases hs
    | cons reply replies =>
      rw [hreplies] at hs
      cases hs
      cases hbehavior : s.coordinator.behavior with
      | suspended =>
        refine absurd ?_ hold
        cases reply <;> simpa [Coordinator.receive, hbehavior] using hnew
      | active =>
        refine absurd ?_ hold
        cases reply <;> simpa [Coordinator.receive, hbehavior] using hnew
      | preparingForStart ackStartRefs withoutAck =>
        cases reply with
        | prepared =>
          simp only [Coordinator.receive, hbehavior] at hnew ⊢
          exact active_of_preparingForStart hnew hold
        | terminated =>
          simp only [Coordinator.receive, hbehavior] at hnew ⊢
          exact active_of_preparingForStart hnew hold
        | stopped => exact absurd hnew hold
  | tell w m =>
    cases hs
    exact absurd hnew hold
  | process w =>
    obtain ⟨_, -, rfl⟩ := Option.map_eq_some_iff.mp hs
    exact absurd hnew hold
  | childTerminated w =>
    obtain ⟨_, -, rfl⟩ := Option.map_eq_some_iff.mp hs
    exact absurd hnew hold
  | die w =>
    obtain ⟨-, heq⟩ := Option.ite_none_right_eq_some.mp hs
    cases heq
    exact absurd hnew hold

omit [DecidableEq ι] in
theorem AllInCycle.allStarted (h : s.AllInCycle) (hactive : s.coordinator.behavior = .active) :
    s.AllStarted := by
  intro w hw
  have hin := h w hw
  rw [InCycle, hactive] at hin
  exact hin.2.2

/-- Whoever is told that the coordinator is prepared may count on the actors; no request is answered
twice, and all are when no actor owes an answer; and messages are handled in the order in which they
were sent, among those that wait for a child and among the others. -/
structure KeepsPromises (deferrable : μ → Bool) (s : System ι μ) : Prop where
  prepared : ∀ e s', s.Acknowledged e → s.step deferrable e = some s' → s.AnswersPrepared s' →
    s'.AllStarted
  once : (s.coordinator.answers.map Answer.request).Nodup
  asked : ∀ answer ∈ s.coordinator.answers, answer.request < s.coordinator.requests
  answered : (∀ w, ¬ s.Owes w) →
    ∀ request < s.coordinator.requests, ∃ answer ∈ s.coordinator.answers, answer.request = request
  orderly : ∀ w, (s.actors w).Orderly deferrable

omit [DecidableEq ι] in
theorem Consistent.waiting_eq_empty (h : s.Consistent deferrable) (howes : ∀ w, ¬ s.Owes w) :
    s.coordinator.waiting = ∅ := by
  unfold Coordinator.waiting
  cases hbehavior : s.coordinator.behavior with
  | suspended => rfl
  | active => rfl
  | preparingForStart ackStartRefs withoutAck =>
    obtain ⟨⟨w, hw⟩, hall⟩ := h.owes _ _ hbehavior
    exact absurd (hall w hw) (howes w)

theorem keepsPromises_of_acknowledged
    (h : (leadership deferrable).ReachableIf Acknowledged s) : s.KeepsPromises deferrable := by
  have hconsistent := consistent_of_reachable h
  have haccounted := hconsistent.accounted
  unfold Coordinator.Accounted at haccounted
  exact {
    prepared := fun e s' hok hs hanswers =>
      (allInCycle_of_reachable (.step h hok hs)).allStarted (hanswers.active hs)
    once := (haccounted.nodup_iff.mpr List.nodup_range).of_append_left
    asked := fun answer hanswer =>
      List.mem_range.mp (haccounted.mem_iff.mp
        (List.mem_append_left _ (List.mem_map_of_mem hanswer)))
    answered := fun howes request hrequest => by
      rw [hconsistent.waiting_eq_empty howes, Finset.sort_empty, List.append_nil] at haccounted
      exact List.mem_map.mp (haccounted.mem_iff.mpr (List.mem_range.mpr hrequest))
    orderly := hconsistent.orderly }

/-! ### A late answer -/

namespace Late

/-- The answer to the first of two `PrepareForStart` arrives after the second. -/
def events : List (Event Unit Unit) := [.prepareForStart, .process (), .stop, .prepareForStart]

def start : System Unit Unit where
  coordinator := ⟨{()}, .suspended, 0, 0, []⟩
  actors := fun _ => { WhenLeaderActor.new with alive := decide (() ∈ ({()} : Finset Unit)) }
  replies := fun _ => []

theorem init_start : (leadership fun _ : Unit => true).Init start := ⟨{()}, rfl⟩

theorem keepsPromises_prepared : ∃ s : System Unit Unit,
    s.coordinator.answers = [.prepared 0] ∧ s.KeepsPromises fun _ => true := by
  have hok : start.Acknowledged .prepareForStart := fun _ _ _ => ⟨nofun, fun _ => nofun⟩
  have hasked := Machine.ReachableIf.step (.init init_start) hok rfl
  have hstarted := hasked.step (e := Event.process ()) trivial rfl
  have hprepared := hstarted.step (e := Event.reply ()) trivial rfl
  refine ⟨_, ?_, keepsPromises_of_acknowledged hprepared⟩
  exact congrArg (List.map Answer.prepared) (Finset.sort_singleton (· ≤ ·) 0)

theorem exists_run : ∃ s s', (leadership fun _ : Unit => true).run start events = some s ∧
    (leadership fun _ : Unit => true).step s (.reply ()) = some s' ∧
    s.coordinator.answers = [.failed 0] ∧ s'.coordinator.answers = [.failed 0, .prepared 1] ∧
    (s'.actors ()).alive = true ∧ (s'.actors ()).startedFor = some 1 ∧ s'.coordinator.cycle = 2 := by
  refine ⟨_, _, rfl, rfl, ?_, ?_, rfl, rfl, rfl⟩
  · exact congrArg (List.map Answer.failed) (Finset.sort_singleton (· ≤ ·) 0)
  · exact congrArg₂ (fun failed prepared => failed.map Answer.failed ++ prepared.map Answer.prepared)
      (Finset.sort_singleton (· ≤ ·) 0) (Finset.sort_singleton (· ≤ ·) 1)

theorem not_forall_allStarted : ¬ ∀ (s s' : System Unit Unit) (e : Event Unit Unit),
    (leadership fun _ : Unit => true).Reachable s →
      s.step (fun _ => true) e = some s' → s.AnswersPrepared s' → s'.AllStarted := by
  intro h
  obtain ⟨s, s', hrun, hs, hbefore, hafter, halive, hfor, hcycle⟩ := exists_run
  have hreachable := Machine.reachableIf_of_runIf events (.init init_start) hrun
  have hanswers : s.AnswersPrepared s' := ⟨1, by simp [hafter], by simp [hbefore]⟩
  have hstarted := h s s' (.reply ()) hreachable hs hanswers () halive
  rw [hfor, hcycle] at hstarted
  exact absurd hstarted (by decide)

end Late

end System

end Marathon.Leadership
