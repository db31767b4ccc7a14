import Marathon.Lib.Dict
import Marathon.Lib.Last
import Marathon.Lib.Machine

/-!
# Elements with deadlines

The stage emits an event when an element is received and another one when its deadline arrives.
Inputs, timers and requests of downstream meet in one queue.
-/

namespace Marathon.Stream

open Lib

variable {U : Type} [DecidableEq U]

inductive EventState (U : Type)
  | active (element : U)
  | inactive (element : U)
deriving DecidableEq

def EventState.element : EventState U → U
  | active element => element
  | inactive element => element

/-- The stage; instants are in nanoseconds, and `emitted` is what has been pushed downstream. -/
structure TimedEmitter (U : Type) [DecidableEq U] where
  now : ℤ
  queue : List (EventState U)
  /-- When the timer of an element fires. -/
  timers : Dict U ℤ
  isAvailable : Bool
  hasBeenPulled : Bool
  emitted : List (EventState U)

namespace TimedEmitter

/-- `preStart` pulls the input. -/
def start (now : ℤ) : TimedEmitter U := ⟨now, [], ∅, false, true, []⟩

def pushAndPullLogic (s : TimedEmitter U) : TimedEmitter U :=
  let s := match s.isAvailable, s.queue with
    | true, event :: queue =>
      { s with isAvailable := false, queue := queue, emitted := s.emitted ++ [event] }
    | _, _ => s
  if s.queue.isEmpty && !s.hasBeenPulled then { s with hasBeenPulled := true } else s

/-- `toMillis.millis` after now. -/
def fireTime (now deadline : ℤ) : ℤ := now + (deadline - now) / 1000000 * 1000000

def onPush (s : TimedEmitter U) (element : U) (maybeDeadline : Option ℤ) : TimedEmitter U :=
  match maybeDeadline.filter fun deadline => s.now ≤ deadline with
  | some deadline =>
    pushAndPullLogic { s with
      hasBeenPulled := false
      queue := s.queue ++ [.active element]
      timers := s.timers.insert element (fireTime s.now deadline) }
  | none =>
    pushAndPullLogic { s with
      hasBeenPulled := false
      timers := s.timers.erase element
      queue := s.queue ++ [.inactive element] }

def onPull (s : TimedEmitter U) : TimedEmitter U := pushAndPullLogic { s with isAvailable := true }

/-- The timer has fired, so it is none any more. -/
def onTimer (s : TimedEmitter U) (element : U) : TimedEmitter U :=
  pushAndPullLogic { s with
    timers := s.timers.erase element
    queue := s.queue ++ [.inactive element] }

/-! ## Runs -/

inductive Happening (U : Type)
  | push (element : U) (maybeDeadline : Option ℤ)
  | timer (element : U)
  | pull

/-- What happens at a time. -/
structure Event (U : Type) where
  now : ℤ
  happening : Happening U

/-- The input is pushed when it has been pulled, a timer fires when its time has come, and
downstream asks for one event after the other. -/
def machine (U : Type) [DecidableEq U] : Machine (TimedEmitter U) (Event U) where
  Init s := ∃ now, s = start now
  step s event :=
    if event.now < s.now then none
    else
      let s := { s with now := event.now }
      match event.happening with
      | .push element maybeDeadline =>
        if s.hasBeenPulled then some (s.onPush element maybeDeadline) else none
      | .timer element => (s.timers.lookup element).bind fun fireTime =>
        if fireTime ≤ s.now then some (s.onTimer element) else none
      | .pull => if s.isAvailable then none else some s.onPull

/-- The events that arise: one for every input, active exactly if its deadline is not in the past,
and one for every timer. -/
def arises (event : Event U) : List (EventState U) :=
  match event.happening with
  | .push element maybeDeadline =>
    if maybeDeadline.any fun deadline => event.now ≤ deadline then [.active element]
    else [.inactive element]
  | .timer element => [.inactive element]
  | .pull => []

/-- An input with the element, or its timer. -/
def About (element : U) (event : Event U) : Prop :=
  (∃ maybeDeadline, event.happening = .push element maybeDeadline) ∨
    event.happening = .timer element

/-- The latest deadline of the element was not in the past, and its timer has not fired. -/
def Pending (events : List (Event U)) (element : U) (now deadline : ℤ) : Prop :=
  now ≤ deadline ∧ ∃ after, IsLast (About element) events ⟨now, .push element (some deadline)⟩ after

variable {began : ℤ} {s s' : TimedEmitter U} {events : List (Event U)} {event : Event U} {element : U}

/-! ## Steps -/

theorem pushAndPullLogic_spec (s : TimedEmitter U) :
    s.pushAndPullLogic.emitted ++ s.pushAndPullLogic.queue = s.emitted ++ s.queue ∧
      s.pushAndPullLogic.timers = s.timers ∧
      (s.pushAndPullLogic.isAvailable = true → s.pushAndPullLogic.queue = []) ∧
      (s.pushAndPullLogic.queue = [] → s.pushAndPullLogic.hasBeenPulled = true) := by
  obtain ⟨now, queue, timers, isAvailable, hasBeenPulled, emitted⟩ := s
  cases isAvailable with
  | false => cases queue <;> cases hasBeenPulled <;> simp [pushAndPullLogic]
  | true =>
    cases queue with
    | nil => cases hasBeenPulled <;> simp [pushAndPullLogic]
    | cons event queue => cases queue <;> cases hasBeenPulled <;> simp [pushAndPullLogic]

/-- The timers after an event: one is set or cancelled by an input, and one that fires is gone. -/
def timersAfter (timers : Dict U ℤ) (event : Event U) : Dict U ℤ :=
  match event.happening with
  | .push element maybeDeadline =>
    match maybeDeadline.filter fun deadline => event.now ≤ deadline with
    | some deadline => timers.insert element (fireTime event.now deadline)
    | none => timers.erase element
  | .timer element => timers.erase element
  | .pull => timers

theorem step_spec (h : (machine U).step s event = some s') :
    s'.emitted ++ s'.queue = s.emitted ++ s.queue ++ arises event ∧
      s'.timers = timersAfter s.timers event ∧
      (s'.isAvailable = true → s'.queue = []) ∧
      (s'.queue = [] → s'.hasBeenPulled = true) ∧
      ∀ element, event.happening = .timer element →
        ∃ fireTime, s.timers.lookup element = some fireTime ∧ fireTime ≤ event.now := by
  obtain ⟨now, happening⟩ := event
  dsimp only [machine] at h
  by_cases hnow : now < s.now
  · rw [if_pos hnow] at h
    cases h
  rw [if_neg hnow] at h
  cases happening with
  | push element maybeDeadline =>
    by_cases hpulled : s.hasBeenPulled = true
    · dsimp only at h
      rw [if_pos hpulled] at h
      cases h
      rw [onPush, arises, timersAfter]
      dsimp only
      cases hfilter : maybeDeadline.filter fun deadline => decide (now ≤ deadline) with
      | some deadline =>
        obtain ⟨hsome, hle⟩ := Option.filter_eq_some_iff.mp hfilter
        obtain ⟨hevents, htimers, hqueue, hinput⟩ := pushAndPullLogic_spec { s with
          now := now
          hasBeenPulled := false
          queue := s.queue ++ [.active element]
          timers := s.timers.insert element (fireTime now deadline) }
        rw [hsome, Option.any_some, if_pos hle, List.append_assoc]
        refine ⟨hevents, htimers, hqueue, hinput, ?_⟩
        intro _ htimer
        cases htimer
      | none =>
        obtain ⟨hevents, htimers, hqueue, hinput⟩ := pushAndPullLogic_spec { s with
          now := now
          hasBeenPulled := false
          timers := s.timers.erase element
          queue := s.queue ++ [.inactive element] }
        have hany : ¬maybeDeadline.any (fun deadline => decide (now ≤ deadline)) = true := by
          cases maybeDeadline with
          | none => exact Bool.false_ne_true
          | some deadline => exact Option.filter_eq_none_iff.mp hfilter deadline rfl
        rw [if_neg hany, List.append_assoc]
        refine ⟨hevents, htimers, hqueue, hinput, ?_⟩
        intro _ htimer
        cases htimer
    · dsimp only at h
      rw [if_neg hpulled] at h
      cases h
  | timer element =>
    obtain ⟨fireTime, hlookup, h⟩ := Option.bind_eq_some_iff.mp h
    by_cases hdue : fireTime ≤ now
    · rw [if_pos hdue] at h
      cases h
      obtain ⟨hevents, htimers, hqueue, hinput⟩ := pushAndPullLogic_spec { s with
        now := now
        timers := s.timers.erase element
        queue := s.queue ++ [.inactive element] }
      rw [onTimer, List.append_assoc]
      refine ⟨hevents, htimers, hqueue, hinput, ?_⟩
      intro element' heq
      cases heq
      exact ⟨fireTime, hlookup, hdue⟩
    · rw [if_neg hdue] at h
      cases h
  | pull =>
    by_cases havailable : s.isAvailable = true
    · dsimp only at h
      rw [if_pos havailable] at h
      cases h
    · dsimp only at h
      rw [if_neg havailable] at h
      cases h
      obtain ⟨hevents, htimers, hqueue, hinput⟩ :=
        pushAndPullLogic_spec { s with now := now, isAvailable := true }
      rw [onPull, arises, List.append_nil]
      refine ⟨hevents, htimers, hqueue, hinput, ?_⟩
      intro _ htimer
      cases htimer

/-! ## What is pending and what is emitted last -/

theorem pending_concat_of_not_about (h : ¬About element event) {now deadline : ℤ} :
    Pending (events ++ [event]) element now deadline ↔ Pending events element now deadline := by
  refine and_congr_right' ?_
  constructor
  · rintro ⟨after, hlast⟩
    obtain ⟨rest, rfl, hbefore⟩ := (IsLast.concat_iff_of_neg h).mp hlast
    exact ⟨rest, hbefore⟩
  · rintro ⟨after, hlast⟩
    exact ⟨after ++ [event], (IsLast.concat_iff_of_neg h).mpr ⟨after, rfl, hlast⟩⟩

theorem pending_concat_of_about (h : About element event) {now deadline : ℤ} :
    Pending (events ++ [event]) element now deadline ↔
      now ≤ deadline ∧ event = ⟨now, .push element (some deadline)⟩ := by
  refine and_congr_right' ?_
  constructor
  · rintro ⟨after, hlast⟩
    exact ((IsLast.concat_iff_of_pos h).mp hlast).1.symm
  · rintro rfl
    exact ⟨[], (IsLast.concat_iff_of_pos h).mpr ⟨rfl, rfl⟩⟩

theorem lookup_timersAfter_of_about (h : About element event) (timers : Dict U ℤ) (time : ℤ) :
    (timersAfter timers event).lookup element = some time ↔
      ∃ now deadline, (now ≤ deadline ∧ event = ⟨now, .push element (some deadline)⟩) ∧
        time = fireTime now deadline := by
  obtain ⟨t, happening⟩ := event
  rcases h with ⟨maybeDeadline, rfl⟩ | rfl
  · rw [timersAfter]
    dsimp only
    cases hfilter : maybeDeadline.filter fun deadline => decide (t ≤ deadline) with
    | some deadline =>
      obtain ⟨rfl, hle⟩ := Option.filter_eq_some_iff.mp hfilter
      rw [AList.lookup_insert]
      constructor
      · intro htime
        exact ⟨t, deadline, ⟨of_decide_eq_true hle, rfl⟩, (Option.some.inj htime).symm⟩
      · rintro ⟨now, deadline', ⟨-, heq⟩, rfl⟩
        obtain ⟨rfl, hpush⟩ := Event.mk.inj heq
        obtain rfl := Option.some.inj (Happening.push.inj hpush).2
        rfl
    | none =>
      rw [AList.lookup_erase]
      refine iff_of_false (by simp) ?_
      rintro ⟨now, deadline, ⟨hle, heq⟩, -⟩
      obtain ⟨rfl, hpush⟩ := Event.mk.inj heq
      obtain rfl := (Happening.push.inj hpush).2
      exact Option.filter_eq_none_iff.mp hfilter deadline rfl (decide_eq_true hle)
  · rw [timersAfter, AList.lookup_erase]
    refine iff_of_false (by simp) ?_
    rintro ⟨now, deadline, ⟨-, heq⟩, -⟩
    cases heq

theorem lookup_timersAfter_of_not_about (h : ¬About element event) (timers : Dict U ℤ) :
    (timersAfter timers event).lookup element = timers.lookup element := by
  obtain ⟨t, happening⟩ := event
  cases happening with
  | push element' maybeDeadline =>
    have hne : element ≠ element' := by
      rintro rfl
      exact h (.inl ⟨maybeDeadline, rfl⟩)
    rw [timersAfter]
    dsimp only
    split
    · exact AList.lookup_insert_ne hne
    · exact AList.lookup_erase_ne hne
  | timer element' =>
    have hne : element ≠ element' := by
      rintro rfl
      exact h (.inr rfl)
    exact AList.lookup_erase_ne hne
  | pull => rfl

theorem arises_spec (event : Event U) :
    (arises event = [] ∧ ∀ element, ¬About element event) ∨
      ∃ x, arises event = [x] ∧ (∀ element, About element event ↔ x.element = element) ∧
        (x = .active x.element ↔
          ∃ now deadline, now ≤ deadline ∧ event = ⟨now, .push x.element (some deadline)⟩) := by
  obtain ⟨t, happening⟩ := event
  cases happening with
  | push element maybeDeadline =>
    have habout : ∀ element', About element' ⟨t, .push element maybeDeadline⟩ ↔ element = element' := by
      intro element'
      constructor
      · rintro (⟨_, heq⟩ | heq)
        · exact (Happening.push.inj heq).1
        · cases heq
      · rintro rfl
        exact .inl ⟨maybeDeadline, rfl⟩
    right
    by_cases hany : maybeDeadline.any (fun deadline => decide (t ≤ deadline)) = true
    · refine ⟨.active element, if_pos hany, habout, iff_of_true rfl ?_⟩
      cases maybeDeadline with
      | none => cases hany
      | some deadline => exact ⟨t, deadline, of_decide_eq_true hany, rfl⟩
    · refine ⟨.inactive element, if_neg hany, habout, iff_of_false (by simp) ?_⟩
      rintro ⟨now, deadline, hle, heq⟩
      obtain ⟨rfl, hpush⟩ := Event.mk.inj heq
      obtain rfl := (Happening.push.inj hpush).2
      exact hany (decide_eq_true hle)
  | timer element =>
    right
    refine ⟨.inactive element, rfl, ?_, iff_of_false (by simp) ?_⟩
    · intro element'
      constructor
      · rintro (⟨_, heq⟩ | heq)
        · cases heq
        · exact Happening.timer.inj heq
      · rintro rfl
        exact .inr rfl
    · rintro ⟨now, deadline, -, heq⟩
      cases heq
  | pull =>
    left
    refine ⟨rfl, ?_⟩
    rintro element (⟨_, heq⟩ | heq)
    · cases heq
    · cases heq

def OfElement (element : U) (x : EventState U) : Prop := x.element = element

/-- What holds of the stage after some events. -/
structure Sound (events : List (Event U)) (s : TimedEmitter U) : Prop where
  emitted : s.emitted ++ s.queue = events.flatMap arises
  timers : ∀ element time, s.timers.lookup element = some time ↔
    ∃ now deadline, Pending events element now deadline ∧ time = fireTime now deadline
  last : ∀ element x after, IsLast (OfElement element) (s.emitted ++ s.queue) x after →
    (x = .active element ↔ ∃ now deadline, Pending events element now deadline)
  waits : s.isAvailable = true → s.queue = []
  pulled : s.queue = [] → s.hasBeenPulled = true

theorem sound_start (now : ℤ) : Sound [] (start now : TimedEmitter U) where
  emitted := rfl
  timers element time := by
    refine iff_of_false (by simp [start]) ?_
    rintro ⟨now, deadline, ⟨-, after, hlast⟩, -⟩
    exact IsLast.not_nil hlast
  last element x after h := absurd h IsLast.not_nil
  waits _ := rfl
  pulled _ := rfl

theorem sound_step (hsound : Sound events s) (h : (machine U).step s event = some s') :
    Sound (events ++ [event]) s' := by
  obtain ⟨hemitted, htimers, hwaits, hpulled, -⟩ := step_spec h
  refine ⟨?_, ?_, ?_, hwaits, hpulled⟩
  · rw [hemitted, hsound.emitted, List.flatMap_append, List.flatMap_singleton]
  · intro element time
    rw [htimers]
    by_cases habout : About element event
    · rw [lookup_timersAfter_of_about habout]
      simp only [pending_concat_of_about habout]
    · rw [lookup_timersAfter_of_not_about habout, hsound.timers]
      simp only [pending_concat_of_not_about habout]
  · intro element x after hlast
    rw [hemitted] at hlast
    rcases arises_spec event with ⟨hnone, hnot⟩ | ⟨y, hsome, habout, hactive⟩
    · rw [hnone, List.append_nil] at hlast
      simp only [pending_concat_of_not_about (hnot element)]
      exact hsound.last element x after hlast
    · rw [hsome] at hlast
      by_cases heq : OfElement element y
      · obtain ⟨rfl, -⟩ := (IsLast.concat_iff_of_pos heq).mp hlast
        obtain rfl : x.element = element := heq
        simp only [pending_concat_of_about ((habout _).mpr rfl)]
        exact hactive
      · obtain ⟨rest, rfl, hbefore⟩ := (IsLast.concat_iff_of_neg heq).mp hlast
        simp only [pending_concat_of_not_about (mt (habout element).mp heq)]
        exact hsound.last element x rest hbefore

theorem sound_of_run (h : (machine U).run (start began) events = some s) : Sound events s := by
  induction events using List.reverseRecOn generalizing s with
  | nil =>
    cases h
    exact sound_start began
  | append_singleton events event ih =>
    rw [Machine.run_concat] at h
    obtain ⟨t, ht, hstep⟩ := Option.bind_eq_some_iff.mp h
    exact sound_step (ih ht) hstep

theorem sub_lt_fireTime (now deadline : ℤ) : deadline - 1000000 < fireTime now deadline := by
  rw [fireTime]
  omega

theorem pending_of_timer (h : (machine U).run (start began) events = some s) {before after : List (Event U)}
    {fired : ℤ} (hevents : events = before ++ ⟨fired, .timer element⟩ :: after) :
    ∃ now deadline, Pending before element now deadline ∧ deadline - 1000000 < fired := by
  induction events using List.reverseRecOn generalizing s after with
  | nil => simp at hevents
  | append_singleton events event ih =>
    rw [Machine.run_concat] at h
    obtain ⟨t, ht, hstep⟩ := Option.bind_eq_some_iff.mp h
    rcases List.eq_nil_or_concat after with rfl | ⟨rest, last, rfl⟩
    · obtain ⟨rfl, heq⟩ := List.append_inj' hevents rfl
      obtain rfl := (List.cons.inj heq).1
      obtain ⟨-, -, -, -, htimer⟩ := step_spec hstep
      obtain ⟨time, hlookup, hdue⟩ := htimer element rfl
      obtain ⟨now, deadline, hpending, rfl⟩ := ((sound_of_run ht).timers element time).mp hlookup
      exact ⟨now, deadline, hpending, (sub_lt_fireTime now deadline).trans_le hdue⟩
    · rw [List.concat_eq_append, ← List.cons_append, ← List.append_assoc] at hevents
      exact ih ht (List.append_inj' hevents rfl).1

/-- Events are emitted as they arise, those that downstream has not asked for wait in the queue;
timers are those of the latest deadlines; and the last event of an element, waiting events
included, is active exactly while its latest deadline is pending. -/
theorem timedEmitter_spec (h : (machine U).run (start began) events = some s) :
    s.emitted ++ s.queue = events.flatMap arises ∧
      (s.isAvailable = true → s.queue = []) ∧
      (∀ before after element fired, events = before ++ ⟨fired, .timer element⟩ :: after →
        ∃ now deadline, Pending before element now deadline ∧ deadline - 1000000 < fired) ∧
      ∀ element x after,
        IsLast (OfElement element) (s.emitted ++ s.queue) x after →
          (x = .active element ↔ ∃ now deadline, Pending events element now deadline) := by
  have hsound := sound_of_run h
  exact ⟨hsound.emitted, hsound.waits, fun _ _ _ _ => pending_of_timer h, hsound.last⟩

/-! ## An event that waits -/

/-- Downstream asks for one event, an element is received, and its deadline arrives. -/
def waitingRun : List (Event String) :=
  [⟨0, .pull⟩, ⟨0, .push "foo" (some 5000000)⟩, ⟨5000000, .timer "foo"⟩]

theorem exists_waiting : ∃ s, (machine String).run (start 0) waitingRun = some s ∧
    s.emitted = [.active "foo"] ∧ s.queue = [.inactive "foo"] ∧ s.timers.lookup "foo" = none := by
  have hany : ((machine String).run (start 0) waitingRun).any (fun s =>
      s.emitted = [.active "foo"] ∧ s.queue = [.inactive "foo"] ∧ s.timers.lookup "foo" = none) =
        true := by
    decide +kernel
  obtain ⟨s, hs, htest⟩ := Machine.exists_of_any hany
  exact ⟨s, hs, of_decide_eq_true htest⟩

theorem spec_waitingRun : ∃ s, (machine String).run (start 0) waitingRun = some s ∧
    ∀ element x after, IsLast (OfElement element) (s.emitted ++ s.queue) x after →
      (x = .active element ↔ ∃ now deadline, Pending waitingRun element now deadline) := by
  obtain ⟨s, hs, -⟩ := exists_waiting
  exact ⟨s, hs, (timedEmitter_spec hs).2.2.2⟩

/-- The last event that is emitted is active, but its deadline is not pending any more. -/
theorem not_forall_emitted_last :
    ¬∀ (began : ℤ) (events : List (Event String)) (s : TimedEmitter String),
      (machine String).run (start began) events = some s →
        ∀ element x after, IsLast (OfElement element) s.emitted x after →
          (x = .active element ↔ ∃ time, s.timers.lookup element = some time) := by
  intro hall
  obtain ⟨s, hs, hemitted, -, hlookup⟩ := exists_waiting
  have hlast : IsLast (OfElement "foo") s.emitted (.active "foo") [] := by
    rw [hemitted]
    exact ⟨⟨[], rfl⟩, rfl, by simp⟩
  obtain ⟨time, htime⟩ := (hall 0 waitingRun s hs "foo" (.active "foo") [] hlast).mp rfl
  rw [hlookup] at htime
  cases htime

end TimedEmitter

end Marathon.Stream
