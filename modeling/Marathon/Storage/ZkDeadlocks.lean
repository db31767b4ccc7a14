import Marathon.Storage.ZkRequests
import Mathlib.Data.Prod.Lex
import Mathlib.Order.WellFounded

/-!
# Deadlocks among requests to ZooKeeper

Items that wait for items of their own keep their slots, so that as many of them as there are
slots wait for ever. Nothing of the kind happens as long as fewer of them are under way at a
time, and then every call completes.
-/

namespace Marathon.Storage.ZkRequests

open Lib Util

/-! ## Items that wait for their own items -/

/-- How many items have submitted further ones and are not done with them. -/
def State.parents (s : State) : ℕ := s.items.countP fun item => item.phase.isParent

/-- An item submits further ones only while fewer items than there are slots would wait for
items of their own, and while the queue takes what it submits. -/
def Allowed (maxConcurrent : ℕ) (s : State) : Event → Prop
  | .answer n a => ∀ item ∈ s.items[n]?,
    match react item.work a with
    | .finish _ => True
    | .list _ => s.parents + 1 < maxConcurrent
    | .create => s.parents + 1 < maxConcurrent ∧ s.limitRequests.HasRoom
  | .resume n => ∀ item ∈ s.items[n]?,
    match item.phase with
    | .listing (_ + 1) _ => s.limitRequests.HasRoom
    | .creating child => s.outcome child = some .nodeExists → s.limitRequests.HasRoom
    | _ => True
  | _ => True

/-- Some slot is left to items that wait for ZooKeeper only, and no call was turned away
after it had begun. -/
structure Fluent (maxConcurrent : ℕ) (s : State) : Prop where
  parents : s.parents < maxConcurrent
  accepted : ∀ (n : ℕ) (item : Item), s.items[n]? = some item → item.work.nested = true →
    item.rejected = false

variable {work : Work} {s' s : State} {maxConcurrent maxQueueLength : ℕ}

section Runs

variable {maxConcurrent : ℕ} {s : State} {n : ℕ} {item : Item}

theorem parents_submit (s : State) (work : Work) : (s.submit work).parents = s.parents := by
  have hnot : ∀ admission, (Item.submitted work admission).phase.isParent = false := by
    intro admission
    cases admission <;> rfl
  rw [State.parents, State.submit, List.countP_append, List.countP_singleton, hnot]
  rfl

theorem fluent_submit (hs : Fluent maxConcurrent s)
    (hroom : work.nested = true → s.limitRequests.HasRoom) :
    Fluent maxConcurrent (s.submit work) := by
  refine ⟨(parents_submit s work).symm ▸ hs.parents, fun n item hget hnested => ?_⟩
  rcases getElem?_concat_eq_some.mp hget with hold | ⟨-, rfl⟩
  · exact hs.accepted n item hold hnested
  · rcases s.limitRequests.apply_cases s.items.length with
      ⟨q, happly, -⟩ | ⟨q, happly, -⟩ | ⟨happly, hfull⟩
    · rw [happly]
      rfl
    · rw [happly]
      rfl
    · rw [happly] at hnested
      exact absurd (hroom hnested) hfull

theorem fluent_put (hs : Fluent maxConcurrent s) (hn : s.items[n]? = some item)
    (item' : Item) (hwork : item'.work = item.work) (hrejected : item'.rejected = item.rejected)
    (hparent : item'.phase.isParent = true →
      item.phase.isParent = true ∨ s.parents + 1 < maxConcurrent) :
    Fluent maxConcurrent (s.put n item') := by
  constructor
  · have hcount := countP_set_add (p := fun item => item.phase.isParent) (b := item') hn
    have hold := hs.parents
    have hparents : (s.put n item').parents + (if item.phase.isParent then 1 else 0) =
        s.parents + (if item'.phase.isParent then 1 else 0) := hcount
    by_cases hp : item'.phase.isParent = true
    · rcases hparent hp with hp' | hlt
      · rw [if_pos hp, if_pos hp'] at hparents
        omega
      · rw [if_pos hp] at hparents
        omega
    · rw [if_neg hp] at hparents
      omega
  · intro m i hget hnested
    rcases (getElem?_set_eq_some (lt_length_of_getElem? hn)).mp hget with ⟨-, rfl⟩ | ⟨-, hold⟩
    · rw [hrejected]
      exact hs.accepted n item hn (hwork ▸ hnested)
    · exact hs.accepted m i hold hnested

theorem fluent_executeNextIfPossible (hs : Fluent maxConcurrent s) :
    Fluent maxConcurrent s.executeNextIfPossible := by
  rw [State.executeNextIfPossible]
  cases hnext : s.limitRequests.executeNextIfPossible.2 with
  | none => exact ⟨hs.parents, hs.accepted⟩
  | some m =>
    dsimp only
    cases hget : s.items[m]? with
    | none =>
      rw [List.modify_eq_self (List.getElem?_eq_none_iff.mp hget)]
      exact ⟨hs.parents, hs.accepted⟩
    | some next =>
      rw [modify_eq_set_of_getElem? hget]
      have hput := fluent_put hs hget next.run rfl rfl fun h => absurd h Bool.false_ne_true
      exact ⟨hput.parents, hput.accepted⟩

theorem fluent_submit_put (hs : Fluent maxConcurrent s) (hn : s.items[n]? = some item)
    (hroom : s.limitRequests.HasRoom) (phase : Phase)
    (hparent : item.phase.isParent = true ∨ s.parents + 1 < maxConcurrent) :
    Fluent maxConcurrent ((s.submit work).put n { item with phase := phase }) := by
  refine fluent_put (fluent_submit hs fun _ => hroom) (exists_of_submit work hn)
    { item with phase := phase } rfl rfl fun _ => ?_
  rw [parents_submit]
  exact hparent

theorem fluent_over (hs : Fluent maxConcurrent s) (hn : s.items[n]? = some item) (o : Outcome) :
    Fluent maxConcurrent (s.put n { item with phase := .ended o }) :=
  fluent_put hs hn { item with phase := .ended o } rfl rfl fun h => absurd h Bool.false_ne_true

theorem fluent_step (hs : Fluent maxConcurrent s) {e : Event}
    (hallowed : Allowed maxConcurrent s e) (h : step s e = some s') : Fluent maxConcurrent s' := by
  cases moves_of_step h with
  | submits work hnested => exact fluent_submit hs fun h => absurd h (Bool.eq_false_iff.mp hnested)
  | ends hn _ o => exact fluent_over hs hn o
  | lists hn _ hreact =>
    have hok := hallowed _ hn
    rw [hreact] at hok
    exact fluent_put hs hn _ rfl rfl fun _ => .inr hok
  | creates hn _ hreact =>
    have hok := hallowed _ hn
    rw [hreact] at hok
    exact fluent_submit_put hs hn hok.2 _ (.inr hok.1)
  | goesOn hn hphase =>
    have hok := hallowed _ hn
    rw [hphase] at hok
    exact fluent_submit_put hs hn hok _ (.inl (hphase ▸ rfl))
  | sets hn hphase houtcome =>
    have hok := hallowed _ hn
    rw [hphase] at hok
    exact fluent_submit_put hs hn (hok houtcome) _ (.inl (hphase ▸ rfl))
  | @releases n o item hn hphase _ =>
    apply fluent_executeNextIfPossible
    refine fluent_put hs hn { item with holdsSlot := false } rfl rfl fun h => ?_
    rw [show ({ item with holdsSlot := false } : Item).phase = .ended o from hphase] at h
    cases h
  | @tells n o item hn hphase _ =>
    refine fluent_put hs hn { item with told := true } rfl rfl fun h => ?_
    rw [show ({ item with told := true } : Item).phase = .ended o from hphase] at h
    cases h

theorem not_deadlocked (hs : Consistent maxConcurrent s) (hparents : s.parents < maxConcurrent) :
    ¬Deadlocked s := by
  rintro ⟨hfull, hwaits⟩
  have hslots := hs.slots
  have hle : s.items.countP Item.holdsSlot ≤ s.parents := by
    apply List.countP_mono_left
    intro item hitem hslot
    obtain ⟨c, hc, -⟩ := hwaits item hitem hslot
    cases hphase : item.phase with
    | listing left children => rfl
    | creating child => rfl
    | setting child => rfl
    | _ =>
      rw [hphase] at hc
      cases hc
  omega

theorem exists_none_of_sequence {α : Type*} {f : α → Option Outcome} {l : List α}
    (h : sequence (l.map f) = none) : ∃ a ∈ l, f a = none := by
  induction l with
  | nil => cases h
  | cons a l ih =>
    cases hf : f a with
    | none => exact ⟨a, List.mem_cons_self, hf⟩
    | some o =>
      rw [List.map_cons, hf] at h
      cases o with
      | ok =>
        obtain ⟨a', ha', hnone⟩ := ih h
        exact ⟨a', List.mem_cons_of_mem a ha', hnone⟩
      | _ => cases h

/-- Nothing but new calls can happen. -/
def Stuck (s : State) : Prop := ∀ e s', Event.isCall e = false → step s e ≠ some s'

namespace Stuck

variable (hstuck : Stuck s) (hn : s.items[n]? = some item)

include hstuck hn

theorem not_requested : item.phase ≠ .requested := by
  obtain ⟨work, phase, holdsSlot, told, rejected⟩ := item
  rintro rfl
  refine hstuck (.answer n .failure) (s.put n ⟨work, .ended .failed, holdsSlot, told, rejected⟩) rfl ?_
  rw [step, hn]
  cases work <;> rfl

theorem finished_of_over {o : Outcome} (hphase : item.phase = .ended o) :
    item.told = true ∧ item.holdsSlot = false := by
  obtain ⟨work, phase, holdsSlot, told, rejected⟩ := item
  dsimp only at hphase ⊢
  subst hphase
  constructor
  · by_contra htold
    obtain rfl : told = false := Bool.eq_false_iff.mpr htold
    refine hstuck (.tell n) (s.put n ⟨work, .ended o, holdsSlot, true, rejected⟩) rfl ?_
    rw [step, hn]
    rfl
  · by_contra hslot
    obtain rfl : holdsSlot = true := Bool.eq_true_of_not_eq_false hslot
    refine hstuck (.release n)
      (s.put n ⟨work, .ended o, false, told, rejected⟩).executeNextIfPossible rfl ?_
    rw [step, hn]
    rfl

theorem resumed_eq_none : resumed s n item = none := by
  rw [Option.eq_none_iff_forall_ne_some]
  intro s' hs'
  refine hstuck (.resume n) s' rfl ?_
  rw [step, hn]
  exact hs'

theorem queued_of_outcome (hs : Consistent maxConcurrent s) (hnested : item.work.nested = true)
    (hnone : s.outcome n = none) : item.phase = .queued := by
  have hfits := hs.fits n item hn
  cases hphase : item.phase with
  | queued => rfl
  | requested => exact absurd hphase (hstuck.not_requested hn)
  | ended o =>
    have htold := (hstuck.finished_of_over hn hphase).1
    rw [State.outcome, hn, Option.bind_some, hphase] at hnone
    dsimp only at hnone
    rw [if_pos htold] at hnone
    cases hnone
  | _ =>
    rw [Fits, hphase] at hfits
    rw [hfits.2.2.1] at hnested
    cases hnested

theorem waitsForQueued (hs : Consistent maxConcurrent s) (hactive : item.isFinished = false) :
    item.phase = .queued ∨ WaitsForQueued s item := by
  have hfits := hs.fits n item hn
  have hresumed := hstuck.resumed_eq_none hn
  have hwaits : ∀ c ∈ item.phase.awaited, s.outcome c = none →
      (∃ child, s.items[c]? = some child ∧ child.work.nested = true) →
        WaitsForQueued s item := by
    rintro c hc hnone ⟨child, hget, hnested⟩
    exact ⟨c, hc, child, hget, hstuck.queued_of_outcome hget hs hnested hnone⟩
  cases hphase : item.phase with
  | queued => exact .inl rfl
  | requested => exact absurd hphase (hstuck.not_requested hn)
  | ended o =>
    obtain ⟨htold, hslot⟩ := hstuck.finished_of_over hn hphase
    rw [Item.isFinished, hphase, htold, hslot] at hactive
    cases hactive
  | listing left children =>
    rw [Fits, hphase] at hfits
    rw [hphase] at hwaits
    rw [resumed, hphase] at hresumed
    cases left with
    | zero =>
      obtain ⟨c, hc, hnone⟩ := exists_none_of_sequence (Option.map_eq_none_iff.mp hresumed)
      exact .inr (hwaits c hc hnone (hfits.2.2.2 c hc))
    | succ left => cases hresumed
  | creating child =>
    rw [Fits, hphase] at hfits
    rw [hphase] at hwaits
    rw [resumed, hphase] at hresumed
    have hmem : child ∈ (Phase.creating child).awaited := List.mem_singleton_self child
    exact .inr (hwaits child hmem (Option.map_eq_none_iff.mp hresumed) (hfits.2.2.2 child hmem))
  | setting child =>
    rw [Fits, hphase] at hfits
    rw [hphase] at hwaits
    rw [resumed, hphase] at hresumed
    have hmem : child ∈ (Phase.setting child).awaited := List.mem_singleton_self child
    exact .inr (hwaits child hmem (Option.map_eq_none_iff.mp hresumed) (hfits.2.2.2 child hmem))

end Stuck

theorem deadlocked_of_stuck (hs : Consistent maxConcurrent s) (hstuck : Stuck s)
    (hn : s.items[n]? = some item) (hactive : item.isFinished = false) : Deadlocked s := by
  have hqueued : ∃ m, m ∈ s.limitRequests.queue := by
    rcases hstuck.waitsForQueued hn hs hactive with hq | ⟨c, -, child, hget, hq⟩
    · exact ⟨n, (hs.queued n).mpr ⟨item, hn, hq⟩⟩
    · exact ⟨c, (hs.queued c).mpr ⟨child, hget, hq⟩⟩
  refine ⟨?_, fun i hi hslot => ?_⟩
  · by_contra hopen
    obtain ⟨m, hm⟩ := hqueued
    rw [s.limitRequests.idle (Nat.pos_of_ne_zero hopen)] at hm
    cases hm
  · obtain ⟨m, hm⟩ := List.getElem?_of_mem hi
    have hunfinished : i.isFinished = false := by
      rw [Item.isFinished, hslot]
      cases i.phase with
      | ended o => exact Bool.and_false _
      | _ => rfl
    refine (hstuck.waitsForQueued hm hs hunfinished).resolve_left fun hq => ?_
    have hfits := hs.fits m i hm
    rw [Fits, hq] at hfits
    rw [hfits.1] at hslot
    cases hslot

end Runs

/-! ## Calls come to their end -/

section Termination

/-- How often an item can still submit further ones in reaction to an answer. -/
def Item.pending (item : Item) : ℕ :=
  match item.phase with
  | .queued => if item.work.nested then 0 else 2
  | .requested => if item.work.nested then 0 else 2
  | .creating _ => 1
  | _ => 0

/-- How far an item is from its end otherwise, the buckets that it lists included. -/
def Item.distance (item : Item) : ℕ :=
  match item.phase with
  | .queued => 6
  | .requested => 5
  | .listing left _ => 4 + 7 * left
  | .creating _ => 4
  | .setting _ => 4
  | .ended _ => (if item.told then 0 else 1) + (if item.holdsSlot then 1 else 0)

def State.pending (s : State) : ℕ := (s.items.map Item.pending).sum

def State.distance (s : State) : ℕ := (s.items.map Item.distance).sum

/-- `s'` is closer to the end than `s`. -/
def Closer (s' s : State) : Prop :=
  s'.pending < s.pending ∨ s'.pending ≤ s.pending ∧ s'.distance < s.distance

variable {maxConcurrent : ℕ} {s : State} {n : ℕ} {item : Item}

theorem wellFounded_closer : WellFounded Closer := by
  have hlex := (InvImage.wf (fun s : State => (s.pending, s.distance))
    (Prod.lex Nat.lt_wfRel Nat.lt_wfRel).wf)
  refine Subrelation.wf (fun {s' s} h => ?_) hlex
  rcases h with hlt | ⟨hle, hlt⟩
  · exact Prod.Lex.left _ _ hlt
  · rcases Nat.lt_or_eq_of_le hle with hlt' | heq
    · exact Prod.Lex.left _ _ hlt'
    · show Prod.Lex _ _ (s'.pending, s'.distance) (s.pending, s.distance)
      rw [heq]
      exact Prod.Lex.right _ hlt

theorem pending_put (hn : s.items[n]? = some item) (item' : Item) :
    (s.put n item').pending + item.pending = s.pending + item'.pending :=
  sum_map_set_add hn

theorem distance_put (hn : s.items[n]? = some item) (item' : Item) :
    (s.put n item').distance + item.distance = s.distance + item'.distance :=
  sum_map_set_add hn

theorem closer_put (hn : s.items[n]? = some item) {item' : Item}
    (h : item'.pending < item.pending ∨
      item'.pending ≤ item.pending ∧ item'.distance < item.distance) :
    Closer (s.put n item') s := by
  have hpending := pending_put hn item'
  have hdistance := distance_put hn item'
  rcases h with h | h
  · exact .inl (by omega)
  · exact .inr ⟨by omega, by omega⟩

theorem measures_submit (hnested : work.nested = true) :
    (s.submit work).pending = s.pending ∧ (s.submit work).distance ≤ s.distance + 6 := by
  have hmeasures : ∀ admission : Admission, (Item.submitted work admission).pending = 0 ∧
      (Item.submitted work admission).distance ≤ 6 := by
    intro admission
    cases admission with
    | rejected => exact ⟨rfl, Nat.zero_le _⟩
    | run => exact ⟨if_pos hnested, Nat.le_succ _⟩
    | queued => exact ⟨if_pos hnested, le_rfl⟩
  obtain ⟨hpending, hdistance⟩ := hmeasures (s.limitRequests.apply s.items.length).2
  constructor
  · rw [State.pending, State.submit, List.map_append, List.sum_append, List.map_singleton,
      List.sum_singleton, hpending]
    rfl
  · rw [State.distance, State.submit, List.map_append, List.sum_append, List.map_singleton,
      List.sum_singleton]
    exact Nat.add_le_add_left hdistance _

theorem closer_submit_put (hn : s.items[n]? = some item)
    (hnested : work.nested = true) {item' : Item}
    (h : item'.pending < item.pending ∨
      item'.pending ≤ item.pending ∧ item'.distance + 6 < item.distance) :
    Closer ((s.submit work).put n item') s := by
  have hn' : (s.submit work).items[n]? = some item := exists_of_submit work hn
  obtain ⟨hpending, hdistance⟩ := measures_submit (s := s) hnested
  have hpending' := pending_put hn' item'
  have hdistance' := distance_put hn' item'
  rcases h with h | h
  · exact .inl (by omega)
  · exact .inr ⟨by omega, by omega⟩

theorem closer_over (hn : s.items[n]? = some item) (hphase : item.phase.isActive = true)
    (o : Outcome) : Closer (s.put n { item with phase := .ended o }) s := by
  have hfar : 3 ≤ item.distance := by
    rw [Item.distance]
    cases hp : item.phase with
    | queued => rw [hp] at hphase; cases hphase
    | ended _ => rw [hp] at hphase; cases hphase
    | _ => dsimp only; omega
  refine closer_put hn (.inr ⟨Nat.zero_le _, Nat.lt_of_lt_of_le ?_ hfar⟩)
  show (if item.told then 0 else 1) + (if item.holdsSlot then 1 else 0) < 3
  split_ifs <;> omega

theorem measures_executeNextIfPossible (hs : Consistent maxConcurrent s) :
    s.executeNextIfPossible.pending ≤ s.pending ∧ s.executeNextIfPossible.distance ≤ s.distance := by
  rcases s.limitRequests.executeNextIfPossible_cases with
    ⟨q, hnext, -⟩ | ⟨q, m, hnext, hqueue, -⟩
  · rw [State.executeNextIfPossible, hnext]
    exact ⟨le_rfl, le_rfl⟩
  · obtain ⟨next, hget, hphase⟩ := (hs.queued m).mp (hqueue ▸ List.mem_cons_self)
    have hpending := pending_put hget next.run
    have hdistance := distance_put hget next.run
    obtain ⟨work, phase, holdsSlot, told, rejected⟩ := next
    dsimp only at hphase
    subst hphase
    rw [State.executeNextIfPossible, hnext]
    dsimp only
    rw [modify_eq_set_of_getElem? hget]
    have hsame : (Item.run ⟨work, .queued, holdsSlot, told, rejected⟩).pending =
      Item.pending ⟨work, .queued, holdsSlot, told, rejected⟩ := rfl
    have hless : (Item.run ⟨work, .queued, holdsSlot, told, rejected⟩).distance + 1 =
      Item.distance ⟨work, .queued, holdsSlot, told, rejected⟩ := rfl
    exact ⟨by show (s.put m _).pending ≤ _; omega, by show (s.put m _).distance ≤ _; omega⟩

theorem closer_of_step (hs : Consistent maxConcurrent s) {e : Event}
    (hcall : e.isCall = false) (h : step s e = some s') : Closer s' s := by
  cases moves_of_step h with
  | submits work _ => cases hcall
  | ends hn hphase o => exact closer_over hn hphase o
  | lists hn hphase hreact =>
    refine closer_put hn (.inl ?_)
    rw [Item.pending, Item.pending, hphase, list_of_react hreact]
    exact Nat.zero_lt_succ 1
  | creates hn hphase hreact =>
    refine closer_submit_put hn rfl (.inl ?_)
    rw [Item.pending, Item.pending, hphase, create_of_react hreact]
    exact Nat.lt_succ_self 1
  | @goesOn n left children item hn hphase =>
    refine closer_submit_put hn rfl (.inr ⟨?_, ?_⟩)
    · rw [Item.pending, Item.pending, hphase]
    · rw [Item.distance, Item.distance, hphase]
      dsimp only
      omega
  | sets hn hphase _ =>
    refine closer_submit_put hn rfl (.inl ?_)
    rw [Item.pending, Item.pending, hphase]
    exact Nat.lt_succ_self 0
  | @releases n o item hn hphase hslot =>
    obtain ⟨slots, -, hfree⟩ := consistent_free hs hn hphase hslot
    obtain ⟨hpending, hdistance⟩ := measures_executeNextIfPossible hfree
    have hput := pending_put hn { item with holdsSlot := false }
    have hput' := distance_put hn { item with holdsSlot := false }
    have hsame : Item.pending { item with holdsSlot := false } = item.pending := rfl
    have hless : Item.distance { item with holdsSlot := false } + 1 = item.distance := by
      rw [Item.distance, Item.distance, hphase, hslot]
      rfl
    exact .inr ⟨hpending.trans (by omega), Nat.lt_of_le_of_lt hdistance (by omega)⟩
  | @tells n o item hn hphase htold =>
    refine closer_put hn (.inr ⟨le_rfl, ?_⟩)
    rw [Item.distance, Item.distance, hphase, htold]
    exact Nat.add_lt_add_right Nat.zero_lt_one _

theorem acc_of_consistent (hs : Consistent maxConcurrent s) :
    Acc (fun s' s => ∃ e, Event.isCall e = false ∧ step s e = some s') s := by
  induction wellFounded_closer.apply s with
  | intro s _ ih =>
    constructor
    rintro s' ⟨e, hcall, hstep⟩
    exact ih s' (closer_of_step hs hcall hstep) (consistent_step hs hstep)

end Termination

/-! ## Runs with few items that wait -/

section Deadlocks

instance (s : State) (item : Item) : Decidable (WaitsForQueued s item) := by
  unfold WaitsForQueued
  infer_instance

instance (s : State) : Decidable (Deadlocked s) := by
  unfold Deadlocked
  infer_instance

/-- The run lemma. -/
theorem consistent_of_reachableIf {ok : State → Event → Prop}
    (h : (machine maxConcurrent maxQueueLength).ReachableIf ok s) : Consistent maxConcurrent s := by
  refine h.invariant ?_ fun s e s' hs _ (hstep : step s e = some s') => consistent_step hs hstep
  rintro s₀ rfl
  exact consistent_new maxConcurrent maxQueueLength

theorem fluent_of_reachableIf (hpos : 0 < maxConcurrent)
    (h : (machine maxConcurrent maxQueueLength).ReachableIf (Allowed maxConcurrent) s) :
    Fluent maxConcurrent s := by
  refine h.invariant ?_ fun _ _ _ hs hallowed hstep => fluent_step hs hallowed hstep
  rintro s₀ rfl
  refine ⟨hpos, fun n item hget => ?_⟩
  cases hget

/-- As long as fewer items than there are slots wait for items of their own, there is no
deadlock and no call is turned away half way; some event is left until all items are
finished, and without new calls that is so after finitely many events. -/
theorem not_deadlocked_of_few_parents {maxConcurrent maxQueueLength : ℕ} (hpos : 0 < maxConcurrent)
    {s : State} (h : (machine maxConcurrent maxQueueLength).ReachableIf (Allowed maxConcurrent) s) :
    ¬Deadlocked s ∧ (∀ item ∈ s.items, item.work.nested = true → item.rejected = false) ∧
      ((∃ item ∈ s.items, item.isFinished = false) →
        ∃ e s', Event.isCall e = false ∧ step s e = some s') ∧
      Acc (fun s' s => ∃ e, Event.isCall e = false ∧ step s e = some s') s := by
  have hs : Consistent maxConcurrent s := consistent_of_reachableIf h
  have hfluent := fluent_of_reachableIf hpos h
  have hdeadlock := not_deadlocked hs hfluent.parents
  refine ⟨hdeadlock, fun item hitem => ?_, ?_, acc_of_consistent hs⟩
  · obtain ⟨n, hn⟩ := List.getElem?_of_mem hitem
    exact hfluent.accepted n item hn
  · rintro ⟨item, hitem, hactive⟩
    obtain ⟨n, hn⟩ := List.getElem?_of_mem hitem
    by_contra hnone
    refine hdeadlock (deadlocked_of_stuck hs (fun e s' hcall hstep => ?_) hn hactive)
    exact hnone ⟨e, s', hcall, hstep⟩

/-- One of two slots goes to a store of a node that is missing. -/
theorem not_deadlocked_store : ∃ s, ¬Deadlocked s ∧ s.parents = 1 := by
  have hinit : (machine 2 0).ReachableIf (Allowed 2)
      { limitRequests := .new 2 0, items := [] } := .init rfl
  have hcall := hinit.step (e := .call .store) (by exact trivial) rfl
  have hanswer := hcall.step (e := .answer 0 .noNode) (by
    intro item hitem
    cases hitem
    exact ⟨by decide, by decide⟩) rfl
  exact ⟨_, (not_deadlocked_of_few_parents (by decide) hanswer).1, rfl⟩

/-- A store of a node that is missing holds the only slot and waits for the item that is to
create the node. -/
theorem not_forall_not_deadlocked : ¬∀ maxConcurrent maxQueueLength : ℕ, 0 < maxConcurrent →
    ∀ s, (machine maxConcurrent maxQueueLength).Reachable s → ¬Deadlocked s := by
  intro h
  have hinit : (machine 1 1).Init { limitRequests := .new 1 1, items := [] } := rfl
  obtain ⟨s, hrun, hdeadlock⟩ : ∃ s, (machine 1 1).run { limitRequests := .new 1 1, items := [] }
      [.call .store, .answer 0 .noNode] = some s ∧ decide (Deadlocked s) = true :=
    Machine.exists_of_any (by decide)
  exact h 1 1 (by decide) s (Machine.reachableIf_of_runIf _ (.init hinit) hrun)
    (of_decide_eq_true hdeadlock)

end Deadlocks

end Marathon.Storage.ZkRequests
