import Marathon.Lib.Machine
import Marathon.Lib.Positions
import Marathon.Util.WorkQueue
import Mathlib.Data.List.Nodup

/-!
# Requests to ZooKeeper

All requests of the store go through one work queue. Listing the ids of a category and
storing a node that is missing put further items into the same queue and wait for them
without giving up their own slot.
-/

namespace Marathon.Storage.ZkRequests

open Lib Util

/-- The work items: calls to the store, and what they submit themselves. -/
inductive Work
  | get
  | delete
  | ids
  | store
  | bucket
  | create
  | setData
deriving DecidableEq

def Work.nested : Work → Bool
  | .bucket => true
  | .create => true
  | .setData => true
  | _ => false

inductive Outcome
  | ok
  | nodeExists
  | failed
deriving DecidableEq

/-- What ZooKeeper answers; children are counted where they are asked for. -/
inductive Answer
  | success (children : ℕ)
  | noNode
  | nodeExists
  | failure

inductive Phase
  | queued
  /-- A request to ZooKeeper is on its way. -/
  | requested
  /-- `rawIds` submits one item for each bucket and waits for all. -/
  | listing (left : ℕ) (children : List ℕ)
  /-- `rawStore` waits for the creation of the node, and then for its data. -/
  | creating (child : ℕ)
  | setting (child : ℕ)
  | ended (outcome : Outcome)
deriving DecidableEq

/-- Whether an item has submitted further items and is not done with them. -/
def Phase.isParent : Phase → Bool
  | .listing _ _ => true
  | .creating _ => true
  | .setting _ => true
  | _ => false

/-- The items that an item has submitted last. -/
def Phase.children : Phase → List ℕ
  | .listing _ children => children
  | .creating child => [child]
  | .setting child => [child]
  | _ => []

/-- The items that an item waits for. -/
def Phase.awaited : Phase → List ℕ
  | .listing (_ + 1) _ => []
  | phase => phase.children

structure Item where
  work : Work
  phase : Phase
  holdsSlot : Bool
  /-- Whether the promise of the item has been completed. -/
  told : Bool
  rejected : Bool

def Item.submitted (work : Work) : Admission → Item
  | .run => ⟨work, .requested, true, false, false⟩
  | .queued => ⟨work, .queued, false, false, false⟩
  | .rejected => ⟨work, .ended .failed, false, true, true⟩

def Item.run (item : Item) : Item := { item with phase := .requested, holdsSlot := true }

def Item.isFinished (item : Item) : Bool :=
  match item.phase with
  | .ended _ => item.told && !item.holdsSlot
  | _ => false

structure State where
  limitRequests : WorkQueue ℕ
  items : List Item

namespace State

def submit (s : State) (work : Work) : State :=
  let admitted := s.limitRequests.apply s.items.length
  { limitRequests := admitted.1, items := s.items ++ [.submitted work admitted.2] }

def put (s : State) (n : ℕ) (item : Item) : State := { s with items := s.items.set n item }

/-- What the promise of an item has been completed with. -/
def outcome (s : State) (n : ℕ) : Option Outcome :=
  (s.items[n]?).bind fun item =>
    match item.phase with
    | .ended o => if item.told then some o else none
    | _ => none

def executeNextIfPossible (s : State) : State :=
  let next := s.limitRequests.executeNextIfPossible
  match next.2 with
  | some m => { limitRequests := next.1, items := s.items.modify m Item.run }
  | none => { s with limitRequests := next.1 }

end State

/-- What an item does with an answer. -/
inductive Reaction
  | finish (outcome : Outcome)
  | list (buckets : ℕ)
  | create
deriving DecidableEq

def react : Work → Answer → Reaction
  | .ids, .success 0 => .finish .ok
  | .ids, .success (n + 1) => .list (n + 1)
  -- a category that is missing has no buckets
  | .ids, .noNode => .finish .ok
  | .store, .noNode => .create
  | .get, .noNode => .finish .ok
  | .delete, .noNode => .finish .ok
  | .create, .nodeExists => .finish .nodeExists
  | _, .success _ => .finish .ok
  | _, _ => .finish .failed

/-- `Future.sequence`: the futures are looked at one after another. -/
def sequence : List (Option Outcome) → Option Outcome
  | [] => some .ok
  | none :: _ => none
  | some .ok :: rest => sequence rest
  | some _ :: _ => some .failed

inductive Event
  | call (work : Work)
  /-- ZooKeeper answers the request of an item. -/
  | answer (n : ℕ) (a : Answer)
  /-- An item that has submitted further ones goes on. -/
  | resume (n : ℕ)
  /-- An item that is over gives up its slot. -/
  | release (n : ℕ)
  /-- The promise of an item that is over is completed. -/
  | tell (n : ℕ)

def Event.isCall : Event → Bool
  | .call _ => true
  | _ => false

def answered (s : State) (n : ℕ) (item : Item) (a : Answer) : Option State :=
  match item.phase with
  | .requested =>
    match react item.work a with
    | .finish o => some (s.put n { item with phase := .ended o })
    | .list buckets => some (s.put n { item with phase := .listing buckets [] })
    | .create =>
      some ((s.submit .create).put n { item with phase := .creating s.items.length })
  | _ => none

def resumed (s : State) (n : ℕ) (item : Item) : Option State :=
  match item.phase with
  | .listing (left + 1) children =>
    let phase := Phase.listing left (children ++ [s.items.length])
    some ((s.submit .bucket).put n { item with phase := phase })
  | .listing 0 children =>
    (sequence (children.map s.outcome)).map fun o => s.put n { item with phase := .ended o }
  | .creating child =>
    (s.outcome child).map fun
      | .nodeExists =>
        -- it could have been created by another call too
        (s.submit .setData).put n { item with phase := .setting s.items.length }
      | o => s.put n { item with phase := .ended o }
  | .setting child => (s.outcome child).map fun o => s.put n { item with phase := .ended o }
  | _ => none

def step (s : State) : Event → Option State
  | .call work => if work.nested then none else some (s.submit work)
  | .answer n a => (s.items[n]?).bind fun item => answered s n item a
  | .resume n => (s.items[n]?).bind fun item => resumed s n item
  | .release n =>
    (s.items[n]?).bind fun item =>
      match item.phase, item.holdsSlot with
      | .ended _, true => some (s.put n { item with holdsSlot := false }).executeNextIfPossible
      | _, _ => none
  | .tell n =>
    (s.items[n]?).bind fun item =>
      match item.phase, item.told with
      | .ended _, false => some (s.put n { item with told := true })
      | _, _ => none

def machine (maxConcurrent maxQueueLength : ℕ) : Machine State Event where
  Init s := s = { limitRequests := .new maxConcurrent maxQueueLength, items := [] }
  step := step

/-- A request or further items are awaited. -/
def Phase.isActive : Phase → Bool
  | .queued => false
  | .ended _ => false
  | _ => true

/-- All that an event can do. -/
inductive Moves (s : State) : Event → State → Prop
  | submits (work : Work) (h : work.nested = false) : Moves s (.call work) (s.submit work)
  | ends {e : Event} {n : ℕ} {item : Item} (hn : s.items[n]? = some item)
      (hphase : item.phase.isActive = true) (o : Outcome) :
      Moves s e (s.put n { item with phase := .ended o })
  | lists {n buckets : ℕ} {a : Answer} {item : Item} (hn : s.items[n]? = some item)
      (hphase : item.phase = .requested) (hreact : react item.work a = .list buckets) :
      Moves s (.answer n a) (s.put n { item with phase := .listing buckets [] })
  | creates {n : ℕ} {a : Answer} {item : Item} (hn : s.items[n]? = some item)
      (hphase : item.phase = .requested) (hreact : react item.work a = .create) :
      Moves s (.answer n a)
        ((s.submit .create).put n { item with phase := .creating s.items.length })
  | goesOn {n left : ℕ} {children : List ℕ} {item : Item} (hn : s.items[n]? = some item)
      (hphase : item.phase = .listing (left + 1) children) :
      Moves s (.resume n) ((s.submit .bucket).put n
        { item with phase := .listing left (children ++ [s.items.length]) })
  | sets {n child : ℕ} {item : Item} (hn : s.items[n]? = some item)
      (hphase : item.phase = .creating child) (houtcome : s.outcome child = some .nodeExists) :
      Moves s (.resume n)
        ((s.submit .setData).put n { item with phase := .setting s.items.length })
  | releases {n : ℕ} {o : Outcome} {item : Item} (hn : s.items[n]? = some item)
      (hphase : item.phase = .ended o) (hslot : item.holdsSlot = true) :
      Moves s (.release n) (s.put n { item with holdsSlot := false }).executeNextIfPossible
  | tells {n : ℕ} {o : Outcome} {item : Item} (hn : s.items[n]? = some item)
      (hphase : item.phase = .ended o) (htold : item.told = false) :
      Moves s (.tell n) (s.put n { item with told := true })

theorem moves_of_step {s s' : State} {e : Event} (h : step s e = some s') : Moves s e s' := by
  cases e with
  | call work =>
    rw [step] at h
    split_ifs at h with hnested
    cases h
    exact .submits work (Bool.not_eq_true _ ▸ hnested)
  | answer n a =>
    obtain ⟨item, hn, h⟩ := Option.bind_eq_some_iff.mp h
    rw [answered] at h
    split at h
    · rename_i hphase
      split at h <;> obtain rfl := Option.some.inj h
      · exact .ends hn (hphase ▸ rfl) _
      · exact .lists hn hphase ‹_›
      · exact .creates hn hphase ‹_›
    · cases h
  | resume n =>
    obtain ⟨item, hn, h⟩ := Option.bind_eq_some_iff.mp h
    rw [resumed] at h
    split at h <;> rename_i hphase
    · cases h
      exact .goesOn hn hphase
    · obtain ⟨o, -, rfl⟩ := Option.map_eq_some_iff.mp h
      exact .ends hn (hphase ▸ rfl) o
    · obtain ⟨o, houtcome, rfl⟩ := Option.map_eq_some_iff.mp h
      cases o with
      | nodeExists => exact .sets hn hphase houtcome
      | ok => exact .ends hn (hphase ▸ rfl) .ok
      | failed => exact .ends hn (hphase ▸ rfl) .failed
    · obtain ⟨o, -, rfl⟩ := Option.map_eq_some_iff.mp h
      exact .ends hn (hphase ▸ rfl) o
    · cases h
  | release n =>
    obtain ⟨item, hn, h⟩ := Option.bind_eq_some_iff.mp h
    split at h
    · cases h
      exact .releases hn ‹_› ‹_›
    · cases h
  | tell n =>
    obtain ⟨item, hn, h⟩ := Option.bind_eq_some_iff.mp h
    split at h
    · cases h
      exact .tells hn ‹_› ‹_›
    · cases h

/-- An item waits for another one that is still queued. -/
def WaitsForQueued (s : State) (item : Item) : Prop :=
  ∃ c ∈ item.phase.awaited, ∃ child ∈ s.items[c]?, child.phase = .queued

/-- All slots are held by items that wait for items which are themselves still queued. -/
def Deadlocked (s : State) : Prop :=
  s.limitRequests.openSlotsCount = 0 ∧ ∀ item ∈ s.items, item.holdsSlot → WaitsForQueued s item

/-! ## The books of the queue -/

/-- What is known of an item among the others. -/
def Fits (items : List Item) (item : Item) : Prop :=
  match item.phase with
  | .queued => item.holdsSlot = false ∧ item.told = false
  | .requested => item.holdsSlot = true ∧ item.told = false
  | .ended _ => True
  | phase => item.holdsSlot = true ∧ item.told = false ∧ item.work.nested = false ∧
    ∀ c ∈ phase.children, ∃ child, items[c]? = some child ∧ child.work.nested = true

/-- Slots are accounted for, and the queue holds the items that are queued. -/
structure Consistent (maxConcurrent : ℕ) (s : State) : Prop where
  slots : s.limitRequests.openSlotsCount + s.items.countP Item.holdsSlot = maxConcurrent
  queued : ∀ n, n ∈ s.limitRequests.queue ↔ ∃ item, s.items[n]? = some item ∧ item.phase = .queued
  nodup : s.limitRequests.queue.Nodup
  fits : ∀ (n : ℕ) (item : Item), s.items[n]? = some item → Fits s.items item

theorem Fits.mono {items items' : List Item}
    (h : ∀ (c : ℕ) (child : Item), items[c]? = some child →
      ∃ child', items'[c]? = some child' ∧ child'.work = child.work)
    {item : Item} (hfits : Fits items item) : Fits items' item := by
  have hchildren : ∀ {children : List ℕ},
      (∀ c ∈ children, ∃ child, items[c]? = some child ∧ child.work.nested = true) →
      ∀ c ∈ children, ∃ child, items'[c]? = some child ∧ child.work.nested = true := by
    intro children hold c hc
    obtain ⟨child, hget, hnested⟩ := hold c hc
    obtain ⟨child', hget', hwork⟩ := h c child hget
    exact ⟨child', hget', hwork ▸ hnested⟩
  rw [Fits] at hfits ⊢
  cases hphase : item.phase with
  | listing left children =>
    rw [hphase] at hfits
    exact ⟨hfits.1, hfits.2.1, hfits.2.2.1, hchildren hfits.2.2.2⟩
  | creating child =>
    rw [hphase] at hfits
    exact ⟨hfits.1, hfits.2.1, hfits.2.2.1, hchildren hfits.2.2.2⟩
  | setting child =>
    rw [hphase] at hfits
    exact ⟨hfits.1, hfits.2.1, hfits.2.2.1, hchildren hfits.2.2.2⟩
  | queued =>
    rw [hphase] at hfits
    exact hfits
  | requested =>
    rw [hphase] at hfits
    exact hfits
  | ended o => trivial

theorem fits_submitted (items : List Item) (work : Work) (admission : Admission) :
    Fits items (.submitted work admission) := by
  cases admission with
  | run => exact ⟨rfl, rfl⟩
  | queued => exact ⟨rfl, rfl⟩
  | rejected => trivial

theorem consistent_new (maxConcurrent maxQueueLength : ℕ) :
    Consistent maxConcurrent
      { limitRequests := .new maxConcurrent maxQueueLength, items := [] } where
  slots := rfl
  queued n := by
    constructor
    · intro h
      cases h
    · rintro ⟨item, hget, -⟩
      cases hget
  nodup := List.nodup_nil
  fits n item hget := by cases hget

section Steps

variable {maxConcurrent : ℕ} {s : State} {n : ℕ} {item : Item}

theorem exists_of_submit (work : Work) {c : ℕ} {child : Item} (h : s.items[c]? = some child) :
    (s.submit work).items[c]? = some child :=
  getElem?_concat_eq_some.mpr (.inl h)

theorem consistent_submit (hs : Consistent maxConcurrent s) (work : Work) :
    Consistent maxConcurrent (s.submit work) := by
  have hfits : ∀ {admission : Admission} (n : ℕ) (item : Item),
      (s.items ++ [Item.submitted work admission])[n]? = some item →
        Fits (s.items ++ [Item.submitted work admission]) item := by
    intro admission n item hget
    rcases getElem?_concat_eq_some.mp hget with hold | ⟨-, rfl⟩
    · refine (hs.fits n item hold).mono fun c child hchild => ⟨child, ?_, rfl⟩
      exact getElem?_concat_eq_some.mpr (.inl hchild)
    · exact fits_submitted _ work admission
  have hslots := hs.slots
  have hcount : ∀ admission : Admission,
      (s.items ++ [Item.submitted work admission]).countP Item.holdsSlot =
        s.items.countP Item.holdsSlot + (if admission = .run then 1 else 0) := by
    intro admission
    rw [List.countP_append, List.countP_singleton]
    cases admission <;> rfl
  rcases s.limitRequests.apply_cases s.items.length with
    ⟨q, happly, hopen, hqueue, -⟩ | ⟨q, happly, hfull, hopen, hqueue, -⟩ | ⟨happly, -⟩
  · rw [State.submit, happly]
    refine ⟨?_, ?_, hqueue ▸ hs.nodup, hfits⟩
    · show q.openSlotsCount + (s.items ++ [_]).countP Item.holdsSlot = maxConcurrent
      rw [hcount, if_pos rfl]
      omega
    · intro n
      show n ∈ q.queue ↔ _
      rw [hqueue, hs.queued n]
      refine exists_congr fun item => ?_
      rw [getElem?_concat_eq_some, or_and_right]
      refine (or_iff_left ?_).symm
      rintro ⟨⟨-, rfl⟩, hphase⟩
      cases hphase
  · rw [State.submit, happly]
    refine ⟨?_, ?_, ?_, hfits⟩
    · show q.openSlotsCount + (s.items ++ [_]).countP Item.holdsSlot = maxConcurrent
      rw [hcount, if_neg fun h => nomatch h]
      omega
    · intro n
      show n ∈ q.queue ↔ _
      rw [hqueue, List.mem_append, hs.queued n, List.mem_singleton]
      constructor
      · rintro (⟨item, hget, hphase⟩ | rfl)
        · exact ⟨item, getElem?_concat_eq_some.mpr (.inl hget), hphase⟩
        · exact ⟨_, getElem?_concat_eq_some.mpr (.inr ⟨rfl, rfl⟩), rfl⟩
      · rintro ⟨item, hget, hphase⟩
        rcases getElem?_concat_eq_some.mp hget with hold | ⟨rfl, -⟩
        · exact .inl ⟨item, hold, hphase⟩
        · exact .inr rfl
    · show q.queue.Nodup
      rw [hqueue, List.nodup_append]
      refine ⟨hs.nodup, List.nodup_singleton _, fun m hm m' hm' => ?_⟩
      obtain ⟨item, hget, -⟩ := (hs.queued m).mp hm
      have hlt := lt_length_of_getElem? hget
      rw [List.mem_singleton.mp hm']
      exact hlt.ne
  · rw [State.submit, happly]
    refine ⟨?_, ?_, hs.nodup, hfits⟩
    · show s.limitRequests.openSlotsCount + (s.items ++ [_]).countP Item.holdsSlot = maxConcurrent
      rw [hcount, if_neg fun h => nomatch h]
      exact hslots
    · intro n
      show n ∈ s.limitRequests.queue ↔ _
      rw [hs.queued n]
      refine exists_congr fun item => ?_
      rw [getElem?_concat_eq_some, or_and_right]
      refine (or_iff_left ?_).symm
      rintro ⟨⟨-, rfl⟩, hphase⟩
      cases hphase

theorem exists_of_set (hn : s.items[n]? = some item) {item' : Item}
    (hwork : item'.work = item.work) (c : ℕ) (child : Item) (hget : s.items[c]? = some child) :
    ∃ child', (s.items.set n item')[c]? = some child' ∧ child'.work = child.work := by
  have hlt := lt_length_of_getElem? hn
  by_cases hc : c = n
  · subst hc
    cases hn.symm.trans hget
    exact ⟨item', (getElem?_set_eq_some hlt).mpr (.inl ⟨rfl, rfl⟩), hwork⟩
  · exact ⟨child, (getElem?_set_eq_some hlt).mpr (.inr ⟨hc, hget⟩), rfl⟩

theorem fits_put (hs : Consistent maxConcurrent s) (hn : s.items[n]? = some item)
    {item' : Item} (hwork : item'.work = item.work) (hfits : Fits s.items item')
    (m : ℕ) (i : Item) (hget : (s.items.set n item')[m]? = some i) :
    Fits (s.items.set n item') i := by
  rcases (getElem?_set_eq_some (lt_length_of_getElem? hn)).mp hget with ⟨-, rfl⟩ | ⟨-, hold⟩
  · exact hfits.mono (exists_of_set hn hwork)
  · exact (hs.fits m i hold).mono (exists_of_set hn hwork)

theorem consistent_put (hs : Consistent maxConcurrent s) (hn : s.items[n]? = some item)
    (item' : Item) (hwork : item'.work = item.work) {slots : ℕ}
    (hslots : maxConcurrent + (if item'.holdsSlot then 1 else 0) =
      slots + (if item.holdsSlot then 1 else 0))
    (hphase : item.phase ≠ .queued) (hphase' : item'.phase ≠ .queued)
    (hfits : Fits s.items item') : Consistent slots (s.put n item') := by
  have hlt := lt_length_of_getElem? hn
  refine ⟨?_, fun m => ?_, hs.nodup, fits_put hs hn hwork hfits⟩
  · have hcount := countP_set_add (p := Item.holdsSlot) (b := item') hn
    have hold := hs.slots
    show s.limitRequests.openSlotsCount + (s.items.set n item').countP Item.holdsSlot = _
    omega
  · show m ∈ s.limitRequests.queue ↔ ∃ i, (s.items.set n item')[m]? = some i ∧ i.phase = .queued
    rw [hs.queued m]
    refine exists_congr fun i => ?_
    rw [getElem?_set_eq_some hlt]
    constructor
    · rintro ⟨hget, hq⟩
      refine ⟨.inr ⟨?_, hget⟩, hq⟩
      rintro rfl
      cases hn.symm.trans hget
      exact hphase hq
    · rintro ⟨⟨-, rfl⟩ | ⟨-, hget⟩, hq⟩
      · exact absurd hq hphase'
      · exact ⟨hget, hq⟩

theorem consistent_executeNextIfPossible (hs : Consistent maxConcurrent s) :
    Consistent (maxConcurrent + 1) s.executeNextIfPossible := by
  have hslots := hs.slots
  rcases s.limitRequests.executeNextIfPossible_cases with
    ⟨q, hnext, hempty, hempty', hopen, -⟩ | ⟨q, m, hnext, hqueue, hopen, -⟩
  · rw [State.executeNextIfPossible, hnext]
    refine ⟨?_, fun m => ?_, ?_, hs.fits⟩
    · dsimp only
      omega
    · rw [← hs.queued m, hempty]
      rw [hempty']
    · dsimp only
      rw [hempty']
      exact List.nodup_nil
  · obtain ⟨next, hget, hphase⟩ := (hs.queued m).mp (hqueue ▸ List.mem_cons_self)
    have hlt := lt_length_of_getElem? hget
    have hnodup : (m :: q.queue).Nodup := hqueue ▸ hs.nodup
    have hnew : next.holdsSlot = false ∧ next.told = false := by
      have hfit := hs.fits m next hget
      rw [Fits, hphase] at hfit
      exact hfit
    rw [State.executeNextIfPossible, hnext]
    dsimp only
    rw [modify_eq_set_of_getElem? hget]
    have hrun : Fits s.items next.run := ⟨rfl, hnew.2⟩
    refine ⟨?_, fun m' => ?_, (List.nodup_cons.mp hnodup).2, fits_put hs hget rfl hrun⟩
    · have hcount := countP_set_add (p := Item.holdsSlot) (b := next.run) hget
      rw [hnew.1, if_neg Bool.false_ne_true, Item.run, if_pos rfl] at hcount
      dsimp only
      rw [Item.run]
      omega
    · dsimp only
      constructor
      · intro hm'
        have hne : m' ≠ m := fun h => (List.nodup_cons.mp hnodup).1 (h ▸ hm')
        obtain ⟨i, hi, hq⟩ := (hs.queued m').mp (hqueue ▸ List.mem_cons_of_mem m hm')
        exact ⟨i, (getElem?_set_eq_some hlt).mpr (.inr ⟨hne, hi⟩), hq⟩
      · rintro ⟨i, hi, hq⟩
        rcases (getElem?_set_eq_some hlt).mp hi with ⟨-, rfl⟩ | ⟨hne, hold⟩
        · cases hq
        · have hold' := (hs.queued m').mpr ⟨i, hold, hq⟩
          rw [hqueue] at hold'
          exact (List.mem_cons.mp hold').resolve_left hne

/-- While the slot of an item is handed on one slot less is accounted for. -/
theorem consistent_free (hs : Consistent maxConcurrent s) (hn : s.items[n]? = some item)
    {o : Outcome} (hphase : item.phase = .ended o) (hslot : item.holdsSlot = true) :
    ∃ slots, maxConcurrent = slots + 1 ∧
      Consistent slots (s.put n { item with holdsSlot := false }) := by
  have hactive : item.phase ≠ .queued := fun h => nomatch hphase.symm.trans h
  let freed : Item := { item with holdsSlot := false }
  have hfreed : freed.phase ≠ .queued := hactive
  have hfits : Fits s.items freed := by
    rw [Fits, show freed.phase = .ended o from hphase]
    trivial
  have hheld : 0 < s.items.countP Item.holdsSlot :=
    List.countP_pos_iff.mpr ⟨item, List.mem_of_getElem? hn, hslot⟩
  have hslots := hs.slots
  have hone : maxConcurrent = maxConcurrent - 1 + 1 := by omega
  refine ⟨maxConcurrent - 1, hone, consistent_put hs hn freed rfl ?_ hactive hfreed hfits⟩
  rw [hslot]
  exact hone

theorem consistent_release (hs : Consistent maxConcurrent s) (hn : s.items[n]? = some item)
    {o : Outcome} (hphase : item.phase = .ended o) (hslot : item.holdsSlot = true) :
    Consistent maxConcurrent (s.put n { item with holdsSlot := false }).executeNextIfPossible := by
  obtain ⟨slots, rfl, hfree⟩ := consistent_free hs hn hphase hslot
  exact consistent_executeNextIfPossible hfree

theorem consistent_submit_put (hs : Consistent maxConcurrent s) (hn : s.items[n]? = some item)
    (hactive : item.phase ≠ .queued) (hslot : item.holdsSlot = true) (htold : item.told = false)
    (hwork : item.work.nested = false) {work : Work} (hnested : work.nested = true)
    {phase : Phase} (hparent : phase.isParent)
    (hchildren : ∀ c ∈ phase.children, c = s.items.length ∨
      ∃ child, s.items[c]? = some child ∧ child.work.nested = true) :
    Consistent maxConcurrent ((s.submit work).put n { item with phase := phase }) := by
  have hn' : (s.submit work).items[n]? = some item := exists_of_submit work hn
  let next : Item := { item with phase := phase }
  have hnext : next.phase ≠ .queued := by
    intro h
    rw [show next.phase = phase from rfl] at h
    rw [h] at hparent
    cases hparent
  have hsubmitted : ∀ c ∈ phase.children,
      ∃ child, (s.submit work).items[c]? = some child ∧ child.work.nested = true := by
    intro c hc
    rcases hchildren c hc with rfl | ⟨child, hget, hchild⟩
    · refine ⟨_, getElem?_concat_eq_some.mpr (.inr ⟨rfl, rfl⟩), ?_⟩
      cases (s.limitRequests.apply s.items.length).2 <;> exact hnested
    · exact ⟨child, exists_of_submit work hget, hchild⟩
  have hfits : Fits (s.submit work).items next := by
    cases phase with
    | listing left children => exact ⟨hslot, htold, hwork, hsubmitted⟩
    | creating child => exact ⟨hslot, htold, hwork, hsubmitted⟩
    | setting child => exact ⟨hslot, htold, hwork, hsubmitted⟩
    | _ => cases hparent
  exact consistent_put (consistent_submit hs work) hn' next rfl rfl hactive hnext hfits

theorem list_of_react {work : Work} {a : Answer} {buckets : ℕ}
    (h : react work a = .list buckets) : work = .ids := by
  cases work <;> rcases a with (_ | _) | _ | _ | _ <;> first | rfl | cases h

theorem create_of_react {work : Work} {a : Answer} (h : react work a = .create) :
    work = .store := by
  cases work <;> rcases a with (_ | _) | _ | _ | _ <;> first | rfl | cases h

theorem consistent_step (hs : Consistent maxConcurrent s) {e : Event} {s' : State}
    (h : step s e = some s') : Consistent maxConcurrent s' := by
  have hactive : ∀ {phase : Phase}, phase ≠ .queued → ∀ {item : Item}, item.phase = phase →
      item.phase ≠ .queued := fun hne _ hphase => hphase ▸ hne
  cases moves_of_step h with
  | submits work _ => exact consistent_submit hs work
  | @ends _ n item hn hphase o =>
    refine consistent_put hs hn { item with phase := .ended o } rfl rfl ?_ (fun hq => nomatch hq)
      trivial
    intro hq
    rw [hq] at hphase
    cases hphase
  | @lists n buckets a item hn hphase hreact =>
    have hfits := hs.fits n item hn
    rw [Fits, hphase] at hfits
    have hwork : item.work.nested = false := by rw [list_of_react hreact]; rfl
    refine consistent_put hs hn { item with phase := .listing buckets [] } rfl rfl
      (hactive (by decide) hphase) (fun hq => nomatch hq) ⟨hfits.1, hfits.2, hwork, fun c hc => ?_⟩
    cases hc
  | @creates n a item hn hphase hreact =>
    have hfits := hs.fits n item hn
    rw [Fits, hphase] at hfits
    have hwork : item.work.nested = false := by rw [create_of_react hreact]; rfl
    exact consistent_submit_put hs hn (hactive (by decide) hphase) hfits.1 hfits.2 hwork rfl rfl
      fun c hc => .inl (List.mem_singleton.mp hc)
  | @goesOn n left children item hn hphase =>
    have hfits := hs.fits n item hn
    rw [Fits, hphase] at hfits
    obtain ⟨hslot, htold, hwork, hchildren⟩ := hfits
    refine consistent_submit_put hs hn (hactive Phase.noConfusion hphase) hslot htold hwork rfl rfl
      fun c hc => ?_
    rcases List.mem_append.mp hc with hc | hc
    · exact .inr (hchildren c hc)
    · exact .inl (List.mem_singleton.mp hc)
  | @sets n child item hn hphase _ =>
    have hfits := hs.fits n item hn
    rw [Fits, hphase] at hfits
    obtain ⟨hslot, htold, hwork, -⟩ := hfits
    exact consistent_submit_put hs hn (hactive Phase.noConfusion hphase) hslot htold hwork rfl rfl
      fun c hc => .inl (List.mem_singleton.mp hc)
  | releases hn hphase hslot => exact consistent_release hs hn hphase hslot
  | @tells n o item hn hphase _ =>
    have hfits : Fits s.items { item with told := true } := by
      rw [Fits, show ({ item with told := true } : Item).phase = .ended o from hphase]
      trivial
    exact consistent_put hs hn { item with told := true } rfl rfl
      (hactive Phase.noConfusion hphase) (hactive Phase.noConfusion hphase) hfits

end Steps

end Marathon.Storage.ZkRequests
