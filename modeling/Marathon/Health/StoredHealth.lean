import Marathon.Health.HealthCheckActor
import Marathon.State.RootGroup

/-!
# The stored health

The health of an instance when the results that count are taken one after another in the order in
which they came, and the failures for which it is to be killed. The actor stores this health as long
as no two results of an instance are at work at the same time: of two that overlap each one is
combined with the same old health, and what is processed last overwrites the other.
-/

namespace Marathon.HealthCheckActor

open Lib

/-! ## What is documented -/

/-- The health, and how many failures that count have come in a row. -/
structure Course where
  health : Health
  failures : ℕ

section

variable (actor : HealthCheckActor)

/-- Whether a result counts for an instance with this health. A failure counts when the tracker has
answered, unless it is to be ignored. -/
def counts (health : Health) : HealthResult → Option Answer → Bool
  | .healthy .., _ => true
  | .unhealthy .., some ⟨some i, now⟩ => !actor.ignoreFailures i health now
  | .unhealthy .., some ⟨none, _⟩ => true
  | .unhealthy .., none => false
  | .ignored .., _ => false

def Course.start (instanceId : InstanceId) : Course := ⟨.ofInstance instanceId, 0⟩

def isFailure : HealthResult → Bool
  | .unhealthy .. => true
  | _ => false

def failuresAfter (failures : ℕ) : HealthResult → ℕ
  | .unhealthy .. => failures + 1
  | _ => 0

def Course.next (instanceId : InstanceId) (course : Course) : Entry → Course
  | .result result answer =>
    if actor.counts course.health result answer then
      ⟨(course.health.update result).toOption.getD course.health,
        failuresAfter course.failures result⟩
    else course
  | .purged => .start instanceId

/-- The health after the entries of an instance. -/
def course (instanceId : InstanceId) (entries : List Entry) : Course :=
  entries.foldl (Course.next actor instanceId) (.start instanceId)

/-- A failure that counts and with which more than `maxConsecutiveFailures` have come in a row, of
an instance that is known and not unreachable. -/
def Exceeds (instanceId : InstanceId) (entries : List Entry) (position : ℕ) : Prop :=
  ∃ result i now, entries[position]? = some (.result result (some ⟨some i, now⟩)) ∧
    isFailure result = true ∧
      let before := actor.course instanceId (entries.take position)
      actor.ignoreFailures i before.health now = false ∧
      0 < actor.healthCheck.maxConsecutiveFailures ∧
      actor.healthCheck.maxConsecutiveFailures < before.failures + 1 ∧
      i.isUnreachable = false

/-- No result of the instance is at work. -/
def Idle (s : State) (instanceId : InstanceId) : Prop :=
  (∀ lookup ∈ s.lookups, lookup.result.instanceId ≠ instanceId) ∧
    ∀ message ∈ s.mailbox, message.result.instanceId ≠ instanceId

/-- When all messages about an instance are processed, its health is stored and it has been killed
for the failures for which it is to be. -/
def Stored (s : State) : Prop :=
  ∀ instanceId, Idle s instanceId →
    s.health instanceId = (actor.course instanceId (s.entries instanceId)).health ∧
      ∀ position, (instanceId, position) ∈ s.kills ↔
        actor.Exceeds instanceId (s.entries instanceId) position

/-- Results come and statuses are purged of instances without a result at work; every lookup is
answered, with an instance that has one task; and the failures in a row are counted by an `Int`. -/
def OneAtATime (s : State) : Event → Prop
  | .received result => result.version = actor.app.version → Idle s result.instanceId
  | .lookedUp position answer => (∀ i, answer.instance = some i → i.tasksMap.size = 1) ∧
    ∀ lookup, s.lookups[position]? = some lookup →
      (actor.course lookup.result.instanceId
        (s.entries lookup.result.instanceId)).failures < 2 ^ 31
  | .lookupFailed _ => False
  | .processed _ => True
  | .purged instances => ∀ instanceId ∈ inactiveInstanceIds instances, Idle s instanceId

end

/-! ## Courses -/

variable {actor : HealthCheckActor} {instanceId : InstanceId}

theorem course_append (entries : List Entry) (entry : Entry) :
    actor.course instanceId (entries ++ [entry]) =
      (actor.course instanceId entries).next actor instanceId entry := by
  rw [course, List.foldl_append, List.foldl_cons, List.foldl_nil]
  rfl

variable {result : HealthResult} {entries : List Entry} {position : ℕ} {lookup : Lookup}
  {message : InstanceHealth}

theorem course_append_unanswered (entries : List Entry)
    (h : ∀ health, actor.counts health result none = false) :
    actor.course instanceId (entries ++ [.result result none]) =
      actor.course instanceId entries := by
  rw [course_append, Course.next, h, if_neg Bool.false_ne_true]

theorem course_append_purged (entries : List Entry) :
    actor.course instanceId (entries ++ [.purged]) = .start instanceId := course_append entries _

theorem consecutiveFailures_course (entries : List Entry) :
    (actor.course instanceId entries).health.consecutiveFailures =
      ((actor.course instanceId entries).failures : ℤ).bmod (2 ^ 32) := by
  induction entries using List.reverseRecOn with
  | nil => exact Int.zero_bmod.symm
  | append_singleton entries entry ih =>
    rw [course_append]
    cases entry with
    | purged => exact Int.zero_bmod.symm
    | result result answer =>
      unfold Course.next
      dsimp only
      split_ifs with hcounts
      · cases result with
        | healthy => exact Int.zero_bmod.symm
        | ignored => cases hcounts
        | unhealthy =>
          dsimp only [Health.update, failuresAfter, Except.toOption, Option.getD_some]
          rw [ih, Int.natCast_add, Int.natCast_one, Int.bmod_add_bmod]
      · exact ih

theorem consecutiveFailures_of_lt (h : (actor.course instanceId entries).failures < 2 ^ 31) :
    (actor.course instanceId entries).health.consecutiveFailures =
      (actor.course instanceId entries).failures := by
  rw [consecutiveFailures_course]
  apply Int.bmod_eq_of_le <;> omega

/-! ## Failures for which an instance is to be killed -/

theorem not_exceeds_of_le (h : entries.length ≤ position) :
    ¬ actor.Exceeds instanceId entries position := by
  rintro ⟨_, _, _, hentry, _⟩
  rw [List.getElem?_eq_none h] at hentry
  cases hentry

theorem exceeds_append_of_lt (h : position < entries.length) (entry : Entry) :
    actor.Exceeds instanceId (entries ++ [entry]) position ↔
      actor.Exceeds instanceId entries position := by
  unfold Exceeds
  rw [List.getElem?_append_left h, List.take_append_of_le_length h.le]

theorem exceeds_append {entry : Entry} :
    actor.Exceeds instanceId (entries ++ [entry]) position ↔
      actor.Exceeds instanceId entries position ∨
        position = entries.length ∧
          actor.Exceeds instanceId (entries ++ [entry]) entries.length := by
  rcases lt_trichotomy position entries.length with hlt | rfl | hgt
  · have hne : position ≠ entries.length := by omega
    rw [exceeds_append_of_lt hlt]
    simp only [hne, false_and, or_false]
  · simp only [not_exceeds_of_le le_rfl, false_or, true_and]
  · have hne : position ≠ entries.length := by omega
    have hlength : (entries ++ [entry]).length ≤ position := by
      rw [List.length_append, List.length_singleton]
      omega
    simp only [not_exceeds_of_le hlength, not_exceeds_of_le hgt.le, hne, false_and, or_false]

theorem exceeds_append_of_unanswered {entry : Entry}
    (h : ∀ result answer, entry ≠ .result result (some answer)) :
    actor.Exceeds instanceId (entries ++ [entry]) position ↔
      actor.Exceeds instanceId entries position := by
  rw [exceeds_append, or_iff_left]
  rintro ⟨_, _, _, _, hentry, _⟩
  rw [List.getElem?_concat_length] at hentry
  exact h _ _ (Option.some.inj hentry)

theorem exceeds_last {answer : Answer} (hfailure : isFailure result = true) :
    actor.Exceeds instanceId (entries ++ [.result result (some answer)]) entries.length ↔
      ∃ i, answer.instance = some i ∧
        actor.ignoreFailures i (actor.course instanceId entries).health answer.now = false ∧
        0 < actor.healthCheck.maxConsecutiveFailures ∧
        actor.healthCheck.maxConsecutiveFailures <
          (actor.course instanceId entries).failures + 1 ∧
        i.isUnreachable = false := by
  unfold Exceeds
  rw [List.getElem?_concat_length, List.take_left]
  constructor
  · rintro ⟨_, i, now, hentry, _, hexceeds⟩
    obtain ⟨-, hanswer⟩ := Entry.result.inj (Option.some.inj hentry)
    cases hanswer
    exact ⟨i, rfl, hexceeds⟩
  · rintro ⟨i, hi, hexceeds⟩
    refine ⟨result, i, answer.now, ?_, hfailure, hexceeds⟩
    rw [← hi]

/-! ## The answer to a lookup -/

theorem exists_appTask {i : Instance} (hsize : i.tasksMap.size = 1) :
    ∃ task, i.appTask = .ok task := by
  have hlength : i.tasks.length = 1 := by
    rw [← hsize, Instance.tasks, Dict.values, Dict.size, AList.keys, List.keys, List.length_map,
      List.length_map]
  obtain ⟨task, htask⟩ := List.length_eq_one_iff.mp hlength
  refine ⟨task, ?_⟩
  rw [Instance.appTask, htask]
  rfl

theorem checkConsecutiveFailures_eq {i : Instance} (hsize : i.tasksMap.size = 1) (health : Health)
    (now : Timestamp) :
    ∃ effects, actor.checkConsecutiveFailures i health now = .ok effects ∧
      (effects.any Effect.isKill = true ↔
        actor.healthCheck.maxConsecutiveFailures ≤ health.consecutiveFailures ∧
          0 < actor.healthCheck.maxConsecutiveFailures ∧ i.isUnreachable = false) := by
  obtain ⟨task, htask⟩ := exists_appTask hsize
  unfold checkConsecutiveFailures
  by_cases hfailures : actor.healthCheck.maxConsecutiveFailures ≤ health.consecutiveFailures ∧
      0 < actor.healthCheck.maxConsecutiveFailures
  · rw [if_pos hfailures]
    cases hunreachable : i.isUnreachable with
    | true => exact ⟨[], rfl, by simp⟩
    | false =>
      rw [if_neg Bool.false_ne_true, if_neg (not_not.mpr hsize), htask]
      exact ⟨_, rfl, iff_of_true rfl ⟨hfailures.1, hfailures.2, rfl⟩⟩
  · rw [if_neg hfailures]
    refine ⟨[], rfl, iff_of_false Bool.false_ne_true ?_⟩
    rintro ⟨hle, hpos, _⟩
    exact hfailures ⟨hle, hpos⟩

theorem lookedUp_eq (answer : Answer) (hfailure : isFailure result = true)
    (hsize : ∀ i, answer.instance = some i → i.tasksMap.size = 1)
    (hfailures : (actor.course instanceId entries).failures < 2 ^ 31) :
    let outcome := actor.lookedUp result (actor.course instanceId entries).health answer.instance
      answer.now
    outcome.2 =
        .ok (actor.course instanceId (entries ++ [.result result (some answer)])).health ∧
      (outcome.1.any Effect.isKill = true ↔
        actor.Exceeds instanceId (entries ++ [.result result (some answer)]) entries.length) := by
  rw [exceeds_last hfailure, course_append]
  cases result with
  | healthy => cases hfailure
  | ignored => cases hfailure
  | unhealthy id version cause time publishEvent =>
    rcases answer with ⟨maybeInstance, now⟩
    cases maybeInstance with
    | none =>
      refine ⟨rfl, iff_of_false Bool.false_ne_true ?_⟩
      rintro ⟨i, hi, _⟩
      cases hi
    | some i =>
      have hcounts : actor.counts (actor.course instanceId entries).health
          (.unhealthy id version cause time publishEvent) (some ⟨some i, now⟩) =
            !actor.ignoreFailures i (actor.course instanceId entries).health now := rfl
      unfold lookedUp Course.next
      dsimp only
      rw [hcounts]
      cases hignored : actor.ignoreFailures i (actor.course instanceId entries).health now with
      | true =>
        refine ⟨rfl, iff_of_false Bool.false_ne_true ?_⟩
        rintro ⟨i', hi, hcounted, _⟩
        cases hi
        rw [hignored] at hcounted
        cases hcounted
      | false =>
        obtain ⟨effects, heffects, hkill⟩ :=
          checkConsecutiveFailures_eq (hsize i rfl) (actor.course instanceId entries).health now
        rw [if_neg Bool.false_ne_true, heffects]
        refine ⟨rfl, ?_⟩
        have hfailed : ∀ b : Bool, (if b then [Effect.failedHealthCheck actor.app.id id
            actor.healthCheck] else []).any Effect.isKill = false := by
          intro b
          cases b <;> rfl
        rw [List.any_append, HealthResult.publishEvent, HealthResult.instanceId, hfailed,
          Bool.false_or, hkill, consecutiveFailures_of_lt hfailures]
        simp only [Option.some.injEq, exists_eq_left', hignored, true_and]
        constructor
        · rintro ⟨hle, hpos, hreachable⟩
          exact ⟨hpos, by omega, hreachable⟩
        · rintro ⟨hpos, hlt, hreachable⟩
          exact ⟨by omega, hpos, hreachable⟩

/-! ## The invariant -/

/-- The instances with a result at work. -/
def pendingIds (s : State) : List InstanceId :=
  s.lookups.map (·.result.instanceId) ++ s.mailbox.map (·.result.instanceId)

theorem idle_iff {s : State} : Idle s instanceId ↔ instanceId ∉ pendingIds s := by
  unfold Idle pendingIds
  rw [List.mem_append, not_or]
  apply and_congr <;> simp

/-- A failure that the tracker has been asked about is the last entry of its instance, and is
combined with the health after the others. -/
def Asked (actor : HealthCheckActor) (s : State) (lookup : Lookup) : Prop :=
  isFailure lookup.result = true ∧
    ∃ before, s.entries lookup.result.instanceId = before ++ [.result lookup.result none] ∧
      lookup.position = before.length ∧
      lookup.health = (actor.course lookup.result.instanceId before).health

/-- A message about a result has the health after all entries of its instance. -/
def Told (actor : HealthCheckActor) (s : State) (message : InstanceHealth) : Prop :=
  message.newHealth =
    (actor.course message.result.instanceId (s.entries message.result.instanceId)).health

/-- The health is the one after all entries of the instance. -/
def Settled (actor : HealthCheckActor) (s : State) (instanceId : InstanceId) : Prop :=
  s.health instanceId = (actor.course instanceId (s.entries instanceId)).health

def Killed (actor : HealthCheckActor) (s : State) (instanceId : InstanceId) : Prop :=
  ∀ position, (instanceId, position) ∈ s.kills ↔
    actor.Exceeds instanceId (s.entries instanceId) position

/-- One result of an instance at most is at work. -/
structure InOrder (actor : HealthCheckActor) (s : State) : Prop where
  nodup : (pendingIds s).Nodup
  asked : ∀ lookup ∈ s.lookups, Asked actor s lookup
  told : ∀ message ∈ s.mailbox, Told actor s message
  settled : ∀ instanceId ∉ pendingIds s, Settled actor s instanceId
  killed : ∀ instanceId, Killed actor s instanceId

/-- The same of all other instances than one, of which no result is at work. -/
structure InOrderBut (actor : HealthCheckActor) (s : State) (instanceId : InstanceId) : Prop where
  idle : instanceId ∉ pendingIds s
  nodup : (pendingIds s).Nodup
  asked : ∀ lookup ∈ s.lookups, Asked actor s lookup
  told : ∀ message ∈ s.mailbox, Told actor s message
  settled : ∀ other ∉ pendingIds s, other ≠ instanceId → Settled actor s other
  killed : ∀ other ≠ instanceId, Killed actor s other

theorem inOrder_empty : InOrder actor .empty where
  nodup := List.nodup_nil
  asked := fun _ h => nomatch h
  told := fun _ h => nomatch h
  settled := fun _ _ => rfl
  killed := fun _ _ => iff_of_false List.not_mem_nil (not_exceeds_of_le (Nat.zero_le _))

theorem InOrder.stored {s : State} (h : InOrder actor s) : actor.Stored s := fun instanceId hidle =>
  ⟨h.settled instanceId (idle_iff.mp hidle), h.killed instanceId⟩

/-! ### Taking one instance out -/

variable {s : State}

theorem InOrder.but (h : InOrder actor s) (hidle : instanceId ∉ pendingIds s) :
    InOrderBut actor s instanceId :=
  ⟨hidle, h.nodup, h.asked, h.told, fun other hother _ => h.settled other hother,
    fun other _ => h.killed other⟩

theorem InOrder.but_lookup (h : InOrder actor s) (hlookup : s.lookups[position]? = some lookup) :
    InOrderBut actor { s with lookups := s.lookups.eraseIdx position }
      lookup.result.instanceId := by
  obtain ⟨hlt, rfl⟩ := List.getElem?_eq_some_iff.mp hlookup
  have hperm : (pendingIds s).Perm (s.lookups[position].result.instanceId ::
      pendingIds { s with lookups := s.lookups.eraseIdx position }) :=
    (((List.getElem_cons_eraseIdx_perm hlt).symm.map _).append_right _)
  have hnodup := List.nodup_cons.mp (hperm.nodup_iff.mp h.nodup)
  refine ⟨hnodup.1, hnodup.2, ?_, h.told, ?_, fun other _ => h.killed other⟩
  · intro lookup hmem
    exact h.asked lookup (List.mem_of_mem_eraseIdx hmem)
  · intro other hother hne
    apply h.settled other
    rw [hperm.mem_iff, List.mem_cons, not_or]
    exact ⟨hne, hother⟩

theorem InOrder.but_message (h : InOrder actor s) (hmessage : s.mailbox[position]? = some message) :
    InOrderBut actor { s with mailbox := s.mailbox.eraseIdx position }
      message.result.instanceId := by
  obtain ⟨hlt, rfl⟩ := List.getElem?_eq_some_iff.mp hmessage
  have hperm : (pendingIds s).Perm (s.mailbox[position].result.instanceId ::
      pendingIds { s with mailbox := s.mailbox.eraseIdx position }) :=
    ((List.getElem_cons_eraseIdx_perm hlt).symm.map _).append_left _ |>.trans List.perm_middle
  have hnodup := List.nodup_cons.mp (hperm.nodup_iff.mp h.nodup)
  refine ⟨hnodup.1, hnodup.2, h.asked, ?_, ?_, fun other _ => h.killed other⟩
  · intro message hmem
    exact h.told message (List.mem_of_mem_eraseIdx hmem)
  · intro other hother hne
    apply h.settled other
    rw [hperm.mem_iff, List.mem_cons, not_or]
    exact ⟨hne, hother⟩

/-- What is known of the instance may change. -/
theorem InOrderBut.congr {s' : State} (h : InOrderBut actor s instanceId)
    (hlookups : s'.lookups = s.lookups) (hmailbox : s'.mailbox = s.mailbox)
    (hentries : ∀ other ≠ instanceId, s'.entries other = s.entries other)
    (hhealth : ∀ other ≠ instanceId, s'.health other = s.health other)
    (hkills : ∀ other ≠ instanceId, ∀ position,
      (other, position) ∈ s'.kills ↔ (other, position) ∈ s.kills) :
    InOrderBut actor s' instanceId := by
  have hpending : pendingIds s' = pendingIds s := by
    rw [pendingIds, hlookups, hmailbox]
    rfl
  have hidle := idle_iff.mpr h.idle
  refine ⟨hpending ▸ h.idle, hpending ▸ h.nodup, ?_, ?_, ?_, ?_⟩
  · intro lookup hmem
    rw [hlookups] at hmem
    unfold Asked
    rw [hentries _ (hidle.1 lookup hmem)]
    exact h.asked lookup hmem
  · intro message hmem
    rw [hmailbox] at hmem
    unfold Told
    rw [hentries _ (hidle.2 message hmem)]
    exact h.told message hmem
  · intro other hother hne
    unfold Settled
    rw [hhealth other hne, hentries other hne]
    exact h.settled other (hpending ▸ hother) hne
  · intro other hne position
    rw [hkills other hne, hentries other hne]
    exact h.killed other hne position

/-! ### Putting it back -/

theorem InOrderBut.settle (h : InOrderBut actor s instanceId) (hsettled : Settled actor s instanceId)
    (hkilled : Killed actor s instanceId) : InOrder actor s := by
  refine ⟨h.nodup, h.asked, h.told, ?_, ?_⟩
  · intro other hother
    by_cases hne : other = instanceId
    · rwa [hne]
    · exact h.settled other hother hne
  · intro other
    by_cases hne : other = instanceId
    · rwa [hne]
    · exact h.killed other hne

theorem InOrderBut.send
    (h : InOrderBut actor s message.result.instanceId) (htold : Told actor s message)
    (hkilled : Killed actor s message.result.instanceId) : InOrder actor (s.send message) := by
  have hperm : (pendingIds (s.send message)).Perm
      (message.result.instanceId :: pendingIds s) := List.perm_middle
  refine ⟨hperm.nodup_iff.mpr (List.nodup_cons.mpr ⟨h.idle, h.nodup⟩), h.asked, ?_, ?_, ?_⟩
  · intro message' hmem
    rcases List.mem_cons.mp hmem with rfl | hmem
    · exact htold
    · exact h.told message' hmem
  · intro other hother
    rw [hperm.mem_iff, List.mem_cons, not_or] at hother
    exact h.settled other hother.2 hother.1
  · intro other
    by_cases hne : other = message.result.instanceId
    · exact hne ▸ hkilled
    · exact h.killed other hne

theorem InOrderBut.ask (h : InOrderBut actor s lookup.result.instanceId)
    (hasked : Asked actor s lookup) (hkilled : Killed actor s lookup.result.instanceId) :
    InOrder actor { s with lookups := lookup :: s.lookups } := by
  have hpending : pendingIds { s with lookups := lookup :: s.lookups } =
      lookup.result.instanceId :: pendingIds s := rfl
  refine ⟨hpending ▸ List.nodup_cons.mpr ⟨h.idle, h.nodup⟩, ?_, h.told, ?_, ?_⟩
  · intro lookup' hmem
    rcases List.mem_cons.mp hmem with rfl | hmem
    · exact hasked
    · exact h.asked lookup' hmem
  · intro other hother
    rw [hpending, List.mem_cons, not_or] at hother
    exact h.settled other hother.2 hother.1
  · intro other
    by_cases hne : other = lookup.result.instanceId
    · exact hne ▸ hkilled
    · exact h.killed other hne

theorem InOrderBut.withEntries (h : InOrderBut actor s instanceId) (entries : List Entry) :
    InOrderBut actor (s.withEntries instanceId entries) instanceId :=
  h.congr rfl rfl (fun _ hne => Function.update_of_ne hne _ _) (fun _ _ => rfl)
    fun _ _ _ => Iff.rfl

theorem InOrderBut.withKills (h : InOrderBut actor s instanceId) {kills : List (InstanceId × ℕ)}
    (hkills : ∀ kill ∈ kills, kill.1 = instanceId) :
    InOrderBut actor { s with kills := kills ++ s.kills } instanceId := by
  refine h.congr rfl rfl (fun _ _ => rfl) (fun _ _ => rfl) fun other hother position => ?_
  rw [List.mem_append, or_iff_right]
  exact fun hmem => hother (hkills _ hmem)

/-! ## Steps -/

theorem InOrder.handleHealthResult (h : InOrder actor s) (hidle : Idle s result.instanceId) :
    InOrder actor (HealthCheckActor.handleHealthResult s result) := by
  have hid := idle_iff.mp hidle
  let entries := s.entries result.instanceId
  let s' := s.withEntries result.instanceId (entries ++ [.result result none])
  have hself : s'.entries result.instanceId = entries ++ [.result result none] :=
    Function.update_self _ _ _
  have hbut : InOrderBut actor s' result.instanceId := (h.but hid).withEntries _
  have hkilled : Killed actor s' result.instanceId := by
    intro position
    rw [hself, exceeds_append_of_unanswered fun _ _ heq => by cases heq]
    exact h.killed result.instanceId position
  have hhealth : s.health result.instanceId = (actor.course result.instanceId entries).health :=
    h.settled _ hid
  have htold : ∀ message : InstanceHealth, message.result = result →
      message.newHealth = (actor.course result.instanceId (entries ++ [.result result none])).health →
        Told actor s' message := by
    rintro message rfl hnew
    rw [Told, hself, hnew]
  have hnext : (⟨s.health result.instanceId, (actor.course result.instanceId entries).failures⟩ :
      Course) = actor.course result.instanceId entries := by
    rw [hhealth]
  cases result with
  | healthy id version time publishEvent =>
    apply InOrderBut.send hbut (htold _ rfl _) hkilled
    rw [course_append, ← hnext]
    rfl
  | unhealthy id version cause time publishEvent =>
    apply InOrderBut.ask hbut _ hkilled
    exact ⟨rfl, entries, hself, rfl, hhealth⟩
  | ignored id version time publishEvent =>
    apply InOrderBut.send hbut (htold _ rfl _) hkilled
    rw [course_append_unanswered]
    · exact hhealth
    · exact fun _ => rfl

theorem InOrder.completeLookup (h : InOrder actor s)
    {answer : Answer} (hlookup : s.lookups[position]? = some lookup)
    (hok : actor.OneAtATime s (.lookedUp position answer)) :
    InOrder actor (HealthCheckActor.completeLookup actor
      { s with lookups := s.lookups.eraseIdx position } lookup answer).1 := by
  have hfailures := hok.2 lookup hlookup
  have hbut := h.but_lookup hlookup
  obtain ⟨hfailure, before, hentries, hposition, hhealth⟩ :=
    h.asked lookup (List.mem_of_getElem? hlookup)
  have hunanswered : actor.course lookup.result.instanceId
      (before ++ [.result lookup.result none]) =
        actor.course lookup.result.instanceId before := by
    apply course_append_unanswered
    intro health
    cases hresult : lookup.result with
    | unhealthy => rfl
    | _ =>
      rw [hresult] at hfailure
      cases hfailure
  rw [hentries, hunanswered] at hfailures
  obtain ⟨hnew, hkill⟩ := lookedUp_eq answer hfailure hok.1 hfailures
  rw [← hhealth] at hnew hkill
  have hset : (s.entries lookup.result.instanceId).set lookup.position
      (.result lookup.result (some answer)) = before ++ [.result lookup.result (some answer)] := by
    rw [hentries, hposition, List.set_append_right _ _ le_rfl, Nat.sub_self, List.set_cons_zero]
  unfold HealthCheckActor.completeLookup
  dsimp only
  rw [hnew, hset]
  have hkills : ∀ kill,
      kill ∈ (if (actor.lookedUp lookup.result lookup.health answer.instance answer.now).1.any
          Effect.isKill = true then [(lookup.result.instanceId, lookup.position)] else []) ↔
        kill = (lookup.result.instanceId, before.length) ∧
          actor.Exceeds lookup.result.instanceId
            (before ++ [.result lookup.result (some answer)]) before.length := by
    intro kill
    rw [← hkill, ← hposition]
    split_ifs with hany
    · rw [List.mem_singleton, and_iff_left hany]
    · exact iff_of_false List.not_mem_nil fun hand => hany hand.2
  have hlast : ((s.withEntries lookup.result.instanceId
      (before ++ [.result lookup.result (some answer)])).entries lookup.result.instanceId) =
        before ++ [.result lookup.result (some answer)] := Function.update_self _ _ _
  apply InOrderBut.send
  · apply (hbut.withEntries _).withKills
    intro kill hmem
    rw [((hkills kill).mp hmem).1]
  · rw [Told]
    exact congrArg (fun entries => (actor.course lookup.result.instanceId entries).health) hlast.symm
  · intro place
    have hbefore : (lookup.result.instanceId, place) ∈ s.kills ↔
        actor.Exceeds lookup.result.instanceId before place := by
      rw [h.killed lookup.result.instanceId place, hentries]
      exact exceeds_append_of_unanswered fun _ _ heq => by cases heq
    have hafter : (lookup.result.instanceId, place) ∈
        (if (actor.lookedUp lookup.result lookup.health answer.instance answer.now).1.any
          Effect.isKill = true then [(lookup.result.instanceId, lookup.position)] else []) ++
            s.kills ↔
        actor.Exceeds lookup.result.instanceId
          (before ++ [.result lookup.result (some answer)]) place := by
      rw [List.mem_append, hkills, hbefore, or_comm, Prod.mk.injEq, and_iff_right rfl]
      exact exceeds_append.symm
    exact hlast.symm ▸ hafter

theorem InOrder.updateInstanceHealth (h : InOrder actor s)
    (hmessage : s.mailbox[position]? = some message) :
    InOrder actor (HealthCheckActor.updateInstanceHealth actor
      { s with mailbox := s.mailbox.eraseIdx position } message).1 := by
  have htold := h.told message (List.mem_of_getElem? hmessage)
  have hbut := h.but_message hmessage
  have hhealth : ∀ other, (HealthCheckActor.updateInstanceHealth actor
      { s with mailbox := s.mailbox.eraseIdx position } message).1.health other =
        if other = message.result.instanceId then message.newHealth else s.health other := by
    intro other
    unfold State.health HealthCheckActor.updateInstanceHealth
    split_ifs with hother
    · rw [hother, AList.lookup_insert, Option.getD_some]
    · rw [AList.lookup_insert_ne hother]
  have hbut' : InOrderBut actor (HealthCheckActor.updateInstanceHealth actor
      { s with mailbox := s.mailbox.eraseIdx position } message).1 message.result.instanceId := by
    refine hbut.congr rfl rfl (fun _ _ => rfl) (fun other hother => ?_) fun _ _ _ => Iff.rfl
    rw [hhealth, if_neg hother]
    rfl
  apply hbut'.settle _ (h.killed _)
  rw [Settled, hhealth, if_pos rfl]
  exact htold

theorem InOrder.purgeStatusOfDoneInstances (h : InOrder actor s) {instances : List Instance}
    (hidle : ∀ instanceId ∈ inactiveInstanceIds instances, Idle s instanceId) :
    InOrder actor (HealthCheckActor.purgeStatusOfDoneInstances actor s instances).1 := by
  let s' := (HealthCheckActor.purgeStatusOfDoneInstances actor s instances).1
  have hentries : ∀ instanceId, s'.entries instanceId =
      if instanceId ∈ inactiveInstanceIds instances then s.entries instanceId ++ [.purged]
      else s.entries instanceId := fun _ => rfl
  have hhealth : ∀ instanceId, s'.health instanceId =
      if instanceId ∈ inactiveInstanceIds instances then .ofInstance instanceId
      else s.health instanceId := by
    intro instanceId
    have hlookup : s'.healthByInstanceId.lookup instanceId = _ :=
      Dict.lookup_eraseAll s.healthByInstanceId (inactiveInstanceIds instances) instanceId
    rw [State.health, hlookup]
    split_ifs <;> rfl
  refine ⟨h.nodup, ?_, ?_, ?_, ?_⟩
  · intro lookup hlookup
    have hactive : lookup.result.instanceId ∉ inactiveInstanceIds instances :=
      fun hmem => (hidle _ hmem).1 lookup hlookup rfl
    have hasked := h.asked lookup hlookup
    unfold Asked at hasked ⊢
    rwa [hentries, if_neg hactive]
  · intro message hmessage
    have hactive : message.result.instanceId ∉ inactiveInstanceIds instances :=
      fun hmem => (hidle _ hmem).2 message hmessage rfl
    rw [Told, hentries, if_neg hactive]
    exact h.told message hmessage
  · intro instanceId hpending
    rw [Settled, hentries, hhealth]
    split_ifs
    · rw [course_append_purged]
      rfl
    · exact h.settled instanceId hpending
  · intro instanceId position
    rw [hentries]
    split_ifs
    · rw [exceeds_append_of_unanswered fun _ _ heq => by cases heq]
      exact h.killed instanceId position
    · exact h.killed instanceId position

theorem InOrder.receive (h : InOrder actor s) {event : Event} (hok : actor.OneAtATime s event)
    {result : State × List Effect}
    (hreceive : HealthCheckActor.receive actor s event = some result) : InOrder actor result.1 := by
  cases event with
  | received healthResult =>
    unfold HealthCheckActor.receive at hreceive
    dsimp only at hreceive
    split_ifs at hreceive with hversion
    · cases hreceive
      exact h.handleHealthResult (hok hversion)
    · cases hreceive
      exact h
  | lookedUp position answer =>
    obtain ⟨lookup, hlookup, rfl⟩ := Option.map_eq_some_iff.mp hreceive
    exact h.completeLookup hlookup hok
  | lookupFailed position => exact hok.elim
  | processed position =>
    obtain ⟨message, hmessage, rfl⟩ := Option.map_eq_some_iff.mp hreceive
    exact h.updateInstanceHealth hmessage
  | purged instances =>
    cases hreceive
    exact h.purgeStatusOfDoneInstances hok

/-- The health that is stored takes all results that count into account, and an instance is killed
for the failures for which it is to be, as long as its results come one at a time. -/
theorem stored_of_oneAtATime (h : actor.machine.ReachableIf actor.OneAtATime s) :
    actor.Stored s := by
  have hinv : InOrder actor s := by
    apply h.invariant
    · rintro s rfl
      exact inOrder_empty
    · intro s event s' hinv hok hs
      obtain ⟨result, hreceive, rfl⟩ := Option.map_eq_some_iff.mp hs
      exact hinv.receive hok hreceive
  exact hinv.stored

end Marathon.HealthCheckActor

namespace Marathon.HealthCheckActor.Failing

open Lib

/-! ## Two failures -/

def webCheck : HealthCheckActor :=
  ⟨plainApp ⟨["web"]⟩ ∅, .marathonTcpHealthCheck 0 60 20 1 none (some 80)⟩

def webInstance : InstanceId := ⟨⟨["web"]⟩, .instance, ⟨1⟩⟩

def taskId : TaskId := .ofContainer webInstance none

def runningInstance : Instance :=
  { Instance.scheduled (.app webCheck.app) webInstance ⟨0⟩ with
    state := ⟨.running, ⟨0⟩, none, none, .running⟩
    tasksMap := Dict.ofBindings
      [(taskId, ⟨taskId, ⟨0⟩, ⟨⟨0⟩, some ⟨0⟩, none, .running, ⟨"agent", [], []⟩⟩⟩)] }

def failure (time : ℤ) : HealthResult := .unhealthy webInstance ⟨0⟩ "timeout" ⟨time⟩ true

def answer : Answer := ⟨some runningInstance, ⟨40⟩⟩

/-- The second failure comes before the tracker has answered for the first one. -/
def overlapping : List Event :=
  [.received (failure 10), .received (failure 20), .lookedUp 0 answer, .lookedUp 0 answer,
    .processed 0, .processed 0]

/-- One of the two failures is lost. -/
theorem not_forall_stored :
    ¬ ∀ (actor : HealthCheckActor) (s : State), actor.machine.Reachable s → actor.Stored s := by
  intro h
  have hrun : ((webCheck.machine.run .empty overlapping).map fun s =>
      (s.lookups.length, s.mailbox.length, (s.health webInstance).consecutiveFailures,
        (webCheck.course webInstance (s.entries webInstance)).health.consecutiveFailures)) =
          some (0, 0, 1, 2) := by
    decide +kernel
  obtain ⟨s, hs, hsummary⟩ := Option.map_eq_some_iff.mp hrun
  simp only [Prod.mk.injEq, List.length_eq_zero_iff] at hsummary
  obtain ⟨hlookups, hmailbox, hstored, hcourse⟩ := hsummary
  have hidle : Idle s webInstance := by
    rw [Idle, hlookups, hmailbox]
    exact ⟨fun _ hmem => absurd hmem List.not_mem_nil, fun _ hmem => absurd hmem List.not_mem_nil⟩
  have hreachable := Machine.reachableIf_of_runIf overlapping (.init rfl) hs
  rw [(h webCheck s hreachable webInstance hidle).1, hcourse] at hstored
  cases hstored

def afterFailure : State :=
  updateInstanceHealth webCheck
    { (completeLookup webCheck { (handleHealthResult .empty (failure 10)) with lookups := [] }
        ⟨failure 10, .ofInstance webInstance, 0⟩ answer).1 with mailbox := [] }
    ⟨failure 10, .ofInstance webInstance, ⟨webInstance, none, none, some ⟨10⟩, some "timeout", 1⟩⟩
  |>.1

theorem stored_afterFailure : webCheck.Stored afterFailure := by
  have hreceived : webCheck.OneAtATime .empty (.received (failure 10)) := fun _ =>
    ⟨fun _ hmem => absurd hmem List.not_mem_nil, fun _ hmem => absurd hmem List.not_mem_nil⟩
  have hlookedUp : webCheck.OneAtATime (handleHealthResult .empty (failure 10))
      (.lookedUp 0 answer) := by
    refine ⟨?_, ?_⟩
    · intro i hi
      cases hi
      decide +kernel
    · intro lookup hlookup
      cases hlookup
      decide +kernel
  have hprocessed : webCheck.OneAtATime (completeLookup webCheck
      { (handleHealthResult .empty (failure 10)) with lookups := [] }
      ⟨failure 10, .ofInstance webInstance, 0⟩ answer).1 (.processed 0) := trivial
  exact stored_of_oneAtATime
    ((((Machine.ReachableIf.init rfl).step hreceived rfl).step hlookedUp rfl).step hprocessed rfl)

end Marathon.HealthCheckActor.Failing
