import Marathon.LaunchQueue.ReviveOffersStreamLogic
import Marathon.Lib.Last

/-!
# Repeated revives

A revive may get lost in Mesos, so it is repeated. The repeater has no timer of its own: it counts
the ticks that it receives after a role has been revived.
-/

namespace Marathon.LaunchQueue

open Lib

/-- `Either[RoleDirective, Tick.type]`. -/
inductive RepeaterInput
  | directive (directive : RoleDirective)
  | tick

structure ReviveRepeaterLogic where
  currentRoleState : Dict Role RoleOfferState
  repeatIn : FMap Role ℕ

namespace ReviveRepeaterLogic

def start : ReviveRepeaterLogic := ⟨∅, ∅⟩

/-- The roles are to be repeated at the second tick, whatever was to be done with them before. -/
def markRolesForRepeat (s : ReviveRepeaterLogic) (roles : Finset Role) : FMap Role ℕ :=
  Finmap.keysLookupEquiv.symm
    ⟨(roles ∪ s.repeatIn.keys, fun role => if role ∈ roles then some 2 else s.repeatIn.lookup role), by
      intro role
      rw [Finset.mem_union, Finmap.mem_keys, ← Finmap.lookup_isSome]
      by_cases h : role ∈ roles
      · simp [h]
      · simp [h]⟩

def processRoleDirective (s : ReviveRepeaterLogic) : RoleDirective → ReviveRepeaterLogic
  | .updateFramework roleState newlyRevived _ =>
    { currentRoleState := roleState, repeatIn := s.markRolesForRepeat newlyRevived }
  | .issueRevive roles => { s with repeatIn := s.markRolesForRepeat roles }

/-- Tick counts are decreased, and those that are zero are left out. -/
def decreased (repeatIn : FMap Role ℕ) : FMap Role ℕ :=
  Finmap.keysLookupEquiv.symm
    ⟨(repeatIn.keys.filter fun role => (repeatIn.lookup role).any (1 ≤ ·),
      fun role => ((repeatIn.lookup role).filter (1 ≤ ·)).map (· - 1)), by
      intro role
      dsimp only
      rw [Finset.mem_filter, Finmap.mem_keys, ← Finmap.lookup_isSome]
      cases repeatIn.lookup role with
      | none => simp
      | some n => by_cases h : 1 ≤ n <;> simp [h]⟩

def handleTick (s : ReviveRepeaterLogic) : ReviveRepeaterLogic × List RoleDirective :=
  let newRepeatIn := decreased s.repeatIn
  -- repeat revives for those roles that waited for a tick
  let rolesForReviveRepetition := newRepeatIn.keys.filter fun role =>
    newRepeatIn.lookup role = some 0 && s.currentRoleState.lookup role = some .offersWanted
  ({ s with repeatIn := newRepeatIn },
    if rolesForReviveRepetition = ∅ then [] else [.issueRevive rolesForReviveRepetition])

end ReviveRepeaterLogic

open ReviveRepeaterLogic

/-- Directives are passed on, and ticks repeat revives. -/
def reviveRepeater (s : ReviveRepeaterLogic) : RepeaterInput → ReviveRepeaterLogic × List RoleDirective
  | .directive directive => (s.processRoleDirective directive, [directive])
  | .tick => s.handleTick

namespace ReviveRepeaterLogic

variable {s : ReviveRepeaterLogic} {role : Role}

@[simp] theorem lookup_markRolesForRepeat (s : ReviveRepeaterLogic) (roles : Finset Role)
    (role : Role) :
    (s.markRolesForRepeat roles).lookup role =
      if role ∈ roles then some 2 else s.repeatIn.lookup role := by
  rw [markRolesForRepeat, Finmap.keysLookupEquiv_symm_apply_lookup]

@[simp] theorem lookup_decreased (repeatIn : FMap Role ℕ) (role : Role) :
    (decreased repeatIn).lookup role =
      ((repeatIn.lookup role).filter (1 ≤ ·)).map (· - 1) := by
  rw [decreased, Finmap.keysLookupEquiv_symm_apply_lookup]

theorem mem_issueRevive_handleTick :
    (∃ roles, .issueRevive roles ∈ s.handleTick.2 ∧ role ∈ roles) ↔
      s.repeatIn.lookup role = some 1 ∧ s.currentRoleState.lookup role = some .offersWanted := by
  have hcount : (decreased s.repeatIn).lookup role = some 0 ↔ s.repeatIn.lookup role = some 1 := by
    rw [lookup_decreased]
    cases s.repeatIn.lookup role with
    | none => simp
    | some n =>
      by_cases h : 1 ≤ n
      · simp only [Option.filter_some, h, decide_true, if_pos, Option.map_some, Option.some.injEq]
        omega
      · simp [h]
        omega
  have hmem : role ∈ (decreased s.repeatIn).keys.filter (fun role =>
      (decreased s.repeatIn).lookup role = some 0 ∧
        s.currentRoleState.lookup role = some .offersWanted) ↔
      s.repeatIn.lookup role = some 1 ∧ s.currentRoleState.lookup role = some .offersWanted := by
    rw [Finset.mem_filter, Finmap.mem_keys, ← Finmap.lookup_isSome, hcount]
    constructor
    · rintro ⟨-, h⟩
      exact h
    · intro h
      exact ⟨by rw [hcount.mpr h.1]; rfl, h⟩
  rw [handleTick, ← hmem]
  simp only [Bool.and_eq_true, decide_eq_true_eq]
  split_ifs with hempty
  · simp [hempty]
  · simp

/-! ## Runs -/

/-- The state after some inputs. -/
def stateAfter (inputs : List RepeaterInput) : ReviveRepeaterLogic :=
  inputs.foldl (fun s input => (reviveRepeater s input).1) start

@[simp] theorem stateAfter_concat (inputs : List RepeaterInput) (input : RepeaterInput) :
    stateAfter (inputs ++ [input]) = (reviveRepeater (stateAfter inputs) input).1 := by
  rw [stateAfter, List.foldl_append]
  rfl

/-- The directive revives the role, or says that it is revived. -/
def marks (role : Role) : RoleDirective → Bool
  | .updateFramework _ newlyRevived _ => role ∈ newlyRevived
  | .issueRevive roles => role ∈ roles

def isTick : RepeaterInput → Bool
  | .tick => true
  | .directive _ => false

def Revived (role : Role) : RepeaterInput → Prop
  | .directive directive => marks role directive = true
  | .tick => False

def IsUpdate : RepeaterInput → Prop
  | .directive (.updateFramework ..) => True
  | _ => False

/-- Since the last directive that revived the role there have been so many ticks. -/
def TicksSinceRevived (role : Role) (inputs : List RepeaterInput) (n : ℕ) : Prop :=
  ∃ input after, IsLast (Revived role) inputs input after ∧ after.countP isTick = n

/-- In the last update of the framework offers are wanted for the role. -/
def Wanted (role : Role) (inputs : List RepeaterInput) : Prop :=
  ∃ roleState newlyRevived newlySuppressed after,
    IsLast IsUpdate inputs (.directive (.updateFramework roleState newlyRevived newlySuppressed))
      after ∧
    roleState.lookup role = some .offersWanted

/-- The tick after these inputs repeats the revive of the role. -/
def Repeats (role : Role) (inputs : List RepeaterInput) : Prop :=
  ∃ roles, .issueRevive roles ∈ (reviveRepeater (stateAfter inputs) .tick).2 ∧ role ∈ roles

variable {inputs : List RepeaterInput} {directive : RoleDirective} {n : ℕ}

theorem ticksSinceRevived_of_marks (h : marks role directive = true) :
    TicksSinceRevived role (inputs ++ [.directive directive]) n ↔ n = 0 := by
  have hrevived : Revived role (.directive directive) := h
  constructor
  · rintro ⟨_, after, hlast, rfl⟩
    obtain ⟨-, rfl⟩ := (IsLast.concat_iff_of_pos hrevived).mp hlast
    rfl
  · rintro rfl
    exact ⟨_, [], (IsLast.concat_iff_of_pos hrevived).mpr ⟨rfl, rfl⟩, rfl⟩

theorem ticksSinceRevived_of_not_marks (h : ¬marks role directive = true) :
    TicksSinceRevived role (inputs ++ [.directive directive]) n ↔ TicksSinceRevived role inputs n := by
  have hnot : ¬Revived role (.directive directive) := h
  constructor
  · rintro ⟨input, after, hlast, rfl⟩
    obtain ⟨rest, rfl, hbefore⟩ := (IsLast.concat_iff_of_neg hnot).mp hlast
    exact ⟨input, rest, hbefore, by simp [isTick]⟩
  · rintro ⟨input, after, hlast, rfl⟩
    exact ⟨input, after ++ [.directive directive],
      (IsLast.concat_iff_of_neg hnot).mpr ⟨after, rfl, hlast⟩, by simp [isTick]⟩

theorem ticksSinceRevived_tick :
    TicksSinceRevived role (inputs ++ [.tick]) n ↔
      ∃ m, TicksSinceRevived role inputs m ∧ n = m + 1 := by
  have hnot : ¬Revived role .tick := id
  constructor
  · rintro ⟨input, after, hlast, rfl⟩
    obtain ⟨rest, rfl, hbefore⟩ := (IsLast.concat_iff_of_neg hnot).mp hlast
    exact ⟨_, ⟨input, rest, hbefore, rfl⟩, by simp [isTick]⟩
  · rintro ⟨m, ⟨input, after, hlast, rfl⟩, rfl⟩
    exact ⟨input, after ++ [.tick], (IsLast.concat_iff_of_neg hnot).mpr ⟨after, rfl, hlast⟩,
      by simp [isTick]⟩

theorem lookup_repeatIn_stateAfter (k : ℕ) :
    (stateAfter inputs).repeatIn.lookup role = some k ↔
      ∃ n, TicksSinceRevived role inputs n ∧ n + k = 2 := by
  induction inputs using List.reverseRecOn generalizing k with
  | nil =>
    refine iff_of_false ?_ ?_
    · rw [stateAfter, List.foldl_nil, start, Finmap.lookup_empty]
      simp
    · rintro ⟨n, ⟨d, after, hlast, -⟩, -⟩
      exact IsLast.not_nil hlast
  | append_singleton inputs input ih =>
    rw [stateAfter_concat]
    cases input with
    | tick =>
      have htick : (reviveRepeater (stateAfter inputs) .tick).1.repeatIn =
          decreased (stateAfter inputs).repeatIn := rfl
      rw [htick, lookup_decreased, Option.map_eq_some_iff]
      constructor
      · rintro ⟨j, hj, rfl⟩
        obtain ⟨hj, hpos⟩ := Option.filter_eq_some_iff.mp hj
        have hpos := of_decide_eq_true hpos
        obtain ⟨m, hm, hsum⟩ := (ih j).mp hj
        exact ⟨m + 1, ticksSinceRevived_tick.mpr ⟨m, hm, rfl⟩, by omega⟩
      · rintro ⟨n, hn, hsum⟩
        obtain ⟨m, hm, rfl⟩ := ticksSinceRevived_tick.mp hn
        have hj := (ih (k + 1)).mpr ⟨m, hm, by omega⟩
        exact ⟨k + 1, Option.filter_eq_some_iff.mpr ⟨hj, by simp⟩, rfl⟩
    | directive directive =>
      have hmarked : ∃ roles, (role ∈ roles ↔ marks role directive = true) ∧
          (reviveRepeater (stateAfter inputs) (.directive directive)).1.repeatIn =
            (stateAfter inputs).markRolesForRepeat roles := by
        cases directive with
        | updateFramework roleState newlyRevived newlySuppressed =>
          exact ⟨newlyRevived, (decide_eq_true_iff).symm, rfl⟩
        | issueRevive roles => exact ⟨roles, (decide_eq_true_iff).symm, rfl⟩
      obtain ⟨roles, hroles, hrepeatIn⟩ := hmarked
      rw [hrepeatIn, lookup_markRolesForRepeat]
      by_cases hmarks : marks role directive = true
      · simp only [ticksSinceRevived_of_marks hmarks, if_pos (hroles.mpr hmarks),
          exists_eq_left, Option.some.injEq]
        omega
      · simp only [ticksSinceRevived_of_not_marks hmarks, if_neg (mt hroles.mp hmarks)]
        exact ih k

theorem wanted_stateAfter :
    (stateAfter inputs).currentRoleState.lookup role = some .offersWanted ↔ Wanted role inputs := by
  induction inputs using List.reverseRecOn with
  | nil =>
    refine iff_of_false ?_ ?_
    · rw [stateAfter, List.foldl_nil, start, AList.lookup_empty]
      simp
    · rintro ⟨_, _, _, after, hlast, -⟩
      exact IsLast.not_nil hlast
  | append_singleton inputs input ih =>
    rw [stateAfter_concat]
    have hkept (hnot : ¬IsUpdate input) :
        Wanted role (inputs ++ [input]) ↔ Wanted role inputs := by
      constructor
      · rintro ⟨roleState, newlyRevived, newlySuppressed, after, hlast, hwanted⟩
        obtain ⟨rest, -, hbefore⟩ := (IsLast.concat_iff_of_neg hnot).mp hlast
        exact ⟨roleState, newlyRevived, newlySuppressed, rest, hbefore, hwanted⟩
      · rintro ⟨roleState, newlyRevived, newlySuppressed, after, hlast, hwanted⟩
        exact ⟨roleState, newlyRevived, newlySuppressed, after ++ [input],
          (IsLast.concat_iff_of_neg hnot).mpr ⟨after, rfl, hlast⟩, hwanted⟩
    match input with
    | .tick => exact ih.trans (hkept id).symm
    | .directive (.issueRevive roles) => exact ih.trans (hkept id).symm
    | .directive (.updateFramework roleState newlyRevived newlySuppressed) =>
      constructor
      · intro hwanted
        exact ⟨roleState, newlyRevived, newlySuppressed, [],
          (IsLast.concat_iff_of_pos trivial).mpr ⟨rfl, rfl⟩, hwanted⟩
      · rintro ⟨_, _, _, after, hlast, hwanted⟩
        obtain ⟨heq, -⟩ := (IsLast.concat_iff_of_pos trivial).mp hlast
        cases RepeaterInput.directive.inj heq
        exact hwanted

theorem repeats_iff {role : Role} :
    Repeats role inputs ↔ TicksSinceRevived role inputs 1 ∧ Wanted role inputs := by
  rw [Repeats, ← wanted_stateAfter]
  refine mem_issueRevive_handleTick.trans (and_congr_left' ?_)
  rw [lookup_repeatIn_stateAfter]
  constructor
  · rintro ⟨n, hn, hsum⟩
    obtain rfl : n = 1 := by omega
    exact hn
  · intro h
    exact ⟨1, h, rfl⟩

theorem not_repeats_again (h : Repeats role inputs) {between : List RepeaterInput}
    (hbetween : ∀ input ∈ between, ¬Revived role input) :
    ¬Repeats role (inputs ++ .tick :: between) := by
  obtain ⟨⟨input, after, hlast, hafter⟩, -⟩ := repeats_iff.mp h
  have hmore : ∀ input ∈ RepeaterInput.tick :: between, ¬Revived role input :=
    List.forall_mem_cons.mpr ⟨id, hbetween⟩
  intro hagain
  obtain ⟨⟨input', after', hlast', hafter'⟩, -⟩ := repeats_iff.mp hagain
  obtain ⟨-, rfl⟩ := (hlast.append hmore).unique hlast'
  rw [List.countP_append, List.countP_cons_of_pos rfl] at hafter'
  omega

/-- A tick repeats the revive of a role exactly if it is the second one since the role has been
revived, and if offers are still wanted for the role; and then it is not repeated again. -/
theorem repeats_exactly (role : Role) (inputs : List RepeaterInput) :
    (Repeats role inputs ↔ TicksSinceRevived role inputs 1 ∧ Wanted role inputs) ∧
      (Repeats role inputs → ∀ between : List RepeaterInput,
        (∀ input ∈ between, ¬Revived role input) → ¬Repeats role (inputs ++ .tick :: between)) :=
  ⟨repeats_iff, fun h _ hbetween => not_repeats_again h hbetween⟩

/-- The second tick repeats the revive, the first and the third one do not. -/
example :
    let update := RepeaterInput.directive
      (.updateFramework (Dict.ofBindings [("web", .offersWanted)]) {"web"} ∅)
    [0, 1, 2].map (fun n => (stateAfter (update :: List.replicate n .tick)).handleTick.2.length) =
      [0, 1, 0] := by
  decide

end ReviveRepeaterLogic

end Marathon.LaunchQueue
