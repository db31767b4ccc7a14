import Marathon.Launcher.Constraints

/-!
# Which constraints are accepted

The API accepts a constraint by rules of its own, and offers are matched against what it accepted
much later. Whether the number or the pattern of an accepted constraint can be read then depends on
the two reading the same text alike.
-/

namespace Marathon

open Constraints

/-- `Pattern.compile`: nothing for a text that is not a regular expression, and otherwise what the
whole of a text has to match. -/
abbrev Compile := String → Option (String → Bool)

namespace SchedulingValidation

def constraintRequiresField := "missing field for constraint declaration"

def constraintUniqueDoesNotAcceptValue := "UNIQUE does not accept a value"

def constraintGroupByMustBeEmptyOrInt := "GROUP BY must define an integer value or else no value at all"

def constraintMaxPerRequiresInt := "MAX_PER requires an integer value"

def constraintLikeAnUnlikeRequireRegexp := "LIKE and UNLIKE require a non-empty, regular expression value"

def invalidRegularExpression := "is not a valid regular expression"

def isOnlySupportsText :=
  "IS only supports Mesos text and float values (see http://mesos.apache.org/documentation/latest/attributes-resources/)"

def mesosLiteralOrFloatValue (text : String) : Bool :=
  text.toList.all fun c => c.isAlphanum || c = '_' || c = '/' || c = '.' || c = '-'

variable (compile : Compile)

/-- The rules, with the violation where one is broken. -/
def complyWithConstraintRules (c : Constraint) : Except String Unit :=
  if c.field = "" then .error constraintRequiresField
  else
    match c.operator with
    | .unique => c.value.elim (.ok ()) fun _ => .error constraintUniqueDoesNotAcceptValue
    | .cluster => .ok ()
    | .groupBy =>
      if c.value.elim true fun i => (parseInt i).isSome then .ok ()
      else .error constraintGroupByMustBeEmptyOrInt
    | .maxPer =>
      if c.value.elim false fun i => (parseInt i).isSome then .ok ()
      else .error constraintMaxPerRequiresInt
    | .like | .unlike =>
      c.value.elim (.error constraintLikeAnUnlikeRequireRegexp) fun p =>
        if (compile p).isSome then .ok () else .error invalidRegularExpression
    | .is =>
      if mesosLiteralOrFloatValue (c.value.getD "") then .ok () else .error isOnlySupportsText

end SchedulingValidation

namespace Constraints

variable (compile : Compile)

/-- `offerValue.matches(constraintValue)` -/
def textMatches (pattern text : String) : Except Raised Bool :=
  (compile pattern).elim (.error .patternSyntax) fun compiled => .ok (compiled text)

/-- The texts that match a pattern, as far as it is one. -/
def Compile.regex (compile : Compile) : Regex := fun pattern text =>
  (compile pattern).elim false fun compiled => compiled text

/-- `ConstraintsChecker.isMatch`, with the patterns compiled when they are needed. -/
def isMatch (known : List Instance) (offer : Mesos.Offer) (c : Constraint) : Except Raised Bool :=
  match offerValue c.field offer, c.operator with
  | some value, .like => if c.getValue = "" then .ok false else textMatches compile c.getValue value
  | some value, .unlike =>
    if c.getValue = "" then .ok false else (textMatches compile c.getValue value).map (!·)
  | _, _ => meetsConstraint (Compile.regex compile) known offer c

variable {compile : Compile} {known : List Instance} {offer : Mesos.Offer} {c : Constraint}

theorem isMatch_eq_meetsConstraint
    (h : c.operator = .like ∨ c.operator = .unlike → c.getValue ≠ "" →
      (compile c.getValue).isSome) :
    isMatch compile known offer c = meetsConstraint (Compile.regex compile) known offer c := by
  unfold isMatch
  split
  next value hvalue hop =>
    rw [meetsConstraint, hvalue, checkConstraint, hop]
    by_cases hempty : c.getValue = ""
    · simp [hempty, checkLike]
    · obtain ⟨compiled, hcompiled⟩ := Option.isSome_iff_exists.mp (h (.inl hop) hempty)
      simp [hempty, checkLike, textMatches, Compile.regex, hcompiled]
  next value hvalue hop =>
    rw [meetsConstraint, hvalue, checkConstraint, hop]
    by_cases hempty : c.getValue = ""
    · simp [hempty, checkUnlike]
    · obtain ⟨compiled, hcompiled⟩ := Option.isSome_iff_exists.mp (h (.inr hop) hempty)
      simp [hempty, checkUnlike, textMatches, Compile.regex, hcompiled, Except.map]
  next => rfl

theorem exists_checkGroupBy_iff {value : String} {placed : Instance → Option String} :
    (∃ b, checkGroupBy known c value placed = .ok b) ↔ 0 < getIntValue c.getValue 0 := by
  unfold checkGroupBy
  by_cases hzero : max 0 (getIntValue c.getValue 0) = 0
  · simp only [if_pos hzero, reduceCtorEq, exists_false, false_iff, not_lt]
    omega
  · have hpos : 0 < getIntValue c.getValue 0 := by omega
    simp only [if_neg hzero, hpos, iff_true]
    split
    next group count _ => exact ⟨_, rfl⟩
    next => exact ⟨_, rfl⟩

/-- The number of a constraint is not one that can be divided by. -/
def DividesByZero (offer : Mesos.Offer) (c : Constraint) : Prop :=
  c.operator = .groupBy ∧ (offerValue c.field offer).isSome ∧ getIntValue c.getValue 0 ≤ 0

theorem exists_meetsConstraint_iff {regex : Regex} :
    (∃ b, meetsConstraint regex known offer c = .ok b) ↔
      ¬DividesByZero offer c ∧
        (c.operator = .maxPer → (offerValue c.field offer).isSome →
          (parseInt c.getValue).isSome) := by
  unfold meetsConstraint DividesByZero
  cases offerValue c.field offer with
  | none => simp [checkConstraint]
  | some value =>
    cases hop : c.operator with
    | groupBy =>
      simp only [checkConstraint, hop, exists_checkGroupBy_iff]
      simp
    | maxPer => cases hvalue : parseInt c.getValue <;> simp [checkConstraint, hop, hvalue]
    | unique => simp [checkConstraint, hop]
    | like => simp [checkConstraint, hop]
    | cluster => simp [checkConstraint, hop]
    | unlike => simp [checkConstraint, hop]
    | is => simp [checkConstraint, hop]

end Constraints

namespace SchedulingValidation

variable {compile : Compile} {known : List Instance} {offer : Mesos.Offer} {c : Constraint}

theorem field_ne_of_comply (h : complyWithConstraintRules compile c = .ok ()) : c.field ≠ "" := by
  intro hempty
  simp [complyWithConstraintRules, hempty] at h

theorem compile_isSome_of_comply (h : complyWithConstraintRules compile c = .ok ())
    (hop : c.operator = .like ∨ c.operator = .unlike) : (compile c.getValue).isSome := by
  have hfield := field_ne_of_comply h
  rw [complyWithConstraintRules, if_neg hfield] at h
  unfold Constraint.getValue
  rcases hop with hop | hop
  all_goals
    rw [hop] at h
    cases hvalue : c.value with
    | none => simp [hvalue] at h
    | some p => simpa [hvalue, ← Option.isNone_iff_eq_none] using h

theorem parseInt_isSome_of_comply (h : complyWithConstraintRules compile c = .ok ())
    (hop : c.operator = .maxPer) : (parseInt c.getValue).isSome := by
  have hfield := field_ne_of_comply h
  rw [complyWithConstraintRules, if_neg hfield] at h
  unfold Constraint.getValue
  rw [hop] at h
  cases hvalue : c.value with
  | none => simp [hvalue] at h
  | some i => simpa [hvalue, ← Option.isNone_iff_eq_none] using h

theorem exists_isMatch_iff (h : complyWithConstraintRules compile c = .ok ()) :
    (∃ b, isMatch compile known offer c = .ok b) ↔ ¬DividesByZero offer c := by
  rw [isMatch_eq_meetsConstraint fun hop _ => compile_isSome_of_comply h hop,
    exists_meetsConstraint_iff]
  exact and_iff_left fun hop _ => parseInt_isSome_of_comply h hop

/-- Accepted constraints can be evaluated on an offer exactly when none of them groups by a field of
the offer without a positive number of groups. -/
theorem accepted_evaluate_iff {constraints : List Constraint}
    (h : ∀ c ∈ constraints, complyWithConstraintRules compile c = .ok ()) :
    (∀ c ∈ constraints, ∃ b, isMatch compile known offer c = .ok b) ↔
      ∀ c ∈ constraints, ¬DividesByZero offer c :=
  forall₂_congr fun c hc => exists_isMatch_iff (h c hc)

/-! ## Grouping by the host without a number -/

namespace Examples

def groupByHost : Constraint := ⟨"hostname", .groupBy, none⟩

def hostOffer : Mesos.Offer where
  hostname := "host"
  role := "*"
  region := none
  zone := none
  attributes := []

/-- The texts of letters, which match themselves. -/
def literal : Compile := fun pattern =>
  if pattern.toList.all Char.isAlpha then some (· = pattern) else none

end Examples

open Examples

theorem groupByHost_evaluate_iff :
    (∀ c ∈ [groupByHost], ∃ b, isMatch literal [] hostOffer c = .ok b) ↔
      ∀ c ∈ [groupByHost], ¬DividesByZero hostOffer c :=
  accepted_evaluate_iff fun c hc => by
    rw [List.mem_singleton.mp hc]
    rfl

/-- Nothing has to be placed for the first offer to fail. -/
theorem not_forall_accepted_evaluate :
    ¬∀ (compile : Compile) (constraints : List Constraint),
      (∀ c ∈ constraints, complyWithConstraintRules compile c = .ok ()) →
        ∀ (known : List Instance) (offer : Mesos.Offer), ∀ c ∈ constraints,
          ∃ b, isMatch compile known offer c = .ok b := by
  intro h
  have haccepted : ∀ c ∈ [groupByHost], complyWithConstraintRules literal c = .ok () := by
    intro c hc
    rw [List.mem_singleton.mp hc]
    rfl
  obtain ⟨b, hb⟩ := h literal [groupByHost] haccepted [] hostOffer groupByHost List.mem_cons_self
  have hraised : isMatch literal [] hostOffer groupByHost = .error .arithmetic := by decide
  rw [hraised] at hb
  cases hb

end SchedulingValidation

end Marathon
