import Mathlib.Data.Rat.Floor
import Marathon.Instance.Instance

/-!
# Placement constraints

Whether an offer meets a constraint of a run spec, given the instances that are placed
already. Fields are read as text, and compared as text.
-/

namespace Marathon

/-- What the constraints read of an offer. -/
structure Mesos.Offer where
  hostname : String
  role : Role
  region : Option String
  zone : Option String
  attributes : List Mesos.Attribute

namespace Instance

def attributes (i : Instance) : List Mesos.Attribute :=
  (i.agentInfo.map AgentInfo.attributes).getD []

def zone (i : Instance) : Option String := i.agentInfo.bind AgentInfo.zone

def region (i : Instance) : Option String := i.agentInfo.bind AgentInfo.region

end Instance

def Constraint.getValue (constraint : Constraint) : String := constraint.value.getD ""

namespace Constraints

open Mesos

/-! ## Numbers as text -/

def roundHalfEven (q : ℚ) : ℤ :=
  let rest := q - ⌊q⌋
  if rest < 1 / 2 then ⌊q⌋
  else if 1 / 2 < rest then ⌊q⌋ + 1
  else if ⌊q⌋ % 2 = 0 then ⌊q⌋
  else ⌊q⌋ + 1

/-- The decimals without the zeros at the end. -/
def fractionDigits (thousandths : ℕ) : List Char :=
  let digits := (toString (1000 + thousandths)).toList.tail
  (digits.reverse.dropWhile (· = '0')).reverse

/-- `new DecimalFormat("0.###")`: at most three decimals, and none if they are zero. -/
def decimalFormat (q : ℚ) : String :=
  let n := (roundHalfEven ((if q < 0 then -q else q) * 1000)).toNat
  let sign := if q < 0 then "-" else ""
  let fraction := fractionDigits (n % 1000)
  sign ++ toString (n / 1000) ++ if fraction = [] then "" else "." ++ String.ofList fraction

def digitsValue (digits : List Char) : ℕ :=
  digits.foldl (fun n c => 10 * n + (c.toNat - '0'.toNat)) 0

/-- `MesosScalarValue`: digits, with a point and more digits or without. -/
def scalarValue (text : String) : Option ℚ :=
  let whole := text.toList.takeWhile Char.isDigit
  let rest := text.toList.dropWhile Char.isDigit
  match rest with
  | [] => if whole = [] then none else some (digitsValue whole)
  | point :: decimals =>
    if whole ≠ [] ∧ point = '.' ∧ decimals ≠ [] ∧ decimals.all Char.isDigit then
      some (digitsValue whole + digitsValue decimals / 10 ^ decimals.length)
    else none

def intMax : ℤ := 2 ^ 31 - 1

/-- `String.toInt`: digits after at most one sign, within the range of an `Int`. -/
def parseInt (text : String) : Option ℤ :=
  let value := match text.toList with
    | '-' :: digits => if digits ≠ [] ∧ digits.all Char.isDigit then some (-digitsValue digits : ℤ) else none
    | '+' :: digits => if digits ≠ [] ∧ digits.all Char.isDigit then some (digitsValue digits : ℤ) else none
    | digits => if digits ≠ [] ∧ digits.all Char.isDigit then some (digitsValue digits : ℤ) else none
  value.filter fun n => -intMax - 1 ≤ n && n ≤ intMax

def getIntValue (text : String) (default : ℤ) : ℤ :=
  if text = "inf" then intMax else (parseInt text).getD default

/-! ## Fields -/

def getValueString (a : Mesos.Attribute) : String :=
  match a.value with
  | .scalar value => decimalFormat value
  | .text value => value
  | .ranges ranges =>
    let sorted := ranges.mergeSort fun r s => r.1 ≤ s.1
    "[" ++ ",".intercalate (sorted.map fun r => toString r.1 ++ "-" ++ toString r.2) ++ "]"
  | .set items => "\x7b" ++ ",".intercalate (items.mergeSort fun s t => s ≤ t) ++ "\x7d"

def attributeValue (field : String) (attributes : List Mesos.Attribute) : Option String :=
  (attributes.find? fun a => a.name = field).map getValueString

inductive Selector
  | hostname
  | region
  | zone
  | attributeName (name : String)
deriving DecidableEq

/-- What a field stands for. -/
def selector (field : String) : Selector :=
  if field = "hostname" ∨ field = "@hostname" then .hostname
  else if field = "@region" then .region
  else if field = "@zone" then .zone
  else .attributeName field

/-- `readerForField` for offers. -/
def offerValue (field : String) (offer : Mesos.Offer) : Option String :=
  match selector field with
  | .hostname => some offer.hostname
  | .region => offer.region
  | .zone => offer.zone
  | .attributeName name => attributeValue name offer.attributes

/-- `readerForField` for instances that are placed. -/
def placedValue (field : String) (placed : Instance) : Option String :=
  match selector field with
  | .hostname => placed.hostname
  | .region => placed.region
  | .zone => placed.zone
  | .attributeName name => attributeValue name placed.attributes

/-! ## The checks -/

inductive Raised
  | numberFormat
  | arithmetic
  | patternSyntax
deriving DecidableEq

/-- `regex text` says of a text whether all of it matches. -/
abbrev Regex := String → String → Bool

variable (regex : Regex)

def constraintValueAsScalar (constraint : Constraint) : Option ℚ := scalarValue constraint.getValue

/-- The value that `IS` compares with. -/
def isValue (constraint : Constraint) : String :=
  (constraintValueAsScalar constraint).elim constraint.getValue decimalFormat

def checkLike (constraint : Constraint) (value : String) : Bool :=
  constraint.getValue ≠ "" && regex constraint.getValue value

def checkUnlike (constraint : Constraint) (value : String) : Bool :=
  constraint.getValue ≠ "" && !regex constraint.getValue value

def checkUnique (allInstances : List Instance) (value : String)
    (placed : Instance → Option String) : Bool :=
  allInstances.all fun i => placed i ≠ some value

def checkGroupBy (allInstances : List Instance) (constraint : Constraint) (value : String)
    (groupFunc : Instance → Option String) : Except Raised Bool :=
  let desiredInstanceCount := (allInstances.head?.map fun i => i.runSpec.instances).getD 1
  let desiredGroupCount := max 0 (getIntValue constraint.getValue 0)
  let currentCountPerGroup := ((allInstances.map groupFunc).dedup).map fun group =>
    (group, ((allInstances.countP fun i => groupFunc i = group : ℕ) : ℤ))
  if desiredGroupCount = 0 then .error .arithmetic
  else
    let desiredCountPerGroup := desiredInstanceCount.tdiv desiredGroupCount
    let remainder := desiredInstanceCount.tmod desiredGroupCount
    let remainderConsumed :=
      (currentCountPerGroup.map fun group => max 0 (group.2 - desiredCountPerGroup)).sum
    match currentCountPerGroup.find? fun group => group.1 = some value with
    | some (_, count) =>
      .ok (count < desiredCountPerGroup ||
        (count = desiredCountPerGroup && 0 < remainder - remainderConsumed))
    | none => .ok (currentCountPerGroup.length < desiredGroupCount)

def checkMaxPer (allInstances : List Instance) (value : String) (maxCount : ℤ)
    (groupFunc : Instance → Option String) : Bool :=
  let count := allInstances.countP fun i => groupFunc i = some value
  count = 0 || (count : ℤ) < maxCount

def checkCluster (allInstances : List Instance) (constraint : Constraint) (value : String)
    (placed : Instance → Option String) : Bool :=
  if constraint.getValue = "" then
    allInstances.head?.elim true fun i => placed i = some value
  else value = constraint.getValue

def checkConstraint (allInstances : List Instance) (constraint : Constraint)
    (maybeOfferValue : Option String) (placed : Instance → Option String) : Except Raised Bool :=
  match maybeOfferValue with
  | some value =>
    match constraint.operator with
    | .like => .ok (checkLike regex constraint value)
    | .unlike => .ok (checkUnlike regex constraint value)
    | .unique => .ok (checkUnique allInstances value placed)
    | .groupBy => checkGroupBy allInstances constraint value placed
    | .maxPer =>
      match parseInt constraint.getValue with
      | some maxCount => .ok (checkMaxPer allInstances value maxCount placed)
      | none => .error .numberFormat
    | .cluster => .ok (checkCluster allInstances constraint value placed)
    | .is => .ok (value = isValue constraint)
  | none => .ok (constraint.operator = .unlike)

def meetsConstraint (allInstances : List Instance) (offer : Mesos.Offer) (constraint : Constraint) :
    Except Raised Bool :=
  checkConstraint regex allInstances constraint (offerValue constraint.field offer)
    (placedValue constraint.field)

variable {regex} {known : List Instance} {offer : Mesos.Offer} {c : Constraint}

/-- What an accepted offer has of a field: nothing at most for `UNLIKE`. -/
theorem meetsConstraint_cases (h : meetsConstraint regex known offer c = .ok true) :
    (offerValue c.field offer = none ∧ c.operator = .unlike) ∨
      ∃ value, offerValue c.field offer = some value ∧
        checkConstraint regex known c (some value) (placedValue c.field) = .ok true := by
  unfold meetsConstraint at h
  cases hvalue : offerValue c.field offer with
  | none =>
    rw [hvalue] at h
    exact .inl ⟨rfl, of_decide_eq_true (Except.ok.inj h)⟩
  | some value =>
    rw [hvalue] at h
    exact .inr ⟨value, rfl, h⟩

end Constraints

end Marathon
