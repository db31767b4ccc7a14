import Marathon.Instance.Instance
import Marathon.Lib.Pattern
import Marathon.State.SafePath

/-!
# Reading ids

The ids of instances, tasks and reservations are read from their texts with regular
expressions, tried in order. An id that no expression matches, a bad UUID or an attempt that
is no `Long` makes reading fail.
-/

namespace Marathon

open Lib PathId

namespace UUID

def hexValue (c : Char) : Option ℕ :=
  if c.isDigit then some (c.toNat - 48)
  else if 'a' ≤ c ∧ c ≤ 'f' then some (c.toNat - 87)
  else if 'A' ≤ c ∧ c ≤ 'F' then some (c.toNat - 55)
  else none

def readHex (digits : List Char) : Option ℕ :=
  digits.foldlM (fun n c => (hexValue c).map fun digit => 16 * n + digit) 0

/-- `UUID.fromString`: five groups of hexadecimal digits with a hyphen between them. -/
def fromString (text : List Char) : Option UUID :=
  let groups := text.splitOn '-'
  if groups.map List.length = [8, 4, 4, 4, 12] then
    (readHex groups.flatten).map fun n => ⟨BitVec.ofNat 128 n⟩
  else
    none

end UUID

/-! ## The regular expressions -/

/-- What `.` does not match. -/
def isLineTerminator (c : Char) : Bool :=
  c = '\n' || c = '\r' || c.toNat = 0x85 || c.toNat = 0x2028 || c.toNat = 0x2029

/-- `[\._]`. -/
def isSeparator (c : Char) : Bool := c = '.' || c = '_'

/-- `.+`. -/
def anything : Piece := .plus fun c => !isLineTerminator c

/-- `\.`. -/
def dot : Piece := .one fun c => c = '.'

/-- `instance-|marathon-`. -/
def instancePrefix : Piece :=
  .word [InstanceId.Kind.instance.value.toList, InstanceId.Kind.marathon.value.toList]

/-- `[^_\.]+`. -/
def withoutSeparator : Piece := .plus fun c => !isSeparator c

/-- `[^\.]+`. -/
def withoutDot : Piece := .plus fun c => c ≠ '.'

/-- `\d+`. -/
def digitRun : Piece := .plus Char.isDigit

def legacyTaskIdRegex : Pattern := [anything, .one isSeparator, withoutSeparator]

def residentTaskIdRegex : Pattern := legacyTaskIdRegex ++ [dot, digitRun]

def taskIdWithInstanceIdRegex : Pattern :=
  [anything, dot, instancePrefix, withoutSeparator, .one isSeparator, withoutDot]

def taskIdWithInstanceIdAndIncarnationRegex : Pattern :=
  taskIdWithInstanceIdRegex ++ [dot, digitRun]

/-- `InstanceIdRegex` and the `SimplifiedIdRegex` of reservations. -/
def instanceIdRegex : Pattern := [anything, dot, instancePrefix, withoutDot]

/-! ## Reading -/

/-- `Prefix.fromString`. -/
def InstanceId.Kind.fromString (text : List Char) : InstanceId.Kind :=
  if text = InstanceId.Kind.instance.value.toList then .instance else .marathon

/-- `toLong` of digits. -/
def toLong (digits : List Char) : Option ℤ :=
  let n := Nat.ofDigitChars 10 digits 0
  if n < 9223372036854775808 then some n else none

/-- The instance id of a run spec, a prefix and a UUID as they stand in a text. -/
def InstanceId.ofGroups (safeRunSpecId kind uuid : List Char) : Option InstanceId :=
  (UUID.fromString uuid).map fun uuid =>
    ⟨fromSafePath (String.ofList safeRunSpecId), .fromString kind, uuid⟩

def InstanceId.fromIdString (idString : String) : Option InstanceId :=
  match instanceIdRegex.captures idString.toList with
  | some [safeRunSpecId, _, kind, uuid] => InstanceId.ofGroups safeRunSpecId kind uuid
  | _ => none

namespace TaskId

def containerNameOf (container : List Char) : Option String :=
  if String.ofList container = anonymousContainer then none else some (String.ofList container)

/-- `Task.Id.parse`. -/
def parse (idString : String) : Option TaskId :=
  match taskIdWithInstanceIdAndIncarnationRegex.captures idString.toList with
  | some [safeRunSpecId, _, kind, uuid, _, container, _, attempt] => do
    let instanceId ← InstanceId.ofGroups safeRunSpecId kind uuid
    let attempt ← toLong attempt
    return taskIdWithIncarnation instanceId (containerNameOf container) attempt
  | _ =>
    match taskIdWithInstanceIdRegex.captures idString.toList with
    | some [safeRunSpecId, _, kind, uuid, _, container] => do
      let instanceId ← InstanceId.ofGroups safeRunSpecId kind uuid
      return ephemeralTaskId instanceId (containerNameOf container)
    | _ =>
      match residentTaskIdRegex.captures idString.toList with
      | some [safeRunSpecId, separator, uuid, _, attempt] => do
        let uuid ← UUID.fromString uuid
        let attempt ← toLong attempt
        return legacyResidentId (fromSafePath (String.ofList safeRunSpecId))
          (String.ofList separator) uuid attempt
      | _ =>
        match legacyTaskIdRegex.captures idString.toList with
        | some [safeRunSpecId, separator, uuid] => do
          let uuid ← UUID.fromString uuid
          return legacyId (fromSafePath (String.ofList safeRunSpecId)) (String.ofList separator)
            uuid
        | _ => none

end TaskId

namespace Reservation.Id

def label : Reservation.Id → String
  | legacyId runSpecId separator uuid => runSpecId.safePath ++ separator ++ uuid.string
  | simplifiedId instanceId => instanceId.idString

/-- `Reservation.Id.apply`. -/
def ofLabel (label : String) : Option Reservation.Id :=
  match instanceIdRegex.captures label.toList with
  | some [safeRunSpecId, _, kind, uuid] =>
    (InstanceId.ofGroups safeRunSpecId kind uuid).map simplifiedId
  | _ =>
    match legacyTaskIdRegex.captures label.toList with
    | some [safeRunSpecId, separator, uuid] =>
      (UUID.fromString uuid).map fun uuid =>
        legacyId (fromSafePath (String.ofList safeRunSpecId)) (String.ofList separator) uuid
    | _ => none

end Reservation.Id

end Marathon
