import Marathon.Lib.Machine
import Marathon.Lib.Positions

/-!
# The repository of the root group

The root group is cached as a future. A call that loads or stores the root installs a promise
as the new future first and completes it later; a store that fails completes its promise
with the future that was there before.
-/

namespace Marathon.Storage.StoredGroupRepository

open Lib

/-- The future that is cached: the one that failed because nothing was loaded, or that of a
promise. -/
inductive RootFuture
  | rootNotLoaded
  | promise (p : ℕ)
deriving DecidableEq

inductive PromiseState (R : Type*)
  | pending
  /-- `completeWith` a future that is not completed yet. -/
  | linked (future : RootFuture)
  /-- Completed with a root, or with a failure. -/
  | completed (root : Option R)

/-- A promise that has been installed. -/
structure RootPromise (R : Type*) where
  state : PromiseState R
  /-- `oldRootFuture` of the store that has installed the promise. -/
  oldRootFuture : Option RootFuture
  /-- For the record: the root that the call of this promise has read or written. -/
  effect : Option R

inductive Kind (R : Type*)
  | root
  | storeRoot (rootGroup : R)
  /-- The store by which `root()` persists an empty root group. -/
  | storeEmptyRoot
  | storeRootVersion

inductive Progress (R : Type*)
  | awaiting (future : RootFuture)
  /-- `storedRepo.get` is under way. -/
  | reading
  | resolving (root : R)
  | storingEmpty (call : ℕ)
  /-- `beforeStore` is under way. -/
  | preparing
  /-- Apps and pods are being stored and deleted. -/
  | storing
  /-- `storedRepo.store` is under way. -/
  | writing
  | written
  | storingVersion
  | returned (root : R)
  | stored
  | failed

structure Call (R : Type*) where
  kind : Kind R
  progress : Progress R
  /-- The promise that the call has installed. -/
  promise : Option ℕ

def Call.isFinished {R : Type*} (call : Call R) : Bool :=
  match call.progress with
  | .returned _ => true
  | .stored => true
  | .failed => true
  | _ => false

structure State (R : Type*) where
  rootFuture : RootFuture
  promises : List (RootPromise R)
  /-- The current root in the underlying repository. -/
  storedRoot : Option R
  calls : List (Call R)

/-- What the underlying repositories do for a step. A store that fails may still have written. -/
inductive Outcome
  | success
  | failure
  | failureAfterWrite
deriving DecidableEq

section Steps

variable {R : Type*} (empty : R) (s : State R)

/-- What a future has been completed with. -/
def outcome : RootFuture → Option (Option R)
  | .rootNotLoaded => some none
  | .promise p =>
    (s.promises[p]?).bind fun x =>
      match x.state with
      | .completed root => some root
      | _ => none

/-- A new promise becomes the root future. -/
def install (oldRootFuture : Option RootFuture) : State R :=
  { s with
    rootFuture := .promise s.promises.length
    promises := s.promises ++ [⟨.pending, oldRootFuture, none⟩] }

def putCall (n : ℕ) (call : Call R) : State R := { s with calls := s.calls.set n call }

def complete (p : ℕ) (state : PromiseState R) : State R :=
  { s with promises := s.promises.modify p fun x => { x with state := state } }

/-- For the record: the call of a promise has read or written `root`. -/
def record (p : ℕ) (root : R) : State R :=
  { s with promises := s.promises.modify p fun x => { x with effect := some root } }

/-- `promise.completeWith(oldRootFuture)` -/
def revertRoot (p : ℕ) : State R :=
  match (s.promises[p]?).bind RootPromise.oldRootFuture with
  | some old =>
    match outcome s old with
    | some root => complete s p (.completed root)
    | none => complete s p (.linked old)
  | none => s

/-- The root that a call stores. -/
def Kind.stores : Kind R → Option R
  | .storeRoot rootGroup => some rootGroup
  | .storeEmptyRoot => some empty
  | _ => none

/-- The next step of a call, with what the repositories do for it. -/
def proceed (n : ℕ) (call : Call R) (o : Outcome) : Option (State R) :=
  match call.progress, call.promise with
  | .awaiting future, _ =>
    (outcome s future).map fun
      | some root => putCall s n { call with progress := .returned root }
      | none =>
        putCall (install s none) n
          { call with progress := .reading, promise := some s.promises.length }
  | .reading, some p =>
    match o, s.storedRoot with
    | .success, some root =>
      some (putCall (record s p root) n { call with progress := .resolving root })
    | .success, none =>
      let waiting := putCall s n { call with progress := .storingEmpty s.calls.length }
      let nested : Call R := ⟨.storeEmptyRoot, .preparing, none⟩
      some { waiting with calls := waiting.calls ++ [nested] }
    | _, _ => some (putCall s n { call with progress := .failed })
  | .resolving root, some p =>
    match o with
    | .success =>
      some (putCall (complete s p (.completed (some root))) n
        { call with progress := .returned root })
    | _ => some (putCall s n { call with progress := .failed })
  | .storingEmpty m, some p =>
    (s.calls[m]?).bind fun nested =>
      match nested.progress with
      | .stored =>
        some (putCall (complete (record s p empty) p (.completed (some empty))) n
          { call with progress := .returned empty })
      | .failed => some (putCall s n { call with progress := .failed })
      | _ => none
  | .preparing, _ =>
    match o, call.kind.stores empty with
    | .success, some _ =>
      some (putCall (install s (some s.rootFuture)) n
        { call with progress := .storing, promise := some s.promises.length })
    | .success, none => some (putCall s n { call with progress := .storingVersion })
    | _, _ => some (putCall s n { call with progress := .failed })
  | .storing, some p =>
    match o with
    | .success => some (putCall s n { call with progress := .writing })
    | _ => some (putCall (revertRoot s p) n { call with progress := .failed })
  | .writing, some p =>
    (call.kind.stores empty).map fun root =>
      let wrote : State R := { record s p root with storedRoot := some root }
      match o with
      | .success => putCall wrote n { call with progress := .written }
      | .failure => putCall (revertRoot s p) n { call with progress := .failed }
      | .failureAfterWrite => putCall (revertRoot wrote p) n { call with progress := .failed }
  | .written, some p =>
    (call.kind.stores empty).map fun root =>
      putCall (complete s p (.completed (some root))) n { call with progress := .stored }
  | .storingVersion, _ =>
    match o with
    | .success => some (putCall s n { call with progress := .stored })
    | _ => some (putCall s n { call with progress := .failed })
  | _, _ => none

inductive Event (R : Type*)
  | root
  | storeRoot (rootGroup : R)
  | storeRootVersion
  | invalidateGroupCache
  | proceed (n : ℕ) (o : Outcome)
  /-- A linked promise is completed once the future that it is linked to is. -/
  | settle (p : ℕ)

def start (call : Call R) : State R := { s with calls := s.calls ++ [call] }

def step : Event R → Option (State R)
  | .root => some (start s ⟨.root, .awaiting s.rootFuture, none⟩)
  | .storeRoot rootGroup => some (start s ⟨.storeRoot rootGroup, .preparing, none⟩)
  | .storeRootVersion => some (start s ⟨.storeRootVersion, .preparing, none⟩)
  | .invalidateGroupCache => some { s with rootFuture := .rootNotLoaded }
  | .proceed n o => (s.calls[n]?).bind fun call => proceed empty s n call o
  | .settle p =>
    (s.promises[p]?).bind fun x =>
      match x.state with
      | .linked future => (outcome s future).map fun root => complete s p (.completed root)
      | _ => none

/-- Nothing is loaded at first; the repository may hold a root. -/
def machine : Machine (State R) (Event R) where
  Init s := s.rootFuture = .rootNotLoaded ∧ s.promises = [] ∧ s.calls = []
  step := step empty

end Steps

end Marathon.Storage.StoredGroupRepository
