import Mathlib.Data.List.Basic
import Mathlib.Data.List.Induction

/-!
# Path ids
-/

namespace Marathon

/-- An absolute path: its segments, the root being the empty path. -/
structure AbsolutePathId where
  path : List String
deriving DecidableEq, Repr

namespace AbsolutePathId

/-- `PathId.root`, the path without segments. -/
def root : AbsolutePathId := ⟨[]⟩

/-- `AbsolutePathId.toString`. -/
def string (id : AbsolutePathId) : String := "/" ++ "/".intercalate id.path

def safePath (id : AbsolutePathId) : String := "_".intercalate id.path

def isRoot (id : AbsolutePathId) : Bool := id.path.isEmpty

/-- The path without its last segment; the root is its own parent. -/
def parent (id : AbsolutePathId) : AbsolutePathId := ⟨id.path.dropLast⟩

def isTopLevel (id : AbsolutePathId) : Bool := !id.isRoot && id.parent.isRoot

@[simp]
theorem parent_path (id : AbsolutePathId) : id.parent.path = id.path.dropLast := rfl

/-- Every proper prefix, from the parent up to the root, of a path given in reverse. -/
def parentsOfReverse : List String → List AbsolutePathId
  | [] => []
  | _ :: rest => ⟨rest.reverse⟩ :: parentsOfReverse rest

def allParents (id : AbsolutePathId) : List AbsolutePathId := parentsOfReverse id.path.reverse

/-- The recursion of the source. -/
theorem allParents_eq (id : AbsolutePathId) :
    id.allParents = if id.isRoot then [] else id.parent :: id.parent.allParents := by
  obtain ⟨path⟩ := id
  induction path using List.reverseRecOn with
  | nil => rfl
  | append_singleton path segment _ => simp [allParents, parentsOfReverse, parent, isRoot]

end AbsolutePathId

end Marathon
