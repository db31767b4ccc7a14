import Marathon.State.SafePath

/-!
# Canonical paths

A text is parsed as an absolute or as a relative path. The canonical path is absolute, and has no
dots: a canonical path is read back from its text.
-/

namespace Marathon

inductive PathId
  | absolutePathId (id : AbsolutePathId)
  | relativePathId (path : List String)
deriving DecidableEq

namespace PathId

/-- `sanitized` leaves out the empty pieces between the slashes. -/
def pieces (s : String) : List String :=
  (splitAt '/' (String.ofList (trimSlashes s.toList))).filter (· ≠ "")

/-- `PathId.apply`. -/
def ofText (s : String) : PathId :=
  if s.toList.head? = some '/' then .absolutePathId ⟨pieces s⟩ else .relativePathId (pieces s)

/-- The local `in` of `canonicalPath`, which resolves `.` and `..`. -/
def resolved : List String → List String → List String
  | [], result => result.reverse
  | head :: tail, result =>
    if head = "." then resolved tail result
    else if head = ".." then resolved tail result.tail
    else resolved tail (head :: result)

/-- Relative paths are taken from the base. -/
def canonicalPath (base : AbsolutePathId) : PathId → AbsolutePathId
  | absolutePathId id => ⟨resolved id.path []⟩
  | relativePathId path => ⟨resolved (base.path ++ path) []⟩

end PathId

namespace AbsolutePathId

/-- `AbsolutePathId.apply`: a relative path is one from the root. -/
def ofText (path : String) : AbsolutePathId := (PathId.ofText path).canonicalPath .root

/-- The segments are not empty, without slashes, and no dots. -/
def IsCanonical (id : AbsolutePathId) : Prop :=
  ∀ segment ∈ id.path, (segment ≠ "" ∧ '/' ∉ segment.toList) ∧ segment ≠ "." ∧ segment ≠ ".."

instance (id : AbsolutePathId) : Decidable id.IsCanonical :=
  inferInstanceAs (Decidable (∀ segment ∈ id.path, _ ∧ _ ∧ _))

end AbsolutePathId

namespace PathId

theorem slash_notMem_of_mem_splitOn {c : Char} {text : List Char} :
    ∀ piece ∈ text.splitOn c, c ∉ piece := by
  induction text with
  | nil =>
    intro piece hpiece
    rw [List.splitOn_nil, List.mem_singleton] at hpiece
    rw [hpiece]
    exact List.not_mem_nil
  | cons x text ih =>
    intro piece hpiece
    rw [List.splitOn_cons_eq_if_modifyHead] at hpiece
    by_cases hx : x = c
    · rw [if_pos (beq_iff_eq.mpr hx), List.mem_cons] at hpiece
      rcases hpiece with rfl | hpiece
      · exact List.not_mem_nil
      · exact ih piece hpiece
    · rw [if_neg (by simpa using hx)] at hpiece
      cases hsplit : text.splitOn c with
      | nil => exact absurd hsplit (List.splitOn_ne_nil c text)
      | cons first rest =>
        rw [hsplit] at hpiece ih
        rcases List.mem_cons.mp hpiece with rfl | hpiece
        · rw [List.mem_cons, not_or]
          exact ⟨Ne.symm hx, ih first List.mem_cons_self⟩
        · exact ih piece (List.mem_cons_of_mem _ hpiece)

theorem pieces_spec (s : String) : ∀ piece ∈ pieces s, piece ≠ "" ∧ '/' ∉ piece.toList := by
  intro piece hpiece
  obtain ⟨hpiece, hne⟩ := List.mem_filter.mp hpiece
  refine ⟨of_decide_eq_true hne, ?_⟩
  obtain ⟨text, htext, rfl⟩ := List.mem_map.mp hpiece
  rw [String.toList_ofList]
  apply slash_notMem_of_mem_splitOn text
  exact (List.rdropWhile_prefix List.isEmpty _).mem htext

theorem mem_resolved {path result : List String} {segment : String}
    (h : segment ∈ resolved path result) :
    segment ∈ path ∧ segment ≠ "." ∧ segment ≠ ".." ∨ segment ∈ result := by
  induction path generalizing result with
  | nil => exact .inr (List.mem_reverse.mp h)
  | cons head tail ih =>
    rw [resolved] at h
    split_ifs at h with hdot hdots
    · rcases ih h with ⟨hmem, hne⟩ | hmem
      · exact .inl ⟨List.mem_cons_of_mem _ hmem, hne⟩
      · exact .inr hmem
    · rcases ih h with ⟨hmem, hne⟩ | hmem
      · exact .inl ⟨List.mem_cons_of_mem _ hmem, hne⟩
      · exact .inr (List.mem_of_mem_tail hmem)
    · rcases ih h with ⟨hmem, hne⟩ | hmem
      · exact .inl ⟨List.mem_cons_of_mem _ hmem, hne⟩
      · rcases List.mem_cons.mp hmem with rfl | hmem
        · exact .inl ⟨List.mem_cons_self, hdot, hdots⟩
        · exact .inr hmem

theorem resolved_of_plain {path : List String} (h : ∀ segment ∈ path, segment ≠ "." ∧ segment ≠ "..")
    (result : List String) : resolved path result = result.reverse ++ path := by
  induction path generalizing result with
  | nil => exact (List.append_nil _).symm
  | cons head tail ih =>
    obtain ⟨hdot, hdots⟩ := h head List.mem_cons_self
    rw [resolved, if_neg hdot, if_neg hdots, ih fun segment hmem => h segment (List.mem_cons_of_mem _ hmem),
      List.reverse_cons, List.append_assoc]
    rfl

theorem resolved_eq_self {id : AbsolutePathId} (h : id.IsCanonical) : resolved id.path [] = id.path :=
  resolved_of_plain (fun segment hmem => (h segment hmem).2) []

theorem isCanonical_resolved {path : List String}
    (h : ∀ segment ∈ path, segment ≠ "" ∧ '/' ∉ segment.toList) :
    AbsolutePathId.IsCanonical ⟨resolved path []⟩ := by
  intro segment hmem
  rcases mem_resolved hmem with ⟨hmem, hne⟩ | hmem
  · exact ⟨h segment hmem, hne⟩
  · cases hmem

theorem isCanonical_canonicalPath {base : AbsolutePathId} (hbase : base.IsCanonical) (s : String) :
    ((ofText s).canonicalPath base).IsCanonical := by
  have hpieces := pieces_spec s
  by_cases habsolute : s.toList.head? = some '/'
  · rw [ofText, if_pos habsolute]
    generalize pieces s = path at hpieces ⊢
    exact isCanonical_resolved hpieces
  · rw [ofText, if_neg habsolute]
    generalize pieces s = path at hpieces ⊢
    refine isCanonical_resolved fun segment hmem => ?_
    rcases List.mem_append.mp hmem with hmem | hmem
    · exact (hbase segment hmem).1
    · exact hpieces segment hmem

/-- A canonical path is read back, whatever the base is. -/
theorem canonicalPath_string {id : AbsolutePathId} (h : id.IsCanonical) (base : AbsolutePathId) :
    (ofText id.string).canonicalPath base = id := by
  rw [ofText, if_pos (head?_string id), pieces, splitAt_string fun segment hmem => (h segment hmem).1,
    canonicalPath, resolved_eq_self h]

end PathId

namespace AbsolutePathId

theorem isCanonical_root : root.IsCanonical := fun _ hmem => absurd hmem List.not_mem_nil

theorem isCanonical_ofText (s : String) : (ofText s).IsCanonical :=
  PathId.isCanonical_canonicalPath isCanonical_root s

theorem ofText_string_iff {id : AbsolutePathId} : ofText id.string = id ↔ id.IsCanonical := by
  constructor
  · intro h
    rw [← h]
    exact isCanonical_ofText id.string
  · exact fun h => PathId.canonicalPath_string h root

end AbsolutePathId

end Marathon
