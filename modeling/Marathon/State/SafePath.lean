import Marathon.State.PathId
import Mathlib.Data.List.DropRight

/-!
# Safe paths

A path id is stored with an underscore between its segments, a character that the grammar
of the segments leaves out.
-/

namespace Marathon

/-- Java's `String.split` at one character: the pieces without the empty ones at the end. -/
def splitAt (separator : Char) (s : String) : List String :=
  ((s.toList.splitOn separator).rdropWhile List.isEmpty).map String.ofList

variable {separator c : Char} {segment : String} {id : AbsolutePathId}

theorem splitAt_intercalate {pieces : List String} (hne : pieces ≠ [])
    (hpieces : ∀ piece ∈ pieces, piece ≠ "" ∧ separator ∉ piece.toList) :
    splitAt separator ((String.ofList [separator]).intercalate pieces) = pieces := by
  have hsplit : ((String.ofList [separator]).intercalate pieces).toList.splitOn separator =
      pieces.map String.toList := by
    rw [String.toList_intercalate, String.toList_ofList]
    apply List.splitOn_intercalate
    · intro text htext
      obtain ⟨piece, hpiece, rfl⟩ := List.mem_map.mp htext
      exact (hpieces piece hpiece).2
    · simpa using hne
  have hlast : ∀ h : pieces.map String.toList ≠ [],
      ¬ List.isEmpty ((pieces.map String.toList).getLast h) = true := by
    intro h hempty
    rw [List.getLast_map, List.isEmpty_iff, String.toList_eq_nil_iff] at hempty
    exact (hpieces _ (List.getLast_mem hne)).1 hempty
  rw [splitAt, hsplit, List.rdropWhile_eq_self_iff.mpr hlast, List.map_map]
  have hid : String.ofList ∘ String.toList = id := by
    funext s
    exact String.ofList_toList
  rw [hid, List.map_id]

/-- What stands in pieces joined by a separator is the separator or stands in a piece. -/
theorem mem_intercalate {pieces : List (List Char)}
    (h : c ∈ [separator].intercalate pieces) : c = separator ∨ ∃ piece ∈ pieces, c ∈ piece := by
  induction pieces with
  | nil => cases h
  | cons piece pieces ih =>
    cases pieces with
    | nil =>
      rw [List.intercalate_singleton] at h
      exact .inr ⟨piece, List.mem_cons_self, h⟩
    | cons next pieces =>
      rw [List.intercalate_cons_cons, List.mem_append, List.mem_append, List.mem_singleton] at h
      rcases h with (hpiece | rfl) | hrest
      · exact .inr ⟨piece, List.mem_cons_self, hpiece⟩
      · exact .inl rfl
      · rcases ih hrest with rfl | ⟨later, hmem, hc⟩
        · exact .inl rfl
        · exact .inr ⟨later, List.mem_cons_of_mem _ hmem, hc⟩

namespace PathId

/-- `[a-z0-9]`. -/
def isAlphanumeric (c : Char) : Bool := c.isLower || c.isDigit

/-- `[a-z0-9]|[a-z0-9][a-z0-9\-]*[a-z0-9]`. -/
def isLabel (text : List Char) : Bool :=
  text.head?.any isAlphanumeric && text.getLast?.any isAlphanumeric &&
    text.all fun c => isAlphanumeric c || c = '-'

/-- `ID_PATH_SEGMENT_PATTERN`: labels with a dot between them, or one or two dots. -/
def isSegment (segment : String) : Bool :=
  (segment.toList.splitOn '.').all isLabel || segment = "." || segment = ".."

/-- The characters of a segment. -/
def isSegmentChar (c : Char) : Bool := isAlphanumeric c || c = '-' || c = '.'

theorem isSegmentChar_of_mem (h : isSegment segment)
    (hc : c ∈ segment.toList) : isSegmentChar c := by
  rw [isSegment, Bool.or_eq_true, Bool.or_eq_true, decide_eq_true_iff, decide_eq_true_iff] at h
  rcases h with (hlabels | rfl) | rfl
  · have hjoin : ['.'].intercalate (segment.toList.splitOn '.') = segment.toList :=
      List.intercalate_splitOn '.'
    rw [← hjoin] at hc
    rcases mem_intercalate hc with rfl | ⟨label, hlabel, hc⟩
    · rfl
    · have hall := List.all_eq_true.mp hlabels label hlabel
      rw [isLabel, Bool.and_eq_true, List.all_eq_true] at hall
      rw [isSegmentChar, hall.2 c hc, Bool.true_or]
  · have hdot : c = '.' := by simpa using hc
    rw [hdot]
    rfl
  · have hdot : c = '.' := by simpa using hc
    rw [hdot]
    rfl

theorem ne_empty_of_isSegment (h : isSegment segment) : segment ≠ "" := by
  rintro rfl
  revert h
  decide

theorem underscore_notMem (h : isSegment segment) : '_' ∉ segment.toList := by
  intro hmem
  have hchar := isSegmentChar_of_mem h hmem
  revert hchar
  decide

/-- Whether every segment of a path meets the grammar. -/
def validPathChars (id : AbsolutePathId) : Bool := id.path.all isSegment

/-- `PathId.fromSafePath`. -/
def fromSafePath (s : String) : AbsolutePathId :=
  if s.isEmpty then .root else ⟨splitAt '_' s⟩

theorem fromSafePath_safePath (h : validPathChars id) : fromSafePath id.safePath = id := by
  have hsegment : ∀ segment ∈ id.path, isSegment segment := List.all_eq_true.mp h
  obtain ⟨path⟩ := id
  by_cases hroot : path = []
  · subst hroot
    rfl
  · have hpieces : ∀ piece ∈ path, piece ≠ "" ∧ '_' ∉ piece.toList := by
      intro piece hpiece
      have hp := hsegment piece hpiece
      exact ⟨ne_empty_of_isSegment hp, underscore_notMem hp⟩
    have hsplit : splitAt '_' (AbsolutePathId.safePath ⟨path⟩) = path :=
      splitAt_intercalate hroot hpieces
    have hne : (AbsolutePathId.safePath ⟨path⟩).isEmpty = false := by
      rw [Bool.eq_false_iff]
      intro hempty
      rw [String.isEmpty_iff.mp hempty] at hsplit
      exact hroot hsplit.symm
    rw [fromSafePath, hne, hsplit]
    rfl

/-! ## Texts of paths -/

/-- `replaceAll` of the slashes at both ends. -/
def trimSlashes (text : List Char) : List Char :=
  (text.dropWhile (· = '/')).rdropWhile (· = '/')

/-- `PathId.apply` of a text that begins with a slash; the path of any other one is relative. -/
def ofString (s : String) : Option AbsolutePathId :=
  if s.toList.head? = some '/' then
    some ⟨(splitAt '/' (String.ofList (trimSlashes s.toList))).filter (· ≠ "")⟩
  else
    none

theorem slash_notMem (h : isSegment segment) : '/' ∉ segment.toList := by
  intro hmem
  have hchar := isSegmentChar_of_mem h hmem
  revert hchar
  decide

theorem exists_intercalate_eq_append (separator : Char) (piece : List Char)
    (pieces : List (List Char)) :
    ∃ front, ∃ last ∈ piece :: pieces, [separator].intercalate (piece :: pieces) = front ++ last := by
  induction pieces generalizing piece with
  | nil => exact ⟨[], piece, List.mem_cons_self, List.intercalate_singleton⟩
  | cons next pieces ih =>
    obtain ⟨front, last, hlast, heq⟩ := ih next
    refine ⟨piece ++ [separator] ++ front, last, List.mem_cons_of_mem piece hlast, ?_⟩
    rw [List.intercalate_cons_cons, heq, List.append_assoc, List.append_assoc, List.append_assoc]

theorem trimSlashes_cons {first : List Char} {rest : List (List Char)}
    (h : ∀ piece ∈ first :: rest, piece ≠ [] ∧ '/' ∉ piece) :
    trimSlashes ('/' :: ['/'].intercalate (first :: rest)) = ['/'].intercalate (first :: rest) := by
  have hdrop : ('/' :: ['/'].intercalate (first :: rest)).dropWhile (· = '/') =
      ['/'].intercalate (first :: rest) := by
    obtain ⟨hne, hslash⟩ := h first List.mem_cons_self
    obtain ⟨c, cs, rfl⟩ := List.exists_cons_of_ne_nil hne
    have hc : c ≠ '/' := by
      rintro rfl
      exact hslash List.mem_cons_self
    rw [List.dropWhile_cons_of_pos (by decide), List.intercalate_cons_cons_left,
      List.dropWhile_cons_of_neg (by simpa using hc)]
  rw [trimSlashes, hdrop, List.rdropWhile_eq_self_iff]
  obtain ⟨front, last, hlast, heq⟩ := exists_intercalate_eq_append '/' first rest
  obtain ⟨hne, hslash⟩ := h last hlast
  intro hl hpos
  have hmem : (['/'].intercalate (first :: rest)).getLast hl ∈ last := by
    simp only [heq, List.getLast_append_of_ne_nil _ hne, List.getLast_mem]
  rw [of_decide_eq_true hpos] at hmem
  exact hslash hmem

/-- The segments of a path are the pieces of its text. -/
theorem splitAt_string (hpieces : ∀ piece ∈ id.path, piece ≠ "" ∧ '/' ∉ piece.toList) :
    (splitAt '/' (String.ofList (trimSlashes id.string.toList))).filter (· ≠ "") = id.path := by
  obtain ⟨path⟩ := id
  cases path with
  | nil => decide
  | cons first rest =>
    have htext : (AbsolutePathId.string ⟨first :: rest⟩).toList =
        '/' :: ['/'].intercalate ((first :: rest).map String.toList) := by
      rw [AbsolutePathId.string, String.toList_append, String.toList_intercalate]
      rfl
    have hne : ∀ chars ∈ (first :: rest).map String.toList, chars ≠ [] ∧ '/' ∉ chars := by
      intro chars hchars
      obtain ⟨piece, hpiece, rfl⟩ := List.mem_map.mp hchars
      exact ⟨mt String.toList_eq_nil_iff.mp (hpieces piece hpiece).1, (hpieces piece hpiece).2⟩
    have htrim := trimSlashes_cons hne
    rw [← List.map_cons, ← htext] at htrim
    have hjoin : String.ofList (['/'].intercalate ((first :: rest).map String.toList)) =
        (String.ofList ['/']).intercalate (first :: rest) := by
      rw [← String.toList_inj, String.toList_ofList, String.toList_intercalate, String.toList_ofList]
    have hfilter : (first :: rest).filter (· ≠ "") = first :: rest :=
      List.filter_eq_self.mpr fun piece hpiece => decide_eq_true (hpieces piece hpiece).1
    rw [htrim, hjoin, splitAt_intercalate (List.cons_ne_nil _ _) hpieces, hfilter]

theorem head?_string (id : AbsolutePathId) : id.string.toList.head? = some '/' := by
  rw [AbsolutePathId.string, String.toList_append]
  rfl

theorem ofString_string (h : validPathChars id) : ofString id.string = some id := by
  have hsegment : ∀ segment ∈ id.path, isSegment segment := List.all_eq_true.mp h
  rw [ofString, if_pos (head?_string id), splitAt_string fun segment hmem =>
    ⟨ne_empty_of_isSegment (hsegment segment hmem), slash_notMem (hsegment segment hmem)⟩]

end PathId

end Marathon
