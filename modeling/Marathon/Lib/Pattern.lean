import Mathlib.Data.List.Forall2

/-!
# Patterns

A regular expression that is a row of pieces, each of which is captured: one character of a
class, a greedy run of them, or one of some words. A match is searched for with backtracking,
longer runs first. Where the whole text can be cut into the pieces in one way only, this is
the match that is found, whatever the order.
-/

namespace Marathon.Lib

/-- A piece of a pattern: a character of a class, a run of one or more, or one of some words. -/
inductive Piece
  | one (p : Char → Bool)
  | plus (p : Char → Bool)
  | word (words : List (List Char))

/-- The pieces of a regular expression, from left to right. -/
abbrev Pattern := List Piece

variable {text taken rest : List Char} {pattern : Pattern} {captured : List (List Char)}

namespace Piece

/-- Whether a text is what a piece stands for. -/
def Accepts : Piece → List Char → Prop
  | one p, text => ∃ c, p c = true ∧ text = [c]
  | plus p, text => text ≠ [] ∧ ∀ c ∈ text, p c = true
  | word words, text => text ∈ words

/-- The runs at the start of a text, the longest one first, each with what is after it. -/
def runs (p : Char → Bool) : List Char → List (List Char × List Char)
  | [] => []
  | c :: rest =>
    if p c then (runs p rest).map (fun split => (c :: split.1, split.2)) ++ [([c], rest)] else []

theorem mem_runs {p : Char → Bool} :
    (taken, rest) ∈ runs p text ↔ (taken ≠ [] ∧ ∀ c ∈ taken, p c = true) ∧ text = taken ++ rest := by
  induction text generalizing taken with
  | nil =>
    constructor
    · intro h
      cases h
    · rintro ⟨⟨hne, -⟩, htext⟩
      exact absurd (List.append_eq_nil_iff.mp htext.symm).1 hne
  | cons c text ih =>
    rw [runs]
    split_ifs with hc
    · rw [List.mem_append, List.mem_map, List.mem_singleton]
      constructor
      · rintro (⟨⟨taken', rest'⟩, hmem, heq⟩ | heq)
        · cases heq
          obtain ⟨⟨-, hall⟩, rfl⟩ := ih.mp hmem
          exact ⟨⟨List.cons_ne_nil _ _, List.forall_mem_cons.mpr ⟨hc, hall⟩⟩, rfl⟩
        · cases heq
          exact ⟨⟨List.cons_ne_nil _ _, List.forall_mem_cons.mpr ⟨hc, fun _ h => by cases h⟩⟩, rfl⟩
      · rintro ⟨⟨hne, hall⟩, htext⟩
        cases taken with
        | nil => exact absurd rfl hne
        | cons d taken =>
          cases htext
          by_cases htaken : taken = []
          · subst htaken
            exact .inr rfl
          · have hmem := ih.mpr ⟨⟨htaken, (List.forall_mem_cons.mp hall).2⟩, rfl⟩
            exact .inl ⟨_, hmem, rfl⟩
    · constructor
      · intro h
        cases h
      · rintro ⟨⟨hne, hall⟩, htext⟩
        cases taken with
        | nil => exact absurd rfl hne
        | cons d taken =>
          cases htext
          exact absurd (hall c List.mem_cons_self) hc

/-- The ways to cut a piece off a text, in the order in which they are tried. -/
def splits : Piece → List Char → List (List Char × List Char)
  | one _, [] => []
  | one p, c :: rest => if p c then [([c], rest)] else []
  | plus p, text => runs p text
  | word words, text =>
    words.filterMap fun word => (text.dropPrefix? word).map fun rest => (word, rest)

theorem mem_splits {piece : Piece} :
    (taken, rest) ∈ piece.splits text ↔ piece.Accepts taken ∧ text = taken ++ rest := by
  cases piece with
  | one p =>
    cases text with
    | nil =>
      constructor
      · intro h
        cases h
      · rintro ⟨⟨c, -, rfl⟩, htext⟩
        cases htext
    | cons c text =>
      rw [splits]
      constructor
      · intro h
        split_ifs at h with hc
        · cases List.mem_singleton.mp h
          exact ⟨⟨c, hc, rfl⟩, rfl⟩
        · cases h
      · rintro ⟨⟨d, hd, rfl⟩, htext⟩
        cases htext
        rw [if_pos hd]
        exact List.mem_singleton_self _
  | plus p => exact mem_runs
  | word words =>
    rw [splits, List.mem_filterMap]
    constructor
    · rintro ⟨word, hword, h⟩
      obtain ⟨rest', hdrop, heq⟩ := Option.map_eq_some_iff.mp h
      cases heq
      obtain ⟨start, rfl, hstart⟩ := List.dropPrefix?_eq_some_iff.mp hdrop
      obtain rfl := eq_of_beq hstart
      exact ⟨hword, rfl⟩
    · rintro ⟨hword, rfl⟩
      refine ⟨taken, hword, ?_⟩
      have hdrop : (taken ++ rest).dropPrefix? taken = some rest :=
        List.dropPrefix?_eq_some_iff.mpr ⟨taken, rfl, BEq.rfl⟩
      rw [hdrop]
      rfl

end Piece

namespace Pattern

/-- The text cut into what the pieces stand for. -/
def Matches (pattern : Pattern) (text : List Char) (captured : List (List Char)) : Prop :=
  List.Forall₂ Piece.Accepts pattern captured ∧ captured.flatten = text

/-- The first match of the whole text, as what each piece captures. -/
def captures : Pattern → List Char → Option (List (List Char))
  | [], [] => some []
  | [], _ :: _ => none
  | piece :: pattern, text =>
    (piece.splits text).findSome? fun split =>
      (captures pattern split.2).map fun captured => split.1 :: captured

theorem matches_of_captures
    (h : captures pattern text = some captured) : Matches pattern text captured := by
  induction pattern generalizing text captured with
  | nil =>
    cases text with
    | nil =>
      cases h
      exact ⟨.nil, rfl⟩
    | cons c text => cases h
  | cons piece pattern ih =>
    obtain ⟨⟨taken, rest⟩, hsplit, hrest⟩ := List.exists_of_findSome?_eq_some h
    obtain ⟨later, hlater, rfl⟩ := Option.map_eq_some_iff.mp hrest
    obtain ⟨haccepts, rfl⟩ := Piece.mem_splits.mp hsplit
    obtain ⟨hall, hflat⟩ := ih hlater
    exact ⟨.cons haccepts hall, congrArg (taken ++ ·) hflat⟩

theorem isSome_captures
    (h : Matches pattern text captured) : (captures pattern text).isSome = true := by
  induction pattern generalizing text captured with
  | nil =>
    obtain ⟨hall, rfl⟩ := h
    cases hall
    rfl
  | cons piece pattern ih =>
    obtain ⟨hall, rfl⟩ := h
    cases hall with
    | @cons _ taken _ later haccepts hall =>
      rw [captures, List.findSome?_isSome_iff]
      refine ⟨(taken, later.flatten), Piece.mem_splits.mpr ⟨haccepts, rfl⟩, ?_⟩
      rw [Option.isSome_map]
      exact ih ⟨hall, rfl⟩

/-- The only match is the one that is found. -/
theorem captures_eq_some (h : Matches pattern text captured)
    (hunique : ∀ other, Matches pattern text other → other = captured) :
    captures pattern text = some captured := by
  obtain ⟨found, hfound⟩ := Option.isSome_iff_exists.mp (isSome_captures h)
  rw [hfound, hunique found (matches_of_captures hfound)]

theorem captures_eq_none
    (h : ∀ captured, ¬ Matches pattern text captured) : captures pattern text = none := by
  rw [Option.eq_none_iff_forall_ne_some]
  intro captured hcaptured
  exact h captured (matches_of_captures hcaptured)

theorem captures_cases (pattern : Pattern) (text : List Char) :
    (captures pattern text = none ∧ ∀ captured, ¬ Matches pattern text captured) ∨
      ∃ captured, captures pattern text = some captured ∧ Matches pattern text captured := by
  cases hcaptured : captures pattern text with
  | none =>
    refine .inl ⟨rfl, fun captured hmatch => ?_⟩
    have hsome := isSome_captures hmatch
    rw [hcaptured] at hsome
    cases hsome
  | some captured => exact .inr ⟨captured, rfl, matches_of_captures hcaptured⟩

end Pattern

/-! ## The first and the last character of a class -/

section Last

variable {α : Type*} {p : α → Prop} {a b a' b' : List α} {s s' : α}

/-- A text is cut in one way at the last of its characters that are in a class. -/
theorem eq_of_last (hs : p s) (hs' : p s') (hb : ∀ c ∈ b, ¬ p c) (hb' : ∀ c ∈ b', ¬ p c)
    (h : a ++ s :: b = a' ++ s' :: b') : a = a' ∧ s = s' ∧ b = b' := by
  rcases List.append_eq_append_iff.mp h with ⟨l, rfl, hl⟩ | ⟨l, rfl, hl⟩
  · cases l with
    | nil =>
      cases hl
      exact ⟨(List.append_nil a).symm, rfl, rfl⟩
    | cons c l =>
      cases hl
      exact absurd hs' (hb s' (List.mem_append_right l List.mem_cons_self))
  · cases l with
    | nil =>
      cases hl
      exact ⟨List.append_nil a', rfl, rfl⟩
    | cons c l =>
      cases hl
      exact absurd hs (hb' s (List.mem_append_right l List.mem_cons_self))

/-- And in one way at the first of them. -/
theorem eq_of_first (hs : p s) (hs' : p s') (ha : ∀ c ∈ a, ¬ p c) (ha' : ∀ c ∈ a', ¬ p c)
    (h : a ++ s :: b = a' ++ s' :: b') : a = a' ∧ s = s' ∧ b = b' := by
  have hreverse : b.reverse ++ s :: a.reverse = b'.reverse ++ s' :: a'.reverse := by
    simpa using congrArg List.reverse h
  obtain ⟨hb, hsame, ha⟩ := eq_of_last hs hs' (fun c hc => ha c (List.mem_reverse.mp hc))
    (fun c hc => ha' c (List.mem_reverse.mp hc)) hreverse
  exact ⟨List.reverse_injective ha, hsame, List.reverse_injective hb⟩

end Last

end Marathon.Lib
