import Mathlib.Data.List.Basic

/-!
# Parser combinators

A parser takes a value off the front of a text, or fails. Alternatives are ordered, and what the
first of them has read is not read again. What a parser reads may depend on what comes after it.
-/

namespace Marathon.Lib

abbrev Parser (S α : Type*) := List S → Option (α × List S)

namespace Parser

variable {S α β γ : Type*}

/-! ## Combinators -/

def success (a : α) : Parser S α := fun s => some (a, s)

def map (f : α → β) (p : Parser S α) : Parser S β := fun s => (p s).map (Prod.map f id)

/-- One parser after the other. -/
def seq (p : Parser S α) (q : Parser S β) : Parser S (α × β) :=
  fun s => (p s).bind fun r => (q r.2).map (Prod.map (Prod.mk r.1) id)

/-- The second parser where the first one fails. -/
def orElse (p q : Parser S α) : Parser S α := fun s => (p s).or (q s)

/-- As often as the parser succeeds. -/
def rep (p : Parser S α) (s : List S) : Option (List α × List S) :=
  match p s with
  | none => some ([], s)
  | some (a, rest) =>
    -- without progress there is no end to it
    if rest.length < s.length then (rep p rest).map (Prod.map (a :: ·) id) else none
termination_by s.length

def rep1sep (p : Parser S α) (q : Parser S β) : Parser S (List α) :=
  map (fun r => r.1 :: r.2) (seq p (rep (map Prod.snd (seq q p))))

def repsep (p : Parser S α) (q : Parser S β) : Parser S (List α) :=
  orElse (rep1sep p q) (success [])

/-- The value of a parser that reads the whole text. -/
def phrase (p : Parser S α) (s : List S) : Option α :=
  (p s).bind fun r => if r.2 = [] then some r.1 else none

theorem seq_eq_some {p : Parser S α} {q : Parser S β} {s rest : List S} {a : α} {b : β} :
    seq p q s = some ((a, b), rest) ↔ ∃ s', p s = some (a, s') ∧ q s' = some (b, rest) := by
  rw [seq, Option.bind_eq_some_iff]
  constructor
  · rintro ⟨⟨a', s'⟩, hp, h⟩
    obtain ⟨⟨b', rest'⟩, hq, heq⟩ := Option.map_eq_some_iff.mp h
    obtain ⟨hab, rfl⟩ := Prod.mk.inj heq
    cases hab
    exact ⟨s', hp, hq⟩
  · rintro ⟨s', hp, hq⟩
    refine ⟨(a, s'), hp, ?_⟩
    rw [hq]
    rfl

theorem map_eq_some {f : α → β} {p : Parser S α} {s rest : List S} {b : β} :
    map f p s = some (b, rest) ↔ ∃ a, p s = some (a, rest) ∧ f a = b := by
  rw [map, Option.map_eq_some_iff]
  constructor
  · rintro ⟨⟨a, rest'⟩, hp, heq⟩
    cases heq
    exact ⟨a, hp, rfl⟩
  · rintro ⟨a, hp, rfl⟩
    exact ⟨(a, rest), hp, rfl⟩

theorem rep_of_eq_none {p : Parser S α} {s : List S} (h : p s = none) : rep p s = some ([], s) := by
  rw [rep, h]

theorem rep_of_eq_some {p : Parser S α} {s rest : List S} {a : α} (h : p s = some (a, rest))
    (hlt : rest.length < s.length) : rep p s = (rep p rest).map (Prod.map (a :: ·) id) := by
  rw [rep, h]
  exact if_pos hlt

/-! ## What a parser leaves -/

/-- The property stays with what a parser leaves of a text. -/
def Keeps (P : List S → Prop) (p : Parser S α) : Prop :=
  ∀ s a rest, p s = some (a, rest) → P s → P rest

namespace Keeps

variable {P : List S → Prop} {p : Parser S α} {q : Parser S β}

theorem success (a : α) : Keeps P (Parser.success a) := by
  rintro s _ _ h hs
  cases Option.some.inj h
  exact hs

theorem map (f : α → β) (hp : Keeps P p) : Keeps P (map f p) := by
  intro s b rest h hs
  obtain ⟨a, ha, -⟩ := map_eq_some.mp h
  exact hp s a rest ha hs

theorem seq (hp : Keeps P p) (hq : Keeps P q) : Keeps P (seq p q) := by
  rintro s ⟨a, b⟩ rest h hs
  obtain ⟨s', ha, hb⟩ := seq_eq_some.mp h
  exact hq s' b rest hb (hp s a s' ha hs)

theorem orElse {p' : Parser S α} (hp : Keeps P p) (hp' : Keeps P p') : Keeps P (orElse p p') := by
  intro s a rest h hs
  rcases Option.or_eq_some_iff.mp h with h | ⟨-, h⟩
  · exact hp s a rest h hs
  · exact hp' s a rest h hs

theorem rep (hp : Keeps P p) : Keeps P (rep p) := by
  intro s
  induction hn : s.length using Nat.strongRecOn generalizing s with
  | ind n ih =>
    intro as rest h hs
    cases hfirst : p s with
    | none =>
      rw [rep_of_eq_none hfirst] at h
      cases Option.some.inj h
      exact hs
    | some r =>
      obtain ⟨a, s'⟩ := r
      rw [Parser.rep, hfirst] at h
      dsimp only at h
      split_ifs at h with hlt
      obtain ⟨⟨as', rest'⟩, hrest, heq⟩ := Option.map_eq_some_iff.mp h
      cases heq
      exact ih s'.length (hn ▸ hlt) s' rfl as' rest' hrest (hp s a s' hfirst hs)

theorem repsep (hp : Keeps P p) (hq : Keeps P q) : Keeps P (repsep p q) :=
  ((hp.seq ((hq.seq hp).map _).rep).map _).orElse (.success [])

/-- A text is not read to its end if what is left never is. -/
theorem phrase_eq_none (hp : Keeps P p) (hnil : ¬P []) {s : List S} (hs : P s) :
    phrase p s = none := by
  rw [phrase, Option.bind_eq_none_iff]
  rintro ⟨a, rest⟩ h
  refine if_neg fun hrest => hnil ?_
  have hkept := hp s a rest h hs
  rwa [show rest = [] from hrest] at hkept

end Keeps

/-! ## What a parser reads -/

/-- Before what follows, the parser reads the text and makes the value of it. -/
def Reads (p : Parser S α) (follows : List S → Prop) (text : List S) (a : α) : Prop :=
  ∀ rest, follows rest → p (text ++ rest) = some (a, rest)

namespace Reads

variable {p : Parser S α} {q : Parser S β} {F G : List S → Prop} {text text' : List S} {a : α}
  {b : β}

theorem mono (h : Reads p F text a) (hG : ∀ rest, G rest → F rest) : Reads p G text a :=
  fun rest hrest => h rest (hG rest hrest)

theorem map (f : α → β) (h : Reads p F text a) : Reads (map f p) F text (f a) :=
  fun rest hrest => map_eq_some.mpr ⟨a, h rest hrest, rfl⟩

theorem seq (hp : Reads p F text a) (hq : Reads q G text' b)
    (hF : ∀ rest, G rest → F (text' ++ rest)) : Reads (seq p q) G (text ++ text') (a, b) := by
  intro rest hrest
  rw [List.append_assoc]
  exact seq_eq_some.mpr ⟨text' ++ rest, hp _ (hF rest hrest), hq rest hrest⟩

theorem orElse_left {p' : Parser S α} (h : Reads p F text a) : Reads (orElse p p') F text a := by
  intro rest hrest
  rw [orElse, h rest hrest, Option.some_or]

theorem orElse_right {p' : Parser S α} (hnone : ∀ rest, F rest → p (text ++ rest) = none)
    (h : Reads p' F text a) : Reads (orElse p p') F text a := by
  intro rest hrest
  rw [orElse, hnone rest hrest, Option.none_or]
  exact h rest hrest

end Reads

section Separated

variable {ι : Type*} (R : ι → List S → Prop) (Sep : List S → Prop)

/-- Texts of some values, each after a separator. -/
inductive More : List ι → List S → Prop
  | nil : More [] []
  | cons {i : ι} {is : List ι} {sep text texts : List S} (hsep : Sep sep) (htext : R i text)
      (hrest : More is texts) : More (i :: is) (sep ++ text ++ texts)

/-- Texts of some values with separators between them. -/
inductive Separated : List ι → List S → Prop
  | nil : Separated [] []
  | cons {i : ι} {is : List ι} {text texts : List S} (htext : R i text)
      (hrest : More R Sep is texts) : Separated (i :: is) (text ++ texts)

variable {R Sep} {p : Parser S α} {q : Parser S β} {f : ι → α} {F : List S → Prop}
  {is : List ι} {texts : List S}

theorem More.follows (hsep : ∀ sep, Sep sep → ∀ rest, F (sep ++ rest)) (h : More R Sep is texts)
    {rest : List S} (hrest : F rest) : F (texts ++ rest) := by
  cases h with
  | nil => exact hrest
  | cons hs _ _ =>
    rw [List.append_assoc, List.append_assoc]
    exact hsep _ hs _

theorem More.reads (hp : ∀ i ∈ is, ∀ text, R i text → Reads p F text (f i))
    (hq : ∀ sep, Sep sep → sep ≠ [] ∧ ∃ b, Reads q (fun _ => True) sep b)
    (hsep : ∀ sep, Sep sep → ∀ rest, F (sep ++ rest)) (h : More R Sep is texts) :
    Reads (rep (Parser.map Prod.snd (Parser.seq q p))) (fun rest => F rest ∧ q rest = none) texts
      (is.map f) := by
  rintro rest ⟨hF, hnone⟩
  induction h with
  | nil =>
    refine rep_of_eq_none ?_
    rw [List.nil_append, Parser.map, Parser.seq, hnone]
    rfl
  | @cons i is sep text texts hs htext hrest ih =>
    obtain ⟨hfirst, hothers⟩ := List.forall_mem_cons.mp hp
    obtain ⟨hne, b, hb⟩ := hq sep hs
    have hfollows := hrest.follows hsep hF
    have hread : Parser.map Prod.snd (Parser.seq q p) (sep ++ text ++ texts ++ rest) =
        some (f i, texts ++ rest) := by
      rw [List.append_assoc]
      exact ((hb.seq (hfirst text htext) fun _ _ => trivial).map Prod.snd) _ hfollows
    rw [rep_of_eq_some hread, ih hothers]
    · rfl
    · have hpos := List.length_pos_iff.mpr hne
      simp only [List.length_append]
      omega

theorem Separated.reads (hp : ∀ i ∈ is, ∀ text, R i text → Reads p F text (f i))
    (hq : ∀ sep, Sep sep → sep ≠ [] ∧ ∃ b, Reads q (fun _ => True) sep b)
    (hsep : ∀ sep, Sep sep → ∀ rest, F (sep ++ rest)) (h : Separated R Sep is texts) :
    Reads (repsep p q) (fun rest => F rest ∧ q rest = none ∧ p rest = none) texts (is.map f) := by
  cases h with
  | nil =>
    rintro rest ⟨-, -, hnone⟩
    rw [repsep, orElse, rep1sep, Parser.map, Parser.seq, List.nil_append, hnone]
    rfl
  | cons htext hrest =>
    obtain ⟨hfirst, hothers⟩ := List.forall_mem_cons.mp hp
    refine Reads.orElse_left (((hfirst _ htext).seq (hrest.reads hothers hq hsep) ?_).map _ |>.mono ?_)
    · exact fun rest hrest' => hrest.follows hsep hrest'.1
    · exact fun rest h => ⟨h.1, h.2.1⟩

end Separated

end Parser

end Marathon.Lib
