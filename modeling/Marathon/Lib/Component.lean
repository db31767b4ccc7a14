import Mathlib.Logic.Basic

/-!
# Components

A component answers requests one after the other from a state of its own. Two
components that stay related give the same answers exactly as long as the answer
to each request is the same in related states.
-/

namespace Marathon.Lib

/-- The answer to a request, and the state afterwards. -/
abbrev Component (σ ι ο : Type*) := σ → ι → ο × σ

namespace Component

variable {σ τ ι ο : Type*}

/-- The answers to the requests of a list. -/
def answers (f : Component σ ι ο) : σ → List ι → List ο
  | _, [] => []
  | s, i :: is => (f s i).1 :: f.answers (f s i).2 is

/-- The state after the requests of a list. -/
def after (f : Component σ ι ο) : σ → List ι → σ
  | s, [] => s
  | s, i :: is => f.after (f s i).2 is

/-- Every request of the list meets `ok` in the state in which it is made. -/
def Along (f : Component σ ι ο) (ok : σ → ι → Prop) : σ → List ι → Prop
  | _, [] => True
  | s, i :: is => ok s i ∧ f.Along ok (f s i).2 is

instance (f : Component σ ι ο) (ok : σ → ι → Prop) [∀ s i, Decidable (ok s i)] :
    ∀ s is, Decidable (f.Along ok s is)
  | _, [] => inferInstanceAs (Decidable True)
  | s, i :: is =>
    have : Decidable (f.Along ok (f s i).2 is) := instDecidableAlong f ok (f s i).2 is
    inferInstanceAs (Decidable (_ ∧ _))

variable {f : Component σ ι ο} {g : Component τ ι ο} {R : σ → τ → Prop}

/-- Conditions that agree where an invariant holds agree along a run, when one of them keeps the
invariant. -/
theorem along_iff {ok ok' : σ → ι → Prop} {I : σ → Prop} (hiff : ∀ s i, I s → (ok s i ↔ ok' s i))
    (hnext : ∀ s i, I s → ok s i → I (f s i).2) {s : σ} (hI : I s) {is : List ι} :
    f.Along ok s is ↔ f.Along ok' s is := by
  induction is generalizing s with
  | nil => exact Iff.rfl
  | cons i is ih =>
    rw [Along, Along, ← hiff s i hI]
    exact and_congr_right fun hok => ih (hnext s i hI hok)

/-- If requests that meet `ok` are answered alike and keep the relation, then runs of such
requests are answered alike. -/
theorem answers_eq_of_along {ok : σ → ι → Prop}
    (hanswer : ∀ s t i, R s t → ok s i → (f s i).1 = (g t i).1)
    (hnext : ∀ s t i, R s t → ok s i → R (f s i).2 (g t i).2) {s : σ} {t : τ} (hR : R s t)
    {is : List ι} (h : f.Along ok s is) : f.answers s is = g.answers t is := by
  induction is generalizing s t with
  | nil => rfl
  | cons i is ih =>
    have hrest := ih (hnext s t i hR h.1) h.2
    rw [answers, answers, hanswer s t i hR h.1, hrest]

/-- If the relation is always kept and `ok` says exactly when a request is answered alike,
then it says so for runs. -/
theorem answers_eq_iff_along {ok : σ → ι → Prop} {dom : ι → Prop}
    (hanswer : ∀ s t i, R s t → dom i → ((f s i).1 = (g t i).1 ↔ ok s i))
    (hnext : ∀ s t i, R s t → dom i → R (f s i).2 (g t i).2) {s : σ} {t : τ} (hR : R s t)
    {is : List ι} (hdom : ∀ i ∈ is, dom i) : f.answers s is = g.answers t is ↔ f.Along ok s is := by
  induction is generalizing s t with
  | nil => exact iff_of_true rfl trivial
  | cons i is ih =>
    have hi : dom i := hdom i List.mem_cons_self
    have his : ∀ j ∈ is, dom j := fun j hj => hdom j (List.mem_cons_of_mem i hj)
    rw [answers, answers, Along, List.cons.injEq, hanswer s t i hR hi, ih (hnext s t i hR hi) his]

end Component

end Marathon.Lib
