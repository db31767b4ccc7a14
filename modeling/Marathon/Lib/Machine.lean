import Mathlib.Logic.Function.Basic
import Mathlib.Logic.Relation

/-!
# Labelled machines

A machine is a partial step function on labelled events. Reachability is taken
under a condition on the steps, so that a property can be proved of every run
whose steps all meet the condition; the trivial condition gives the plain runs.
-/

namespace Marathon.Lib

/-- Initial states and the partial step function: `none` means that the event
cannot happen in this state. -/
structure Machine (σ ε : Type*) where
  Init : σ → Prop
  step : σ → ε → Option σ

namespace Machine

variable {σ ε : Type*}

/-- The states reached by steps that all meet `ok`. -/
inductive ReachableIf (M : Machine σ ε) (ok : σ → ε → Prop) : σ → Prop
  | init {s : σ} (h : M.Init s) : ReachableIf M ok s
  | step {s : σ} {e : ε} {s' : σ} (h : ReachableIf M ok s) (hok : ok s e)
      (hs : M.step s e = some s') : ReachableIf M ok s'

/-- The states reached by any steps. -/
abbrev Reachable (M : Machine σ ε) : σ → Prop := M.ReachableIf fun _ _ => True

variable {M : Machine σ ε}

/-- The machine started in one state. -/
def startingAt (M : Machine σ ε) (s₀ : σ) : Machine σ ε where
  Init s := s = s₀
  step := M.step

theorem ReachableIf.of_startingAt {ok : σ → ε → Prop} {s₀ s : σ}
    (h : (M.startingAt s₀).ReachableIf ok s) (hinit : M.Init s₀) : M.ReachableIf ok s := by
  induction h with
  | init h =>
    obtain rfl := h
    exact .init hinit
  | step _ hok hs ih => exact .step ih hok hs

theorem ReachableIf.trans {ok : σ → ε → Prop} {s s' : σ} (h : M.ReachableIf ok s)
    (h' : (M.startingAt s).ReachableIf ok s') : M.ReachableIf ok s' := by
  induction h' with
  | init heq =>
    obtain rfl := heq
    exact h
  | step _ hok hs ih => exact .step ih hok hs

/-- The invariant rule: what holds initially and is kept by every step that
meets the condition holds in every state reached. -/
theorem ReachableIf.invariant {ok : σ → ε → Prop} {I : σ → Prop}
    (hinit : ∀ s, M.Init s → I s) (hstep : ∀ s e s', I s → ok s e → M.step s e = some s' → I s')
    {s : σ} (h : M.ReachableIf ok s) : I s := by
  induction h with
  | init h => exact hinit _ h
  | step _ hok hs ih => exact hstep _ _ _ ih hok hs

theorem ReachableIf.mono {ok ok' : σ → ε → Prop} (himp : ∀ s e, ok s e → ok' s e)
    {s : σ} (h : M.ReachableIf ok s) : M.ReachableIf ok' s := by
  induction h with
  | init h => exact .init h
  | step _ hok hs ih => exact .step ih (himp _ _ hok) hs

theorem ReachableIf.reachable {ok : σ → ε → Prop} {s : σ} (h : M.ReachableIf ok s) :
    M.Reachable s :=
  h.mono fun _ _ _ => trivial

/-- An invariant proved first may be used in the step case of the next one. -/
theorem ReachableIf.invariant_of {ok : σ → ε → Prop} {I J : σ → Prop}
    (hI : ∀ s, M.ReachableIf ok s → I s) (hinit : ∀ s, M.Init s → J s)
    (hstep : ∀ s e s', I s → J s → ok s e → M.step s e = some s' → J s')
    {s : σ} (h : M.ReachableIf ok s) : J s := by
  induction h with
  | init h => exact hinit _ h
  | step hr hok hs ih => exact hstep _ _ _ (hI _ hr) ih hok hs

/-- The events of a list one after another, as long as every step meets `ok`. -/
def runIf (M : Machine σ ε) (ok : σ → ε → Prop) [∀ s e, Decidable (ok s e)] (s : σ) :
    List ε → Option σ
  | [] => some s
  | e :: es => if ok s e then (M.step s e).bind fun s' => M.runIf ok s' es else none

/-- The events of a list one after another. -/
abbrev run (M : Machine σ ε) : σ → List ε → Option σ := M.runIf fun _ _ => True

theorem reachableIf_of_runIf {ok : σ → ε → Prop} [∀ s e, Decidable (ok s e)] {s s' : σ}
    (es : List ε) (h : M.ReachableIf ok s) (hr : M.runIf ok s es = some s') :
    M.ReachableIf ok s' := by
  induction es generalizing s with
  | nil =>
    obtain rfl : s = s' := by simpa [runIf] using hr
    exact h
  | cons e es ih =>
    simp only [runIf] at hr
    split at hr
    · rename_i hok
      obtain ⟨t, hs, ht⟩ := Option.bind_eq_some_iff.mp hr
      exact ih (.step h hok hs) ht
    · cases hr

/-- A test that the end of a run passes says that there is one. -/
theorem exists_of_any {α : Type*} {o : Option α} {test : α → Bool} (h : o.any test = true) :
    ∃ x, o = some x ∧ test x = true := by
  cases o with
  | none => cases h
  | some x => exact ⟨x, rfl, h⟩

theorem run_of_runIf {ok : σ → ε → Prop} [∀ s e, Decidable (ok s e)] {s s' : σ} {es : List ε}
    (hr : M.runIf ok s es = some s') : M.run s es = some s' := by
  induction es generalizing s with
  | nil => exact hr
  | cons e es ih =>
    simp only [runIf] at hr
    split at hr
    · obtain ⟨t, hs, ht⟩ := Option.bind_eq_some_iff.mp hr
      simpa only [run, runIf, if_true, hs, Option.bind_some] using ih ht
    · cases hr

theorem run_concat {s : σ} (es : List ε) (e : ε) :
    M.run s (es ++ [e]) = (M.run s es).bind fun s' => M.step s' e := by
  induction es generalizing s with
  | nil =>
    simp only [List.nil_append, run, runIf, if_true, Option.bind_some]
    exact Option.bind_fun_some (M.step s e)
  | cons e' es ih =>
    simp only [List.cons_append, run, runIf, if_true, Option.bind_assoc] at ih ⊢
    exact congrArg _ (funext fun t => ih)

/-! ## One machine for every key -/

/-- The machine for a key is made when the first event comes for it. -/
def keyed (K : Type*) [DecidableEq K] (M : Machine σ ε) (create : σ) :
    Machine (K → Option σ) (K × ε) where
  Init s := s = fun _ => none
  step s e := (M.step ((s e.1).getD create) e.2).map fun t => Function.update s e.1 (some t)

end Machine

end Marathon.Lib
