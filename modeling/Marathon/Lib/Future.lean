/-!
# Futures

Computations that change a world as they go and may fail with a text: what was changed before
the failure stays changed.
-/

namespace Marathon.Lib

/-- A computation of two parts succeeds when each of them does. -/
theorem bind_eq_ok {ε α β : Type} {x : Except ε α} {f : α → Except ε β} {b : β} :
    x >>= f = .ok b ↔ ∃ a, x = .ok a ∧ f a = .ok b := by
  cases x with
  | error e =>
    constructor
    · intro h
      cases h
    · rintro ⟨a, h, _⟩
      cases h
  | ok a =>
    constructor
    · exact fun h => ⟨a, rfl, h⟩
    · rintro ⟨a', h, hf⟩
      cases h
      exact hf

/-- A future over the world `W`. -/
abbrev Future (W α : Type) := EStateM String W α

namespace Future

variable {W α β : Type}

/-- The world a future leaves behind. -/
def world : EStateM.Result String W α → W
  | .ok _ w => w
  | .error _ w => w

@[simp]
theorem world_ok (a : α) (w : W) : world (.ok a w : EStateM.Result String W α) = w := rfl

@[simp]
theorem world_error (e : String) (w : W) : world (.error e w : EStateM.Result String W α) = w := rfl

def succeeded : EStateM.Result String W α → Bool
  | .ok .. => true
  | .error .. => false

theorem eq_ok_of_succeeded {result : EStateM.Result String W α} (h : succeeded result = true) :
    ∃ a, result = .ok a (world result) := by
  cases result with
  | ok a w => exact ⟨a, rfl⟩
  | error e w => cases h

theorem run_throw (e : String) (w : W) : (throw e : Future W α).run w = .error e w := rfl

theorem run_modify (f : W → W) (w : W) : (modify f : Future W PUnit).run w = .ok ⟨⟩ (f w) := rfl

theorem run_bind_of_ok {x : Future W α} {w w' : W} {a : α} (h : x.run w = .ok a w')
    (f : α → Future W β) : (x >>= f).run w = (f a).run w' := by
  rw [EStateM.run_bind, h]

theorem run_bind_of_error {x : Future W α} {w w' : W} {e : String} (h : x.run w = .error e w')
    (f : α → Future W β) : (x >>= f).run w = .error e w' := by
  rw [EStateM.run_bind, h]

theorem run_tryCatch_of_ok {x : Future W α} {w w' : W} {a : α} (h : x.run w = .ok a w')
    (handle : String → Future W α) : (tryCatch x handle).run w = .ok a w' := by
  have hx : x w = .ok a w' := h
  show EStateM.tryCatch x handle w = .ok a w'
  delta EStateM.tryCatch
  rw [hx]

theorem run_tryCatch_of_error {x : Future W α} {w w' : W} {e : String} (h : x.run w = .error e w')
    (handle : String → Future W α) : (tryCatch x handle).run w = (handle e).run w' := by
  have hx : x w = .error e w' := h
  show EStateM.tryCatch x handle w = (handle e).run w'
  delta EStateM.tryCatch
  rw [hx]
  rfl

theorem run_discard_of_ok {x : Future W α} {w w' : W} {a : α} (h : x.run w = .ok a w') :
    (discard x : Future W PUnit).run w = .ok PUnit.unit w' := by
  have hx : x w = .ok a w' := h
  show EStateM.map (Function.const α PUnit.unit) x w = .ok PUnit.unit w'
  rw [EStateM.map, hx]

theorem run_discard_of_error {x : Future W α} {w w' : W} {e : String} (h : x.run w = .error e w') :
    (discard x : Future W PUnit).run w = .error e w' := by
  have hx : x w = .error e w' := h
  show EStateM.map (Function.const α PUnit.unit) x w = .error e w'
  rw [EStateM.map, hx]

/-- Changes made one after another. -/
theorem run_forM_modify (f : α → W → W) (l : List α) (w : W) :
    (l.forM fun a => (modify (f a) : Future W PUnit)).run w =
      .ok ⟨⟩ (l.foldl (fun w a => f a w) w) := by
  induction l generalizing w with
  | nil => rfl
  | cons a l ih =>
    rw [List.forM, run_bind_of_ok (run_modify (f a) w)]
    exact ih (f a w)

/-- The rule for a loop: what holds at first and is kept by each round, whether it fails or
not, holds at the end. -/
theorem world_forM {P : W → Prop} {f : α → Future W PUnit} {l : List α}
    (hf : ∀ a ∈ l, ∀ w, P w → P (world ((f a).run w))) {w : W} (hw : P w) :
    P (world ((l.forM f).run w)) := by
  induction l generalizing w with
  | nil => exact hw
  | cons a l ih =>
    have hround := hf a List.mem_cons_self w hw
    rw [List.forM]
    cases h : (f a).run w with
    | ok b w' =>
      rw [h] at hround
      rw [run_bind_of_ok h]
      exact ih (fun a ha => hf a (List.mem_cons_of_mem _ ha)) hround
    | error e w' =>
      rw [h] at hround
      rw [run_bind_of_error h]
      exact hround

end Future

end Marathon.Lib
