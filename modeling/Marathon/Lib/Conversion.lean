import Marathon.Lib.Collections
import Mathlib.Data.Finmap

/-!
# Conversions that may fail

A value is restored by a pair of partial conversions if it can be written, and is read again from
what is written. Options and lists are restored with their elements. So are sets, if the pair is
stable: it restores whatever has been read from a written value.
-/

namespace Marathon.Lib

section Restores

variable {α β : Type} {write : α → Option β} {read : β → Option α}

/-- The value is read again from its written form. -/
def Restores (write : α → Option β) (read : β → Option α) (a : α) : Prop :=
  (write a).bind read = some a

/-- What has been written and read once is restored. -/
def Stable (write : α → Option β) (read : β → Option α) : Prop :=
  ∀ a b, (write a).bind read = some b → Restores write read b

theorem restores_iff {a : α} : Restores write read a ↔ ∃ b, write a = some b ∧ read b = some a :=
  Option.bind_eq_some_iff

theorem restores_option {o : Option α} :
    Restores (Option.mapM write) (Option.mapM read) o ↔ ∀ a, o = some a → Restores write read a := by
  cases o with
  | none => exact iff_of_true rfl fun a ha => by cases ha
  | some a =>
    have hall : (∀ b, some a = some b → Restores write read b) ↔ Restores write read a :=
      ⟨fun h => h a rfl, fun h b hb => Option.some.inj hb ▸ h⟩
    rw [hall, restores_iff, restores_iff]
    constructor
    · rintro ⟨written, hwrite, hread⟩
      obtain ⟨b, hb, rfl⟩ := Option.map_eq_some_iff.mp hwrite
      obtain ⟨a', ha', heq⟩ := Option.map_eq_some_iff.mp hread
      exact ⟨b, hb, ha'.trans heq⟩
    · rintro ⟨b, hb, ha⟩
      exact ⟨some b, Option.map_eq_some_iff.mpr ⟨b, hb, rfl⟩, Option.map_eq_some_iff.mpr ⟨a, ha, rfl⟩⟩

theorem mapM_cons_eq_some {f : α → Option β} {a : α} {l : List α} {bs : List β} :
    (a :: l).mapM f = some bs ↔ ∃ b rest, f a = some b ∧ l.mapM f = some rest ∧ bs = b :: rest := by
  rw [List.mapM_cons]
  constructor
  · intro h
    obtain ⟨b, hb, h⟩ := Option.bind_eq_some_iff.mp h
    obtain ⟨rest, hrest, h⟩ := Option.bind_eq_some_iff.mp h
    exact ⟨b, rest, hb, hrest, (Option.some.inj h).symm⟩
  · rintro ⟨b, rest, hb, hrest, rfl⟩
    rw [hb, hrest]
    rfl

theorem restores_list {l : List α} :
    Restores (List.mapM write) (List.mapM read) l ↔ ∀ a ∈ l, Restores write read a := by
  induction l with
  | nil => exact iff_of_true rfl fun a ha => by cases ha
  | cons a l ih =>
    rw [List.forall_mem_cons, ← ih, restores_iff, restores_iff, restores_iff]
    constructor
    · rintro ⟨bs, hwrite, hread⟩
      obtain ⟨b, rest, hb, hrest, rfl⟩ := mapM_cons_eq_some.mp hwrite
      obtain ⟨a', l', ha', hl', heq⟩ := mapM_cons_eq_some.mp hread
      cases heq
      exact ⟨⟨b, hb, ha'⟩, rest, hrest, hl'⟩
    · rintro ⟨⟨b, hb, ha⟩, rest, hrest, hl⟩
      exact ⟨b :: rest, mapM_cons_eq_some.mpr ⟨b, rest, hb, hrest, rfl⟩,
        mapM_cons_eq_some.mpr ⟨a, l, ha, hl, rfl⟩⟩

/-! ## Sets -/

/-- All elements are converted, in whatever order, or there is no result. -/
def setMapM [DecidableEq β] (f : α → Option β) (s : Finset α) : Option (Finset β) :=
  if ∀ a ∈ s, (f a).isSome = true then some (s.biUnion fun a => (f a).toFinset) else none

theorem setMapM_eq_some [DecidableEq β] {f : α → Option β} {s : Finset α} {t : Finset β} :
    setMapM f s = some t ↔
      (∀ a ∈ s, (f a).isSome = true) ∧ ∀ b, b ∈ t ↔ ∃ a ∈ s, f a = some b := by
  have hmem : ∀ b, (b ∈ s.biUnion fun a => (f a).toFinset) ↔ ∃ a ∈ s, f a = some b := fun b => by
    rw [Finset.mem_biUnion]
    exact exists_congr fun a => and_congr_right fun _ => Option.mem_toFinset
  rw [setMapM]
  split
  · next hall =>
    rw [Option.some.injEq, and_iff_right hall, Finset.ext_iff]
    exact forall_congr' fun b => by rw [hmem b]; exact Iff.comm
  · next hall => exact iff_of_false (fun h => by cases h) fun h => hall h.1

theorem restores_set [DecidableEq α] [DecidableEq β] (hstable : Stable write read) {s : Finset α} :
    Restores (setMapM write) (setMapM read) s ↔ ∀ a ∈ s, Restores write read a := by
  rw [restores_iff]
  constructor
  · rintro ⟨t, hwrite, hread⟩ a ha
    -- every element has been read from some written one
    obtain ⟨b, hb, hab⟩ := ((setMapM_eq_some.mp hread).2 a).mp ha
    obtain ⟨a', ha', hb'⟩ := ((setMapM_eq_some.mp hwrite).2 b).mp hb
    exact hstable a' a (Option.bind_eq_some_iff.mpr ⟨b, hb', hab⟩)
  · intro h
    have hwritten : ∀ a ∈ s, (write a).isSome = true := fun a ha => by
      obtain ⟨b, hb, -⟩ := restores_iff.mp (h a ha)
      exact Option.isSome_of_mem hb
    have hback : ∀ a ∈ s, ∀ b, write a = some b → read b = some a := fun a ha b hb => by
      obtain ⟨b', hb', hread⟩ := restores_iff.mp (h a ha)
      cases hb.symm.trans hb'
      exact hread
    refine ⟨s.biUnion fun a => (write a).toFinset, if_pos hwritten, setMapM_eq_some.mpr ⟨?_, ?_⟩⟩
    · intro b hb
      obtain ⟨a, ha, hab⟩ := Finset.mem_biUnion.mp hb
      exact Option.isSome_of_mem (hback a ha b (Option.mem_toFinset.mp hab))
    · intro a
      constructor
      · intro ha
        obtain ⟨b, hb, hread⟩ := restores_iff.mp (h a ha)
        exact ⟨b, Finset.mem_biUnion.mpr ⟨a, ha, Option.mem_toFinset.mpr hb⟩, hread⟩
      · rintro ⟨b, hb, hread⟩
        obtain ⟨a', ha', hab⟩ := Finset.mem_biUnion.mp hb
        have heq := hback a' ha' b (Option.mem_toFinset.mp hab)
        exact Option.some.inj (heq.symm.trans hread) ▸ ha'

theorem setMapM_some [DecidableEq β] (f : α → β) (s : Finset α) :
    setMapM (fun a => some (f a)) s = some (s.image f) := by
  rw [setMapM_eq_some]
  refine ⟨fun a _ => rfl, fun b => ?_⟩
  rw [Finset.mem_image]
  exact exists_congr fun a => and_congr_right fun _ => (Option.some.injEq _ _).symm ▸ Iff.rfl

/-- Sets whose elements can always be written. -/
theorem setMapM_image_eq_some [DecidableEq α] [DecidableEq β] {f : α → β}
    (hstable : ∀ a b, read (f a) = some b → read (f b) = some b) {s : Finset α} :
    setMapM read (s.image f) = some s ↔ ∀ a ∈ s, read (f a) = some a := by
  have hstable' : Stable (fun a => some (f a)) read := hstable
  have h := restores_set hstable' (s := s)
  rw [Restores, setMapM_some, Option.bind_some] at h
  exact h

end Restores

/-! ## Maps -/

section Values

variable {K V W : Type}

/-- The values of a finite map, converted. -/
def mapValues (f : V → W) (m : Finmap fun _ : K => V) : Finmap fun _ : K => W where
  entries := m.entries.map fun e => ⟨e.1, f e.2⟩
  nodupKeys := by
    have hkeys : (m.entries.map fun e => (⟨e.1, f e.2⟩ : Sigma fun _ : K => W)).keys =
        m.entries.keys := by
      rw [Multiset.keys, Multiset.map_map]
      rfl
    rw [← Multiset.nodup_keys, hkeys]
    exact Multiset.nodup_keys.mpr m.nodupKeys

theorem mapValues_mapValues {f : V → W} {g : W → V} (h : ∀ v, g (f v) = v)
    (m : Finmap fun _ : K => V) : mapValues g (mapValues f m) = m := by
  apply Finmap.ext
  change (m.entries.map _).map _ = m.entries
  rw [Multiset.map_map]
  refine (Multiset.map_congr rfl fun e _ => ?_).trans (Multiset.map_id m.entries)
  exact congrArg (Sigma.mk e.1) (h e.2)

end Values

end Marathon.Lib
