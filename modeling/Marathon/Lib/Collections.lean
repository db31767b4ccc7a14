import Mathlib.Data.Finset.Max
import Mathlib.Data.List.Sort

/-!
# Batches, least elements and readings

Cutting a list into batches of a given size, the first elements of a sorted set, and
computations that may fail made for the elements of a list one after another.
-/

namespace Marathon.Lib

section Grouped

variable {α : Type*}

/-- The batches of a list whose first batch has begun with `batch`. -/
def groupedFrom (size : ℕ) (batch : List α) : List α → List (List α)
  | [] => if batch.isEmpty then [] else [batch]
  | a :: l =>
    if size ≤ batch.length + 1 then (batch ++ [a]) :: groupedFrom size [] l
    else groupedFrom size (batch ++ [a]) l

/-- The list in batches of `size` elements, the last one possibly smaller. -/
def grouped (size : ℕ) (l : List α) : List (List α) := groupedFrom size [] l

theorem flatten_groupedFrom (size : ℕ) (batch l : List α) :
    (groupedFrom size batch l).flatten = batch ++ l := by
  induction l generalizing batch with
  | nil => cases batch <;> simp [groupedFrom]
  | cons a l ih =>
    rw [groupedFrom]
    split <;> simp [ih]

/-- The batches put together are the list. -/
theorem flatten_grouped (size : ℕ) (l : List α) : (grouped size l).flatten = l :=
  flatten_groupedFrom size [] l

theorem groupedFrom_ne_nil {size : ℕ} {batch : List α} (hbatch : batch ≠ []) (l : List α) :
    groupedFrom size batch l ≠ [] := by
  induction l generalizing batch with
  | nil => simp [groupedFrom, hbatch]
  | cons a l ih =>
    rw [groupedFrom]
    split
    · exact List.cons_ne_nil _ _
    · exact ih (by simp)

theorem grouped_eq_nil_iff {size : ℕ} {l : List α} : grouped size l = [] ↔ l = [] := by
  cases l with
  | nil => simp [grouped, groupedFrom]
  | cons a l =>
    rw [grouped, groupedFrom]
    split
    · simp
    · exact iff_of_false (groupedFrom_ne_nil (by simp) l) (List.cons_ne_nil a l)

end Grouped

section Unions

variable {α : Type*} [DecidableEq α]

theorem mem_foldr_union {l : List (Finset α)} {a : α} : a ∈ l.foldr (· ∪ ·) ∅ ↔ ∃ s ∈ l, a ∈ s := by
  induction l with
  | nil => simp
  | cons s l ih => rw [List.foldr_cons, Finset.mem_union, ih, List.exists_mem_cons_iff]

end Unions

section TakeSorted

variable {α : Type*}

/-- The first elements of a list in which those with `p` come last. -/
theorem countP_take_of_pairwise {p : α → Bool} {l : List α}
    (h : l.Pairwise fun a b => p a → p b) (n : ℕ) :
    (l.take n).countP p = min (l.countP p) (n - l.countP fun a => !p a) := by
  induction l generalizing n with
  | nil => simp
  | cons a l ih =>
    obtain ⟨hhead, htail⟩ := List.pairwise_cons.mp h
    cases n with
    | zero => simp
    | succ n =>
      cases ha : p a with
      | true =>
        -- there are only elements with `p`
        have hall : ∀ b ∈ a :: l, p b := by
          intro b hb
          obtain rfl | hb := List.mem_cons.mp hb
          · exact ha
          · exact hhead b hb ha
        have hlength : (a :: l).countP p = (a :: l).length := List.countP_eq_length.mpr hall
        have htake : ((a :: l).take (n + 1)).countP p = ((a :: l).take (n + 1)).length :=
          List.countP_eq_length.mpr fun b hb => hall b (List.mem_of_mem_take hb)
        have hnone : ((a :: l).countP fun b => !p b) = 0 :=
          List.countP_eq_zero.mpr fun b hb => by simp [hall b hb]
        rw [hlength, htake, hnone, List.length_take]
        omega
      | false =>
        rw [List.take_succ_cons, List.countP_cons_of_neg (by simp [ha]), ih htail,
          List.countP_cons_of_neg (by simp [ha]), List.countP_cons_of_pos (by simp [ha])]
        omega

end TakeSorted

section TakeLeast

variable {α : Type*} [LinearOrder α]

/-- The first `n` elements of a sorted set: those with fewer than `n` elements before them. -/
def takeLeast (n : ℕ) (s : Finset α) : Finset α := s.filter fun a => (s.filter (· < a)).card < n

theorem mem_takeLeast {n : ℕ} {s : Finset α} {a : α} :
    a ∈ takeLeast n s ↔ a ∈ s ∧ (s.filter (· < a)).card < n :=
  Finset.mem_filter

theorem takeLeast_subset (n : ℕ) (s : Finset α) : takeLeast n s ⊆ s := Finset.filter_subset _ _

/-- What is not among the first `n` elements can be taken out before they are taken. -/
theorem takeLeast_eq_of_subset {n : ℕ} {s t : Finset α} (hsub : t ⊆ s)
    (h : ∀ a ∈ s, a ∉ t → a ∉ takeLeast n s) : takeLeast n s = takeLeast n t := by
  ext a
  rw [mem_takeLeast, mem_takeLeast]
  constructor
  · rintro ⟨ha, hcard⟩
    have hat : a ∈ t := by
      by_contra hat
      exact h a ha hat (mem_takeLeast.mpr ⟨ha, hcard⟩)
    exact ⟨hat, (Finset.card_le_card (Finset.filter_subset_filter _ hsub)).trans_lt hcard⟩
  · rintro ⟨hat, hcard⟩
    refine ⟨hsub hat, ?_⟩
    -- the least element below `a` that is taken out would be among the first `n`
    by_cases hnone : ∀ b ∈ s, b < a → b ∈ t
    · have hsame : s.filter (· < a) = t.filter (· < a) := by
        ext b
        rw [Finset.mem_filter, Finset.mem_filter]
        exact ⟨fun hb => ⟨hnone b hb.1 hb.2, hb.2⟩, fun hb => ⟨hsub hb.1, hb.2⟩⟩
      rwa [hsame]
    · push Not at hnone
      obtain ⟨b, hb, hba, hbt⟩ := hnone
      have hne : (s.filter (· ∉ t)).Nonempty := ⟨b, Finset.mem_filter.mpr ⟨hb, hbt⟩⟩
      obtain ⟨hcs, hct⟩ := Finset.mem_filter.mp (Finset.min'_mem _ hne)
      have hcb : (s.filter (· ∉ t)).min' hne ≤ b :=
        Finset.min'_le _ b (Finset.mem_filter.mpr ⟨hb, hbt⟩)
      have hbelow : s.filter (· < (s.filter (· ∉ t)).min' hne) ⊆ t.filter (· < a) := by
        intro d hd
        obtain ⟨hds, hdc⟩ := Finset.mem_filter.mp hd
        refine Finset.mem_filter.mpr ⟨?_, hdc.trans (hcb.trans_lt hba)⟩
        by_contra hdt
        exact absurd hdc (not_lt.mpr (Finset.min'_le _ d (Finset.mem_filter.mpr ⟨hds, hdt⟩)))
      exact absurd (mem_takeLeast.mpr ⟨hcs, (Finset.card_le_card hbelow).trans_lt hcard⟩)
        (h _ hcs hct)

theorem card_takeLeast (n : ℕ) (s : Finset α) : (takeLeast n s).card = min n s.card := by
  induction s using Finset.induction_on_max with
  | empty => simp [takeLeast]
  | insert a s hmax ih =>
    have ha : a ∉ s := fun ha => lt_irrefl a (hmax a ha)
    have hbelow : ∀ b ∈ s, (insert a s).filter (· < b) = s.filter (· < b) := by
      intro b hb
      rw [Finset.filter_insert, if_neg (not_lt.mpr (hmax b hb).le)]
    have hall : (insert a s).filter (· < a) = s := by
      rw [Finset.filter_insert, if_neg (lt_irrefl a)]
      exact Finset.filter_true_of_mem hmax
    have hrest : s.filter (fun b => ((insert a s).filter (· < b)).card < n) = takeLeast n s :=
      Finset.filter_congr fun b hb => by rw [hbelow b hb]
    rw [takeLeast, Finset.filter_insert, hall, hrest, Finset.card_insert_of_notMem ha]
    split
    · have hnot : a ∉ takeLeast n s := fun h => ha (takeLeast_subset n s h)
      rw [Finset.card_insert_of_notMem hnot, ih]
      omega
    · rw [ih]
      omega

end TakeLeast

section MinOn

variable {α β : Type*} [LE β] [DecidableLE β] [Std.IsLinearPreorder β]

theorem le_of_minOn?_eq_some {f : α → β} {l : List α} {a : α} (h : l.minOn? f = some a) {b : α}
    (hb : b ∈ l) : f a ≤ f b := by
  have hle := List.apply_get_minOn?_le_of_mem (f := f) hb
  simp only [h, Option.get_some] at hle
  exact hle

end MinOn

section ByKey

variable {α β : Type*} [DecidableEq β] {key : α → β}

theorem filter_ne_of_notMem {l : List α} {b : β} (h : b ∉ l.map key) :
    (l.filter fun a => key a ≠ b) = l := by
  apply List.filter_eq_self.mpr
  intro a ha
  apply decide_eq_true
  rintro rfl
  exact h (List.mem_map_of_mem ha)

/-- Among elements with distinct keys one can be put first. -/
theorem perm_cons_filter_ne {l : List α} (hnodup : (l.map key).Nodup) {a : α} (ha : a ∈ l) :
    l.Perm (a :: l.filter fun b => key b ≠ key a) := by
  induction l with
  | nil => cases ha
  | cons b l ih =>
    rw [List.map_cons, List.nodup_cons] at hnodup
    rcases List.mem_cons.mp ha with rfl | ha
    · rw [List.filter_cons_of_neg (by simp), filter_ne_of_notMem hnodup.1]
    · have hne : key b ≠ key a := fun heq => hnodup.1 (heq ▸ List.mem_map_of_mem ha)
      rw [List.filter_cons_of_pos (by simpa using hne)]
      exact ((ih hnodup.2 ha).cons b).trans (.swap a b _)

/-- One element changed where it stands. -/
theorem perm_cons_filter_ne_map {l : List α} (hnodup : (l.map key).Nodup) {a : α} (ha : a ∈ l)
    (f : α → α) :
    (l.map fun b => if key b = key a then f b else b).Perm
      (f a :: l.filter fun b => key b ≠ key a) := by
  have hperm := (perm_cons_filter_ne hnodup ha).map fun b => if key b = key a then f b else b
  rw [List.map_cons, if_pos rfl] at hperm
  have hrest : (l.filter fun b => key b ≠ key a).map
      (fun b => if key b = key a then f b else b) = l.filter fun b => key b ≠ key a := by
    conv_rhs => rw [← List.map_id (l.filter fun b => key b ≠ key a)]
    apply List.map_congr_left
    intro b hb
    have hne := of_decide_eq_true (List.mem_filter.mp hb).2
    rw [if_neg hne]
    rfl
  rwa [hrest] at hperm

end ByKey

section SortedGroups

variable {α : Type*}

/-- What has the same key put together, smallest key first. -/
def sortedGroups (l : List (ℕ × α)) : List (ℕ × List α) :=
  ((l.map Prod.fst).dedup.insertionSort (· ≤ ·)).map fun k =>
    (k, (l.filter fun a => a.1 = k).map Prod.snd)

theorem mem_of_mem_sortedGroups {l : List (ℕ × α)} {g : ℕ × List α} (hg : g ∈ sortedGroups l)
    {a : α} : a ∈ g.2 ↔ (g.1, a) ∈ l := by
  obtain ⟨k, -, rfl⟩ := List.mem_map.mp hg
  simp

theorem exists_mem_sortedGroups {l : List (ℕ × α)} {a : ℕ × α} (ha : a ∈ l) :
    ∃ g ∈ sortedGroups l, g.1 = a.1 ∧ a.2 ∈ g.2 := by
  refine ⟨(a.1, (l.filter fun b => b.1 = a.1).map Prod.snd), ?_, rfl, ?_⟩
  · refine List.mem_map.mpr ⟨a.1, ?_, rfl⟩
    rw [List.mem_insertionSort, List.mem_dedup]
    exact List.mem_map_of_mem ha
  · simpa using ha

theorem ne_nil_of_mem_sortedGroups {l : List (ℕ × α)} {g : ℕ × List α}
    (hg : g ∈ sortedGroups l) : g.2 ≠ [] := by
  obtain ⟨k, hk, rfl⟩ := List.mem_map.mp hg
  rw [List.mem_insertionSort, List.mem_dedup] at hk
  obtain ⟨a, ha, rfl⟩ := List.mem_map.mp hk
  have hmem : a.2 ∈ (l.filter fun b => b.1 = a.1).map Prod.snd := by simpa using ha
  exact List.ne_nil_of_mem hmem

/-- The groups stand in the order of their keys. -/
theorem pairwise_sortedGroups (l : List (ℕ × α)) :
    (sortedGroups l).Pairwise fun g g' => g.1 < g'.1 := by
  rw [sortedGroups, List.pairwise_map]
  have hsorted := List.pairwise_insertionSort (· ≤ ·) (l.map Prod.fst).dedup
  have hnodup : ((l.map Prod.fst).dedup.insertionSort (· ≤ ·)).Nodup :=
    (List.perm_insertionSort _ _).nodup_iff.mpr (List.nodup_dedup _)
  exact (hsorted.and hnodup).imp fun h => lt_of_le_of_ne h.1 h.2

/-- Nothing is in two groups, or twice in one. -/
theorem nodup_flatMap_sortedGroups {l : List (ℕ × α)} (h : (l.map Prod.snd).Nodup) :
    ((sortedGroups l).flatMap Prod.snd).Nodup := by
  rw [List.nodup_flatMap]
  constructor
  · intro g hg
    obtain ⟨k, -, rfl⟩ := List.mem_map.mp hg
    exact h.sublist (List.filter_sublist.map Prod.snd)
  · apply (pairwise_sortedGroups l).imp_of_mem
    intro g g' hg hg' hlt a ha ha'
    have hmem := (mem_of_mem_sortedGroups hg).mp ha
    have hmem' := (mem_of_mem_sortedGroups hg').mp ha'
    have heq : (g.1, a) = (g'.1, a) := List.inj_on_of_nodup_map h hmem hmem' rfl
    exact hlt.ne (Prod.mk.inj heq).1

end SortedGroups

section Forall₂

variable {α β : Type*} {R : α → β → Prop} {l : List α} {l' : List β}

theorem exists_of_forall₂_left (h : List.Forall₂ R l l') {a : α} (ha : a ∈ l) :
    ∃ b ∈ l', R a b := by
  induction h with
  | nil => cases ha
  | cons hab _ ih =>
    obtain rfl | ha := List.mem_cons.mp ha
    · exact ⟨_, List.mem_cons_self, hab⟩
    · obtain ⟨b, hb, hr⟩ := ih ha
      exact ⟨b, List.mem_cons_of_mem _ hb, hr⟩

theorem exists_of_forall₂_right (h : List.Forall₂ R l l') {b : β} (hb : b ∈ l') : ∃ a ∈ l, R a b :=
  exists_of_forall₂_left h.flip hb

end Forall₂

section MapM

variable {α β : Type*}

/-- When all the computations succeed, each result is the one of its element. -/
theorem forall₂_of_mapM {f : α → Option β} {l : List α} {bs : List β} (h : l.mapM f = some bs) :
    List.Forall₂ (fun a b => f a = some b) l bs := by
  induction l generalizing bs with
  | nil =>
    obtain rfl : [] = bs := by simpa using h
    exact .nil
  | cons a l ih =>
    simp only [List.mapM_cons, bind, Option.bind_eq_some_iff, pure, Option.some.injEq] at h
    obtain ⟨b, hb, bs', hbs', rfl⟩ := h
    exact .cons hb (ih hbs')

theorem mem_of_mapM {f : α → Option β} {l : List α} {bs : List β} (h : l.mapM f = some bs)
    {b : β} : b ∈ bs ↔ ∃ a ∈ l, f a = some b := by
  induction l generalizing bs with
  | nil =>
    obtain rfl : [] = bs := by simpa using h
    simp
  | cons a l ih =>
    simp only [List.mapM_cons, bind, Option.bind_eq_some_iff, pure, Option.some.injEq] at h
    obtain ⟨b', hb', bs', hbs', rfl⟩ := h
    rw [List.mem_cons, ih hbs', List.exists_mem_cons_iff, hb', Option.some.injEq]
    exact or_congr_left eq_comm

theorem exists_eq_some_of_mapM {f : α → Option β} {l : List α} {bs : List β}
    (h : l.mapM f = some bs) {a : α} (ha : a ∈ l) : ∃ b, f a = some b := by
  have hforall := forall₂_of_mapM h
  clear h
  induction hforall with
  | nil => cases ha
  | cons hab _ ih =>
    rcases List.mem_cons.mp ha with rfl | ha
    · exact ⟨_, hab⟩
    · exact ih ha

/-- What each result has in common with its element, the lists have in common. -/
theorem map_eq_of_mapM {γ : Type*} {f : α → Option β} {p : β → γ} {q : α → γ} {l : List α}
    (hf : ∀ a ∈ l, ∀ b, f a = some b → p b = q a) {bs : List β} (h : l.mapM f = some bs) :
    bs.map p = l.map q := by
  have hforall := forall₂_of_mapM h
  clear h
  induction hforall with
  | nil => rfl
  | cons hab _ ih =>
    rw [List.map_cons, List.map_cons, hf _ List.mem_cons_self _ hab,
      ih fun a ha => hf a (List.mem_cons_of_mem _ ha)]

/-- Elements that are read again from what is written of them. -/
theorem mapM_map_eq_some {f : α → β} {g : β → Option α} {l : List α} :
    (l.map f).mapM g = some l ↔ ∀ a ∈ l, g (f a) = some a := by
  induction l with
  | nil => simp
  | cons a l ih =>
    rw [List.map_cons, List.mapM_cons, List.forall_mem_cons, ← ih]
    simp only [bind, Option.bind_eq_some_iff, pure, Option.some.injEq, List.cons.injEq]
    constructor
    · rintro ⟨b, hb, rest, hrest, rfl, rfl⟩
      exact ⟨hb, hrest⟩
    · rintro ⟨hfirst, hrest⟩
      exact ⟨a, hfirst, l, hrest, rfl, rfl⟩

theorem mapM_congr {f g : α → Option β} {l : List α} (h : ∀ a ∈ l, f a = g a) :
    l.mapM f = l.mapM g := by
  induction l with
  | nil => rfl
  | cons a l ih =>
    rw [List.mapM_cons, List.mapM_cons, h a List.mem_cons_self,
      ih fun b hb => h b (List.mem_cons_of_mem _ hb)]

theorem exists_mapM_eq_some {f : α → Option β} {l : List α} (h : ∀ a ∈ l, ∃ b, f a = some b) :
    ∃ bs, l.mapM f = some bs := by
  induction l with
  | nil => exact ⟨[], rfl⟩
  | cons a l ih =>
    obtain ⟨b, hb⟩ := h a List.mem_cons_self
    obtain ⟨bs, hbs⟩ := ih fun a' ha' => h a' (List.mem_cons_of_mem _ ha')
    exact ⟨b :: bs, by simp [List.mapM_cons, hb, hbs]⟩

theorem isSome_mapM {f : α → Option β} {l : List α} :
    (l.mapM f).isSome ↔ ∀ a ∈ l, (f a).isSome := by
  constructor
  · intro h a ha
    obtain ⟨bs, hbs⟩ := Option.isSome_iff_exists.mp h
    obtain ⟨b, hb⟩ := exists_eq_some_of_mapM hbs ha
    exact Option.isSome_of_mem hb
  · intro h
    obtain ⟨bs, hbs⟩ := exists_mapM_eq_some fun a ha => Option.isSome_iff_exists.mp (h a ha)
    exact Option.isSome_of_mem hbs

theorem mapM_eq_some_nil {f : α → Option β} {l : List α} : l.mapM f = some [] ↔ l = [] := by
  constructor
  · intro h
    cases forall₂_of_mapM h
    rfl
  · rintro rfl
    rfl

theorem toOption_mapM {ε : Type*} (f : α → Except ε β) (l : List α) :
    (l.mapM f).toOption = l.mapM fun a => (f a).toOption := by
  induction l with
  | nil => rfl
  | cons a l ih =>
    rw [List.mapM_cons, List.mapM_cons, ← ih]
    cases f a with
    | error => rfl
    | ok b =>
      cases l.mapM f with
      | error => rfl
      | ok bs => rfl

theorem toOption_eq_some {ε : Type*} {x : Except ε α} {a : α} :
    x.toOption = some a ↔ x = .ok a := by
  cases x with
  | error =>
    constructor
    · intro h
      cases h
    · intro h
      cases h
  | ok b =>
    constructor
    · exact fun h => congrArg Except.ok (Option.some.inj h)
    · intro h
      rw [h]
      rfl

theorem exists_mapM_eq_ok {ε : Type*} {f : α → Except ε β} {l : List α}
    (h : ∀ a ∈ l, ∃ b, f a = .ok b) : ∃ bs, l.mapM f = .ok bs := by
  have hopt : ∀ a ∈ l, ∃ b, (f a).toOption = some b := fun a ha =>
    (h a ha).imp fun _ hb => toOption_eq_some.mpr hb
  obtain ⟨bs, hbs⟩ := exists_mapM_eq_some hopt
  rw [← toOption_mapM] at hbs
  exact ⟨bs, toOption_eq_some.mp hbs⟩

theorem mem_of_mapM_eq_ok {ε : Type*} {f : α → Except ε β} {l : List α} {bs : List β}
    (h : l.mapM f = .ok bs) {b : β} : b ∈ bs ↔ ∃ a ∈ l, f a = .ok b := by
  have hopt : l.mapM (fun a => (f a).toOption) = some bs := by
    rw [← toOption_mapM, h]
    rfl
  rw [mem_of_mapM hopt]
  simp only [toOption_eq_some]

theorem exists_eq_ok_of_mapM {ε : Type*} {f : α → Except ε β} {l : List α} {bs : List β}
    (h : l.mapM f = .ok bs) {a : α} (ha : a ∈ l) : ∃ b, f a = .ok b := by
  have hopt : l.mapM (fun a => (f a).toOption) = some bs := by
    rw [← toOption_mapM, h]
    rfl
  obtain ⟨b, hb⟩ := exists_eq_some_of_mapM hopt ha
  exact ⟨b, toOption_eq_some.mp hb⟩

theorem forall₂_of_mapM_eq_ok {ε : Type*} {f : α → Except ε β} {l : List α} {bs : List β}
    (h : l.mapM f = .ok bs) : List.Forall₂ (fun a b => f a = .ok b) l bs := by
  have hopt : l.mapM (fun a => (f a).toOption) = some bs := by
    rw [← toOption_mapM, h]
    rfl
  exact (forall₂_of_mapM hopt).imp fun _ _ hb => toOption_eq_some.mp hb

theorem mapM_eq_ok_map {ε : Type*} {f : α → Except ε β} {g : α → β} {l : List α}
    (h : ∀ a ∈ l, f a = .ok (g a)) : l.mapM f = .ok (l.map g) := by
  induction l with
  | nil => rfl
  | cons a l ih =>
    obtain ⟨ha, hl⟩ := List.forall_mem_cons.mp h
    rw [List.mapM_cons, ha, ih hl]
    rfl

end MapM

end Marathon.Lib
