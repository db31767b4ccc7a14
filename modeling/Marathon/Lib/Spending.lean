import Mathlib.Algebra.BigOperators.Group.Multiset.Basic
import Mathlib.Algebra.Order.Group.Defs

/-!
# Spending what there is

Chunks of something are used up step by step: a use takes an amount of one chunk, and what is left
of the chunk may be used again. A ledger says at the end which chunk paid for which use.
-/

namespace Marathon.Lib

variable {Chunk Use γ ι : Type*}

/-- The uses that are taken of chunks, and the chunks that remain. -/
inductive Spends (step : Chunk → Use → Chunk → Prop) (chunks : Multiset Chunk) :
    Multiset Use → Multiset Chunk → Prop
  | none : Spends step chunks 0 chunks
  | spend {rest : Multiset Chunk} {used : Multiset Use} {c c' : Chunk} {u : Use}
      (h : Spends step chunks used (c ::ₘ rest)) (hstep : step c u c') :
      Spends step chunks (u ::ₘ used) (c' ::ₘ rest)
  | drop {rest : Multiset Chunk} {used : Multiset Use} {c : Chunk}
      (h : Spends step chunks used (c ::ₘ rest)) : Spends step chunks used rest

namespace Spends

variable {step : Chunk → Use → Chunk → Prop} {chunks chunks' rest rest' more : Multiset Chunk}
  {used used' : Multiset Use}

theorem trans (h : Spends step chunks used rest) (h' : Spends step rest used' rest') :
    Spends step chunks (used' + used) rest' := by
  induction h' with
  | none =>
    rw [zero_add]
    exact h
  | spend _ hstep ih =>
    rw [Multiset.cons_add]
    exact .spend ih hstep
  | drop _ ih => exact .drop ih

/-- Chunks that are not used are left as they are. -/
theorem frame (h : Spends step chunks used rest) (more : Multiset Chunk) :
    Spends step (chunks + more) used (rest + more) := by
  induction h with
  | none => exact .none
  | spend _ hstep ih =>
    rw [Multiset.cons_add] at ih ⊢
    exact .spend ih hstep
  | drop _ ih =>
    rw [Multiset.cons_add] at ih
    exact .drop ih

theorem drop_add (h : Spends step chunks used (rest + more)) : Spends step chunks used rest := by
  induction more using Multiset.induction_on with
  | empty =>
    rw [add_zero] at h
    exact h
  | cons c more ih =>
    rw [Multiset.add_cons] at h
    exact ih (.drop h)

/-- What fewer chunks pay for, more chunks do. -/
theorem mono (h : Spends step chunks used rest) (hle : chunks ≤ chunks') :
    Spends step chunks' used rest := by
  obtain ⟨more, rfl⟩ := Multiset.le_iff_exists_add.mp hle
  exact (h.frame more).drop_add

/-- What every step keeps of a chunk holds of what remains. -/
theorem forall_rest {P : Chunk → Prop} (h : Spends step chunks used rest)
    (hstep : ∀ c u c', step c u c' → P c → P c') (hchunks : ∀ c ∈ chunks, P c) :
    ∀ c ∈ rest, P c := by
  induction h with
  | none => exact hchunks
  | spend _ hstep' ih =>
    obtain ⟨hc, hrest⟩ := Multiset.forall_mem_cons.mp ih
    exact Multiset.forall_mem_cons.mpr ⟨hstep _ _ _ hstep' hc, hrest⟩
  | drop _ ih => exact (Multiset.forall_mem_cons.mp ih).2

/-- Uses of separate parts of the chunks do not get into each other's way. -/
theorem of_parts {parts : List ι} {p : ι → Chunk → Prop} [∀ i, DecidablePred (p i)]
    {uses : ι → Multiset Use} (hparts : parts.Pairwise fun i j => ∀ c, p i c → ¬p j c)
    (h : ∀ i ∈ parts, ∃ rest, Spends step (chunks.filter (p i)) (uses i) rest) :
    ∃ rest, Spends step chunks (parts.map uses).sum rest := by
  induction parts generalizing chunks with
  | nil => exact ⟨chunks, .none⟩
  | cons i parts ih =>
    obtain ⟨hi, hparts⟩ := List.pairwise_cons.mp hparts
    obtain ⟨hfirst, hrest⟩ := List.forall_mem_cons.mp h
    obtain ⟨rest, hfirst⟩ := hfirst
    have hothers : Spends step chunks (uses i) (chunks.filter fun c => ¬p i c) := by
      have hframe := hfirst.frame (chunks.filter fun c => ¬p i c)
      rw [Multiset.filter_add_not, add_comm] at hframe
      exact hframe.drop_add
    have hnext : ∀ j ∈ parts, ∃ rest,
        Spends step ((chunks.filter fun c => ¬p i c).filter (p j)) (uses j) rest := by
      intro j hj
      have hfilter : (chunks.filter fun c => ¬p i c).filter (p j) = chunks.filter (p j) := by
        rw [Multiset.filter_filter]
        refine Multiset.filter_congr fun c _ => and_iff_left_of_imp fun hj' hi' => ?_
        exact hi j hj c hi' hj'
      rw [hfilter]
      exact hrest j hj
    obtain ⟨last, hlast⟩ := ih hparts hnext
    refine ⟨last, ?_⟩
    rw [List.map_cons, List.sum_cons, add_comm]
    exact hothers.trans hlast

end Spends

/-! ## Ledgers -/

section Ledger

variable [AddCommGroup γ] [LinearOrder γ] [IsOrderedAddMonoid γ]
  (value : Chunk → γ) (amount : Use → γ) (source : Use → Chunk → Prop)

/-- What each chunk pays for: all uses are paid, by chunks that they are of, and no chunk pays more
than its value. -/
structure IsLedger (chunks : Multiset Chunk) (used : Multiset Use)
    (ledger : Multiset (Chunk × Multiset Use)) : Prop where
  chunks_eq : ledger.map Prod.fst = chunks
  used_eq : (ledger.map Prod.snd).sum = used
  source : ∀ entry ∈ ledger, ∀ u ∈ entry.2, source u entry.1
  sum_le : ∀ entry ∈ ledger, (entry.2.map amount).sum ≤ value entry.1

/-- An entry of a ledger while chunks are used: the chunk, what it paid for and what is left. -/
structure Entry (Chunk Use : Type*) where
  chunk : Chunk
  uses : Multiset Use
  left : Chunk

structure Entry.Balanced (e : Entry Chunk Use) : Prop where
  nonneg : 0 ≤ value e.left
  sum_eq : value e.left + (e.uses.map amount).sum = value e.chunk
  uses : ∀ u ∈ e.uses, source u e.chunk
  left : ∀ u, source u e.left → source u e.chunk

variable {value amount source} {step : Chunk → Use → Chunk → Prop} {chunks rest : Multiset Chunk}
  {used : Multiset Use}

theorem Entry.Balanced.pay {e : Entry Chunk Use} {u : Use} {c' : Chunk}
    (h : e.Balanced value amount source) (hsource : source u e.left)
    (hle : amount u ≤ value e.left) (hvalue : value c' = value e.left - amount u)
    (hleft : ∀ u', source u' c' → source u' e.left) :
    Entry.Balanced value amount source ⟨e.chunk, u ::ₘ e.uses, c'⟩ where
  nonneg := by
    rw [hvalue]
    exact sub_nonneg.mpr hle
  sum_eq := by
    rw [hvalue, Multiset.map_cons, Multiset.sum_cons, ← add_assoc, sub_add_cancel]
    exact h.sum_eq
  uses := Multiset.forall_mem_cons.mpr ⟨h.left u hsource, h.uses⟩
  left u' hu' := h.left u' (hleft u' hu')

theorem Spends.exists_entries (h : Spends step chunks used rest)
    (hnonneg : ∀ c ∈ chunks, 0 ≤ value c)
    (hstep : ∀ c u c', step c u c' → source u c ∧ amount u ≤ value c ∧
      value c' = value c - amount u ∧ ∀ u', source u' c' → source u' c) :
    ∃ entries : Multiset (Entry Chunk Use), entries.map Entry.chunk = chunks ∧
      (entries.map Entry.uses).sum = used ∧ rest ≤ entries.map Entry.left ∧
      ∀ e ∈ entries, e.Balanced value amount source := by
  induction h with
  | none =>
    refine ⟨chunks.map fun c => ⟨c, 0, c⟩, ?_, ?_, ?_, fun e he => ?_⟩
    · rw [Multiset.map_map]
      exact Multiset.map_id chunks
    · rw [Multiset.map_map]
      exact Multiset.sum_eq_zero fun u hu => by
        obtain ⟨c, -, rfl⟩ := Multiset.mem_map.mp hu
        rfl
    · rw [Multiset.map_map]
      exact (Multiset.map_id chunks).ge
    · obtain ⟨c, hc, rfl⟩ := Multiset.mem_map.mp he
      refine ⟨hnonneg c hc, ?_, fun u hu => absurd hu (Multiset.notMem_zero u), fun _ hu => hu⟩
      rw [Multiset.map_zero, Multiset.sum_zero, add_zero]
  | @spend rest used c c' u _ hspend ih =>
    obtain ⟨entries, hchunks, hused, hrest, hbalanced⟩ := ih
    obtain ⟨hsource, hle, hvalue, hleft⟩ := hstep c u c' hspend
    obtain ⟨e, he, rfl⟩ := Multiset.mem_map.mp (Multiset.mem_of_le hrest (Multiset.mem_cons_self c rest))
    obtain ⟨others, rfl⟩ := Multiset.exists_cons_of_mem he
    rw [Multiset.map_cons] at hchunks hused hrest
    obtain ⟨hbalance, hothers⟩ := Multiset.forall_mem_cons.mp hbalanced
    refine ⟨⟨e.chunk, u ::ₘ e.uses, c'⟩ ::ₘ others, ?_, ?_, ?_, ?_⟩
    · rw [Multiset.map_cons]
      exact hchunks
    · rw [Multiset.map_cons, Multiset.sum_cons, Multiset.cons_add, ← hused, Multiset.sum_cons]
    · rw [Multiset.map_cons]
      exact (Multiset.cons_le_cons_iff c').mpr ((Multiset.cons_le_cons_iff _).mp hrest)
    · exact Multiset.forall_mem_cons.mpr ⟨hbalance.pay hsource hle hvalue hleft, hothers⟩
  | drop _ ih =>
    obtain ⟨entries, hchunks, hused, hrest, hbalanced⟩ := ih
    exact ⟨entries, hchunks, hused, (Multiset.le_cons_self _ _).trans hrest, hbalanced⟩

/-- If no step takes more of a chunk than its value, there is a ledger for all steps together. -/
theorem Spends.exists_ledger (h : Spends step chunks used rest)
    (hnonneg : ∀ c ∈ chunks, 0 ≤ value c)
    (hstep : ∀ c u c', step c u c' → source u c ∧ amount u ≤ value c ∧
      value c' = value c - amount u ∧ ∀ u', source u' c' → source u' c) :
    ∃ ledger, IsLedger value amount source chunks used ledger := by
  obtain ⟨entries, hchunks, hused, -, hbalanced⟩ := h.exists_entries hnonneg hstep
  refine ⟨entries.map fun e => (e.chunk, e.uses), ?_, ?_, fun entry hentry => ?_, fun entry hentry => ?_⟩
  · rw [Multiset.map_map]
    exact hchunks
  · rw [Multiset.map_map]
    exact hused
  · obtain ⟨e, he, rfl⟩ := Multiset.mem_map.mp hentry
    exact (hbalanced e he).uses
  · obtain ⟨e, he, rfl⟩ := Multiset.mem_map.mp hentry
    rw [← (hbalanced e he).sum_eq]
    exact le_add_of_nonneg_left (hbalanced e he).nonneg

end Ledger

end Marathon.Lib
