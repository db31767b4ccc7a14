import Marathon.Storage.StoredGroupRepository

/-!
# Completed root futures

Which runs complete every promise that becomes the root future, and complete it with the root
that the repository holds.
-/

namespace Marathon.Storage.StoredGroupRepository

open Lib

variable {R : Type*} {empty : R}

/-! ## Where a future leads -/

/-- The root that a future will be completed with as far as that is settled: what the call of
its promise has read or written, or what the future leads to that the promise falls back on. -/
inductive Leads (promises : List (RootPromise R)) : RootFuture → R → Prop
  | effect {p : ℕ} {x : RootPromise R} {root : R} (hp : promises[p]? = some x)
      (heffect : x.effect = some root) : Leads promises (.promise p) root
  | fallback {p : ℕ} {x : RootPromise R} {old : RootFuture} {root : R}
      (hp : promises[p]? = some x) (heffect : x.effect = none)
      (hold : x.oldRootFuture = some old) (h : Leads promises old root) :
      Leads promises (.promise p) root

/-- What is known of a promise that has been completed; none is ever linked. -/
def Settled (s : State R) (x : RootPromise R) : Prop :=
  match x.state with
  | .pending => True
  | .linked _ => False
  | .completed root => ∀ r, root = some r → x.effect = some r ∨
    x.effect = none ∧ ∃ old, x.oldRootFuture = some old ∧ outcome s old = some (some r)

structure Books (s : State R) : Prop where
  top : ∀ p, s.rootFuture = .promise p → p + 1 = s.promises.length
  /-- A promise falls back on the one before it. -/
  chain : ∀ (p : ℕ) (x : RootPromise R) (q : ℕ), s.promises[p]? = some x →
    x.oldRootFuture = some (.promise q) → q + 1 = p
  leads : ∀ root, Leads s.promises s.rootFuture root → s.storedRoot = some root
  settled : ∀ (p : ℕ) (x : RootPromise R), s.promises[p]? = some x → Settled s x

variable {root r : R} {future : RootFuture} {old : Option RootFuture} {x' y : RootPromise R}
  {q b n : ℕ} {call : Call R} {α : Type*}

section Books

variable {s : State R}

theorem not_leads_rootNotLoaded {promises : List (RootPromise R)} :
    ¬Leads promises .rootNotLoaded root := by
  intro h
  cases h

theorem leads_of_outcome (hs : Books s)
    (h : outcome s future = some (some root)) : Leads s.promises future root := by
  cases future with
  | rootNotLoaded => cases h
  | promise p =>
    induction p using Nat.strong_induction_on with
    | _ p ih =>
      obtain ⟨x, hp, hx⟩ := Option.bind_eq_some_iff.mp h
      have hsettled := hs.settled p x hp
      cases hstate : x.state with
      | completed r =>
        rw [hstate] at hx
        cases hx
        rw [Settled, hstate] at hsettled
        rcases hsettled root rfl with heffect | ⟨heffect, old, hold, hfallback⟩
        · exact .effect hp heffect
        · cases old with
          | rootNotLoaded => cases hfallback
          | promise q =>
            have hlt : q < p := by
              have hq := hs.chain p x q hp hold
              omega
            exact .fallback hp heffect hold (ih q hlt hfallback)
      | _ =>
        rw [hstate] at hx
        cases hx

theorem books_install (hs : Books s)
    (hold : old = none ∨ old = some s.rootFuture) : Books (install s old) := by
  have hchain : ∀ (p : ℕ) (x : RootPromise R) (q : ℕ), (install s old).promises[p]? = some x →
      x.oldRootFuture = some (.promise q) → q + 1 = p := by
    intro p x q hp hq
    rcases getElem?_concat_eq_some.mp hp with hp | ⟨rfl, rfl⟩
    · exact hs.chain p x q hp hq
    · rcases hold with rfl | rfl
      · cases hq
      · exact hs.top q (Option.some.inj hq)
  -- the new promise is not seen from the old ones
  have hleads : ∀ {future : RootFuture} {root : R}, Leads (install s old).promises future root →
      (∀ p, future = .promise p → p < s.promises.length) → Leads s.promises future root := by
    intro future root h
    induction h with
    | @effect p x root hp heffect =>
      intro hlt
      rcases getElem?_concat_eq_some.mp hp with hp | ⟨rfl, -⟩
      · exact .effect hp heffect
      · exact absurd (hlt _ rfl) (Nat.lt_irrefl _)
    | @fallback p x old' root hp heffect hx _ ih =>
      intro hlt
      rcases getElem?_concat_eq_some.mp hp with hp | ⟨rfl, -⟩
      · refine .fallback hp heffect hx (ih fun q hq => ?_)
        have hnext := hs.chain p x q hp (hq ▸ hx)
        have hbelow := hlt p rfl
        omega
      · exact absurd (hlt _ rfl) (Nat.lt_irrefl _)
  refine ⟨?_, hchain, ?_, ?_⟩
  · intro p hp
    obtain rfl : s.promises.length = p := RootFuture.promise.inj hp
    rw [install, List.length_append]
    rfl
  · intro root h
    cases h with
    | effect hp heffect =>
      rcases getElem?_concat_eq_some.mp hp with hp | ⟨-, rfl⟩
      · exact absurd (lt_length_of_getElem? hp) (Nat.lt_irrefl _)
      · cases heffect
    | fallback hp heffect hx h =>
      rcases getElem?_concat_eq_some.mp hp with hp | ⟨-, rfl⟩
      · exact absurd (lt_length_of_getElem? hp) (Nat.lt_irrefl _)
      · rcases hold with rfl | rfl
        · cases hx
        · cases hx
          refine hs.leads root (hleads h fun p hp => ?_)
          have htop := hs.top p hp
          omega
  · intro p x hp
    rcases getElem?_concat_eq_some.mp hp with hp | ⟨-, rfl⟩
    · have hsettled := hs.settled p x hp
      rw [Settled] at hsettled ⊢
      cases hstate : x.state with
      | pending => trivial
      | linked f =>
        rw [hstate] at hsettled
        exact hsettled
      | completed root =>
        rw [hstate] at hsettled
        intro r hr
        refine (hsettled r hr).imp_right ?_
        rintro ⟨heffect, f, hf, houtcome⟩
        refine ⟨heffect, f, hf, ?_⟩
        cases f with
        | rootNotLoaded => exact houtcome
        | promise q =>
          obtain ⟨y, hq, hy⟩ := Option.bind_eq_some_iff.mp houtcome
          exact Option.bind_eq_some_iff.mpr ⟨y, getElem?_concat_eq_some.mpr (.inl hq), hy⟩
    · trivial

theorem books_invalidate (hs : Books s) : Books { s with rootFuture := .rootNotLoaded } where
  top p hp := by cases hp
  chain := hs.chain
  leads root h := absurd h not_leads_rootNotLoaded
  settled := hs.settled

variable {p : ℕ} {x : RootPromise R}

theorem books_set (hs : Books s) (hp : s.promises[p]? = some x) (hstate : x.state = .pending)
    (x' : RootPromise R) (hold : x'.oldRootFuture = x.oldRootFuture) {storedRoot : Option R}
    (hleads : ∀ root, Leads (s.promises.set p x') s.rootFuture root → storedRoot = some root)
    (hsettled : Settled { s with promises := s.promises.set p x', storedRoot := storedRoot } x') :
    Books { s with promises := s.promises.set p x', storedRoot := storedRoot } := by
  have hlt := lt_length_of_getElem? hp
  refine ⟨?_, ?_, hleads, ?_⟩
  · intro q hq
    rw [List.length_set]
    exact hs.top q hq
  · intro q y q' hq hy
    rcases (getElem?_set_eq_some hlt).mp hq with ⟨rfl, rfl⟩ | ⟨-, hq⟩
    · exact hs.chain q x q' hp (hold ▸ hy)
    · exact hs.chain q y q' hq hy
  · intro q y hq
    rcases (getElem?_set_eq_some hlt).mp hq with ⟨-, rfl⟩ | ⟨-, hq⟩
    · exact hsettled
    · have hy := hs.settled q y hq
      rw [Settled] at hy ⊢
      cases hq' : y.state with
      | pending => trivial
      | linked f =>
        rw [hq'] at hy
        exact hy
      | completed root =>
        rw [hq'] at hy
        intro r hr
        refine (hy r hr).imp_right ?_
        rintro ⟨heffect, f, hf, houtcome⟩
        refine ⟨heffect, f, hf, ?_⟩
        cases f with
        | rootNotLoaded => exact houtcome
        | promise q' =>
          obtain ⟨z, hz, hzr⟩ := Option.bind_eq_some_iff.mp houtcome
          refine Option.bind_eq_some_iff.mpr ⟨z, (getElem?_set_eq_some hlt).mpr (.inr ⟨?_, hz⟩), hzr⟩
          rintro rfl
          cases hp.symm.trans hz
          rw [hstate] at hzr
          cases hzr

theorem leads_of_set_state (hp : s.promises[p]? = some x) (x' : RootPromise R)
    (hold : x'.oldRootFuture = x.oldRootFuture) (heffect : x'.effect = x.effect)
    (h : Leads (s.promises.set p x') future root) : Leads s.promises future root := by
  have hlt := lt_length_of_getElem? hp
  induction h with
  | @effect q y root hq hy =>
    rcases (getElem?_set_eq_some hlt).mp hq with ⟨rfl, rfl⟩ | ⟨-, hq⟩
    · exact .effect hp (heffect ▸ hy)
    · exact .effect hq hy
  | @fallback q y old root hq hy hf _ ih =>
    rcases (getElem?_set_eq_some hlt).mp hq with ⟨rfl, rfl⟩ | ⟨-, hq⟩
    · exact .fallback hp (heffect ▸ hy) (hold ▸ hf) ih
    · exact .fallback hq hy hf ih

theorem leads_of_set_effect (hp : s.promises[p]? = some x) (heffect : x'.effect = some r)
    (h : Leads (s.promises.set p x') future root) : Leads s.promises future root ∨ root = r := by
  have hlt := lt_length_of_getElem? hp
  induction h with
  | @effect q y root hq hy =>
    rcases (getElem?_set_eq_some hlt).mp hq with ⟨rfl, rfl⟩ | ⟨-, hq⟩
    · exact .inr (Option.some.inj (hy.symm.trans heffect))
    · exact .inl (.effect hq hy)
  | @fallback q y old root hq hy hf _ ih =>
    rcases (getElem?_set_eq_some hlt).mp hq with ⟨rfl, rfl⟩ | ⟨-, hq⟩
    · rw [heffect] at hy
      cases hy
    · exact ih.imp_left (.fallback hq hy hf)

theorem eq_of_leads_of_none (hs : Books s) (hp : s.promises[p]? = some x)
    (heffect : x'.effect = some r)
    (hnone : ∀ (q : ℕ) (y : RootPromise R), p < q → s.promises[q]? = some y → y.effect = none)
    (hq : p ≤ q) (h : Leads (s.promises.set p x') (.promise q) root) : root = r := by
  have hlt := lt_length_of_getElem? hp
  generalize hfuture : RootFuture.promise q = future at h
  induction h generalizing q with
  | @effect q' y root hq' hy =>
    obtain rfl := RootFuture.promise.inj hfuture
    rcases (getElem?_set_eq_some hlt).mp hq' with ⟨rfl, rfl⟩ | ⟨hne, hget⟩
    · exact Option.some.inj (hy.symm.trans heffect)
    · rw [hnone q y (by omega) hget] at hy
      cases hy
  | @fallback q' y old root hq' hy hf hold ih =>
    obtain rfl := RootFuture.promise.inj hfuture
    rcases (getElem?_set_eq_some hlt).mp hq' with ⟨rfl, rfl⟩ | ⟨hne, hget⟩
    · rw [heffect] at hy
      cases hy
    · cases old with
      | rootNotLoaded => exact absurd hold not_leads_rootNotLoaded
      | promise q'' =>
        have hnext := hs.chain q y q'' hget hf
        exact ih (by omega) rfl

theorem leads_of_above (hs : Books s) (hp : s.promises[p]? = some x)
    (hb : s.promises[b]? = some y) (heffect : y.effect ≠ none) (hlt : p < b)
    (hq : b ≤ q) (h : Leads (s.promises.set p x') (.promise q) root) :
    Leads s.promises (.promise q) root := by
  have hlength := lt_length_of_getElem? hp
  generalize hfuture : RootFuture.promise q = future at h
  induction h generalizing q with
  | @effect q' z root hq' hz =>
    cases hfuture
    rcases (getElem?_set_eq_some hlength).mp hq' with ⟨rfl, -⟩ | ⟨-, hget⟩
    · omega
    · exact .effect hget hz
  | @fallback q' z old root hq' hz hf hold ih =>
    obtain rfl := RootFuture.promise.inj hfuture
    rcases (getElem?_set_eq_some hlength).mp hq' with ⟨rfl, -⟩ | ⟨-, hget⟩
    · omega
    · cases old with
      | rootNotLoaded => exact absurd hold not_leads_rootNotLoaded
      | promise q'' =>
        have hnext := hs.chain q z q'' hget hf
        have hne : q ≠ b := by
          rintro rfl
          obtain rfl : y = z := Option.some.inj (hb.symm.trans hget)
          exact heffect hz
        exact .fallback hget hz hf (ih (by omega) rfl)

theorem complete_eq (hp : s.promises[p]? = some x) (state : PromiseState R) :
    complete s p state = { s with promises := s.promises.set p { x with state := state } } := by
  rw [complete, modify_eq_set_of_getElem? hp]

theorem record_eq (hp : s.promises[p]? = some x) (root : R) :
    record s p root = { s with promises := s.promises.set p { x with effect := some root } } := by
  rw [record, modify_eq_set_of_getElem? hp]

variable {root : R}

theorem books_read (hs : Books s) (hp : s.promises[p]? = some x) (hstate : x.state = .pending)
    (hroot : s.storedRoot = some root) : Books (record s p root) := by
  rw [record_eq hp]
  refine books_set hs hp hstate { x with effect := some root } rfl (fun r h => ?_) ?_
  · rcases leads_of_set_effect hp rfl h with hold | rfl
    · exact hs.leads r hold
    · exact hroot
  · rw [Settled]
    rw [hstate]
    trivial

theorem books_write (hs : Books s) (hp : s.promises[p]? = some x) (hstate : x.state = .pending)
    (hnone : ∀ (q : ℕ) (y : RootPromise R), p < q → s.promises[q]? = some y → y.effect = none) :
    Books { record s p root with storedRoot := some root } := by
  rw [record_eq hp]
  refine books_set hs hp hstate { x with effect := some root } rfl (fun r h => ?_) ?_
  · cases hfuture : s.rootFuture with
    | rootNotLoaded =>
      rw [hfuture] at h
      exact absurd h not_leads_rootNotLoaded
    | promise q =>
      rw [hfuture] at h
      have htop := hs.top q hfuture
      have hlt := lt_length_of_getElem? hp
      rw [eq_of_leads_of_none hs hp rfl hnone (by omega) h]
  · rw [Settled]
    rw [hstate]
    trivial

theorem books_complete (hs : Books s) (hp : s.promises[p]? = some x) (hstate : x.state = .pending)
    (heffect : x.effect = some root) : Books (complete s p (.completed (some root))) := by
  rw [complete_eq hp]
  refine books_set hs hp hstate { x with state := .completed (some root) } rfl
    (fun r h => hs.leads r ?_) fun r hr => ?_
  · exact leads_of_set_state hp { x with state := .completed (some root) } rfl rfl h
  · exact .inl (heffect.trans hr)

theorem books_revert (hs : Books s) (hp : s.promises[p]? = some x) (hstate : x.state = .pending)
    (heffect : x.effect = none) {old : RootFuture} (hold : x.oldRootFuture = some old)
    {o : Option R} (houtcome : outcome s old = some o) : Books (complete s p (.completed o)) := by
  rw [complete_eq hp]
  refine books_set hs hp hstate { x with state := .completed o } rfl
    (fun r h => hs.leads r ?_) fun r hr => ?_
  · exact leads_of_set_state hp { x with state := .completed o } rfl rfl h
  · refine .inr ⟨heffect, old, hold, ?_⟩
    rw [← hr, ← houtcome]
    cases old with
    | rootNotLoaded => rfl
    | promise q =>
      -- the old future is that of another promise
      have hne : q ≠ p := by
        have hnext := hs.chain p x q hp hold
        omega
      show ((s.promises.set p _)[q]?).bind _ = (s.promises[q]?).bind _
      rw [List.getElem?_set_ne fun h => hne h.symm]

theorem books_empty (hs : Books s) (hp : s.promises[p]? = some x) (hstate : x.state = .pending)
    (hb : s.promises[b]? = some y) (heffect : y.effect ≠ none)
    (hlt : p < b) : Books (complete (record s p root) p (.completed (some root))) := by
  have hlength := lt_length_of_getElem? hp
  have hrecord : (record s p root).promises[p]? = some { x with effect := some root } := by
    rw [record_eq hp]
    exact (getElem?_set_eq_some hlength).mpr (.inl ⟨rfl, rfl⟩)
  refine books_complete ?_ hrecord hstate rfl
  rw [record_eq hp]
  refine books_set hs hp hstate { x with effect := some root } rfl (fun r h => ?_) ?_
  · cases hfuture : s.rootFuture with
    | rootNotLoaded =>
      rw [hfuture] at h
      exact absurd h not_leads_rootNotLoaded
    | promise q =>
      rw [hfuture] at h
      have htop := hs.top q hfuture
      have hblt := lt_length_of_getElem? hb
      refine hs.leads r (hfuture ▸ leads_of_above hs hp hb heffect hlt (by omega) h)
  · rw [Settled]
    rw [hstate]
    trivial

end Books

/-! ## The calls -/

/-- What is known of a call by how far it has come. -/
def Fits (empty : R) (s : State R) (call : Call R) : Prop :=
  match call.progress, call.promise with
  | .awaiting _, none => call.kind.stores empty = none
  | .reading, some p => s.promises[p]? = some ⟨.pending, none, none⟩
  | .resolving root, some p => s.promises[p]? = some ⟨.pending, none, some root⟩
  | .storingEmpty m, some p => s.promises[p]? = some ⟨.pending, none, none⟩ ∧
    ∃ nested, s.calls[m]? = some nested ∧ nested.kind = .storeEmptyRoot ∧
      ∀ q, nested.promise = some q → p < q
  | .preparing, none => True
  | .storing, some p => ∃ old root, s.promises[p]? = some ⟨.pending, some old, none⟩ ∧
    call.kind.stores empty = some root
  | .writing, some p => ∃ old root, s.promises[p]? = some ⟨.pending, some old, none⟩ ∧
    call.kind.stores empty = some root
  | .written, some p => ∃ old root, s.promises[p]? = some ⟨.pending, some old, some root⟩ ∧
    call.kind.stores empty = some root
  | .storingVersion, none => call.kind.stores empty = none
  | .returned _, promise => ∀ p, promise = some p →
    ∃ x o, s.promises[p]? = some x ∧ x.state = .completed o
  | .stored, promise => (∀ p, promise = some p →
      ∃ x o, s.promises[p]? = some x ∧ x.state = .completed o) ∧
    ∀ root, call.kind.stores empty = some root →
      ∃ p x, promise = some p ∧ s.promises[p]? = some x ∧ x.effect = some root
  | .failed, promise => call.kind ≠ .storeEmptyRoot ∧ ∀ p, promise = some p →
    ∃ x o, s.promises[p]? = some x ∧ x.state = .completed o
  | _, _ => False

/-- The invariant of the runs in which nothing goes wrong. -/
structure Consistent (empty : R) (s : State R) : Prop where
  books : Books s
  fits : ∀ (n : ℕ) (call : Call R), s.calls[n]? = some call → Fits empty s call
  /-- A promise belongs to one call. -/
  owner : ∀ (n m : ℕ) (c c' : Call R) (p : ℕ), s.calls[n]? = some c → s.calls[m]? = some c' →
    c.promise = some p → c'.promise = some p → n = m
  bounded : ∀ (n : ℕ) (c : Call R) (p : ℕ), s.calls[n]? = some c → c.promise = some p →
    p < s.promises.length
  owned : ∀ p, p < s.promises.length →
    ∃ (n : ℕ) (c : Call R), s.calls[n]? = some c ∧ c.promise = some p

theorem Fits.mono {s s' : State R} (hfits : Fits empty s call)
    (hpromise : ∀ p, call.promise = some p → p < s.promises.length →
      s'.promises[p]? = s.promises[p]?)
    (hcalls : ∀ (m : ℕ) (nested : Call R), s.calls[m]? = some nested →
      ∃ nested' : Call R, s'.calls[m]? = some nested' ∧
      nested'.kind = nested.kind ∧
        ∀ q, nested'.promise = some q → nested.promise = some q ∨ s.promises.length ≤ q) :
    Fits empty s' call := by
  obtain ⟨kind, progress, promise⟩ := call
  have hsame : ∀ {p x}, promise = some p → s.promises[p]? = some x → s'.promises[p]? = some x := by
    intro p x hp hx
    rw [hpromise p hp (lt_length_of_getElem? hx)]
    exact hx
  have hdone : (∀ p, promise = some p → ∃ x o, s.promises[p]? = some x ∧ x.state = .completed o) →
      ∀ p, promise = some p → ∃ x o, s'.promises[p]? = some x ∧ x.state = .completed o := by
    intro h p hp
    obtain ⟨x, o, hx, hstate⟩ := h p hp
    exact ⟨x, o, hsame hp hx, hstate⟩
  cases promise with
  | none =>
    cases progress with
    | awaiting f => exact hfits
    | preparing => trivial
    | storingVersion => exact hfits
    | returned root => exact hdone hfits
    | stored =>
      refine ⟨hdone hfits.1, fun root hroot => ?_⟩
      obtain ⟨p, x, hp, -⟩ := hfits.2 root hroot
      cases hp
    | failed => exact ⟨hfits.1, hdone hfits.2⟩
    | _ => exact hfits.elim
  | some p =>
    cases progress with
    | reading => exact hsame rfl hfits
    | resolving root => exact hsame rfl hfits
    | storingEmpty m =>
      obtain ⟨hp, nested, hm, hkind, hlt⟩ := hfits
      obtain ⟨nested', hm', hkind', hpromise'⟩ := hcalls m nested hm
      refine ⟨hsame rfl hp, nested', hm', hkind'.trans hkind, fun q hq => ?_⟩
      rcases hpromise' q hq with hq | hle
      · exact hlt q hq
      · exact Nat.lt_of_lt_of_le (lt_length_of_getElem? hp) hle
    | storing =>
      obtain ⟨old, root, hp, hstores⟩ := hfits
      exact ⟨old, root, hsame rfl hp, hstores⟩
    | writing =>
      obtain ⟨old, root, hp, hstores⟩ := hfits
      exact ⟨old, root, hsame rfl hp, hstores⟩
    | written =>
      obtain ⟨old, root, hp, hstores⟩ := hfits
      exact ⟨old, root, hsame rfl hp, hstores⟩
    | returned root => exact hdone hfits
    | stored =>
      refine ⟨hdone hfits.1, fun root hroot => ?_⟩
      obtain ⟨q, x, hq, hx, heffect⟩ := hfits.2 root hroot
      exact ⟨q, x, hq, hsame hq hx, heffect⟩
    | failed => exact ⟨hfits.1, hdone hfits.2⟩
    | _ => exact hfits.elim

section Calls

variable {s s' : State R} {n : ℕ} {call call' : Call R}

theorem consistent_of_call (hs : Consistent empty s) (hn : s.calls[n]? = some call)
    (hbooks : Books s') (hcalls : s'.calls = s.calls.set n call') (hkind : call'.kind = call.kind)
    (hpromise : call'.promise = call.promise ∧ s'.promises.length = s.promises.length ∨
      call.promise = none ∧ call'.promise = some s.promises.length ∧
        s'.promises.length = s.promises.length + 1)
    (hothers : ∀ p, call.promise ≠ some p → p < s.promises.length →
      s'.promises[p]? = s.promises[p]?)
    (hfits : Fits empty s' call') : Consistent empty s' := by
  have hlt := lt_length_of_getElem? hn
  have hget : ∀ {m : ℕ} {c : Call R}, s'.calls[m]? = some c ↔
      m = n ∧ c = call' ∨ m ≠ n ∧ s.calls[m]? = some c := by
    intro m c
    rw [hcalls]
    exact getElem?_set_eq_some hlt
  -- the promises of other calls are old ones, and not that of this call
  have hold : ∀ {m : ℕ} {c : Call R} {p : ℕ}, m ≠ n → s.calls[m]? = some c →
      c.promise = some p → call'.promise = some p → s.promises.length ≤ p := by
    intro m c p hne hm hp hp'
    rcases hpromise with ⟨heq, -⟩ | ⟨-, heq, -⟩
    · exact absurd (hs.owner m n c call p hm hn hp (heq ▸ hp')) hne
    · exact (Option.some.inj (heq.symm.trans hp')).le
  have hgrows : s.promises.length ≤ s'.promises.length := by
    rcases hpromise with ⟨-, hlength⟩ | ⟨-, -, hlength⟩ <;> omega
  refine ⟨hbooks, fun m c hm => ?_, fun m m' c c' p hm hm' hp hp' => ?_,
    fun m c p hm hp => ?_, fun p hp => ?_⟩
  · rcases hget.mp hm with ⟨rfl, rfl⟩ | ⟨hne, hm⟩
    · exact hfits
    · refine (hs.fits m c hm).mono (fun p hp hlt => hothers p (fun hp' => ?_) hlt) ?_
      · exact hne (hs.owner m n c call p hm hn hp hp')
      · intro m' nested hm'
        by_cases heq : m' = n
        · subst heq
          cases hn.symm.trans hm'
          refine ⟨call', hget.mpr (.inl ⟨rfl, rfl⟩), hkind, fun q hq => ?_⟩
          rcases hpromise with ⟨hsame, -⟩ | ⟨-, hnew, -⟩
          · exact .inl (hsame ▸ hq)
          · exact .inr (Option.some.inj (hnew.symm.trans hq)).le
        · exact ⟨nested, hget.mpr (.inr ⟨heq, hm'⟩), rfl, fun q hq => .inl hq⟩
  · rcases hget.mp hm with ⟨rfl, rfl⟩ | ⟨hne, hm⟩
    · rcases hget.mp hm' with ⟨rfl, rfl⟩ | ⟨hne', hm'⟩
      · rfl
      · have hle := hold hne' hm' hp' hp
        have hlt' := hs.bounded m' c' p hm' hp'
        omega
    · rcases hget.mp hm' with ⟨rfl, rfl⟩ | ⟨hne', hm'⟩
      · have hle := hold hne hm hp hp'
        have hlt' := hs.bounded m c p hm hp
        omega
      · exact hs.owner m m' c c' p hm hm' hp hp'
  · rcases hget.mp hm with ⟨rfl, rfl⟩ | ⟨-, hm⟩
    · rcases hpromise with ⟨hsame, -⟩ | ⟨-, hnew, hlength⟩
      · exact Nat.lt_of_lt_of_le (hs.bounded m call p hn (hsame ▸ hp)) hgrows
      · cases hnew.symm.trans hp
        omega
    · exact Nat.lt_of_lt_of_le (hs.bounded m c p hm hp) hgrows
  · have hofOld : p < s.promises.length → ∃ (m : ℕ) (c : Call R), s'.calls[m]? = some c ∧
        c.promise = some p := by
      intro hp
      obtain ⟨m, c, hm, hpc⟩ := hs.owned p hp
      by_cases heq : m = n
      · subst heq
        cases hn.symm.trans hm
        rcases hpromise with ⟨hsame, -⟩ | ⟨hnone, -⟩
        · exact ⟨m, call', hget.mpr (.inl ⟨rfl, rfl⟩), hsame.trans hpc⟩
        · rw [hnone] at hpc
          cases hpc
      · exact ⟨m, c, hget.mpr (.inr ⟨heq, hm⟩), hpc⟩
    rcases hpromise with ⟨-, hlength⟩ | ⟨-, hnew, hlength⟩
    · exact hofOld (hlength ▸ hp)
    · rcases Nat.lt_or_eq_of_le (Nat.le_of_lt_succ (hlength ▸ hp)) with hp | rfl
      · exact hofOld hp
      · exact ⟨n, call', hget.mpr (.inl ⟨rfl, rfl⟩), hnew⟩

theorem consistent_start (hs : Consistent empty s) (hpromise : call.promise = none)
    (hfits : Fits empty (start s call) call) : Consistent empty (start s call) := by
  refine ⟨⟨hs.books.top, hs.books.chain, hs.books.leads, hs.books.settled⟩,
    fun m c hm => ?_, fun m m' c c' p hm hm' hp hp' => ?_, fun m c p hm hp => ?_, fun p hp => ?_⟩
  · rcases getElem?_concat_eq_some.mp hm with hm | ⟨-, rfl⟩
    · refine (hs.fits m c hm).mono (fun _ _ _ => rfl) fun m' nested hm' => ?_
      exact ⟨nested, getElem?_concat_eq_some.mpr (.inl hm'), rfl, fun q hq => .inl hq⟩
    · exact hfits
  · rcases getElem?_concat_eq_some.mp hm with hm | ⟨-, rfl⟩
    · rcases getElem?_concat_eq_some.mp hm' with hm' | ⟨-, rfl⟩
      · exact hs.owner m m' c c' p hm hm' hp hp'
      · rw [hpromise] at hp'
        cases hp'
    · rw [hpromise] at hp
      cases hp
  · rcases getElem?_concat_eq_some.mp hm with hm | ⟨-, rfl⟩
    · exact hs.bounded m c p hm hp
    · rw [hpromise] at hp
      cases hp
  · obtain ⟨m, c, hm, hpc⟩ := hs.owned p hp
    exact ⟨m, c, getElem?_concat_eq_some.mpr (.inl hm), hpc⟩

theorem Books.putCall (h : Books s) (n : ℕ) (call : Call R) :
    Books (StoredGroupRepository.putCall s n call) :=
  ⟨h.top, h.chain, h.leads, h.settled⟩

theorem consistent_putCall (hs : Consistent empty s) (hn : s.calls[n]? = some call)
    (call' : Call R) (hkind : call'.kind = call.kind) (hpromise : call'.promise = call.promise)
    (hfits : Fits empty (putCall s n call') call') : Consistent empty (putCall s n call') :=
  consistent_of_call hs hn (hs.books.putCall n call') rfl hkind (.inl ⟨hpromise, rfl⟩)
    (fun _ _ _ => rfl) hfits

theorem consistent_ownPromise (hs : Consistent empty s) (hn : s.calls[n]? = some call) {p : ℕ}
    (hp : call.promise = some p) (hbooks : Books s') (hcalls : s'.calls = s.calls)
    (hlength : s'.promises.length = s.promises.length)
    (hothers : ∀ q, q ≠ p → s'.promises[q]? = s.promises[q]?)
    (call' : Call R) (hkind : call'.kind = call.kind) (hpromise : call'.promise = call.promise)
    (hfits : Fits empty (putCall s' n call') call') : Consistent empty (putCall s' n call') := by
  refine consistent_of_call hs hn (hbooks.putCall n call') ?_ hkind (.inl ⟨hpromise, hlength⟩)
    (fun q hq _ => hothers q fun heq => hq (heq ▸ hp)) hfits
  rw [putCall, hcalls]

theorem consistent_install (hs : Consistent empty s) (hn : s.calls[n]? = some call)
    (hnone : call.promise = none)
    (hold : old = none ∨ old = some s.rootFuture) (call' : Call R) (hkind : call'.kind = call.kind)
    (hpromise : call'.promise = some s.promises.length)
    (hfits : Fits empty (putCall (install s old) n call') call') :
    Consistent empty (putCall (install s old) n call') := by
  refine consistent_of_call hs hn ((books_install hs.books hold).putCall n call') rfl hkind
    (.inr ⟨hnone, hpromise, List.length_append⟩) (fun q _ hlt => ?_) hfits
  exact List.getElem?_append_left hlt

variable {p : ℕ} {x : RootPromise R}

theorem complete_self (hp : s.promises[p]? = some x) (state : PromiseState R) :
    (complete s p state).promises[p]? = some { x with state := state } := by
  rw [complete_eq hp]
  exact (getElem?_set_eq_some (lt_length_of_getElem? hp)).mpr (.inl ⟨rfl, rfl⟩)

theorem record_self (hp : s.promises[p]? = some x) (root : R) :
    (record s p root).promises[p]? = some { x with effect := some root } := by
  rw [record_eq hp]
  exact (getElem?_set_eq_some (lt_length_of_getElem? hp)).mpr (.inl ⟨rfl, rfl⟩)

theorem complete_other (hne : q ≠ p) (state : PromiseState R) :
    (complete s p state).promises[q]? = s.promises[q]? :=
  List.getElem?_modify_ne _ _ fun h => hne h.symm

theorem record_other (hne : q ≠ p) (root : R) : (record s p root).promises[q]? = s.promises[q]? :=
  List.getElem?_modify_ne _ _ fun h => hne h.symm

end Calls

/-! ## One step -/

/-- A store by which `root()` persists an empty root group. -/
def Kind.isNested : Kind R → Bool
  | .storeEmptyRoot => true
  | _ => false

/-- The future that a call has replaced is completed. -/
def OldCompleted (s : State R) (call : Call R) : Prop :=
  ∀ p ∈ call.promise, ∀ x ∈ s.promises[p]?, ∀ old ∈ x.oldRootFuture, (outcome s old).isSome

/-- The runs in which nothing goes wrong: `root()` does not fail once it has installed its
promise, neither by itself nor through its own store; a store fails only without having
written, and while the future that it replaced is completed; and it writes before any call
that has installed its promise later has read or written the root. -/
def Allowed (s : State R) : Event R → Prop
  | .proceed n o => ∀ call ∈ s.calls[n]?,
    match call.progress with
    | .reading => o = .success
    | .resolving _ => o = .success
    | .preparing => o = .success ∨ call.kind.isNested = false
    | .storing => o = .success ∨ call.kind.isNested = false ∧ OldCompleted s call
    | .writing =>
      match o with
      | .success => ∀ p ∈ call.promise, ∀ (q : ℕ) (y : RootPromise R), p < q →
        s.promises[q]? = some y → y.effect = none
      | .failure => call.kind.isNested = false ∧ OldCompleted s call
      | .failureAfterWrite => False
    | _ => True
  | _ => True

section Step

variable {s s' : State R} {n p : ℕ} {call : Call R} {o : Outcome}

theorem consistent_revertRoot (hs : Consistent empty s) (hn : s.calls[n]? = some call)
    (hp : call.promise = some p) {old : RootFuture}
    (hx : s.promises[p]? = some ⟨.pending, some old, none⟩) (hnested : call.kind.isNested = false)
    (hold : OldCompleted s call) :
    Consistent empty (putCall (revertRoot s p) n { call with progress := .failed }) := by
  obtain ⟨root, hroot⟩ := Option.isSome_iff_exists.mp (hold p hp _ hx old rfl)
  have hrevert : revertRoot s p = complete s p (.completed root) := by
    rw [revertRoot, hx, Option.bind_some]
    dsimp only
    rw [hroot]
  rw [hrevert]
  refine consistent_ownPromise hs hn hp (books_revert hs.books hx rfl rfl rfl hroot) rfl
    (List.length_modify ..) (fun q hq => complete_other hq _) { call with progress := .failed }
    rfl rfl ⟨?_, fun q hq => ?_⟩
  · intro hkind
    rw [show call.kind = .storeEmptyRoot from hkind] at hnested
    cases hnested
  · cases hp.symm.trans hq
    exact ⟨_, root, complete_self hx _, rfl⟩

theorem consistent_proceed (hs : Consistent empty s) (hn : s.calls[n]? = some call)
    (hallowed : Allowed s (.proceed n o)) (h : proceed empty s n call o = some s') :
    Consistent empty s' := by
  have hfits := hs.fits n call hn
  have hok := hallowed call hn
  obtain ⟨kind, progress, promise⟩ := call
  have hcompleted : ∀ {root : R} {q : ℕ}, promise = some q →
      (∃ x : RootPromise R, s.promises[q]? = some x ∧ x.state = .pending ∧ x.effect = some root) →
        Consistent empty (putCall (complete s q (.completed (some root))) n
          ⟨kind, .returned root, promise⟩) := by
    rintro root q rfl ⟨x, hx, hstate, heffect⟩
    refine consistent_ownPromise hs hn rfl (books_complete hs.books hx hstate heffect) rfl
      (List.length_modify ..) (fun q' hq' => complete_other hq' _) _ rfl rfl fun q' hq' => ?_
    cases hq'
    exact ⟨_, _, complete_self hx _, rfl⟩
  have hfailed : kind.isNested = false →
      Fits empty (putCall s n ⟨kind, .failed, none⟩) ⟨kind, .failed, none⟩ := by
    intro hnested
    refine ⟨fun hkind => ?_, fun q hq => nomatch hq⟩
    rw [show kind = .storeEmptyRoot from hkind] at hnested
    cases hnested
  cases promise with
  | none =>
    cases progress with
    | awaiting future =>
      obtain ⟨root, -, rfl⟩ := Option.map_eq_some_iff.mp h
      cases root with
      | some root =>
        exact consistent_putCall hs hn _ rfl rfl fun q hq => nomatch hq
      | none =>
        refine consistent_install hs hn rfl (.inl rfl) _ rfl rfl ?_
        exact getElem?_concat_eq_some.mpr (.inr ⟨rfl, rfl⟩)
    | preparing =>
      cases o with
      | success =>
        cases hstores : kind.stores empty with
        | some root =>
          simp only [proceed, hstores] at h
          cases h
          refine consistent_install hs hn rfl (.inr rfl) _ rfl rfl ⟨s.rootFuture, root, ?_, hstores⟩
          exact getElem?_concat_eq_some.mpr (.inr ⟨rfl, rfl⟩)
        | none =>
          simp only [proceed, hstores] at h
          cases h
          exact consistent_putCall hs hn _ rfl rfl hstores
      | _ =>
        cases h
        exact consistent_putCall hs hn _ rfl rfl (hfailed (hok.resolve_left nofun))
    | storingVersion =>
      have hversion : kind.isNested = false := by
        cases kind with
        | storeEmptyRoot => cases hfits
        | _ => rfl
      cases o with
      | success =>
        cases h
        refine consistent_putCall hs hn _ rfl rfl ⟨(fun q hq => nomatch hq), fun root hroot => ?_⟩
        exact nomatch hfits.symm.trans hroot
      | _ =>
        cases h
        exact consistent_putCall hs hn _ rfl rfl (hfailed hversion)
    | returned root => cases h
    | stored => cases h
    | failed => cases h
    | _ => exact hfits.elim
  | some p =>
    cases progress with
    | reading =>
      obtain rfl : o = .success := hok
      cases hroot : s.storedRoot with
      | some root =>
        simp only [proceed, hroot] at h
        cases h
        refine consistent_ownPromise hs hn rfl (books_read hs.books hfits rfl hroot) rfl
          (List.length_modify ..) (fun q hq => record_other hq _) _ rfl rfl ?_
        exact record_self hfits root
      | none =>
        simp only [proceed, hroot] at h
        cases h
        have hlt := lt_length_of_getElem? hn
        let nested : Call R := ⟨.storeEmptyRoot, .preparing, none⟩
        let waiting : Call R := ⟨kind, .storingEmpty s.calls.length, some p⟩
        have hstart : Consistent empty (start s nested) := consistent_start hs rfl trivial
        have hcalls : (s.calls ++ [nested]).set n waiting = s.calls.set n waiting ++ [nested] :=
          List.set_append_left _ _ hlt
        have heq : ({ s with calls := s.calls.set n waiting ++ [nested] } : State R) =
            putCall (start s nested) n waiting := by
          rw [← hcalls]
          rfl
        show Consistent empty { s with calls := s.calls.set n waiting ++ [nested] }
        rw [heq]
        refine consistent_putCall hstart (getElem?_concat_eq_some.mpr (.inl hn)) waiting rfl rfl
          ⟨hfits, nested, ?_, rfl, fun q hq => nomatch hq⟩
        rw [← heq]
        refine getElem?_concat_eq_some.mpr (.inr ⟨List.length_set.symm, rfl⟩)
    | resolving root =>
      obtain rfl : o = .success := hok
      cases h
      exact hcompleted rfl ⟨_, hfits, rfl, rfl⟩
    | storingEmpty m =>
      obtain ⟨hx, nested, hm, hkind, hlt⟩ := hfits
      obtain ⟨nested', hm', hnested⟩ := Option.bind_eq_some_iff.mp h
      cases hm.symm.trans hm'
      have hfitsNested := hs.fits m nested hm
      cases hprogress : nested.progress with
      | stored =>
        rw [hprogress] at hnested
        cases hnested
        rw [Fits, hprogress] at hfitsNested
        have hstores : nested.kind.stores empty = some empty := by
          rw [hkind]
          rfl
        obtain ⟨q, y, hq, hy, heffect⟩ := hfitsNested.2 empty hstores
        have hsome : y.effect ≠ none := heffect ▸ nofun
        refine consistent_ownPromise hs hn rfl (books_empty hs.books hx rfl hy hsome (hlt q hq)) rfl
          ((List.length_modify ..).trans (List.length_modify ..))
          (fun q' hq' => (complete_other hq' _).trans (record_other hq' _)) _ rfl rfl
          fun q' hq' => ?_
        cases hq'
        exact ⟨_, _, complete_self (record_self hx empty) _, rfl⟩
      | failed =>
        rw [Fits, hprogress] at hfitsNested
        exact absurd hkind hfitsNested.1
      | _ =>
        rw [hprogress] at hnested
        cases hnested
    | storing =>
      obtain ⟨old, root, hx, hstores⟩ := hfits
      cases o with
      | success =>
        cases h
        exact consistent_putCall hs hn _ rfl rfl ⟨old, root, hx, hstores⟩
      | _ =>
        cases h
        obtain ⟨hnested, hold⟩ := hok.resolve_left nofun
        exact consistent_revertRoot hs hn rfl hx hnested hold
    | writing =>
      obtain ⟨old, root, hx, hstores⟩ := hfits
      simp only [proceed, hstores, Option.map_some] at h
      cases o with
      | success =>
        cases h
        refine consistent_ownPromise hs hn rfl (books_write hs.books hx rfl (hok p rfl)) rfl
          (List.length_modify ..) (fun q hq => record_other hq _) _ rfl rfl ?_
        exact ⟨old, root, record_self hx root, hstores⟩
      | failure =>
        cases h
        exact consistent_revertRoot hs hn rfl hx hok.1 hok.2
      | failureAfterWrite => exact hok.elim
    | written =>
      obtain ⟨old, root, hx, hstores⟩ := hfits
      simp only [proceed, hstores, Option.map_some] at h
      cases h
      refine consistent_ownPromise hs hn rfl (books_complete hs.books hx rfl rfl) rfl
        (List.length_modify ..) (fun q hq => complete_other hq _) _ rfl rfl
        ⟨fun q hq => ?_, fun root' hroot' => ?_⟩
      · cases hq
        exact ⟨_, _, complete_self hx _, rfl⟩
      · refine ⟨p, _, rfl, complete_self hx _, ?_⟩
        exact hstores.symm.trans hroot'
    | returned root => cases h
    | stored => cases h
    | failed => cases h
    | _ => exact hfits.elim

theorem consistent_init {s : State R} (h : (machine empty).Init s) : Consistent empty s := by
  obtain ⟨hfuture, hpromises, hcalls⟩ := h
  have hnone : ∀ {p : ℕ} {x : RootPromise R}, s.promises[p]? ≠ some x := by
    intro p x hx
    rw [hpromises] at hx
    cases hx
  have hnoCall : ∀ {n : ℕ} {c : Call R}, s.calls[n]? ≠ some c := by
    intro n c hc
    rw [hcalls] at hc
    cases hc
  refine ⟨⟨fun p hp => ?_, fun p x q hx => absurd hx hnone, fun root hroot => ?_,
    fun p x hx => absurd hx hnone⟩, fun n c hc => absurd hc hnoCall,
    fun n m c c' p hc => absurd hc hnoCall, fun n c p hc => absurd hc hnoCall, fun p hp => ?_⟩
  · rw [hfuture] at hp
    cases hp
  · rw [hfuture] at hroot
    exact absurd hroot not_leads_rootNotLoaded
  · rw [hpromises] at hp
    cases hp

theorem consistent_step (hs : Consistent empty s) {e : Event R} (hallowed : Allowed s e)
    (h : step empty s e = some s') : Consistent empty s' := by
  cases e with
  | root =>
    cases h
    exact consistent_start hs rfl rfl
  | storeRoot rootGroup =>
    cases h
    exact consistent_start hs rfl trivial
  | storeRootVersion =>
    cases h
    exact consistent_start hs rfl trivial
  | invalidateGroupCache =>
    cases h
    refine ⟨books_invalidate hs.books, fun n c hc => ?_, hs.owner, hs.bounded, hs.owned⟩
    exact (hs.fits n c hc).mono (fun _ _ _ => rfl) fun m nested hm =>
      ⟨nested, hm, rfl, fun q hq => .inl hq⟩
  | proceed n o =>
    obtain ⟨call, hn, hproceed⟩ := Option.bind_eq_some_iff.mp h
    exact consistent_proceed hs hn hallowed hproceed
  | settle p =>
    obtain ⟨x, hx, hsettle⟩ := Option.bind_eq_some_iff.mp h
    have hsettled := hs.books.settled p x hx
    cases hstate : x.state with
    | linked future =>
      rw [Settled, hstate] at hsettled
      exact hsettled.elim
    | _ =>
      rw [hstate] at hsettle
      cases hsettle

theorem consistent_of_reachableIf (h : (machine empty).ReachableIf Allowed s) :
    Consistent empty s :=
  h.invariant (fun _ hinit => consistent_init hinit) fun _ _ _ hs hallowed hstep =>
    consistent_step hs hallowed hstep

theorem exists_completed (hs : Consistent empty s) (hn : s.calls[n]? = some call)
    (hfinished : call.isFinished = true) (hp : call.promise = some p) :
    ∃ x o, s.promises[p]? = some x ∧ x.state = .completed o := by
  have hfits := hs.fits n call hn
  obtain ⟨kind, progress, promise⟩ := call
  obtain rfl : promise = some p := hp
  cases progress with
  | returned root => exact hfits p rfl
  | stored => exact hfits.1 p rfl
  | failed => exact hfits.2 p rfl
  | _ => cases hfinished

end Step

/-! ## A later call -/

section Later

/-- The steps of the calls from the `n`-th on, when the repositories do what they are asked for. -/
def Alone (n : ℕ) (_ : State R) : Event R → Prop
  | .proceed m o => n ≤ m ∧ o = .success
  | _ => False

/-- A call to `root()` that starts now and goes on alone returns the root that is stored. -/
def ReturnsStored (empty : R) (s : State R) : Prop :=
  ∀ s' : State R, ((machine empty).startingAt
      (start s ⟨.root, .awaiting s.rootFuture, none⟩)).ReachableIf (Alone s.calls.length) s' →
    ∀ call ∈ s'.calls[s.calls.length]?, call.isFinished = true →
      ∃ root, call.progress = .returned root ∧ s'.storedRoot = some root

/-- Where the store of an empty root is that the later call has started. -/
def NestedFits (empty : R) (s' : State R) : Progress R → Prop
  | .preparing => True
  | .storing => True
  | .writing => True
  | .written => s'.storedRoot = some empty
  | .stored => s'.storedRoot = some empty
  | _ => False

/-- Where the later call is, with the calls that it has started. -/
def LaterFits (empty : R) (s s' : State R) (rest : List (Call R)) : Progress R → Prop
  | .awaiting future => rest = [] ∧ future = s.rootFuture ∧ s'.promises = s.promises ∧
    s'.storedRoot = s.storedRoot
  | .reading => rest = []
  | .resolving root => rest = [] ∧ s'.storedRoot = some root
  | .storingEmpty m => m = s.calls.length + 1 ∧ ∃ nested, rest = [nested] ∧
    nested.kind = .storeEmptyRoot ∧ NestedFits empty s' nested.progress
  | .returned root => s'.storedRoot = some root ∧ ∀ c ∈ rest, c.isFinished = true
  | _ => False

def Later (empty : R) (s s' : State R) : Prop :=
  ∃ call rest, s'.calls = s.calls ++ call :: rest ∧ LaterFits empty s s' rest call.progress

variable {s s' s'' : State R}

theorem proceed_of_isFinished {o : Outcome}
    (hfinished : call.isFinished = true) : proceed empty s n call o = none := by
  obtain ⟨kind, progress, promise⟩ := call
  cases progress <;> cases promise <;> first | rfl | cases hfinished

theorem set_length_append (l : List α) (a b : α) (rest : List α) :
    (l ++ a :: rest).set l.length b = l ++ b :: rest := by
  rw [List.set_append_right _ _ le_rfl, Nat.sub_self]
  rfl

theorem set_length_succ_append (l : List α) (a b c : α) :
    (l ++ [a, b]).set (l.length + 1) c = l ++ [a, c] := by
  rw [List.set_append_right _ _ (Nat.le_add_right _ 1), Nat.add_sub_cancel_left]
  rfl

theorem getElem?_length_succ_append (l : List α) (a b : α) :
    (l ++ [a, b])[l.length + 1]? = some b := by
  rw [List.getElem?_append_right (Nat.le_add_right _ 1), Nat.add_sub_cancel_left]
  rfl

theorem later_proceed (hs : Consistent empty s) {rest : List (Call R)}
    (hcalls : s'.calls = s.calls ++ call :: rest) (hphase : LaterFits empty s s' rest call.progress)
    (h : proceed empty s' s.calls.length call .success = some s'') : Later empty s s'' := by
  have hput : ∀ {t : State R} (call' : Call R), t.calls = s'.calls →
      (putCall t s.calls.length call').calls = s.calls ++ call' :: rest := by
    intro t call' ht
    rw [putCall, ht, hcalls]
    exact set_length_append _ _ _ _
  obtain ⟨kind, progress, promise⟩ := call
  cases progress with
  | awaiting future =>
    obtain ⟨rfl, rfl, hpromises, hroot⟩ := hphase
    obtain ⟨root, houtcome, rfl⟩ := Option.map_eq_some_iff.mp h
    cases root with
    | none => exact ⟨_, [], hput _ rfl, rfl⟩
    | some root =>
      have hold : outcome s s.rootFuture = some (some root) := by
        rw [← houtcome]
        cases s.rootFuture with
        | rootNotLoaded => rfl
        | promise p => rw [outcome, outcome, hpromises]
      have hstored := hs.books.leads root (leads_of_outcome hs.books hold)
      exact ⟨_, [], hput _ rfl, hroot.trans hstored, fun c hc => nomatch hc⟩
  | reading =>
    obtain rfl : rest = [] := hphase
    cases promise with
    | none => cases h
    | some p =>
      cases hroot : s'.storedRoot with
      | some root =>
        simp only [proceed, hroot] at h
        cases h
        exact ⟨_, [], hput _ rfl, rfl, hroot⟩
      | none =>
        simp only [proceed, hroot] at h
        cases h
        refine ⟨⟨kind, .storingEmpty s'.calls.length, some p⟩, [⟨.storeEmptyRoot, .preparing, none⟩],
          ?_, ?_, _, rfl, rfl, trivial⟩
        · show (putCall s' _ _).calls ++ [_] = _
          rw [hput _ rfl, List.append_assoc]
          rfl
        · rw [hcalls, List.length_append]
          rfl
  | resolving root =>
    obtain ⟨rfl, hroot⟩ := hphase
    cases promise with
    | none => cases h
    | some p =>
      cases h
      exact ⟨_, [], hput _ rfl, hroot, fun c hc => nomatch hc⟩
  | storingEmpty m =>
    obtain ⟨rfl, nested, rfl, hkind, hnested⟩ := hphase
    cases promise with
    | none => cases h
    | some p =>
      obtain ⟨nested', hget, hstep⟩ := Option.bind_eq_some_iff.mp h
      obtain rfl : nested = nested' := by
        rw [hcalls, getElem?_length_succ_append] at hget
        exact Option.some.inj hget
      cases hprogress : nested.progress with
      | stored =>
        rw [hprogress] at hstep hnested
        cases hstep
        refine ⟨_, [nested], hput _ rfl, hnested, fun c hc => ?_⟩
        obtain rfl := List.mem_singleton.mp hc
        rw [Call.isFinished, hprogress]
      | failed =>
        rw [hprogress] at hnested
        exact hnested.elim
      | _ =>
        rw [hprogress] at hstep
        cases hstep
  | returned root => cases promise <;> cases h
  | _ => exact hphase.elim

theorem later_nested {nested : Call R}
    (hcalls : s'.calls = s.calls ++ call :: [nested]) (hn : n = s.calls.length + 1)
    (hcall : call.progress = .storingEmpty n) (hkind : nested.kind = .storeEmptyRoot)
    (hnested : NestedFits empty s' nested.progress)
    (h : proceed empty s' n nested .success = some s'') : Later empty s s'' := by
  subst hn
  have hlater : ∀ {t : State R} (nested' : Call R), t.calls = s'.calls →
      nested'.kind = .storeEmptyRoot →
        NestedFits empty (putCall t (s.calls.length + 1) nested') nested'.progress →
          Later empty s (putCall t (s.calls.length + 1) nested') := by
    intro t nested' ht hkind' hfits
    refine ⟨call, [nested'], ?_, ?_⟩
    · rw [putCall, ht, hcalls]
      exact set_length_succ_append _ _ _ _
    · rw [hcall]
      exact ⟨rfl, nested', rfl, hkind', hfits⟩
  obtain ⟨kind, progress, promise⟩ := nested
  obtain rfl : kind = .storeEmptyRoot := hkind
  cases progress with
  | preparing =>
    cases promise <;> obtain rfl := Option.some.inj h <;> exact hlater _ rfl rfl trivial
  | storing =>
    cases promise with
    | none => cases h
    | some p =>
      cases h
      exact hlater _ rfl rfl trivial
  | writing =>
    cases promise with
    | none => cases h
    | some p =>
      cases h
      exact hlater _ rfl rfl rfl
  | written =>
    cases promise with
    | none => cases h
    | some p =>
      cases h
      exact hlater _ rfl rfl hnested
  | stored => cases promise <;> cases h
  | _ => exact hnested.elim

theorem later_step (hs : Consistent empty s) (hlater : Later empty s s') {e : Event R}
    (halone : Alone s.calls.length s' e) (h : step empty s' e = some s'') : Later empty s s'' := by
  cases e with
  | proceed m o =>
    obtain ⟨hle, rfl⟩ := halone
    obtain ⟨call, hm, hproceed⟩ := Option.bind_eq_some_iff.mp h
    obtain ⟨c, rest, hcalls, hphase⟩ := hlater
    rw [hcalls, List.getElem?_append_right hle] at hm
    cases hk : m - s.calls.length with
    | zero =>
      obtain rfl : m = s.calls.length := by omega
      rw [hk] at hm
      cases hm
      exact later_proceed hs hcalls hphase hproceed
    | succ k =>
      rw [hk, List.getElem?_cons_succ] at hm
      cases hprogress : c.progress with
      | storingEmpty n =>
        rw [hprogress] at hphase
        obtain ⟨rfl, nested, rfl, hkind, hnested⟩ := hphase
        obtain ⟨hlt, rfl⟩ := List.getElem?_eq_some_iff.mp hm
        have hzero : k = 0 := Nat.lt_one_iff.mp hlt
        subst hzero
        obtain rfl : m = s.calls.length + 1 := by omega
        exact later_nested hcalls rfl hprogress hkind hnested hproceed
      | returned root =>
        rw [hprogress] at hphase
        rw [proceed_of_isFinished (hphase.2 call (List.mem_of_getElem? hm))] at hproceed
        cases hproceed
      | awaiting future =>
        rw [hprogress] at hphase
        obtain ⟨rfl, -⟩ := hphase
        cases hm
      | reading =>
        rw [hprogress] at hphase
        obtain rfl : rest = [] := hphase
        cases hm
      | resolving root =>
        rw [hprogress] at hphase
        obtain ⟨rfl, -⟩ := hphase
        cases hm
      | _ =>
        rw [hprogress] at hphase
        exact hphase.elim
  | _ => exact halone.elim

theorem returnsStored_of_consistent (hs : Consistent empty s) : ReturnsStored empty s := by
  intro s' h call hget hfinished
  have hstep : ∀ (t : State R) (e : Event R) (t' : State R), Later empty s t →
      Alone s.calls.length t e → ((machine empty).startingAt
        (start s ⟨.root, .awaiting s.rootFuture, none⟩)).step t e = some t' →
          Later empty s t' := fun _ _ _ hlater halone hstep => later_step hs hlater halone hstep
  have hlater : Later empty s s' := by
    refine h.invariant ?_ hstep
    intro s₀ hs₀
    obtain rfl : s₀ = start s ⟨.root, .awaiting s.rootFuture, none⟩ := hs₀
    exact ⟨_, [], rfl, rfl, rfl, rfl, rfl⟩
  obtain ⟨c, rest, hcalls, hphase⟩ := hlater
  rw [hcalls, List.getElem?_append_right le_rfl, Nat.sub_self] at hget
  obtain rfl : c = call := Option.some.inj hget
  obtain ⟨kind, progress, promise⟩ := c
  cases progress with
  | returned root => exact ⟨root, rfl, hphase.1⟩
  | stored => exact hphase.elim
  | failed => exact hphase.elim
  | _ => cases hfinished

/-- In the runs in which nothing goes wrong the promise of every call that is finished is
completed, so that the root future is while no call is under way, and a later call to `root()`
returns the root that is stored. -/
theorem completed_of_allowed (h : (machine empty).ReachableIf Allowed s) :
    (∀ call ∈ s.calls, call.isFinished = true → ∀ p ∈ call.promise,
        ∃ x ∈ s.promises[p]?, ∃ o, x.state = .completed o) ∧
      ((∀ call ∈ s.calls, call.isFinished = true) → (outcome s s.rootFuture).isSome) ∧
      ReturnsStored empty s := by
  have hs := consistent_of_reachableIf h
  refine ⟨fun call hcall hfinished p hp => ?_, fun hall => ?_, returnsStored_of_consistent hs⟩
  · obtain ⟨n, hn⟩ := List.getElem?_of_mem hcall
    obtain ⟨x, o, hx, hstate⟩ := exists_completed hs hn hfinished hp
    exact ⟨x, hx, o, hstate⟩
  · cases hfuture : s.rootFuture with
    | rootNotLoaded => rfl
    | promise p =>
      have htop := hs.books.top p hfuture
      obtain ⟨n, c, hn, hp⟩ := hs.owned p (by omega)
      obtain ⟨x, o, hx, hstate⟩ :=
        exists_completed hs hn (hall c (List.mem_of_getElem? hn)) hp
      rw [outcome, hx, Option.bind_some, hstate]
      rfl

end Later

/-! ## A load that fails -/

section FailedLoad

/-- A repository that holds the root `3`; the empty root is `0`. -/
def fresh : State ℕ where
  rootFuture := .rootNotLoaded
  promises := []
  storedRoot := some 3
  calls := []

/-- A store whose apps cannot be stored. -/
theorem returnsStored_failed_store : ∃ s : State ℕ, s.storedRoot = some 3 ∧
    s.calls.map Call.isFinished = [true] ∧ ReturnsStored 0 s := by
  have hinit : (machine 0).ReachableIf Allowed fresh := .init ⟨rfl, rfl, rfl⟩
  have hstart := hinit.step (e := .storeRoot 5) (by exact trivial) rfl
  have hstoring := hstart.step (e := .proceed 0 .success) (by
    intro call hcall
    cases hcall
    exact .inl rfl) rfl
  have hfailed := hstoring.step (e := .proceed 0 .failure) (by
    intro call hcall
    cases hcall
    refine .inr ⟨rfl, fun p hp x hx old hold => ?_⟩
    cases hp
    cases hx
    cases hold
    rfl) rfl
  exact ⟨_, rfl, rfl, (completed_of_allowed hfailed).2.2⟩

/-- The first `root()` fails to read the root, and its promise stays as it is. -/
theorem not_forall_completed : ¬∀ s : State ℕ, (machine 0).Reachable s →
    (∀ call ∈ s.calls, call.isFinished = true → ∀ p ∈ call.promise,
        ∃ x ∈ s.promises[p]?, ∃ o, x.state = .completed o) ∧
      ReturnsStored 0 s := by
  intro h
  have hrun : (machine 0).run fresh [.root, .proceed 0 .success, .proceed 0 .failure] =
      some ⟨.promise 0, [⟨.pending, none, none⟩], some 3, [⟨.root, .failed, some 0⟩]⟩ := rfl
  have hinit : (machine 0).Init fresh := ⟨rfl, rfl, rfl⟩
  have hreach := Machine.reachableIf_of_runIf _ (.init hinit) hrun
  obtain ⟨x, hx, o, hstate⟩ := (h _ hreach).1 _ List.mem_cons_self rfl 0 rfl
  cases hx
  cases hstate

end FailedLoad

end Marathon.Storage.StoredGroupRepository
