import Marathon.Storage.LazyVersionCachingPersistentStore

/-!
# Runs of the cache of versions

What the cache of versions returns once nothing is on its way. The caches are right in every
run in which no call overlaps a writing call of the same id and every step leaves what it
caches as the store holds it; a single read of a version that is missing breaks them.
-/

namespace Marathon.Storage.LazyVersionCachingPersistentStore

open Lib

section Runs

variable {σ C I T V S : Type*} [DecidableEq C] [DecidableEq I] [DecidableEq T]
  {store : BasePersistenceStore σ C I T V S}

/-- Two requests about one id, of which at least one writes. -/
def Conflicts (r r' : Request C I T V) : Prop := (r.writes ∨ r'.writes) ∧ r.key = r'.key

instance (r r' : Request C I T V) : Decidable (Conflicts r r') := by
  unfold Conflicts
  infer_instance

/-- The runs in which nothing goes wrong: no call starts while another one that it conflicts
with is on its way, and every step of a call leaves the caches right on its own. -/
def Allowed (store : BasePersistenceStore σ C I T V S) (s : State σ C I T V) :
    Event C I T V → Prop
  | .start r => ∀ call ∈ s.calls, call.progress.isOver = false → ¬Conflicts call.request r
  | .advance n => ∀ call ∈ s.calls[n]?, Sound store s.world call.request call.progress
  | .purge _ => True

/-- What the caches hold of the id of a call that is not over. -/
def Fits (store : BasePersistenceStore σ C I T V S) (w : World σ C I T V)
    (call : Call C I T V) (k : C × I) : Prop :=
  if call.request.writes then WriterFits store w k call.progress
  else ReaderFits store w k call.progress

/-- The invariant of these runs. -/
structure Consistent (store : BasePersistenceStore σ C I T V S) (s : State σ C I T V) : Prop where
  apart : ∀ (n m : ℕ) (c c' : Call C I T V), s.calls[n]? = some c → s.calls[m]? = some c' →
    n ≠ m → c.progress.isOver = false → c'.progress.isOver = false →
    ¬Conflicts c.request c'.request
  fits : ∀ (n : ℕ) (c : Call C I T V), s.calls[n]? = some c → c.progress.isOver = false →
    ∀ k, c.request.key = some k → Fits store s.world c k
  /-- The entries of an id are right unless a writing call of it is on its way. -/
  right : ∀ k, (∀ (n : ℕ) (c : Call C I T V), s.calls[n]? = some c → c.progress.isOver = false →
    c.request.writes → c.request.key ≠ some k) → Right store s.world k

theorem Shrinks.fits {w w' : World σ C I T V} {k : C × I} (h : Shrinks store k w w')
    {call : Call C I T V} (hw : Fits store w call k) : Fits store w' call k := by
  rw [Fits] at hw ⊢
  split_ifs at hw ⊢
  · exact h.writerFits hw
  · exact h.readerFits hw

omit [DecidableEq C] [DecidableEq I] in
theorem readerFits_of_store_eq {w w' : World σ C I T V} {k : C × I} (hstore : w'.store = w.store)
    (hmem : k ∈ w.versionCache → k ∈ w'.versionCache) {p : Progress T V}
    (hw : ReaderFits store w k p) : ReaderFits store w' k p := by
  have hheld : ∀ t, held store w' k t = held store w k t := fun t => by rw [held, held, hstore]
  have hversions : heldVersions store w' k = heldVersions store w k := by
    rw [heldVersions, heldVersions, hstore]
  cases p with
  | found => exact hmem hw
  | listed children => exact Eq.trans hw hversions.symm
  | caching t v => exact Eq.trans hw (hheld t).symm
  | reading t => exact ⟨hmem hw.1, hversions ▸ hw.2⟩
  | putting t cached => exact Eq.trans hw hversions.symm
  | _ => exact hw

theorem writerFits_of_isOver {w : World σ C I T V} {k : C × I} {p : Progress T V}
    (hover : p.isOver = true) (hfits : WriterFits store w k p) : Right store w k := by
  cases p with
  | ended => exact hfits
  | failed => exact hfits.elim
  | _ => cases hover

theorem consistent_init {s : State σ C I T V} (h : (machine store).Init s) :
    Consistent store s := by
  obtain ⟨hcalls, hversions, hvalues⟩ := h
  refine ⟨fun n m c c' hn => ?_, fun n c hn => ?_, fun k _ => ⟨fun t v hv => ?_, fun vs hv => ?_⟩⟩
  · rw [hcalls] at hn
    cases hn
  · rw [hcalls] at hn
    cases hn
  · rw [hvalues] at hv
    cases hv
  · rw [hversions] at hv
    cases hv

theorem consistent_start {s : State σ C I T V} (hs : Consistent store s) {r : Request C I T V}
    (hallowed : Allowed store s (.start r)) :
    Consistent store { s with calls := s.calls ++ [⟨r, .begun, .done⟩] } := by
  -- a call is an old one, or the one that starts
  have hcases : ∀ {n : ℕ} {c : Call C I T V}, (s.calls ++ [⟨r, .begun, .done⟩])[n]? = some c →
      s.calls[n]? = some c ∨ n = s.calls.length ∧ c = ⟨r, .begun, .done⟩ := by
    intro n c hn
    rcases Nat.lt_or_ge n s.calls.length with hlt | hge
    · rw [List.getElem?_append_left hlt] at hn
      exact .inl hn
    · rw [List.getElem?_append_right hge] at hn
      obtain ⟨hzero, hc⟩ := List.getElem?_eq_some_iff.mp hn
      rw [List.length_singleton] at hzero
      refine .inr ⟨by omega, ?_⟩
      rw [List.getElem_singleton] at hc
      exact hc.symm
  have hright : ∀ k, (∀ (n : ℕ) (c : Call C I T V),
      (s.calls ++ [⟨r, .begun, .done⟩])[n]? = some c → c.progress.isOver = false →
        c.request.writes → c.request.key ≠ some k) → Right store s.world k := by
    intro k hk
    refine hs.right k fun n c hn => hk n c ?_
    rw [List.getElem?_append_left (List.getElem?_eq_some_iff.mp hn).1]
    exact hn
  have hnew : ∀ {n : ℕ} {c : Call C I T V}, s.calls[n]? = some c → c.progress.isOver = false →
      ¬Conflicts c.request r := fun hn hover =>
    hallowed _ (List.mem_of_getElem? hn) hover
  refine ⟨fun n m c c' hn hm hne hover hover' => ?_, fun n c hn hover k hk => ?_, hright⟩
  · rcases hcases hn with hn | ⟨rfl, rfl⟩ <;> rcases hcases hm with hm | ⟨rfl, rfl⟩
    · exact hs.apart n m c c' hn hm hne hover hover'
    · exact hnew hn hover
    · exact fun h => hnew hm hover' ⟨h.1.symm, h.2.symm⟩
    · exact absurd rfl hne
  · rcases hcases hn with hn | ⟨rfl, rfl⟩
    · exact hs.fits n c hn hover k hk
    · rw [Fits]
      split_ifs with hwrites
      · refine hs.right k fun m c hm hover' hwrites' hk' => ?_
        exact hnew hm hover' ⟨.inl hwrites', hk'.trans hk.symm⟩
      · trivial

theorem consistent_purge {s : State σ C I T V} (hs : Consistent store s)
    (keep : (C × I) × T → Option V → Bool) :
    Consistent store { s with world := s.world.purge keep } where
  apart := hs.apart
  fits n c hn hover k hk := (shrinks_purge keep).fits (hs.fits n c hn hover k hk)
  right k hk := (shrinks_purge keep).right (hs.right k hk)

theorem consistent_advance (hstore : store.LawfulVersions) {s : State σ C I T V}
    (hs : Consistent store s) {n : ℕ} {call call' : Call C I T V} {w' : World σ C I T V}
    (hn : s.calls[n]? = some call) (hsound : Sound store s.world call.request call.progress)
    (hadvance : advance store s.world call = some (w', call')) :
    Consistent store { world := w', calls := s.calls.set n call' } := by
  obtain ⟨hrequest, hstep⟩ := advances_of_advance hadvance
  have hlt : n < s.calls.length := (List.getElem?_eq_some_iff.mp hn).1
  have hactive : call.progress.isOver = false := by
    cases hp : call.progress with
    | ended =>
      rw [advance, hp] at hadvance
      cases hk : call.request.key <;> rw [hk] at hadvance <;> cases hadvance
    | failed =>
      rw [advance, hp] at hadvance
      cases hk : call.request.key <;> rw [hk] at hadvance <;> cases hadvance
    | _ => rfl
  -- the calls afterwards: the one that took the step, and the others as they were
  have hcases : ∀ {m : ℕ} {c : Call C I T V}, (s.calls.set n call')[m]? = some c →
      m = n ∧ c = call' ∨ m ≠ n ∧ s.calls[m]? = some c := by
    intro m c hm
    by_cases heq : m = n
    · subst heq
      rw [List.getElem?_set_self hlt] at hm
      exact .inl ⟨rfl, (Option.some.inj hm).symm⟩
    · rw [List.getElem?_set_ne fun h => heq h.symm] at hm
      exact .inr ⟨heq, hm⟩
  have hself : (s.calls.set n call')[n]? = some call' := List.getElem?_set_self hlt
  have hothers : ∀ {m : ℕ} {c : Call C I T V}, m ≠ n → s.calls[m]? = some c →
      (s.calls.set n call')[m]? = some c := fun hne hm => by
    rw [List.getElem?_set_ne fun h => hne h.symm]
    exact hm
  have hrightOf : ∀ k, call.request.key = some k → ¬call.request.writes →
      Right store s.world k := by
    intro k hk hreads
    refine hs.right k fun m c hm hover hwrites hk' => ?_
    have hne : m ≠ n := by
      rintro rfl
      cases hn.symm.trans hm
      exact hreads hwrites
    exact hs.apart m n c call hm hn hne hover hactive ⟨.inl hwrites, hk'.trans hk.symm⟩
  have hreader : ∀ k, call.request.key = some k → ¬call.request.writes →
      w'.store = s.world.store ∧ Right store w' k ∧ ReaderFits store w' k call'.progress ∧
        (k ∈ s.world.versionCache → k ∈ w'.versionCache) := by
    intro k hk hreads
    have hfits := hs.fits n call hn hactive k hk
    rw [Fits, if_neg hreads] at hfits
    exact reader_step (hrightOf k hk hreads) hfits hk hreads hsound hstep
  have hwriter : ∀ k, call.request.key = some k → call.request.writes →
      WriterFits store w' k call'.progress := by
    intro k hk hwrites
    have hfits := hs.fits n call hn hactive k hk
    rw [Fits, if_pos hwrites] at hfits
    exact writer_step hstore hfits hk hwrites hsound hstep
  refine ⟨fun m m' c c' hm hm' hne hover hover' => ?_, fun m c hm hover k hk => ?_,
    fun k hk => ?_⟩
  · rcases hcases hm with ⟨rfl, rfl⟩ | ⟨-, hold⟩
    · rcases hcases hm' with ⟨rfl, rfl⟩ | ⟨-, hold'⟩
      · exact absurd rfl hne
      · rw [hrequest]
        exact hs.apart m m' call c' hn hold' hne hactive hover'
    · rcases hcases hm' with ⟨rfl, rfl⟩ | ⟨-, hold'⟩
      · rw [hrequest]
        exact hs.apart m m' c call hold hn hne hover hactive
      · exact hs.apart m m' c c' hold hold' hne hover hover'
  · rcases hcases hm with ⟨rfl, rfl⟩ | ⟨hmn, hold⟩
    · rw [hrequest] at hk
      rw [Fits, hrequest]
      split_ifs with hwrites
      · exact hwriter k hk hwrites
      · exact (hreader k hk hwrites).2.2.1
    · have hfits := hs.fits m c hold hover k hk
      by_cases hkey : call.request.key = some k
      · have hconflict := hs.apart m n c call hold hn hmn hover hactive
        have hreads : ¬call.request.writes := fun h => hconflict ⟨.inr h, hk.trans hkey.symm⟩
        have hreads' : ¬c.request.writes := fun h => hconflict ⟨.inl h, hk.trans hkey.symm⟩
        obtain ⟨hsame, -, -, hmem⟩ := hreader k hkey hreads
        rw [Fits, if_neg hreads'] at hfits ⊢
        exact readerFits_of_store_eq hsame hmem hfits
      · exact (shrinks_of_advances hstore hstep hkey).fits hfits
  · by_cases hkey : call.request.key = some k
    · by_cases hwrites : call.request.writes
      · -- the call that writes has come to its end
        have hover : call'.progress.isOver = true := by
          by_contra hactive'
          rw [Bool.not_eq_true] at hactive'
          rw [← hrequest] at hkey hwrites
          exact hk n call' hself hactive' hwrites hkey
        exact writerFits_of_isOver hover (hwriter k hkey hwrites)
      · exact (hreader k hkey hwrites).2.1
    · refine (shrinks_of_advances hstore hstep hkey).right (hs.right k fun m c hm hover hw hk' => ?_)
      by_cases hmn : m = n
      · subst hmn
        cases hn.symm.trans hm
        exact hkey hk'
      · exact hk m c (hothers hmn hm) hover hw hk'

theorem consistent_step (hstore : store.LawfulVersions) {s s' : State σ C I T V}
    {e : Event C I T V} (hs : Consistent store s) (hallowed : Allowed store s e)
    (h : (machine store).step s e = some s') : Consistent store s' := by
  cases e with
  | start r =>
    cases h
    exact consistent_start hs hallowed
  | advance n =>
    obtain ⟨call, hn, hmap⟩ := Option.bind_eq_some_iff.mp h
    obtain ⟨⟨w', call'⟩, hadvance, heq⟩ := Option.map_eq_some_iff.mp hmap
    obtain rfl := heq
    exact consistent_advance hstore hs hn (hallowed call hn) hadvance
  | purge keep =>
    cases h
    exact consistent_purge hs keep

theorem consistent_of_reachableIf (hstore : store.LawfulVersions) {s : State σ C I T V}
    (h : (machine store).ReachableIf (Allowed store) s) : Consistent store s :=
  h.invariant (fun _ hinit => consistent_init hinit) fun _ _ _ hs hallowed hstep =>
    consistent_step hstore hs hallowed hstep

end Runs

/-! ## Calls that start once nothing is on its way -/

section Later

variable {σ C I T V S : Type*} [DecidableEq C] [DecidableEq I] [DecidableEq T]
  (store : BasePersistenceStore σ C I T V S)

/-- `get` at a version, and `versions`. -/
def readsVersions : Request C I T V → Bool
  | .getVersion _ _ _ => true
  | .versions _ _ => true
  | _ => false

/-- A call has been started. -/
def started (s : State σ C I T V) (r : Request C I T V) : State σ C I T V :=
  { s with calls := s.calls ++ [⟨r, .begun, .done⟩] }

/-- The steps of call `n` and purges. -/
def Only (n : ℕ) (_ : State σ C I T V) : Event C I T V → Prop
  | .start _ => False
  | .advance m => m = n
  | .purge _ => True

/-- Every call to `get` at a version and to `versions` that starts now can be brought to its end
and never ends otherwise than with what the underlying store holds. -/
def Transparent (s : State σ C I T V) : Prop :=
  ∀ r : Request C I T V, readsVersions r → ∀ s' : State σ C I T V,
    ((machine store).startingAt (started s r)).ReachableIf (Only s.calls.length) s' →
      (∀ call ∈ s'.calls[s.calls.length]?, call.progress.isOver →
        call.response = (store.component s.world.store r).1) ∧
      ∃ s'' : State σ C I T V,
        ((machine store).startingAt s').ReachableIf (Only s.calls.length) s'' ∧
          ∃ call ∈ s''.calls[s.calls.length]?, call.progress.isOver

instance (n : ℕ) (s : State σ C I T V) (e : Event C I T V) : Decidable (Only n s e) := by
  cases e with
  | start r => exact inferInstanceAs (Decidable False)
  | advance m => exact inferInstanceAs (Decidable (m = n))
  | purge keep => exact inferInstanceAs (Decidable True)

variable {store}

/-- What a later call has in hand. -/
def Answers (store : BasePersistenceStore σ C I T V S) (w : World σ C I T V) (k : C × I)
    (call : Call C I T V) : Prop :=
  match call.progress with
  | .begun => Right store w k
  | .missed => Right store w k
  | .found => (∃ c i, call.request = .versions c i) ∧ Right store w k ∧ k ∈ w.versionCache
  | .failed => False
  | _ => call.response = (store.component w.store call.request).1

theorem Shrinks.answers {w w' : World σ C I T V} {k : C × I} (h : Shrinks store k w w')
    (hstore : w'.store = w.store) {call : Call C I T V} (hw : Answers store w k call) :
    Answers store w' k call := by
  obtain ⟨request, progress, response⟩ := call
  cases progress with
  | begun => exact h.right hw
  | missed => exact h.right hw
  | found => exact ⟨hw.1, h.right hw.2.1, h.mem_iff.mpr hw.2.2⟩
  | failed => exact hw
  | _ =>
    rw [Answers] at hw ⊢
    rw [hstore]
    exact hw

theorem answers_update {w w' : World σ C I T V} {k : C × I} {p p' : Progress T V}
    (hupdate : update w k p = some (w', p')) {request : Request C I T V} {r : Response I T V}
    (hw : Answers store w k ⟨request, p, r⟩) :
    w'.store = w.store ∧ Answers store w' k ⟨request, p', r⟩ := by
  cases p with
  | adding t =>
    cases hupdate
    refine ⟨rfl, ?_⟩
    split_ifs
    · exact hw
    · exact hw
  | begun => cases hupdate
  | found => cases hupdate
  | missed => cases hupdate
  | ended => cases hupdate
  | failed => cases hupdate
  | _ =>
    cases hupdate
    exact ⟨rfl, hw⟩

theorem answers_step {w w' : World σ C I T V} {k : C × I} {request : Request C I T V}
    {p p' : Progress T V} {r r' : Response I T V} (hreads : readsVersions request)
    (hk : request.key = some k) (hw : Answers store w k ⟨request, p, r⟩)
    (h : Advances store w request p r w' p' r') :
    w'.store = w.store ∧ Answers store w' k ⟨request, p', r'⟩ := by
  cases h with
  | getSome hget => cases hreads
  | getNone hget => cases hreads
  | @hit c i t v r hcached =>
    cases hk
    refine ⟨rfl, ?_⟩
    exact congrArg Response.value (Right.values hw t v hcached)
  | miss hcached => exact ⟨rfl, hw⟩
  | load c i t r => exact ⟨rfl, rfl⟩
  | @contains c i r hcached =>
    cases hk
    exact ⟨rfl, ⟨c, i, rfl⟩, hw, hcached⟩
  | lacks hcached => exact ⟨rfl, hw⟩
  | list c i r => exact ⟨rfl, rfl⟩
  | @apply _ k' versions _ hk' hcached =>
    cases hk'.symm.trans hk
    obtain ⟨⟨c, i, rfl⟩, hright, -⟩ := hw
    cases hk
    exact ⟨rfl, congrArg Response.versions (hright.versions versions hcached)⟩
  | @fail _ k' _ hk' hcached =>
    cases hk'.symm.trans hk
    exact absurd hw.2.2 (AList.lookup_eq_none.mp hcached)
  | forward hrequest r =>
    rcases hrequest with hwrites | hnone
    · cases request with
      | getVersion c i t => exact absurd hwrites Bool.false_ne_true
      | versions c i => exact absurd hwrites Bool.false_ne_true
      | _ => cases hreads
    · rw [hnone] at hk
      cases hk
  | @update _ k' _ _ _ hk' hupdate _ =>
    cases hk'.symm.trans hk
    exact answers_update hupdate hw

/-- How many steps a call can still take. -/
def Progress.left : Progress T V → ℕ
  | .begun => 6
  | .missed => 5
  | .caching _ _ => 4
  | .adding _ => 3
  | .reading _ => 2
  | .clearingValues => 2
  | .found => 1
  | .listed _ => 1
  | .putting _ _ => 1
  | .clearingVersions => 1
  | .ended => 0
  | .failed => 0

omit [DecidableEq C] [DecidableEq I] [DecidableEq T] in
theorem exists_key_of_readsVersions {r : Request C I T V} (hreads : readsVersions r) :
    ∃ k, r.key = some k := by
  cases r with
  | getVersion c i t => exact ⟨_, rfl⟩
  | versions c i => exact ⟨_, rfl⟩
  | _ => cases hreads

theorem exists_advance {w : World σ C I T V} {call : Call C I T V} 
    (hreads : readsVersions call.request) (hactive : call.progress.isOver = false) :
    ∃ w' call', advance store w call = some (w', call') ∧
      call'.progress.left < call.progress.left := by
  obtain ⟨request, progress, response⟩ := call
  obtain ⟨k, hk⟩ := exists_key_of_readsVersions hreads
  have hupdate : ∀ {p : Progress T V} {w' : World σ C I T V} {p' : Progress T V},
      update w k p = some (w', p') → p'.left < p.left →
      ∃ w'' call', (request.key.bind fun k => (update w k p).map fun next =>
          (next.1, (⟨request, next.2, response⟩ : Call C I T V))) = some (w'', call') ∧
        call'.progress.left < p.left := by
    intro p w' p' hupdate hlt
    refine ⟨w', ⟨request, p', response⟩, ?_, hlt⟩
    rw [hk, Option.bind_some, hupdate, Option.map_some]
  cases progress with
  | begun =>
    cases request with
    | getVersion c i t =>
      cases hcached : w.versionedValueCache.lookup ((c, i), t) with
      | none =>
        refine ⟨w, ⟨.getVersion c i t, .missed, response⟩, congrArg some ?_, Nat.lt_succ_self _⟩
        rw [ask]
        dsimp only
        rw [hcached]
      | some v =>
        refine ⟨w, ⟨.getVersion c i t, .ended, .value v⟩, congrArg some ?_, Nat.succ_pos _⟩
        rw [ask]
        dsimp only
        rw [hcached]
    | versions c i =>
      by_cases hcached : (c, i) ∈ w.versionCache
      · refine ⟨w, ⟨.versions c i, .found, response⟩, congrArg some ?_, Nat.lt_of_sub_eq_succ rfl⟩
        rw [ask]
        exact if_pos hcached
      · refine ⟨w, ⟨.versions c i, .missed, response⟩, congrArg some ?_, Nat.lt_succ_self _⟩
        rw [ask]
        exact if_neg hcached
    | _ => cases hreads
  | found =>
    dsimp only at hk
    rw [advance]
    rw [hk]
    refine ⟨_, _, rfl, ?_⟩
    cases w.versionCache.lookup k with
    | none => exact Nat.succ_pos _
    | some versions => exact Nat.succ_pos _
  | missed =>
    cases request with
    | getVersion c i t => exact ⟨_, _, rfl, Nat.lt_succ_self _⟩
    | versions c i => exact ⟨_, _, rfl, Nat.lt_of_sub_eq_succ rfl⟩
    | _ => cases hreads
  | ended => cases hactive
  | failed => cases hactive
  | adding t =>
    refine hupdate rfl ?_
    split_ifs
    · exact Nat.lt_succ_self _
    · exact Nat.succ_pos _
  | listed children => exact hupdate rfl (Nat.lt_succ_self _)
  | caching t v => exact hupdate rfl (Nat.lt_succ_self _)
  | reading t => exact hupdate rfl (Nat.lt_succ_self _)
  | putting t v => exact hupdate rfl (Nat.lt_succ_self _)
  | clearingValues => exact hupdate rfl (Nat.lt_succ_self _)
  | clearingVersions => exact hupdate rfl (Nat.lt_succ_self _)

/-- Where a later call is: the store is as it was, and what the call has in hand is right. -/
def Later (store : BasePersistenceStore σ C I T V S) (s : State σ C I T V)
    (r : Request C I T V) (k : C × I) (s' : State σ C I T V) : Prop :=
  s'.world.store = s.world.store ∧ ∃ call, s'.calls[s.calls.length]? = some call ∧
    call.request = r ∧ Answers store s'.world k call

theorem later_step {s s' s'' : State σ C I T V} {r : Request C I T V} {k : C × I}
    (hreads : readsVersions r) (hk : r.key = some k) {e : Event C I T V}
    (h : Later store s r k s') (honly : Only s.calls.length s' e)
    (hstep : (machine store).step s' e = some s'') : Later store s r k s'' := by
  obtain ⟨hstore, call, hn, rfl, hanswers⟩ := h
  cases e with
  | start r' => exact honly.elim
  | advance n =>
    obtain rfl : n = s.calls.length := honly
    obtain ⟨call', hn', hmap⟩ := Option.bind_eq_some_iff.mp hstep
    cases hn.symm.trans hn'
    obtain ⟨⟨w', call'⟩, hadvance, rfl⟩ := Option.map_eq_some_iff.mp hmap
    obtain ⟨hrequest, hadvances⟩ := advances_of_advance hadvance
    obtain ⟨hsame, hnext⟩ := answers_step hreads hk hanswers hadvances
    refine ⟨hsame.trans hstore, call', ?_, hrequest, ?_⟩
    · exact List.getElem?_set_self (List.getElem?_eq_some_iff.mp hn).1
    · rw [← hrequest] at hnext
      exact hnext
  | purge keep =>
    cases hstep
    exact ⟨hstore, call, hn, rfl, (shrinks_purge keep).answers rfl hanswers⟩

theorem later_of_reachableIf {s s' : State σ C I T V} {r : Request C I T V} {k : C × I}
    (hreads : readsVersions r) (hk : r.key = some k) (hright : Right store s.world k)
    (h : ((machine store).startingAt (started s r)).ReachableIf (Only s.calls.length) s') :
    Later store s r k s' := by
  have hstep : ∀ (s' : State σ C I T V) (e : Event C I T V) (s'' : State σ C I T V),
      Later store s r k s' → Only s.calls.length s' e →
        ((machine store).startingAt (started s r)).step s' e = some s'' →
          Later store s r k s'' := fun _ _ _ hlater honly hstep =>
    later_step hreads hk hlater honly hstep
  refine h.invariant ?_ hstep
  intro s₀ hs₀
  obtain rfl : s₀ = started s r := hs₀
  refine ⟨rfl, ⟨r, .begun, .done⟩, ?_, rfl, hright⟩
  rw [started, List.getElem?_append_right le_rfl, Nat.sub_self]
  rfl

theorem exists_over {n : ℕ} (left : ℕ) {s : State σ C I T V} {call : Call C I T V}
    (hn : s.calls[n]? = some call) (hreads : readsVersions call.request)
    (hleft : call.progress.left ≤ left) :
    ∃ s' : State σ C I T V, ((machine store).startingAt s).ReachableIf (Only n) s' ∧
      ∃ call ∈ s'.calls[n]?, call.progress.isOver := by
  induction left generalizing s call with
  | zero =>
    refine ⟨s, .init rfl, call, hn, ?_⟩
    cases hp : call.progress with
    | ended => rfl
    | failed => rfl
    | _ =>
      rw [hp] at hleft
      cases hleft
  | succ left ih =>
    cases hactive : call.progress.isOver with
    | true => exact ⟨s, .init rfl, call, hn, hactive⟩
    | false =>
      obtain ⟨w', call', hadvance, hlt⟩ :
          ∃ w' call', advance store s.world call = some (w', call') ∧
            call'.progress.left < call.progress.left := exists_advance hreads hactive
      let s' : State σ C I T V := { world := w', calls := s.calls.set n call' }
      have hstep : (machine store).step s (.advance n) = some s' := by
        rw [machine]
        dsimp only
        rw [step, hn, Option.bind_some, hadvance, Option.map_some]
      have hn' : s'.calls[n]? = some call' :=
        List.getElem?_set_self (List.getElem?_eq_some_iff.mp hn).1
      rw [← (advances_of_advance hadvance).1] at hreads
      obtain ⟨s'', hreach, hend⟩ := ih hn' hreads (by omega)
      have honly : Only n s (.advance n : Event C I T V) := rfl
      exact ⟨s'', .trans (.step (.init rfl) honly hstep) hreach, hend⟩

theorem transparent_of_right {s : State σ C I T V} (hright : ∀ k, Right store s.world k) :
    Transparent store s := by
  intro r hreads s' h
  obtain ⟨k, hk⟩ := exists_key_of_readsVersions hreads
  obtain ⟨hstore, call, hn, rfl, hanswers⟩ := later_of_reachableIf hreads hk (hright k) h
  refine ⟨fun call' hn' hover => ?_, exists_over call.progress.left hn hreads le_rfl⟩
  cases hn.symm.trans hn'
  rw [← hstore]
  obtain ⟨request, progress, response⟩ := call
  cases progress with
  | ended => exact hanswers
  | failed => exact hanswers.elim
  | _ => cases hover

/-- In every run in which no call overlaps a writing call of the same id and no step caches
what the store does not hold, the cache is transparent whenever no call is on its way. -/
theorem transparent_of_no_call_in_flight (hstore : store.LawfulVersions) {s : State σ C I T V}
    (h : (machine store).ReachableIf (Allowed store) s)
    (hover : ∀ call ∈ s.calls, call.progress.isOver) : Transparent store s := by
  apply transparent_of_right
  intro k
  refine (consistent_of_reachableIf hstore h).right k fun n c hn hactive => ?_
  rw [hover c (List.mem_of_getElem? hn)] at hactive
  cases hactive

end Later

/-! ## A version that is missing -/

section MissingVersion

/-- Apps have versions, and here they are nothing else. -/
def ir : IdResolver String ℕ ℕ ℕ where
  hasVersions category := category = "apps"
  version v := v
  marshal v := v
  unmarshal _ v := v

def apps : BasePersistenceStore (InMemoryPersistenceStore.Entries String String ℕ ℕ)
    String String ℕ ℕ ℕ := inMemoryPersistenceStore ir

/-- The caches are empty and the store holds the first version of one app. -/
def cold : State (InMemoryPersistenceStore.Entries String String ℕ ℕ) String String ℕ ℕ where
  world :=
    { store := AList.singleton ⟨"apps", "_a", some 1⟩ 1
      versionCache := ∅
      versionedValueCache := ∅ }
  calls := []

theorem reachableIf_started {s : State _ String String ℕ ℕ}
    (h : (machine apps).ReachableIf (Allowed apps) s) {r : Request String String ℕ ℕ}
    (hallowed : Allowed apps s (.start r)) :
    (machine apps).ReachableIf (Allowed apps) (started s r) :=
  .step (e := .start r) h hallowed rfl

theorem reachableIf_advance {s : State _ String String ℕ ℕ}
    (h : (machine apps).ReachableIf (Allowed apps) s) {n : ℕ} {call : Call String String ℕ ℕ}
    (hn : s.calls[n]? = some call) (hsound : Sound apps s.world call.request call.progress)
    {next : World _ String String ℕ ℕ × Call String String ℕ ℕ}
    (hadvance : advance apps s.world call = some next) :
    (machine apps).ReachableIf (Allowed apps)
      { world := next.1, calls := s.calls.set n next.2 } := by
  refine .step (e := .advance n) h ?_ ?_
  · intro call' hcall'
    cases hn.symm.trans hcall'
    exact hsound
  · rw [machine]
    dsimp only
    rw [step, hn, Option.bind_some, hadvance, Option.map_some]

theorem exists_run_store : ∃ s, (machine apps).ReachableIf (Allowed apps) s ∧
    s.calls.all (·.progress.isOver) ∧ (apps.versions s.world.store "apps" "_a" = {1, 2}) := by
  have hinit : (machine apps).Init cold := ⟨rfl, rfl, rfl⟩
  have hstart := reachableIf_started (r := .store "apps" "_a" 2) (.init hinit)
    fun _ hmem => nomatch hmem
  have hstored := reachableIf_advance (n := 0) hstart rfl (fun _ => by decide) rfl
  have hcached := reachableIf_advance (n := 0) hstored rfl trivial rfl
  have hover := reachableIf_advance (n := 0) hcached rfl
    (fun k _ hmem => absurd hmem (AList.notMem_empty k)) rfl
  exact ⟨_, hover, by decide +kernel, by decide +kernel⟩

/-- A store whose caches were cold. -/
theorem exists_transparent_of_store :
    ∃ s, apps.versions s.world.store "apps" "_a" = {1, 2} ∧ Transparent apps s := by
  obtain ⟨s, hs, hover, hversions⟩ := exists_run_store
  refine ⟨s, hversions, transparent_of_no_call_in_flight ?_ hs (List.all_eq_true.mp hover)⟩
  exact InMemoryPersistenceStore.lawfulVersions ir

/-- Whether a call has listed a version. -/
def listed (version : ℕ) : Response String ℕ ℕ → Bool
  | .versions versions => version ∈ versions
  | _ => false

/-- The versions are cached, a version that is missing is read, and from then on it is listed. -/
theorem not_forall_transparent : ¬∀ s, (machine apps).Reachable s →
    (∀ call ∈ s.calls, call.progress.isOver) → Transparent apps s := by
  intro h
  obtain ⟨s, hrun, htest⟩ : ∃ s, (machine apps).run cold
      [.start (.versions "apps" "_a"), .advance 0, .advance 0, .advance 0,
        .start (.getVersion "apps" "_a" 2), .advance 1, .advance 1, .advance 1, .advance 1,
        .advance 1, .advance 1] = some s ∧
      (s.calls.length = 2 && (s.calls.all (·.progress.isOver) &&
        (!listed 2 (apps.component s.world.store (.versions "apps" "_a")).1 &&
          (((machine apps).startingAt (started s (.versions "apps" "_a"))).runIf (Only 2)
            (started s (.versions "apps" "_a")) [.advance 2, .advance 2]).any fun s' =>
              s'.calls[2]?.any fun call => call.progress.isOver && listed 2 call.response))) =
        true :=
    Machine.exists_of_any (by decide +kernel)
  simp only [Bool.and_eq_true, decide_eq_true_eq, Bool.not_eq_true'] at htest
  obtain ⟨hlength, hover, hheld, hlater⟩ := htest
  obtain ⟨s', hrun', hcall⟩ := Machine.exists_of_any hlater
  obtain ⟨call, hget, hend⟩ := Machine.exists_of_any hcall
  obtain ⟨hcallOver, hlisted⟩ := Bool.and_eq_true_iff.mp hend
  have hinit : (machine apps).Init cold := ⟨rfl, rfl, rfl⟩
  have hreach := Machine.reachableIf_of_runIf _ (.init hinit) hrun
  have htransparent := h s hreach (List.all_eq_true.mp hover) (.versions "apps" "_a") rfl s'
  rw [hlength] at htransparent
  have hanswer := (htransparent (Machine.reachableIf_of_runIf _ (.init rfl) hrun')).1 call hget
    hcallOver
  rw [hanswer, hheld] at hlisted
  cases hlisted

end MissingVersion

end Marathon.Storage.LazyVersionCachingPersistentStore
