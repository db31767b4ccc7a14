import Marathon.Lib.Machine
import Marathon.Storage.InMemoryPersistenceStore

/-!
# The cache of versions

A cache of the versions of ids and of the values of versions in front of a store. Calls run
concurrently and take no locks: each access to the store and each access to one of the
two maps is a step of its own, and entries of versions may be purged at any time.
-/

namespace Marathon.Storage.LazyVersionCachingPersistentStore

open Lib

/-- How far a call has come. -/
inductive Progress (T V : Type*)
  | begun
  /-- The cache has an entry for the versions, which is read next. -/
  | found
  /-- The cache has no entry, so that the store is asked next. -/
  | missed
  | listed (children : Finset T)
  /-- The steps of `updateCachedVersions`. -/
  | caching (version : T) (v : Option V)
  | adding (version : T)
  | reading (version : T)
  | putting (version : T) (cached : Finset T)
  /-- The steps that follow a deletion. -/
  | clearingValues
  | clearingVersions
  | ended
  | failed

def Progress.isOver {T V : Type*} : Progress T V → Bool
  | .ended | .failed => true
  | _ => false

/-- A call, and what it returns once it is over. -/
structure Call (C I T V : Type*) where
  request : Request C I T V
  progress : Progress T V
  response : Response I T V

/-- The store and the two caches; values of versions are kept by id and version. -/
structure World (σ C I T V : Type*) where
  store : σ
  versionCache : Dict (C × I) (Finset T)
  versionedValueCache : Dict ((C × I) × T) (Option V)

structure State (σ C I T V : Type*) where
  world : World σ C I T V
  calls : List (Call C I T V)

section Steps

variable {σ C I T V S : Type*} [DecidableEq C] [DecidableEq I] [DecidableEq T]
  (store : BasePersistenceStore σ C I T V S)

/-- What a call does after a request that went through to the store. -/
def afterRequest : Request C I T V → Progress T V
  | .store category _ v =>
    if store.ir.hasVersions category then .caching (store.ir.version v) (some v) else .ended
  | .storeVersion _ _ v version => .caching version (some v)
  | .deleteCurrent category _ =>
    if store.ir.hasVersions category then .clearingValues else .ended
  | .deleteVersion category _ _ =>
    if store.ir.hasVersions category then .clearingValues else .ended
  | .deleteAll category _ =>
    if store.ir.hasVersions category then .clearingValues else .ended
  | _ => .ended

/-- The first step of a call. -/
def ask (w : World σ C I T V) (call : Call C I T V) : World σ C I T V × Call C I T V :=
  match call.request with
  | .get category id =>
    let value := store.get w.store category id
    match value with
    | some v =>
      (w, { call with
        response := .value value
        progress := if store.ir.hasVersions category then
          .caching (store.ir.version v) value else .ended })
    | none => (w, { call with response := .value value, progress := .ended })
  | .getVersion category id version =>
    match w.versionedValueCache.lookup ((category, id), version) with
    | some v => (w, { call with response := .value v, progress := .ended })
    | none => (w, { call with progress := .missed })
  | .versions category id =>
    if (category, id) ∈ w.versionCache then (w, { call with progress := .found })
    else (w, { call with progress := .missed })
  | r =>
    let answer := store.component w.store r
    ({ w with store := answer.2 },
      { call with response := answer.1, progress := afterRequest store r })

/-- The steps of a call on the entries of its id. -/
def update (w : World σ C I T V) (k : C × I) :
    Progress T V → Option (World σ C I T V × Progress T V)
  | .listed children => some ({ w with versionCache := w.versionCache.insert k children }, .ended)
  | .caching version v =>
    some ({ w with versionedValueCache := w.versionedValueCache.insert (k, version) v },
      .adding version)
  | .adding version => some (w, if k ∈ w.versionCache then .reading version else .ended)
  | .reading version => some (w, .putting version ((w.versionCache.lookup k).getD ∅))
  | .putting version cached =>
    -- possible race: there is no way to get/update the value in place
    some ({ w with versionCache := w.versionCache.insert k (insert version cached) }, .ended)
  | .clearingValues =>
    let kept := w.versionedValueCache.retain fun e _ => e.1 ≠ k
    some ({ w with versionedValueCache := kept }, .clearingVersions)
  | .clearingVersions => some ({ w with versionCache := w.versionCache.erase k }, .ended)
  | _ => none

def advance (w : World σ C I T V) (call : Call C I T V) :
    Option (World σ C I T V × Call C I T V) :=
  match call.progress with
  | .begun => some (ask store w call)
  | .found =>
    call.request.key.map fun k =>
      match w.versionCache.lookup k with
      | some versions => (w, { call with response := .versions versions, progress := .ended })
      | none => (w, { call with progress := .failed })
  | .missed =>
    match call.request with
    | .getVersion category id version =>
      let value := store.getVersion w.store category id version
      some (w, { call with response := .value value, progress := .caching version value })
    | .versions category id =>
      let children := store.versions w.store category id
      some (w, { call with response := .versions children, progress := .listed children })
    | _ => none
  | progress =>
    call.request.key.bind fun k =>
      (update w k progress).map fun next => (next.1, { call with progress := next.2 })

inductive Event (C I T V : Type*)
  | start (request : Request C I T V)
  | advance (n : ℕ)
  /-- `maybePurgeCachedVersions` removes the values that are not kept. -/
  | purge (keep : (C × I) × T → Option V → Bool)

def World.purge (w : World σ C I T V) (keep : (C × I) × T → Option V → Bool) :
    World σ C I T V :=
  { w with versionedValueCache := w.versionedValueCache.retain keep }

def step (s : State σ C I T V) : Event C I T V → Option (State σ C I T V)
  | .start request =>
    some { s with calls := s.calls ++ [⟨request, .begun, .done⟩] }
  | .advance n =>
    (s.calls[n]?).bind fun call => (advance store s.world call).map fun next =>
      { world := next.1, calls := s.calls.set n next.2 }
  | .purge keep => some { s with world := s.world.purge keep }

/-- Empty caches in front of a store with content of any kind. -/
def machine : Machine (State σ C I T V) (Event C I T V) where
  Init s := s.calls = [] ∧ s.world.versionCache = ∅ ∧ s.world.versionedValueCache = ∅
  step := step store

end Steps

/-! ## What a step can do -/

section Inversion

variable {σ C I T V S : Type*} [DecidableEq C] [DecidableEq I] [DecidableEq T]
  (store : BasePersistenceStore σ C I T V S)

/-- The steps of a request, with what they make of the world, the progress and the response. -/
inductive Advances (w : World σ C I T V) : Request C I T V → Progress T V → Response I T V →
    World σ C I T V → Progress T V → Response I T V → Prop
  | getSome {c : C} {i : I} {v : V} {r : Response I T V} (hget : store.get w.store c i = some v) :
      Advances w (.get c i) .begun r w
        (if store.ir.hasVersions c then .caching (store.ir.version v) (some v) else .ended)
        (.value (some v))
  | getNone {c : C} {i : I} {r : Response I T V} (hget : store.get w.store c i = none) :
      Advances w (.get c i) .begun r w .ended (.value none)
  | hit {c : C} {i : I} {t : T} {v : Option V} {r : Response I T V}
      (hcached : w.versionedValueCache.lookup ((c, i), t) = some v) :
      Advances w (.getVersion c i t) .begun r w .ended (.value v)
  | miss {c : C} {i : I} {t : T} {r : Response I T V}
      (hcached : w.versionedValueCache.lookup ((c, i), t) = none) :
      Advances w (.getVersion c i t) .begun r w .missed r
  | load (c : C) (i : I) (t : T) (r : Response I T V) :
      Advances w (.getVersion c i t) .missed r w
        (.caching t (store.getVersion w.store c i t)) (.value (store.getVersion w.store c i t))
  | contains {c : C} {i : I} {r : Response I T V} (hcached : (c, i) ∈ w.versionCache) :
      Advances w (.versions c i) .begun r w .found r
  | lacks {c : C} {i : I} {r : Response I T V} (hcached : (c, i) ∉ w.versionCache) :
      Advances w (.versions c i) .begun r w .missed r
  | list (c : C) (i : I) (r : Response I T V) :
      Advances w (.versions c i) .missed r w (.listed (store.versions w.store c i))
        (.versions (store.versions w.store c i))
  | apply {request : Request C I T V} {k : C × I} {versions : Finset T} {r : Response I T V}
      (hk : request.key = some k) (hcached : w.versionCache.lookup k = some versions) :
      Advances w request .found r w .ended (.versions versions)
  | fail {request : Request C I T V} {k : C × I} {r : Response I T V}
      (hk : request.key = some k) (hcached : w.versionCache.lookup k = none) :
      Advances w request .found r w .failed r
  | forward {request : Request C I T V} (hrequest : request.writes ∨ request.key = none)
      (r : Response I T V) :
      Advances w request .begun r { w with store := (store.component w.store request).2 }
        (afterRequest store request) (store.component w.store request).1
  | update {request : Request C I T V} {k : C × I} {p p' : Progress T V} {w' : World σ C I T V}
      (hk : request.key = some k) (hupdate : update w k p = some (w', p')) (r : Response I T V) :
      Advances w request p r w' p' r

variable {store}

theorem advances_of_advance {w w' : World σ C I T V} {call call' : Call C I T V}
    (h : advance store w call = some (w', call')) :
    call'.request = call.request ∧
      Advances store w call.request call.progress call.response w' call'.progress
        call'.response := by
  obtain ⟨request, progress, response⟩ := call
  have hupdate : ∀ {p : Progress T V},
      (request.key.bind fun k => (update w k p).map fun next =>
        (next.1, ({ request := request, progress := next.2, response := response } :
          Call C I T V))) = some (w', call') →
        call'.request = request ∧
          Advances store w request p response w' call'.progress call'.response := by
    intro p h
    obtain ⟨k, hk, hmap⟩ := Option.bind_eq_some_iff.mp h
    obtain ⟨next, hnext, heq⟩ := Option.map_eq_some_iff.mp hmap
    cases heq
    exact ⟨rfl, .update hk hnext response⟩
  cases progress with
  | begun =>
    have hask := Option.some.inj h
    cases request with
    | get c i =>
      rw [ask] at hask
      dsimp only at hask
      cases hget : store.get w.store c i with
      | none =>
        rw [hget] at hask
        cases hask
        exact ⟨rfl, .getNone hget⟩
      | some v =>
        rw [hget] at hask
        cases hask
        exact ⟨rfl, .getSome hget⟩
    | getVersion c i t =>
      rw [ask] at hask
      dsimp only at hask
      cases hcached : w.versionedValueCache.lookup ((c, i), t) with
      | none =>
        rw [hcached] at hask
        cases hask
        exact ⟨rfl, .miss hcached⟩
      | some v =>
        rw [hcached] at hask
        cases hask
        exact ⟨rfl, .hit hcached⟩
    | versions c i =>
      rw [ask] at hask
      dsimp only at hask
      split_ifs at hask with hcached
      · cases hask
        exact ⟨rfl, .contains hcached⟩
      · cases hask
        exact ⟨rfl, .lacks hcached⟩
    | ids c =>
      cases hask
      exact ⟨rfl, .forward (.inr rfl) _⟩
    | getVersions c list =>
      cases hask
      exact ⟨rfl, .forward (.inr rfl) _⟩
    | store c i v =>
      cases hask
      exact ⟨rfl, .forward (.inl rfl) _⟩
    | storeVersion c i v t =>
      cases hask
      exact ⟨rfl, .forward (.inl rfl) _⟩
    | deleteCurrent c i =>
      cases hask
      exact ⟨rfl, .forward (.inl rfl) _⟩
    | deleteVersion c i t =>
      cases hask
      exact ⟨rfl, .forward (.inl rfl) _⟩
    | deleteAll c i =>
      cases hask
      exact ⟨rfl, .forward (.inl rfl) _⟩
  | found =>
    obtain ⟨k, hk, heq⟩ := Option.map_eq_some_iff.mp h
    dsimp only at hk heq ⊢
    cases hcached : w.versionCache.lookup k with
    | none =>
      rw [hcached] at heq
      cases heq
      exact ⟨rfl, .fail hk hcached⟩
    | some versions =>
      rw [hcached] at heq
      cases heq
      exact ⟨rfl, .apply hk hcached⟩
  | missed =>
    cases request with
    | getVersion c i t =>
      cases h
      exact ⟨rfl, .load c i t response⟩
    | versions c i =>
      cases h
      exact ⟨rfl, .list c i response⟩
    | _ => cases h
  | _ => exact hupdate h

end Inversion

/-! ## What the caches hold of an id -/

section Consistency

variable {σ C I T V S : Type*} [DecidableEq C] [DecidableEq I] [DecidableEq T]
  (store : BasePersistenceStore σ C I T V S) (w : World σ C I T V) (k : C × I)

/-- The value that the store holds of a version. -/
def held (t : T) : Option V := store.getVersion w.store k.1 k.2 t

/-- The versions that the store holds. -/
def heldVersions : Finset T := store.versions w.store k.1 k.2

/-- What is cached of an id is what the store holds. -/
structure Right : Prop where
  values : ∀ t v, w.versionedValueCache.lookup (k, t) = some v → v = held store w k t
  versions : ∀ versions, w.versionCache.lookup k = some versions → versions = heldVersions store w k

/-- The cached versions miss nothing but `t`. -/
def Misses (t : T) : Prop :=
  ∀ versions, w.versionCache.lookup k = some versions → insert t versions = heldVersions store w k

/-- What a call that only reads has in hand. -/
def ReaderFits : Progress T V → Prop
  | .found => k ∈ w.versionCache
  | .listed children => children = heldVersions store w k
  | .caching t v => v = held store w k t
  | .reading t => k ∈ w.versionCache ∧ t ∈ heldVersions store w k
  | .putting t cached => insert t cached = heldVersions store w k
  | .clearingValues => False
  | .clearingVersions => False
  | _ => True

/-- What the caches hold while a call that writes is on its way. -/
def WriterFits : Progress T V → Prop
  | .begun => Right store w k
  | .ended => Right store w k
  | .caching t v =>
    v = held store w k t ∧ Misses store w k t ∧
      ∀ t' v', t' ≠ t → w.versionedValueCache.lookup (k, t') = some v' → v' = held store w k t'
  | .adding t =>
    (∀ t v, w.versionedValueCache.lookup (k, t) = some v → v = held store w k t) ∧
      Misses store w k t
  | .reading t =>
    (∀ t v, w.versionedValueCache.lookup (k, t) = some v → v = held store w k t) ∧
      Misses store w k t ∧ k ∈ w.versionCache
  | .putting t cached =>
    (∀ t v, w.versionedValueCache.lookup (k, t) = some v → v = held store w k t) ∧
      insert t cached = heldVersions store w k
  | .clearingValues => True
  | .clearingVersions => ∀ t, w.versionedValueCache.lookup (k, t) = none
  | _ => False

/-- Nothing changes about an id, except that values may go from the cache. -/
structure Shrinks (w w' : World σ C I T V) : Prop where
  values : ∀ t v, w'.versionedValueCache.lookup (k, t) = some v →
    w.versionedValueCache.lookup (k, t) = some v
  versions : w'.versionCache.lookup k = w.versionCache.lookup k
  held : ∀ t, held store w' k t = held store w k t
  heldVersions : heldVersions store w' k = heldVersions store w k

variable {store k} {w w' : World σ C I T V}

namespace Shrinks

variable (h : Shrinks store k w w')

include h

theorem mem_iff : k ∈ w'.versionCache ↔ k ∈ w.versionCache := by
  rw [← AList.lookup_isSome, h.versions, AList.lookup_isSome]

theorem right (hw : Right store w k) : Right store w' k where
  values t v hv := (hw.values t v (h.values t v hv)).trans (h.held t).symm
  versions versions hv := by
    rw [h.versions] at hv
    exact (hw.versions versions hv).trans h.heldVersions.symm

theorem misses {t : T} (hw : Misses store w k t) : Misses store w' k t := by
  intro versions hv
  rw [h.versions] at hv
  exact (hw versions hv).trans h.heldVersions.symm

theorem values_right
    (hw : ∀ t v, w.versionedValueCache.lookup (k, t) = some v → v = LazyVersionCachingPersistentStore.held store w k t) :
    ∀ t v, w'.versionedValueCache.lookup (k, t) = some v →
      v = LazyVersionCachingPersistentStore.held store w' k t :=
  fun t v hv => (hw t v (h.values t v hv)).trans (h.held t).symm

theorem readerFits {p : Progress T V} (hw : ReaderFits store w k p) : ReaderFits store w' k p := by
  cases p with
  | found => exact h.mem_iff.mpr hw
  | listed children => exact Eq.trans hw h.heldVersions.symm
  | caching t v => exact Eq.trans hw (h.held t).symm
  | reading t => exact ⟨h.mem_iff.mpr hw.1, h.heldVersions ▸ hw.2⟩
  | putting t cached => exact Eq.trans hw h.heldVersions.symm
  | _ => exact hw

theorem writerFits {p : Progress T V} (hw : WriterFits store w k p) : WriterFits store w' k p := by
  cases p with
  | begun => exact h.right hw
  | ended => exact h.right hw
  | caching t v =>
    refine ⟨hw.1.trans (h.held t).symm, h.misses hw.2.1, fun t' v' hne hv => ?_⟩
    exact (hw.2.2 t' v' hne (h.values t' v' hv)).trans (h.held t').symm
  | adding t => exact ⟨h.values_right hw.1, h.misses hw.2⟩
  | reading t => exact ⟨h.values_right hw.1, h.misses hw.2.1, h.mem_iff.mpr hw.2.2⟩
  | putting t cached => exact ⟨h.values_right hw.1, hw.2.trans h.heldVersions.symm⟩
  | clearingVersions =>
    intro t
    by_contra hne
    obtain ⟨v, hv⟩ := Option.ne_none_iff_exists'.mp hne
    have hnone := hw t
    rw [h.values t v hv] at hnone
    cases hnone
  | _ => exact hw

end Shrinks

theorem shrinks_refl : Shrinks store k w w := ⟨fun _ _ h => h, rfl, fun _ => rfl, rfl⟩

theorem shrinks_purge (keep : (C × I) × T → Option V → Bool) :
    Shrinks store k w (w.purge keep) where
  values t v hv := by
    rw [World.purge, Dict.lookup_retain] at hv
    exact (Option.filter_eq_some_iff.mp hv).1
  versions := rfl
  held _ := rfl
  heldVersions := rfl

theorem shrinks_of_update {k' : C × I} {p p' : Progress T V} (hne : k ≠ k')
    (h : update w k' p = some (w', p')) : Shrinks store k w w' := by
  have hversions : ∀ versions, (w.versionCache.insert k' versions).lookup k = w.versionCache.lookup k :=
    fun _ => AList.lookup_insert_ne hne
  cases p with
  | listed children =>
    cases h
    exact ⟨fun _ _ h => h, hversions _, fun _ => rfl, rfl⟩
  | caching version v =>
    cases h
    refine ⟨fun t v' hv => ?_, rfl, fun _ => rfl, rfl⟩
    rwa [AList.lookup_insert_ne fun heq => hne (Prod.mk.inj heq).1] at hv
  | adding version =>
    cases h
    exact shrinks_refl
  | reading version =>
    cases h
    exact shrinks_refl
  | putting version cached =>
    cases h
    exact ⟨fun _ _ h => h, hversions _, fun _ => rfl, rfl⟩
  | clearingValues =>
    cases h
    refine ⟨fun t v hv => ?_, rfl, fun _ => rfl, rfl⟩
    rw [Dict.lookup_retain] at hv
    exact (Option.filter_eq_some_iff.mp hv).1
  | clearingVersions =>
    cases h
    exact ⟨fun _ _ h => h, AList.lookup_erase_ne hne, fun _ => rfl, rfl⟩
  | _ => cases h

theorem shrinks_of_advances (hstore : store.LawfulVersions) {request : Request C I T V}
    {p p' : Progress T V} {r r' : Response I T V}
    (h : Advances store w request p r w' p' r') (hne : request.key ≠ some k) :
    Shrinks store k w w' := by
  cases h with
  | forward hrequest r =>
    have hheld : ∀ t, store.getVersion (store.component w.store request).2 k.1 k.2 t =
        store.getVersion w.store k.1 k.2 t := fun t => hstore.getVersion_component_of_ne hne
    exact ⟨fun _ _ h => h, rfl, hheld, hstore.versions_eq hheld⟩
  | update hk hupdate r => exact shrinks_of_update (fun heq => hne (heq ▸ hk)) hupdate
  | _ => exact shrinks_refl

/-! ## Steps on an id -/

/-- Whether what a call is about to do leaves the caches right when nothing else goes on: a
current value is also held under its version, a value that is stored is read back, a deletion
without versions takes nothing that is cached, and only versions that are held are added. -/
def Sound (store : BasePersistenceStore σ C I T V S) (w : World σ C I T V)
    (request : Request C I T V) : Progress T V → Prop
  | .begun =>
    match request with
    | .get category id =>
      ∀ v, store.get w.store category id = some v → store.ir.hasVersions category →
        store.getVersion w.store category id (store.ir.version v) = some v
    | .store category id v =>
      store.ir.hasVersions category →
        store.getVersion (store.component w.store request).2 category id
          (store.ir.version v) = some v
    | .storeVersion category id v version =>
      store.getVersion (store.component w.store request).2 category id version = some v
    | request =>
      request.isDelete → ∀ category id, request.key = some (category, id) →
        store.ir.hasVersions category ∨
          (∀ version v,
            w.versionedValueCache.lookup ((category, id), version) = some (some v) →
              version ∈ store.versions (store.component w.store request).2 category id) ∧
          ((category, id) ∈ w.versionCache →
            store.versions (store.component w.store request).2 category id =
              store.versions w.store category id)
  | .adding version => ∀ k, request.key = some k → k ∈ w.versionCache →
    version ∈ store.versions w.store k.1 k.2
  | _ => True

theorem values_insert {t : T} {v : Option V} (hv : v = held store w k t)
    (hvalues : ∀ t' v', t' ≠ t → w.versionedValueCache.lookup (k, t') = some v' →
      v' = held store w k t') :
    ∀ t' v', (w.versionedValueCache.insert (k, t) v).lookup (k, t') = some v' →
      v' = held store w k t' := by
  intro t' v' hlookup
  rcases Dict.lookup_insert_eq_some.mp hlookup with ⟨heq, rfl⟩ | ⟨hne, hlookup⟩
  · obtain rfl : t' = t := (Prod.mk.inj heq).2
    exact hv
  · exact hvalues t' v' (fun heq => hne (heq ▸ rfl)) hlookup

omit [DecidableEq T] in
theorem versions_insert {versions : Finset T} (h : versions = heldVersions store w k) :
    ∀ versions', (w.versionCache.insert k versions).lookup k = some versions' →
      versions' = heldVersions store w k := by
  intro versions' hlookup
  rw [AList.lookup_insert] at hlookup
  exact (Option.some.inj hlookup).symm.trans h

section Step

variable {request : Request C I T V} {p p' : Progress T V} {r r' : Response I T V}

theorem reader_update (hright : Right store w k) (hfits : ReaderFits store w k p)
    (hk : request.key = some k) (hsound : Sound store w request p)
    (h : update w k p = some (w', p')) :
    w'.store = w.store ∧ Right store w' k ∧ ReaderFits store w' k p' ∧
      (k ∈ w.versionCache → k ∈ w'.versionCache) := by
  have hkept : ∀ versions, k ∈ w.versionCache → k ∈ w.versionCache.insert k versions :=
    fun _ hmem => (AList.mem_insert _).mpr (.inr hmem)
  cases p with
  | listed children =>
    cases h
    exact ⟨rfl, ⟨hright.values, versions_insert hfits⟩, trivial, hkept _⟩
  | caching t v =>
    cases h
    have hvalues := values_insert hfits fun t' v' _ => hright.values t' v'
    exact ⟨rfl, ⟨hvalues, hright.versions⟩, trivial, fun h => h⟩
  | adding t =>
    cases h
    refine ⟨rfl, hright, ?_, fun h => h⟩
    split_ifs with hmem
    · exact ⟨hmem, hsound k hk hmem⟩
    · trivial
  | reading t =>
    cases h
    obtain ⟨versions, hversions⟩ := Option.isSome_iff_exists.mp (AList.lookup_isSome.mpr hfits.1)
    refine ⟨rfl, hright, ?_, fun h => h⟩
    rw [hversions, Option.getD_some, hright.versions versions hversions]
    exact Finset.insert_eq_of_mem hfits.2
  | putting t cached =>
    cases h
    exact ⟨rfl, ⟨hright.values, versions_insert hfits⟩, trivial, hkept _⟩
  | clearingValues => exact hfits.elim
  | clearingVersions => exact hfits.elim
  | _ => cases h

/-- What a call that only reads caches of an id is what the store holds. -/
theorem reader_step (hright : Right store w k) (hfits : ReaderFits store w k p)
    (hk : request.key = some k) (hread : ¬request.writes) (hsound : Sound store w request p)
    (h : Advances store w request p r w' p' r') :
    w'.store = w.store ∧ Right store w' k ∧ ReaderFits store w' k p' ∧
      (k ∈ w.versionCache → k ∈ w'.versionCache) := by
  cases h with
  | @getSome c i v r hget =>
    cases hk
    refine ⟨rfl, hright, ?_, fun h => h⟩
    split_ifs with hversions
    · exact (hsound v hget hversions).symm
    · trivial
  | getNone hget => exact ⟨rfl, hright, trivial, fun h => h⟩
  | hit hcached => exact ⟨rfl, hright, trivial, fun h => h⟩
  | miss hcached => exact ⟨rfl, hright, trivial, fun h => h⟩
  | load c i t r =>
    cases hk
    exact ⟨rfl, hright, rfl, fun h => h⟩
  | @contains c i r hcached =>
    cases hk
    exact ⟨rfl, hright, hcached, fun h => h⟩
  | lacks hcached => exact ⟨rfl, hright, trivial, fun h => h⟩
  | list c i r =>
    cases hk
    exact ⟨rfl, hright, rfl, fun h => h⟩
  | apply hk' hcached => exact ⟨rfl, hright, trivial, fun h => h⟩
  | fail hk' hcached => exact ⟨rfl, hright, trivial, fun h => h⟩
  | forward hrequest r =>
    rcases hrequest with hwrites | hnone
    · exact absurd hwrites hread
    · rw [hnone] at hk
      cases hk
  | @update _ k' _ _ _ hk' hupdate _ =>
    cases hk'.symm.trans hk
    exact reader_update hright hfits hk hsound hupdate

theorem writer_update (hfits : WriterFits store w k p) (h : update w k p = some (w', p')) :
    WriterFits store w' k p' := by
  cases p with
  | listed children => exact hfits.elim
  | caching t v =>
    cases h
    exact ⟨values_insert hfits.1 hfits.2.2, hfits.2.1⟩
  | adding t =>
    cases h
    split_ifs with hmem
    · exact ⟨hfits.1, hfits.2, hmem⟩
    · refine ⟨hfits.1, fun versions hv => ?_⟩
      rw [AList.lookup_eq_none.mpr hmem] at hv
      cases hv
  | reading t =>
    cases h
    obtain ⟨hvalues, hmisses, hmem⟩ := hfits
    obtain ⟨versions, hversions⟩ := Option.isSome_iff_exists.mp (AList.lookup_isSome.mpr hmem)
    refine ⟨hvalues, ?_⟩
    rw [hversions, Option.getD_some]
    exact hmisses versions hversions
  | putting t cached =>
    cases h
    exact ⟨hfits.1, versions_insert hfits.2⟩
  | clearingValues =>
    cases h
    intro t
    rw [Dict.lookup_retain, Option.filter_eq_none_iff]
    intro v _
    simp
  | clearingVersions =>
    cases h
    constructor
    · intro t v hv
      have hnone := hfits t
      rw [hv] at hnone
      cases hnone
    · intro versions hv
      rw [AList.lookup_erase] at hv
      cases hv
  | _ => cases h

theorem writerFits_caching (hstore : store.LawfulVersions) (hright : Right store w k) {s' : σ}
    {t : T} {v : V} (hheld : store.getVersion s' k.1 k.2 t = some v)
    (hothers : ∀ t', t' ≠ t →
      store.getVersion s' k.1 k.2 t' = store.getVersion w.store k.1 k.2 t') :
    WriterFits store { w with store := s' } k (.caching t (some v)) := by
  refine ⟨hheld.symm, ?_, ?_⟩
  · intro versions hversions
    rw [hright.versions versions hversions]
    ext t'
    rw [Finset.mem_insert]
    refine Iff.trans ?_ hstore.mem_versions.symm
    by_cases ht : t' = t
    · rw [ht, hheld]
      exact iff_of_true (.inl rfl) rfl
    · rw [hothers t' ht]
      exact (or_iff_right ht).trans hstore.mem_versions
  · intro t' v' hne hlookup
    exact (hright.values t' v' hlookup).trans (hothers t' hne).symm

theorem right_of_getVersion_eq (hstore : store.LawfulVersions) (hright : Right store w k) {s' : σ}
    (hsame : ∀ t, store.getVersion s' k.1 k.2 t = store.getVersion w.store k.1 k.2 t) :
    Right store { w with store := s' } k := by
  have hshrinks : Shrinks store k w { w with store := s' } :=
    ⟨fun _ _ h => h, rfl, hsame, hstore.versions_eq hsame⟩
  exact hshrinks.right hright

theorem right_of_delete (hstore : store.LawfulVersions) (hright : Right store w k)
    (hdelete : request.isDelete)
    (hvalues : ∀ t v, w.versionedValueCache.lookup (k, t) = some (some v) →
      t ∈ store.versions (store.component w.store request).2 k.1 k.2)
    (hversions : k ∈ w.versionCache →
      store.versions (store.component w.store request).2 k.1 k.2 =
        store.versions w.store k.1 k.2) :
    Right store { w with store := (store.component w.store request).2 } k := by
  constructor
  · intro t v hlookup
    have hold := hright.values t v hlookup
    have hcases : store.getVersion (store.component w.store request).2 k.1 k.2 t =
          store.getVersion w.store k.1 k.2 t ∨ request.key = some (k.1, k.2) ∧
        store.getVersion (store.component w.store request).2 k.1 k.2 t = none :=
      hstore.getVersion_delete hdelete
    rcases hcases with hsame | ⟨-, hgone⟩
    · exact hold.trans hsame.symm
    · cases v with
      | none => exact hgone.symm
      | some v =>
        have hmem := hstore.mem_versions.mp (hvalues t v hlookup)
        rw [hgone] at hmem
        cases hmem
  · intro versions hlookup
    have hmem : k ∈ w.versionCache :=
      AList.lookup_isSome.mp (Option.isSome_iff_exists.mpr ⟨versions, hlookup⟩)
    exact (hright.versions versions hlookup).trans (hversions hmem).symm

theorem writer_forward (hstore : store.LawfulVersions) (hright : Right store w k)
    (hk : request.key = some k) (hwrites : request.writes) (hsound : Sound store w request .begun) :
    WriterFits store { w with store := (store.component w.store request).2 } k
      (afterRequest store request) := by
  have hdeletes : ∀ {c i}, k = (c, i) → request.isDelete →
      (store.ir.hasVersions c ∨
        (∀ t v, w.versionedValueCache.lookup ((c, i), t) = some (some v) →
          t ∈ store.versions (store.component w.store request).2 c i) ∧
        ((c, i) ∈ w.versionCache → store.versions (store.component w.store request).2 c i =
          store.versions w.store c i)) →
      WriterFits store { w with store := (store.component w.store request).2 } k
        (if store.ir.hasVersions c then .clearingValues else .ended) := by
    rintro c i rfl hdelete hcached
    split_ifs with hversions
    · trivial
    · obtain ⟨hvalues, hlisted⟩ := hcached.resolve_left hversions
      exact right_of_delete hstore hright hdelete hvalues hlisted
  cases request with
  | store c i v =>
    cases hk
    rw [afterRequest]
    split_ifs with hversions
    · apply writerFits_caching hstore hright (hsound hversions)
      exact fun t' hne => hstore.getVersion_storeCurrent (.inl fun _ => hne)
    · apply right_of_getVersion_eq hstore hright
      exact fun t' => hstore.getVersion_storeCurrent (.inl fun h => absurd h hversions)
  | storeVersion c i v t =>
    cases hk
    apply writerFits_caching hstore hright hsound
    exact fun t' hne => hstore.getVersion_storeVersion (.inl hne)
  | deleteCurrent c i => exact hdeletes (Option.some.inj hk).symm rfl (hsound rfl c i rfl)
  | deleteVersion c i t => exact hdeletes (Option.some.inj hk).symm rfl (hsound rfl c i rfl)
  | deleteAll c i => exact hdeletes (Option.some.inj hk).symm rfl (hsound rfl c i rfl)
  | _ => cases hwrites

/-- A call that writes carries what the caches hold of its id through to its end. -/
theorem writer_step (hstore : store.LawfulVersions) (hfits : WriterFits store w k p)
    (hk : request.key = some k) (hwrites : request.writes) (hsound : Sound store w request p)
    (h : Advances store w request p r w' p' r') : WriterFits store w' k p' := by
  cases h with
  | forward hrequest r => exact writer_forward hstore hfits hk hwrites hsound
  | @update _ k' _ _ _ hk' hupdate _ =>
    cases hk'.symm.trans hk
    exact writer_update hfits hupdate
  | apply hk' hcached => exact hfits.elim
  | fail hk' hcached => exact hfits.elim
  | _ => cases hwrites

end Step

end Consistency

end Marathon.Storage.LazyVersionCachingPersistentStore
