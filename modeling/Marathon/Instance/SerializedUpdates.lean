import Marathon.Instance.InstanceTrackerActor
import Marathon.Instance.LiveTasks

/-!
# The order of the persisted effects

Each persisted effect of an instance is computed from what the effect before it has left, as
long as no ask times out while its effect is being persisted.
-/

namespace Marathon.Tracking

open Lib

/-! ## Chains of effects -/

def Resolved.instanceId (r : Resolved) : InstanceId := r.update.instanceId

/-- What the persisted effects leave of an instance. -/
def left (stored : InstancesBySpec) (persisted : List Resolved) (id : InstanceId) :
    Option Instance :=
  persisted.foldl (fun i r => if r.instanceId = id then r.effect.applyTo i else i)
    (stored.lookup id)

/-- Every persisted effect is computed by the resolver from what the effects before it leave. -/
def Serialized (stored : InstancesBySpec) (persisted : List Resolved) : Prop :=
  ∀ before r after, persisted = before ++ r :: after →
    r.base = left stored before r.instanceId ∧
      ∃ clock, InstanceUpdateOpResolver.resolve clock r.base r.update.operation = .ok r.effect

variable {stored : InstancesBySpec} {persisted : List Resolved}

theorem left_append (r : Resolved) (id : InstanceId) :
    left stored (persisted ++ [r]) id =
      if r.instanceId = id then r.effect.applyTo (left stored persisted id)
      else left stored persisted id := by
  rw [left, List.foldl_append]
  rfl

variable {clock : Timestamp} {w w' : Write} {g ask : ℕ} {s' : State}

theorem Serialized.append (h : Serialized stored persisted) {r : Resolved}
    (hbase : r.base = left stored persisted r.instanceId)
    (hresolve : InstanceUpdateOpResolver.resolve clock r.base r.update.operation = .ok r.effect) :
    Serialized stored (persisted ++ [r]) := by
  intro before r' after heq
  rcases List.append_eq_append_iff.mp heq with ⟨middle, hbefore, htail⟩ | ⟨middle, hper, htail⟩
  · cases middle with
    | nil =>
      cases htail
      rw [List.append_nil] at hbefore
      rw [hbefore]
      exact ⟨hbase, clock, hresolve⟩
    | cons r'' middle =>
      have hnil := (List.cons.inj htail).2
      cases middle <;> cases hnil
  · cases middle with
    | nil =>
      cases htail
      rw [List.append_nil] at hper
      rw [← hper]
      exact ⟨hbase, clock, hresolve⟩
    | cons r'' middle =>
      cases htail
      exact h before r' middle hper

/-! ## Changes that are under way -/

/-- The memory, the persisted effects and the changes under way, at most one for an instance:
its effect is computed from the memory, and the memory lags behind when it has been written. -/
structure Consistent (stored instances : InstancesBySpec) (persisted : List Resolved)
    (pending : List Write) : Prop where
  distinct : (pending.map fun w => w.resolved.instanceId).Nodup
  base : ∀ w ∈ pending, w.resolved.base = instances.lookup w.resolved.instanceId
  resolve : ∀ w ∈ pending, ∃ clock, InstanceUpdateOpResolver.resolve clock w.resolved.base
    w.resolved.update.operation = .ok w.resolved.effect
  left : ∀ w ∈ pending, left stored persisted w.resolved.instanceId =
    if w.done then w.resolved.effect.applyTo w.resolved.base else w.resolved.base
  settled : ∀ id, (∀ w ∈ pending, w.resolved.instanceId ≠ id) →
    Tracking.left stored persisted id = instances.lookup id
  serialized : Serialized stored persisted

namespace Consistent

variable {instances : InstancesBySpec} {pending : List Write}

theorem perm {pending' : List Write} (h : Consistent stored instances persisted pending)
    (hperm : pending.Perm pending') : Consistent stored instances persisted pending' where
  distinct := (hperm.map _).nodup_iff.mp h.distinct
  base w hw := h.base w (hperm.mem_iff.mpr hw)
  resolve w hw := h.resolve w (hperm.mem_iff.mpr hw)
  left w hw := h.left w (hperm.mem_iff.mpr hw)
  settled id hid := h.settled id fun w hw => hid w (hperm.mem_iff.mp hw)
  serialized := h.serialized

/-- An effect that the resolver computes from the memory, for an instance with no change. -/
theorem begin (h : Consistent stored instances persisted pending)
    (hnew : ∀ w' ∈ pending, w'.resolved.instanceId ≠ w.resolved.instanceId)
    (hbase : w.resolved.base = instances.lookup w.resolved.instanceId)
    (hresolve : InstanceUpdateOpResolver.resolve clock w.resolved.base
      w.resolved.update.operation = .ok w.resolved.effect) (hdone : w.done = false) :
    Consistent stored instances persisted (w :: pending) where
  distinct := by
    rw [List.map_cons, List.nodup_cons]
    refine ⟨?_, h.distinct⟩
    intro hmem
    obtain ⟨w', hw', heq⟩ := List.mem_map.mp hmem
    exact hnew w' hw' heq
  base := List.forall_mem_cons.mpr ⟨hbase, h.base⟩
  resolve := List.forall_mem_cons.mpr ⟨⟨clock, hresolve⟩, h.resolve⟩
  left := by
    refine List.forall_mem_cons.mpr ⟨?_, h.left⟩
    rw [hdone, if_neg Bool.false_ne_true, hbase]
    exact h.settled _ hnew
  settled id hid := h.settled id fun w' hw' => hid w' (List.mem_cons_of_mem _ hw')
  serialized := h.serialized

theorem ne_of_mem (h : Consistent stored instances persisted (w :: pending))
    (hw' : w' ∈ pending) : w.resolved.instanceId ≠ w'.resolved.instanceId := by
  intro heq
  have hnodup := h.distinct
  rw [List.map_cons, List.nodup_cons] at hnodup
  exact hnodup.1 (heq ▸ List.mem_map_of_mem hw')

/-- The effect of a change is persisted. -/
theorem write (h : Consistent stored instances persisted (w :: pending)) (hdone : w.done = false) :
    Consistent stored instances (persisted ++ [w.resolved]) ({ w with done := true } :: pending) where
  distinct := h.distinct
  base := List.forall_mem_cons.mpr ⟨h.base w List.mem_cons_self,
    fun w' hw' => h.base w' (List.mem_cons_of_mem _ hw')⟩
  resolve := List.forall_mem_cons.mpr ⟨h.resolve w List.mem_cons_self,
    fun w' hw' => h.resolve w' (List.mem_cons_of_mem _ hw')⟩
  left := by
    have hw := h.left w List.mem_cons_self
    rw [hdone, if_neg Bool.false_ne_true] at hw
    refine List.forall_mem_cons.mpr ⟨?_, ?_⟩
    · rw [left_append, if_pos rfl, if_pos rfl, hw]
    · intro w' hw'
      rw [left_append, if_neg (h.ne_of_mem hw')]
      exact h.left w' (List.mem_cons_of_mem _ hw')
  settled id hid := by
    have hne : w.resolved.instanceId ≠ id := hid { w with done := true } List.mem_cons_self
    rw [left_append, if_neg hne]
    apply h.settled
    exact List.forall_mem_cons.mpr ⟨hne, fun w' hw' => hid w' (List.mem_cons_of_mem _ hw')⟩
  serialized := by
    have hw := h.left w List.mem_cons_self
    rw [hdone, if_neg Bool.false_ne_true] at hw
    obtain ⟨clock, hresolve⟩ := h.resolve w List.mem_cons_self
    exact h.serialized.append hw.symm hresolve

/-- A change that has not been written is given up. -/
theorem fail (h : Consistent stored instances persisted (w :: pending))
    (hdone : w.done = false) : Consistent stored instances persisted pending where
  distinct := (List.nodup_cons.mp h.distinct).2
  base w' hw' := h.base w' (List.mem_cons_of_mem _ hw')
  resolve w' hw' := h.resolve w' (List.mem_cons_of_mem _ hw')
  left w' hw' := h.left w' (List.mem_cons_of_mem _ hw')
  settled id hid := by
    by_cases heq : w.resolved.instanceId = id
    · have hw := h.left w List.mem_cons_self
      rw [hdone, if_neg Bool.false_ne_true, h.base w List.mem_cons_self] at hw
      rwa [← heq]
    · exact h.settled id (List.forall_mem_cons.mpr ⟨heq, hid⟩)
  serialized := h.serialized

/-- The memory takes over what has been written. -/
theorem apply (h : Consistent stored instances persisted (w :: pending))
    (hdone : w.done = true) (hconcerns : w.resolved.effect.Concerns w.resolved.instanceId) :
    Consistent stored (instances.update w.resolved.effect) persisted pending where
  distinct := (List.nodup_cons.mp h.distinct).2
  base w' hw' := by
    rw [instances.lookup_update hconcerns, if_neg (h.ne_of_mem hw').symm]
    exact h.base w' (List.mem_cons_of_mem _ hw')
  resolve w' hw' := h.resolve w' (List.mem_cons_of_mem _ hw')
  left w' hw' := h.left w' (List.mem_cons_of_mem _ hw')
  settled id hid := by
    rw [instances.lookup_update hconcerns]
    by_cases heq : id = w.resolved.instanceId
    · have hw := h.left w List.mem_cons_self
      rw [hdone, if_pos rfl, h.base w List.mem_cons_self] at hw
      rw [if_pos heq, heq, hw]
    · rw [if_neg heq]
      exact h.settled id (List.forall_mem_cons.mpr ⟨Ne.symm heq, hid⟩)
  serialized := h.serialized

end Consistent

/-! ## The changes under way in the actor and the repository -/

/-- A message that the actor will take a written effect over by. -/
def Message.pending : Message → Option Write
  | .repositoryStateUpdated ask resolved =>
    if resolved.effect.changes then some ⟨ask, resolved, true⟩ else none
  | .update .. => none

namespace State

def pending (s : State) : List Write := s.writes ++ s.mailbox.filterMap Message.pending

/-- The asks that are being answered. -/
def tokens (s : State) : List ℕ :=
  s.writes.map Write.ask ++ (s.mailbox.map Message.ask ++ s.replies)

end State

/-- No ask times out while an effect of its update is being persisted or taken over. -/
def KeepsWaiting (s : State) : Event → Prop
  | .timeout g => ∀ a ∈ s.asks g, ∀ w ∈ s.pending, w.ask ≠ a.number
  | _ => True

instance (s : State) (e : Event) : Decidable (KeepsWaiting s e) :=
  match e with
  | .timeout g => inferInstanceAs (Decidable (∀ a ∈ s.asks g, ∀ w ∈ s.pending, w.ask ≠ a.number))
  | .tick _ | .submit _ | .send _ | .reply _ | .handle | .write _ | .complete _ | .fail _ =>
    isTrue trivial

variable {config : Config}

/-- What holds as long as every ask keeps waiting for its effect. -/
structure Inv (config : Config) (stored : InstancesBySpec) (s : State) : Prop where
  tokensNodup : s.tokens.Nodup
  tokens_lt : ∀ ask ∈ s.tokens, ask < s.nextAsk
  consistent : Consistent stored s.instances s.persisted s.pending
  stored_eq : ∀ id, s.stored.lookup id = left stored s.persisted id
  pendingWaits : ∀ w ∈ s.pending, ∃ a,
    s.asks (config.substream w.resolved.update.appId) = some a ∧ a.number = w.ask
  updatesWait : ∀ ask u, .update ask u ∈ s.mailbox →
    (∃ a, s.asks (config.substream u.appId) = some a ∧ a.number = ask ∧
      u.deadline ≤ a.sent.plus config.timeout) ∨ u.deadline ≤ s.clock
  queued : ∀ g, ∀ u ∈ s.queues g,
    config.substream u.appId = g ∧ u.deadline ≤ s.clock.plus config.timeout

theorem mem_tokens_of_mem_pending {s : State} (h : w ∈ s.pending) :
    w.ask ∈ s.writes.map Write.ask ∨ w.ask ∈ s.mailbox.map Message.ask := by
  rcases List.mem_append.mp h with hw | hm
  · exact .inl (List.mem_map_of_mem hw)
  · right
    obtain ⟨m, hmem, hpending⟩ := List.mem_filterMap.mp hm
    cases m with
    | update => cases hpending
    | repositoryStateUpdated ask resolved =>
      rw [Message.pending] at hpending
      split_ifs at hpending
      cases hpending
      show ask ∈ s.mailbox.map Message.ask
      exact List.mem_map.mpr ⟨.repositoryStateUpdated ask resolved, hmem, rfl⟩

namespace Inv

variable {s : State}

theorem concerns (h : Inv config stored s) (hw : w ∈ s.pending) :
    w.resolved.effect.Concerns w.resolved.instanceId := by
  obtain ⟨clock, hresolve⟩ := h.consistent.resolve w hw
  apply InstanceUpdateEffect.concerns_resolve _ hresolve
  rw [h.consistent.base w hw]
  exact fun i hi => Keyed.key_of_lookup hi

theorem initial (clock : Timestamp) : Inv config stored (.initial clock stored) where
  tokensNodup := List.nodup_nil
  tokens_lt ask hask := absurd hask List.not_mem_nil
  consistent :=
    { distinct := List.nodup_nil
      base := fun w hw => absurd hw List.not_mem_nil
      resolve := fun w hw => absurd hw List.not_mem_nil
      left := fun w hw => absurd hw List.not_mem_nil
      settled := fun id _ => rfl
      serialized := by
        intro before r after heq
        cases before <;> cases heq }
  stored_eq id := rfl
  pendingWaits w hw := absurd hw List.not_mem_nil
  updatesWait ask u hu := absurd hu List.not_mem_nil
  queued g u hu := absurd hu List.not_mem_nil

theorem tick (h : Inv config stored s) (hle : s.clock ≤ clock) :
    Inv config stored { s with clock := clock } where
  tokensNodup := h.tokensNodup
  tokens_lt := h.tokens_lt
  consistent := h.consistent
  stored_eq := h.stored_eq
  pendingWaits := h.pendingWaits
  updatesWait ask u hu := (h.updatesWait ask u hu).imp_right fun hdeadline => hdeadline.trans hle
  queued g u hu := ⟨(h.queued g u hu).1, (h.queued g u hu).2.trans (Timestamp.plus_le_plus hle _)⟩

theorem submit (h : Inv config stored s) (operation : InstanceUpdateOperation) :
    Inv config stored (s.submit config operation) where
  tokensNodup := h.tokensNodup
  tokens_lt := h.tokens_lt
  consistent := h.consistent
  stored_eq := h.stored_eq
  pendingWaits := h.pendingWaits
  updatesWait := h.updatesWait
  queued g u hu := by
    by_cases hg : g = config.substream (Update.mk (s.clock.plus config.timeout) operation).appId
    · subst hg
      simp only [State.submit, Function.update_self, List.mem_append, List.mem_singleton] at hu
      rcases hu with hu | rfl
      · exact h.queued _ u hu
      · exact ⟨rfl, le_refl _⟩
    · simp only [State.submit, Function.update_of_ne hg] at hu
      exact h.queued g u hu

theorem send (h : Inv config stored s) (hs : s.send g = some s') : Inv config stored s' := by
  unfold State.send at hs
  split at hs
  · rename_i u rest hask hqueue
    cases hs
    have hu : u ∈ s.queues g := by
      rw [hqueue]
      exact List.mem_cons_self
    obtain ⟨hsubstream, hdeadline⟩ := h.queued g u hu
    -- a substream that sends does not wait, so every ask under way is another substream's
    have hother : ∀ {id : AbsolutePathId} {a : Ask}, s.asks (config.substream id) = some a →
        Function.update s.asks g (some ⟨s.nextAsk, s.clock⟩) (config.substream id) = some a := by
      intro id a ha
      have hne : config.substream id ≠ g := by
        rintro rfl
        rw [hask] at ha
        cases ha
      rw [Function.update_of_ne hne, ha]
    have htokens : State.tokens
        { s with
          queues := Function.update s.queues g rest
          asks := Function.update s.asks g (some ⟨s.nextAsk, s.clock⟩)
          nextAsk := s.nextAsk + 1
          mailbox := s.mailbox ++ [.update s.nextAsk u] } =
        s.writes.map Write.ask ++ ((s.mailbox.map Message.ask ++ [s.nextAsk]) ++ s.replies) := by
      simp [State.tokens, Message.ask]
    have hperm : (s.writes.map Write.ask ++
        ((s.mailbox.map Message.ask ++ [s.nextAsk]) ++ s.replies)).Perm
        (s.nextAsk :: s.tokens) := by
      rw [List.append_assoc, ← List.append_assoc]
      exact List.perm_middle.trans (by rw [List.append_assoc]; rfl)
    have hpending : State.pending
        { s with
          queues := Function.update s.queues g rest
          asks := Function.update s.asks g (some ⟨s.nextAsk, s.clock⟩)
          nextAsk := s.nextAsk + 1
          mailbox := s.mailbox ++ [.update s.nextAsk u] } = s.pending := by
      simp [State.pending, Message.pending]
    refine ⟨?_, ?_, ?_, h.stored_eq, ?_, ?_, ?_⟩
    · rw [htokens, hperm.nodup_iff, List.nodup_cons]
      exact ⟨fun hmem => absurd (h.tokens_lt _ hmem) (lt_irrefl _), h.tokensNodup⟩
    · intro ask hmem
      rw [htokens, hperm.mem_iff] at hmem
      show ask < s.nextAsk + 1
      rcases List.mem_cons.mp hmem with rfl | hmem
      · omega
      · have hlt := h.tokens_lt ask hmem
        omega
    · rw [hpending]
      exact h.consistent
    · rw [hpending]
      intro w hw
      obtain ⟨a, ha, hnumber⟩ := h.pendingWaits w hw
      exact ⟨a, hother ha, hnumber⟩
    · intro ask u' hu'
      rcases List.mem_append.mp hu' with hu' | hu'
      · rcases h.updatesWait ask u' hu' with ⟨a, ha, hnumber⟩ | hlate
        · exact .inl ⟨a, hother ha, hnumber⟩
        · exact .inr hlate
      · cases List.mem_singleton.mp hu'
        left
        refine ⟨⟨s.nextAsk, s.clock⟩, ?_, rfl, hdeadline⟩
        rw [hsubstream]
        exact Function.update_self ..
    · intro g' u' hu'
      by_cases hg : g' = g
      · subst hg
        simp only [Function.update_self] at hu'
        apply h.queued g' u'
        rw [hqueue]
        exact List.mem_cons_of_mem _ hu'
      · simp only [Function.update_of_ne hg] at hu'
        exact h.queued g' u' hu'
  · cases hs

theorem ne_of_mem_replies (h : Inv config stored s) {ask' : ℕ} (hask : ask ∈ s.replies)
    (hask' : ask' ∈ s.writes.map Write.ask ∨ ask' ∈ s.mailbox.map Message.ask) : ask' ≠ ask := by
  have hnodup := h.tokensNodup
  rw [State.tokens, ← List.append_assoc] at hnodup
  have hdisjoint := (List.nodup_append.mp hnodup).2.2
  exact hdisjoint ask' (List.mem_append.mpr hask') ask hask

theorem reply (h : Inv config stored s) (hs : s.reply ask = some s') : Inv config stored s' := by
  unfold State.reply at hs
  split_ifs at hs with hask
  cases hs
  have hsublist : (s.writes.map Write.ask ++ (s.mailbox.map Message.ask ++
      s.replies.erase ask)).Sublist s.tokens :=
    (List.Sublist.refl _).append ((List.Sublist.refl _).append List.erase_sublist)
  have hkept : ∀ {g : ℕ} {a : Ask}, s.asks g = some a → a.number ≠ ask →
      ((s.asks g).filter fun a => a.number ≠ ask) = some a := by
    intro g a ha hne
    rw [ha]
    simp [Option.filter, hne]
  refine ⟨h.tokensNodup.sublist hsublist, fun t ht => h.tokens_lt t (hsublist.subset ht),
    h.consistent, h.stored_eq, ?_, ?_, h.queued⟩
  · intro w hw
    obtain ⟨a, ha, hnumber⟩ := h.pendingWaits w hw
    have hne := h.ne_of_mem_replies hask (mem_tokens_of_mem_pending hw)
    exact ⟨a, hkept ha (by rwa [hnumber]), hnumber⟩
  · intro ask' u hu
    rcases h.updatesWait ask' u hu with ⟨a, ha, hnumber, hdeadline⟩ | hlate
    · have hne := h.ne_of_mem_replies hask (.inr (List.mem_map.mpr ⟨.update ask' u, hu, rfl⟩))
      exact .inl ⟨a, hkept ha (by rwa [hnumber]), hnumber, hdeadline⟩
    · exact .inr hlate

theorem timeout (h : Inv config stored s)
    (hkeeps : ∀ a, s.asks g = some a → ∀ w ∈ s.pending, w.ask ≠ a.number)
    (hs : s.timeout config g = some s') : Inv config stored s' := by
  unfold State.timeout at hs
  split at hs
  · rename_i a ha
    split_ifs at hs with hlate
    cases hs
    refine ⟨h.tokensNodup, h.tokens_lt, h.consistent, h.stored_eq, ?_, ?_, h.queued⟩
    · intro w hw
      obtain ⟨a', ha', hnumber⟩ := h.pendingWaits w hw
      have hne : config.substream w.resolved.update.appId ≠ g := by
        rintro rfl
        rw [ha] at ha'
        cases ha'
        exact hkeeps a ha w hw hnumber.symm
      exact ⟨a', (Function.update_of_ne hne _ _).trans ha', hnumber⟩
    · intro ask u hu
      rcases h.updatesWait ask u hu with ⟨a', ha', hnumber, hdeadline⟩ | hold
      · by_cases hg : config.substream u.appId = g
        · -- the actor will find the update too late
          right
          rw [hg, ha] at ha'
          cases ha'
          exact hdeadline.trans hlate
        · exact .inl ⟨a', (Function.update_of_ne hg _ _).trans ha', hnumber, hdeadline⟩
      · exact .inr hold
  · cases hs

theorem instanceId_ne (h : Inv config stored s) {u : Update} {rest : List Message}
    (hmailbox : s.mailbox = .update ask u :: rest) {a : Ask}
    (ha : s.asks (config.substream u.appId) = some a) (hnumber : a.number = ask)
    (hw : w ∈ s.pending) : w.resolved.instanceId ≠ u.instanceId := by
  intro heq
  obtain ⟨a', ha', hnumber'⟩ := h.pendingWaits w hw
  have happ : w.resolved.update.appId = u.appId := congrArg InstanceId.runSpecId heq
  rw [happ, ha] at ha'
  cases ha'
  have hsame : w.ask = ask := hnumber'.symm.trans hnumber
  have hnodup := h.tokensNodup
  rw [State.tokens, hmailbox, List.map_cons, ← List.append_assoc] at hnodup
  have hhead := (List.nodup_append.mp hnodup).1
  rw [List.perm_middle.nodup_iff, List.nodup_cons] at hhead
  apply hhead.1
  rw [State.pending, hmailbox, List.filterMap_cons_none rfl] at hw
  have hmem := mem_tokens_of_mem_pending (s := { s with mailbox := rest }) hw
  show ask ∈ _
  rw [← hsame]
  exact List.mem_append.mpr hmem

theorem tokens_of_perm (h : Inv config stored s) {tokens : List ℕ} (hperm : s.tokens.Perm tokens) :
    tokens.Nodup ∧ ∀ ask ∈ tokens, ask < s.nextAsk :=
  ⟨hperm.nodup_iff.mp h.tokensNodup, fun ask hask => h.tokens_lt ask (hperm.mem_iff.mpr hask)⟩

section Handle

variable {ask : ℕ} {u : Update} {rest : List Message}

theorem pending_of_update (hmailbox : s.mailbox = .update ask u :: rest) :
    s.pending = s.writes ++ rest.filterMap Message.pending := by
  rw [State.pending, hmailbox, List.filterMap_cons_none rfl]

theorem tokens_of_cons {m : Message} (hmailbox : s.mailbox = m :: rest) :
    s.tokens = s.writes.map Write.ask ++ (m.ask :: rest.map Message.ask ++ s.replies) := by
  rw [State.tokens, hmailbox]
  rfl

theorem updatesWait_of_cons (h : Inv config stored s) {m : Message}
    (hmailbox : s.mailbox = m :: rest) :
    ∀ ask u, .update ask u ∈ rest → (∃ a, s.asks (config.substream u.appId) = some a ∧
      a.number = ask ∧ u.deadline ≤ a.sent.plus config.timeout) ∨ u.deadline ≤ s.clock := by
  intro ask u hu
  apply h.updatesWait
  rw [hmailbox]
  exact List.mem_cons_of_mem _ hu

theorem refuse (h : Inv config stored s) (hmailbox : s.mailbox = .update ask u :: rest) :
    Inv config stored { s with mailbox := rest, replies := s.replies ++ [ask] } := by
  have hperm : s.tokens.Perm (s.writes.map Write.ask ++
      (rest.map Message.ask ++ (s.replies ++ [ask]))) := by
    rw [tokens_of_cons hmailbox, List.perm_iff_count]
    intro a
    simp only [List.count_append, List.count_cons, List.count_nil, Message.ask]
    omega
  obtain ⟨hnodup, hlt⟩ := h.tokens_of_perm hperm
  refine ⟨hnodup, hlt, ?_, h.stored_eq, ?_, h.updatesWait_of_cons hmailbox, h.queued⟩
  · show Consistent stored s.instances s.persisted (s.writes ++ rest.filterMap Message.pending)
    rw [← pending_of_update hmailbox]
    exact h.consistent
  · intro w hw
    apply h.pendingWaits w
    rw [pending_of_update hmailbox]
    exact hw

theorem passOn (h : Inv config stored s) (hmailbox : s.mailbox = .update ask u :: rest)
    {resolved : Resolved} (hchanges : resolved.effect.changes = false) :
    Inv config stored { s with mailbox := rest ++ [.repositoryStateUpdated ask resolved] } := by
  have hperm : s.tokens.Perm (s.writes.map Write.ask ++
      ((rest ++ [Message.repositoryStateUpdated ask resolved]).map Message.ask ++ s.replies)) := by
    rw [tokens_of_cons hmailbox, List.perm_iff_count]
    intro a
    simp only [List.count_append, List.count_cons, List.count_nil, List.map_append, List.map_cons,
      List.map_nil, Message.ask]
    omega
  have hpending : s.pending = s.writes ++
      (rest ++ [Message.repositoryStateUpdated ask resolved]).filterMap Message.pending := by
    rw [pending_of_update hmailbox]
    simp [Message.pending, hchanges]
  obtain ⟨hnodup, hlt⟩ := h.tokens_of_perm hperm
  refine ⟨hnodup, hlt, ?_, h.stored_eq, ?_, ?_, h.queued⟩
  · show Consistent stored s.instances s.persisted (_ ++ _)
    rw [← hpending]
    exact h.consistent
  · intro w hw
    apply h.pendingWaits w
    rw [hpending]
    exact hw
  · intro ask' u' hu'
    rcases List.mem_append.mp hu' with hu' | hu'
    · exact h.updatesWait_of_cons hmailbox ask' u' hu'
    · cases List.mem_singleton.mp hu'

/-- An effect on an instance is handed to the repository. As the deadline has not passed, the
ask still waits, and no other effect on the instance is under way. -/
theorem startWrite (h : Inv config stored s) (resolved : Resolved)
    (hmailbox : s.mailbox = .update ask resolved.update :: rest)
    (hbase : resolved.base = s.instances.lookup resolved.instanceId)
    (hdeadline : s.clock < resolved.update.deadline)
    (hresolve : InstanceUpdateOpResolver.resolve s.clock resolved.base
      resolved.update.operation = .ok resolved.effect) :
    Inv config stored
      { s with mailbox := rest, writes := s.writes ++ [⟨ask, resolved, false⟩] } := by
  have hperm : s.tokens.Perm ((s.writes ++ [Write.mk ask resolved false]).map Write.ask ++
      (rest.map Message.ask ++ s.replies)) := by
    rw [tokens_of_cons hmailbox, List.perm_iff_count]
    intro a
    simp only [List.count_append, List.count_cons, List.count_nil, List.map_append, List.map_cons,
      List.map_nil, Message.ask]
    omega
  have hpending : (Write.mk ask resolved false :: s.pending).Perm
      ((s.writes ++ [Write.mk ask resolved false]) ++ rest.filterMap Message.pending) := by
    rw [pending_of_update hmailbox, List.append_assoc]
    exact List.perm_middle.symm
  have hhead : Message.update ask resolved.update ∈ s.mailbox := by
    rw [hmailbox]
    exact List.mem_cons_self
  rcases h.updatesWait ask resolved.update hhead with ⟨a, ha, hnumber, _⟩ | hlate
  · have hbegin := h.consistent.begin (w := ⟨ask, resolved, false⟩)
      (fun w hw => h.instanceId_ne hmailbox ha hnumber hw) hbase hresolve rfl
    obtain ⟨hnodup, hlt⟩ := h.tokens_of_perm hperm
    refine ⟨hnodup, hlt, hbegin.perm hpending, h.stored_eq, ?_, h.updatesWait_of_cons hmailbox,
      h.queued⟩
    intro w hw
    rcases List.mem_cons.mp (hpending.mem_iff.mpr hw) with rfl | hw
    · exact ⟨a, ha, hnumber⟩
    · exact h.pendingWaits w hw
  · exact absurd hlate (not_le_of_gt hdeadline)

theorem handleUpdate (h : Inv config stored s) (hmailbox : s.mailbox = .update ask u :: rest) :
    Inv config stored ({ s with mailbox := rest }.handleUpdate ask u) := by
  unfold State.handleUpdate
  cases hresolve : State.resolveUpdateEffect { s with mailbox := rest } u with
  | error e => exact h.refuse hmailbox
  | ok effect =>
    dsimp only
    unfold State.resolveUpdateEffect at hresolve
    split_ifs at hresolve with hlate
    split at hresolve
    · cases hresolve
    · cases hresolve
    · rename_i hok
      cases hresolve
      split_ifs with hchanges
      · exact h.startWrite ⟨u, s.instances.lookup u.instanceId, _⟩ hmailbox rfl
          (lt_of_not_ge hlate) hok
      · exact h.passOn hmailbox (by simpa using hchanges)

theorem takeOver (h : Inv config stored s) {resolved : Resolved}
    (hmailbox : s.mailbox = .repositoryStateUpdated ask resolved :: rest) :
    Inv config stored
      { s with
        mailbox := rest
        instances := s.instances.update resolved.effect
        replies := s.replies ++ [ask] } := by
  have hperm : s.tokens.Perm (s.writes.map Write.ask ++
      (rest.map Message.ask ++ (s.replies ++ [ask]))) := by
    rw [tokens_of_cons hmailbox, List.perm_iff_count]
    intro a
    simp only [List.count_append, List.count_cons, List.count_nil, Message.ask]
    omega
  obtain ⟨hnodup, hlt⟩ := h.tokens_of_perm hperm
  by_cases hchanges : resolved.effect.changes = true
  · have hpending : s.pending.Perm
        (Write.mk ask resolved true :: (s.writes ++ rest.filterMap Message.pending)) := by
      have hhead : (Message.repositoryStateUpdated ask resolved).pending =
          some ⟨ask, resolved, true⟩ := if_pos hchanges
      rw [State.pending, hmailbox, List.filterMap_cons_some hhead]
      exact List.perm_middle
    have hmem : Write.mk ask resolved true ∈ s.pending := hpending.mem_iff.mpr List.mem_cons_self
    refine ⟨hnodup, hlt, (h.consistent.perm hpending).apply rfl (h.concerns hmem), h.stored_eq, ?_,
      h.updatesWait_of_cons hmailbox, h.queued⟩
    exact fun w hw => h.pendingWaits w (hpending.mem_iff.mpr (List.mem_cons_of_mem _ hw))
  · have hpending : s.pending = s.writes ++ rest.filterMap Message.pending := by
      have hhead : (Message.repositoryStateUpdated ask resolved).pending = none := if_neg hchanges
      rw [State.pending, hmailbox, List.filterMap_cons_none hhead]
    rw [s.instances.update_of_not_changes hchanges]
    refine ⟨hnodup, hlt, ?_, h.stored_eq, ?_, h.updatesWait_of_cons hmailbox, h.queued⟩
    · show Consistent stored s.instances s.persisted (_ ++ _)
      rw [← hpending]
      exact h.consistent
    · intro w hw
      apply h.pendingWaits w
      rw [hpending]
      exact hw

theorem handle (h : Inv config stored s) (hs : s.handle = some s') : Inv config stored s' := by
  unfold State.handle at hs
  split at hs
  · rename_i hmailbox
    cases hs
    exact h.handleUpdate hmailbox
  · rename_i hmailbox
    cases hs
    exact h.takeOver hmailbox
  · cases hs

end Handle

section Repository

variable {w : Write}

/-- The changes under way other than one that the repository works on. -/
def others (s : State) (w : Write) : List Write :=
  (s.writes.filter fun w' => w'.ask ≠ w.ask) ++ s.mailbox.filterMap Message.pending

theorem nodup_writes (h : Inv config stored s) : (s.writes.map Write.ask).Nodup :=
  (List.nodup_append.mp h.tokensNodup).1

theorem pending_perm (h : Inv config stored s) (hw : w ∈ s.writes) :
    s.pending.Perm (w :: others s w) :=
  (perm_cons_filter_ne h.nodup_writes hw).append_right _

theorem pendingWaits_of_perm (h : Inv config stored s) {pending : List Write}
    (hperm : s.pending.Perm pending) (hw' : w' ∈ pending) :
    ∃ a, s.asks (config.substream w'.resolved.update.appId) = some a ∧ a.number = w'.ask :=
  h.pendingWaits w' (hperm.mem_iff.mpr hw')

theorem tokens_perm (h : Inv config stored s) (hw : w ∈ s.writes) :
    s.tokens.Perm (w.ask :: ((s.writes.filter fun w' => w'.ask ≠ w.ask).map Write.ask ++
      (s.mailbox.map Message.ask ++ s.replies))) :=
  ((perm_cons_filter_ne h.nodup_writes hw).map Write.ask).append_right _

theorem write (h : Inv config stored s) (hs : s.write ask = some s') : Inv config stored s' := by
  unfold State.write at hs
  split at hs
  · rename_i w hfind
    cases hs
    have hw := List.mem_of_find?_eq_some hfind
    have hfound := List.find?_some hfind
    simp only [Bool.and_eq_true, decide_eq_true_eq, Bool.not_eq_true'] at hfound
    obtain ⟨rfl, hdone⟩ := hfound
    have hpending : ((s.writes.map fun w' =>
        if w'.ask = w.ask then { w' with done := true } else w') ++
          s.mailbox.filterMap Message.pending).Perm ({ w with done := true } :: others s w) :=
      (perm_cons_filter_ne_map h.nodup_writes hw fun w' => { w' with done := true }).append_right _
    have hasks : (s.writes.map fun w' =>
        if w'.ask = w.ask then { w' with done := true } else w').map Write.ask =
          s.writes.map Write.ask := by
      rw [List.map_map]
      apply List.map_congr_left
      intro w' _
      rw [Function.comp_apply]
      split_ifs <;> rfl
    have hmem : w ∈ s.pending := List.mem_append_left _ hw
    have htokens := h.tokensNodup
    have hlt := h.tokens_lt
    rw [State.tokens, ← hasks] at htokens hlt
    refine ⟨htokens, hlt, ?_, ?_, ?_, h.updatesWait, h.queued⟩
    · exact ((h.consistent.perm (h.pending_perm hw)).write hdone).perm hpending.symm
    · intro id
      show (s.stored.update w.resolved.effect).lookup id = _
      rw [s.stored.lookup_update (h.concerns hmem), left_append, h.stored_eq, h.stored_eq]
      by_cases hid : w.resolved.instanceId = id
      · rw [if_pos hid, if_pos hid.symm, hid]
      · rw [if_neg hid, if_neg (Ne.symm hid)]
    · intro w' hw'
      rcases List.mem_cons.mp (hpending.mem_iff.mp hw') with rfl | hw'
      · exact h.pendingWaits w hmem
      · exact h.pendingWaits_of_perm (h.pending_perm hw) (List.mem_cons_of_mem _ hw')
  · cases hs

theorem complete (h : Inv config stored s)
    (hs : s.complete ask = some s') : Inv config stored s' := by
  unfold State.complete at hs
  split at hs
  · rename_i w hfind
    cases hs
    have hw := List.mem_of_find?_eq_some hfind
    have hfound := List.find?_some hfind
    simp only [Bool.and_eq_true, decide_eq_true_eq] at hfound
    obtain ⟨rfl, hdone⟩ := hfound
    have htokens : s.tokens.Perm ((s.writes.filter fun w' => w'.ask ≠ w.ask).map Write.ask ++
        ((s.mailbox ++ [Message.repositoryStateUpdated w.ask w.resolved]).map Message.ask ++
          s.replies)) := by
      apply (h.tokens_perm hw).trans
      rw [List.perm_iff_count]
      intro a
      simp only [List.count_append, List.count_cons, List.count_nil, List.map_append, List.map_cons,
        List.map_nil, Message.ask]
      omega
    obtain ⟨hnodup, hlt⟩ := h.tokens_of_perm htokens
    have hupdates : ∀ ask u, .update ask u ∈
        s.mailbox ++ [Message.repositoryStateUpdated w.ask w.resolved] →
        .update ask u ∈ s.mailbox := by
      intro ask u hu
      rcases List.mem_append.mp hu with hu | hu
      · exact hu
      · cases List.mem_singleton.mp hu
    have hmem : w ∈ s.pending := List.mem_append_left _ hw
    have hconsistent := h.consistent.perm (h.pending_perm hw)
    by_cases hchanges : w.resolved.effect.changes = true
    · have hpending : (w :: others s w).Perm ((s.writes.filter fun w' => w'.ask ≠ w.ask) ++
          (s.mailbox ++ [Message.repositoryStateUpdated w.ask w.resolved]).filterMap
            Message.pending) := by
        have hhead : (Message.repositoryStateUpdated w.ask w.resolved).pending = some w := by
          rw [Message.pending, if_pos hchanges, ← hdone]
        rw [List.filterMap_append, List.filterMap_cons_some hhead, List.filterMap_nil,
          ← List.append_assoc]
        exact (List.perm_append_singleton w _).symm
      refine ⟨hnodup, hlt, hconsistent.perm hpending, h.stored_eq, ?_,
        fun ask u hu => h.updatesWait ask u (hupdates ask u hu), h.queued⟩
      intro w' hw'
      exact h.pendingWaits_of_perm (h.pending_perm hw) (hpending.mem_iff.mpr hw')
    · have hpending : others s w = (s.writes.filter fun w' => w'.ask ≠ w.ask) ++
          (s.mailbox ++ [Message.repositoryStateUpdated w.ask w.resolved]).filterMap
            Message.pending := by
        have hhead : (Message.repositoryStateUpdated w.ask w.resolved).pending = none :=
          if_neg hchanges
        rw [List.filterMap_append, List.filterMap_cons_none hhead, List.filterMap_nil,
          List.append_nil]
        rfl
      have happlied := hconsistent.apply hdone (h.concerns hmem)
      rw [s.instances.update_of_not_changes hchanges, hpending] at happlied
      refine ⟨hnodup, hlt, happlied, h.stored_eq, ?_,
        fun ask u hu => h.updatesWait ask u (hupdates ask u hu), h.queued⟩
      intro w' hw'
      apply h.pendingWaits_of_perm (h.pending_perm hw)
      rw [hpending]
      exact List.mem_cons_of_mem _ hw'
  · cases hs

theorem fail (h : Inv config stored s) (hs : s.fail ask = some s') : Inv config stored s' := by
  unfold State.fail at hs
  split at hs
  · rename_i w hfind
    cases hs
    have hw := List.mem_of_find?_eq_some hfind
    have hfound := List.find?_some hfind
    simp only [Bool.and_eq_true, decide_eq_true_eq, Bool.not_eq_true'] at hfound
    obtain ⟨rfl, hdone⟩ := hfound
    have htokens : s.tokens.Perm ((s.writes.filter fun w' => w'.ask ≠ w.ask).map Write.ask ++
        (s.mailbox.map Message.ask ++ (s.replies ++ [w.ask]))) := by
      apply (h.tokens_perm hw).trans
      rw [List.perm_iff_count]
      intro a
      simp only [List.count_append, List.count_cons, List.count_nil]
      omega
    obtain ⟨hnodup, hlt⟩ := h.tokens_of_perm htokens
    refine ⟨hnodup, hlt, (h.consistent.perm (h.pending_perm hw)).fail hdone, h.stored_eq, ?_,
      h.updatesWait, h.queued⟩
    intro w' hw'
    exact h.pendingWaits_of_perm (h.pending_perm hw) (List.mem_cons_of_mem _ hw')
  · cases hs

end Repository

theorem step (h : Inv config stored s) {e : Event} (hkeeps : KeepsWaiting s e)
    (hs : State.step config s e = some s') : Inv config stored s' := by
  cases e with
  | tick clock =>
    simp only [State.step] at hs
    split_ifs at hs with hle
    cases hs
    exact h.tick hle
  | submit operation =>
    cases hs
    exact h.submit operation
  | send g => exact h.send hs
  | reply ask => exact h.reply hs
  | timeout g => exact h.timeout hkeeps hs
  | handle => exact h.handle hs
  | write ask => exact h.write hs
  | complete ask => exact h.complete hs
  | fail ask => exact h.fail hs

end Inv

/-- **The persisted effects of every instance form a chain, and the repository holds what it
leaves, in every run in which no ask times out while an effect of its update is being persisted
or taken over.** -/
theorem serialized_of_keepsWaiting {s : State}
    (h : (machine config stored).ReachableIf KeepsWaiting s) :
    Serialized stored s.persisted ∧ ∀ id, s.stored.lookup id = left stored s.persisted id := by
  have hinv : Inv config stored s := by
    apply h.invariant
    · rintro _ ⟨clock, rfl⟩
      exact .initial clock
    · exact fun s e s' hs hkeeps hstep => hs.step hkeeps hstep
  exact ⟨hinv.consistent.serialized, hinv.stored_eq⟩

/-! ## Two updates of one instance -/

namespace Overlap

/-- All the updates in one substream, and a timeout of one millisecond. -/
def oneSubstream : Config where
  substream _ := 0
  timeoutMillis := 1

def loaded : InstancesBySpec := (∅ : InstancesBySpec).insert Twins.scheduledInstance

def stop : InstanceUpdateOperation := .changeGoal Twins.instanceId .stopped

def reserve : InstanceUpdateOperation :=
  .reserve Twins.instanceId ⟨[], .suspended, .simplifiedId Twins.instanceId⟩ plainAgent

def start : State := .initial ⟨0⟩ loaded

theorem init_start : (machine oneSubstream loaded).Init start := ⟨⟨0⟩, rfl⟩

/-- An update from its ask to the answer. -/
def exchange (ask : ℕ) : List Event :=
  [.send 0, .handle, .write ask, .complete ask, .handle, .reply ask]

/-- The second update waits for the first one. -/
def waitingRun : List Event := .submit stop :: .submit reserve :: (exchange 0 ++ exchange 1)

theorem waitingRun_persisted :
    (((machine oneSubstream loaded).runIf KeepsWaiting start waitingRun).map fun s =>
      s.persisted.length) = some 2 := by
  decide +kernel

theorem waitingRun_serialized :
    ∃ s, (machine oneSubstream loaded).run start waitingRun = some s ∧ s.persisted.length = 2 ∧
      Serialized loaded s.persisted := by
  obtain ⟨s, hrun, hlength⟩ := Option.map_eq_some_iff.mp waitingRun_persisted
  have hreachable := Machine.reachableIf_of_runIf waitingRun (.init init_start) hrun
  exact ⟨s, Machine.run_of_runIf hrun, hlength, (serialized_of_keepsWaiting hreachable).1⟩

/-- The first ask times out while the repository is at work; the second update is resolved
against the instance that the actor still holds. -/
def overlappingRun : List Event :=
  [.submit stop, .send 0, .handle, .tick ⟨1000000⟩, .timeout 0,
    .submit reserve, .send 0, .handle, .write 0, .write 1, .complete 0, .complete 1]

theorem overlappingRun_goals :
    (((machine oneSubstream loaded).run start overlappingRun).map fun s =>
      (s.persisted.drop 1).head?.map fun r => (r.base.map (·.state.goal),
        (left loaded (s.persisted.take 1) r.instanceId).map (·.state.goal))) =
      some (some (some .running, some .stopped)) := by
  decide +kernel

theorem not_forall_serialized :
    ¬∀ s, (machine oneSubstream loaded).Reachable s → Serialized loaded s.persisted := by
  intro hall
  obtain ⟨s, hrun, hgoals⟩ := Option.map_eq_some_iff.mp overlappingRun_goals
  obtain ⟨r, hr, hgoal⟩ := Option.map_eq_some_iff.mp hgoals
  have hreachable := Machine.reachableIf_of_runIf overlappingRun (.init init_start) hrun
  obtain ⟨after, hdrop⟩ := List.head?_eq_some_iff.mp hr
  have hsplit : s.persisted = s.persisted.take 1 ++ r :: after := by
    rw [← hdrop, List.take_append_drop]
  have hbase := (hall s hreachable _ r after hsplit).1
  rw [hbase] at hgoal
  obtain ⟨hrunning, hstopped⟩ := Prod.mk.inj hgoal
  rw [hrunning] at hstopped
  cases hstopped

end Overlap

end Marathon.Tracking
