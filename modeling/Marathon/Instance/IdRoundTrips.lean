import Marathon.Instance.IdCodecs

/-!
# Which ids are read back

A legacy id is read back unless its run spec id reads like a newer id, an id without an attempt
unless its container name is a number and its run spec id ends like an instance id. Ids of the
root and negative attempts are never read back; every other id always is.
-/

namespace Marathon

open Lib PathId

variable {captured : List (List Char)} {p : List Char} {uuid : UUID} {id : TaskId}

theorem matches_of_attempt {pattern : Pattern} {text : List Char} {n : ℤ}
    (h : Pattern.Matches (pattern ++ [dot, digitRun]) (text ++ '.' :: (toString n).toList) captured) :
    0 ≤ n ∧ ∃ earlier, pattern.Matches text earlier := by
  obtain ⟨start, earlier, digits, rfl, hmatch, hdigits, htext⟩ := matches_append_dot_digitRun.mp h
  obtain ⟨rfl, -, rfl⟩ := eq_of_last (p := fun c => isSeparator c = true) rfl rfl
    (not_isSeparator_of_mem_attempt n) (not_isSeparator_of_mem_digitRun hdigits) htext
  refine ⟨?_, earlier, hmatch⟩
  by_contra hneg
  exact absurd (hdigits.2 '-' (hyphen_mem_attempt (by omega))) (by decide)

theorem toList_separator {separator : String} (h : separator = "." ∨ separator = "_") :
    ∃ s, separator.toList = [s] ∧ isSeparator s = true ∧ (separator = "_" ↔ s = '_') := by
  rcases h with rfl | rfl
  · exact ⟨'.', rfl, rfl, by decide⟩
  · exact ⟨'_', rfl, rfl, by decide⟩

theorem legacy_captured {s : Char}
    (hs : isSeparator s = true)
    (h : legacyTaskIdRegex.Matches (p ++ s :: uuid.string.toList) captured) :
    captured = [p, [s], uuid.string.toList] ∧ anything.Accepts p := by
  obtain ⟨q, t, w, rfl, hq, ht, hw, htext⟩ := matches_legacyTaskIdRegex.mp h
  obtain ⟨hp, hseparator, huuid⟩ := legacy_unique hs ht hw htext.symm
  rw [hp] at hq
  rw [hp, hseparator, huuid]
  exact ⟨rfl, hq⟩

theorem matches_legacy {s : Char} (hp : anything.Accepts p) (hs : isSeparator s = true) :
    legacyTaskIdRegex.Matches (p ++ s :: uuid.string.toList) [p, [s], uuid.string.toList] :=
  matches_legacyTaskIdRegex.mpr
    ⟨p, s, uuid.string.toList, rfl, hp, hs, uuid.accepts_withoutSeparator, rfl⟩

namespace TaskId

/-- A valid run spec id, a separator, a container name as the API takes it, and a `Long`. -/
def WellFormed : TaskId → Prop
  | legacyId runSpecId separator _ =>
    validPathChars runSpecId = true ∧ (separator = "." ∨ separator = "_")
  | legacyResidentId runSpecId separator _ attempt =>
    validPathChars runSpecId = true ∧ (separator = "." ∨ separator = "_") ∧ IsLong attempt
  | ephemeralTaskId instanceId containerName =>
    validPathChars instanceId.runSpecId = true ∧
      ∀ name ∈ containerName, isContainerName name = true
  | taskIdWithIncarnation instanceId containerName incarnation =>
    validPathChars instanceId.runSpecId = true ∧
      (∀ name ∈ containerName, isContainerName name = true) ∧ IsLong incarnation

/-- The ids that are read back. -/
def ReadBack : TaskId → Prop
  | legacyId runSpecId separator _ =>
    runSpecId.isRoot = false ∧ ¬ ReadsAsTask separator runSpecId.safePath.toList
  | legacyResidentId runSpecId separator _ attempt =>
    runSpecId.isRoot = false ∧ ¬ ReadsAsTask separator runSpecId.safePath.toList ∧ 0 ≤ attempt
  | ephemeralTaskId instanceId containerName =>
    instanceId.runSpecId.isRoot = false ∧
      ¬ (EndsInInstance instanceId.runSpecId.safePath.toList ∧
        ∃ name ∈ containerName, ∀ c ∈ name.toList, c.isDigit = true)
  | taskIdWithIncarnation instanceId _ incarnation =>
    instanceId.runSpecId.isRoot = false ∧ 0 ≤ incarnation

section

variable {i : InstanceId} {containerName : Option String} {n : ℤ} {runSpecId : AbsolutePathId}
  {separator : String} {uuid : UUID}

theorem parse_taskIdWithIncarnation_iff (h : (taskIdWithIncarnation i containerName n).WellFormed) :
    parse (taskIdWithIncarnation i containerName n).idString =
      some (taskIdWithIncarnation i containerName n) ↔
        (taskIdWithIncarnation i containerName n).ReadBack := by
  obtain ⟨hpath, hname, hlong⟩ := h
  have hcontainer := isContainer_getD hname
  constructor
  · intro hparse
    obtain ⟨captured, hmatch⟩ := matches_of_parse hparse
    rw [toList_taskIdWithIncarnation] at hmatch
    obtain ⟨hnonneg, earlier, hmatch⟩ := matches_of_attempt hmatch
    exact ⟨isRoot_eq_false hpath (accepts_of_matches_task hcontainer hmatch), hnonneg⟩
  · rintro ⟨hroot, hnonneg⟩
    have hdigits := accepts_attempt hnonneg
    have htask := matches_task i.uuid i.kind (accepts_safePath hpath hroot)
      hcontainer
    have hcaptures : taskIdWithInstanceIdAndIncarnationRegex.captures
        (taskIdWithIncarnation i containerName n).idString.toList =
          some [i.runSpecId.safePath.toList, ['.'], i.kind.value.toList, i.uuid.string.toList, ['.'],
            (containerName.getD anonymousContainer).toList, ['.'], (toString n).toList] := by
      rw [toList_taskIdWithIncarnation]
      apply Pattern.captures_eq_some
      · exact (matches_with_digits_iff hdigits).mpr ⟨_, htask, rfl⟩
      · intro other hother
        obtain ⟨earlier, hearlier, rfl⟩ := (matches_with_digits_iff hdigits).mp hother
        rw [task_unique hcontainer hearlier]
        rfl
    rw [parse, hcaptures]
    simp only [ofGroups_instanceId hpath, toLong_attempt hnonneg hlong, containerNameOf_getD hname,
      Option.bind_eq_bind, Option.bind_some, Option.pure_def]

theorem parse_ephemeralTaskId_iff (h : (ephemeralTaskId i containerName).WellFormed) :
    parse (ephemeralTaskId i containerName).idString = some (ephemeralTaskId i containerName) ↔
      (ephemeralTaskId i containerName).ReadBack := by
  obtain ⟨hpath, hname⟩ := h
  have hcontainer := isContainer_getD hname
  have hdigits : digitRun.Accepts (containerName.getD anonymousContainer).toList ↔
      ∃ name ∈ containerName, ∀ c ∈ name.toList, c.isDigit = true := by
    cases containerName with
    | none =>
      constructor
      · intro hall
        exact absurd (hall.2 '_' (by decide)) (by decide)
      · rintro ⟨name, hmem, -⟩
        cases hmem
    | some name =>
      constructor
      · exact fun hall => ⟨name, rfl, hall.2⟩
      · rintro ⟨other, hmem, hall⟩
        obtain rfl := Option.mem_some_iff.mp hmem
        exact ⟨hcontainer.1.1, hall⟩
  constructor
  · intro hparse
    obtain ⟨hno, captured, hmatch⟩ := matches_of_parse hparse
    rw [toList_ephemeralTaskId] at hno hmatch
    refine ⟨isRoot_eq_false hpath (accepts_of_matches_task hcontainer hmatch), ?_⟩
    rintro ⟨hends, hnumber⟩
    obtain ⟨earlier, hearlier⟩ :=
      (exists_matches_task_instanceText_iff i.uuid i.kind
        (isRun_safePath hpath)).mpr hends
    exact hno _ ((matches_with_digits_iff (hdigits.mpr hnumber)).mpr ⟨earlier, hearlier, rfl⟩)
  · rintro ⟨hroot, hnumber⟩
    have hfirst : taskIdWithInstanceIdAndIncarnationRegex.captures
        (ephemeralTaskId i containerName).idString.toList = none := by
      rw [toList_ephemeralTaskId]
      apply Pattern.captures_eq_none
      intro captured hmatch
      obtain ⟨start, earlier, digits, -, hearlier, hrun, htext⟩ :=
        matches_append_dot_digitRun.mp hmatch
      have hnoDot : ∀ c ∈ digits, ¬ c = '.' := by
        rintro c hc rfl
        exact not_isSeparator_of_mem_digitRun hrun '.' hc rfl
      have hcontainerDot : ∀ c ∈ (containerName.getD anonymousContainer).toList, ¬ c = '.' := by
        rintro c hc rfl
        exact not_mem_of_withoutDot hcontainer.1 hc
      obtain ⟨rfl, -, rfl⟩ := eq_of_last (p := fun c => c = '.') rfl rfl hcontainerDot hnoDot htext
      have hends := (exists_matches_task_instanceText_iff _ _ (isRun_safePath hpath)).mp
        ⟨earlier, hearlier⟩
      exact hnumber ⟨hends, hdigits.mp hrun⟩
    have hsecond : taskIdWithInstanceIdRegex.captures
        (ephemeralTaskId i containerName).idString.toList =
          some [i.runSpecId.safePath.toList, ['.'], i.kind.value.toList, i.uuid.string.toList, ['.'],
            (containerName.getD anonymousContainer).toList] := by
      rw [toList_ephemeralTaskId]
      exact Pattern.captures_eq_some (matches_task _ _ (accepts_safePath hpath hroot) hcontainer)
        fun other hother => task_unique hcontainer hother
    rw [parse, hfirst, hsecond]
    simp only [ofGroups_instanceId hpath, containerNameOf_getD hname, Option.bind_eq_bind,
      Option.bind_some, Option.pure_def]

theorem parse_legacyResidentId_iff (h : (legacyResidentId runSpecId separator uuid n).WellFormed) :
    parse (legacyResidentId runSpecId separator uuid n).idString =
      some (legacyResidentId runSpecId separator uuid n) ↔
        (legacyResidentId runSpecId separator uuid n).ReadBack := by
  obtain ⟨hpath, hseparator, hlong⟩ := h
  obtain ⟨s, htext, hs, hunderscore⟩ := toList_separator hseparator
  have htask := exists_matches_task_iff uuid (isRun_safePath hpath) hs hunderscore
  constructor
  · intro hparse
    obtain ⟨hno, captured, hmatch⟩ := matches_of_parse hparse
    rw [toList_legacyResidentId htext] at hno hmatch
    obtain ⟨hnonneg, earlier, hmatch⟩ := matches_of_attempt hmatch
    refine ⟨isRoot_eq_false hpath (legacy_captured hs hmatch).2, fun hreads => ?_, hnonneg⟩
    obtain ⟨other, hother⟩ := htask.mpr hreads
    exact hno _ ((matches_with_digits_iff (accepts_attempt hnonneg)).mpr ⟨other, hother, rfl⟩)
  · rintro ⟨hroot, hreads, hnonneg⟩
    have hdigits := accepts_attempt hnonneg
    have hfirst : taskIdWithInstanceIdAndIncarnationRegex.captures
        (legacyResidentId runSpecId separator uuid n).idString.toList = none := by
      rw [toList_legacyResidentId htext]
      apply Pattern.captures_eq_none
      intro captured hmatch
      obtain ⟨earlier, hearlier, -⟩ := (matches_with_digits_iff hdigits).mp hmatch
      exact hreads (htask.mp ⟨earlier, hearlier⟩)
    have hsecond : taskIdWithInstanceIdRegex.captures
        (legacyResidentId runSpecId separator uuid n).idString.toList = none := by
      rw [toList_legacyResidentId htext]
      exact Pattern.captures_eq_none fun captured => not_matches_task_of_digits hs hdigits
    have hthird : residentTaskIdRegex.captures
        (legacyResidentId runSpecId separator uuid n).idString.toList =
          some [runSpecId.safePath.toList, [s], uuid.string.toList, ['.'],
            (toString n).toList] := by
      rw [toList_legacyResidentId htext]
      apply Pattern.captures_eq_some
      · exact (matches_with_digits_iff hdigits).mpr
          ⟨_, matches_legacy (accepts_safePath hpath hroot) hs, rfl⟩
      · intro other hother
        obtain ⟨earlier, hearlier, rfl⟩ := (matches_with_digits_iff hdigits).mp hother
        rw [(legacy_captured hs hearlier).1]
        rfl
    have hofList : String.ofList [s] = separator := by rw [← htext, String.ofList_toList]
    rw [parse, hfirst, hsecond, hthird]
    simp only [UUID.fromString_string, fromSafePath_toList hpath, hofList,
      toLong_attempt hnonneg hlong, Option.bind_eq_bind, Option.bind_some, Option.pure_def]

theorem parse_legacyId_iff (h : (legacyId runSpecId separator uuid).WellFormed) :
    parse (legacyId runSpecId separator uuid).idString = some (legacyId runSpecId separator uuid) ↔
      (legacyId runSpecId separator uuid).ReadBack := by
  obtain ⟨hpath, hseparator⟩ := h
  obtain ⟨s, htext, hs, hunderscore⟩ := toList_separator hseparator
  have htask := exists_matches_task_iff uuid (isRun_safePath hpath) hs hunderscore
  constructor
  · intro hparse
    obtain ⟨hno, captured, hmatch⟩ := matches_of_parse hparse
    rw [toList_legacyId htext] at hno hmatch
    refine ⟨isRoot_eq_false hpath (legacy_captured hs hmatch).2, fun hreads => ?_⟩
    obtain ⟨other, hother⟩ := htask.mpr hreads
    exact hno other hother
  · rintro ⟨hroot, hreads⟩
    have hfirst : taskIdWithInstanceIdAndIncarnationRegex.captures
        (legacyId runSpecId separator uuid).idString.toList = none := by
      rw [toList_legacyId htext]
      apply Pattern.captures_eq_none
      intro captured hmatch
      obtain ⟨start, _, digits, -, -, hdigits, heq⟩ := matches_append_dot_digitRun.mp hmatch
      exact ne_append_dot_digits hs hdigits heq
    have hsecond : taskIdWithInstanceIdRegex.captures
        (legacyId runSpecId separator uuid).idString.toList = none := by
      rw [toList_legacyId htext]
      exact Pattern.captures_eq_none fun captured hmatch => hreads (htask.mp ⟨captured, hmatch⟩)
    have hthird : residentTaskIdRegex.captures
        (legacyId runSpecId separator uuid).idString.toList = none := by
      rw [toList_legacyId htext]
      apply Pattern.captures_eq_none
      intro captured hmatch
      obtain ⟨start, _, digits, -, -, hdigits, heq⟩ := matches_append_dot_digitRun.mp hmatch
      exact ne_append_dot_digits hs hdigits heq
    have hfourth : legacyTaskIdRegex.captures
        (legacyId runSpecId separator uuid).idString.toList =
          some [runSpecId.safePath.toList, [s], uuid.string.toList] := by
      rw [toList_legacyId htext]
      exact Pattern.captures_eq_some (matches_legacy (accepts_safePath hpath hroot) hs)
        fun other hother => (legacy_captured hs hother).1
    have hofList : String.ofList [s] = separator := by rw [← htext, String.ofList_toList]
    rw [parse, hfirst, hsecond, hthird, hfourth]
    simp only [UUID.fromString_string, fromSafePath_toList hpath, hofList, Option.bind_eq_bind,
      Option.bind_some, Option.pure_def]

end

/-- A task id is read back from its text just when `ReadBack` says so. -/
theorem parse_idString_iff (h : id.WellFormed) : parse id.idString = some id ↔ id.ReadBack := by
  cases id with
  | legacyId => exact parse_legacyId_iff h
  | legacyResidentId => exact parse_legacyResidentId_iff h
  | ephemeralTaskId => exact parse_ephemeralTaskId_iff h
  | taskIdWithIncarnation => exact parse_taskIdWithIncarnation_iff h

end TaskId

/-! ## Instances and reservations -/

theorem instance_captured {kind : InstanceId.Kind}
    (h : instanceIdRegex.Matches (instanceText p kind uuid) captured) :
    captured = [p, ['.'], kind.value.toList, uuid.string.toList] ∧ anything.Accepts p := by
  obtain ⟨q, k, w, rfl, hq, hw, htext⟩ := matches_instanceIdRegex.mp h
  obtain ⟨hp, hkind, huuid⟩ := instance_unique (not_mem_of_withoutDot hw) htext.symm
  rw [hp] at hq
  rw [hp, hkind, huuid]
  exact ⟨rfl, hq⟩

theorem captures_instanceIdRegex {kind : InstanceId.Kind}
    (hp : anything.Accepts p) : instanceIdRegex.captures (instanceText p kind uuid) =
      some [p, ['.'], kind.value.toList, uuid.string.toList] := by
  have huuid : withoutDot.Accepts uuid.string.toList := by
    constructor
    · exact List.ne_nil_of_mem uuid.hyphen_mem
    · intro c hc
      apply decide_eq_true
      rintro rfl
      exact uuid.dot_notMem hc
  exact Pattern.captures_eq_some
    (matches_instanceIdRegex.mpr ⟨p, kind, uuid.string.toList, rfl, hp, huuid, rfl⟩)
    fun other hother => (instance_captured hother).1

theorem matches_of_fromIdString {s : String} {id : InstanceId}
    (h : InstanceId.fromIdString s = some id) : ∃ captured, instanceIdRegex.Matches s.toList captured := by
  rcases Pattern.captures_cases instanceIdRegex s.toList with ⟨hnone, -⟩ | ⟨captured, -, hmatch⟩
  · rw [InstanceId.fromIdString, hnone] at h
    cases h
  · exact ⟨captured, hmatch⟩

theorem fromIdString_idString_iff {id : InstanceId} (h : validPathChars id.runSpecId) :
    InstanceId.fromIdString id.idString = some id ↔ id.runSpecId.isRoot = false := by
  constructor
  · intro hread
    obtain ⟨captured, hmatch⟩ := matches_of_fromIdString hread
    rw [toList_idString] at hmatch
    exact isRoot_eq_false h (instance_captured hmatch).2
  · intro hroot
    rw [InstanceId.fromIdString, toList_idString,
      captures_instanceIdRegex (accepts_safePath h hroot)]
    exact ofGroups_instanceId h

theorem exists_matches_instance_iff {s : Char} (uuid : UUID) {separator : String}
    (hrun : IsRun p) (hs : isSeparator s = true) (hseparator : separator = "_" ↔ s = '_') :
    (∃ captured, instanceIdRegex.Matches (p ++ s :: uuid.string.toList) captured) ↔
      ReadsAsInstance separator p := by
  constructor
  · rintro ⟨captured, hmatch⟩
    obtain ⟨q, k, w, -, hq, hw, htext⟩ := matches_instanceIdRegex.mp hmatch
    have hdot := not_mem_of_withoutDot hw
    have hlabel : ∀ c ∈ k.value.toList ++ w, ¬ c = '.' := by
      rintro c hc rfl
      rcases List.mem_append.mp hc with hc | hc
      · exact dot_notMem_kind k hc
      · exact hdot hc
    have huuid : ∀ c ∈ uuid.string.toList, ¬ c = '.' := by
      rintro c hc rfl
      exact uuid.dot_notMem hc
    rcases isSeparator_iff.mp hs with rfl | rfl
    · obtain ⟨-, -, heq⟩ := eq_of_last (p := fun c => c = '.') rfl rfl huuid hlabel htext
      exact absurd heq (uuid.string_ne_kind k w)
    · -- The last dot is in the run spec id, and so is the whole prefix after it.
      obtain ⟨rest, hp, hkind⟩ : ∃ rest, p = q ++ '.' :: rest ∧
          k.value.toList ++ w = rest ++ '_' :: uuid.string.toList := by
        rcases List.append_eq_append_iff.mp htext with ⟨l, -, hl⟩ | ⟨l, hp, hl⟩
        · have hmem : '.' ∈ '_' :: uuid.string.toList := by
            rw [hl]
            exact List.mem_append_right l List.mem_cons_self
          exact absurd ((List.mem_cons.mp hmem).resolve_left (by decide)) uuid.dot_notMem
        · cases l with
          | nil => exact absurd (List.cons.inj hl).1 (by decide)
          | cons c l =>
            rw [List.cons_append] at hl
            obtain ⟨rfl, hafter⟩ := List.cons.inj hl
            exact ⟨l, hp, hafter⟩
      have hlast : ∃ later, rest = k.value.toList ++ later := by
        rcases List.append_eq_append_iff.mp hkind with ⟨l, hrest, -⟩ | ⟨l, hk, hl⟩
        · exact ⟨l, hrest⟩
        · cases l with
          | nil =>
            rw [List.append_nil] at hk
            exact ⟨[], by rw [hk, List.append_nil]⟩
          | cons c l =>
            obtain ⟨rfl, -⟩ := List.cons.inj hl
            have hmem : '_' ∈ k.value.toList := by
              rw [hk]
              exact List.mem_append_right rest List.mem_cons_self
            exact absurd hmem (underscore_notMem_kind k)
      obtain ⟨later, rfl⟩ := hlast
      have hlater : '.' ∉ later := by
        intro hmem
        refine hlabel '.' ?_ rfl
        rw [hkind]
        exact List.mem_append_left _ (List.mem_append_right _ hmem)
      exact ⟨hseparator.mpr rfl, q, k, later, hq.1, hlater, hp⟩
  · rintro ⟨hunderscore, q, k, rest, hq, hdot, rfl⟩
    obtain rfl := hseparator.mp hunderscore
    have hrun' : anything.Accepts q :=
      accepts_anything.mpr ⟨hq, fun c hc => hrun c (List.mem_append_left _ hc)⟩
    have hrest : withoutDot.Accepts (rest ++ '_' :: uuid.string.toList) := by
      constructor
      · simp
      · intro c hc
        apply decide_eq_true
        rintro rfl
        rcases List.mem_append.mp hc with hc | hc
        · exact hdot hc
        · exact uuid.dot_notMem ((List.mem_cons.mp hc).resolve_left (by decide))
    exact ⟨_, matches_instanceIdRegex.mpr ⟨q, k, _, rfl, hrun', hrest, by simp⟩⟩

namespace Reservation.Id

/-- A valid run spec id and a separator. -/
def WellFormed : Reservation.Id → Prop
  | legacyId runSpecId separator _ =>
    validPathChars runSpecId = true ∧ (separator = "." ∨ separator = "_")
  | simplifiedId instanceId => validPathChars instanceId.runSpecId = true

/-- The reservation ids that are read back. -/
def ReadBack : Reservation.Id → Prop
  | legacyId runSpecId separator _ =>
    runSpecId.isRoot = false ∧ ¬ ReadsAsInstance separator runSpecId.safePath.toList
  | simplifiedId instanceId => instanceId.runSpecId.isRoot = false

theorem matches_of_ofLabel {s : String} {id : Reservation.Id} (h : ofLabel s = some id) :
    match id with
    | legacyId .. => (∀ captured, ¬ instanceIdRegex.Matches s.toList captured) ∧
        ∃ captured, legacyTaskIdRegex.Matches s.toList captured
    | simplifiedId _ => ∃ captured, instanceIdRegex.Matches s.toList captured := by
  rw [ofLabel] at h
  rcases Pattern.captures_cases instanceIdRegex s.toList with
    ⟨hnone, hno⟩ | ⟨captured, hsome, hmatch⟩
  · rcases Pattern.captures_cases legacyTaskIdRegex s.toList with
      ⟨hnone', -⟩ | ⟨captured, hsome, hmatch⟩
    · rw [hnone, hnone'] at h
      cases h
    · obtain ⟨q, t, w, rfl, -⟩ := matches_legacyTaskIdRegex.mp hmatch
      rw [hnone, hsome] at h
      obtain ⟨_, -, rfl⟩ := Option.map_eq_some_iff.mp h
      exact ⟨hno, _, hmatch⟩
  · obtain ⟨q, k, w, rfl, -⟩ := matches_instanceIdRegex.mp hmatch
    rw [hsome] at h
    obtain ⟨_, -, rfl⟩ := Option.map_eq_some_iff.mp h
    exact ⟨_, hmatch⟩

/-- A reservation id is read back from its label just when `ReadBack` says so. -/
theorem ofLabel_label_iff {id : Reservation.Id} (h : id.WellFormed) :
    ofLabel id.label = some id ↔ id.ReadBack := by
  cases id with
  | simplifiedId instanceId =>
    constructor
    · intro hread
      obtain ⟨captured, hmatch⟩ := matches_of_ofLabel hread
      rw [label, toList_idString] at hmatch
      exact isRoot_eq_false h (instance_captured hmatch).2
    · intro hroot
      rw [ofLabel, label, toList_idString,
        captures_instanceIdRegex (accepts_safePath h hroot)]
      simp only [ofGroups_instanceId h, Option.map_some]
  | legacyId runSpecId separator uuid =>
    obtain ⟨hpath, hseparator⟩ := h
    obtain ⟨s, htext, hs, hunderscore⟩ := toList_separator hseparator
    have hinstance := exists_matches_instance_iff uuid (isRun_safePath hpath) hs hunderscore
    have hlabel : (legacyId runSpecId separator uuid).label.toList =
        runSpecId.safePath.toList ++ s :: uuid.string.toList := TaskId.toList_legacyId htext
    constructor
    · intro hread
      obtain ⟨hno, captured, hmatch⟩ := matches_of_ofLabel hread
      rw [hlabel] at hno hmatch
      refine ⟨isRoot_eq_false hpath (legacy_captured hs hmatch).2, fun hreads => ?_⟩
      obtain ⟨other, hother⟩ := hinstance.mpr hreads
      exact hno other hother
    · rintro ⟨hroot, hreads⟩
      have hfirst : instanceIdRegex.captures (legacyId runSpecId separator uuid).label.toList = none := by
        rw [hlabel]
        exact Pattern.captures_eq_none fun captured hmatch =>
          hreads (hinstance.mp ⟨captured, hmatch⟩)
      have hsecond : legacyTaskIdRegex.captures (legacyId runSpecId separator uuid).label.toList =
          some [runSpecId.safePath.toList, [s], uuid.string.toList] := by
        rw [hlabel]
        exact Pattern.captures_eq_some (matches_legacy (accepts_safePath hpath hroot) hs)
          fun other hother => (legacy_captured hs hother).1
      have hofList : String.ofList [s] = separator := by rw [← htext, String.ofList_toList]
      rw [ofLabel, hfirst, hsecond]
      simp only [UUID.fromString_string, fromSafePath_toList hpath, hofList, Option.map_some]

end Reservation.Id

/-! ## Incarnations -/

namespace TaskId

/-- The number of values of a `Long`. -/
def longs : ℕ := 18446744073709551616

/-- The attempt as a `Long` keeps it. -/
def wrap : TaskId → TaskId
  | legacyResidentId runSpecId separator uuid attempt =>
    legacyResidentId runSpecId separator uuid (attempt.bmod longs)
  | taskIdWithIncarnation instanceId containerName incarnation =>
    taskIdWithIncarnation instanceId containerName (incarnation.bmod longs)
  | id => id

/-- `nextIncarnationFor` with the overflow of its `Long`. -/
def next (id : TaskId) : TaskId := id.nextIncarnationFor.wrap

/-- The id of the incarnation with a number. -/
def numbered (id : TaskId) (n : ℤ) : TaskId :=
  match id with
  | legacyId runSpecId separator uuid | legacyResidentId runSpecId separator uuid _ =>
    legacyResidentId runSpecId separator uuid n
  | ephemeralTaskId instanceId containerName | taskIdWithIncarnation instanceId containerName _ =>
    taskIdWithIncarnation instanceId containerName n

/-- 1 for an id without a number, which no later incarnation has. -/
def unnumbered : TaskId → ℕ
  | legacyId .. | ephemeralTaskId .. => 1
  | legacyResidentId .. | taskIdWithIncarnation .. => 0

theorem numbered_injective (id : TaskId) : Function.Injective id.numbered := by
  intro n n' h
  cases id with
  | legacyId => exact (legacyResidentId.inj h).2.2.2
  | legacyResidentId => exact (legacyResidentId.inj h).2.2.2
  | ephemeralTaskId => exact (taskIdWithIncarnation.inj h).2.2
  | taskIdWithIncarnation => exact (taskIdWithIncarnation.inj h).2.2

theorem next_eq (id : TaskId) : id.next = id.numbered ((id.incarnation + 1).bmod longs) := by
  cases id with
  | legacyId => rfl
  | legacyResidentId => rfl
  | ephemeralTaskId => rfl
  | taskIdWithIncarnation => rfl

theorem next_numbered (id : TaskId) (n : ℤ) :
    (id.numbered n).next = id.numbered ((n + 1).bmod longs) := by
  cases id with
  | legacyId => rfl
  | legacyResidentId => rfl
  | ephemeralTaskId => rfl
  | taskIdWithIncarnation => rfl

theorem iterate_next (id : TaskId) (m : ℕ) :
    next^[m + 1] id = id.numbered ((id.incarnation + (m + 1 : ℕ)).bmod longs) := by
  induction m with
  | zero => exact next_eq id
  | succ m ih =>
    have hsum : id.incarnation + ((m + 1 : ℕ) : ℤ) + 1 = id.incarnation + ((m + 1 + 1 : ℕ) : ℤ) := by
      omega
    rw [Function.iterate_succ_apply', ih, next_numbered, Int.bmod_add_bmod, hsum]

theorem numbered_bmod_eq_iff (id : TaskId) (m k : ℕ) :
    id.numbered ((id.incarnation + m).bmod longs) = id.numbered ((id.incarnation + k).bmod longs) ↔
      (longs : ℤ) ∣ m - k := by
  rw [id.numbered_injective.eq_iff, Int.bmod_add_cancel_left,
    Int.bmod_eq_bmod_iff_bmod_sub_eq_zero, Int.dvd_iff_bmod_eq_zero]

theorem numbered_incarnation (h : id.WellFormed) (hnumbered : id.unnumbered = 0) :
    id.numbered ((id.incarnation + (0 : ℕ)).bmod longs) = id := by
  have hlong : ∀ n : ℤ, IsLong n → (n + (0 : ℕ)).bmod longs = n := by
    rintro n ⟨hlow, hhigh⟩
    rw [Int.natCast_zero, Int.add_zero]
    apply Int.bmod_eq_of_le
    · simp only [longs]
      omega
    · simp only [longs]
      omega
  cases id with
  | legacyId => cases hnumbered
  | legacyResidentId => rw [numbered, incarnation, hlong _ h.2.2]
  | ephemeralTaskId => cases hnumbered
  | taskIdWithIncarnation => rw [numbered, incarnation, hlong _ h.2.2]

theorem next_ne_of_unnumbered (h : id.unnumbered = 1) (m : ℕ) : next^[m + 1] id ≠ id := by
  rw [iterate_next]
  cases id with
  | legacyId => exact fun heq => by cases heq
  | legacyResidentId => cases h
  | ephemeralTaskId => exact fun heq => by cases heq
  | taskIdWithIncarnation => cases h

theorem forall_next_ne_iff (h : id.WellFormed) (n : ℕ) :
    (∀ k ≤ n, next^[n + 1] id ≠ next^[k] id) ↔ n + 1 < longs + id.unnumbered := by
  have hrepeats : ∀ k, id.unnumbered ≤ k →
      (next^[n + 1] id = next^[k] id ↔ (longs : ℤ) ∣ (n + 1 : ℕ) - (k : ℕ)) := by
    intro k hk
    cases k with
    | zero =>
      have hid := numbered_incarnation h (Nat.le_zero.mp hk)
      rw [iterate_next, Function.iterate_zero_apply]
      constructor
      · intro heq
        exact (numbered_bmod_eq_iff id (n + 1) 0).mp (heq.trans hid.symm)
      · intro hdvd
        exact ((numbered_bmod_eq_iff id (n + 1) 0).mpr hdvd).trans hid
    | succ k => rw [iterate_next, iterate_next, numbered_bmod_eq_iff]
  have hlongs : 0 < longs := by decide
  constructor
  · intro hall
    by_contra hlt
    -- The incarnation as many steps before as a `Long` has values has the same number.
    have heq := (hrepeats (n + 1 - longs) (by omega)).mpr (by
      have hdiff : ((n + 1 : ℕ) : ℤ) - ((n + 1 - longs : ℕ) : ℤ) = longs := by omega
      rw [hdiff])
    exact hall (n + 1 - longs) (by omega) heq
  · intro hlt k hk heq
    by_cases hfirst : id.unnumbered ≤ k
    · have hle := Int.le_of_dvd (by omega) ((hrepeats k hfirst).mp heq)
      omega
    · have hone : id.unnumbered = 1 := by
        cases id with
        | legacyId => rfl
        | legacyResidentId => exact absurd (Nat.zero_le k) hfirst
        | ephemeralTaskId => rfl
        | taskIdWithIncarnation => exact absurd (Nat.zero_le k) hfirst
      obtain rfl : k = 0 := by omega
      exact next_ne_of_unnumbered hone n heq

theorem instanceId_iterate_next (id : TaskId) (n : ℕ) :
    (next^[n] id).instanceId = id.instanceId ∧ (next^[n] id).containerName = id.containerName := by
  induction n with
  | zero => exact ⟨rfl, rfl⟩
  | succ n ih =>
    rw [Function.iterate_succ_apply']
    have hnext : ∀ other : TaskId,
        other.next.instanceId = other.instanceId ∧ other.next.containerName = other.containerName := by
      intro other
      cases other <;> exact ⟨rfl, rfl⟩
    exact ⟨(hnext _).1.trans ih.1, (hnext _).2.trans ih.2⟩

end TaskId

/-- An id is read back from its text just when `ReadBack` says so, an instance id unless it is one
of the root, and the next incarnation of a task, which is one of the same container of the same
instance, is new until the `Long` overflows into the first number. -/
theorem codecs_iff {taskId : TaskId} {instanceId : InstanceId} {reservationId : Reservation.Id}
    (htask : taskId.WellFormed) (hinstance : validPathChars instanceId.runSpecId = true)
    (hreservation : reservationId.WellFormed) (n : ℕ) :
    (TaskId.parse taskId.idString = some taskId ↔ taskId.ReadBack) ∧
      (InstanceId.fromIdString instanceId.idString = some instanceId ↔
        instanceId.runSpecId.isRoot = false) ∧
      (Reservation.Id.ofLabel reservationId.label = some reservationId ↔ reservationId.ReadBack) ∧
      ((TaskId.next^[n] taskId).instanceId = taskId.instanceId ∧
        (TaskId.next^[n] taskId).containerName = taskId.containerName) ∧
      ((∀ k ≤ n, TaskId.next^[n + 1] taskId ≠ TaskId.next^[k] taskId) ↔
        n + 1 < TaskId.longs + taskId.unnumbered) :=
  ⟨TaskId.parse_idString_iff htask, fromIdString_idString_iff hinstance,
    Reservation.Id.ofLabel_label_iff hreservation, taskId.instanceId_iterate_next n,
    TaskId.forall_next_ne_iff htask n⟩

/-- A run spec whose last label begins like an instance id. -/
def likeInstance : AbsolutePathId := ⟨["x.instance-1"]⟩

def someUuid : UUID := ⟨0xb6ff5fa5771411e7a55c5ecf1c4671f6#128⟩

theorem codecs_likeInstance :
    (TaskId.parse (TaskId.legacyId likeInstance "." someUuid).idString =
        some (TaskId.legacyId likeInstance "." someUuid) ↔
      (TaskId.legacyId likeInstance "." someUuid).ReadBack) ∧
      InstanceId.fromIdString (InstanceId.mk likeInstance .instance someUuid).idString =
        some ⟨likeInstance, .instance, someUuid⟩ :=
  have h := @codecs_iff (.legacyId likeInstance "." someUuid)
    ⟨likeInstance, .instance, someUuid⟩ (.simplifiedId ⟨likeInstance, .instance, someUuid⟩)
    ⟨by decide, .inl rfl⟩ (by decide) (by change validPathChars likeInstance = true; decide) 0
  ⟨h.1, h.2.1.mpr rfl⟩

/-- The text of an old task id of this run spec is not read back as that id. -/
theorem not_forall_read_back :
    ¬ ∀ taskId : TaskId, taskId.WellFormed → TaskId.parse taskId.idString = some taskId := by
  intro h
  have hread := h (.legacyId likeInstance "." someUuid) ⟨by decide, .inl rfl⟩
  have hnone : TaskId.parse (TaskId.legacyId likeInstance "." someUuid).idString = none := by
    decide +kernel
  rw [hnone] at hread
  cases hread

end Marathon
