import Marathon.Instance.IdStrings

/-!
# What ids are read back as

A run spec id may have dots in it, and labels that begin with the prefix of an instance id.
Such a label ends up where an expression expects an instance id, and the text of an older id
is then read as an id of another kind. Every other id is read back as itself.
-/

namespace Marathon

open Lib PathId

variable {c : Char} {text q w digits start container : List Char} {captured : List (List Char)}
  {id : AbsolutePathId} {n : ℤ} {containerName : Option String}

namespace UUID

/-! ## UUIDs -/

theorem length_hexDigits (count n : ℕ) : (hexDigits count n).length = count := by
  induction count generalizing n with
  | zero => rfl
  | succ count ih => rw [hexDigits, List.length_append, ih, List.length_singleton]

theorem hexValue_digitChar : ∀ k < 16, hexValue (Nat.digitChar k) = some k := by decide

theorem readHex_hexDigits (count n : ℕ) : readHex (hexDigits count n) = some (n % 16 ^ count) := by
  induction count generalizing n with
  | zero =>
    rw [Nat.pow_zero, Nat.mod_one]
    rfl
  | succ count ih =>
    have hlast : hexValue (Nat.digitChar (n % 16)) = some (n % 16) :=
      hexValue_digitChar _ (Nat.mod_lt n (by decide))
    have hmod : 16 * (n / 16 % 16 ^ count) + n % 16 = n % 16 ^ (count + 1) := by
      rw [Nat.pow_succ', Nat.mod_mul, Nat.add_comm]
    have hfirst := ih (n / 16)
    rw [readHex] at hfirst
    rw [readHex, hexDigits, List.foldlM_append, hfirst]
    simp only [Option.bind_eq_bind, Option.bind_some, List.foldlM_cons, hlast, Option.map_some,
      List.foldlM_nil, hmod]
    rfl

/-- The characters of a UUID. -/
def isUuidChar (c : Char) : Bool := c.isDigit || ('a' ≤ c && c ≤ 'f') || c = '-'

theorem digit_of_mem_hexDigits {count n : ℕ} (h : c ∈ hexDigits count n) :
    ∃ k < 16, c = Nat.digitChar k := by
  induction count generalizing n with
  | zero => cases h
  | succ count ih =>
    rw [hexDigits, List.mem_append, List.mem_singleton] at h
    rcases h with h | rfl
    · exact ih h
    · exact ⟨n % 16, Nat.mod_lt n (by decide), rfl⟩

/-- The five groups of hexadecimal digits of a UUID. -/
def groups (uuid : UUID) : List (List Char) :=
  [(0, 8), (8, 4), (12, 4), (16, 4), (20, 12)].map fun (start, length) =>
    ((hexDigits 32 uuid.bits.toNat).drop start).take length

theorem toList_string (uuid : UUID) : uuid.string.toList = ['-'].intercalate uuid.groups := by
  rw [string, String.toList_intercalate, List.map_map, groups]
  simp only [Function.comp_def, String.toList_ofList]
  rfl

theorem digit_of_mem_groups {uuid : UUID} {group : List Char} (hgroup : group ∈ uuid.groups)
    (hc : c ∈ group) : ∃ k < 16, c = Nat.digitChar k := by
  obtain ⟨⟨start, length⟩, -, rfl⟩ := List.mem_map.mp hgroup
  exact digit_of_mem_hexDigits (List.mem_of_mem_drop (List.mem_of_mem_take hc))

theorem splitOn_string (uuid : UUID) : uuid.string.toList.splitOn '-' = uuid.groups := by
  rw [toList_string]
  apply List.splitOn_intercalate
  · intro group hgroup hc
    obtain ⟨k, hk, heq⟩ := digit_of_mem_groups hgroup hc
    have hne : ∀ k < 16, '-' ≠ Nat.digitChar k := by decide
    exact hne k hk heq
  · exact List.cons_ne_nil _ _

theorem flatten_groups (uuid : UUID) : uuid.groups.flatten = hexDigits 32 uuid.bits.toNat := by
  rw [groups]
  generalize hdigits : hexDigits 32 uuid.bits.toNat = digits
  have hlength : digits.length = 32 := by rw [← hdigits, length_hexDigits]
  have hlast : (digits.drop 20).take 12 = digits.drop 20 :=
    List.take_of_length_le (by rw [List.length_drop, hlength])
  have hcut : ∀ start length, (digits.drop start).take length ++ digits.drop (start + length) =
      digits.drop start := by
    intro start length
    rw [← List.drop_drop]
    exact List.take_append_drop length (digits.drop start)
  simp only [List.map_cons, List.map_nil, List.flatten_cons, List.flatten_nil, List.append_nil,
    hlast, hcut 16 4, hcut 12 4, hcut 8 4, List.drop_zero, List.take_append_drop]

/-- A UUID is read back from its text. -/
theorem fromString_string (uuid : UUID) : fromString uuid.string.toList = some uuid := by
  have hlengths : uuid.groups.map List.length = [8, 4, 4, 4, 12] := by
    simp only [groups, List.map_cons, List.map_nil, List.length_take, List.length_drop,
      length_hexDigits]
    rfl
  have hlt : uuid.bits.toNat < 16 ^ 32 := uuid.bits.isLt
  rw [fromString, splitOn_string, if_pos hlengths, flatten_groups, readHex_hexDigits,
    Nat.mod_eq_of_lt hlt, Option.map_some, BitVec.ofNat_toNat, BitVec.setWidth_eq]

theorem isUuidChar_of_mem {uuid : UUID} (h : c ∈ uuid.string.toList) : isUuidChar c = true := by
  rw [toList_string] at h
  rcases mem_intercalate h with rfl | ⟨group, hgroup, hc⟩
  · rfl
  · obtain ⟨k, hk, rfl⟩ := digit_of_mem_groups hgroup hc
    have hall : ∀ k < 16, isUuidChar (Nat.digitChar k) = true := by decide
    exact hall k hk

theorem hyphen_mem (uuid : UUID) : '-' ∈ uuid.string.toList := by
  by_contra h
  have hsplit := splitOn_string uuid
  rw [List.splitOn_eq_singleton h] at hsplit
  have hlength := congrArg List.length hsplit
  simp [groups] at hlength

end UUID

/-! ## What the expressions match -/

theorem accepts_instancePrefix :
    instancePrefix.Accepts text ↔ ∃ kind : InstanceId.Kind, text = kind.value.toList := by
  constructor
  · intro h
    rcases List.mem_cons.mp h with rfl | h
    · exact ⟨.instance, rfl⟩
    · exact ⟨.marathon, List.mem_singleton.mp h⟩
  · rintro ⟨kind, rfl⟩
    cases kind with
    | «instance» => exact List.mem_cons_self
    | marathon => exact List.mem_cons_of_mem _ List.mem_cons_self

theorem accepts_dot : dot.Accepts text ↔ text = ['.'] := by
  constructor
  · rintro ⟨c, hc, rfl⟩
    rw [of_decide_eq_true hc]
  · rintro rfl
    exact ⟨'.', rfl, rfl⟩

theorem matches_instanceIdRegex :
    instanceIdRegex.Matches text captured ↔
      ∃ (q : List Char) (kind : InstanceId.Kind) (w : List Char),
        captured = [q, ['.'], kind.value.toList, w] ∧ anything.Accepts q ∧ withoutDot.Accepts w ∧
          text = q ++ '.' :: (kind.value.toList ++ w) := by
  constructor
  · rintro ⟨hall, rfl⟩
    simp only [instanceIdRegex, List.forall₂_cons_left_iff, List.forall₂_nil_left_iff] at hall
    obtain ⟨q, _, hq, ⟨d, _, hd, ⟨k, _, hk, ⟨w, _, hw, rfl, rfl⟩, rfl⟩, rfl⟩, rfl⟩ := hall
    obtain rfl := accepts_dot.mp hd
    obtain ⟨kind, rfl⟩ := accepts_instancePrefix.mp hk
    exact ⟨q, kind, w, rfl, hq, hw, by simp⟩
  · rintro ⟨q, kind, w, rfl, hq, hw, rfl⟩
    have hd := accepts_dot.mpr rfl
    have hk := accepts_instancePrefix.mpr ⟨kind, rfl⟩
    exact ⟨.cons hq (.cons hd (.cons hk (.cons hw .nil))), by simp⟩

theorem matches_legacyTaskIdRegex :
    legacyTaskIdRegex.Matches text captured ↔
      ∃ (q : List Char) (s : Char) (w : List Char), captured = [q, [s], w] ∧ anything.Accepts q ∧
        isSeparator s = true ∧ withoutSeparator.Accepts w ∧ text = q ++ s :: w := by
  constructor
  · rintro ⟨hall, rfl⟩
    simp only [legacyTaskIdRegex, List.forall₂_cons_left_iff, List.forall₂_nil_left_iff] at hall
    obtain ⟨q, rest, hq, ⟨s, rest', hs, ⟨w, rest'', hw, rfl, rfl⟩, rfl⟩, rfl⟩ := hall
    obtain ⟨s, hs, rfl⟩ := hs
    exact ⟨q, s, w, rfl, hq, hs, hw, by simp⟩
  · rintro ⟨q, s, w, rfl, hq, hs, hw, rfl⟩
    exact ⟨.cons hq (.cons ⟨s, hs, rfl⟩ (.cons hw .nil)), by simp⟩

theorem matches_taskIdWithInstanceIdRegex :
    taskIdWithInstanceIdRegex.Matches text captured ↔
      ∃ (q : List Char) (kind : InstanceId.Kind) (w : List Char) (s : Char) (container : List Char),
        captured = [q, ['.'], kind.value.toList, w, [s], container] ∧ anything.Accepts q ∧
          withoutSeparator.Accepts w ∧ isSeparator s = true ∧ withoutDot.Accepts container ∧
            text = q ++ '.' :: (kind.value.toList ++ w) ++ s :: container := by
  constructor
  · rintro ⟨hall, rfl⟩
    simp only [taskIdWithInstanceIdRegex, List.forall₂_cons_left_iff, List.forall₂_nil_left_iff]
      at hall
    obtain ⟨q, _, hq, ⟨d, _, hd, ⟨k, _, hk, ⟨w, _, hw, ⟨s, _, hs, ⟨container, _, hc, rfl, rfl⟩, rfl⟩,
      rfl⟩, rfl⟩, rfl⟩, rfl⟩ := hall
    obtain rfl := accepts_dot.mp hd
    obtain ⟨kind, rfl⟩ := accepts_instancePrefix.mp hk
    obtain ⟨s, hs, rfl⟩ := hs
    exact ⟨q, kind, w, s, container, rfl, hq, hw, hs, hc, by simp⟩
  · rintro ⟨q, kind, w, s, container, rfl, hq, hw, hs, hc, rfl⟩
    have hd := accepts_dot.mpr rfl
    have hk := accepts_instancePrefix.mpr ⟨kind, rfl⟩
    have hs' : (Piece.one isSeparator).Accepts [s] := ⟨s, hs, rfl⟩
    exact ⟨.cons hq (.cons hd (.cons hk (.cons hw (.cons hs' (.cons hc .nil))))), by simp⟩

/-- With a dot and a run of digits at the end. -/
theorem matches_append_dot_digitRun {pattern : Pattern} :
    Pattern.Matches (pattern ++ [dot, digitRun]) text captured ↔
      ∃ (start : List Char) (earlier : List (List Char)) (digits : List Char),
        captured = earlier ++ [['.'], digits] ∧ pattern.Matches start earlier ∧
          digitRun.Accepts digits ∧ text = start ++ '.' :: digits := by
  constructor
  · rintro ⟨hall, rfl⟩
    have hcut : ∃ earlier later, List.Forall₂ Piece.Accepts pattern earlier ∧
        List.Forall₂ Piece.Accepts [dot, digitRun] later ∧ captured = earlier ++ later := by
      have hflip := List.Forall₂.flip hall
      have hearlier := List.forall₂_take_append captured pattern [dot, digitRun] hflip
      have hlater := List.forall₂_drop_append captured pattern [dot, digitRun] hflip
      exact ⟨_, _, hearlier.flip, hlater.flip, (List.take_append_drop _ captured).symm⟩
    obtain ⟨earlier, later, hearlier, hlater, rfl⟩ := hcut
    simp only [List.forall₂_cons_left_iff, List.forall₂_nil_left_iff] at hlater
    obtain ⟨d, _, hd, ⟨digits, _, hdigits, rfl, rfl⟩, rfl⟩ := hlater
    obtain rfl := accepts_dot.mp hd
    exact ⟨earlier.flatten, earlier, digits, rfl, ⟨hearlier, rfl⟩, hdigits, by simp⟩
  · rintro ⟨start, earlier, digits, rfl, ⟨hall, rfl⟩, hdigits, rfl⟩
    have hd := accepts_dot.mpr rfl
    have hlater : List.Forall₂ Piece.Accepts [dot, digitRun] [['.'], digits] :=
      .cons hd (.cons hdigits .nil)
    exact ⟨List.rel_append hall hlater, by simp⟩

/-! ## The parts of an id -/

theorem isSeparator_iff : isSeparator c = true ↔ c = '.' ∨ c = '_' := by
  rw [isSeparator, Bool.or_eq_true, decide_eq_true_iff, decide_eq_true_iff]

theorem not_isSeparator_of_isDigit (h : c.isDigit = true) : ¬ isSeparator c = true := by
  rw [isSeparator_iff]
  rintro (rfl | rfl)
  · exact absurd h (by decide)
  · exact absurd h (by decide)

namespace UUID

variable (uuid : UUID)

theorem not_isSeparator_of_mem (h : c ∈ uuid.string.toList) : ¬ isSeparator c = true := by
  have hchar := isUuidChar_of_mem h
  rw [isSeparator_iff]
  rintro (rfl | rfl)
  · exact absurd hchar (by decide)
  · exact absurd hchar (by decide)

theorem dot_notMem : '.' ∉ uuid.string.toList :=
  fun h => uuid.not_isSeparator_of_mem h rfl

theorem accepts_withoutSeparator : withoutSeparator.Accepts uuid.string.toList := by
  constructor
  · exact List.ne_nil_of_mem uuid.hyphen_mem
  · intro c hc
    rw [Bool.not_eq_true', Bool.eq_false_iff]
    exact uuid.not_isSeparator_of_mem hc

/-- No prefix of an instance id is that of a UUID. -/
theorem string_ne_kind (kind : InstanceId.Kind) (rest : List Char) :
    uuid.string.toList ≠ kind.value.toList ++ rest := by
  intro h
  have hmem : ∀ c ∈ kind.value.toList, isUuidChar c = true := by
    intro c hc
    have huuid : c ∈ uuid.string.toList := by
      rw [h]
      exact List.mem_append_left rest hc
    exact isUuidChar_of_mem huuid
  cases kind with
  | «instance» => exact absurd (hmem 'i' (by decide)) (by decide)
  | marathon => exact absurd (hmem 'm' (by decide)) (by decide)

end UUID

theorem dot_notMem_kind (kind : InstanceId.Kind) : '.' ∉ kind.value.toList := by
  cases kind <;> decide

theorem underscore_notMem_kind (kind : InstanceId.Kind) : '_' ∉ kind.value.toList := by
  cases kind <;> decide

theorem kind_append_inj {kind kind' : InstanceId.Kind} {rest rest' : List Char}
    (h : kind.value.toList ++ rest = kind'.value.toList ++ rest') : kind = kind' ∧ rest = rest' := by
  have hinstance : InstanceId.Kind.instance.value.toList = 'i' :: "nstance-".toList := rfl
  have hmarathon : InstanceId.Kind.marathon.value.toList = 'm' :: "arathon-".toList := rfl
  cases kind with
  | «instance» =>
    cases kind' with
    | «instance» => exact ⟨rfl, List.append_cancel_left h⟩
    | marathon =>
      rw [hinstance, hmarathon, List.cons_append, List.cons_append] at h
      exact absurd (List.cons.inj h).1 (by decide)
  | marathon =>
    cases kind' with
    | «instance» =>
      rw [hinstance, hmarathon, List.cons_append, List.cons_append] at h
      exact absurd (List.cons.inj h).1 (by decide)
    | marathon => exact ⟨rfl, List.append_cancel_left h⟩

theorem fromString_value (kind : InstanceId.Kind) :
    InstanceId.Kind.fromString kind.value.toList = kind := by
  cases kind <;> rfl

/-! ## Run spec ids in which an instance id seems to begin -/

/-- A text that ends in a dot, a prefix of instance ids and the rest of a label. -/
def EndsInInstance (text : List Char) : Prop :=
  ∃ (start : List Char) (kind : InstanceId.Kind) (rest : List Char), start ≠ [] ∧ rest ≠ [] ∧
    (∀ c ∈ rest, isSeparator c = false) ∧ text = start ++ '.' :: (kind.value.toList ++ rest)

/-- The safe path ends like an instance id, or with an underscore after it its last label or the
one before does. -/
def ReadsAsTask (separator : String) (safePath : List Char) : Prop :=
  EndsInInstance safePath ∨
    separator = "_" ∧ ∃ (start : List Char) (s : Char) (rest : List Char), EndsInInstance start ∧
      isSeparator s = true ∧ '.' ∉ rest ∧ safePath = start ++ s :: rest

/-- With an underscore after the safe path its last label begins like an instance id. -/
def ReadsAsInstance (separator : String) (safePath : List Char) : Prop :=
  separator = "_" ∧ ∃ (start : List Char) (kind : InstanceId.Kind) (rest : List Char), start ≠ [] ∧
    '.' ∉ rest ∧ safePath = start ++ '.' :: (kind.value.toList ++ rest)

/-! ## The ways in which a text can be cut -/

section Cuts

variable {uuid : UUID} {kind : InstanceId.Kind} {p : List Char} {s : Char}

/-- A safe path as an expression captures it. -/
def IsRun (p : List Char) : Prop := ∀ c ∈ p, isLineTerminator c = false

theorem accepts_anything : anything.Accepts p ↔ p ≠ [] ∧ IsRun p := by
  simp only [anything, Piece.Accepts, IsRun, Bool.not_eq_true']

/-- The text of a legacy id is cut at its separator. -/
theorem legacy_unique {t : Char} (hs : isSeparator s = true)
    (ht : isSeparator t = true) (hw : withoutSeparator.Accepts w)
    (h : q ++ t :: w = p ++ s :: uuid.string.toList) : q = p ∧ t = s ∧ w = uuid.string.toList := by
  have hnone : ∀ c ∈ w, ¬ isSeparator c = true := by
    intro c hc
    simpa using hw.2 c hc
  exact eq_of_last ht hs hnone (fun c hc => uuid.not_isSeparator_of_mem hc) h

/-- The text of an instance id is cut at its last dot. -/
theorem instance_unique {k : InstanceId.Kind} (hw : '.' ∉ w)
    (h : q ++ '.' :: (k.value.toList ++ w) = p ++ '.' :: (kind.value.toList ++ uuid.string.toList)) :
    q = p ∧ k = kind ∧ w = uuid.string.toList := by
  have hnone : ∀ (k : InstanceId.Kind) (w : List Char), '.' ∉ w →
      ∀ c ∈ k.value.toList ++ w, ¬ c = '.' := by
    rintro k w hw c hc rfl
    rcases List.mem_append.mp hc with hc | hc
    · exact dot_notMem_kind k hc
    · exact hw hc
  obtain ⟨rfl, -, hrest⟩ := eq_of_last (p := fun c => c = '.') rfl rfl (hnone k w hw)
    (hnone kind _ uuid.dot_notMem) h
  exact ⟨rfl, kind_append_inj hrest⟩

theorem not_mem_of_withoutDot (hw : withoutDot.Accepts w) : '.' ∉ w := by
  intro h
  exact absurd rfl (of_decide_eq_true (hw.2 '.' h))

variable (uuid) in
/-- A legacy id reads like a newer one where its run spec id does. -/
theorem exists_matches_task_iff {separator : String} (hrun : IsRun p)
    (hs : isSeparator s = true) (hseparator : separator = "_" ↔ s = '_') :
    (∃ captured, taskIdWithInstanceIdRegex.Matches (p ++ s :: uuid.string.toList) captured) ↔
      ReadsAsTask separator p := by
  constructor
  · rintro ⟨captured, hmatch⟩
    obtain ⟨q, k, w, t, container, -, hq, hw, ht, hc, htext⟩ :=
      matches_taskIdWithInstanceIdRegex.mp hmatch
    have hends : EndsInInstance (q ++ '.' :: (k.value.toList ++ w)) :=
      ⟨q, k, w, hq.1, hw.1, fun c hc => by simpa using hw.2 c hc, rfl⟩
    -- Where the expression has its second separator: just after the run spec id or in it.
    rcases List.append_eq_append_iff.mp htext with ⟨l, hl, hrest⟩ | ⟨l, hl, hrest⟩
    · cases l with
      | nil =>
        rw [List.append_nil] at hl
        rw [← hl]
        exact .inl hends
      | cons c l =>
        obtain ⟨rfl, hafter⟩ := List.cons.inj hrest
        have hmem : t ∈ uuid.string.toList := by
          rw [hafter]
          exact List.mem_append_right l List.mem_cons_self
        exact absurd ht (uuid.not_isSeparator_of_mem hmem)
    · cases l with
      | nil =>
        rw [List.append_nil] at hl
        rw [hl]
        exact .inl hends
      | cons c l =>
        rw [List.cons_append] at hrest
        obtain ⟨rfl, hafter⟩ := List.cons.inj hrest
        have hdot := not_mem_of_withoutDot hc
        rw [hafter, List.mem_append, List.mem_cons, not_or, not_or] at hdot
        have hunderscore : s = '_' := (isSeparator_iff.mp hs).resolve_left (Ne.symm hdot.2.1)
        exact .inr ⟨hseparator.mpr hunderscore, _, t, l, hends, ht, hdot.1, hl⟩
  · have huuid : withoutDot.Accepts uuid.string.toList := by
      constructor
      · exact List.ne_nil_of_mem uuid.hyphen_mem
      · intro c hc
        apply decide_eq_true
        rintro rfl
        exact uuid.dot_notMem hc
    rintro (⟨q, k, w, hq, hne, hw, rfl⟩ | ⟨hunderscore, _, t, l, ⟨q, k, w, hq, hne, hw, rfl⟩, ht, hl, rfl⟩)
    · have hrun' : anything.Accepts q :=
        accepts_anything.mpr ⟨hq, fun c hc => hrun c (List.mem_append_left _ hc)⟩
      have hw' : withoutSeparator.Accepts w := ⟨hne, fun c hc => by simpa using hw c hc⟩
      exact ⟨_, matches_taskIdWithInstanceIdRegex.mpr
        ⟨q, k, w, s, uuid.string.toList, rfl, hrun', hw', hs, huuid, rfl⟩⟩
    · have hrun' : anything.Accepts q := accepts_anything.mpr
        ⟨hq, fun c hc => hrun c (List.mem_append_left _ (List.mem_append_left _ hc))⟩
      have hw' : withoutSeparator.Accepts w := ⟨hne, fun c hc => by simpa using hw c hc⟩
      have hcontainer : withoutDot.Accepts (l ++ s :: uuid.string.toList) := by
        constructor
        · simp
        · intro c hc
          apply decide_eq_true
          rintro rfl
          rcases List.mem_append.mp hc with hc | hc
          · exact hl hc
          · rcases List.mem_cons.mp hc with heq | hc
            · exact absurd (heq.trans (hseparator.mp hunderscore)) (by decide)
            · exact uuid.dot_notMem hc
      exact ⟨_, matches_taskIdWithInstanceIdRegex.mpr
        ⟨q, k, w, t, l ++ s :: uuid.string.toList, rfl, hrun', hw', ht, hcontainer, by simp⟩⟩

theorem not_isSeparator_of_mem_digitRun (h : digitRun.Accepts digits) :
    ∀ c ∈ digits, ¬ isSeparator c = true :=
  fun c hc => not_isSeparator_of_isDigit (h.2 c hc)

/-- A legacy id does not end in an attempt. -/
theorem ne_append_dot_digits (hs : isSeparator s = true)
    (hdigits : digitRun.Accepts digits) : p ++ s :: uuid.string.toList ≠ start ++ '.' :: digits := by
  intro h
  obtain ⟨-, -, rfl⟩ := eq_of_last (p := fun c => isSeparator c = true) hs rfl
    (fun c hc => uuid.not_isSeparator_of_mem hc) (not_isSeparator_of_mem_digitRun hdigits) h
  exact absurd (hdigits.2 '-' uuid.hyphen_mem) (by decide)

theorem append_dot_digits_inj {start' digits' : List Char}
    (h : digitRun.Accepts digits) (h' : digitRun.Accepts digits')
    (heq : start ++ '.' :: digits = start' ++ '.' :: digits') : start = start' ∧ digits = digits' := by
  obtain ⟨hstart, -, hdigits⟩ := eq_of_last (p := fun c => isSeparator c = true) rfl rfl
    (not_isSeparator_of_mem_digitRun h) (not_isSeparator_of_mem_digitRun h') heq
  exact ⟨hstart, hdigits⟩

/-- What is before the attempt decides whether an expression with an attempt matches. -/
theorem matches_with_digits_iff {pattern : Pattern} (h : digitRun.Accepts digits) :
    Pattern.Matches (pattern ++ [dot, digitRun]) (text ++ '.' :: digits) captured ↔
      ∃ earlier, pattern.Matches text earlier ∧ captured = earlier ++ [['.'], digits] := by
  rw [matches_append_dot_digitRun]
  constructor
  · rintro ⟨start, earlier, digits', rfl, hmatch, hdigits, heq⟩
    obtain ⟨rfl, rfl⟩ := append_dot_digits_inj h hdigits heq
    exact ⟨earlier, hmatch, rfl⟩
  · rintro ⟨earlier, hmatch, rfl⟩
    exact ⟨text, earlier, digits, rfl, hmatch, h, rfl⟩

theorem not_isSeparator_of_mem_label {k : InstanceId.Kind}
    (hw : withoutSeparator.Accepts w) : ∀ c ∈ k.value.toList ++ w, ¬ isSeparator c = true := by
  intro c hmem hsep
  rcases List.mem_append.mp hmem with hmem | hmem
  · rcases isSeparator_iff.mp hsep with rfl | rfl
    · exact dot_notMem_kind k hmem
    · exact underscore_notMem_kind k hmem
  · have hfalse : isSeparator c = false := by simpa using hw.2 c hmem
    rw [hfalse] at hsep
    cases hsep

theorem task_cut {base tail : List Char} (htail : '.' ∉ tail)
    (hmatch : taskIdWithInstanceIdRegex.Matches (base ++ '.' :: tail) captured) :
    ∃ (q : List Char) (k : InstanceId.Kind) (w : List Char), anything.Accepts q ∧
      withoutSeparator.Accepts w ∧
        ((captured = [q, ['.'], k.value.toList, w, ['.'], tail] ∧
            base = q ++ '.' :: (k.value.toList ++ w)) ∨
          ∃ container, tail = k.value.toList ++ w ++ '_' :: container) := by
  obtain ⟨q, k, w, t, container, rfl, hq, hw, ht, hc, htext⟩ :=
    matches_taskIdWithInstanceIdRegex.mp hmatch
  refine ⟨q, k, w, hq, hw, ?_⟩
  have htailDot : ∀ c ∈ tail, ¬ c = '.' := by
    rintro c hmem rfl
    exact htail hmem
  have hdot := not_mem_of_withoutDot hc
  rcases isSeparator_iff.mp ht with rfl | rfl
  · have hcDot : ∀ c ∈ container, ¬ c = '.' := by
      rintro c hmem rfl
      exact hdot hmem
    obtain ⟨hbase, -, rfl⟩ := eq_of_last (p := fun c => c = '.') rfl rfl htailDot hcDot htext
    exact .inl ⟨rfl, hbase⟩
  · have hcDot : ∀ c ∈ k.value.toList ++ w ++ '_' :: container, ¬ c = '.' := by
      rintro c hmem rfl
      rcases List.mem_append.mp hmem with hmem | hmem
      · exact not_isSeparator_of_mem_label hw '.' hmem rfl
      · exact hdot ((List.mem_cons.mp hmem).resolve_left (by decide))
    have htext' : base ++ '.' :: tail = q ++ '.' :: (k.value.toList ++ w ++ '_' :: container) := by
      rw [htext, List.append_assoc, List.cons_append]
    obtain ⟨-, -, rfl⟩ := eq_of_last (p := fun c => c = '.') rfl rfl htailDot hcDot htext'
    exact .inr ⟨container, rfl⟩

/-- A legacy id with an attempt is not read as a task id without one. -/
theorem not_matches_task_of_digits (hs : isSeparator s = true) (hdigits : digitRun.Accepts digits) :
    ¬ taskIdWithInstanceIdRegex.Matches (p ++ s :: uuid.string.toList ++ '.' :: digits) captured := by
  intro hmatch
  have hnone := not_isSeparator_of_mem_digitRun hdigits
  obtain ⟨q, k, w, -, hw, hcut⟩ := task_cut (fun h => hnone '.' h rfl) hmatch
  rcases hcut with ⟨-, hlegacy⟩ | ⟨container, rfl⟩
  · obtain ⟨-, -, huuid⟩ := eq_of_last (p := fun c => isSeparator c = true) hs rfl
      (fun c hc => uuid.not_isSeparator_of_mem hc) (not_isSeparator_of_mem_label hw) hlegacy
    exact uuid.string_ne_kind k w huuid
  · exact hnone '_' (List.mem_append_right _ List.mem_cons_self) rfl

/-- A container name as it stands in a task id: no part of it reads like a UUID with a prefix. -/
def IsContainer (container : List Char) : Prop :=
  withoutDot.Accepts container ∧ ∀ (k : InstanceId.Kind) (rest : List Char),
    '_' ∈ rest → container ≠ k.value.toList ++ rest

/-- The text of an instance id. -/
def instanceText (p : List Char) (kind : InstanceId.Kind) (uuid : UUID) : List Char :=
  p ++ '.' :: (kind.value.toList ++ uuid.string.toList)

/-- A task id is cut in one way. -/
theorem task_unique (hcontainer : IsContainer container)
    (hmatch : taskIdWithInstanceIdRegex.Matches (instanceText p kind uuid ++ '.' :: container)
      captured) :
    captured = [p, ['.'], kind.value.toList, uuid.string.toList, ['.'], container] := by
  obtain ⟨q, k, w, -, hw, hcut⟩ := task_cut (not_mem_of_withoutDot hcontainer.1) hmatch
  rcases hcut with ⟨rfl, hbase⟩ | ⟨rest, hrest⟩
  · have hdot : '.' ∉ w := fun h =>
      not_isSeparator_of_mem_label (k := k) hw '.' (List.mem_append_right _ h) rfl
    rw [instanceText] at hbase
    obtain ⟨hq, hk, huuid⟩ := instance_unique hdot hbase.symm
    rw [hq, hk, huuid]
  · rw [List.append_assoc] at hrest
    have hmem : '_' ∈ w ++ '_' :: rest := List.mem_append_right w List.mem_cons_self
    exact absurd hrest (hcontainer.2 k _ hmem)

theorem accepts_of_matches_task (hcontainer : IsContainer container)
    (hmatch : taskIdWithInstanceIdRegex.Matches (instanceText p kind uuid ++ '.' :: container)
      captured) : anything.Accepts p := by
  have hunique := task_unique hcontainer hmatch
  obtain ⟨q, k, w, t, rest, rfl, hq, -⟩ := matches_taskIdWithInstanceIdRegex.mp hmatch
  rwa [(List.cons.inj hunique).1] at hq

variable (uuid kind) in
theorem matches_task (hp : anything.Accepts p) (hcontainer : IsContainer container) :
    taskIdWithInstanceIdRegex.Matches (instanceText p kind uuid ++ '.' :: container)
      [p, ['.'], kind.value.toList, uuid.string.toList, ['.'], container] :=
  matches_taskIdWithInstanceIdRegex.mpr ⟨p, kind, uuid.string.toList, '.', container, rfl, hp,
    uuid.accepts_withoutSeparator, rfl, hcontainer.1, rfl⟩

variable (uuid kind) in
/-- An instance id reads like a task id where its run spec id ends like an instance id. -/
theorem exists_matches_task_instanceText_iff (hrun : IsRun p) :
    (∃ captured, taskIdWithInstanceIdRegex.Matches (instanceText p kind uuid) captured) ↔
      EndsInInstance p := by
  have hdot : '.' ∉ kind.value.toList ++ uuid.string.toList := by
    rw [List.mem_append, not_or]
    exact ⟨dot_notMem_kind kind, uuid.dot_notMem⟩
  constructor
  · rintro ⟨captured, hmatch⟩
    obtain ⟨q, k, w, hq, hw, hcut⟩ := task_cut hdot hmatch
    rcases hcut with ⟨-, rfl⟩ | ⟨rest, hrest⟩
    · exact ⟨q, k, w, hq.1, hw.1, fun c hc => by simpa using hw.2 c hc, rfl⟩
    · have hmem : '_' ∈ kind.value.toList ++ uuid.string.toList := by
        rw [hrest]
        exact List.mem_append_right _ List.mem_cons_self
      rcases List.mem_append.mp hmem with hmem | hmem
      · exact absurd hmem (underscore_notMem_kind kind)
      · exact absurd rfl (uuid.not_isSeparator_of_mem hmem)
  · rintro ⟨q, k, w, hq, hne, hw, rfl⟩
    have hrun' : anything.Accepts q :=
      accepts_anything.mpr ⟨hq, fun c hc => hrun c (List.mem_append_left _ hc)⟩
    have hw' : withoutSeparator.Accepts w := ⟨hne, fun c hc => by simpa using hw c hc⟩
    have hcontainer : withoutDot.Accepts (kind.value.toList ++ uuid.string.toList) := by
      constructor
      · exact List.append_ne_nil_of_right_ne_nil _ (List.ne_nil_of_mem uuid.hyphen_mem)
      · intro c hc
        apply decide_eq_true
        rintro rfl
        exact hdot hc
    exact ⟨_, matches_taskIdWithInstanceIdRegex.mpr
      ⟨q, k, w, '.', _, rfl, hrun', hw', rfl, hcontainer, rfl⟩⟩

end Cuts

/-! ## The texts of ids -/

theorem toNat_of_isSegmentChar (h : isSegmentChar c = true) : 45 ≤ c.toNat ∧ c.toNat ≤ 122 := by
  rw [isSegmentChar, isAlphanumeric, Bool.or_eq_true, Bool.or_eq_true, Bool.or_eq_true,
    decide_eq_true_iff, decide_eq_true_iff] at h
  rcases h with ((hlower | hdigit) | rfl) | rfl
  · have hbounds : 97 ≤ c.toNat ∧ c.toNat ≤ 122 := by
      have hvalues : (decide ('a'.val ≤ c.val) && decide (c.val ≤ 'z'.val)) = true := hlower
      simpa [UInt32.le_iff_toNat_le] using hvalues
    omega
  · have hbounds : 48 ≤ c.toNat ∧ c.toNat ≤ 57 := by
      have hvalues : (decide ('0'.val ≤ c.val) && decide (c.val ≤ '9'.val)) = true := hdigit
      simpa [UInt32.le_iff_toNat_le] using hvalues
    omega
  · decide
  · decide

theorem isRun_safePath (h : validPathChars id) : IsRun id.safePath.toList := by
  intro c hc
  rw [AbsolutePathId.safePath, String.toList_intercalate] at hc
  rcases mem_intercalate hc with rfl | ⟨text, htext, hc⟩
  · rfl
  · obtain ⟨segment, hsegment, rfl⟩ := List.mem_map.mp htext
    have hchar := isSegmentChar_of_mem (List.all_eq_true.mp h segment hsegment) hc
    have hbounds := toNat_of_isSegmentChar hchar
    rw [Bool.eq_false_iff]
    intro hline
    simp only [isLineTerminator, Bool.or_eq_true, decide_eq_true_eq] at hline
    rcases hline with (((rfl | rfl) | hnat) | hnat) | hnat
    · exact absurd hbounds (by decide)
    · exact absurd hbounds (by decide)
    all_goals omega

theorem safePath_eq_nil_iff (h : validPathChars id) :
    id.safePath.toList = [] ↔ id.isRoot = true := by
  rw [String.toList_eq_nil_iff]
  constructor
  · intro hempty
    rw [← fromSafePath_safePath h, hempty]
    rfl
  · intro hroot
    obtain ⟨path⟩ := id
    obtain rfl := List.isEmpty_iff.mp hroot
    rfl

theorem accepts_safePath (h : validPathChars id) (hroot : id.isRoot = false) :
    anything.Accepts id.safePath.toList := by
  refine accepts_anything.mpr ⟨?_, isRun_safePath h⟩
  rw [Ne, safePath_eq_nil_iff h, hroot]
  exact Bool.false_ne_true

theorem isRoot_eq_false (h : validPathChars id)
    (haccepts : anything.Accepts id.safePath.toList) : id.isRoot = false := by
  rw [Bool.eq_false_iff]
  intro hroot
  exact haccepts.1 ((safePath_eq_nil_iff h).mpr hroot)

theorem fromSafePath_toList (h : validPathChars id) :
    fromSafePath (String.ofList id.safePath.toList) = id := by
  rw [String.ofList_toList, fromSafePath_safePath h]

theorem ofGroups_instanceId {id : InstanceId} (h : validPathChars id.runSpecId) :
    InstanceId.ofGroups id.runSpecId.safePath.toList id.kind.value.toList id.uuid.string.toList =
      some id := by
  rw [InstanceId.ofGroups, UUID.fromString_string, Option.map_some, fromSafePath_toList h,
    fromString_value]

theorem toList_idString (id : InstanceId) :
    id.idString.toList = instanceText id.runSpecId.safePath.toList id.kind id.uuid := by
  rw [InstanceId.idString, instanceText, String.toList_append, String.toList_append,
    String.toList_append, List.append_assoc, List.append_assoc]
  rfl

/-! ## Attempts -/

/-- The numbers of a `Long`. -/
def IsLong (n : ℤ) : Prop := -9223372036854775808 ≤ n ∧ n < 9223372036854775808

theorem toList_attempt (h : 0 ≤ n) : (toString n).toList = Nat.toDigits 10 n.toNat := by
  rw [Int.toString_eq_repr, Int.repr_eq_if, if_pos h, Nat.toList_repr]

theorem accepts_attempt (h : 0 ≤ n) : digitRun.Accepts (toString n).toList := by
  rw [toList_attempt h]
  exact ⟨Nat.toDigits_ne_nil, fun c hc => Nat.isDigit_of_mem_toDigits (by decide) (by decide) hc⟩

theorem toLong_attempt (h : 0 ≤ n) (hlong : IsLong n) : toLong (toString n).toList = some n := by
  have hlt : n.toNat < 9223372036854775808 := by
    have hbound := hlong.2
    omega
  rw [toLong, toList_attempt h, Nat.ofDigitChars_ten_toDigits, if_pos hlt, Int.toNat_of_nonneg h]

theorem hyphen_mem_attempt (h : n < 0) : '-' ∈ (toString n).toList := by
  rw [Int.toString_eq_repr, Int.repr_eq_if, if_neg (by omega), String.toList_append]
  exact List.mem_append_left _ (by decide)

theorem not_isSeparator_of_mem_attempt (n : ℤ) :
    ∀ c ∈ (toString n).toList, ¬ isSeparator c = true := by
  by_cases h : 0 ≤ n
  · exact not_isSeparator_of_mem_digitRun (accepts_attempt h)
  · rw [Int.toString_eq_repr, Int.repr_eq_if, if_neg h, String.toList_append, Nat.toList_repr]
    intro c hc
    rcases List.mem_append.mp hc with hc | hc
    · have hhyphen : c = '-' := by simpa using hc
      rw [hhyphen]
      decide
    · exact not_isSeparator_of_isDigit (Nat.isDigit_of_mem_toDigits (by decide) (by decide) hc)

/-! ## What is read -/

namespace TaskId

/-- The expression that matched is that of the constructor, and no earlier one did. -/
theorem matches_of_parse {s : String} {id : TaskId} (h : parse s = some id) :
    match id with
    | legacyId .. => (∀ captured, ¬ taskIdWithInstanceIdRegex.Matches s.toList captured) ∧
        ∃ captured, legacyTaskIdRegex.Matches s.toList captured
    | legacyResidentId .. =>
      (∀ captured, ¬ taskIdWithInstanceIdAndIncarnationRegex.Matches s.toList captured) ∧
        ∃ captured, residentTaskIdRegex.Matches s.toList captured
    | ephemeralTaskId .. =>
      (∀ captured, ¬ taskIdWithInstanceIdAndIncarnationRegex.Matches s.toList captured) ∧
        ∃ captured, taskIdWithInstanceIdRegex.Matches s.toList captured
    | taskIdWithIncarnation .. =>
      ∃ captured, taskIdWithInstanceIdAndIncarnationRegex.Matches s.toList captured := by
  rw [parse] at h
  rcases Pattern.captures_cases taskIdWithInstanceIdAndIncarnationRegex s.toList with
    ⟨hnone₁, hno₁⟩ | ⟨captured, hsome, hmatch⟩
  swap
  · obtain ⟨_, earlier, digits, rfl, hearlier, -, -⟩ := matches_append_dot_digitRun.mp hmatch
    obtain ⟨q, k, w, t, container, rfl, -⟩ := matches_taskIdWithInstanceIdRegex.mp hearlier
    rw [hsome] at h
    obtain ⟨_, -, h⟩ := Option.bind_eq_some_iff.mp h
    obtain ⟨_, -, h⟩ := Option.bind_eq_some_iff.mp h
    cases h
    exact ⟨_, hmatch⟩
  rcases Pattern.captures_cases taskIdWithInstanceIdRegex s.toList with
    ⟨hnone₂, hno₂⟩ | ⟨captured, hsome, hmatch⟩
  swap
  · obtain ⟨q, k, w, t, container, rfl, -⟩ := matches_taskIdWithInstanceIdRegex.mp hmatch
    rw [hnone₁, hsome] at h
    obtain ⟨_, -, h⟩ := Option.bind_eq_some_iff.mp h
    cases h
    exact ⟨hno₁, _, hmatch⟩
  rcases Pattern.captures_cases residentTaskIdRegex s.toList with
    ⟨hnone₃, hno₃⟩ | ⟨captured, hsome, hmatch⟩
  swap
  · obtain ⟨_, earlier, digits, rfl, hearlier, -, -⟩ := matches_append_dot_digitRun.mp hmatch
    obtain ⟨q, t, w, rfl, -⟩ := matches_legacyTaskIdRegex.mp hearlier
    rw [hnone₁, hnone₂, hsome] at h
    obtain ⟨_, -, h⟩ := Option.bind_eq_some_iff.mp h
    obtain ⟨_, -, h⟩ := Option.bind_eq_some_iff.mp h
    cases h
    exact ⟨hno₁, _, hmatch⟩
  rcases Pattern.captures_cases legacyTaskIdRegex s.toList with
    ⟨hnone₄, hno₄⟩ | ⟨captured, hsome, hmatch⟩
  · rw [hnone₁, hnone₂, hnone₃, hnone₄] at h
    cases h
  · obtain ⟨q, t, w, rfl, -⟩ := matches_legacyTaskIdRegex.mp hmatch
    rw [hnone₁, hnone₂, hnone₃, hsome] at h
    obtain ⟨_, -, h⟩ := Option.bind_eq_some_iff.mp h
    cases h
    exact ⟨hno₂, _, hmatch⟩

/-- `Name`, which the names of containers are checked against. -/
def isContainerName (name : String) : Bool := isLabel name.toList && name.length ≤ 63

theorem isContainer_getD (h : ∀ name ∈ containerName, isContainerName name = true) :
    IsContainer (containerName.getD anonymousContainer).toList := by
  cases containerName with
  | none =>
    have htext : (none.getD anonymousContainer).toList = ['_', 'a', 'p', 'p'] := rfl
    refine ⟨?_, ?_⟩
    · rw [htext]
      refine ⟨List.cons_ne_nil _ _, fun c hc => decide_eq_true ?_⟩
      rintro rfl
      simp at hc
    intro k rest _ heq
    cases k with
    | «instance» =>
      have hcons : '_' :: "app".toList = 'i' :: ("nstance-".toList ++ rest) := heq
      exact absurd (List.cons.inj hcons).1 (by decide)
    | marathon =>
      have hcons : '_' :: "app".toList = 'm' :: ("arathon-".toList ++ rest) := heq
      exact absurd (List.cons.inj hcons).1 (by decide)
  | some name =>
    have hname := h name rfl
    rw [isContainerName, Bool.and_eq_true, isLabel, Bool.and_eq_true, Bool.and_eq_true,
      List.all_eq_true] at hname
    obtain ⟨⟨⟨hhead, -⟩, hall⟩, -⟩ := hname
    have hchar : ∀ c ∈ name.toList, ¬ isSeparator c = true := by
      intro c hc
      have hlabel := hall c hc
      rw [isSeparator_iff]
      rintro (rfl | rfl)
      · exact absurd hlabel (by decide)
      · exact absurd hlabel (by decide)
    have hne : name.toList ≠ [] := by
      intro hnil
      rw [hnil] at hhead
      cases hhead
    refine ⟨⟨hne, fun c hc => decide_eq_true ?_⟩, ?_⟩
    · rintro rfl
      exact hchar '.' hc rfl
    · intro k rest hmem heq
      have hunderscore : '_' ∈ name.toList := by
        have htext : name.toList = k.value.toList ++ rest := heq
        rw [htext]
        exact List.mem_append_right _ hmem
      exact hchar '_' hunderscore rfl

theorem containerNameOf_getD (h : ∀ name ∈ containerName, isContainerName name = true) :
    containerNameOf (containerName.getD anonymousContainer).toList = containerName := by
  rw [containerNameOf, String.ofList_toList]
  cases containerName with
  | none => rfl
  | some name =>
    have hne : name ≠ anonymousContainer := by
      rintro rfl
      exact absurd (h anonymousContainer rfl) (by decide)
    rw [Option.getD_some, if_neg hne]

/-! ## The texts of task ids -/

section Texts

variable {i : InstanceId} {containerName : Option String} {n : ℤ} {runSpecId : AbsolutePathId}
  {separator : String} {s : Char} {uuid : UUID}

theorem toList_ephemeralTaskId : (ephemeralTaskId i containerName).idString.toList =
    instanceText i.runSpecId.safePath.toList i.kind i.uuid ++
      '.' :: (containerName.getD anonymousContainer).toList := by
  rw [idString, String.toList_append, String.toList_append, toList_idString, List.append_assoc]
  rfl

theorem toList_taskIdWithIncarnation : (taskIdWithIncarnation i containerName n).idString.toList =
    instanceText i.runSpecId.safePath.toList i.kind i.uuid ++
      '.' :: (containerName.getD anonymousContainer).toList ++ '.' :: (toString n).toList := by
  have hdot : ".".toList = ['.'] := rfl
  simp only [idString, String.toList_append, toList_idString, hdot, List.append_assoc,
    List.cons_append, List.nil_append]

theorem toList_legacyId (hs : separator.toList = [s]) :
    (legacyId runSpecId separator uuid).idString.toList =
      runSpecId.safePath.toList ++ s :: uuid.string.toList := by
  rw [idString, String.toList_append, String.toList_append, hs, List.append_assoc]
  rfl

theorem toList_legacyResidentId (hs : separator.toList = [s]) :
    (legacyResidentId runSpecId separator uuid n).idString.toList =
      runSpecId.safePath.toList ++ s :: uuid.string.toList ++ '.' :: (toString n).toList := by
  have hdot : ".".toList = ['.'] := rfl
  simp only [idString, String.toList_append, hs, hdot, List.append_assoc, List.cons_append,
    List.nil_append]

end Texts

end TaskId

end Marathon
