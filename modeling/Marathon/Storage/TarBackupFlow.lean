import Marathon.Instance.IdStrings
import Marathon.Lib.IsoDateTime
import Marathon.Stream.Ustar

/-!
# Backups in tar balls

An item of a backup is an entry of a tar ball whose path has the category, the key and the
version in it. It is read back from the path with one of two regular expressions.
-/

namespace Marathon

open Lib TarFlow

structure BackupItem where
  category : String
  key : String
  version : Option OffsetDateTime
  data : Bytes
deriving DecidableEq

variable {text : List Char} {captured : List (List Char)} {item : BackupItem} {entry : TarEntry}
  {items : List (BackupItem × Attributes)}

namespace TarBackupFlow

variable {commons : CommonsCompress}

/-! ## Writing -/

def path (item : BackupItem) : String :=
  match item.version with
  | some dt => item.category ++ "/versions/" ++ item.key ++ "/" ++ dt.print
  | none => item.category ++ "/items/" ++ item.key

/-- An entry for an item, with what the clock and the system say of it. -/
def backupItemToTarEntry (commons : CommonsCompress) (item : BackupItem × Attributes) : TarEntry :=
  TarEntry.ofName commons (path item.1) item.1.data item.2

def tar (commons : CommonsCompress) (items : List (BackupItem × Attributes)) : List Bytes :=
  writer commons (items.map (backupItemToTarEntry commons))

/-! ## Reading -/

/-- `[^/]+`. -/
def withoutSlash : Piece := .plus fun c => c ≠ '/'

/-- `^([^/]+)/items/(.+)$`. -/
def categoryItemRegexp : Pattern := [withoutSlash, .word ["/items/".toList], anything]

/-- `^([^/]+)/versions/([^/]+)/(.+)$`. -/
def categoryItemWithVersionRegexp : Pattern :=
  [withoutSlash, .word ["/versions/".toList], withoutSlash, .one fun c => c = '/', anything]

def tarEntryToBackupItem (entry : TarEntry) : Except String BackupItem :=
  let name := entry.header.name
  match categoryItemWithVersionRegexp.captures name.toList with
  | some [category, _, key, _, version] =>
    match OffsetDateTime.parse (String.ofList version) with
    | some dt => .ok ⟨String.ofList category, String.ofList key, some dt, entry.data⟩
    | none => .error ("Text '" ++ String.ofList version ++ "' could not be parsed")
  | _ =>
    match categoryItemRegexp.captures name.toList with
    | some [category, _, key] =>
      .ok ⟨String.ofList category, String.ofList key, none, entry.data⟩
    | _ => .error ("Can not read: " ++ name)

def untar (commons : CommonsCompress) (chunks : List Bytes) : Except String (List BackupItem) :=
  reader commons chunks >>= List.mapM tarEntryToBackupItem

/-! ## Items that are read back -/

/-- A category and a key that are not empty and have no slash in them, and no line break in the
key. -/
structure IsStored (item : BackupItem) : Prop where
  category : item.category ≠ ""
  category_slash : ∀ c ∈ item.category.toList, c ≠ '/'
  key : item.key ≠ ""
  key_slash : ∀ c ∈ item.key.toList, c ≠ '/'
  key_line : ∀ c ∈ item.key.toList, isLineTerminator c = false

theorem toList_ne_nil {s : String} (h : s ≠ "") : s.toList ≠ [] :=
  fun hnil => h (String.toList_eq_nil_iff.mp hnil)

theorem accepts_withoutSlash {s : String} (h : s ≠ "") (hslash : ∀ c ∈ s.toList, c ≠ '/') :
    withoutSlash.Accepts s.toList :=
  ⟨toList_ne_nil h, fun c hc => decide_eq_true (hslash c hc)⟩

theorem slash_of_accepts (h : withoutSlash.Accepts text) : ∀ c ∈ text, ¬ c = '/' :=
  fun c hc => of_decide_eq_true (h.2 c hc)

theorem isDateChar_of_isLineTerminator {c : Char} (h : isLineTerminator c = true) :
    OffsetDateTime.isDateChar c = false := by
  have hchar : ∀ n, c.toNat = n → c = Char.ofNat n := fun n hn => hn ▸ (Char.ofNat_toNat c).symm
  simp only [isLineTerminator, Bool.or_eq_true, decide_eq_true_eq] at h
  rcases h with (((rfl | rfl) | h) | h) | h
  · decide
  · decide
  all_goals
    rw [hchar _ h]
    decide

theorem accepts_print (dt : OffsetDateTime) : anything.Accepts dt.print.toList := by
  refine ⟨toList_ne_nil dt.print_ne_empty, fun c hc => ?_⟩
  have hdate := List.all_eq_true.mp dt.all_print c hc
  by_contra hline
  rw [Bool.not_eq_true', Bool.not_eq_false] at hline
  rw [isDateChar_of_isLineTerminator hline] at hdate
  cases hdate

theorem matches_categoryItemRegexp :
    categoryItemRegexp.Matches text captured ↔
      ∃ category key, captured = [category, "/items/".toList, key] ∧
        withoutSlash.Accepts category ∧ anything.Accepts key ∧
        text = category ++ '/' :: ("items/".toList ++ key) := by
  constructor
  · rintro ⟨hall, rfl⟩
    simp only [categoryItemRegexp, List.forall₂_cons_left_iff, List.forall₂_nil_left_iff] at hall
    obtain ⟨category, _, hcategory, ⟨word, _, hword, ⟨key, _, hkey, rfl, rfl⟩, rfl⟩, rfl⟩ := hall
    obtain rfl := List.mem_singleton.mp hword
    exact ⟨category, key, rfl, hcategory, hkey, by simp⟩
  · rintro ⟨category, key, rfl, hcategory, hkey, rfl⟩
    exact ⟨.cons hcategory (.cons (List.mem_singleton_self _) (.cons hkey .nil)), by simp⟩

theorem matches_categoryItemWithVersionRegexp :
    categoryItemWithVersionRegexp.Matches text captured ↔
      ∃ category key version, captured = [category, "/versions/".toList, key, ['/'], version] ∧
        withoutSlash.Accepts category ∧ withoutSlash.Accepts key ∧ anything.Accepts version ∧
        text = category ++ '/' :: ("versions/".toList ++ (key ++ '/' :: version)) := by
  constructor
  · rintro ⟨hall, rfl⟩
    simp only [categoryItemWithVersionRegexp, List.forall₂_cons_left_iff,
      List.forall₂_nil_left_iff] at hall
    obtain ⟨category, _, hcategory, ⟨word, _, hword, ⟨key, _, hkey, ⟨slash, _, hslash,
      ⟨version, _, hversion, rfl, rfl⟩, rfl⟩, rfl⟩, rfl⟩, rfl⟩ := hall
    obtain rfl := List.mem_singleton.mp hword
    obtain ⟨c, hc, rfl⟩ := hslash
    obtain rfl := of_decide_eq_true hc
    exact ⟨category, key, version, rfl, hcategory, hkey, hversion, by simp⟩
  · rintro ⟨category, key, version, rfl, hcategory, hkey, hversion, rfl⟩
    exact ⟨.cons hcategory (.cons (List.mem_singleton_self _) (.cons hkey
      (.cons ⟨'/', rfl, rfl⟩ (.cons hversion .nil)))), by simp⟩

theorem category_unique {category category' rest rest' : List Char}
    (h : withoutSlash.Accepts category) (h' : withoutSlash.Accepts category')
    (heq : category ++ '/' :: rest = category' ++ '/' :: rest') :
    category = category' ∧ rest = rest' := by
  obtain ⟨hcategory, -, hrest⟩ := eq_of_first (p := (· = '/')) rfl rfl (slash_of_accepts h)
    (slash_of_accepts h') heq
  exact ⟨hcategory, hrest⟩

theorem toList_path (item : BackupItem) :
    (path item).toList = item.category.toList ++ '/' ::
      item.version.elim ("items/".toList ++ item.key.toList)
        fun dt => "versions/".toList ++ (item.key.toList ++ '/' :: dt.print.toList) := by
  obtain ⟨category, key, version, data⟩ := item
  cases version with
  | none => simp [path]
  | some dt => simp [path]

theorem captures_versions {dt : OffsetDateTime} (h : IsStored item)
    (hversion : item.version = some dt) :
    categoryItemWithVersionRegexp.captures (path item).toList =
      some [item.category.toList, "/versions/".toList, item.key.toList, ['/'],
        dt.print.toList] := by
  have hcategory := accepts_withoutSlash h.category h.category_slash
  have hkey := accepts_withoutSlash h.key h.key_slash
  rw [toList_path, hversion, Option.elim_some]
  apply Pattern.captures_eq_some
  · exact matches_categoryItemWithVersionRegexp.mpr
      ⟨_, _, _, rfl, hcategory, hkey, accepts_print dt, rfl⟩
  · intro other hother
    obtain ⟨category, key, version, rfl, hcategory', hkey', -, heq⟩ :=
      matches_categoryItemWithVersionRegexp.mp hother
    obtain ⟨rfl, hrest⟩ := category_unique hcategory hcategory' heq
    obtain ⟨rfl, rfl⟩ := category_unique hkey hkey' (List.append_cancel_left hrest)
    rfl

theorem captures_versions_none (h : IsStored item) (hversion : item.version = none) :
    categoryItemWithVersionRegexp.captures (path item).toList = none := by
  apply Pattern.captures_eq_none
  intro captured hmatch
  obtain ⟨category, key, version, -, hcategory, -, -, heq⟩ :=
    matches_categoryItemWithVersionRegexp.mp hmatch
  rw [toList_path, hversion, Option.elim_none] at heq
  obtain ⟨-, hrest⟩ := category_unique (accepts_withoutSlash h.category h.category_slash)
    hcategory heq
  cases hrest

theorem captures_items (h : IsStored item) (hversion : item.version = none) :
    categoryItemRegexp.captures (path item).toList =
      some [item.category.toList, "/items/".toList, item.key.toList] := by
  have hcategory := accepts_withoutSlash h.category h.category_slash
  have hkey : anything.Accepts item.key.toList :=
    ⟨toList_ne_nil h.key, fun c hc => congrArg not (h.key_line c hc)⟩
  rw [toList_path, hversion, Option.elim_none]
  apply Pattern.captures_eq_some
  · exact matches_categoryItemRegexp.mpr ⟨_, _, rfl, hcategory, hkey, rfl⟩
  · intro other hother
    obtain ⟨category, key, rfl, hcategory', -, heq⟩ := matches_categoryItemRegexp.mp hother
    obtain ⟨rfl, hrest⟩ := category_unique hcategory hcategory' heq
    obtain rfl := List.append_cancel_left hrest
    rfl

theorem tarEntryToBackupItem_eq (h : IsStored item)
    (hname : entry.header.name = path item) (hdata : entry.data = item.data) :
    tarEntryToBackupItem entry = .ok item := by
  cases hversion : item.version with
  | some dt =>
    simp only [tarEntryToBackupItem, hname, captures_versions h hversion, String.ofList_toList,
      OffsetDateTime.parse_print, hdata]
    rw [← hversion]
  | none =>
    simp only [tarEntryToBackupItem, hname, captures_versions_none h hversion,
      captures_items h hversion, String.ofList_toList, hdata]
    rw [← hversion]

/-! ## Round trips -/

theorem toList_path_ne_nil (item : BackupItem) : (path item).toList ≠ [] := by
  rw [toList_path]
  exact List.append_ne_nil_of_right_ne_nil _ (List.cons_ne_nil _ _)

theorem isFileName_path (hcategory : item.category ≠ "")
    (hslash : ∀ c ∈ item.category.toList, c ≠ '/')
    (hlast : item.version = none → item.key.toList.getLast? ≠ some '/' ∧ item.key ≠ "") :
    IsFileName (path item) := by
  refine ⟨fun h => toList_path_ne_nil item (by rw [h]; rfl), ?_, ?_⟩
  · rw [toList_path, List.head?_append_of_ne_nil _ (toList_ne_nil hcategory)]
    intro h
    exact hslash '/' (List.mem_of_head? h) rfl
  · rw [toList_path]
    cases hversion : item.version with
    | none =>
      obtain ⟨hkey, hne⟩ := hlast hversion
      have hsplit : item.category.toList ++ '/' :: ("items/".toList ++ item.key.toList) =
          (item.category.toList ++ '/' :: "items/".toList) ++ item.key.toList := by simp
      rw [Option.elim_none, hsplit, List.getLast?_append_of_ne_nil _ (toList_ne_nil hne)]
      exact hkey
    | some dt =>
      have hsplit : item.category.toList ++ '/' ::
          ("versions/".toList ++ (item.key.toList ++ '/' :: dt.print.toList)) =
          (item.category.toList ++ '/' :: "versions/".toList ++ item.key.toList ++ ['/']) ++
            dt.print.toList := by simp
      rw [Option.elim_some, hsplit,
        List.getLast?_append_of_ne_nil _ (toList_ne_nil dt.print_ne_empty)]
      intro h
      have hdate := List.all_eq_true.mp dt.all_print '/' (List.mem_of_getLast? h)
      exact absurd hdate (by decide)

theorem writable_entry {item : BackupItem × Attributes} (hnames : commons.KeepsNames)
    (hfile : IsFileName (path item.1))
    (hencodes : commons.EncodesEntry (backupItemToTarEntry commons item))
    (hsize : (writeEntry commons (backupItemToTarEntry commons item)).length ≤ maxInt) :
    Writable commons (backupItemToTarEntry commons item) := by
  obtain ⟨hname, hflag⟩ := hnames.newEntry _ hfile
  refine ⟨?_, hflag, hsize, hencodes⟩
  have hsame : (backupItemToTarEntry commons item).header.name = path item.1 := hname
  rw [hsame]
  exact hfile

theorem reader_tar (hnames : commons.KeepsNames) (hfile : ∀ item ∈ items, IsFileName (path item.1))
    (hencodes : ∀ item ∈ items, commons.EncodesEntry (backupItemToTarEntry commons item))
    (hsize : ∀ item ∈ items,
      (writeEntry commons (backupItemToTarEntry commons item)).length ≤ maxInt)
    {chunks : List Bytes} (hchunks : chunks.flatten = (tar commons items).flatten) :
    ∃ entries, reader commons chunks = .ok entries ∧ List.Forall₂ (fun item entry =>
      entry.header.name = path item.1 ∧ entry.data = item.1.data) items entries := by
  have hwritable : ∀ entry ∈ items.map (backupItemToTarEntry commons), Writable commons entry := by
    intro entry hentry
    obtain ⟨item, hitem, rfl⟩ := List.mem_map.mp hentry
    exact writable_entry hnames (hfile item hitem) (hencodes item hitem) (hsize item hitem)
  have hname : ∀ item ∈ items, (backupItemToTarEntry commons item).header.name = path item.1 :=
    fun item hitem => (hnames.newEntry _ (hfile item hitem)).1
  obtain ⟨entries, hall, hreader⟩ := reader_writer hnames hwritable hchunks
  have hboth := (List.forall₂_and_left items entries).mpr
    ⟨hname, List.forall₂_map_left_iff.mp hall⟩
  exact ⟨entries, hreader, hboth.imp fun _ _ h => ⟨h.2.1.trans h.1, h.2.2⟩⟩

theorem mapM_tarEntryToBackupItem {entries : List TarEntry}
    (hall : List.Forall₂ (fun item entry =>
      entry.header.name = path item.1 ∧ entry.data = item.1.data) items entries)
    (hstored : ∀ item ∈ items, IsStored item.1) :
    entries.mapM tarEntryToBackupItem = .ok (items.map Prod.fst) := by
  induction hall with
  | nil => rfl
  | cons hentry _ ih =>
    obtain ⟨hitem, hrest⟩ := List.forall_mem_cons.mp hstored
    rw [List.mapM_cons, tarEntryToBackupItem_eq hitem hentry.1 hentry.2, ih hrest]
    rfl

/-- Items are read back from a backup, all of them in their order and nothing else, however it
is cut into chunks. -/
theorem untar_tar {items : List (BackupItem × Attributes)} (hnames : commons.KeepsNames)
    (hstored : ∀ item ∈ items, IsStored item.1)
    (hencodes : ∀ item ∈ items, commons.EncodesEntry (backupItemToTarEntry commons item))
    (hsize : ∀ item ∈ items,
      (writeEntry commons (backupItemToTarEntry commons item)).length ≤ maxInt)
    {chunks : List Bytes} (hchunks : chunks.flatten = (tar commons items).flatten) :
    untar commons chunks = .ok (items.map Prod.fst) := by
  have hfile : ∀ item ∈ items, IsFileName (path item.1) := by
    intro item hitem
    have h := hstored item hitem
    refine isFileName_path h.category h.category_slash fun _ => ⟨fun hlast => ?_, h.key⟩
    exact h.key_slash '/' (List.mem_of_getLast? hlast) rfl
  obtain ⟨entries, hreader, hall⟩ := reader_tar hnames hfile hencodes hsize hchunks
  rw [untar, hreader]
  exact mapM_tarEntryToBackupItem hall hstored

/-! ### A backup -/

/-- An item without a version and without data, and one with a version. -/
def webItems : List (BackupItem × Attributes) :=
  [(⟨"app", "web", none, []⟩, Ustar.defaultAttributes),
    (⟨"app", "web", some ⟨1438265109250000000, 3600, by decide⟩, [1, 2, 3]⟩,
      Ustar.defaultAttributes)]

theorem forall_of_all {p : Char → Prop} [DecidablePred p]
    (h : text.all (p ·) = true) : ∀ c ∈ text, p c :=
  fun c hc => of_decide_eq_true (List.all_eq_true.mp h c hc)

theorem isStored_webItems : ∀ item ∈ webItems, IsStored item.1 := by
  intro item hitem
  rcases List.mem_cons.mp hitem with rfl | hitem
  · exact ⟨by decide, forall_of_all (by decide), by decide, forall_of_all (by decide),
      forall_of_all (by decide)⟩
  · obtain rfl := List.mem_singleton.mp hitem
    exact ⟨by decide, forall_of_all (by decide), by decide, forall_of_all (by decide),
      forall_of_all (by decide)⟩

theorem Ustar.encodesEntry (hname : (getBytes entry.header.name).length ≤ namelen)
    (h : let record := Ustar.writeEntryHeader { entry.header with size := entry.data.length }
      record.length = recordSize ∧ ¬record.all (· == 0) ∧
        (Ustar.parseEntryHeader record).name = entry.header.name ∧
        (Ustar.parseEntryHeader record).size = entry.data.length ∧
        (Ustar.parseEntryHeader record).linkFlag = entry.header.linkFlag) :
    Ustar.commons.EncodesEntry entry where
  header := ⟨h.1, h.2.1, fun _ => h.2.2.1, h.2.2.2.1, h.2.2.2.2⟩
  longName hlong := absurd hlong (Nat.not_lt.mpr hname)

theorem encodesEntry_webItems :
    ∀ item ∈ webItems, Ustar.commons.EncodesEntry (backupItemToTarEntry Ustar.commons item) := by
  intro item hitem
  rcases List.mem_cons.mp hitem with rfl | hitem
  · exact Ustar.encodesEntry (by decide +kernel) (by decide +kernel)
  · obtain rfl := List.mem_singleton.mp hitem
    exact Ustar.encodesEntry (by decide +kernel) (by decide +kernel)

/-- The items are read back from their backup, cut within the second record. -/
theorem untar_tar_webItems :
    untar Ustar.commons [((tar Ustar.commons webItems).flatten.take 600),
      ((tar Ustar.commons webItems).flatten.drop 600)] = .ok (webItems.map Prod.fst) :=
  untar_tar Ustar.keepsNames isStored_webItems encodesEntry_webItems (by decide +kernel)
    (by rw [List.flatten_cons, List.flatten_singleton, List.take_append_drop])

/-! ### An empty key -/

/-- A version of an item whose key is empty. -/
def keylessItem : BackupItem × Attributes :=
  (⟨"app", "", some ⟨1438265109250000000, 3600, by decide⟩, []⟩, Ustar.defaultAttributes)

theorem mapM_keylessItem (hname : entry.header.name = path keylessItem.1) :
    [entry].mapM tarEntryToBackupItem = .error ("Can not read: " ++ path keylessItem.1) := by
  have hversions : categoryItemWithVersionRegexp.captures (path keylessItem.1).toList = none := by
    decide +kernel
  have hitems : categoryItemRegexp.captures (path keylessItem.1).toList = none := by
    decide +kernel
  have hread : tarEntryToBackupItem entry = .error ("Can not read: " ++ path keylessItem.1) := by
    simp only [tarEntryToBackupItem, hname, hversions, hitems]
  rw [List.mapM_cons, hread]
  rfl

/-- A category and a key that have no slash and no line break in them. -/
def HasNoSlash (item : BackupItem) : Prop :=
  ∀ c ∈ item.category.toList ++ item.key.toList, c ≠ '/' ∧ isLineTerminator c = false

/-- A key may be empty, and then its item is not read back. -/
theorem not_forall_untar_tar : ¬ ∀ (commons : CommonsCompress)
    (items : List (BackupItem × Attributes)) (chunks : List Bytes), commons.KeepsNames →
      (∀ item ∈ items, HasNoSlash item.1) →
      (∀ item ∈ items, commons.EncodesEntry (backupItemToTarEntry commons item)) →
      (∀ item ∈ items, (writeEntry commons (backupItemToTarEntry commons item)).length ≤ maxInt) →
      chunks.flatten = (tar commons items).flatten →
        untar commons chunks = .ok (items.map Prod.fst) := by
  intro h
  have hencodes : ∀ item ∈ [keylessItem],
      Ustar.commons.EncodesEntry (backupItemToTarEntry Ustar.commons item) := by
    intro item hitem
    obtain rfl := List.mem_singleton.mp hitem
    exact Ustar.encodesEntry (by decide +kernel) (by decide +kernel)
  have hsize : ∀ item ∈ [keylessItem],
      (writeEntry Ustar.commons (backupItemToTarEntry Ustar.commons item)).length ≤ maxInt := by
    decide +kernel
  have hfile : ∀ item ∈ [keylessItem], IsFileName (path item.1) := by
    intro item hitem
    obtain rfl := List.mem_singleton.mp hitem
    exact isFileName_path (by decide) (forall_of_all (by decide)) nofun
  have hslash : ∀ item ∈ [keylessItem], HasNoSlash item.1 := by
    intro item hitem
    obtain rfl := List.mem_singleton.mp hitem
    exact forall_of_all (by decide)
  have huntar := h Ustar.commons [keylessItem] (tar Ustar.commons [keylessItem]) Ustar.keepsNames
    hslash hencodes hsize rfl
  obtain ⟨entries, hreader, hall⟩ := reader_tar Ustar.keepsNames hfile hencodes hsize rfl
  cases hall with
  | cons hentry hrest =>
    cases hrest with
    | nil =>
      rw [untar, hreader] at huntar
      cases (mapM_keylessItem hentry.1).symm.trans huntar

end TarBackupFlow

end Marathon
