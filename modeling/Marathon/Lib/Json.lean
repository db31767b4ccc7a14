import Marathon.Lib.Collections
import Marathon.Lib.Entries

/-!
# JSON formats

Formats that write values as JSON and read them back: texts, numbers, lists, maps with texts
for keys, and objects that are put together field by field. For each of them it is said
exactly which values come back.
-/

namespace Marathon.Lib

/-- A JSON value. A text that is the base64 form of a binary message stands for the message;
the names of an object are distinct. -/
inductive Json (B : Type*)
  | null
  | bool (value : Bool)
  | number (value : ℤ)
  | string (value : String)
  | base64 (message : B)
  | array (items : List (Json B))
  | object (fields : List (String × Json B))

namespace Json

variable {B : Type*} {A A' R : Type*}

/-! ## Formats -/

/-- Writing never fails, and `null` is kept for values that are not there. -/
structure Format (B A : Type*) where
  writes : A → Json B
  reads : Json B → Option A
  writes_ne_null : ∀ a, writes a ≠ null

/-- What comes back of a value. -/
def Format.back (f : Format B A) (a : A) : Option A := f.reads (f.writes a)

def Format.RoundTrips (f : Format B A) (a : A) : Prop := f.back a = some a

namespace Format

def bool : Format B Bool where
  writes := Json.bool
  reads
    | .bool value => some value
    | _ => none
  writes_ne_null _ := nofun

/-- The values of an `Int`. -/
def IsInt (n : ℤ) : Prop := -2147483648 ≤ n ∧ n < 2147483648

instance (n : ℤ) : Decidable (IsInt n) := inferInstanceAs (Decidable (_ ∧ _))

def int : Format B ℤ where
  writes := number
  reads
    | number value => if IsInt value then some value else none
    | _ => none
  writes_ne_null _ := nofun

/-- A binary message, in base64. -/
def message : Format B B where
  writes := base64
  reads
    | base64 message => some message
    | _ => none
  writes_ne_null _ := nofun

/-- Values that have a text. -/
def text (toText : A → String) (ofText : String → Option A) : Format B A where
  writes a := string (toText a)
  reads
    | string value => ofText value
    | _ => none
  writes_ne_null _ := nofun

def plain : Format B String := text id some

def list (f : Format B A) : Format B (List A) where
  writes items := array (items.map f.writes)
  reads
    | array items => items.mapM f.reads
    | _ => none
  writes_ne_null _ := nofun

/-- A format for values that are written as values of another type. -/
def collect (f : Format B A) (toValue : R → A) (ofValue : A → Option R) : Format B R where
  writes r := f.writes (toValue r)
  reads json := (f.reads json).bind ofValue
  writes_ne_null r := f.writes_ne_null (toValue r)

section Maps

variable {K V : Type*} [DecidableEq K]

/-- A map from texts, as an object. -/
def stringMap (f : Format B V) : Format B (Dict String V) where
  writes map := object (map.bindings.map fun binding => (binding.1, f.writes binding.2))
  reads
    | object fields => do
      let bindings ← fields.mapM fun field => (f.reads field.2).map (field.1, ·)
      return Dict.ofBindings bindings
    | _ => none
  writes_ne_null _ := nofun

/-- The keys of a map replaced by their texts; of the keys with one text the last one wins. -/
def toStringKeys (toText : K → String) (map : Dict K V) : Dict String V :=
  Dict.ofBindings (map.bindings.map fun binding => (toText binding.1, binding.2))

def ofStringKeys (ofText : String → Option K) (map : Dict String V) : Option (Dict K V) := do
  let bindings ← map.bindings.mapM fun binding => (ofText binding.1).map (·, binding.2)
  return Dict.ofBindings bindings

/-- A map whose keys have texts. -/
def map (toText : K → String) (ofText : String → Option K) (f : Format B V) :
    Format B (Dict K V) :=
  f.stringMap.collect (toStringKeys toText) (ofStringKeys ofText)

end Maps

end Format

/-! ## Objects -/

/-- The value of a name in an object. -/
def find (fields : List (String × Json B)) (name : String) : Option (Json B) := fields.lookup name

/-- Some fields of an object: what is written under their names, and how they are read from
an object, given by its lookup function. Other fields do not matter. -/
structure Fields (B A : Type*) where
  names : List String
  names_nodup : names.Nodup
  write : A → List (String × Json B)
  read : (String → Option (Json B)) → Option A
  write_names : ∀ a, ∀ field ∈ write a, field.1 ∈ names
  read_congr : ∀ {lookup lookup'}, (∀ name ∈ names, lookup name = lookup' name) →
    read lookup = read lookup'

namespace Fields

def back (F : Fields B A) (a : A) : Option A := F.read (find (F.write a))

def RoundTrips (F : Fields B A) (a : A) : Prop := F.back a = some a

/-- A field that has to be there. -/
def required (name : String) (f : Format B A) : Fields B A where
  names := [name]
  names_nodup := List.nodup_singleton name
  write a := [(name, f.writes a)]
  read lookup := (lookup name).bind f.reads
  write_names a field hfield := by
    rw [List.mem_singleton.mp hfield]
    exact List.mem_singleton_self name
  read_congr h := by rw [h name (List.mem_singleton_self name)]

/-- An optional field as it is read: `null` stands for no value. -/
def readOptional (f : Format B A) : Option (Json B) → Option (Option A)
  | none | some null => some none
  | some json => (f.reads json).map some

/-- A field that is left out when there is no value. -/
def optional (name : String) (f : Format B A) : Fields B (Option A) where
  names := [name]
  names_nodup := List.nodup_singleton name
  write a := (a.map fun a => (name, f.writes a)).toList
  read lookup := readOptional f (lookup name)
  write_names a field hfield := by
    obtain ⟨value, -, rfl⟩ := Option.map_eq_some_iff.mp (Option.mem_toList.mp hfield)
    exact List.mem_singleton_self name
  read_congr h := by rw [h name (List.mem_singleton_self name)]

/-- A field that is `null` when there is no value. -/
def nullable (name : String) (f : Format B A) : Fields B (Option A) where
  names := [name]
  names_nodup := List.nodup_singleton name
  write a := [(name, (a.map f.writes).getD null)]
  read lookup := readOptional f (lookup name)
  write_names a field hfield := by
    rw [List.mem_singleton.mp hfield]
    exact List.mem_singleton_self name
  read_congr h := by rw [h name (List.mem_singleton_self name)]

/-- Two groups of fields with different names. -/
def and (F : Fields B A) (G : Fields B A') (h : ∀ name ∈ F.names, name ∉ G.names) :
    Fields B (A × A') where
  names := F.names ++ G.names
  names_nodup := F.names_nodup.append G.names_nodup h
  write a := F.write a.1 ++ G.write a.2
  read lookup := (F.read lookup).bind fun a => (G.read lookup).map (a, ·)
  write_names a field hfield := by
    rw [List.mem_append] at hfield ⊢
    exact hfield.imp (F.write_names a.1 field) (G.write_names a.2 field)
  read_congr hlookup := by
    rw [F.read_congr fun name hname => hlookup name (List.mem_append_left _ hname),
      G.read_congr fun name hname => hlookup name (List.mem_append_right _ hname)]

/-- A further field that is written and never read. -/
def writing (F : Fields B A) (name : String) (f : A → Json B) (h : name ∉ F.names) :
    Fields B A where
  names := name :: F.names
  names_nodup := List.nodup_cons.mpr ⟨h, F.names_nodup⟩
  write a := F.write a ++ [(name, f a)]
  read := F.read
  write_names a field hfield := by
    rw [List.mem_append, List.mem_singleton] at hfield
    rcases hfield with hfield | rfl
    · exact List.mem_cons_of_mem name (F.write_names a field hfield)
    · exact List.mem_cons_self
  read_congr hlookup :=
    F.read_congr fun name' hname => hlookup name' (List.mem_cons_of_mem name hname)

end Fields

/-- An object with the given fields. -/
def Format.object (F : Fields B A) : Format B A where
  writes a := .object (F.write a)
  reads
    | .object fields => F.read (find fields)
    | _ => none
  writes_ne_null _ := nofun

/-- A record as an object with its fields. -/
def Format.record (F : Fields B A) (e : R ≃ A) : Format B R :=
  (Format.object F).collect e fun a => some (e.symm a)

/-! ## What comes back -/

namespace Format

@[simp]
theorem roundTrips_bool (value : Bool) : (bool : Format B Bool).RoundTrips value := rfl

theorem roundTrips_int {n : ℤ} (h : IsInt n) : (int : Format B ℤ).RoundTrips n := if_pos h

theorem back_text {toText : A → String} {ofText : String → Option A} (a : A) :
    (text toText ofText : Format B A).back a = ofText (toText a) := rfl

@[simp]
theorem roundTrips_text_iff {toText : A → String} {ofText : String → Option A} {a : A} :
    (text toText ofText : Format B A).RoundTrips a ↔ ofText (toText a) = some a := .rfl

@[simp]
theorem roundTrips_plain (s : String) : (plain : Format B String).RoundTrips s := rfl

theorem mapM_bind_mapM {C D : Type*} (g : A → Option C) (g' : C → Option D) (items : List A) :
    (items.mapM g).bind (fun middle => middle.mapM g') = items.mapM fun a => (g a).bind g' := by
  induction items with
  | nil => rfl
  | cons a items ih =>
    simp only [List.mapM_cons, Option.bind_eq_bind, Option.pure_def, ← ih]
    cases g a with
    | none => rfl
    | some c =>
      cases items.mapM g with
      | none => simp only [Option.bind_some, Option.bind_none, Option.bind_fun_none]
      | some rest =>
        simp only [Option.bind_some, List.mapM_cons, Option.bind_eq_bind, Option.pure_def]

@[simp]
theorem roundTrips_list_iff {f : Format B A} {items : List A} :
    f.list.RoundTrips items ↔ ∀ a ∈ items, f.RoundTrips a :=
  mapM_map_eq_some

theorem back_collect {f : Format B A} {toValue : R → A} {ofValue : A → Option R} (r : R) :
    (f.collect toValue ofValue).back r = (f.back (toValue r)).bind ofValue := rfl

section Maps

variable {K V : Type*} {f : Format B V} {toText : K → String} {ofText : String → Option K}

/-- One entry of a map with texts for keys as it is read back. -/
def readBinding (f : Format B V) (ofText : String → Option K) (field : String × Json B) :
    Option (K × V) :=
  (f.reads field.2).bind fun v => (ofText field.1).map (·, v)

theorem readBinding_eq_iff {k : K} {v : V} :
    readBinding f ofText (toText k, f.writes v) = some (k, v) ↔
      ofText (toText k) = some k ∧ f.RoundTrips v := by
  simp only [readBinding, Option.bind_eq_some_iff, Option.map_eq_some_iff, Prod.mk.injEq,
    Format.RoundTrips]
  constructor
  · rintro ⟨w, hw, k', hk, rfl, rfl⟩
    exact ⟨hk, hw⟩
  · rintro ⟨hk, hv⟩
    exact ⟨v, hv, k, hk, rfl, rfl⟩

variable [DecidableEq K]

theorem reads_map {fields : List (String × Json B)} (h : (fields.map Prod.fst).Nodup) :
    (map toText ofText f).reads (.object fields) =
      (fields.mapM (readBinding f ofText)).map Dict.ofBindings := by
  have hsteps : fields.mapM (readBinding f ofText) =
      (fields.mapM fun field => (f.reads field.2).map (field.1, ·)).bind fun bindings =>
        bindings.mapM fun binding => (ofText binding.1).map (·, binding.2) := by
    rw [mapM_bind_mapM]
    congr 1
    funext field
    rw [Option.bind_map]
    rfl
  rw [hsteps, map, collect, stringMap]
  cases hread : fields.mapM fun field => (f.reads field.2).map (field.1, ·) with
  | none => simp only [hread, Option.bind_eq_bind, Option.bind_none, Option.map_none]
  | some bindings =>
    have hnames : bindings.map Prod.fst = fields.map Prod.fst := by
      apply map_eq_of_mapM _ hread
      intro field _ binding hbinding
      obtain ⟨v, -, rfl⟩ := Option.map_eq_some_iff.mp hbinding
      rfl
    simp only [hread, Option.bind_eq_bind, Option.bind_some, Option.pure_def, ofStringKeys,
      Dict.bindings_ofBindings (hnames ▸ h)]
    rw [Option.map_eq_bind]
    rfl

@[simp]
theorem roundTrips_map_iff {m : Dict K V} :
    (map toText ofText f).RoundTrips m ↔
      ∀ b ∈ m.bindings, ofText (toText b.1) = some b.1 ∧ f.RoundTrips b.2 := by
  have hentries : ∀ b ∈ m.bindings, readBinding f ofText (toText b.1, f.writes b.2) = some b ↔
      ofText (toText b.1) = some b.1 ∧ f.RoundTrips b.2 := fun b _ => readBinding_eq_iff
  rw [← forall₂_congr hentries, ← mapM_map_eq_some]
  have hreads : (map toText ofText f).reads ((map toText ofText f).writes m) =
      (((toStringKeys toText m).bindings.map fun b => (b.1, f.writes b.2)).mapM
        (readBinding f ofText)).map Dict.ofBindings := by
    apply reads_map
    rw [List.map_map]
    exact Dict.nodup_bindings _
  rw [Format.RoundTrips, Format.back, hreads]
  constructor
  · intro h
    obtain ⟨bindings, hbindings, rfl⟩ := Option.map_eq_some_iff.mp h
    -- No entry is lost on the way, since as many come back as there were.
    have hlength : bindings.length =
        (toStringKeys toText (Dict.ofBindings bindings)).bindings.length := by
      have hunits := map_eq_of_mapM (p := fun _ => ()) (q := fun _ => ()) (fun _ _ _ _ => rfl) hbindings
      simpa using congrArg List.length hunits
    have hwritten := Dict.length_bindings_ofBindings_le
      ((Dict.ofBindings bindings).bindings.map fun b => (toText b.1, b.2))
    have hback := Dict.length_bindings_ofBindings_le bindings
    rw [← toStringKeys, List.length_map] at hwritten
    have hkeys : (bindings.map Prod.fst).Nodup := Dict.nodup_of_length_le (by omega)
    have hstrings : (((Dict.ofBindings bindings).bindings.map fun b => (toText b.1, b.2)).map
        Prod.fst).Nodup := by
      apply Dict.nodup_of_length_le
      rw [← toStringKeys, List.length_map]
      omega
    rw [toStringKeys, Dict.bindings_ofBindings hstrings, List.map_map] at hbindings
    exact hbindings.trans (congrArg some (Dict.bindings_ofBindings hkeys).symm)
  · intro h
    have hkeys : ∀ b ∈ m.bindings, ofText (toText b.1) = some b.1 := by
      intro b hb
      exact ((hentries b hb).mp (mapM_map_eq_some.mp h b hb)).1
    have hstrings : ((m.bindings.map fun b => (toText b.1, b.2)).map Prod.fst).Nodup := by
      have hcompose : (m.bindings.map fun b => (toText b.1, b.2)).map Prod.fst =
          (m.bindings.map Prod.fst).map toText := by
        rw [List.map_map, List.map_map]
        rfl
      rw [hcompose]
      apply (Dict.nodup_bindings m).map_on
      intro k hk k' hk' heq
      obtain ⟨b, hb, rfl⟩ := List.mem_map.mp hk
      obtain ⟨b', hb', rfl⟩ := List.mem_map.mp hk'
      exact Option.some.inj (by rw [← hkeys b hb, ← hkeys b' hb', heq])
    rw [toStringKeys, Dict.bindings_ofBindings hstrings, List.map_map]
    exact (congrArg (Option.map Dict.ofBindings) h).trans
      (congrArg some (Dict.ofBindings_bindings m))

end Maps

end Format

/-! ### Objects field by field -/

theorem find_append_left {fields rest : List (String × Json B)} {name : String}
    (h : ∀ field ∈ rest, field.1 ≠ name) : find (fields ++ rest) name = find fields name := by
  have hrest : rest.lookup name = none := by
    rw [List.lookup_eq_none_iff]
    intro field hfield
    exact bne_iff_ne.mpr (h field hfield).symm
  rw [find, List.lookup_append, hrest, Option.or_none, find]

theorem find_append_right {fields rest : List (String × Json B)} {name : String}
    (h : ∀ field ∈ fields, field.1 ≠ name) : find (fields ++ rest) name = find rest name := by
  have hfields : fields.lookup name = none := by
    rw [List.lookup_eq_none_iff]
    intro field hfield
    exact bne_iff_ne.mpr (h field hfield).symm
  rw [find, List.lookup_append, hfields, Option.none_or, find]

@[simp]
theorem find_singleton (name : String) (json : Json B) : find [(name, json)] name = some json := by
  rw [find, List.lookup_cons_self]

namespace Fields

variable {f : Format B A} {F : Fields B A} {G : Fields B A'} {name : String}

theorem back_required (a : A) : (required name f).back a = f.back a := by
  simp only [Fields.back, required, find_singleton, Option.bind_some, Format.back]

@[simp]
theorem roundTrips_required_iff {a : A} : (required name f).RoundTrips a ↔ f.RoundTrips a := by
  rw [Fields.RoundTrips, back_required, Format.RoundTrips]

theorem readOptional_writes (a : A) :
    readOptional f (some (f.writes a)) = (f.reads (f.writes a)).map some := by
  cases h : f.writes a with
  | null => exact absurd h (f.writes_ne_null a)
  | _ => rfl

@[simp]
theorem roundTrips_optional_iff {a : Option A} :
    (optional name f).RoundTrips a ↔ ∀ value ∈ a, f.RoundTrips value := by
  cases a with
  | none => simp [Fields.RoundTrips, Fields.back, optional, find, readOptional]
  | some a =>
    simp only [Fields.RoundTrips, Fields.back, optional, Option.map_some, Option.toList_some, find_singleton,
      readOptional_writes, Option.map_eq_some_iff, Option.some.injEq, exists_eq_right,
      Option.mem_def, forall_eq', Format.RoundTrips,
      Format.back]

@[simp]
theorem roundTrips_nullable_iff {a : Option A} :
    (nullable name f).RoundTrips a ↔ ∀ value ∈ a, f.RoundTrips value := by
  cases a with
  | none => simp [Fields.RoundTrips, Fields.back, nullable, readOptional]
  | some a =>
    simp only [Fields.RoundTrips, Fields.back, nullable, Option.map_some, Option.getD_some, find_singleton,
      readOptional_writes, Option.map_eq_some_iff, Option.some.injEq, exists_eq_right,
      Option.mem_def, forall_eq', Format.RoundTrips,
      Format.back]

/-- Each of two groups of fields is read from the object as from its own fields. -/
theorem back_and {h : ∀ name ∈ F.names, name ∉ G.names} (a : A × A') :
    (F.and G h).back a = (F.back a.1).bind fun b => (G.back a.2).map (b, ·) := by
  have hleft : F.read (find (F.write a.1 ++ G.write a.2)) = F.back a.1 := by
    apply F.read_congr
    intro name hname
    apply find_append_left
    rintro field hfield rfl
    exact h field.1 hname (G.write_names a.2 field hfield)
  have hright : G.read (find (F.write a.1 ++ G.write a.2)) = G.back a.2 := by
    apply G.read_congr
    intro name hname
    apply find_append_right
    rintro field hfield rfl
    exact h field.1 (F.write_names a.1 field hfield) hname
  simp only [Fields.back, and] at hleft hright ⊢
  rw [hleft, hright]

@[simp]
theorem roundTrips_and_iff {h : ∀ name ∈ F.names, name ∉ G.names} {a : A × A'} :
    (F.and G h).RoundTrips a ↔ F.RoundTrips a.1 ∧ G.RoundTrips a.2 := by
  simp only [Fields.RoundTrips, back_and, Option.bind_eq_some_iff, Option.map_eq_some_iff]
  constructor
  · rintro ⟨b, hb, b', hb', rfl⟩
    exact ⟨hb, hb'⟩
  · rintro ⟨hF, hG⟩
    exact ⟨a.1, hF, a.2, hG, rfl⟩

@[simp]
theorem roundTrips_writing_iff {g : A → Json B} {h : name ∉ F.names} {a : A} :
    (F.writing name g h).RoundTrips a ↔ F.RoundTrips a := by
  have hread : F.read (find (F.write a ++ [(name, g a)])) = F.back a := by
    apply F.read_congr
    intro name' hname
    apply find_append_left
    rintro field hfield rfl
    rw [List.mem_singleton.mp hfield] at hname
    exact h hname
  rw [Fields.RoundTrips, Fields.back, writing, hread, Fields.RoundTrips]

end Fields

namespace Format

theorem back_object {F : Fields B A} (a : A) : (Format.object F).back a = F.back a := rfl

@[simp]
theorem roundTrips_object_iff {F : Fields B A} {a : A} :
    (Format.object F).RoundTrips a ↔ F.RoundTrips a := .rfl

theorem back_record {F : Fields B A} {e : R ≃ A} (r : R) :
    (record F e).back r = (F.back (e r)).bind fun a => some (e.symm a) := rfl

@[simp]
theorem roundTrips_record_iff {F : Fields B A} {e : R ≃ A} {r : R} :
    (record F e).RoundTrips r ↔ F.RoundTrips (e r) := by
  rw [Format.RoundTrips, back_record, Fields.RoundTrips]
  simp only [Option.bind_eq_some_iff, Option.some.injEq]
  constructor
  · rintro ⟨a, ha, rfl⟩
    rwa [e.apply_symm_apply] at ha ⊢
  · intro h
    exact ⟨e r, h, e.symm_apply_apply r⟩

end Format

end Json

end Marathon.Lib
