import Marathon.Stream.TarRoundTrip

/-!
# Headers of one record

The fields of a header that the library writes, at their places in the record: the name, the
mode, the size, the time, the checksum, the kind of the entry and the user.
-/

namespace Marathon.TarFlow.Ustar

/-- Digits to the base 8, and a blank after them. -/
def octal : ℕ → ℕ → Bytes
  | 0, _ => [32]
  | width + 1, n => UInt8.ofNat (48 + n / 8 ^ width % 8) :: octal width n

def parseOctal (bytes : Bytes) : ℕ :=
  (bytes.takeWhile fun b => 48 ≤ b && b < 56).foldl (fun n b => 8 * n + (b.toNat - 48)) 0

/-- A text that is cut or filled with zeros. -/
def field (width : ℕ) (bytes : Bytes) : Bytes :=
  bytes.take width ++ List.replicate (width - bytes.length) 0

def linkFlagByte : LinkFlag → UInt8
  | .normal => 48
  | .dir => 53
  | .gnuLongName => 76
  | .paxHeader => 120
  | .gnuSparse => 83
  | .other => 55

def linkFlagOf (b : UInt8) : LinkFlag :=
  if b = 0 ∨ b = 48 then .normal
  else if b = 53 then .dir
  else if b = 76 then .gnuLongName
  else if b = 120 then .paxHeader
  else if b = 83 then .gnuSparse
  else .other

/-- The record around eight bytes of checksum. -/
def record (header : TarArchiveEntry) (checksum : Bytes) : Bytes :=
  field 100 (getBytes header.name) ++ octal 7 header.attributes.mode ++
    octal 7 0 ++ octal 7 0 ++ octal 11 header.size ++ octal 11 header.attributes.modTime.toNat ++
    checksum ++ [linkFlagByte header.linkFlag] ++ List.replicate 100 0 ++
    getBytes "ustar" ++ [0, 48, 48] ++ field 32 (getBytes header.attributes.userName) ++
    List.replicate 215 0

def writeEntryHeader (header : TarArchiveEntry) : Bytes :=
  let blank := List.replicate 8 32
  let sum := (record header blank).foldl (fun n b => n + b.toNat) 0
  record header ((octal 6 sum).take 6 ++ [0, 32])

def parseText (malformed : Bytes → String) (bytes : Bytes) : String :=
  let text := bytes.takeWhile (· != 0)
  match String.fromUTF8? ⟨text.toArray⟩ with
  | some name => name
  | none => malformed text

def parseEntryHeader (bytes : Bytes) : TarArchiveEntry where
  name := parseText (fun _ => "") (bytes.take 100)
  size := parseOctal ((bytes.drop 124).take 12)
  linkFlag := linkFlagOf ((bytes.drop 156).headD 0)
  attributes.mode := parseOctal ((bytes.drop 100).take 8)
  attributes.modTime := parseOctal ((bytes.drop 136).take 12)
  attributes.userName := parseText (fun _ => "") ((bytes.drop 265).take 32)

/-- A name without the slashes before it. -/
def normalizeFileName (name : String) : String := String.ofList (name.toList.dropWhile (· = '/'))

/-- `DEFAULT_FILE_MODE`. -/
def defaultAttributes : Attributes := ⟨33188, "", 0⟩

def newEntry (name : String) : TarArchiveEntry where
  name := normalizeFileName name
  size := 0
  linkFlag := if (normalizeFileName name).toList.getLast? = some '/' then .dir else .normal
  attributes := defaultAttributes

def commons : CommonsCompress where
  newEntry := newEntry
  newFlaggedEntry name linkFlag := { newEntry name with linkFlag := linkFlag }
  setName header name := { header with name := normalizeFileName name }
  writeEntryHeader := writeEntryHeader
  parseEntryHeader := parseEntryHeader
  malformed _ := ""

theorem normalizeFileName_eq {name : String} (h : IsFileName name) :
    normalizeFileName name = name := by
  have hhead : name.toList.dropWhile (· = '/') = name.toList := by
    have hne := h.2.1
    cases hchars : name.toList with
    | nil => rfl
    | cons c rest =>
      rw [hchars, List.head?_cons] at hne
      exact List.dropWhile_cons_of_neg (by simpa using hne)
  rw [normalizeFileName, hhead, String.ofList_toList]

theorem keepsNames : commons.KeepsNames where
  newEntry name hname := by
    have hlast : (normalizeFileName name).toList.getLast? ≠ some '/' := by
      rw [normalizeFileName_eq hname]
      exact hname.2.2
    exact ⟨normalizeFileName_eq hname, if_neg hlast⟩
  newFlaggedEntry _ _ := rfl
  setName _ _ hname := ⟨normalizeFileName_eq hname, rfl⟩

end Marathon.TarFlow.Ustar
