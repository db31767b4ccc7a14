import Mathlib.Data.Int.Notation
import Mathlib.Data.List.Basic
import Mathlib.Order.Basic

/-!
# Writing and reading tar balls

`TarFlow` over a library that writes and parses the 512 bytes of a header. The reader is fed
one chunk of bytes after another; its stage remembers what it waits for.
-/

namespace Marathon.TarFlow

abbrev Bytes := List UInt8

def recordSize : ℕ := 512

def eofBlockSize : ℕ := recordSize * 2

/-- `Int.MaxValue`. -/
def maxInt : ℕ := 2147483647

/-- `getBytes(UTF_8)`. -/
def getBytes (name : String) : Bytes := name.toByteArray.data.toList

/-! ## The library of headers -/

/-- The kinds of entries that the reader tells apart. -/
inductive LinkFlag
  | normal
  | dir
  | gnuLongName
  | paxHeader
  | gnuSparse
  | other
deriving DecidableEq

/-- What is written of an entry beside its name and size. -/
structure Attributes where
  mode : ℕ
  userName : String
  modTime : ℤ

structure TarArchiveEntry where
  name : String
  size : ℕ
  linkFlag : LinkFlag
  attributes : Attributes

/-- What is used of the library: `new TarArchiveEntry(name)`, the same with a link flag,
`setName`, the encoding of a header in a buffer of one record and the decoding, and what
`utf8String` makes of bytes that are no UTF-8. -/
structure CommonsCompress where
  newEntry : String → TarArchiveEntry
  newFlaggedEntry : String → LinkFlag → TarArchiveEntry
  setName : TarArchiveEntry → String → TarArchiveEntry
  writeEntryHeader : TarArchiveEntry → Bytes
  parseEntryHeader : Bytes → TarArchiveEntry
  malformed : Bytes → String

/-- `TarConstants.NAMELEN`: a header has room for a name of so many bytes. -/
def namelen : ℕ := 100

/-- `TarConstants.GNU_LONGLINK`. -/
def gnuLonglink : String := "././@LongLink"

structure TarEntry where
  header : TarArchiveEntry
  data : Bytes

/-- `TarEntry.apply`. -/
def TarEntry.ofName (commons : CommonsCompress) (name : String) (data : Bytes)
    (attributes : Attributes) : TarEntry where
  header := { commons.newEntry name with size := data.length, attributes := attributes }
  data := data

/-! ## The writer -/

/-- The size with the padding to the next boundary. -/
def calcPaddedSize (size chunkSize : ℕ) : ℕ :=
  let leftover := size % chunkSize
  if leftover = 0 then size else size + (chunkSize - leftover)

/-- Zeros up to the next boundary. -/
def padToBoundary (builder : Bytes) : Bytes :=
  builder ++ List.replicate ((recordSize - builder.length % recordSize) % recordSize) 0

section Writer

variable (commons : CommonsCompress)

/-- The header of the entry that announces a long name: one byte more for the zero. -/
def longNameHeader (nameAsBytes : Bytes) : TarArchiveEntry :=
  { commons.newFlaggedEntry gnuLonglink .gnuLongName with size := nameAsBytes.length + 1 }

/-- The records of an entry, after those of its name when this is long. -/
def writeEntry (entry : TarEntry) : Bytes :=
  let nameAsBytes := getBytes entry.header.name
  let longName :=
    if namelen < nameAsBytes.length then
      padToBoundary
        (commons.writeEntryHeader (longNameHeader commons nameAsBytes) ++ nameAsBytes ++ [0])
    else []
  padToBoundary
    (longName ++ commons.writeEntryHeader { entry.header with size := entry.data.length } ++
      entry.data)

def terminalChunk : Bytes := List.replicate eofBlockSize 0

/-- The byte strings of the entries, and the end of the file. -/
def writer (entries : List TarEntry) : List Bytes :=
  entries.map (writeEntry commons) ++ [terminalChunk]

end Writer

/-! ## The reader -/

/-- What follows when the bytes of a padded chunk have been read. -/
inductive AndThen
  | readHeader (nameOverride : Option String)
  | resumeWithLongName
  | yieldEntry (header : TarArchiveEntry)

inductive ReaderStage
  | readingPaddedChunk (size : ℕ) (andThen : AndThen) (readSoFar : Bytes)
  | terminal

/-- `Readers.reading`. -/
def reading (nameOverride : Option String) : ReaderStage :=
  .readingPaddedChunk recordSize (.readHeader nameOverride) []

section Reader

variable (commons : CommonsCompress)

/-- `utf8String`. -/
def utf8String (bytes : Bytes) : String :=
  match String.fromUTF8? ⟨bytes.toArray⟩ with
  | some name => name
  | none => commons.malformed bytes

def readHeader (nameOverride : Option String) (headerBytes : Bytes) :
    Except String (ReaderStage × List TarEntry) :=
  let entry := commons.parseEntryHeader headerBytes
  if headerBytes.all (· == 0) then .ok (.terminal, [])
  else if entry.linkFlag = .gnuLongName then
    .ok (.readingPaddedChunk entry.size .resumeWithLongName [], [])
  else if entry.linkFlag = .paxHeader then .error "Pax headers not supported"
  else if entry.linkFlag = .gnuSparse then .error "GNU Sparse headers not supported"
  else if maxInt < entry.size then
    .error ("Entries larger than " ++ toString maxInt ++ " not supported")
  else
    let named := nameOverride.elim entry (commons.setName entry)
    .ok (.readingPaddedChunk named.size (.yieldEntry named) [], [])

def resumeWithLongName (nameData : Bytes) : Except String (ReaderStage × List TarEntry) :=
  match nameData.getLast? with
  | none => .error "empty.last"
  | some last =>
    let withoutNullTerm := if last = 0 then nameData.dropLast else nameData
    .ok (reading (some (utf8String commons withoutNullTerm)), [])

def AndThen.apply : AndThen → Bytes → Except String (ReaderStage × List TarEntry)
  | readHeader nameOverride, bytes => TarFlow.readHeader commons nameOverride bytes
  | resumeWithLongName, bytes => TarFlow.resumeWithLongName commons bytes
  | yieldEntry header, bytes => .ok (reading none, [⟨header, bytes⟩])

/-- A stage is offered data: the next stage, the entries that are complete and the data that
is left. A padded chunk is only handed on when there is something after it. -/
def ReaderStage.apply : ReaderStage → Bytes → Except String (ReaderStage × List TarEntry × Bytes)
  | readingPaddedChunk size andThen readSoFar, data =>
    let paddedSize := calcPaddedSize size recordSize
    let accum := readSoFar ++ data
    if paddedSize < accum.length then do
      let (nextStage, tarEntries) ← andThen.apply commons ((accum.take paddedSize).take size)
      .ok (nextStage, tarEntries, accum.drop paddedSize)
    else .ok (.readingPaddedChunk size andThen accum, [], [])
  | terminal, _ => .ok (.terminal, [], [])

/-- The bytes that a stage has put aside. -/
def ReaderStage.pending : ReaderStage → ℕ
  | readingPaddedChunk _ _ readSoFar => readSoFar.length
  | terminal => 0

/-- A stage for no bytes goes on without reading any. -/
def ReaderStage.rank : ReaderStage → ℕ
  | readingPaddedChunk size _ _ => if size = 0 then 1 else 0
  | terminal => 0

theorem calcPaddedSize_eq_zero {size : ℕ} : calcPaddedSize size recordSize = 0 ↔ size = 0 := by
  rw [calcPaddedSize, recordSize]
  by_cases h : size % 512 = 0
  · simp only [h, if_true]
  · simp only [h, if_false]
    omega

theorem readHeader_cases (nameOverride : Option String) (bytes : Bytes) :
    (∃ text, readHeader commons nameOverride bytes = .error text) ∨
      readHeader commons nameOverride bytes = .ok (.terminal, []) ∨
      bytes ≠ [] ∧ ∃ size andThen,
        readHeader commons nameOverride bytes = .ok (.readingPaddedChunk size andThen [], []) := by
  rw [readHeader]
  by_cases hzero : bytes.all (· == 0)
  · rw [if_pos hzero]
    exact .inr (.inl rfl)
  have hne : bytes ≠ [] := by
    rintro rfl
    exact hzero rfl
  rw [if_neg hzero]
  split_ifs
  · exact .inr (.inr ⟨hne, _, _, rfl⟩)
  · exact .inl ⟨_, rfl⟩
  · exact .inl ⟨_, rfl⟩
  · exact .inl ⟨_, rfl⟩
  · exact .inr (.inr ⟨hne, _, _, rfl⟩)

theorem AndThen.pending_apply {andThen : AndThen} {bytes : Bytes} {next : ReaderStage}
    {entries : List TarEntry} (h : andThen.apply commons bytes = .ok (next, entries)) :
    next.pending = 0 ∧ (bytes = [] → next.rank = 0) := by
  cases andThen with
  | readHeader nameOverride =>
    rw [AndThen.apply] at h
    rcases readHeader_cases commons nameOverride bytes with
      ⟨_, hcase⟩ | hcase | ⟨hne, _, _, hcase⟩
    · rw [hcase] at h
      cases h
    · rw [hcase] at h
      cases h
      exact ⟨rfl, fun _ => rfl⟩
    · rw [hcase] at h
      cases h
      exact ⟨rfl, fun hnil => absurd hnil hne⟩
  | resumeWithLongName =>
    rw [AndThen.apply, TarFlow.resumeWithLongName] at h
    split at h
    · cases h
    · cases h
      exact ⟨rfl, fun _ => rfl⟩
  | yieldEntry header =>
    cases h
    exact ⟨rfl, fun _ => rfl⟩

theorem ReaderStage.measure_apply {stage next : ReaderStage} {data rest : Bytes}
    {entries : List TarEntry} (hdata : data ≠ [])
    (h : stage.apply commons data = .ok (next, entries, rest)) :
    Prod.Lex (· < ·) (Prod.Lex (· < ·) (· < ·)) (next.pending + rest.length, next.rank, rest.length)
      (stage.pending + data.length, stage.rank, data.length) := by
  have hpos : 0 < data.length := List.length_pos_iff.mpr hdata
  cases stage with
  | terminal =>
    cases h
    apply Prod.Lex.left
    simp only [pending, List.length_nil]
    omega
  | readingPaddedChunk size andThen readSoFar =>
    simp only [ReaderStage.apply] at h
    split at h
    · rename_i hfull
      cases happly : andThen.apply commons
          (((readSoFar ++ data).take (calcPaddedSize size recordSize)).take size) with
      | error e =>
        rw [happly] at h
        cases h
      | ok result =>
        obtain ⟨stage', entries'⟩ := result
        rw [happly] at h
        cases h
        obtain ⟨hpending, hrank⟩ := AndThen.pending_apply commons happly
        rw [hpending, List.length_drop]
        rw [List.length_append] at hfull ⊢
        by_cases hsize : size = 0
        · subst hsize
          have hpadded : calcPaddedSize 0 recordSize = 0 := calcPaddedSize_eq_zero.mpr rfl
          have hzero : stage'.rank = 0 := hrank List.take_zero
          rw [hpadded, hzero]
          simp only [pending, rank, if_true, Nat.zero_add, Nat.sub_zero]
          exact .right _ (.left _ _ Nat.one_pos)
        · have hpadded : calcPaddedSize size recordSize ≠ 0 :=
            fun h0 => hsize (calcPaddedSize_eq_zero.mp h0)
          apply Prod.Lex.left
          simp only [pending]
          omega
    · cases h
      simp only [pending, rank, List.length_append, List.length_nil, Nat.add_zero]
      exact .right _ (.right _ hpos)

/-- The stages are applied until all of the available data is consumed. -/
def process (stage : ReaderStage) (data : Bytes) (entries : List TarEntry) :
    Except String (ReaderStage × List TarEntry) :=
  if _hdata : data = [] then .ok (stage, entries)
  else
    match _h : stage.apply commons data with
    | .error e => .error e
    | .ok (nextStage, newEntries, remaining) =>
      process nextStage remaining (entries ++ newEntries)
termination_by (stage.pending + data.length, stage.rank, data.length)
decreasing_by exact ReaderStage.measure_apply commons _hdata _h

/-- `reader` fed with chunks: the entries of all of them, and the stage that is left. -/
def readChunks (stage : ReaderStage) : List Bytes → Except String (ReaderStage × List TarEntry)
  | [] => .ok (stage, [])
  | chunk :: chunks => do
    let (nextStage, entries) ← process commons stage chunk []
    let (lastStage, later) ← readChunks nextStage chunks
    .ok (lastStage, entries ++ later)

/-- `reader`: what is missing at the end is not noticed. -/
def reader (chunks : List Bytes) : Except String (List TarEntry) :=
  (readChunks commons (reading none) chunks).map Prod.snd

end Reader

end Marathon.TarFlow
