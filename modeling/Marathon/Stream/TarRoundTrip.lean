import Marathon.Stream.TarFlow

/-!
# Reading what was written

The entries read do not depend on how the bytes are cut into chunks, and of the bytes that
the writer makes of entries they are these entries, name and data.
-/

namespace Marathon.TarFlow

variable {commons : CommonsCompress}

/-! ## Chunks -/

theorem process_nil (stage : ReaderStage) (entries : List TarEntry) :
    process commons stage [] entries = .ok (stage, entries) := by
  rw [process, dif_pos rfl]

variable {stage next : ReaderStage} {data rest : Bytes} {new entries : List TarEntry}

theorem process_ok (hdata : data ≠ []) (h : stage.apply commons data = .ok (next, new, rest))
    (entries : List TarEntry) :
    process commons stage data entries = process commons next rest (entries ++ new) := by
  rw [process, dif_neg hdata]
  split
  · rename_i hcase
    rw [h] at hcase
    cases hcase
  · rename_i hcase
    rw [h] at hcase
    cases hcase
    rfl

theorem process_error {text : String} (hdata : data ≠ [])
    (h : stage.apply commons data = .error text) (entries : List TarEntry) :
    process commons stage data entries = .error text := by
  rw [process, dif_neg hdata]
  split
  · rename_i hcase
    rw [h] at hcase
    cases hcase
    rfl
  · rename_i hcase
    rw [h] at hcase
    cases hcase

theorem process_entries (commons : CommonsCompress) (stage : ReaderStage) (data : Bytes)
    (found entries : List TarEntry) :
    process commons stage data (found ++ entries) =
      (process commons stage data entries).map fun r => (r.1, found ++ r.2) := by
  induction stage, data, entries using process.induct commons with
  | case1 stage entries =>
    rw [process_nil, process_nil]
    rfl
  | case2 stage data entries hdata text h =>
    rw [process_error hdata h, process_error hdata h]
    rfl
  | case3 stage data entries hdata next new rest h ih =>
    rw [process_ok hdata h, process_ok hdata h, List.append_assoc, ih]

theorem apply_append (commons : CommonsCompress) (stage : ReaderStage) (a b : Bytes) :
    (∃ next new rest, stage.apply commons a = .ok (next, new, rest) ∧
      (stage.apply commons (a ++ b) = .ok (next, new, rest ++ b) ∨
        rest = [] ∧ new = [] ∧ stage.apply commons (a ++ b) = next.apply commons b)) ∨
    ∃ text, stage.apply commons a = .error text ∧ stage.apply commons (a ++ b) = .error text := by
  cases stage with
  | terminal => exact .inl ⟨.terminal, [], [], rfl, .inr ⟨rfl, rfl, rfl⟩⟩
  | readingPaddedChunk size andThen readSoFar =>
    by_cases hfull : calcPaddedSize size recordSize < (readSoFar ++ a).length
    · have hfull' : calcPaddedSize size recordSize < (readSoFar ++ (a ++ b)).length := by
        rw [← List.append_assoc, List.length_append]
        omega
      have htake : (readSoFar ++ (a ++ b)).take (calcPaddedSize size recordSize) =
          (readSoFar ++ a).take (calcPaddedSize size recordSize) := by
        rw [← List.append_assoc, List.take_append_of_le_length (Nat.le_of_lt hfull)]
      have hdrop : (readSoFar ++ (a ++ b)).drop (calcPaddedSize size recordSize) =
          (readSoFar ++ a).drop (calcPaddedSize size recordSize) ++ b := by
        rw [← List.append_assoc, List.drop_append_of_le_length (Nat.le_of_lt hfull)]
      simp only [ReaderStage.apply, if_pos hfull, if_pos hfull', htake, hdrop]
      cases andThen.apply commons
          (((readSoFar ++ a).take (calcPaddedSize size recordSize)).take size) with
      | error text => exact .inr ⟨text, rfl, rfl⟩
      | ok result => exact .inl ⟨result.1, result.2, _, rfl, .inl rfl⟩
    · refine .inl ⟨.readingPaddedChunk size andThen (readSoFar ++ a), [], [], ?_, .inr ⟨rfl, rfl, ?_⟩⟩
      · simp only [ReaderStage.apply, if_neg hfull]
      · simp only [ReaderStage.apply, List.append_assoc]

theorem process_append (stage : ReaderStage) (a b : Bytes) (entries : List TarEntry) :
    process commons stage (a ++ b) entries =
      (process commons stage a entries).bind fun r => process commons r.1 b r.2 := by
  induction stage, a, entries using process.induct commons with
  | case1 stage entries =>
    rw [process_nil, List.nil_append]
    rfl
  | case2 stage a entries hdata text h =>
    have hab : a ++ b ≠ [] := List.append_ne_nil_of_left_ne_nil hdata b
    rcases apply_append commons stage a b with ⟨_, _, _, hok, _⟩ | ⟨text', h', hboth⟩
    · rw [h] at hok
      cases hok
    · obtain rfl : text = text' := Except.error.inj (h.symm.trans h')
      rw [process_error hab hboth, process_error hdata h]
      rfl
  | case3 stage a entries hdata next new rest h ih =>
    have hab : a ++ b ≠ [] := List.append_ne_nil_of_left_ne_nil hdata b
    rcases apply_append commons stage a b with
      ⟨next', new', rest', hok, hcase⟩ | ⟨_, herror, _⟩
    · rw [h] at hok
      cases hok
      rcases hcase with hboth | ⟨rfl, rfl, hboth⟩
      · rw [process_ok hab hboth, process_ok hdata h, ih]
      · rw [process_ok hdata h, process_nil, List.append_nil]
        show process commons stage (a ++ b) entries = process commons next b entries
        by_cases hb : b = []
        · rw [hb, List.append_nil, process_ok hdata h, process_nil, process_nil, List.append_nil]
        · cases hnext : next.apply commons b with
          | error text => rw [process_error hab (hboth.trans hnext), process_error hb hnext]
          | ok result => rw [process_ok hab (hboth.trans hnext), process_ok hb hnext]
    · rw [h] at herror
      cases herror

theorem readChunks_eq (stage : ReaderStage) (chunks : List Bytes) :
    readChunks commons stage chunks = process commons stage chunks.flatten [] := by
  induction chunks generalizing stage with
  | nil => rw [List.flatten_nil, process_nil, readChunks]
  | cons chunk chunks ih =>
    rw [readChunks, List.flatten_cons, process_append]
    cases process commons stage chunk [] with
    | error text => rfl
    | ok r =>
      have hrest := process_entries commons r.1 chunks.flatten r.2 []
      rw [List.append_nil] at hrest
      show (readChunks commons r.1 chunks >>= _) = process commons r.1 chunks.flatten r.2
      rw [ih, hrest]
      cases process commons r.1 chunks.flatten [] with
      | error text => rfl
      | ok r' => rfl

/-! ## Records -/

/-- A header is written in one record and read back from it, its name when there is room. -/
structure CommonsCompress.EncodesHeader (commons : CommonsCompress) (header : TarArchiveEntry) :
    Prop where
  length : (commons.writeEntryHeader header).length = recordSize
  notZero : ¬(commons.writeEntryHeader header).all (· == 0)
  name : (getBytes header.name).length ≤ namelen →
    (commons.parseEntryHeader (commons.writeEntryHeader header)).name = header.name
  size : (commons.parseEntryHeader (commons.writeEntryHeader header)).size = header.size
  linkFlag : (commons.parseEntryHeader (commons.writeEntryHeader header)).linkFlag =
    header.linkFlag

/-- Names as they are used in an archive, that the library keeps as they are. -/
def IsFileName (name : String) : Prop :=
  name ≠ "" ∧ name.toList.head? ≠ some '/' ∧ name.toList.getLast? ≠ some '/'

/-- What the library does with the names and the link flags of entries. -/
structure CommonsCompress.KeepsNames (commons : CommonsCompress) : Prop where
  newEntry : ∀ name, IsFileName name →
    (commons.newEntry name).name = name ∧ (commons.newEntry name).linkFlag = .normal
  newFlaggedEntry : ∀ name linkFlag, (commons.newFlaggedEntry name linkFlag).linkFlag = linkFlag
  setName : ∀ header name, IsFileName name →
    (commons.setName header name).name = name ∧ (commons.setName header name).size = header.size

theorem length_padToBoundary (bytes : Bytes) :
    (padToBoundary bytes).length = calcPaddedSize bytes.length recordSize := by
  rw [padToBoundary, List.length_append, List.length_replicate, calcPaddedSize, recordSize]
  by_cases h : bytes.length % 512 = 0
  · simp only [h, if_true]
    omega
  · simp only [h, if_false]
    omega

theorem padToBoundary_append {a : Bytes} (h : a.length % recordSize = 0) (b : Bytes) :
    padToBoundary (a ++ b) = a ++ padToBoundary b := by
  have hmod : (a ++ b).length % recordSize = b.length % recordSize := by
    rw [List.length_append, Nat.add_mod, h, Nat.zero_add, Nat.mod_mod]
  rw [padToBoundary, padToBoundary, hmod, List.append_assoc]

theorem take_padToBoundary (bytes : Bytes) : (padToBoundary bytes).take bytes.length = bytes :=
  List.take_left

theorem length_padToBoundary_mod (bytes : Bytes) :
    (padToBoundary bytes).length % recordSize = 0 := by
  rw [length_padToBoundary, calcPaddedSize, recordSize]
  by_cases h : bytes.length % 512 = 0
  · simp only [h, if_true]
  · simp only [h, if_false]
    omega

theorem process_chunk {size : ℕ} {andThen : AndThen} {bytes : Bytes}
    (hlength : bytes.length = calcPaddedSize size recordSize)
    (hrest : rest ≠ []) (h : andThen.apply commons (bytes.take size) = .ok (next, new))
    (entries : List TarEntry) :
    process commons (.readingPaddedChunk size andThen []) (bytes ++ rest) entries =
      process commons next rest (entries ++ new) := by
  have hpos : 0 < rest.length := List.length_pos_iff.mpr hrest
  have hfull : calcPaddedSize size recordSize < (bytes ++ rest).length := by
    rw [List.length_append]
    omega
  apply process_ok (List.append_ne_nil_of_right_ne_nil bytes hrest)
  simp only [ReaderStage.apply, List.nil_append, if_pos hfull, List.take_left' hlength,
    List.drop_left' hlength, h]
  rfl

theorem calcPaddedSize_recordSize : calcPaddedSize recordSize recordSize = recordSize := rfl

theorem process_header {header : TarArchiveEntry} (hheader : commons.EncodesHeader header)
    (hflag : header.linkFlag = .normal) (hsize : header.size ≤ maxInt)
    (hrest : rest ≠ []) (nameOverride : Option String) (entries : List TarEntry) :
    process commons (reading nameOverride) (commons.writeEntryHeader header ++ rest) entries =
      let entry := commons.parseEntryHeader (commons.writeEntryHeader header)
      let named := nameOverride.elim entry (commons.setName entry)
      process commons (.readingPaddedChunk named.size (.yieldEntry named) []) rest entries := by
  have htake : (commons.writeEntryHeader header).take recordSize =
      commons.writeEntryHeader header := List.take_of_length_le (Nat.le_of_eq hheader.length)
  have hflag' := hheader.linkFlag.trans hflag
  have hsize' : ¬maxInt < (commons.parseEntryHeader (commons.writeEntryHeader header)).size := by
    rw [hheader.size]
    exact Nat.not_lt.mpr hsize
  have hnew : (AndThen.readHeader nameOverride).apply commons
      ((commons.writeEntryHeader header).take recordSize) =
        .ok (.readingPaddedChunk
          (nameOverride.elim (commons.parseEntryHeader (commons.writeEntryHeader header))
            (commons.setName (commons.parseEntryHeader (commons.writeEntryHeader header)))).size
          (.yieldEntry (nameOverride.elim
            (commons.parseEntryHeader (commons.writeEntryHeader header))
            (commons.setName (commons.parseEntryHeader (commons.writeEntryHeader header))))) [],
          []) := by
    rw [htake, AndThen.apply, readHeader, if_neg hheader.notZero]
    simp only [hflag', reduceCtorEq, if_false, if_neg hsize']
  have hlength : (commons.writeEntryHeader header).length = calcPaddedSize recordSize recordSize :=
    hheader.length.trans calcPaddedSize_recordSize.symm
  rw [reading, process_chunk hlength hrest hnew, List.append_nil]

theorem utf8String_getBytes (commons : CommonsCompress) (name : String) :
    utf8String commons (getBytes name) = name := by
  have hvalid : String.fromUTF8? ⟨(getBytes name).toArray⟩ = some name := by
    rw [getBytes, Array.toArray_toList, String.fromUTF8?]
    exact dif_pos name.isValidUTF8
  rw [utf8String, hvalid]

theorem process_longName {name : String}
    (hheader : commons.EncodesHeader (longNameHeader commons (getBytes name)))
    (hnames : commons.KeepsNames) (hrest : rest ≠ []) (entries : List TarEntry) :
    process commons (reading none)
        (padToBoundary (commons.writeEntryHeader (longNameHeader commons (getBytes name)) ++
          getBytes name ++ [0]) ++ rest) entries =
      process commons (reading (some name)) rest entries := by
  have hmod : (commons.writeEntryHeader (longNameHeader commons (getBytes name))).length %
      recordSize = 0 := by
    rw [hheader.length]
    rfl
  have htake : (commons.writeEntryHeader (longNameHeader commons (getBytes name))).take recordSize =
      commons.writeEntryHeader (longNameHeader commons (getBytes name)) :=
    List.take_of_length_le (Nat.le_of_eq hheader.length)
  have hflag := hheader.linkFlag.trans (hnames.newFlaggedEntry gnuLonglink .gnuLongName)
  have hsize : (commons.parseEntryHeader (commons.writeEntryHeader
      (longNameHeader commons (getBytes name)))).size = (getBytes name ++ [0]).length := by
    rw [hheader.size, List.length_append]
    rfl
  have hnew : (AndThen.readHeader none).apply commons
      ((commons.writeEntryHeader (longNameHeader commons (getBytes name))).take recordSize) =
        .ok (.readingPaddedChunk (getBytes name ++ [0]).length .resumeWithLongName [], []) := by
    rw [htake, AndThen.apply, readHeader, if_neg hheader.notZero, if_pos hflag, hsize]
  have hresume : AndThen.resumeWithLongName.apply commons
      ((padToBoundary (getBytes name ++ [0])).take (getBytes name ++ [0]).length) =
        .ok (reading (some name), []) := by
    rw [take_padToBoundary, AndThen.apply, resumeWithLongName, List.getLast?_concat]
    simp only [if_true, List.dropLast_concat, utf8String_getBytes]
  have hlength := hheader.length.trans calcPaddedSize_recordSize.symm
  have hne : padToBoundary (getBytes name ++ [0]) ++ rest ≠ [] :=
    List.append_ne_nil_of_right_ne_nil _ hrest
  rw [List.append_assoc, padToBoundary_append hmod, List.append_assoc, reading,
    process_chunk hlength hne hnew, process_chunk (length_padToBoundary _) hrest hresume,
    List.append_nil, List.append_nil]

/-! ## Entries -/

/-- The headers that are written of an entry are read back. -/
structure CommonsCompress.EncodesEntry (commons : CommonsCompress) (entry : TarEntry) : Prop where
  header : commons.EncodesHeader { entry.header with size := entry.data.length }
  longName : namelen < (getBytes entry.header.name).length →
    commons.EncodesHeader (longNameHeader commons (getBytes entry.header.name))

/-- An entry that can be written: a regular file with a name that the library keeps, headers
that it reads back and records that fit in a `ByteString`. -/
structure Writable (commons : CommonsCompress) (entry : TarEntry) : Prop where
  fileName : IsFileName entry.header.name
  linkFlag : entry.header.linkFlag = .normal
  size : (writeEntry commons entry).length ≤ maxInt
  encodes : commons.EncodesEntry entry

theorem length_le_padToBoundary (bytes : Bytes) : bytes.length ≤ (padToBoundary bytes).length := by
  rw [padToBoundary, List.length_append]
  exact Nat.le_add_right _ _

theorem length_le_writeEntry (commons : CommonsCompress) (entry : TarEntry) :
    entry.data.length ≤ (writeEntry commons entry).length := by
  rw [writeEntry]
  refine Nat.le_trans ?_ (length_le_padToBoundary _)
  rw [List.length_append]
  exact Nat.le_add_left _ _

/-- An entry with the same name and data. -/
def TarEntry.Agrees (entry entry' : TarEntry) : Prop :=
  entry'.header.name = entry.header.name ∧ entry'.data = entry.data

theorem process_entry {entry : TarEntry} (hwritable : Writable commons entry)
    (hnames : commons.KeepsNames) (hrest : rest ≠ []) (entries : List TarEntry) :
    ∃ entry', entry.Agrees entry' ∧
      process commons (reading none) (writeEntry commons entry ++ rest) entries =
        process commons (reading none) rest (entries ++ [entry']) := by
  obtain ⟨hfile, hflag, hlength, hheader, hlong⟩ := hwritable
  have hsize := Nat.le_trans (length_le_writeEntry commons entry) hlength
  obtain ⟨header, data⟩ := entry
  dsimp only at hfile hflag hsize hheader hlong
  have hmod : (commons.writeEntryHeader { header with size := data.length }).length %
      recordSize = 0 := by
    rw [hheader.length]
    rfl
  have hdata : padToBoundary data ++ rest ≠ [] := List.append_ne_nil_of_right_ne_nil _ hrest
  -- the data is read after the header, with whatever name
  have hyield : ∀ named : TarArchiveEntry, named.size = data.length →
      process commons (.readingPaddedChunk named.size (.yieldEntry named) [])
          (padToBoundary data ++ rest) entries =
        process commons (reading none) rest (entries ++ [⟨named, data⟩]) := by
    intro named hnamed
    apply process_chunk
    · rw [length_padToBoundary, hnamed]
    · exact hrest
    · rw [hnamed, take_padToBoundary]
      rfl
  by_cases hfits : namelen < (getBytes header.name).length
  · have hwrite : writeEntry commons ⟨header, data⟩ =
        padToBoundary (commons.writeEntryHeader (longNameHeader commons (getBytes header.name)) ++
          getBytes header.name ++ [0]) ++
        (commons.writeEntryHeader { header with size := data.length } ++ padToBoundary data) := by
      simp only [writeEntry, if_pos hfits]
      rw [List.append_assoc, padToBoundary_append (length_padToBoundary_mod _),
        padToBoundary_append hmod]
    obtain ⟨hname, hsame⟩ := hnames.setName
      (commons.parseEntryHeader (commons.writeEntryHeader { header with size := data.length }))
      header.name hfile
    refine ⟨⟨_, data⟩, ⟨hname, rfl⟩, ?_⟩
    have hheaderRest : commons.writeEntryHeader { header with size := data.length } ++
        (padToBoundary data ++ rest) ≠ [] := List.append_ne_nil_of_right_ne_nil _ hdata
    rw [hwrite, List.append_assoc (padToBoundary _) _ rest,
      List.append_assoc (commons.writeEntryHeader _) (padToBoundary data) rest,
      process_longName (hlong hfits) hnames hheaderRest,
      process_header hheader hflag hsize hdata]
    exact hyield _ (hsame.trans hheader.size)
  · have hwrite : writeEntry commons ⟨header, data⟩ =
        commons.writeEntryHeader { header with size := data.length } ++ padToBoundary data := by
      simp only [writeEntry, if_neg hfits]
      rw [List.nil_append, padToBoundary_append hmod]
    refine ⟨⟨_, data⟩, ⟨hheader.name (Nat.not_lt.mp hfits), rfl⟩, ?_⟩
    rw [hwrite, List.append_assoc, process_header hheader hflag hsize hdata]
    exact hyield _ hheader.size

theorem process_terminalChunk (entries : List TarEntry) :
    process commons (reading none) terminalChunk entries = .ok (.terminal, entries) := by
  have hsplit : terminalChunk = List.replicate recordSize 0 ++ List.replicate recordSize 0 := by
    rw [List.replicate_append_replicate, terminalChunk, eofBlockSize, Nat.mul_two]
  have hend : (AndThen.readHeader none).apply commons
      ((List.replicate recordSize (0 : UInt8)).take recordSize) = .ok (.terminal, []) := by
    rw [List.take_of_length_le (Nat.le_of_eq List.length_replicate), AndThen.apply, readHeader,
      if_pos]
    exact List.all_eq_true.mpr fun b hb => by rw [List.eq_of_mem_replicate hb]; rfl
  have hrest : List.replicate recordSize (0 : UInt8) ≠ [] :=
    List.ne_nil_of_length_pos (List.length_replicate.symm ▸ Nat.zero_lt_succ 511)
  have hlength : (List.replicate recordSize (0 : UInt8)).length =
      calcPaddedSize recordSize recordSize :=
    List.length_replicate.trans calcPaddedSize_recordSize.symm
  rw [hsplit, reading, process_chunk hlength hrest hend, List.append_nil,
    process_ok hrest rfl, process_nil, List.append_nil]

theorem process_writer (hnames : commons.KeepsNames)
    (hwritable : ∀ entry ∈ entries, Writable commons entry) (found : List TarEntry) :
    ∃ entries', List.Forall₂ TarEntry.Agrees entries entries' ∧
      process commons (reading none) (writer commons entries).flatten found =
        .ok (.terminal, found ++ entries') := by
  induction entries generalizing found with
  | nil =>
    refine ⟨[], .nil, ?_⟩
    rw [List.append_nil]
    exact (congrArg (process commons (reading none) · found) (List.append_nil terminalChunk)).trans
      (process_terminalChunk found)
  | cons entry entries ih =>
    obtain ⟨hentry, hrest⟩ := List.forall_mem_cons.mp hwritable
    have hne : (writer commons entries).flatten ≠ [] := by
      rw [writer, List.flatten_append]
      exact List.append_ne_nil_of_right_ne_nil _ (List.cons_ne_nil _ _)
    obtain ⟨entry', hagrees, hprocess⟩ := process_entry hentry hnames hne found
    obtain ⟨entries', hall, hprocess'⟩ := ih hrest (found ++ [entry'])
    refine ⟨entry' :: entries', .cons hagrees hall, ?_⟩
    have hflatten : (writer commons (entry :: entries)).flatten =
        writeEntry commons entry ++ (writer commons entries).flatten := rfl
    rw [hflatten, hprocess, hprocess', List.append_assoc]
    rfl

/-- The entries written are read back, however the bytes are cut into chunks. -/
theorem reader_writer (hnames : commons.KeepsNames)
    (hwritable : ∀ entry ∈ entries, Writable commons entry) {chunks : List Bytes}
    (hchunks : chunks.flatten = (writer commons entries).flatten) :
    ∃ entries', List.Forall₂ TarEntry.Agrees entries entries' ∧
      reader commons chunks = .ok entries' := by
  obtain ⟨entries', hall, hprocess⟩ := process_writer hnames hwritable []
  refine ⟨entries', hall, ?_⟩
  rw [reader, readChunks_eq, hchunks, hprocess]
  rfl

end Marathon.TarFlow
