import SocRV.Lib.HexText

/-!
# The image converter

`scripts/elf2mem.py`: an ELF file is parsed into its loadable segments, each is placed in the one region that contains
it, and the regions are written as text files of words, flat and split across the banks of the memories.
-/

namespace SocRV

namespace Elf2Mem

/-! ## The ELF file -/

/-- `PT_LOAD`. -/
def ptLoad : Nat := 1

/-- The bytes `start` to `stop` of a byte string. -/
def slice (l : List (BitVec 8)) (start stop : Nat) : List (BitVec 8) := (l.drop start).take (stop - start)

/-- A slice has the bytes from its start on. -/
theorem getElem?_slice {l : List (BitVec 8)} {start stop k : Nat} (h : start + k < stop) :
    (slice l start stop)[k]? = l[start + k]? := by
  rw [slice, List.getElem?_take_of_lt (by omega), List.getElem?_drop]

/-- The little-endian field of `n` bytes at an offset. -/
def field (blob : List (BitVec 8)) (offset n : Nat) : Nat := fromLittle (slice blob offset (offset + n))

/-- The fields of the file header that are read. -/
structure ElfHeader where
  ident : List (BitVec 8)
  entry : Nat
  programOffset : Nat
  programEntrySize : Nat
  programCount : Nat

/-- `ELF_HEADER.size`. -/
def elfHeaderSize : Nat := 52

/-- `ELF_HEADER.unpack_from(blob)`. -/
def elfHeader (blob : List (BitVec 8)) : ElfHeader where
  ident := slice blob 0 16
  entry := field blob 24 4
  programOffset := field blob 28 4
  programEntrySize := field blob 42 2
  programCount := field blob 44 2

/-- A program header. -/
structure ProgramHeader where
  segmentType : Nat
  fileOffset : Nat
  virtualAddress : Nat
  physicalAddress : Nat
  fileSize : Nat
  memorySize : Nat
  flags : Nat

/-- `PROGRAM_HEADER.size`. -/
def programHeaderSize : Nat := 32

/-- `PROGRAM_HEADER.unpack_from(blob, offset)`. -/
def programHeaderAt (blob : List (BitVec 8)) (offset : Nat) : ProgramHeader where
  segmentType := field blob offset 4
  fileOffset := field blob (offset + 4) 4
  virtualAddress := field blob (offset + 8) 4
  physicalAddress := field blob (offset + 12) 4
  fileSize := field blob (offset + 16) 4
  memorySize := field blob (offset + 20) 4
  flags := field blob (offset + 24) 4

/-- A segment to be loaded. -/
structure Segment where
  address : Nat
  data : List (BitVec 8)
  memorySize : Nat
  flags : Nat

/-- Where the program header of an index stands. -/
def headerOffset (blob : List (BitVec 8)) (index : Nat) : Nat :=
  (elfHeader blob).programOffset + index * (elfHeader blob).programEntrySize

/-- The program header of an index. -/
def programHeader (blob : List (BitVec 8)) (index : Nat) : ProgramHeader :=
  programHeaderAt blob (headerOffset blob index)

/-- A header that is loaded. -/
def ProgramHeader.loads (h : ProgramHeader) : Bool := h.segmentType == ptLoad && h.memorySize != 0

/-- Where a header is loaded. -/
def ProgramHeader.address (h : ProgramHeader) : Nat :=
  if h.physicalAddress ≠ 0 then h.physicalAddress else h.virtualAddress

/-- The segment of a header. -/
def ProgramHeader.segment (h : ProgramHeader) (blob : List (BitVec 8)) : Segment where
  address := h.address
  data := slice blob h.fileOffset (h.fileOffset + h.fileSize)
  memorySize := h.memorySize
  flags := h.flags

/-- One round of the loop over the program headers: the segment of a header, if it is loaded. -/
def parseHeader (blob : List (BitVec 8)) (index : Nat) : Except String (Option Segment) :=
  if headerOffset blob index + programHeaderSize > blob.length then
    .error "program-header table extends beyond ELF"
  else
    let h := programHeader blob index
    if !h.loads then .ok none
    else if h.fileSize > h.memorySize then .error s!"PT_LOAD {index} has file size larger than memory size"
    else if h.fileOffset + h.fileSize > blob.length then .error s!"PT_LOAD {index} extends beyond ELF"
    else .ok (some (h.segment blob))

/-- The loop over the program headers from the given indices on. -/
def parseHeaders (blob : List (BitVec 8)) : List Nat → Except String (List Segment)
  | [] => .ok []
  | index :: rest => do
    let segment ← parseHeader blob index
    let segments ← parseHeaders blob rest
    return segment.toList ++ segments

/-- `parse_elf32_little`. -/
def parseElf32Little (blob : List (BitVec 8)) : Except String (Nat × List Segment) :=
  if blob.length < elfHeaderSize then .error "ELF file is too small"
  else
    let values := elfHeader blob
    if slice values.ident 0 4 ≠ [0x7f, 0x45, 0x4c, 0x46] then .error "not an ELF file"
    else if values.ident.getD 4 0 ≠ 1 then .error "SocRV image conversion requires ELF32"
    else if values.ident.getD 5 0 ≠ 1 then .error "SocRV image conversion requires little-endian ELF"
    else if values.programEntrySize < programHeaderSize then
      .error s!"unsupported program-header size: {values.programEntrySize}"
    else do
      let segments ← parseHeaders blob (List.range values.programCount)
      if segments.isEmpty then .error "ELF contains no loadable segments" else .ok (values.entry, segments)

/-- An ELF file with the given program headers behind its file header, and the bytes behind them. -/
def elfFile (headers : List (List Nat)) (data : List (BitVec 8)) : List (BitVec 8) :=
  [0x7f, 0x45, 0x4c, 0x46, 1, 1, 1, 0, 0, 0, 0, 0, 0, 0, 0, 0] ++ toLittle 2 2 ++ toLittle 2 243 ++ toLittle 4 1 ++
    toLittle 4 0 ++ toLittle 4 52 ++ toLittle 4 0 ++ toLittle 4 0 ++ toLittle 2 52 ++ toLittle 2 32 ++
    toLittle 2 headers.length ++ toLittle 6 0 ++ headers.flatMap (·.flatMap (toLittle 4)) ++ data

/-! ## Regions -/

/-- Assign to a slice of a byte array. -/
def assignSlice (l : List (BitVec 8)) (start stop : Nat) (data : List (BitVec 8)) : List (BitVec 8) :=
  l.take start ++ data ++ l.drop (max start stop)

/-- A region of memory with its image.  The image covers the region; writing it may fill up the last word. -/
structure Region where
  name : String
  base : Nat
  size : Nat
  image : List (BitVec 8)
  usedEnd : Nat := 0
  storedWords : Nat := 0
  sized : size ≤ image.length

namespace Region

/-- The region that `Region.parse` makes of its fields. -/
def fresh (name : String) (base size : Nat) : Region where
  name := name
  base := base
  size := size
  image := List.replicate size 0
  sized := by simp

/-- `contains`. -/
def contains (r : Region) (address size : Nat) : Bool :=
  decide (r.base ≤ address) && decide (address + size ≤ r.base + r.size)

/-- The regions of `data/soc/memory_map.json`, as the build scripts give them to the converter. -/
def ofMemoryMap : List Region := [fresh "CODE" 0 0x20000, fresh "DATA" 0x20000 0x10000]

/-- The image with a segment in it: its data, and zeros up to its end. -/
def placed (r : Region) (s : Segment) : List (BitVec 8) :=
  let offset := s.address - r.base
  let image := assignSlice r.image offset (offset + s.data.length) s.data
  let memoryEnd := offset + s.memorySize
  if memoryEnd > offset + s.data.length then
    assignSlice image (offset + s.data.length) memoryEnd (List.replicate (memoryEnd - offset - s.data.length) 0)
  else image

end Region

/-- Assigning a slice does not shorten a list. -/
theorem length_le_assignSlice (l : List (BitVec 8)) (start : Nat) (data : List (BitVec 8)) :
    l.length ≤ (assignSlice l start (start + data.length) data).length := by
  simp only [assignSlice, List.length_append, List.length_take, List.length_drop]
  omega

/-- Placing a segment does not shorten the image. -/
theorem Region.length_le_placed (r : Region) (s : Segment) : r.image.length ≤ (r.placed s).length := by
  have hdata := length_le_assignSlice r.image (s.address - r.base) s.data
  unfold Region.placed
  by_cases h : s.address - r.base + s.memorySize > s.address - r.base + s.data.length
  · have hfill := length_le_assignSlice
      (assignSlice r.image (s.address - r.base) (s.address - r.base + s.data.length) s.data)
      (s.address - r.base + s.data.length)
      (List.replicate (s.address - r.base + s.memorySize - (s.address - r.base) - s.data.length) 0)
    rw [List.length_replicate] at hfill
    have hend : s.address - r.base + s.data.length +
        (s.address - r.base + s.memorySize - (s.address - r.base) - s.data.length) =
        s.address - r.base + s.memorySize := by omega
    rw [hend] at hfill
    simp only [if_pos h]
    exact Nat.le_trans hdata hfill
  · simp only [if_neg h]
    exact hdata

namespace Region

/-- `place`. -/
def place (r : Region) (s : Segment) : Region :=
  { r with
    image := r.placed s
    usedEnd := max r.usedEnd (s.address - r.base + s.memorySize)
    sized := Nat.le_trans r.sized (r.length_le_placed s) }

/-- The word of the image at an offset, as a line of text. -/
def wordLine (r : Region) (offset : Nat) : Text := formatHex 8 (fromLittle (slice r.image offset (offset + 4)))

/-- The size of the flat file in bytes, before it is filled up to whole words. -/
def outputSize (r : Region) (trim : Bool) : Nat := if trim then max 4 ((r.usedEnd + 3) / 4 * 4) else r.size

/-- The size of the flat file in bytes. -/
def paddedSize (r : Region) (trim : Bool) : Nat := (r.outputSize trim + 3) / 4 * 4

/-- The region after `write_word_mem`. -/
def written (r : Region) (trim : Bool) : Region :=
  { r with
    image := r.image ++ List.replicate (r.paddedSize trim - r.image.length) 0
    storedWords := r.paddedSize trim / 4
    sized := by
      rw [List.length_append]
      exact Nat.le_trans r.sized (Nat.le_add_right _ _) }

/-- The file that `write_word_mem` writes. -/
def wordMem (r : Region) (trim : Bool) : Text :=
  unlines ((List.range (r.paddedSize trim / 4)).map fun k => (r.written trim).wordLine (4 * k))

end Region

/-- `write_instruction_banks`: the even and the odd words of the code. -/
def writeInstructionBanks (r : Region) : Except String (Text × Text) :=
  if r.name ≠ "CODE" then .error "instruction bank files can only be generated for CODE"
  else if r.size % 8 ≠ 0 then .error "CODE region must be a multiple of one 64-bit fetch word"
  else
    .ok (unlines ((List.range (r.size / 8)).map fun k => r.wordLine (8 * k)),
      unlines ((List.range (r.size / 8)).map fun k => r.wordLine (8 * k + 4)))

/-- The words of a bank, when a region is split across `bankCount` of them. -/
def bankWords (r : Region) (bankCount bank : Nat) : List Text :=
  (List.range (r.size / (4 * bankCount))).map fun row => r.wordLine ((row * bankCount + bank) * 4)

/-- `write_interleaved_banks`, to `bankCount` files. -/
def writeInterleavedBanks (r : Region) (bankCount : Nat) : Except String (List Text) :=
  if bankCount = 0 ∨ r.size % (4 * bankCount) ≠ 0 then
    .error s!"{r.name} size must be a multiple of {bankCount} words"
  else .ok ((List.range bankCount).map fun bank => unlines (bankWords r bankCount bank))

/-! ## The conversion -/

/-- What `convert` is asked for: whether the flat files are trimmed, which instruction banks and how many lane and bank
files are written. -/
structure Options where
  trim : Bool := false
  codeBankLow : Bool := false
  codeBankHigh : Bool := false
  iccmLanes : Nat := 0
  dccmBanks : Nat := 0

/-- What `convert` leaves: the regions and the files. -/
structure Output where
  regions : List Region
  wordMems : List Text
  codeBanks : Option (Text × Text)
  iccmLanes : List Text
  dccmBanks : List Text

/-- One round of the loop over the segments: a segment is placed in the one region that contains it. -/
def placeSegment (regions : List Region) (s : Segment) : Except String (List Region) :=
  let found := regions.filter (·.contains s.address s.memorySize)
  if found.length ≠ 1 then
    .error (String.ofList ("segment 0x".toList ++ formatHex 8 s.address ++ "+0x".toList ++ formatHex 1 s.memorySize ++
      s!" matches {found.length} regions".toList))
  else .ok (regions.map fun r => if r.contains s.address s.memorySize then r.place s else r)

/-- The banks of a region, if a file is asked for: exactly `expected` files. -/
def writeBanks (regions : List Region) (name : String) (files expected : Nat) (few missing : String) :
    Except String (List Text) :=
  if files = 0 then .ok []
  else if files ≠ expected then .error few
  else match regions.find? (·.name == name) with
    | none => .error missing
    | some r => writeInterleavedBanks r files

/-- The instruction banks, if they are asked for. -/
def writeCodeBanks (regions : List Region) (o : Options) : Except String (Option (Text × Text)) :=
  if o.codeBankLow ≠ o.codeBankHigh then .error "both instruction bank output paths are required"
  else if o.codeBankLow then
    match regions.find? (·.name == "CODE") with
    | none => .error "CODE region is required for instruction bank generation"
    | some r => (writeInstructionBanks r).map some
  else .ok none

/-- `convert`. -/
def convert (blob : List (BitVec 8)) (regions : List Region) (o : Options) : Except String Output := do
  let parsed ← parseElf32Little blob
  let placed ← parsed.2.foldlM placeSegment regions
  let written := placed.map (·.written o.trim)
  let codeBanks ← writeCodeBanks written o
  let iccmLanes ← writeBanks written "CODE" o.iccmLanes 4 "exactly four --iccm-lane outputs are required"
    "CODE region is required for ICCM lane generation"
  let dccmBanks ← writeBanks written "DATA" o.dccmBanks 8 "exactly eight --dccm-bank outputs are required"
    "DATA region is required for DCCM bank generation"
  return { regions := written, wordMems := placed.map (·.wordMem o.trim), codeBanks, iccmLanes, dccmBanks }

end Elf2Mem

end SocRV
