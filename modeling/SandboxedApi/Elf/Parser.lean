import SandboxedApi.Util.Status
import SandboxedApi.Machine.Triple

namespace SandboxedApi

inductive ElfError where
  | status (s : Status)
  | fault
  deriving DecidableEq, Repr

/-- `Elf64_Ehdr`, with the members a modelled function reads. -/
structure ElfEhdr where
  eType : Nat
  ePhoff : Nat
  eShoff : Nat
  ePhentsize : Nat
  ePhnum : Nat
  eShentsize : Nat
  eShnum : Nat
  eShstrndx : Nat
  deriving DecidableEq, Repr

def ElfEhdr.zero : ElfEhdr := ⟨0, 0, 0, 0, 0, 0, 0, 0⟩

/-- `Elf64_Shdr`, with the members a modelled function reads. -/
structure ElfShdr where
  shName : Nat
  shType : Nat
  shOffset : Nat
  shSize : Nat
  shLink : Nat
  shEntsize : Nat
  deriving DecidableEq, Repr

/-- `Elf64_Phdr`, with the members a modelled function reads. -/
structure ElfPhdr where
  pType : Nat
  pOffset : Nat
  pFilesz : Nat
  deriving DecidableEq, Repr

structure ElfParser where
  file : List UInt8
  mmapFile : Bool
  elfLittle : Bool
  fileHeader : ElfEhdr
  programHeaders : List ElfPhdr
  sectionHeaders : List ElfShdr
  symbolEntriesRead : Nat
  dynamicEntriesRead : Nat

abbrev ElfM := EStateM ElfError ElfParser

def kMaxProgramHeaderEntries : Nat := 500
def kMaxSectionHeaderEntries : Nat := 500
def kMaxDataSize : Nat := 500 * 1024 * 1024
def kMaxSymbolEntries : Int := 4 * 1000 * 1000
def kMaxDynamicEntries : Int := 10000
def kMaxInterpreterSize : Nat := 1000

/-- `sizeof` of `Elf64_Ehdr`, `Elf64_Shdr`, `Elf64_Phdr`, `Elf64_Sym` and `Elf64_Dyn`. -/
def sizeofEhdr : Nat := 64
def sizeofShdr : Nat := 64
def sizeofPhdr : Nat := 56
def sizeofSym : Nat := 24
def sizeofDyn : Nat := 16

def shtSymtab : Nat := 2
def shtDynamic : Nat := 6
def shnUndef : Nat := 0
def shnAbs : Nat := 0xfff1
def dtNeeded : Nat := 1
def ptInterp : Nat := 3

/-- `ELFMAG`. -/
def elfMag : List UInt8 := [0x7f, 0x45, 0x4c, 0x46]

def toSizeT (v : Int) : Nat := (v % 2 ^ 64).toNat

namespace ElfParser

def fail {α : Type} (code : StatusCode) (message : String) : ElfM α :=
  throw (.status ⟨code, message⟩)

/-- `string_view::substr(pos, count)`, which throws when `pos` is past the end. -/
def substr (s : List UInt8) (pos count : Nat) : ElfM (List UInt8) :=
  if pos > s.length then throw .fault else pure ((s.drop pos).take count)

/-- `s[i]` of a `string_view`. -/
def byteAt (s : List UInt8) (i : Nat) : ElfM UInt8 :=
  match s[i]? with
  | some b => pure b
  | none => throw .fault

/-- `v.at(i)` of a `vector`. -/
def vectorAt {α : Type} (v : List α) (i : Nat) : ElfM α :=
  match v[i]? with
  | some a => pure a
  | none => throw .fault

def decodeLittle : List UInt8 → Nat
  | [] => 0
  | b :: bs => b.toNat + 256 * decodeLittle bs

/-- `Load` of an integer member: a `memcpy` of its `width` bytes at `off` in `src`, which
`Load16`, `Load32` and `Load64` then take in the file's byte order. -/
def load (src : List UInt8) (off width : Nat) : ElfM Nat := fun p =>
  if off + width ≤ src.length then
    let bytes := (src.drop off).take width
    .ok (if p.elfLittle then decodeLittle bytes else decodeLittle bytes.reverse) p
  else .error .fault p

/-- `ReadString(offset, strtab)`: the text from `offset` up to its NUL, or to the end. -/
def readString (offset : Nat) (strtab : List UInt8) : ElfM (List UInt8) :=
  substr strtab offset strtab.length >>= fun str => pure (str.takeWhile (· ≠ 0))

def readLoop (file : List UInt8) (pos remaining : Nat) : Except Status (List UInt8) :=
  if _h : remaining = 0 then .ok []
  else
    let n := min remaining (file.length - pos)
    if _hn : n = 0 then .error ⟨.outOfRange, "failed to read (EOF)"⟩
    else (readLoop file (pos + n) (remaining - n)).map (fun rest => (file.drop pos).take n ++ rest)
termination_by remaining
decreasing_by omega

/-- `ReadData(offset, size)`. Its `offset + size` cannot wrap in `size_t` once both are at most
the size of the file, which is below `2^63`. An offset of `2^63` or more is a negative `off_t`,
which `lseek` rejects with `EINVAL`. -/
def readData (offset size : Nat) : ElfM (List UInt8) := fun p =>
  if size > kMaxDataSize then
    .error (.status ⟨.invalidArgument,
      "too big data read (likely too large ELF section): size: " ++ toString size ++
        " max size: " ++ toString kMaxDataSize⟩) p
  else if p.mmapFile then
    if offset ≥ p.file.length ∨ size > p.file.length ∨ offset + size > p.file.length then
      .error (.status ⟨.invalidArgument,
        "invalid data read: offset: " ++ toString offset ++ " size: " ++ toString size ++
          " file size: " ++ toString p.file.length⟩) p
    else (substr p.file offset size).run p
  else if offset ≥ 2 ^ 63 then
    .error (.status ⟨.invalidArgument, "failed to lseek: Invalid argument"⟩) p
  else
    match readLoop p.file offset size with
    | .ok bytes => .ok bytes p
    | .error s => .error (.status s) p

/-- `ReadFileHeader`; the members of `file_header_` are stored together once all are loaded. -/
def readFileHeader : ElfM Unit :=
  readData 0 sizeofEhdr >>= fun header =>
  if ¬ elfMag <+: header then fail .failedPrecondition "magic not found, not an ELF"
  else byteAt header 4 >>= fun eiClass =>
  if eiClass ≠ 2 then fail .failedPrecondition "invalid ELF class"
  else byteAt header 5 >>= fun elfData =>
  modify (fun p => { p with elfLittle := elfData = 1 }) >>= fun _ =>
  if elfData ≠ 1 ∧ elfData ≠ 2 then fail .failedPrecondition "invalid endianness"
  else byteAt header 6 >>= fun version =>
  if version ≠ 1 then fail .failedPrecondition "invalid ELF version"
  else do
    let _ ← load header 0 16
    let eType ← load header 16 2
    let _ ← load header 18 2
    let _ ← load header 20 4
    let _ ← load header 24 8
    let ePhoff ← load header 32 8
    let eShoff ← load header 40 8
    let _ ← load header 48 4
    let _ ← load header 52 2
    let ePhentsize ← load header 54 2
    let ePhnum ← load header 56 2
    let eShentsize ← load header 58 2
    let eShnum ← load header 60 2
    let eShstrndx ← load header 62 2
    modify fun p => { p with
      fileHeader := ⟨eType, ePhoff, eShoff, ePhentsize, ePhnum, eShentsize, eShnum, eShstrndx⟩ }

/-- `ReadSectionHeader(src)`. -/
def readSectionHeader (src : List UInt8) : ElfM ElfShdr :=
  if src.length < sizeofShdr then
    fail .failedPrecondition ("invalid section header data: got " ++ toString src.length ++
      " bytes, " ++ toString sizeofShdr ++ " bytes expected.")
  else do
    let shName ← load src 0 4
    let shType ← load src 4 4
    let _ ← load src 8 8
    let _ ← load src 16 8
    let shOffset ← load src 24 8
    let shSize ← load src 32 8
    let shLink ← load src 40 4
    let _ ← load src 44 4
    let _ ← load src 48 8
    let shEntsize ← load src 56 8
    pure ⟨shName, shType, shOffset, shSize, shLink, shEntsize⟩

def readSectionHeadersLoop (entsize : Nat) : Nat → List UInt8 → ElfM (List ElfShdr)
  | 0, _ => pure []
  | count + 1, src =>
    readSectionHeader src >>= fun hdr =>
    substr src entsize src.length >>= fun src =>
    readSectionHeadersLoop entsize count src >>= fun rest =>
    pure (hdr :: rest)

/-- `ReadSectionHeaders`, which reads them once. -/
def readSectionHeaders : ElfM Unit :=
  get >>= fun p =>
  if ¬ p.sectionHeaders.isEmpty then pure ()
  else if p.fileHeader.eShentsize ≠ sizeofShdr then
    fail .failedPrecondition ("section header entry size incorrect: " ++
      toString p.fileHeader.eShentsize ++ " bytes, " ++ toString sizeofShdr ++ " expected.")
  else if p.fileHeader.eShnum > kMaxSectionHeaderEntries then
    fail .failedPrecondition ("too many section header entries: " ++ toString p.fileHeader.eShnum ++
      " limit: " ++ toString kMaxSectionHeaderEntries)
  else
    readData p.fileHeader.eShoff (p.fileHeader.eShentsize * p.fileHeader.eShnum) >>= fun headers =>
    readSectionHeadersLoop p.fileHeader.eShentsize p.fileHeader.eShnum headers >>= fun tmp =>
    modify fun p => { p with sectionHeaders := tmp }

/-- `ReadSectionContents(section_header)`. -/
def readSectionContents (hdr : ElfShdr) : ElfM (List UInt8) :=
  readData hdr.shOffset hdr.shSize

/-- `ReadSectionContents(idx)`. Its callers pass indices below `2^31`, which the `int` keeps. -/
def readSectionContentsIdx (idx : Nat) : ElfM (List UInt8) :=
  get >>= fun p =>
  if idx ≥ p.sectionHeaders.length then
    fail .failedPrecondition ("invalid section header index: " ++ toString idx)
  else vectorAt p.sectionHeaders idx >>= readSectionContents

/-- `ReadProgramHeader(src)`. -/
def readProgramHeader (src : List UInt8) : ElfM ElfPhdr :=
  if src.length < sizeofPhdr then
    fail .failedPrecondition ("invalid program header data: got " ++ toString src.length ++
      " bytes, " ++ toString sizeofPhdr ++ " bytes expected.")
  else do
    let pType ← load src 0 4
    let _ ← load src 4 4
    let pOffset ← load src 8 8
    let _ ← load src 16 8
    let _ ← load src 24 8
    let pFilesz ← load src 32 8
    let _ ← load src 40 8
    let _ ← load src 48 8
    pure ⟨pType, pOffset, pFilesz⟩

def readProgramHeadersLoop (entsize : Nat) : Nat → List UInt8 → ElfM (List ElfPhdr)
  | 0, _ => pure []
  | count + 1, src =>
    readProgramHeader src >>= fun hdr =>
    substr src entsize src.length >>= fun src =>
    readProgramHeadersLoop entsize count src >>= fun rest =>
    pure (hdr :: rest)

/-- `ReadProgramHeaders`, which reads them once; its entry size message is the one of the
section headers, as in the source. -/
def readProgramHeaders : ElfM Unit :=
  get >>= fun p =>
  if ¬ p.programHeaders.isEmpty then pure ()
  else if p.fileHeader.ePhentsize ≠ sizeofPhdr then
    fail .failedPrecondition ("section header entry size incorrect: " ++
      toString p.fileHeader.ePhentsize ++ " bytes, " ++ toString sizeofPhdr ++ " expected.")
  else if p.fileHeader.ePhnum > kMaxProgramHeaderEntries then
    fail .failedPrecondition ("too many program header entries: " ++ toString p.fileHeader.ePhnum ++
      " limit: " ++ toString kMaxProgramHeaderEntries)
  else
    readData p.fileHeader.ePhoff (p.fileHeader.ePhentsize * p.fileHeader.ePhnum) >>= fun headers =>
    readProgramHeadersLoop p.fileHeader.ePhentsize p.fileHeader.ePhnum headers >>= fun tmp =>
    modify fun p => { p with programHeaders := tmp }

def forEachProgramLoop {β : Type} (callback : β → ElfPhdr → ElfM β) : List ElfPhdr → β → ElfM β
  | [], acc => pure acc
  | hdr :: hdrs, acc => callback acc hdr >>= forEachProgramLoop callback hdrs

/-- `ForEachProgram(callback)`. -/
def forEachProgram {β : Type} (callback : β → ElfPhdr → ElfM β) (init : β) : ElfM β :=
  readProgramHeaders >>= fun _ =>
  get >>= fun p =>
  forEachProgramLoop callback p.programHeaders init

def forEachSectionLoop {β : Type} (callback : β → List UInt8 → ElfShdr → ElfM β)
    (strtab : List UInt8) : List ElfShdr → β → ElfM β
  | [], acc => pure acc
  | hdr :: hdrs, acc =>
    if hdr.shName ≥ strtab.length then
      fail .failedPrecondition ("invalid section name reference: " ++ toString hdr.shName)
    else
      readString hdr.shName strtab >>= fun name =>
      callback acc name hdr >>= forEachSectionLoop callback strtab hdrs

/-- `ForEachSection(callback)`. -/
def forEachSection {β : Type} (callback : β → List UInt8 → ElfShdr → ElfM β) (init : β) : ElfM β :=
  readSectionHeaders >>= fun _ =>
  get >>= fun p =>
  readSectionContentsIdx p.fileHeader.eShstrndx >>= fun strtab =>
  get >>= fun p =>
  forEachSectionLoop callback strtab p.sectionHeaders init

def readSymbolsLoop (entsize : Nat) (hent : 0 < entsize) (strtab src : List UInt8) :
    ElfM (List (Nat × List UInt8)) :=
  if _hsrc : src = [] then pure []
  else
    load src 0 4 >>= fun stName =>
    load src 4 1 >>= fun _ =>
    load src 5 1 >>= fun _ =>
    load src 6 2 >>= fun stShndx =>
    load src 8 8 >>= fun stValue =>
    load src 16 8 >>= fun _ =>
    let next : ElfM (List (Nat × List UInt8)) :=
      if _hlen : entsize > src.length then throw .fault
      else readSymbolsLoop entsize hent strtab (src.drop entsize)
    if stShndx = shnUndef then next
    else if stShndx = shnAbs then next
    else
      get >>= fun p =>
      if stShndx ≥ p.sectionHeaders.length then
        fail .failedPrecondition ("invalid symbol data: section index: " ++ toString stShndx)
      else if stName ≥ strtab.length then
        fail .failedPrecondition ("invalid name reference: REL" ++ toString stValue)
      else
        readString stName strtab >>= fun name =>
        next >>= fun rest => pure ((stValue, name) :: rest)
termination_by src.length
decreasing_by
  all_goals
    have := List.length_pos_iff.mpr _hsrc
    simp only [List.length_drop]
    omega

/-- `ReadSymbolsFromSymtab(symtab, symbol_callback)`: the symbols the callback gets, in order. -/
def readSymbolsFromSymtab (symtab : ElfShdr) : ElfM (List (Nat × List UInt8)) :=
  if symtab.shType ≠ shtSymtab then fail .failedPrecondition "invalid symtab type"
  else if hent : symtab.shEntsize ≠ sizeofSym then
    fail .internal ("invalid symbol entry size: " ++ toString symtab.shEntsize)
  else if symtab.shSize % symtab.shEntsize ≠ 0 then
    fail .internal ("invalid symbol table size: " ++ toString symtab.shSize)
  else
    let symbolEntries := symtab.shSize / symtab.shEntsize
    get >>= fun p =>
    if symbolEntries > toSizeT (kMaxSymbolEntries - p.symbolEntriesRead) then
      fail .internal ("too many symbols: " ++ toString symbolEntries)
    else
      modify (fun q => { q with symbolEntriesRead := q.symbolEntriesRead + symbolEntries }) >>= fun _ =>
      if symtab.shLink ≥ p.sectionHeaders.length then
        fail .internal ("invalid symtab's strtab reference: " ++ toString symtab.shLink)
      else
        readSectionContentsIdx symtab.shLink >>= fun strtab =>
        readSectionContents symtab >>= fun symbols =>
        readSymbolsLoop symtab.shEntsize (by simp only [sizeofSym] at hent; omega)
          strtab symbols

def readDynamicLoop (entsize : Nat) (hent : 0 < entsize) (strtab src : List UInt8) :
    ElfM (List (List UInt8)) :=
  if _hsrc : src = [] then pure []
  else
    load src 0 8 >>= fun dTag =>
    load src 8 8 >>= fun dVal =>
    let next : ElfM (List (List UInt8)) :=
      if _hlen : entsize > src.length then throw .fault
      else readDynamicLoop entsize hent strtab (src.drop entsize)
    if dTag ≠ dtNeeded then next
    else if dVal ≥ strtab.length then fail .failedPrecondition "invalid name reference"
    else
      readString dVal strtab >>= fun path =>
      next >>= fun rest => pure (path :: rest)
termination_by src.length
decreasing_by
  all_goals
    have := List.length_pos_iff.mpr _hsrc
    simp only [List.length_drop]
    omega

/-- `ReadImportedLibrariesFromDynamic(dynamic, library_callback)`: the paths the callback gets. -/
def readImportedLibrariesFromDynamic (dynamic : ElfShdr) : ElfM (List (List UInt8)) :=
  if dynamic.shType ≠ shtDynamic then fail .failedPrecondition "invalid dynamic type"
  else if hent : dynamic.shEntsize ≠ sizeofDyn then
    fail .internal ("invalid dynamic entry size: " ++ toString dynamic.shEntsize)
  else if dynamic.shSize % dynamic.shEntsize ≠ 0 then
    fail .internal ("invalid dynamic table size: " ++ toString dynamic.shSize)
  else
    let entries := dynamic.shSize / dynamic.shEntsize
    get >>= fun p =>
    if entries > toSizeT (kMaxDynamicEntries - p.dynamicEntriesRead) then
      fail .internal ("too many dynamic entries: " ++ toString entries)
    else
      modify (fun q => { q with dynamicEntriesRead := q.dynamicEntriesRead + entries }) >>= fun _ =>
      if dynamic.shLink ≥ p.sectionHeaders.length then
        fail .internal ("invalid dynamic's strtab reference: " ++ toString dynamic.shLink)
      else
        vectorAt p.sectionHeaders dynamic.shLink >>= fun strtabSection =>
        readSectionContents strtabSection >>= fun strtab =>
        readSectionContents dynamic >>= fun dynamicEntries =>
        readDynamicLoop dynamic.shEntsize (by simp only [sizeofDyn] at hent; omega)
          strtab dynamicEntries

/-- `ReadImportedLibraries`. -/
def readImportedLibraries : ElfM (List (List UInt8)) :=
  forEachSection (fun result _ hdr =>
    if hdr.shType = shtDynamic then
      readImportedLibrariesFromDynamic hdr >>= fun paths => pure (result ++ paths)
    else pure result) []

/-- `ReadInterpreter`: the path of the first `PT_INTERP` header, none for a static binary. -/
def readInterpreter : ElfM (List UInt8) :=
  readProgramHeaders >>= fun _ =>
  get >>= fun p =>
  match p.programHeaders.find? (fun hdr => hdr.pType = ptInterp) with
  | none => pure []
  | some hdr =>
    if hdr.pFilesz > kMaxInterpreterSize then
      fail .failedPrecondition ("program interpreter path too long: " ++ toString hdr.pFilesz)
    else readData hdr.pOffset hdr.pFilesz >>= readString 0

def empty (file : List UInt8) (mmapFile : Bool) : ElfParser :=
  ⟨file, mmapFile, false, .zero, [], [], 0, 0⟩

/-- `ElfParser::Create` and `Init` on a file that opens and stats: the mapping, when asked for,
then `ReadFileHeader`. `mmap` of an empty file fails with `EINVAL`. -/
def create (filename : String) (file : List UInt8) (mmapFile : Bool) : Except ElfError ElfParser :=
  if mmapFile ∧ file.length = 0 then
    .error (.status ⟨.invalidArgument, "failed to mmap: " ++ filename ++ ": Invalid argument"⟩)
  else
    match readFileHeader.run (empty file mmapFile) with
    | .ok _ p => .ok p
    | .error e _ => .error e

structure ElfFile where
  positionIndependent : Bool
  interpreter : List UInt8
  symbols : List (Nat × List UInt8)
  importedLibraries : List (List UInt8)
  deriving DecidableEq, Repr

def ElfFile.kGetInterpreter : UInt32 := 1
def ElfFile.kLoadSymbols : UInt32 := 2
def ElfFile.kLoadImportedLibraries : UInt32 := 4
def ElfFile.kAll : UInt32 := 7

def ElfFile.collectSymbols (symbols : List (Nat × List UInt8)) (_ : List UInt8) (hdr : ElfShdr) :
    ElfM (List (Nat × List UInt8)) :=
  if hdr.shType = shtSymtab then
    readSymbolsFromSymtab hdr >>= fun found => pure (symbols ++ found)
  else pure symbols

/-- `ElfFile::Parse(parser, features)`. -/
def ElfFile.parse (features : UInt32) : ElfM ElfFile :=
  if features &&& ~~~ElfFile.kAll ≠ 0 then fail .invalidArgument "Unknown feature flags specified"
  else
    get >>= fun p =>
    (if p.fileHeader.eType = 2 then pure false
      else if p.fileHeader.eType = 3 then pure true
      else fail .failedPrecondition "not an executable: ") >>= fun positionIndependent =>
    (if features &&& ElfFile.kGetInterpreter ≠ 0 then readInterpreter else pure []) >>= fun interpreter =>
    (if features &&& ElfFile.kLoadSymbols ≠ 0 then forEachSection ElfFile.collectSymbols []
      else pure []) >>= fun symbols =>
    (if features &&& ElfFile.kLoadImportedLibraries ≠ 0 then readImportedLibraries
      else pure []) >>= fun importedLibraries =>
    pure ⟨positionIndependent, interpreter, symbols, importedLibraries⟩

end ElfParser

end SandboxedApi
