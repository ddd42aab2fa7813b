import SandboxedApi.Elf.Parser
import SandboxedApi.Util.PathChecks
import SandboxedApi.Policy.Policy

namespace SandboxedApi

namespace LibraryResolver

def bytesToChars (bytes : List UInt8) : List Char := bytes.map fun b => Char.ofNat b.toNat

inductive OpenFailure where
  | openFailed (code : StatusCode) (error : String)
  | statFailed (code : StatusCode) (error : String)

structure FileSystem where
  /-- `fileops::Exists(path, /*fully_resolve=*/false)`. -/
  pathExists : List Char → Bool
  openFile : List Char → Except OpenFailure (List UInt8)

/-- `ElfParser::Create(filename, mmap_file)`. -/
def createParser (fs : FileSystem) (filename : List Char) (mmapFile : Bool) :
    Except ElfError ElfParser :=
  match fs.openFile filename with
  | .error (.openFailed code error) =>
    .error (.status ⟨code, "failed to open: " ++ String.ofList filename ++ ": " ++ error⟩)
  | .error (.statFailed code error) =>
    .error (.status ⟨code, "failed to stat: " ++ String.ofList filename ++ ": " ++ error⟩)
  | .ok file => ElfParser.create (String.ofList filename) file mmapFile

def allowedInterpreters : List (List Char) :=
  ["/lib64/ld-linux-x86-64.so.2".toList, "/lib64/ld64.so.2".toList,
    "/lib/ld-linux-aarch64.so.1".toList, "/lib/ld-linux-armhf.so.3".toList]

/-- `ValidateInterpreter`. -/
def validateInterpreter (interpreter : List Char) : Except Status Unit :=
  if interpreter ∈ allowedInterpreters then .ok ()
  else .error ⟨.invalidArgument, "Interpreter not on the allowlist: " ++ String.ofList interpreter⟩

def cpuPPC64LE : UInt32 := 0xcaf3
def cpuArm64 : UInt32 := 0xcaf4

/-- `GetPlatformCPUName()` on a host of the architecture `arch`. -/
def getPlatformCPUName (arch : UInt32) : List Char :=
  if arch = cpuX8664 then "x86_64".toList
  else if arch = cpuPPC64LE then "ppc64".toList
  else if arch = cpuArm64 then "aarch64".toList
  else "unknown".toList

/-- `GetPlatform(interpreter)`, which does not look at the interpreter. -/
def getPlatform (_interpreter : List Char) : List Char :=
  getPlatformCPUName hostArch ++ "-linux-gnu".toList

def searchPaths (ldLibraryPath : List Char) : List (List Char) :=
  (if ldLibraryPath.isEmpty then [] else ldLibraryPath.splitOnP fun c => c == ':' || c == ';') ++
    ["/lib".toList, "/lib64".toList, "/usr/lib".toList, "/usr/lib64".toList]

/-- `search_path` joined with the hardware capability directories that the bits of `hwCapsSet`
pick, in order. -/
def hwCapsPath (hwCapPaths : List (List Char)) (searchPath : List Char) (hwCapsSet : Nat) :
    List Char :=
  (List.range hwCapPaths.length).foldl (fun path hwCap =>
    if hwCapsSet.testBit hwCap then joinPath [path, hwCapPaths.getD hwCap []] else path) searchPath

/-- `full_search_paths`: for each search directory, its hardware capability subdirectories from
all capabilities down to none, those that exist. -/
def fullSearchPaths (fs : FileSystem) (interpreter ldLibraryPath : List Char) : List (List Char) :=
  let hwCapPaths := [getPlatform interpreter, "tls".toList]
  (searchPaths ldLibraryPath).flatMap fun searchPath =>
    ((List.range (2 ^ hwCapPaths.length)).reverse.map (hwCapsPath hwCapPaths searchPath)).filter
      fs.pathExists

def kMaxWorkQueueSize : Nat := 1000
def kMaxResolvingDepth : Nat := 10
def kMaxResolvedEntries : Nat := 1000
def kMaxLoadedEntries : Nat := 100
def kMaxImportedLibraries : Nat := 200

structure ResolverState where
  importedLibraries : List (List Char)
  toResolve : List (List Char × Nat)
  resolved : Nat
  loaded : Nat
  calls : List (List Char × ElfParser)

def ResolverState.start (roots : List (List Char)) : ResolverState :=
  ⟨[], (roots.map fun lib => (lib, 1)).reverse, 0, 0, []⟩

def resolveEntry (fs : FileSystem) (fullSearchPaths : List (List Char)) (mmapLibs : Bool)
    (lib : List Char) (depth : Nat) (s : ResolverState) :
    EStateM.Result ElfError ResolverState Unit :=
  if depth > kMaxResolvingDepth then
    .error (.status ⟨.failedPrecondition, "Exceeded max resolving depth limit"⟩) s
  else
    let resolvedLib := resolveLibraryPath fs.pathExists lib fullSearchPaths
    if resolvedLib.isEmpty then .ok () s
    else if resolvedLib ∈ s.importedLibraries then .ok () s
    else
      let s := { s with importedLibraries := s.importedLibraries ++ [resolvedLib] }
      if s.importedLibraries.length > kMaxImportedLibraries then
        .error (.status ⟨.failedPrecondition, "Exceeded max imported libraries limit"⟩) s
      else
        let s := { s with loaded := s.loaded + 1 }
        if s.loaded > kMaxLoadedEntries then
          .error (.status ⟨.failedPrecondition, "Exceeded max loaded entries limit"⟩) s
        else
          match createParser fs resolvedLib mmapLibs with
          | .error e => .error e s
          | .ok libElf =>
            match ElfParser.readImportedLibraries.run libElf with
            | .error e _ => .error e s
            | .ok importedLibs libElf =>
              if importedLibs.length > toSizeT (kMaxWorkQueueSize - s.toResolve.length) then
                .error (.status ⟨.failedPrecondition,
                  "Exceeded max entries pending resolving limit"⟩) s
              else
                .ok () { s with
                  toResolve := (importedLibs.map fun l => (bytesToChars l, depth + 1)).reverse ++
                    s.toResolve
                  calls := s.calls ++ [(resolvedLib, libElf)] }

theorem resolveEntry_ok_cases {fs : FileSystem} {fullSearchPaths : List (List Char)}
    {mmapLibs : Bool} {lib resolvedLib : List Char} {depth : Nat} {s s' : ResolverState}
    (hr : resolveLibraryPath fs.pathExists lib fullSearchPaths = resolvedLib)
    (h : resolveEntry fs fullSearchPaths mmapLibs lib depth s = .ok () s') :
    depth ≤ kMaxResolvingDepth ∧
      ((resolvedLib = [] ∨ resolvedLib ∈ s.importedLibraries) ∧ s' = s ∨
        resolvedLib ≠ [] ∧ resolvedLib ∉ s.importedLibraries ∧
        s.importedLibraries.length + 1 ≤ kMaxImportedLibraries ∧
        s.loaded + 1 ≤ kMaxLoadedEntries ∧
        ∃ libElf₀ importedLibs libElf, createParser fs resolvedLib mmapLibs = .ok libElf₀ ∧
          ElfParser.readImportedLibraries.run libElf₀ = .ok importedLibs libElf ∧
          importedLibs.length ≤ toSizeT (kMaxWorkQueueSize - s.toResolve.length) ∧
          s' = { s with
            importedLibraries := s.importedLibraries ++ [resolvedLib]
            loaded := s.loaded + 1
            toResolve := (importedLibs.map fun l => (bytesToChars l, depth + 1)).reverse ++
              s.toResolve
            calls := s.calls ++ [(resolvedLib, libElf)] }) := by
  unfold resolveEntry at h
  dsimp only at h
  rw [hr] at h
  split_ifs at h with hdepth hempty hmem hlimit hloaded
  · cases h
    exact ⟨Nat.le_of_not_gt hdepth, .inl ⟨.inl (List.isEmpty_iff.mp hempty), rfl⟩⟩
  · cases h
    exact ⟨Nat.le_of_not_gt hdepth, .inl ⟨.inr hmem, rfl⟩⟩
  · -- the library is loaded: its parser is made and its imports read
    refine ⟨Nat.le_of_not_gt hdepth, .inr ⟨fun hnil => hempty (List.isEmpty_iff.mpr hnil), hmem,
      by simpa using hlimit, by simpa using hloaded, ?_⟩⟩
    split at h
    · cases h
    · split at h
      · cases h
      · rename_i libElf₀ hcreate _ importedLibs libElf hread
        split_ifs at h with hqueue
        cases h
        exact ⟨libElf₀, importedLibs, libElf, hcreate, hread, Nat.le_of_not_gt hqueue, rfl⟩

theorem resolveEntry_resolved {fs : FileSystem} {fullSearchPaths : List (List Char)}
    {mmapLibs : Bool} {lib : List Char} {depth : Nat} {s s' : ResolverState}
    (h : resolveEntry fs fullSearchPaths mmapLibs lib depth s = .ok () s') :
    s'.resolved = s.resolved := by
  obtain ⟨-, ⟨-, rfl⟩ | ⟨-, -, -, -, _, _, _, -, -, -, rfl⟩⟩ := resolveEntry_ok_cases rfl h <;>
    rfl

def resolveLoop (fs : FileSystem) (fullSearchPaths : List (List Char)) (mmapLibs : Bool)
    (s : ResolverState) : EStateM.Result ElfError ResolverState Unit :=
  match s.toResolve with
  | [] => .ok () s
  | (lib, depth) :: rest =>
    if _hcount : s.resolved + 1 > kMaxResolvedEntries then
      .error (.status ⟨.failedPrecondition, "Exceeded max resolved entries limit"⟩)
        { s with toResolve := rest, resolved := s.resolved + 1 }
    else
      match _hpass : resolveEntry fs fullSearchPaths mmapLibs lib depth
          { s with toResolve := rest, resolved := s.resolved + 1 } with
      | .ok () s' => resolveLoop fs fullSearchPaths mmapLibs s'
      | .error e s' => .error e s'
termination_by kMaxResolvedEntries + 1 - s.resolved
decreasing_by
  rw [resolveEntry_resolved _hpass]
  show kMaxResolvedEntries + 1 - (s.resolved + 1) < kMaxResolvedEntries + 1 - s.resolved
  omega

/-- `ResolveLibraryPaths(file, mmap_libs, ld_library_path, callback)`: what it returns, with the
calls of the callback, in order, which stay made when it fails. -/
def resolveLibraryPaths (fs : FileSystem) (file : ElfParser) (mmapLibs : Bool)
    (ldLibraryPath : List Char) : Except ElfError (List Char) × List (List Char × ElfParser) :=
  match ElfParser.readInterpreter.run file with
  | .error e _ => (.error e, [])
  | .ok interpreterBytes file =>
    let interpreter := bytesToChars interpreterBytes
    if interpreter.isEmpty then (.ok interpreter, [])
    else
      match validateInterpreter interpreter with
      | .error s => (.error (.status s), [])
      | .ok () =>
        let fullSearchPaths := fullSearchPaths fs interpreter ldLibraryPath
        match ElfParser.readImportedLibraries.run file with
        | .error e _ => (.error e, [])
        | .ok importedLibs _ =>
          if importedLibs.length > kMaxWorkQueueSize then
            (.error (.status ⟨.failedPrecondition, "Exceeded max entries pending resolving limit"⟩),
              [])
          else
            match resolveLoop fs fullSearchPaths mmapLibs
                (.start (importedLibs.map bytesToChars)) with
            | .ok () s => (.ok interpreter, s.calls)
            | .error e s => (.error e, s.calls)

/-- `ResolveLibraryPaths(path, ld_library_path, callback)`: the binary read without a mapping,
and the libraries the callback is given. -/
def resolveLibraryPathsOf (fs : FileSystem) (path ldLibraryPath : List Char) :
    Except ElfError (List Char) × List (List Char) :=
  match createParser fs path false with
  | .error e => (.error e, [])
  | .ok file =>
    let result := resolveLibraryPaths fs file false ldLibraryPath
    (result.1, result.2.map Prod.fst)

end LibraryResolver

end SandboxedApi
