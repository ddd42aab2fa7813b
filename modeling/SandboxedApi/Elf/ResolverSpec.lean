import Mathlib.Logic.Relation
import SandboxedApi.Lib.Worklist
import SandboxedApi.Elf.Limits
import SandboxedApi.Elf.Resolver

namespace SandboxedApi

namespace LibraryResolver

section

variable (fs : FileSystem) (fullSearchPaths : List (List Char)) (mmapLibs : Bool)

def LoopStep (s s' : ResolverState) : Prop :=
  ∃ lib depth rest, s.toResolve = (lib, depth) :: rest ∧ s.resolved + 1 ≤ kMaxResolvedEntries ∧
    resolveEntry fs fullSearchPaths mmapLibs lib depth
      { s with toResolve := rest, resolved := s.resolved + 1 } = .ok () s'

def resolvedKey (lib : List Char) : Option (List Char) :=
  let resolvedLib := resolveLibraryPath fs.pathExists lib fullSearchPaths
  if resolvedLib.isEmpty then none else some resolvedLib

def importsOf (path : List Char) : List (List Char) :=
  match createParser fs path mmapLibs with
  | .error _ => []
  | .ok libElf =>
    match ElfParser.readImportedLibraries.run libElf with
    | .ok importedLibs _ => importedLibs.map bytesToChars
    | .error _ _ => []

end

def ResolverState.toWorklist (s : ResolverState) : Worklist.State (List Char) (List Char) :=
  ⟨s.importedLibraries, s.toResolve.map Prod.fst⟩

structure ResolverState.Bounded (s : ResolverState) : Prop where
  calls : s.calls.map Prod.fst = s.importedLibraries
  loaded : s.loaded = s.importedLibraries.length
  loaded_le : s.loaded ≤ kMaxLoadedEntries
  queue_le : s.toResolve.length ≤ kMaxWorkQueueSize

variable {fs : FileSystem} {fullSearchPaths : List (List Char)} {mmapLibs : Bool}
  {s s' : ResolverState}

theorem resolveLoop_of_nil (h : s.toResolve = []) :
    resolveLoop fs fullSearchPaths mmapLibs s = .ok () s := by
  rw [resolveLoop, h]

theorem resolveLoop_ok (h : resolveLoop fs fullSearchPaths mmapLibs s = .ok () s') :
    Relation.ReflTransGen (LoopStep fs fullSearchPaths mmapLibs) s s' ∧ s'.toResolve = [] := by
  fun_induction resolveLoop fs fullSearchPaths mmapLibs s with
  | case1 s hnil =>
    cases h
    exact ⟨.refl, hnil⟩
  | case2 => cases h
  | case3 s lib depth rest hstack hcount t hpass ih =>
    obtain ⟨hrun, hdone⟩ := ih h
    exact ⟨.head ⟨lib, depth, rest, hstack, Nat.le_of_not_gt hcount, hpass⟩ hrun, hdone⟩
  | case4 => cases h

theorem resolveEntry_error_calls {lib : List Char} {depth : Nat} {e : ElfError}
    (h : resolveEntry fs fullSearchPaths mmapLibs lib depth s = .error e s') : s'.calls = s.calls := by
  unfold resolveEntry at h
  dsimp only at h
  split_ifs at h
  all_goals first
    | (cases h; rfl)
    | skip
  split at h
  · cases h
    rfl
  · split at h
    · cases h
      rfl
    · split_ifs at h
      cases h
      rfl

theorem resolveLoop_error {e : ElfError} (h : resolveLoop fs fullSearchPaths mmapLibs s = .error e s') :
    ∃ t, Relation.ReflTransGen (LoopStep fs fullSearchPaths mmapLibs) s t ∧ s'.calls = t.calls := by
  fun_induction resolveLoop fs fullSearchPaths mmapLibs s with
  | case1 => cases h
  | case2 s =>
    cases h
    exact ⟨s, .refl, rfl⟩
  | case3 s lib depth rest hstack hcount t hpass ih =>
    obtain ⟨u, hrun, hcalls⟩ := ih h
    exact ⟨u, .head ⟨lib, depth, rest, hstack, Nat.le_of_not_gt hcount, hpass⟩ hrun, hcalls⟩
  | case4 s lib depth rest hstack hcount e t hpass =>
    cases h
    exact ⟨s, .refl, by rw [resolveEntry_error_calls hpass]⟩

theorem bounded_start {roots : List (List Char)} (hroots : roots.length ≤ kMaxWorkQueueSize) :
    (ResolverState.start roots).Bounded where
  calls := rfl
  loaded := rfl
  loaded_le := Nat.zero_le _
  queue_le := by simpa [ResolverState.start] using hroots

theorem LoopStep.bounded (hs : s.Bounded) (h : LoopStep fs fullSearchPaths mmapLibs s s') :
    s'.Bounded := by
  obtain ⟨lib, depth, rest, hstack, -, hpass⟩ := h
  have hrest : rest.length + 1 ≤ kMaxWorkQueueSize := by
    have := hs.queue_le
    rw [hstack, List.length_cons] at this
    exact this
  obtain ⟨-, ⟨-, rfl⟩ | ⟨-, -, -, hloaded, _, importedLibs, _, -, -, hroom, rfl⟩⟩ :=
    resolveEntry_ok_cases rfl hpass
  · exact ⟨hs.calls, hs.loaded, hs.loaded_le, by simp only; omega⟩
  · -- the room on the stack is `kMaxWorkQueueSize - rest.length`, which does not wrap
    rw [ElfParser.toSizeT_cap_sub (by simp only [kMaxWorkQueueSize] at hrest ⊢; omega)
      (by simp only [kMaxWorkQueueSize]; omega)] at hroom
    refine ⟨?_, ?_, ?_, ?_⟩
    · simp [hs.calls]
    · simp [hs.loaded]
    · exact hloaded
    · simp only [List.length_append, List.length_reverse, List.length_map]
      simp only [kMaxWorkQueueSize] at hroom hrest ⊢
      omega

theorem LoopStep.toWorklist (h : LoopStep fs fullSearchPaths mmapLibs s s') :
    Worklist.Step (resolvedKey fs fullSearchPaths) (importsOf fs mmapLibs) s.toWorklist
      s'.toWorklist := by
  obtain ⟨lib, depth, rest, hstack, -, hpass⟩ := h
  have hpop : s.toWorklist = ⟨s.importedLibraries, lib :: rest.map Prod.fst⟩ := by
    simp [ResolverState.toWorklist, hstack]
  rw [hpop]
  obtain ⟨-, ⟨hdrop, rfl⟩ |
      ⟨hne, hnew, -, -, libElf₀, importedLibs, libElf, hcreate, hread, -, rfl⟩⟩ :=
    resolveEntry_ok_cases rfl hpass
  · refine .drop fun k hk => ?_
    simp only [resolvedKey] at hk
    split at hk
    · cases hk
    · rename_i hempty
      cases hk
      exact hdrop.resolve_left fun hnil => hempty (List.isEmpty_iff.mpr hnil)
  · have hkey : resolvedKey fs fullSearchPaths lib =
        some (resolveLibraryPath fs.pathExists lib fullSearchPaths) := by
      simp [resolvedKey, List.isEmpty_iff, hne]
    have himports : importsOf fs mmapLibs (resolveLibraryPath fs.pathExists lib fullSearchPaths) =
        importedLibs.map bytesToChars := by
      simp only [importsOf, hcreate, hread]
    have hpending : ((importedLibs.map fun l => (bytesToChars l, depth + 1)).reverse ++ rest).map
        Prod.fst = (importedLibs.map bytesToChars).reverse ++ rest.map Prod.fst := by
      simp [List.map_reverse]
    simp only [ResolverState.toWorklist]
    rw [hpending]
    exact .visit hkey hnew fun y => by rw [himports, List.mem_reverse]

theorem invariant_of_run {roots : List (List Char)}
    (hrun : Relation.ReflTransGen (LoopStep fs fullSearchPaths mmapLibs) (.start roots) s) :
    Worklist.Invariant (resolvedKey fs fullSearchPaths) (importsOf fs mmapLibs) roots
      s.toWorklist := by
  induction hrun with
  | refl =>
    have hstart : (ResolverState.start roots).toWorklist = ⟨[], roots.reverse⟩ := by
      simp [ResolverState.toWorklist, ResolverState.start, List.map_reverse, Function.comp_def]
    rw [hstart]
    exact Worklist.invariant_init fun x => List.mem_reverse
  | tail _ hstep ih => exact ih.step hstep.toWorklist

theorem bounded_of_run {roots : List (List Char)} (hroots : roots.length ≤ kMaxWorkQueueSize)
    (hrun : Relation.ReflTransGen (LoopStep fs fullSearchPaths mmapLibs) (.start roots) s) :
    s.Bounded := by
  induction hrun with
  | refl => exact bounded_start hroots
  | tail _ hstep ih => exact LoopStep.bounded ih hstep

def CallsWithin (fs : FileSystem) (fullSearchPaths : List (List Char))
    (calls : List (List Char × ElfParser)) : Prop :=
  (calls.map Prod.fst).Nodup ∧ calls.length ≤ kMaxLoadedEntries ∧
    ∀ path ∈ calls.map Prod.fst, ∃ lib, resolvedKey fs fullSearchPaths lib = some path

theorem callsWithin_of_run {roots : List (List Char)} (hroots : roots.length ≤ kMaxWorkQueueSize)
    (hrun : Relation.ReflTransGen (LoopStep fs fullSearchPaths mmapLibs) (.start roots) s) :
    CallsWithin fs fullSearchPaths s.calls := by
  have hb := bounded_of_run hroots hrun
  have hi := invariant_of_run hrun
  have hlen : s.calls.length = s.loaded := by rw [hb.loaded, ← hb.calls, List.length_map]
  refine ⟨hb.calls ▸ hi.nodup, hlen ▸ hb.loaded_le, fun path hpath => ?_⟩
  rw [hb.calls] at hpath
  obtain ⟨lib, -, hkey⟩ := hi.visited_reach path hpath
  exact ⟨lib, hkey⟩

theorem callsWithin_resolveLoop {roots : List (List Char)}
    (hroots : roots.length ≤ kMaxWorkQueueSize) :
    CallsWithin fs fullSearchPaths
      (Machine.resultState (resolveLoop fs fullSearchPaths mmapLibs (.start roots))).calls := by
  cases hloop : resolveLoop fs fullSearchPaths mmapLibs (.start roots) with
  | ok _ t => exact callsWithin_of_run hroots (resolveLoop_ok hloop).1
  | error e t =>
    obtain ⟨u, hrun, hcalls⟩ := resolveLoop_error hloop
    simp only [Machine.resultState]
    rw [hcalls]
    exact callsWithin_of_run hroots hrun

theorem existingPathInsideDir_of_resolvedKey {lib path : List Char}
    (h : resolvedKey fs fullSearchPaths lib = some path) :
    ∃ searchPath ∈ fullSearchPaths,
      existingPathInsideDir fs.pathExists searchPath lib = .ok path := by
  simp only [resolvedKey] at h
  split at h
  · cases h
  · rename_i hempty
    cases h
    rcases resolveLibraryPath_cases fs.pathExists lib fullSearchPaths with hnil | hfound
    · exact absurd (List.isEmpty_iff.mpr hnil) hempty
    · exact hfound

theorem resolveLibraryPaths_cases (fs : FileSystem) (file : ElfParser) (mmapLibs : Bool)
    (ldLibraryPath : List Char) :
    ((resolveLibraryPaths fs file mmapLibs ldLibraryPath).2 = [] ∧
      ∀ interpreter, (resolveLibraryPaths fs file mmapLibs ldLibraryPath).1 = .ok interpreter →
        interpreter = []) ∨
    ∃ interpreterBytes file₁ roots file₂,
      ElfParser.readInterpreter.run file = .ok interpreterBytes file₁ ∧
      ElfParser.readImportedLibraries.run file₁ = .ok roots file₂ ∧
      roots.length ≤ kMaxWorkQueueSize ∧
      resolveLibraryPaths fs file mmapLibs ldLibraryPath =
        match resolveLoop fs
            (LibraryResolver.fullSearchPaths fs (bytesToChars interpreterBytes) ldLibraryPath)
            mmapLibs (.start (roots.map bytesToChars)) with
        | .ok () s => (.ok (bytesToChars interpreterBytes), s.calls)
        | .error e s => (.error e, s.calls) := by
  unfold resolveLibraryPaths
  split
  · exact .inl ⟨rfl, fun _ h => nomatch h⟩
  · rename_i interpreterBytes file₁ hinterp
    dsimp only
    split_ifs with hempty
    · -- a static binary: its empty interpreter is returned at once
      exact .inl ⟨rfl, fun _ h => by cases h; exact List.isEmpty_iff.mp hempty⟩
    · split
      · exact .inl ⟨rfl, fun _ h => nomatch h⟩
      · split
        · exact .inl ⟨rfl, fun _ h => nomatch h⟩
        · rename_i roots file₂ himports
          split_ifs with hroots
          · exact .inl ⟨rfl, fun _ h => nomatch h⟩
          · exact .inr ⟨interpreterBytes, file₁, roots, file₂, hinterp, himports,
              Nat.le_of_not_gt hroots, rfl⟩

/-- On every file system and every binary, the loop of `ResolveLibraryPaths` keeps, in every state
it reaches from the binary's imports, the callback given exactly the imported libraries, without
repeats; `loaded` equal to their number and at most `kMaxLoadedEntries`, so that the check against
`kMaxImportedLibraries` never fails; and at most `kMaxWorkQueueSize` entries on the stack, so that
`kMaxWorkQueueSize - to_resolve.size()` never wraps. Every run, returned or failed, has given the
callback at most `kMaxLoadedEntries` distinct libraries, each a path `ExistingPathInsideDir`
returned for a name in one of the full search directories. -/
theorem resolveLibraryPaths_bounded (fs : FileSystem) (file : ElfParser) (mmapLibs : Bool)
    (ldLibraryPath : List Char) :
    (∀ (fullSearchPaths roots : List (List Char)) (s : ResolverState),
      roots.length ≤ kMaxWorkQueueSize →
      Relation.ReflTransGen (LoopStep fs fullSearchPaths mmapLibs) (.start roots) s →
      s.calls.map Prod.fst = s.importedLibraries ∧ s.importedLibraries.Nodup ∧
        s.loaded = s.importedLibraries.length ∧ s.importedLibraries.length < kMaxImportedLibraries ∧
        s.loaded ≤ kMaxLoadedEntries ∧ s.toResolve.length ≤ kMaxWorkQueueSize) ∧
    ((resolveLibraryPaths fs file mmapLibs ldLibraryPath).2.map Prod.fst).Nodup ∧
    (resolveLibraryPaths fs file mmapLibs ldLibraryPath).2.length ≤ kMaxLoadedEntries ∧
    ∀ path ∈ (resolveLibraryPaths fs file mmapLibs ldLibraryPath).2.map Prod.fst,
      ∃ interpreter searchPath lib,
        searchPath ∈ LibraryResolver.fullSearchPaths fs interpreter ldLibraryPath ∧
        existingPathInsideDir fs.pathExists searchPath lib = .ok path := by
  refine ⟨fun fullSearchPaths roots s hroots hrun => ?_, ?_⟩
  · have hb := bounded_of_run hroots hrun
    have hi := invariant_of_run hrun
    have hloaded := hb.loaded_le
    simp only [kMaxLoadedEntries] at hloaded
    exact ⟨hb.calls, hi.nodup, hb.loaded, by rw [← hb.loaded, kMaxImportedLibraries]; omega,
      hb.loaded_le, hb.queue_le⟩
  suffices h : ∃ interpreter,
      CallsWithin fs (LibraryResolver.fullSearchPaths fs interpreter ldLibraryPath)
      (resolveLibraryPaths fs file mmapLibs ldLibraryPath).2 by
    obtain ⟨interpreter, hnodup, hlen, hkeys⟩ := h
    refine ⟨hnodup, hlen, fun path hpath => ?_⟩
    obtain ⟨lib, hkey⟩ := hkeys path hpath
    obtain ⟨searchPath, hmem, hok⟩ := existingPathInsideDir_of_resolvedKey hkey
    exact ⟨interpreter, searchPath, lib, hmem, hok⟩
  rcases resolveLibraryPaths_cases fs file mmapLibs ldLibraryPath with ⟨hnone, -⟩ |
    ⟨interpreterBytes, file₁, roots, file₂, -, -, hroots, heq⟩
  · exact ⟨[], by rw [hnone]; exact ⟨List.nodup_nil, Nat.zero_le _, fun _ h => nomatch h⟩⟩
  · refine ⟨bytesToChars interpreterBytes, ?_⟩
    have hloop : CallsWithin fs
        (LibraryResolver.fullSearchPaths fs (bytesToChars interpreterBytes) ldLibraryPath)
        (Machine.resultState (resolveLoop fs
          (LibraryResolver.fullSearchPaths fs (bytesToChars interpreterBytes) ldLibraryPath)
          mmapLibs (.start (roots.map bytesToChars)))).calls :=
      callsWithin_resolveLoop (by simpa using hroots)
    rw [heq]
    split
    · rename_i t hrun
      rw [hrun] at hloop
      exact hloop
    · rename_i e t hrun
      rw [hrun] at hloop
      exact hloop

/-- When `ResolveLibraryPaths` returns the interpreter of a dynamic executable, the callback has
been given, without repeats, exactly the libraries that the names reachable from the binary's
`DT_NEEDED` entries resolve to, through the `DT_NEEDED` entries of each library found. -/
theorem resolveLibraryPaths_loads_closure {fs : FileSystem} {file : ElfParser} {mmapLibs : Bool}
    {ldLibraryPath interpreter : List Char} {calls : List (List Char × ElfParser)}
    (h : resolveLibraryPaths fs file mmapLibs ldLibraryPath = (.ok interpreter, calls))
    (hdynamic : interpreter ≠ []) :
    ∃ interpreterBytes file₁ roots file₂,
      ElfParser.readInterpreter.run file = .ok interpreterBytes file₁ ∧
      bytesToChars interpreterBytes = interpreter ∧
      ElfParser.readImportedLibraries.run file₁ = .ok roots file₂ ∧
      (calls.map Prod.fst).Nodup ∧
      ∀ path, path ∈ calls.map Prod.fst ↔
        ∃ lib, Worklist.Reach
            (resolvedKey fs (LibraryResolver.fullSearchPaths fs interpreter ldLibraryPath))
            (importsOf fs mmapLibs) (roots.map bytesToChars) lib ∧
          resolvedKey fs (LibraryResolver.fullSearchPaths fs interpreter ldLibraryPath) lib =
            some path := by
  rcases resolveLibraryPaths_cases fs file mmapLibs ldLibraryPath with ⟨-, hstatic⟩ |
    ⟨interpreterBytes, file₁, roots, file₂, hinterp, himports, hroots, heq⟩
  · rw [h] at hstatic
    exact absurd (hstatic interpreter rfl) hdynamic
  rw [heq] at h
  split at h
  · rename_i t hloop
    cases h
    obtain ⟨hrun, hdone⟩ := resolveLoop_ok hloop
    have hb := bounded_of_run (by simpa using hroots) hrun
    have hi := invariant_of_run hrun
    have hfinal : t.toWorklist = ⟨t.importedLibraries, []⟩ := by
      simp [ResolverState.toWorklist, hdone]
    rw [hfinal] at hi
    refine ⟨interpreterBytes, file₁, roots, file₂, hinterp, rfl, himports,
      hb.calls ▸ hi.nodup, fun path => ?_⟩
    rw [hb.calls]
    exact hi.mem_visited_iff path
  · cases h

/-- `n` as `width` little-endian bytes. -/
def leBytes (width n : Nat) : List UInt8 := (List.range width).map fun i => UInt8.ofNat (n / 256 ^ i)

def nulTerminated (name : String) : List UInt8 := name.toList.map (·.toNat.toUInt8) ++ [0]

def elfFile (interp : Option String) (needed : List String) : List UInt8 :=
  let phnum := if interp.isSome then 1 else 0
  let interpBytes := (interp.map nulTerminated).getD []
  let shoff := 64 + 56 * phnum
  let dynoff := shoff + 128 + interpBytes.length
  let offsets := (needed.map nulTerminated).scanl (fun off name => off + name.length) 1
  let dynamic := (offsets.take needed.length).flatMap fun off => leBytes 8 1 ++ leBytes 8 off
  let strtab := 0 :: needed.flatMap nulTerminated
  let shdr (type offset size link entsize : Nat) : List UInt8 :=
    leBytes 4 0 ++ leBytes 4 type ++ leBytes 16 0 ++ leBytes 8 offset ++ leBytes 8 size ++
      leBytes 4 link ++ leBytes 12 0 ++ leBytes 8 entsize
  elfMag ++ [2, 1, 1] ++ leBytes 9 0 ++ leBytes 2 3 ++ leBytes 2 62 ++ leBytes 4 1 ++ leBytes 8 0 ++
    leBytes 8 (if interp.isSome then 64 else 0) ++ leBytes 8 shoff ++ leBytes 4 0 ++ leBytes 2 64 ++
    leBytes 2 56 ++ leBytes 2 phnum ++ leBytes 2 64 ++ leBytes 2 2 ++ leBytes 2 1 ++
    (if interp.isSome then
      leBytes 4 ptInterp ++ leBytes 4 0 ++ leBytes 8 (shoff + 128) ++ leBytes 16 0 ++
        leBytes 8 interpBytes.length ++ leBytes 16 0
    else []) ++
    shdr shtDynamic dynoff dynamic.length 1 sizeofDyn ++
    shdr 3 (dynoff + dynamic.length) strtab.length 0 0 ++ interpBytes ++ dynamic ++ strtab

/-- `/lib64` holding `libA.so`, which imports `libB.so`, which imports nothing. -/
def chainFileSystem : FileSystem :=
  ⟨fun path => decide (path = "/lib64".toList) || decide (path = "/lib64/libA.so".toList) ||
      decide (path = "/lib64/libB.so".toList),
    fun path =>
      if path = "/lib64/libA.so".toList then .ok (elfFile none ["libB.so"])
      else if path = "/lib64/libB.so".toList then .ok (elfFile none [])
      else .error (.openFailed .notFound "No such file or directory")⟩

def chainBinary : ElfParser :=
  match ElfParser.create "" (elfFile (some "/lib64/ld-linux-x86-64.so.2") ["libA.so"]) true with
  | .ok p => p
  | .error _ => ElfParser.empty [] true

def chainRun : Except ElfError (List Char) × List (List Char × ElfParser) :=
  resolveLibraryPaths chainFileSystem chainBinary true []

theorem chainRun_eq : chainRun = (.ok "/lib64/ld-linux-x86-64.so.2".toList, chainRun.2) := by
  have hinterp : chainRun.1 = .ok "/lib64/ld-linux-x86-64.so.2".toList := by decide +kernel
  rw [← hinterp]

theorem resolveLibraryPaths_loads_closure_chain :
    resolveLibraryPaths chainFileSystem chainBinary true [] =
        (.ok "/lib64/ld-linux-x86-64.so.2".toList, chainRun.2) ∧
      "/lib64/ld-linux-x86-64.so.2".toList ≠ [] ∧
      chainRun.2.map Prod.fst = ["/lib64/libA.so".toList, "/lib64/libB.so".toList] ∧
      ∃ interpreterBytes file₁ roots file₂,
        ElfParser.readInterpreter.run chainBinary = .ok interpreterBytes file₁ ∧
        bytesToChars interpreterBytes = "/lib64/ld-linux-x86-64.so.2".toList ∧
        ElfParser.readImportedLibraries.run file₁ = .ok roots file₂ ∧
        (chainRun.2.map Prod.fst).Nodup ∧
        ∀ path, path ∈ chainRun.2.map Prod.fst ↔
          ∃ lib, Worklist.Reach (resolvedKey chainFileSystem
                (LibraryResolver.fullSearchPaths chainFileSystem
                  "/lib64/ld-linux-x86-64.so.2".toList []))
              (importsOf chainFileSystem true) (roots.map bytesToChars) lib ∧
            resolvedKey chainFileSystem
              (LibraryResolver.fullSearchPaths chainFileSystem
                "/lib64/ld-linux-x86-64.so.2".toList [])
              lib = some path :=
  ⟨chainRun_eq, by decide, by decide +kernel,
    resolveLibraryPaths_loads_closure chainRun_eq (by decide)⟩

end LibraryResolver

end SandboxedApi
