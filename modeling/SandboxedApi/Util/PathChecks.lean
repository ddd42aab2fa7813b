import SandboxedApi.Util.Path
import SandboxedApi.Util.Status

namespace SandboxedApi

open PathWalk

/-- `ValidatePath`. -/
def validatePath (path : List Char) (allowRelativePath : Bool) : Except Status (List Char) :=
  if path.isEmpty then .error ⟨.invalidArgument, "Path must not be empty"⟩
  else if !isAbsolutePath path && !allowRelativePath then
    .error ⟨.invalidArgument, "Path must be absolute: " ++ String.ofList path⟩
  else
    let fixedPath := cleanPath path
    if fixedPath != path then
      .error ⟨.invalidArgument, "Path is not canonical: " ++ String.ofList path⟩
    else .ok fixedPath

/-- `PolicyBuilder::AnchorPathAbsolute`, given what `fileops::GetCWD()` returns: the working
directory, or the empty string when it fails. -/
def anchorPathAbsolute (cwd relativePath base : List Char) : List Char :=
  if relativePath.isEmpty then []
  else if isAbsolutePath relativePath then relativePath
  else
    let cleanedPath := cleanPath relativePath
    if ['.', '.', '/'].isPrefixOf cleanedPath || cleanedPath == ['.', '.'] then []
    else if isAbsolutePath base then cleanPath (joinPath [base, cleanedPath])
    else if cwd.isEmpty then []
    else if base.isEmpty then cleanPath (joinPath [cwd, cleanedPath])
    else cleanPath (joinPath [cwd, base, cleanedPath])

/-- `std::string_view::find_last_of(c)`: the index of the last `c`, with `npos` as `none`. -/
def findLastOf (c : Char) : List Char → Option Nat
  | [] => none
  | x :: xs =>
    match findLastOf c xs with
    | some i => some (i + 1)
    | none => if x = c then some 0 else none

/-- `fileops::StripBasename`. -/
def stripBasename (path : List Char) : List Char :=
  match findLastOf '/' path with
  | none => []
  | some 0 => ['/']
  | some lastSlash => path.take lastSlash

/-- `ExistingPathInsideDir`, given `fileops::Exists(path, false)`. -/
def existingPathInsideDir (pathExists : List Char → Bool) (dirPath relativePath : List Char) :
    Except Status (List Char) :=
  let path := cleanPath (joinPath [dirPath, relativePath])
  if stripBasename path != dirPath then
    .error ⟨.invalidArgument, "Relative path goes above the base dir"⟩
  else if !pathExists path then .error ⟨.notFound, "Does not exist: " ++ String.ofList path⟩
  else .ok path

/-- `ResolveLibraryPath`: the first search path that holds the library, or the empty string. -/
def resolveLibraryPath (pathExists : List Char → Bool) (libName : List Char) :
    List (List Char) → List Char
  | [] => []
  | searchPath :: searchPaths =>
    match existingPathInsideDir pathExists searchPath libName with
    | .ok path => path
    | .error _ => resolveLibraryPath pathExists libName searchPaths

theorem validatePath_ok_iff (path : List Char) :
    (∃ fixedPath, validatePath path false = .ok fixedPath) ↔
      isAbsolutePath path = true ∧ cleanPath path = path := by
  by_cases habs : isAbsolutePath path = true
  · have hne : path.isEmpty = false := by
      cases path with
      | nil => exact absurd habs (by decide)
      | cons c cs => rfl
    by_cases hclean : cleanPath path = path
    · simp [validatePath, hne, habs, hclean]
    · simp [validatePath, hne, habs, hclean]
  · by_cases hne : path.isEmpty
    · simp [validatePath, hne, habs]
    · simp [validatePath, hne, habs]

/-- `CleanPath` is a canonicaliser: it is idempotent, its results are clean paths that start
with a slash exactly when the path does and denote what the path does, and the canonical
absolute paths are exactly what `ValidatePath` accepts. -/
theorem cleanPath_canonicalises (path : List Char) :
    cleanPath (cleanPath path) = cleanPath path ∧ IsCleanPath (cleanPath path) ∧
    isAbsolutePath (cleanPath path) = ['/'].isPrefixOf path ∧
    denotation (cleanPath path) = denotation path ∧
    ((∃ fixedPath, validatePath path false = .ok fixedPath) ↔
      isAbsolutePath path = true ∧ IsCleanPath path) := by
  refine ⟨cleanPath_cleanPath path, isCleanPath_cleanPath path, isAbsolutePath_cleanPath_eq path,
    denotation_cleanPath path, ?_⟩
  rw [validatePath_ok_iff, cleanPath_eq_self_iff]

theorem eq_dotdot_of_isPrefix {d rest : List Char} (hslash : '/' ∉ d)
    (h : ['.', '.', '/'] <+: d ++ '/' :: rest) : d = ['.', '.'] := by
  match d, hslash, h with
  | [], _, h => simp [List.cons_prefix_cons] at h
  | [c], _, h => simp [List.cons_prefix_cons] at h
  | [c₁, c₂], _, h =>
    simp only [List.cons_append, List.nil_append, List.cons_prefix_cons] at h
    rw [← h.1, ← h.2.1]
  | c₁ :: c₂ :: c₃ :: cs, hslash, h =>
    simp only [List.cons_append, List.cons_prefix_cons] at h
    exact absurd (h.2.2.1 ▸ by simp) hslash

theorem rejects_renderPath_iff {q : Place (List Char)} (hc : IsCleanPlace q) :
    (renderPath false q = ['.', '.'] ∨ ['.', '.', '/'] <+: renderPath false q) ↔ q.ups ≠ 0 := by
  constructor
  · intro h hups
    cases hd : q.downs with
    | nil =>
      have hdot : renderPath false q = ['.'] := by simp [renderPath, hups, hd]
      rw [hdot] at h
      rcases h with h | h
      · exact absurd h (by decide)
      · exact absurd h (by decide)
    | cons d ds =>
      obtain ⟨hdne, -, hdotdot, hslash⟩ : IsPathComponent d := hc d (by simp [hd])
      have hrender : renderPath false q = ['/'].intercalate (d :: ds) := by
        simp [renderPath, hups, hd]
      rw [hrender] at h
      cases ds with
      | nil =>
        simp only [List.intercalate_singleton] at h
        rcases h with h | h
        · exact hdotdot h
        · exact hslash (h.subset (by simp))
      | cons e es =>
        have hjoin : ['/'].intercalate (d :: e :: es) = d ++ '/' :: ['/'].intercalate (e :: es) := by
          simp [List.intercalate_cons_cons]
        rw [hjoin] at h
        rcases h with h | h
        · -- a lone `..` has no slash in it
          have hmem : '/' ∈ ['.', '.'] := by rw [← h]; simp
          simp at hmem
        · exact hdotdot (eq_dotdot_of_isPrefix hslash h)
  · intro hups
    obtain ⟨u, hu⟩ := Nat.exists_eq_succ_of_ne_zero hups
    have hrender : renderPath false q =
        ['/'].intercalate (['.', '.'] :: (List.replicate u ['.', '.'] ++ q.downs)) := by
      simp [renderPath, hu, List.replicate_succ]
    rw [hrender]
    cases hrest : List.replicate u ['.', '.'] ++ q.downs with
    | nil => exact .inl (by simp)
    | cons e es => exact .inr ⟨['/'].intercalate (e :: es), by simp [List.intercalate_cons_cons]⟩

def AnchoredBelow (base relativePath result : List Char) : Prop :=
  (result = [] ↔ (cleanPath relativePath = ['.', '.'] ∨ ['.', '.', '/'] <+: cleanPath relativePath)) ∧
  (result ≠ [] →
    IsCleanPath result ∧ isAbsolutePath result = true ∧
    (result = cleanPath base ∨ cleanPath base ++ ['/'] <+: result ∨ cleanPath base = ['/']) ∧
    result = cleanPath (joinPath [base, relativePath]))

section

variable {cwd relativePath : List Char}

theorem anchorPathAbsolute_of_isAbsolutePath {base : List Char} (hr : relativePath ≠ [])
    (hrel : isAbsolutePath relativePath = false) (hbase : isAbsolutePath base = true) :
    AnchoredBelow base relativePath (anchorPathAbsolute cwd relativePath base) := by
  have hrel' : ['/'].isPrefixOf relativePath = false := by
    rwa [← isAbsolutePath_eq_isPrefixOf]
  have hbase' : ['/'].isPrefixOf base = true := by rwa [← isAbsolutePath_eq_isPrefixOf]
  have hbne : base ≠ [] := by
    rintro rfl
    exact absurd hbase (by decide)
  have hrne : relativePath.isEmpty = false := by simpa using hr
  have hq := clean_walk_pathParts relativePath
  have hclean : cleanPath relativePath =
      renderPath false (walk Place.start ((pathParts relativePath).map pathStep)) := by
    rw [cleanPath_eq, hrel']
  have htest : (['.', '.', '/'].isPrefixOf (cleanPath relativePath) ||
      cleanPath relativePath == ['.', '.']) = true ↔
      (cleanPath relativePath = ['.', '.'] ∨ ['.', '.', '/'] <+: cleanPath relativePath) := by
    simp [List.isPrefixOf_iff_prefix, or_comm]
  by_cases hups : (walk Place.start ((pathParts relativePath).map pathStep)).ups = 0
  · -- accepted: the result is the base's place gone down through the relative path's names
    have hnot : ¬(cleanPath relativePath = ['.', '.'] ∨
        ['.', '.', '/'] <+: cleanPath relativePath) := by
      rw [hclean, rejects_renderPath_iff hq]
      exact fun h => h hups
    have hanchor : anchorPathAbsolute cwd relativePath base =
        cleanPath (joinPath [base, relativePath]) := by
      have htest' : (['.', '.', '/'].isPrefixOf (cleanPath relativePath) ||
          cleanPath relativePath == ['.', '.']) = false :=
        Bool.eq_false_iff.mpr fun h => hnot (htest.mp h)
      simp only [anchorPathAbsolute, hrne, hrel, hbase, Bool.false_eq_true, if_false, if_true,
        htest']
      exact cleanPath_joinPath_cleanPath_right hbne hrel'
    have hjoin : ['/'].isPrefixOf (joinPath [base, relativePath]) = true := by
      rw [isPrefixOf_joinPath hbne, hbase']
    have habs : isAbsolutePath (cleanPath (joinPath [base, relativePath])) = true := by
      rw [isAbsolutePath_cleanPath_eq, hjoin]
    have hne : cleanPath (joinPath [base, relativePath]) ≠ [] := by
      intro h
      rw [h] at habs
      exact absurd habs (by decide)
    refine ⟨⟨fun h => absurd (hanchor ▸ h) hne, fun h => absurd h hnot⟩, fun _ => ?_⟩
    rw [hanchor]
    refine ⟨isCleanPath_cleanPath _, habs, ?_, rfl⟩
    have hwalk : walk Place.start ((pathParts (joinPath [base, relativePath])).map pathStep) =
        ⟨(walk Place.start ((pathParts base).map pathStep)).ups,
          (walk Place.start ((pathParts base).map pathStep)).downs ++
            (walk Place.start ((pathParts relativePath).map pathStep)).downs⟩ := by
      simp only [pathParts_joinPath, List.flatMap_cons, List.flatMap_nil, List.append_nil,
        List.map_append, walk_append]
      rw [walk_eq_walk_steps _ ((pathParts relativePath).map pathStep), Place.steps, hups,
        List.replicate_zero, List.nil_append, walk_map_down]
    rw [cleanPath_eq (joinPath [base, relativePath]), hjoin, hwalk, cleanPath_eq base, hbase']
    exact renderPath_true_append _ _ _ _
  · -- rejected: the cleaned relative path climbs above its start
    have hrej : cleanPath relativePath = ['.', '.'] ∨ ['.', '.', '/'] <+: cleanPath relativePath := by
      rw [hclean, rejects_renderPath_iff hq]
      exact hups
    have hanchor : anchorPathAbsolute cwd relativePath base = [] := by
      have htest' := htest.mpr hrej
      simp only [anchorPathAbsolute, hrne, hrel, Bool.false_eq_true, if_false, htest', if_true]
    exact ⟨⟨fun _ => hrej, fun _ => hanchor⟩, fun h => absurd hanchor h⟩

theorem anchorPathAbsolute_nil (hcwd : isAbsolutePath cwd = true) :
    anchorPathAbsolute cwd relativePath [] = anchorPathAbsolute cwd relativePath cwd := by
  have hcwdne : cwd.isEmpty = false := by
    cases cwd with
    | nil => exact absurd hcwd (by decide)
    | cons c cs => rfl
  have hnil : isAbsolutePath [] = false := rfl
  simp only [anchorPathAbsolute, hcwd, hcwdne, hnil, List.isEmpty_nil, Bool.false_eq_true,
    if_false, if_true]

theorem anchorPathAbsolute_relative {base : List Char} (hcwd : isAbsolutePath cwd = true)
    (hb : base ≠ []) (hbrel : isAbsolutePath base = false) :
    anchorPathAbsolute cwd relativePath base =
      anchorPathAbsolute cwd relativePath (cleanPath (cwd ++ '/' :: base)) := by
  have hcwdne : cwd ≠ [] := by
    rintro rfl
    exact absurd hcwd (by decide)
  have hcwd' : ['/'].isPrefixOf cwd = true := by rwa [← isAbsolutePath_eq_isPrefixOf]
  have hjoined : ['/'].isPrefixOf (cwd ++ '/' :: base) = true := by
    rw [isPrefixOf_slash_of_isPrefix hcwdne (List.prefix_append _ _), hcwd']
  have habs : isAbsolutePath (cleanPath (cwd ++ '/' :: base)) = true := by
    rw [isAbsolutePath_cleanPath_eq, hjoined]
  have hbne : base.isEmpty = false := by simpa using hb
  have hcwdne' : cwd.isEmpty = false := by simpa using hcwdne
  unfold anchorPathAbsolute
  by_cases hrne : relativePath.isEmpty = true
  · simp only [hrne, if_true]
  · by_cases hrabs : isAbsolutePath relativePath = true
    · simp only [hrne, hrabs, Bool.false_eq_true, if_false, if_true]
    · by_cases htest : (['.', '.', '/'].isPrefixOf (cleanPath relativePath) ||
          cleanPath relativePath == ['.', '.']) = true
      · simp only [hrne, hrabs, htest, if_true]
      · simp only [hrne, hrabs, htest, hbrel, habs, hcwdne', hbne, Bool.false_eq_true, if_false,
          if_true]
        rw [cleanPath_joinPath_cleanPath_left hjoined]
        apply cleanPath_congr
        · rw [isPrefixOf_joinPath hcwdne, isPrefixOf_joinPath (by simp), hcwd', hjoined]
        · simp [pathParts_joinPath, pathParts_append_slash]

/-- `AnchorPathAbsolute` never escapes its base: an absolute base, the working directory for
no base, or the working directory joined with a relative base. -/
theorem anchorPathAbsolute_within_base (base b : List Char) (hr : relativePath ≠ [])
    (hrel : isAbsolutePath relativePath = false)
    (hbase : (isAbsolutePath b = true ∧ base = b) ∨
      (isAbsolutePath cwd = true ∧ b = [] ∧ base = cwd) ∨
      (isAbsolutePath cwd = true ∧ b ≠ [] ∧ isAbsolutePath b = false ∧
        base = cleanPath (cwd ++ '/' :: b))) :
    AnchoredBelow base relativePath (anchorPathAbsolute cwd relativePath b) := by
  rcases hbase with ⟨hb, rfl⟩ | ⟨hcwd, rfl, rfl⟩ | ⟨hcwd, hb, hbrel, rfl⟩
  · exact anchorPathAbsolute_of_isAbsolutePath hr hrel hb
  · rw [anchorPathAbsolute_nil hcwd]
    exact anchorPathAbsolute_of_isAbsolutePath hr hrel hcwd
  · have hcwdne : cwd ≠ [] := by
      rintro rfl
      exact absurd hcwd (by decide)
    have habs : isAbsolutePath (cleanPath (cwd ++ '/' :: b)) = true := by
      rw [isAbsolutePath_cleanPath_eq, isPrefixOf_slash_of_isPrefix hcwdne (List.prefix_append _ _),
        ← isAbsolutePath_eq_isPrefixOf, hcwd]
    rw [anchorPathAbsolute_relative hcwd hb hbrel]
    exact anchorPathAbsolute_of_isAbsolutePath hr hrel habs

end

theorem anchorPathAbsolute_within_base_dotdot :
    "a/../b".toList ≠ [] ∧ isAbsolutePath "a/../b".toList = false ∧
    AnchoredBelow "/home/user".toList "a/../b".toList
      (anchorPathAbsolute "/".toList "a/../b".toList "/home/user".toList) ∧
    anchorPathAbsolute "/".toList "a/../b".toList "/home/user".toList = "/home/user/b".toList :=
  ⟨by decide, by decide,
    anchorPathAbsolute_within_base "/home/user".toList "/home/user".toList (by decide) (by decide)
      (.inl ⟨by decide, rfl⟩), by decide⟩

theorem findLastOf_eq_none {c : Char} : ∀ {path : List Char}, c ∉ path → findLastOf c path = none
  | [], _ => rfl
  | x :: xs, h => by
    have hx : x ≠ c := fun hx => h (hx ▸ List.mem_cons_self)
    have hxs : c ∉ xs := fun hc => h (List.mem_cons_of_mem _ hc)
    simp [findLastOf, findLastOf_eq_none hxs, hx]

theorem findLastOf_append_cons {c : Char} {suffix : List Char} (h : c ∉ suffix) :
    ∀ pre : List Char, findLastOf c (pre ++ c :: suffix) = some pre.length
  | [] => by simp [findLastOf, findLastOf_eq_none h]
  | x :: xs => by simp [findLastOf, findLastOf_append_cons h xs]

theorem stripBasename_append_slash {dir name : List Char} (h : '/' ∉ name) :
    stripBasename (dir ++ '/' :: name) = if dir = [] then ['/'] else dir := by
  unfold stripBasename
  rw [findLastOf_append_cons h]
  cases dir with
  | nil => rfl
  | cons c cs => simp

/-- What `ExistingPathInsideDir` returns, for an absolute directory: the cleaned join, which is
one path component directly inside the directory, or the root itself for the root directory. -/
theorem existingPathInsideDir_child (pathExists : List Char → Bool) {dirPath relativePath path : List Char}
    (habs : isAbsolutePath dirPath = true)
    (h : existingPathInsideDir pathExists dirPath relativePath = .ok path) :
    path = cleanPath (joinPath [dirPath, relativePath]) ∧
    ((∃ name, IsPathComponent name ∧
        path = (if dirPath = ['/'] then [] else dirPath) ++ '/' :: name) ∨
      (dirPath = ['/'] ∧ path = ['/'])) := by
  have hdne : dirPath ≠ [] := by
    rintro rfl
    exact absurd habs (by decide)
  have hpath : path = cleanPath (joinPath [dirPath, relativePath]) ∧
      stripBasename (cleanPath (joinPath [dirPath, relativePath])) = dirPath := by
    unfold existingPathInsideDir at h
    dsimp only at h
    by_cases hstrip : stripBasename (cleanPath (joinPath [dirPath, relativePath])) = dirPath
    · by_cases hexists : pathExists (cleanPath (joinPath [dirPath, relativePath])) = true
      · simp only [hstrip, hexists, bne_self_eq_false, Bool.not_true, Bool.false_eq_true,
          if_false, Except.ok.injEq] at h
        exact ⟨h.symm, hstrip⟩
      · simp [hstrip, hexists] at h
    · simp [hstrip] at h
  obtain ⟨rfl, hstrip⟩ := hpath
  refine ⟨rfl, ?_⟩
  have hstart : ['/'].isPrefixOf (joinPath [dirPath, relativePath]) = true := by
    rw [isPrefixOf_joinPath hdne, ← isAbsolutePath_eq_isPrefixOf, habs]
  have hc := clean_walk_pathParts (joinPath [dirPath, relativePath])
  rw [cleanPath_eq, hstart] at hstrip ⊢
  generalize walk Place.start ((pathParts (joinPath [dirPath, relativePath])).map pathStep) = q
    at hc hstrip ⊢
  cases hd : q.downs using List.reverseRecOn with
  | nil =>
    have hroot : renderPath true q = ['/'] := by simp [renderPath, hd]
    rw [hroot] at hstrip ⊢
    exact .inr ⟨by rw [← hstrip]; rfl, rfl⟩
  | append_singleton ds name =>
    have hname : IsPathComponent name := hc name (by simp [hd])
    have hds : ∀ d ∈ ds, IsPathComponent d := fun d hmem => hc d (by simp [hd, hmem])
    have hsplit : renderPath true q = (if ds = [] then [] else '/' :: ['/'].intercalate ds) ++
        '/' :: name := by
      by_cases hnil : ds = []
      · simp [renderPath, hd, hnil]
      · have hne : ds ++ [name] ≠ [] := by simp
        simp only [renderPath, hd, if_true, if_neg hne, if_neg hnil,
          List.intercalate_cons_of_ne_nil hne,
          intercalate_append_of_ne_nil hnil (List.cons_ne_nil name [])]
        simp
    rw [hsplit, stripBasename_append_slash hname.2.2.2] at hstrip
    refine .inl ⟨name, hname, ?_⟩
    rw [hsplit]
    by_cases hnil : ds = []
    · simp only [hnil, if_true] at hstrip ⊢
      simp [← hstrip]
    · simp only [hnil, if_false, List.cons_ne_nil, if_false] at hstrip ⊢
      have hnotroot : '/' :: ['/'].intercalate ds ≠ ['/'] := by
        obtain ⟨d, ds', rfl⟩ := List.exists_cons_of_ne_nil hnil
        have hdne := (hds d List.mem_cons_self).1
        obtain ⟨c, cs, rfl⟩ := List.exists_cons_of_ne_nil hdne
        simp
      rw [← hstrip, if_neg hnotroot]

theorem existingPathInsideDir_child_libc :
    isAbsolutePath "/lib".toList = true ∧
    existingPathInsideDir (fun _ => true) "/lib".toList "libc.so.6".toList =
      .ok "/lib/libc.so.6".toList ∧
    ("/lib/libc.so.6".toList = cleanPath (joinPath ["/lib".toList, "libc.so.6".toList]) ∧
      ((∃ name, IsPathComponent name ∧ "/lib/libc.so.6".toList =
          (if "/lib".toList = ['/'] then [] else "/lib".toList) ++ '/' :: name) ∨
        ("/lib".toList = ['/'] ∧ "/lib/libc.so.6".toList = ['/']))) :=
  ⟨by decide, by decide, existingPathInsideDir_child (fun _ => true) (by decide) (by decide)⟩

/-- For the root directory, a library name that cleans to the root (`""`, `"."`, `".."`, `"/"`)
is accepted as the root, and `"../x"` as `"/x"`. -/
theorem existingPathInsideDir_root_empty :
    existingPathInsideDir (fun _ => true) ['/'] [] = .ok ['/'] ∧
      existingPathInsideDir (fun _ => true) ['/'] ['.'] = .ok ['/'] ∧
      existingPathInsideDir (fun _ => true) ['/'] ['.', '.'] = .ok ['/'] ∧
      existingPathInsideDir (fun _ => true) ['/'] ['/'] = .ok ['/'] ∧
      existingPathInsideDir (fun _ => true) ['/'] "../x".toList = .ok "/x".toList := by
  decide

theorem resolveLibraryPath_cases (pathExists : List Char → Bool) (libName : List Char) :
    ∀ searchPaths : List (List Char),
      resolveLibraryPath pathExists libName searchPaths = [] ∨
        ∃ searchPath ∈ searchPaths, existingPathInsideDir pathExists searchPath libName =
          .ok (resolveLibraryPath pathExists libName searchPaths)
  | [] => .inl rfl
  | searchPath :: searchPaths => by
    unfold resolveLibraryPath
    split
    · next path hpath => exact .inr ⟨searchPath, List.mem_cons_self, hpath⟩
    · rcases resolveLibraryPath_cases pathExists libName searchPaths with h | ⟨d, hd, hok⟩
      · exact .inl h
      · exact .inr ⟨d, List.mem_cons_of_mem _ hd, hok⟩

end SandboxedApi
